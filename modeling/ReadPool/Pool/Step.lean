import ReadPool.Pool.Log
import ReadPool.Pool.World

/-!
# Pool operations, step by step

What a thread still has to do is a stack of frames. Each frame stands for one action that nothing
can come between: to receive one death, to take one slot out, to look an identity up, to publish.
`step` does the action on top. Three kinds of frames wait for the environment instead, `opening`,
`closing` and `retiring`; the environment ends them by `opened`, `closed` and `retired`, and in the
meantime the same thread may put the frames of other calls on top of them.

The opener and the closes therefore never run inside an action, and a call is answered when its
last frame has gone.
-/

namespace ReadPool

/-- Why a raw handle is closed. -/
inductive CloseCause where
  | lostRace
  | death
deriving DecidableEq, Repr

inductive Frame where
  /-- Receive the next death, after `count` others. -/
  | receive (p : PoolId) (count : Nat)
  /-- Take the slot of a received death out. -/
  | evict (p : PoolId) (note : Note)
  | lookUp (p : PoolId) (X : Identity)
  /-- The opener is at work. -/
  | opening (p : PoolId) (X : Identity) (observed : Option Entry)
  /-- Number the open and put the raw handle into a wrapper. -/
  | wrap (p : PoolId) (X : Identity) (observed : Option Entry) (raw : RawId)
  | publish (p : PoolId) (X : Identity) (observed : Option Entry) (h : WrapperId)
  /-- Take the raw handle of a lost race back out. -/
  | discard (h : WrapperId)
  | close (raw : RawId) (X : Identity) (entry : Entry) (cause : CloseCause)
  /-- The close is at work. -/
  | closing (raw : RawId) (X : Identity) (entry : Entry) (cause : CloseCause)
  /-- Let a reference go. -/
  | drop (h : WrapperId)
  /-- Post a death to the pool that the wrapper came from. -/
  | post (home : PoolId) (note : Note)
  /-- Let go of a pool's opener. -/
  | retire (p : PoolId)
  /-- The opener is on its way out, and may let go of references that it has held. -/
  | retiring (p : PoolId)
  /-- End a pool's queue. -/
  | disconnect (p : PoolId)
  /-- Release the deaths that were left in a queue. -/
  | flush (notes : List Note)
deriving DecidableEq, Repr

/-- The environment's turn. -/
def Frame.isWaiting : Frame → Bool
  | opening .. => true
  | closing .. => true
  | retiring .. => true
  | _ => false

/-- Nothing that was called is left to do before the environment's turn. -/
def isIdle : List Frame → Bool
  | [] => true
  | f :: _ => f.isWaiting

inductive Answer where
  | acquired (result : Except PoolError WrapperId)
  | purged (count : Nat)
  | done

inductive Call where
  | acquire (p : PoolId) (X : Identity)
  | purge (p : PoolId)
  | drop (h : WrapperId)
  | dropPool (p : PoolId)
  /-- Post a death that was made by hand. -/
  | post (home : PoolId) (note : Note)
  /-- Close what a death carries. -/
  | release (note : Note)
  /-- End a queue that is no pool's. -/
  | disconnect (p : PoolId)
deriving DecidableEq, Repr

/-- All that a call has to do, first things first. An acquisition drains before it looks. A pool
drains before it lets go of its opener, and its queue goes after that. -/
def Call.frames : Call → List Frame
  | acquire p X => [.receive p 0, .lookUp p X]
  | purge p => [.receive p 0]
  | drop h => [.drop h]
  | dropPool p => [.receive p 0, .retire p, .disconnect p]
  | post home note => [.post home note]
  | release note => [.close note.raw note.identity note.entry .death]
  | disconnect p => [.disconnect p]

/-- What one action came to. -/
structure Turn (σ : Type u) where
  world : World σ
  frames : List Frame
  log : List LogEvent := []
  answer : Option Answer := none

namespace World

/-- An action after which nothing of its call is left, unless frames below still belong to it. -/
def finish (w : World σ) (frames : List Frame) (answer : Answer)
    (log : List LogEvent := []) : Turn σ where
  world := w
  frames := frames
  log := log
  answer := if isIdle frames then some answer else none

/-! ## The environment -/

/-- The opener at work on top has answered. -/
def opened (w : World σ) (frames : List Frame) (result : Except IoError σ) : Option (Turn σ) :=
  match frames with
  | .opening p X observed :: rest =>
    match result with
    | .error e => some (w.finish rest (.acquired (.error (.openFailed X e))) [.openFailed X e])
    | .ok state =>
      let (w, raw) := w.addRaw X state
      some { world := w, frames := .wrap p X observed raw :: rest }
  | _ => none

/-- What a close that has ended is reported as. -/
def closeReport (X : Identity) (entry : Entry) : CloseCause → Option IoError → List LogEvent
  | .lostRace, none => []
  | .lostRace, some e => [.loserCloseFailed X entry e]
  | .death, none => [.released X entry]
  | .death, some e => [.closeFailed X entry e]

/-- The close at work on top has ended, well or with an error. -/
def closed (w : World σ) (frames : List Frame) (error : Option IoError) : Option (Turn σ) :=
  match frames with
  | .closing raw X entry cause :: rest =>
    some ((w.updateRaw raw fun r => { r with phase := .closed }).finish rest .done
      (closeReport X entry cause error))
  | _ => none

/-- The opener on its way out on top has gone. -/
def retired (w : World σ) (frames : List Frame) : Option (Turn σ) :=
  match frames with
  | .retiring _ :: rest => some (w.finish rest .done)
  | _ => none

/-! ## Actions -/

/-- The action on top of the frames; none while the environment has its turn. -/
def step (w : World σ) (frames : List Frame) : Option (Turn σ) :=
  match frames with
  | [] => none
  | .opening .. :: _ => none
  | .closing .. :: _ => none
  | .retiring .. :: _ => none
  | .receive p count :: rest =>
    match w.receive? p with
    | none => some (w.finish rest (.purged count))
    | some (note, w) =>
      some { world := w, frames := .evict p note :: .receive p (count + 1) :: rest }
  | .evict p note :: rest =>
    -- The slot goes before the close begins, so that no close can see it.
    let removed := w.pools[p]?.map fun pool => pool.slots.isCurrent note.identity note.entry
    some
      { world := w.updatePool p fun pool =>
          { pool with slots := pool.slots.evict note.identity note.entry }
        frames := .close note.raw note.identity note.entry .death :: rest
        log := [.drained note.identity note.entry (removed.getD false)] }
  | .lookUp p X :: rest =>
    match w.pools[p]?.bind fun pool => pool.slots.find? X with
    | none => some { world := w, frames := .opening p X none :: rest }
    | some slot =>
      -- A dead slot stays until its death is received; what is opened now may replace it.
      match w.upgrade? slot.wrapper with
      | some w => some (w.finish rest (.acquired (.ok slot.wrapper)))
      | none => some { world := w, frames := .opening p X (some slot.entry) :: rest }
  | .wrap p X observed raw :: rest =>
    let entry := (w.pools[p]?.map Pool.next).getD 0
    let (w, h) := (w.updatePool p fun pool => { pool with next := pool.next + 1 }).addWrapper
      p X entry raw
    some { world := w, frames := .publish p X observed h :: rest }
  | .publish p X observed h :: rest =>
    let entry := (w.wrappers[h]?.map Wrapper.entry).getD 0
    match w.pools[p]?.bind fun pool => pool.slots.publish X observed ⟨entry, h⟩ with
    | some slots =>
      some ((w.updatePool p fun pool => { pool with slots }).finish rest (.acquired (.ok h))
        [.published X entry observed])
    | none =>
      -- Somebody else changed the slot in the meantime: look again, without draining again.
      some
        { world := w
          frames := .discard h :: .lookUp p X :: rest
          log := [.lostRace X entry] }
  | .discard h :: rest =>
    match w.wrappers[h]?, w.intoRaw? h with
    | some x, some (w, raw) =>
      some { world := w, frames := .close raw x.identity x.entry .lostRace :: rest }
    | _, _ => some { world := w, frames := .drop h :: rest }
  | .drop h :: rest =>
    match w.release h with
    | (w, some (home, note)) => some { world := w, frames := .post home note :: rest }
    | (w, none) => some (w.finish rest .done)
  | .close raw X entry cause :: rest =>
    some
      { world := w.updateRaw raw fun r => { r with phase := .closing }
        frames := .closing raw X entry cause :: rest }
  | .post home note :: rest =>
    match w.pools[home]?.bind Pool.queue with
    | some notes =>
      some ((w.updatePool home fun pool => { pool with queue := some (notes ++ [note]) }).finish
        rest .done)
    | none =>
      some
        { world := w
          frames := .close note.raw note.identity note.entry .death :: rest
          log := [.releasedInline note.identity note.entry] }
  | .retire p :: rest => some { world := w, frames := .retiring p :: rest }
  | .disconnect p :: rest =>
    -- What is posted from here on is released by whoever posts it.
    some
      { world := w.updatePool p fun pool => { pool with slots := .empty, queue := none }
        frames := .flush (w.pending p) :: rest }
  | .flush [] :: rest => some (w.finish rest .done)
  | .flush (note :: notes) :: rest =>
    some
      { world := w
        frames := .close note.raw note.identity note.entry .death :: .flush notes :: rest }

end World

end ReadPool
