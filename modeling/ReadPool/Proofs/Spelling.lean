import Mathlib
import ReadPool.Proofs.Moments
import ReadPool.Proofs.NormalForm
import ReadPool.Proofs.Slots

/-!
# Spellings of identities

Whatever has identities can be written with their normal spellings. Nothing that pools, threads and
callers do depends on the spelling, so writing everything anew commutes with every action, every act
and every run. Two runs with other spellings of the same identities therefore have the same normal
form; what that means for what they meet and answer is in `ReadPool.Proofs.Spellings`.
-/

namespace ReadPool

/-! ## Normal forms -/

def RawHandle.normal (r : RawHandle σ) : RawHandle σ := { r with identity := r.identity.normal }

def Note.normal (note : Note) : Note := { note with identity := note.identity.normal }

def Wrapper.normal (x : Wrapper) : Wrapper := { x with identity := x.identity.normal }

def Slots.normal (s : Slots) : Slots where
  toList := s.toList.map fun e => (e.1.normal, e.2)
  distinct := List.pairwise_map.2 (s.distinct.imp fun hab => by simpa using hab)

def Pool.normal (pool : Pool) : Pool :=
  { pool with slots := pool.slots.normal, queue := pool.queue.map (List.map Note.normal) }

def World.normal (w : World σ) : World σ where
  raws := w.raws.map RawHandle.normal
  wrappers := w.wrappers.map Wrapper.normal
  pools := w.pools.map Pool.normal

def Frame.normal : Frame → Frame
  | receive p count => receive p count
  | evict p note => evict p note.normal
  | lookUp p X => lookUp p X.normal
  | opening p X observed => opening p X.normal observed
  | wrap p X observed raw => wrap p X.normal observed raw
  | publish p X observed h => publish p X.normal observed h
  | discard h => discard h
  | close raw X entry cause => close raw X.normal entry cause
  | closing raw X entry cause => closing raw X.normal entry cause
  | drop h => drop h
  | post home note => post home note.normal
  | retire p => retire p
  | retiring p => retiring p
  | disconnect p => disconnect p
  | flush notes => flush (notes.map Note.normal)

def PoolError.normal : PoolError → PoolError
  | openFailed X e => openFailed X.normal e
  | e => e

def Answer.normal : Answer → Answer
  | acquired (.error e) => acquired (.error e.normal)
  | answer => answer

def LogEvent.normal : LogEvent → LogEvent
  | openFailed X e => openFailed X.normal e
  | published X entry replaced => published X.normal entry replaced
  | lostRace X entry => lostRace X.normal entry
  | loserCloseFailed X entry e => loserCloseFailed X.normal entry e
  | drained X entry removed => drained X.normal entry removed
  | released X entry => released X.normal entry
  | closeFailed X entry e => closeFailed X.normal entry e
  | releasedInline X entry => releasedInline X.normal entry

def Turn.normal (turn : Turn σ) : Turn σ where
  world := turn.world.normal
  frames := turn.frames.map Frame.normal
  log := turn.log.map LogEvent.normal
  answer := turn.answer.map Answer.normal

def Call.normal : Call → Call
  | acquire p X => acquire p X.normal
  | post home note => post home note.normal
  | release note => release note.normal
  | c => c

def Event.normal : Event → Event
  | asked p X => asked p X.normal
  | acquired p X h => acquired p X.normal h
  | ev => ev

def Act.normal : Act σ → Act σ
  | .call t c => .call t c.normal
  | a => a

def System.normal (s : System σ) : System σ where
  world := s.world.normal
  threads := s.threads.map (List.map Frame.normal)
  held := s.held
  history := s.history.map Event.normal

def Moment.normal (m : Moment σ) : Moment σ := ⟨m.system.normal, m.act.normal⟩

/-! ## The table -/

namespace Slots

variable {s : Slots} {X : Identity} {observed : Option Entry} {slot : Slot}

@[simp] theorem find?_normal (s : Slots) (X : Identity) : s.normal.find? X = s.find? X := by
  simp only [find?, normal, List.find?_map, Option.map_map, Function.comp_def,
    Identity.same_normal_left]

@[simp] theorem find?_normal_right (s : Slots) (X : Identity) : s.find? X.normal = s.find? X :=
  s.find?_congr X.same_normal

theorem erase_normal : s.normal.erase X.normal = (s.erase X).normal := by
  apply ext_toList
  simp only [erase, normal, List.filter_map, Function.comp_def, Identity.same_normal_left,
    Identity.same_normal_right]

theorem isCurrent_normal (entry : Entry) :
    s.normal.isCurrent X.normal entry = s.isCurrent X entry := by simp [isCurrent]

theorem evict_normal (entry : Entry) :
    s.normal.evict X.normal entry = (s.evict X entry).normal := by
  rw [evict, evict, isCurrent_normal, erase_normal, apply_ite normal]

theorem publish_normal :
    s.normal.publish X.normal observed slot = (s.publish X observed slot).map normal := by
  -- The slots carry a proof, so the two sides are compared as lists.
  have hinj : Function.Injective (Option.map toList) :=
    Option.map_injective fun _ _ => ext_toList
  apply hinj
  have hmap : ((s.publish X observed slot).map normal).map toList
      = ((s.publish X observed slot).map toList).map (List.map fun e => (e.1.normal, e.2)) := by
    simp only [Option.map_map]
    rfl
  rw [hmap, toList_publish, toList_publish, find?_normal, find?_normal_right]
  split
  · simp only [Option.map_some, normal, List.map_map, Function.comp_def, Identity.same_normal_left,
      Identity.same_normal_right]
    split
    · rfl
    · simp only [List.map_map, Function.comp_def, Option.some.injEq]
      refine List.map_congr_left fun e _ => ?_
      split <;> rfl
  · rfl

end Slots

/-! ## The world -/

/-- What is written anew at a place may be changed there before or after. -/
theorem modify_map {α β : Type*} {g : α → β} {f : α → α} {f' : β → β}
    (hf : ∀ a, f' (g a) = g (f a)) (l : List α) (i : Nat) :
    (l.map g).modify i f' = (l.modify i f).map g := by
  apply List.ext_getElem?
  intro k
  simp only [List.getElem?_modify, List.getElem?_map]
  cases l[k]? with
  | none => rfl
  | some a =>
    by_cases hk : i = k
    · simp [hk, hf]
    · simp [hk]

namespace World

variable {w : World σ} {h : WrapperId} {p : PoolId} {raw : RawId}

theorem getElem?_pools_normal (w : World σ) (p : PoolId) :
    w.normal.pools[p]? = w.pools[p]?.map Pool.normal := List.getElem?_map

theorem getElem?_wrappers_normal (w : World σ) (h : WrapperId) :
    w.normal.wrappers[h]? = w.wrappers[h]?.map Wrapper.normal := List.getElem?_map

theorem getElem?_raws_normal (w : World σ) (raw : RawId) :
    w.normal.raws[raw]? = w.raws[raw]?.map RawHandle.normal := List.getElem?_map

@[simp] theorem length_raws_normal (w : World σ) : w.normal.raws.length = w.raws.length :=
  List.length_map _

@[simp] theorem length_wrappers_normal (w : World σ) :
    w.normal.wrappers.length = w.wrappers.length := List.length_map _

theorem queue_normal (w : World σ) (p : PoolId) :
    w.normal.pools[p]?.bind Pool.queue
      = (w.pools[p]?.bind Pool.queue).map (List.map Note.normal) := by
  rw [getElem?_pools_normal]
  cases w.pools[p]? <;> rfl

theorem pending_normal (w : World σ) (p : PoolId) :
    w.normal.pending p = (w.pending p).map Note.normal := by
  rw [pending, pending, queue_normal]
  cases w.pools[p]?.bind Pool.queue <;> rfl

theorem slot?_normal (w : World σ) (p : PoolId) (X : Identity) :
    w.normal.slot? p X.normal = w.slot? p X := by
  rw [slot?, slot?, getElem?_pools_normal]
  cases w.pools[p]? with
  | none => rfl
  | some pool => exact (Slots.find?_normal_right _ X).trans (Slots.find?_normal _ X)

theorem entry_normal (w : World σ) (h : WrapperId) : w.normal.entry h = w.entry h := by
  rw [entry, entry, getElem?_wrappers_normal]
  cases w.wrappers[h]? <;> rfl

theorem publish?_normal (w : World σ) (p : PoolId) (X : Identity) (observed : Option Entry)
    (h : WrapperId) :
    w.normal.publish? p X.normal observed h = (w.publish? p X observed h).map Slots.normal := by
  rw [publish?, publish?, getElem?_pools_normal, entry_normal]
  cases w.pools[p]? with
  | none => rfl
  | some pool => exact Slots.publish_normal

@[simp] theorem isLive_normal (w : World σ) (h : WrapperId) : w.normal.isLive h = w.isLive h := by
  rw [isLive, isLive, getElem?_wrappers_normal]
  cases w.wrappers[h]? <;> rfl

theorem next_normal (w : World σ) (p : PoolId) :
    w.normal.pools[p]?.map Pool.next = w.pools[p]?.map Pool.next := by
  rw [getElem?_pools_normal]
  cases w.pools[p]? <;> rfl

/-! ### Changes -/

theorem updateRaw_normal {f : RawHandle σ → RawHandle σ}
    (hf : ∀ r : RawHandle σ, f r.normal = (f r).normal) :
    w.normal.updateRaw raw f = (w.updateRaw raw f).normal := by
  rw [updateRaw, updateRaw, normal, normal, modify_map hf]

theorem setPhase_normal (phase : Phase) : (w.normal.updateRaw raw fun r => { r with phase })
    = (w.updateRaw raw fun r => { r with phase }).normal := updateRaw_normal fun _ => rfl

theorem updateWrapper_normal {f : Wrapper → Wrapper}
    (hf : ∀ x : Wrapper, f x.normal = (f x).normal) :
    w.normal.updateWrapper h f = (w.updateWrapper h f).normal := by
  rw [updateWrapper, updateWrapper, normal, normal, modify_map hf]

theorem updatePool_normal {f g : Pool → Pool}
    (hf : ∀ pool : Pool, g pool.normal = (f pool).normal) :
    w.normal.updatePool p g = (w.updatePool p f).normal := by
  rw [updatePool, updatePool, normal, normal, modify_map hf]

theorem setQueue_normal (notes : List Note) :
    (w.normal.updatePool p fun pool => { pool with queue := some (notes.map Note.normal) })
      = (w.updatePool p fun pool => { pool with queue := some notes }).normal :=
  updatePool_normal fun _ => rfl

theorem setSlots_normal (slots : Slots) :
    (w.normal.updatePool p fun pool => { pool with slots := slots.normal })
      = (w.updatePool p fun pool => { pool with slots }).normal := updatePool_normal fun _ => rfl

theorem evict_normal (note : Note) :
    (w.normal.updatePool p fun pool =>
        { pool with slots := pool.slots.evict note.identity.normal note.entry })
      = (w.updatePool p fun pool =>
          { pool with slots := pool.slots.evict note.identity note.entry }).normal :=
  updatePool_normal fun pool => by rw [Pool.normal, Slots.evict_normal]; rfl

theorem disconnect_normal :
    (w.normal.updatePool p fun pool => { pool with slots := .empty, queue := none })
      = (w.updatePool p fun pool => { pool with slots := .empty, queue := none }).normal :=
  updatePool_normal fun _ => rfl

theorem retain_normal : w.normal.retain h = (w.retain h).normal := updateWrapper_normal fun _ => rfl

theorem addRaw_normal (X : Identity) (state : σ) :
    w.normal.addRaw X.normal state = ((w.addRaw X state).1.normal, (w.addRaw X state).2) := by
  simp [addRaw, normal, RawHandle.normal]

theorem addWrapper_normal (p : PoolId) (X : Identity) (entry : Entry) (raw : RawId) :
    w.normal.addWrapper p X.normal entry raw
      = ((w.addWrapper p X entry raw).1.normal, (w.addWrapper p X entry raw).2) := by
  simp [addWrapper, normal, Wrapper.normal]

/-- The open of what is wrapped is numbered first. -/
theorem wrap_normal (p : PoolId) (X : Identity) (entry : Entry) (raw : RawId) :
    ((w.normal.updatePool p fun pool => { pool with next := pool.next + 1 }).addWrapper
        p X.normal entry raw).1
      = ((w.updatePool p fun pool => { pool with next := pool.next + 1 }).addWrapper
          p X entry raw).1.normal := by
  have hnext : (w.normal.updatePool p fun pool => { pool with next := pool.next + 1 })
      = (w.updatePool p fun pool => { pool with next := pool.next + 1 }).normal :=
    updatePool_normal fun _ => rfl
  rw [hnext, addWrapper_normal]

theorem addPool_normal (config : Config) :
    w.normal.addPool config = ((w.addPool config).1.normal, (w.addPool config).2) := by
  simp [addPool, normal, Pool.normal, Slots.normal, Slots.empty]

theorem giveUp_normal : (w.normal.updateWrapper h fun x => { x with strong := 0, stream := none })
    = (w.updateWrapper h fun x => { x with strong := 0, stream := none }).normal :=
  updateWrapper_normal fun _ => rfl

theorem release_normal (w : World σ) (h : WrapperId) : w.normal.release h
    = ((w.release h).1.normal, (w.release h).2.map fun (home, note) => (home, note.normal)) := by
  rw [release, release, getElem?_wrappers_normal]
  cases w.wrappers[h]? with
  | none => rfl
  | some x =>
    simp only [Option.map_some, Wrapper.normal]
    split
    · simp only [giveUp_normal, Option.map_map]
      rfl
    · exact congrArg (·, none) (updateWrapper_normal fun _ => rfl)

theorem intoRaw?_normal (w : World σ) (h : WrapperId) :
    w.normal.intoRaw? h = (w.intoRaw? h).map fun (w, raw) => (w.normal, raw) := by
  rw [intoRaw?, intoRaw?, getElem?_wrappers_normal]
  cases w.wrappers[h]? with
  | none => rfl
  | some x =>
    simp only [Option.map_some, Option.bind_some, Wrapper.normal, giveUp_normal]
    split
    · rw [Option.map_map]
      rfl
    · rfl

theorem readThrough_normal (w : World σ) (h : WrapperId) (f : σ → α × σ) :
    w.normal.readThrough h f = (w.readThrough h f).map fun (a, w) => (a, w.normal) := by
  have hstream :
      w.normal.wrappers[h]?.bind Wrapper.stream = w.wrappers[h]?.bind Wrapper.stream := by
    rw [getElem?_wrappers_normal]
    cases w.wrappers[h]? <;> rfl
  rw [readThrough, readThrough, hstream]
  cases w.wrappers[h]?.bind Wrapper.stream with
  | none => rfl
  | some raw =>
    rw [Option.bind_some, Option.bind_some, getElem?_raws_normal, Option.map_map, Option.map_map]
    refine congrFun (congrArg Option.map (funext fun r => ?_)) _
    exact congrArg ((f r.state).1, ·) (updateRaw_normal fun _ => rfl)

end World

/-! ## Turns -/

@[simp] theorem Frame.isWaiting_normal (f : Frame) : f.normal.isWaiting = f.isWaiting := by
  cases f <;> rfl

@[simp] theorem Frame.pool?_normal (f : Frame) : f.normal.pool? = f.pool? := by
  cases f <;> rfl

@[simp] theorem isIdle_normal (frames : List Frame) :
    isIdle (frames.map Frame.normal) = isIdle frames := by
  cases frames with
  | nil => rfl
  | cons f frames => exact f.isWaiting_normal

namespace World

variable {w : World σ}

theorem finish_normal (w : World σ) (frames : List Frame) (answer : Answer) (log : List LogEvent) :
    w.normal.finish (frames.map Frame.normal) answer.normal (log.map LogEvent.normal)
      = (w.finish frames answer log).normal := by
  rw [finish, finish, Turn.normal, isIdle_normal]
  split <;> rfl

theorem closeReport_normal (X : Identity) (entry : Entry) (cause : CloseCause)
    (error : Option IoError) :
    closeReport X.normal entry cause error
      = (closeReport X entry cause error).map LogEvent.normal := by
  cases cause <;> cases error <;> rfl

/-- What comes of an action does not depend on the spelling. -/
theorem yields_normal {frames : List Frame} {turn : Turn σ} (h : w.step frames = some turn) :
    w.normal.Yields (frames.map Frame.normal) turn.normal := by
  cases yields_step h with
  | drained hq =>
    exact finish_normal w _ (.purged _) [] ▸ .drained (by rw [pending_normal, hq]; rfl)
  | received hq =>
    rw [Turn.normal, ← setQueue_normal]
    exact @Yields.received _ _ _ _ _ (Note.normal _) _ (by rw [pending_normal, hq]; rfl)
  | evicted hr =>
    rw [Turn.normal, ← evict_normal]
    exact @Yields.evicted _ _ _ (Note.normal _) _ _ (by rwa [Note.normal, slot?_normal])
  | found hX hl =>
    rw [← finish_normal _ _ (.acquired (.ok _)) [], ← retain_normal]
    exact .found (by rw [slot?_normal, hX]) (by rwa [isLive_normal])
  | @missed p X rest hdead =>
    have hmissed : w.normal.Yields (.lookUp p X.normal :: rest.map Frame.normal) _ :=
      .missed fun slot hslot => by
        rw [slot?_normal] at hslot
        rw [isLive_normal, hdead slot hslot]
    rw [slot?_normal] at hmissed
    exact hmissed
  | @wrapped p X observed raw rest =>
    -- The number of the open is read off the pool, which has the same one in normal form.
    have hwrapped :
        w.normal.Yields (.wrap p X.normal observed raw :: rest.map Frame.normal) _ := .wrapped
    rw [next_normal, wrap_normal, length_wrappers_normal] at hwrapped
    exact hwrapped
  | published hs =>
    rw [← finish_normal _ _ (.acquired (.ok _)) [_], ← setSlots_normal, ← entry_normal]
    exact .published (by rw [publish?_normal, hs]; rfl)
  | lost hs =>
    rw [← entry_normal]
    exact .lost (by rw [publish?_normal, hs]; rfl)
  | unwrapped hx hs hr =>
    rw [Turn.normal, ← giveUp_normal]
    exact .unwrapped (x := Wrapper.normal _) (by rw [getElem?_wrappers_normal, hx]; rfl) hs hr
  | shared hs => exact .shared (by rw [intoRaw?_normal, hs]; rfl)
  | died hx hs hr =>
    rw [Turn.normal, ← giveUp_normal]
    exact .died (x := Wrapper.normal _) (by rw [getElem?_wrappers_normal, hx]; rfl) hs hr
  | dropped hw =>
    rw [← finish_normal _ _ .done []]
    exact .dropped (by rw [release_normal, hw]; rfl)
  | closing =>
    rw [Turn.normal, ← setPhase_normal]
    exact .closing
  | posted hq =>
    rw [← finish_normal _ _ .done [], ← setQueue_normal, List.map_append]
    exact .posted (by rw [queue_normal, hq]; rfl)
  | releasedInline hq =>
    exact @Yields.releasedInline _ _ _ (Note.normal _) _ (by rw [queue_normal, hq]; rfl)
  | retiring => exact .retiring
  | @disconnected p rest =>
    have hdisconnected : w.normal.Yields (.disconnect p :: rest.map Frame.normal) _ :=
      .disconnected
    rw [pending_normal, disconnect_normal] at hdisconnected
    exact hdisconnected
  | flushed => exact finish_normal w _ .done [] ▸ .flushed
  | flushing => exact @Yields.flushing _ _ (Note.normal _) _ _
  | openFailed | opened | closed | retired => cases h

theorem step_normal (w : World σ) (frames : List Frame) :
    w.normal.step (frames.map Frame.normal) = (w.step frames).map Turn.normal :=
  step_eq_map (isIdle_normal frames) fun _ => yields_normal

theorem opened_normal (w : World σ) (frames : List Frame) (result : Except IoError σ) :
    w.normal.opened (frames.map Frame.normal) result
      = (w.opened frames result).map Turn.normal := by
  cases frames with
  | nil => rfl
  | cons f frames =>
    cases f with
    | opening p X observed =>
      cases result with
      | error e =>
        exact congrArg some
          (finish_normal w frames (.acquired (.error (.openFailed X e))) [.openFailed X e])
      | ok state =>
        simp only [List.map_cons, Frame.normal, opened, addRaw_normal]
        rfl
    | _ => rfl

theorem closed_normal (w : World σ) (frames : List Frame) (error : Option IoError) :
    w.normal.closed (frames.map Frame.normal) error = (w.closed frames error).map Turn.normal := by
  cases frames with
  | nil => rfl
  | cons f frames =>
    cases f with
    | closing raw X entry cause =>
      simp only [List.map_cons, Frame.normal, closed, setPhase_normal, closeReport_normal]
      exact congrArg some (finish_normal _ frames .done (closeReport X entry cause error))
    | _ => rfl

theorem retired_normal (w : World σ) (frames : List Frame) :
    w.normal.retired (frames.map Frame.normal) = (w.retired frames).map Turn.normal := by
  cases frames with
  | nil => rfl
  | cons f frames =>
    cases f with
    | retiring p => exact congrArg some (finish_normal w frames .done [])
    | _ => rfl

end World

theorem Act.turn?_normal (a : Act σ) (w : World σ) (frames : List Frame) :
    a.normal.turn? w.normal (frames.map Frame.normal) = (a.turn? w frames).map Turn.normal := by
  cases a with
  | turn t => exact w.step_normal frames
  | opened t result => exact w.opened_normal frames result
  | closed t error => exact w.closed_normal frames error
  | retired t => exact w.retired_normal frames
  | _ => rfl

@[simp] theorem Act.thread?_normal (a : Act σ) : a.normal.thread? = a.thread? := by
  cases a <;> rfl

namespace Turn

variable {turn : Turn σ}

@[simp] theorem gained_normal : turn.normal.gained = turn.gained := by
  rcases turn with ⟨_, _, _, _ | (_ | _) | _ | _⟩ <;> rfl

theorem events_normal (turn : Turn σ) (w : World σ) (frames : List Frame) :
    turn.normal.events w.normal (frames.map Frame.normal)
      = (turn.events w frames).map Event.normal := by
  cases frames with
  | nil => rfl
  | cons f frames =>
    rw [List.map_cons]
    cases f with
    | receive p count =>
      simp only [Frame.normal, events, World.pending_normal, List.map_eq_nil_iff]
      split <;> rfl
    | lookUp p X => rcases turn with ⟨_, _, _, _ | (_ | _) | _ | _⟩ <;> rfl
    | opening p X observed =>
      simp only [Frame.normal, events, normal, World.length_raws_normal]
      split <;> rfl
    | wrap p X observed raw => simp [Frame.normal, events, Event.normal]
    | publish p X observed h => rcases turn with ⟨_, _, _, _ | (_ | _) | _ | _⟩ <;> rfl
    | post home note =>
      simp only [Frame.normal, events, World.queue_normal, Option.isSome_map]
      split <;> rfl
    | disconnect p =>
      simp only [Frame.normal, events, World.pending_normal, List.map_map]
      rfl
    | _ => rfl

end Turn

/-! ## Systems -/

theorem Call.frames_normal (c : Call) : c.normal.frames = c.frames.map Frame.normal := by
  cases c <;> rfl

namespace System

variable {s s' : System σ}

theorem getElem?_threads_normal (s : System σ) (t : ThreadId) :
    s.normal.threads[t]? = s.threads[t]?.map (List.map Frame.normal) := List.getElem?_map

theorem frames_normal (s : System σ) : s.normal.frames = s.frames.map Frame.normal :=
  List.map_flatten.symm

theorem isOpen_normal (s : System σ) (p : PoolId) : s.normal.isOpen p = s.isOpen p := by
  have hup : (s.normal.world.pools[p]?.bind Pool.queue).isSome
      = (s.world.pools[p]?.bind Pool.queue).isSome := by
    rw [normal, World.queue_normal, Option.isSome_map]
  have hframes : s.normal.frames.contains (.disconnect p) = s.frames.contains (.disconnect p) := by
    rw [frames_normal, Bool.eq_iff_iff, List.contains_iff_mem, List.contains_iff_mem, List.mem_map]
    refine ⟨?_, fun hmem => ⟨_, hmem, rfl⟩⟩
    rintro ⟨f, hf, heq⟩
    cases f <;> cases heq
    exact hf
  rw [isOpen, isOpen, hup, hframes]

theorem admits_normal (s : System σ) (c : Call) : s.normal.admits c.normal = s.admits c := by
  cases c with
  | dropPool p =>
    have hpool : (s.normal.frames.all fun f => f.pool? ≠ some p)
        = s.frames.all fun f => f.pool? ≠ some p := by
      rw [frames_normal, List.all_map]
      exact congrArg s.frames.all (funext fun f => by simp)
    simp only [Call.normal, admits, isOpen_normal, hpool]
  | acquire p X => exact s.isOpen_normal p
  | purge p => exact s.isOpen_normal p
  | _ => rfl

theorem take_normal (s : System σ) (t : ThreadId) (frames : List Frame) (turn : Turn σ) :
    s.normal.take t (frames.map Frame.normal) turn.normal = (s.take t frames turn).normal := by
  simp only [take, normal, Turn.gained_normal, Turn.events_normal, List.map_append, List.map_set]
  rfl

/-- An act does not depend on the spelling. -/
theorem next?_normal (s : System σ) (a : Act σ) :
    s.normal.next? a.normal = (s.next? a).map normal := by
  cases hthread : a.thread? with
  | some t =>
    rw [next?_of_thread hthread, next?_of_thread (a.thread?_normal.trans hthread),
      getElem?_threads_normal]
    cases s.threads[t]? with
    | none => rfl
    | some frames =>
      rw [Option.map_some, Option.bind_some, Option.bind_some, normal, a.turn?_normal]
      cases a.turn? s.world frames with
      | none => rfl
      | some turn => exact congrArg some (s.take_normal t frames turn)
  | none =>
    cases a with
    | spawn => simp [Act.normal, next?, normal]
    | newPool config =>
      simp only [Act.normal, next?, World.newPool]
      cases config.validate with
      | error e => rfl
      | ok _ => exact congrArg some (by rw [normal, World.addPool_normal]; rfl)
    | call t c =>
      rw [Act.normal, next?, next?, getElem?_threads_normal]
      cases s.threads[t]? with
      | none => rfl
      | some frames =>
        rw [Option.map_some, Option.bind_some, Option.bind_some, isIdle_normal, admits_normal]
        split
        · have hheld : afterCall s.held c.normal = afterCall s.held c := by cases c <;> rfl
          simp only [Option.map_some, normal, Call.frames_normal, List.map_set, List.map_append,
            hheld]
        · rfl
    | clone h =>
      simp only [Act.normal, next?, normal, World.retain_normal]
      split <;> rfl
    | closeReference h =>
      simp only [Act.normal, next?, apply_ite (Option.map normal)]
      rfl
    | read h f =>
      simp only [Act.normal, next?, normal, World.readThrough_normal]
      split
      · cases s.world.readThrough h fun state => ((), f state) <;> rfl
      · rfl
    | _ => cases hthread

/-- A run does not depend on the spelling. -/
theorem run?_normal (s : System σ) (acts : List (Act σ)) :
    s.normal.run? (acts.map Act.normal) = (s.run? acts).map normal := by
  induction acts generalizing s with
  | nil => rfl
  | cons a acts ih =>
    rw [List.map_cons, run?, run?, next?_normal]
    cases s.next? a with
    | none => rfl
    | some s' => exact ih s'

theorem moments_normal (s : System σ) (acts : List (Act σ)) :
    s.normal.moments (acts.map Act.normal) = (s.moments acts).map Moment.normal := by
  induction acts generalizing s with
  | nil => rfl
  | cons a acts ih =>
    rw [List.map_cons, moments, moments, next?_normal]
    cases s.next? a with
    | none => rfl
    | some s' => simp [ih, Moment.normal]

end System

/-! ## Moments -/

namespace Moment

variable (m : Moment σ)

theorem frames_normal : m.normal.frames = m.frames.map Frame.normal := by
  rw [frames, frames, normal, Act.thread?_normal]
  cases m.act.thread? with
  | none => rfl
  | some t =>
    rw [Option.bind_some, Option.bind_some, System.getElem?_threads_normal]
    cases m.system.threads[t]? <;> rfl

theorem turn?_normal : m.normal.turn? = m.turn?.map Turn.normal := by
  rw [turn?, frames_normal]
  exact m.act.turn?_normal m.system.world m.frames

theorem answer?_normal : m.normal.answer? = m.answer?.map Answer.normal := by
  rw [answer?, answer?, turn?_normal]
  cases m.turn? <;> rfl

end Moment

end ReadPool
