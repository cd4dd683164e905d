import ReadPool.Session.Run

/-!
# Pools under load

Three ways to try a pool on its own: with a configuration, by callers that all want a handle at
once, and by callers that come and go. The callers of a load take turns here; what is counted does
not depend on their order.
-/

namespace ReadPool.Session

/-! ## A pool of a configuration -/

structure Trial where
  /-- The slots while all handles were held. -/
  size : Nat
  /-- The pool after they were dropped. -/
  debug : String
  purged : Nat
  isEmpty : Bool

/-- The handles of `count` different files, held together and then dropped. -/
def trial (config : Config) (count : Nat) : Except PoolError Trial := do
  let m : Means := ⟨fun s _ => s, 100 * (count + 1)⟩
  let (s, p) ← ({} : State).newPool .scripted config
  let s := (List.range count).foldl (fun s i =>
    (s.acquire m p ⟨.ofString ("/k" ++ toString i)⟩ (some (toString i))).1) s
  let size (s : State) := ((s.world.pools[p]?).map fun pool => pool.slots.size).getD 0
  let held := size s
  let (s, _) := s.dropHandles m count
  let debug := ((s.world.pools[p]?).map Pool.debug).getD ""
  match s.call m (.purge p) with
  | (s, .purged n) => return ⟨held, debug, n, size s = 0⟩
  | (s, _) => return ⟨held, debug, 0, size s = 0⟩

/-! ## Loads -/

structure Load where
  threads : Nat
  paths : List Path
  /-- The path, as it is displayed, that cannot be opened. -/
  deny : Option String := none
  failClose : Bool := false

/-- A pool at the start of a load, and the means to go on. -/
structure Bench where
  state : State
  pool : PoolId
  means : Means

namespace Load

/-- How an open of a path goes. All bytes of the stream tell how long the path's text is. -/
def opening (load : Load) (p : Path) : Opening where
  error := if load.deny = some p.display then some (.simple .permissionDenied) else none
  stream := { source := .repeating (UInt8.ofNat p.display.utf8ByteSize) }
  closeError := if load.failClose then some (.simple .other) else none

/-- A pool that can take `count` acquisitions. -/
def bench (load : Load) (count : Nat) : Bench :=
  let openings := load.paths.foldl (fun names p =>
    names.insert p.display (List.replicate count (load.opening p))) ({} : Names (List Opening))
  let (state, pool) := ({ openings } : State).addPool .scripted
  ⟨state, pool, ⟨fun s _ => s, 100 * (count + 1)⟩⟩

/-- The path of a caller's turn. -/
def pathOf? (load : Load) (turn : Nat) : Option Path := load.paths[turn % load.paths.length]?

end Load

namespace Bench

def size (b : Bench) : Nat :=
  ((b.state.world.pools[b.pool]?).map fun pool => pool.slots.size).getD 0

def contains (b : Bench) (p : Path) : Bool :=
  (b.state.world.pools[b.pool]?).any fun pool => (pool.slots.find? ⟨p⟩).isSome

def acquire (b : Bench) (p : Path) : Bench × Except PoolError WrapperId :=
  match b.state.call b.means (.acquire b.pool ⟨p⟩) with
  | (state, .acquired result) => ({ b with state }, result)
  | (state, _) => ({ b with state }, .error (.openFailed ⟨p⟩ (.simple .other)))

def drop (b : Bench) (h : WrapperId) : Bench :=
  { b with state := b.state.dropHandle b.means h }

def purge (b : Bench) : Bench × Nat :=
  match b.state.call b.means (.purge b.pool) with
  | (state, .purged n) => ({ b with state }, n)
  | (state, _) => ({ b with state }, 0)

/-- The identity of a handle, and what one byte read from it is. -/
def readByte (b : Bench) (h : WrapperId) : Bench × Option (Identity × List UInt8) :=
  let X := (b.state.world.wrappers[h]?).map Wrapper.identity
  match b.state.world.readThrough h (b.state.readContent 1) with
  | some (.ok data, world) =>
    ({ b with state := { b.state with world } }, X.map fun X => (X, data))
  | some (.error _, world) => ({ b with state := { b.state with world } }, none)
  | none => (b, none)

end Bench

/-! ## Callers that hold on -/

/-- What the callers of one path got. -/
structure PathOutcome where
  succeeded : Nat
  /-- All handles of the path are one stream. -/
  same : Bool
  errors : List PoolError
  contained : Bool

structure RaceOutcome where
  paths : List PathOutcome
  openHandles : Nat
  size : Nat
  /-- The slots after all handles were dropped. -/
  undrained : Nat
  purged : Nat
  openAfter : Nat
  isEmpty : Bool

namespace Load

/-- Every caller's acquisition, with the place of the path that it asked for. -/
def acquireAll (load : Load) (b : Bench) (threads : List Nat) :
    Bench × List (Nat × Except PoolError WrapperId) :=
  threads.foldl (fun (b, results) t =>
    match load.pathOf? t with
    | none => (b, results)
    | some p =>
      let (b, result) := b.acquire p
      (b, results ++ [(t % load.paths.length, result)])) (b, [])

def pathOutcome (b : Bench) (p : Path) (results : List (Except PoolError WrapperId)) :
    PathOutcome :=
  let handles := results.filterMap Except.toOption
  let errors := results.filterMap fun
    | .ok _ => none
    | .error e => some e
  { succeeded := handles.length
    same := handles.all fun h => handles.head? = some h
    errors := errors.eraseDups
    contained := b.contains p }

/-- All callers acquire, and hold what they got until everyone has. -/
def race (load : Load) : RaceOutcome :=
  let (b, results) := load.acquireAll (load.bench load.threads) (List.range load.threads)
  let paths := (List.range load.paths.length).zip load.paths |>.map fun (i, p) =>
    pathOutcome b p ((results.filter fun r => r.1 = i).map (·.2))
  let dropped := (results.filterMap fun r => r.2.toOption).foldl Bench.drop b
  let (after, purged) := dropped.purge
  { paths
    openHandles := b.state.openHandles
    size := b.size
    undrained := dropped.size
    purged
    openAfter := after.state.openHandles
    isEmpty := after.size = 0 }

/-! ## Callers that come and go -/

/-- How often a byte was as expected, how often not, and how often there was no handle. -/
structure Tally where
  good : Nat := 0
  bad : Nat := 0
  failed : Nat := 0

/-- One visit: acquire, read a byte, drop. -/
def visit (load : Load) (turn : Nat) (b : Bench) (tally : Tally) : Bench × Tally :=
  match load.pathOf? turn with
  | none => (b, tally)
  | some p =>
    match b.acquire p with
    | (b, .error _) => (b, { tally with failed := tally.failed + 1 })
    | (b, .ok h) =>
      let (b, read) := b.readByte h
      -- A byte cannot tell a length of 256 or more.
      let expected := read.any fun (X, data) => data.map UInt8.toNat = [X.display.utf8ByteSize]
      (b.drop h,
        if expected then { tally with good := tally.good + 1 }
        else { tally with bad := tally.bad + 1 })

end Load

structure ChurnOutcome where
  tally : Load.Tally
  size : Nat
  leaked : Nat

/-- Every caller makes `visits` visits, and purges at every `period`th, if that is not zero. -/
def Load.churn (load : Load) (visits period : Nat) : ChurnOutcome :=
  let turns := (List.range load.threads).flatMap fun t => (List.range visits).map fun i => (t, i)
  let (b, tally) := turns.foldl (fun (b, tally) (t, i) =>
    let (b, tally) := load.visit (i + t) b tally
    (if period ≠ 0 ∧ i % period = 0 then b.purge.1 else b, tally))
    (load.bench (load.threads * visits), {})
  let b := b.purge.1
  { tally, size := b.size, leaked := b.state.openHandles }

end ReadPool.Session
