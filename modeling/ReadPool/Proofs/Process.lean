import Mathlib
import ReadPool.Pool.Shared
import ReadPool.Proofs.Solo

/-!
# A process and its pool

A process is a system with the pool that its threads share, once one of them has needed it. A file
is opened by its path in two parts: first its identity is found, which has nothing to do with the
pool, and then that is acquired. A lone caller who goes on in this way is given handles for paths,
and `run` keeps which path each of them was asked for by.
-/

namespace ReadPool

/-- What opens, closes and reads of files come to. A close of a file does not fail. -/
def FileSystem.environment (fs : FileSystem σ) (reading : Reader σ) : Environment σ where
  opening _ X := fs.openRead X.path
  closing _ := none
  reading := reading

/-- What can be done by way of a handle. -/
inductive Use where
  | clone
  | drop
  | close
  | read (n : Nat)
deriving DecidableEq

def Use.operation (h : WrapperId) : Use → Operation
  | .clone => .clone h
  | .drop => .drop h
  | .close => .close h
  | .read n => .read h n

/-- What a lone caller can ask of a process. -/
inductive Request where
  | openShared (path : Path)
  | use (h : WrapperId) (use : Use)
  /-- Drains the shared pool. -/
  | purge
deriving DecidableEq

/-- The handle that a request for a path was given. -/
def Request.given (q : Request) (outcome : Outcome) : List (Path × WrapperId) :=
  match q, outcome with
  | .openShared path, .acquired (.ok h) => [(path, h)]
  | _, _ => []

/-- To begin with, a process has one thread, and no pool yet. -/
structure Process (σ : Type u) where
  system : System σ := { threads := [[]] }
  shared : Option PoolId := none

namespace Process

/-- The process once the shared pool is there, and that pool. -/
def withPool (s : Process σ) : Process σ × PoolId :=
  let (world, p) := s.system.world.sharedPool s.shared
  (⟨{ s.system with world }, some p⟩, p)

/-- What a thread that opens a file by its path is left with: it is refused, or has a call to
make. -/
def ask (fs : FileSystem τ) (s : Process σ) (path : Path) : Except PoolError (Process σ × Call) :=
  (s.system.world.openShared s.shared fs path).map fun (world, p, X) =>
    (⟨{ s.system with world }, some p⟩, .acquire p X)

def call (env : Environment σ) (s : Process σ) (c : Call) : Option (Outcome × Process σ) :=
  (s.system.call env c).map fun (outcome, system) => (outcome, { s with system })

/-- A lone caller opens a file by its path. -/
def openShared (fs : FileSystem σ) (reading : Reader σ) (s : Process σ) (path : Path) :
    Option (Outcome × Process σ) :=
  match s.ask fs path with
  | .error e => some (.acquired (.error e), s)
  | .ok (s, c) => s.call (fs.environment reading) c

def serve (fs : FileSystem σ) (reading : Reader σ) (s : Process σ) :
    Request → Option (Outcome × Process σ)
  | .openShared path => s.openShared fs reading path
  | .use h use =>
    (s.system.perform (fs.environment reading) (use.operation h)).map fun (outcome, system) =>
      (outcome, { s with system })
  | .purge =>
    let (s, p) := s.withPool
    s.call (fs.environment reading) (.purge p)

/-- The handles that were given for paths, and what is left of the process; none if a request does
not come to its end. -/
def run (fs : FileSystem σ) (reading : Reader σ) (s : Process σ) :
    List Request → Option (List (Path × WrapperId) × Process σ)
  | [] => some ([], s)
  | q :: qs =>
    (s.serve fs reading q).bind fun (outcome, s) =>
      (s.run fs reading qs).map fun (given, s') => (q.given outcome ++ given, s')

variable {fs : FileSystem σ} {reading : Reader σ} {s : Process σ} {path : Path} {X : Identity}
  {e : PoolError}

/-! ## Finding the identity -/

theorem ask_of_error (h : fs.canonicalize path = .error e) : s.ask fs path = .error e := by
  simp only [ask, World.openShared, h, Except.map]

theorem ask_of_ok (h : fs.canonicalize path = .ok X) :
    s.ask fs path = .ok (s.withPool.1, .acquire s.withPool.2 X) := by
  simp only [ask, World.openShared, h, Except.map, withPool]

/-- A path that has no identity changes nothing, and the pool is not even made. -/
theorem openShared_of_error (h : fs.canonicalize path = .error e) :
    s.openShared fs reading path = some (.acquired (.error e), s) := by
  simp only [openShared, ask_of_error h]

theorem openShared_of_ok (h : fs.canonicalize path = .ok X) :
    s.openShared fs reading path
      = s.withPool.1.call (fs.environment reading) (.acquire s.withPool.2 X) := by
  simp only [openShared, ask_of_ok h]

/-! ## Making the pool -/

theorem withPool_of_shared {p : PoolId} (h : s.shared = some p) : s.withPool = (s, p) := by
  obtain ⟨system, shared⟩ := s
  cases h
  rfl

theorem withPool_of_none (h : s.shared = none) : s.withPool
    = (⟨{ s.system with world := (s.system.world.addPool).1 }, some s.system.world.pools.length⟩,
        s.system.world.pools.length) := by
  simp only [withPool, h, World.sharedPool]
  rfl

/-- To make the pool is one of the acts of a system. -/
theorem reachable_withPool (h : s.system.Reachable) : s.withPool.1.system.Reachable := by
  cases hs : s.shared with
  | some p => rwa [withPool_of_shared hs]
  | none =>
    rw [withPool_of_none hs]
    refine h.next (a := .newPool {}) ?_
    rfl

end Process

end ReadPool
