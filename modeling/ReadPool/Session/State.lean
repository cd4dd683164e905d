import ReadPool.Pool.Step
import ReadPool.Session.Names
import ReadPool.Session.Script

/-!
# The state of a session

The world that the session's pools are in, with what the session knows them by, what is left of
its openings, and the events reported so far.
-/

namespace ReadPool.Session

/-- The state of a raw handle. -/
inductive Content where
  /-- The handle of the open with this number, laid down in the script. -/
  | scripted (number : Nat) (opening : Opening)
  | file (file : OpenFile)

/-- Where a pool's opener opens. -/
inductive Opener where
  | scripted
  | files
deriving DecidableEq, Repr

structure State where
  world : World Content := {}
  /-- What the one thread has left to do. -/
  frames : List Frame := []
  /-- The opener of each pool, by the pool's place. -/
  openers : List Opener := []
  pools : Names PoolId := {}
  handles : Names WrapperId := {}
  /-- The pools that a step which is not over has named. -/
  inUse : List PoolId := []
  openings : Names (List Opening) := {}
  /-- How often a scripted opener was asked. -/
  opens : Nat := 0
  tree : FileTree := .empty
  /-- The tree is the session's own, to be changed by its steps. -/
  ownTree : Bool := false
  shared : Option PoolId := none
  log : LogFilter := .nothing
  /-- What was reported, last first. -/
  reported : List Event := []

namespace State

def report (s : State) (e : Event) : State := { s with reported := e :: s.reported }

/-- Reports those log events that the session's filter admits. -/
def reportLog (s : State) (events : List LogEvent) : State :=
  let admitted := events.filter fun e => s.log.admits e.level
  { s with reported := (admitted.map Event.log).reverse ++ s.reported }

/-- The file system of the session's tree. -/
def fileSystem (s : State) : FileSystem OpenFile := s.tree.fileSystem

/-- How many scripted raw handles are open. -/
def openHandles (s : State) : Nat :=
  s.world.raws.countP fun raw =>
    match raw.state with
    | .scripted .. => raw.phase = .opened
    | .file _ => false

/-- The next opening of a path; one that is not laid down is the plainest. -/
def takeOpening (s : State) (path : String) : State × Opening :=
  match s.openings.find? path with
  | some (opening :: rest) => ({ s with openings := s.openings.insert path rest }, opening)
  | _ => (s, {})

/-- A new pool, if its configuration is sound. -/
def newPool (s : State) (opener : Opener) (config : Config) : Except PoolError (State × PoolId) :=
  match s.world.newPool config with
  | .error e => .error e
  | .ok (world, p) => .ok ({ s with world, openers := s.openers ++ [opener] }, p)

/-- A new pool of the plainest configuration. -/
def addPool (s : State) (opener : Opener) : State × PoolId :=
  let (world, p) := s.world.addPool
  ({ s with world, openers := s.openers ++ [opener] }, p)

def opener (s : State) (p : PoolId) : Opener := s.openers[p]?.getD .scripted

/-- The opener that a handle's stream came from. -/
def openerOf (s : State) (h : WrapperId) : Opener :=
  ((s.world.wrappers[h]?).map fun x => s.opener x.home).getD .scripted

/-- One read of a raw handle in some state. -/
def readContent (s : State) : Reader Content := fun n content =>
  match content with
  | .scripted number opening =>
    let (result, stream) := opening.stream.read n
    (result, .scripted number { opening with stream })
  | .file file =>
    let (result, file) := s.tree.read n file
    (result, .file file)

/-- How often a read of the raw handle may ask to be tried again. -/
def patience : Content → Nat
  | .scripted _ opening => opening.stream.patience
  | .file _ => 0

end State

end ReadPool.Session
