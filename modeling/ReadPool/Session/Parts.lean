import ReadPool.Session.Run

/-!
# Sessions on the parts of a pool

The same machinery one level down: queues that belong to no pool, deaths and wrappers that are
made by hand, and weak references. A queue of its own is a pool that nothing is acquired from.
Nothing runs while a raw handle is closed.
-/

namespace ReadPool.Session

inductive PartStep where
  | newQueue (name : String)
  | dropQueue (queue : String)
  | pending (queue : String)
  | newPoster (queue name : String)
  | dropPoster (poster : String)
  | newNote (name : String) (X : Identity) (entry : Entry) (raw : Opening)
  | post (poster note : String)
  | release (note : String)
  | drain (queue : String) (limit : Option Nat)
  | wrap (queue name : String) (X : Identity) (entry : Entry) (raw : Opening)
  | clone (handle name : String)
  | entry (handle : String)
  | intoRaw (handle : String) (close : Bool)
  | weak (handle name : String)
  | upgrade (weak : String) (name : Option String)
  /-- A step that sessions on pools have too. -/
  | shared (step : Step)
  | unknown

inductive PartResult where
  | plain (result : Result)
  | received (notes : List (Identity × Entry))
deriving DecidableEq

structure PartScript where
  steps : List PartStep
  log : LogFilter := .nothing

structure Parts where
  state : State := {}
  queues : Names PoolId := {}
  posters : Names PoolId := {}
  notes : Names Note := {}
  weaks : Names WrapperId := {}

namespace Parts

/-- How many actions one call may take here: none nests, and a queue is ended note by note. -/
def means (s : Parts) : Means :=
  ⟨fun state _ => state, 10 + 10 * s.state.world.raws.length⟩

def call (s : Parts) (c : Call) : Parts := { s with state := (s.state.call s.means c).1 }

/-- A raw handle that was not opened by a pool. -/
def newRaw (s : Parts) (X : Identity) (raw : Opening) : Parts × RawId :=
  let number := s.state.opens + 1
  let (world, r) := s.state.world.addRaw X (.scripted number raw)
  ({ s with state := { s.state with world, opens := number } }, r)

/-! ## Names that are taken -/

def storeHandle (s : Parts) (name : String) (h : WrapperId) : Parts :=
  { s with state := s.state.store s.means h (some name) }

def storeNote (s : Parts) (name : String) (note : Note) : Parts :=
  let old := s.notes.find? name
  let s := { s with notes := s.notes.insert name note }
  match old with
  | none => s
  | some old => s.call (.release old)

def storeQueue (s : Parts) (name : String) (q : PoolId) : Parts :=
  let old := s.queues.find? name
  let s := { s with queues := s.queues.insert name q }
  match old with
  | none => s
  | some old => s.call (.disconnect old)

/-! ## Steps -/

/-- Something done with what a name stands for. -/
def named (s : Parts) (names : Names α) (name : String) (f : α → Parts × PartResult) :
    Parts × PartResult :=
  match names.find? name with
  | none => (s, .plain (.fault .missing))
  | some a => f a

/-- What a session on pools calls a handle that is not there is here a name that is missing. -/
def plain : Result → PartResult
  | .fault _ => .plain (.fault .missing)
  | r => .plain r

/-- Receives and releases one death after another. -/
def drain (q : PoolId) : Nat → Parts → Parts × List (Identity × Entry)
  | 0, s => (s, [])
  | limit + 1, s =>
    match s.state.world.receive? q with
    | none => (s, [])
    | some (note, world) =>
      let s := { s with state := { s.state with world } }.call (.release note)
      let (s, notes) := drain q limit s
      (s, (note.identity, note.entry) :: notes)

/-- The number that a raw handle was made with. -/
def numberOf (s : Parts) (r : RawId) : Nat :=
  match s.state.world.raws[r]?.map RawHandle.state with
  | some (.scripted number _) => number
  | _ => 0

/-- The close of a raw handle that its wrapper gave back. -/
def closeRaw (s : Parts) (r : RawId) : Parts :=
  let world := s.state.world.updateRaw r fun raw => { raw with phase := .closed }
  { s with state := ({ s.state with world }.askClose s.means.hook r).1 }

def ok (s : Parts) : Parts × PartResult := (s, .plain .ok)

def runStep (s : Parts) : PartStep → Parts × PartResult
  | .newQueue name =>
    let (state, q) := s.state.addPool .scripted
    ({ s with state }.storeQueue name q).ok
  | .dropQueue name =>
    s.named s.queues name fun q =>
      ({ s with queues := s.queues.erase name }.call (.disconnect q)).ok
  | .pending name =>
    s.named s.queues name fun q => (s, .plain (.count (s.state.world.pending q).length))
  | .newPoster queue name =>
    s.named s.queues queue fun q => { s with posters := s.posters.insert name q }.ok
  | .dropPoster name =>
    s.named s.posters name fun _ => { s with posters := s.posters.erase name }.ok
  | .newNote name X entry raw =>
    let (s, r) := s.newRaw X raw
    (s.storeNote name ⟨X, entry, r⟩).ok
  | .post poster name =>
    s.named s.posters poster fun q => s.named s.notes name fun note =>
      ({ s with notes := s.notes.erase name }.call (.post q note)).ok
  | .release name =>
    s.named s.notes name fun note =>
      ({ s with notes := s.notes.erase name }.call (.release note)).ok
  | .drain queue limit =>
    s.named s.queues queue fun q =>
      let (s, notes) := drain q (limit.getD (s.state.world.pending q).length) s
      (s, .received notes)
  | .wrap queue name X entry raw =>
    s.named s.queues queue fun q =>
      let (s, r) := s.newRaw X raw
      let (world, h) := s.state.world.addWrapper q X entry r
      let s := { s with state := { s.state with world } }
      (s.storeHandle name h, .plain (s.state.showHandle h))
  | .clone handle name =>
    s.named s.state.handles handle fun h =>
      let s := { s with state := { s.state with world := s.state.world.retain h } }
      (s.storeHandle name h).ok
  | .entry handle =>
    s.named s.state.handles handle fun h =>
      (s, .plain (.count (((s.state.world.wrappers[h]?).map fun x => x.entry.toNat).getD 0)))
  | .intoRaw handle close =>
    s.named s.state.handles handle fun h =>
      let s := { s with state := { s.state with handles := s.state.handles.erase handle } }
      match s.state.world.intoRaw? h with
      | none => (s.call (.drop h), .plain (.text "none"))
      | some (world, r) =>
        let s := { s with state := { s.state with world } }
        (if close then s.closeRaw r else s, .plain (.count (s.numberOf r)))
  | .weak handle name =>
    s.named s.state.handles handle fun h => { s with weaks := s.weaks.insert name h }.ok
  | .upgrade weak name =>
    s.named s.weaks weak fun h =>
      match s.state.world.upgrade? h with
      | none => (s, .plain (.text "dead"))
      | some world =>
        let s := { s with state := { s.state with world } }
        ({ s with state := s.state.store s.means h name }, .plain (s.state.showHandle h))
  | .shared step =>
    let (state, result) := s.state.runStep s.means step
    ({ s with state }, plain result)
  | .unknown => (s, .plain (.fault .badRequest))

/-! ## Whole sessions -/

def dropNote (s : Parts) (name : String) : Parts := (s.runStep (.release name)).1

def dropQueue (s : Parts) (name : String) : Parts := (s.runStep (.dropQueue name)).1

/-- Drops the handles, then the deaths, then the queues. -/
def dropEverything (s : Parts) : Parts :=
  let s := { s with state := (s.state.dropHandles s.means s.state.handles.size).1 }
  let s := s.notes.names.foldl Parts.dropNote s
  s.queues.names.foldl Parts.dropQueue s

end Parts

/-- What is seen of the parts after a step. -/
structure PartReport where
  result : PartResult
  events : List Event
  pending : List (String × Nat)
  openHandles : Nat

namespace Parts

def fresh (s : Parts) : Parts := { s with state := { s.state with reported := [] } }

def runTopStep (s : Parts) (step : PartStep) : Parts × PartReport :=
  let (s, result) := s.fresh.runStep step
  (s,
    { result
      events := s.state.reported.reverse
      pending := s.queues.toList.map fun (name, q) => (name, (s.state.world.pending q).length)
      openHandles := s.state.openHandles })

def runSteps (s : Parts) : List PartStep → Parts × List PartReport
  | [] => (s, [])
  | step :: rest =>
    let (s, report) := s.runTopStep step
    let (s, reports) := s.runSteps rest
    (s, report :: reports)

end Parts

/-- The reports of the steps, the events at the end, and how many raw handles are left open. -/
def PartScript.run (script : PartScript) : List PartReport × List Event × Nat :=
  let start : Parts := { state := { log := script.log } }
  let (s, reports) := start.runSteps script.steps
  let s := s.fresh.dropEverything
  (reports, s.state.reported.reverse, s.state.openHandles)

end ReadPool.Session
