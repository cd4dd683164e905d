import ReadPool.Pool.Shared
import ReadPool.Session.State

/-!
# Running a session

One thread does the steps of a script. It does the actions of a call one after another, and when
an opener or a close is at work it answers for the environment as the script says, after the steps
that the script has for that moment. Those steps are steps like any other, so calls nest.

`Hook` stands for the running of such steps; the recursion is tied in `runNested`, by how deep
calls can nest.
-/

namespace ReadPool.Session

/-- Does the steps for which an opener or a close has been interrupted. -/
abbrev Hook := State → List NamedStep → State

namespace State

/-! ## The environment -/

/-- What one action came to, taken over into the session. -/
def take (s : State) (t : Turn Content) : State :=
  { s with world := t.world, frames := t.frames }.reportLog t.log

/-- The opener of a pool, asked for an identity. -/
def askOpener (hook : Hook) (s : State) (p : PoolId) (X : Identity) :
    State × Except IoError Content :=
  match s.opener p with
  | .files => (s, (s.fileSystem.openRead X.path).map .file)
  | .scripted =>
    let number := s.opens + 1
    let (s, opening) := { s with opens := number }.takeOpening X.display
    let s := hook (s.report (.opening number X.display)) opening.during
    match opening.error with
    | some e => (s.report (.openFailed number), .error e)
    | none => (s.report (.opened number), .ok (.scripted number opening))

/-- The close of a raw handle. A file closes without a word. -/
def askClose (hook : Hook) (s : State) (raw : RawId) : State × Option IoError :=
  match s.world.raws[raw]?.map RawHandle.state with
  | some (.scripted number opening) =>
    let s := hook (s.report (.closing number)) opening.onClose
    match opening.closeError with
    | some e => (s.report (.closeFailed number), some e)
    | none => (s.report (.closed number), none)
  | _ => (s, none)

/-- What happens next: an action, or the environment's turn. -/
def advance (hook : Hook) (s : State) : Option (State × Option Answer) :=
  match s.world.step s.frames with
  | some t => some (s.take t, t.answer)
  | none =>
    match s.frames with
    | .opening p X _ :: _ =>
      let (s, result) := s.askOpener hook p X
      (s.world.opened s.frames result).map fun t => (s.take t, t.answer)
    | .closing raw _ _ _ :: _ =>
      let (s, error) := s.askClose hook raw
      (s.world.closed s.frames error).map fun t => (s.take t, t.answer)
    | .retiring _ :: _ =>
      -- No opener of a session holds anything of its own.
      (s.world.retired s.frames).map fun t => (s.take t, t.answer)
    | _ => none

/-- Goes on until the call is answered. -/
def drive (hook : Hook) : Nat → State → State × Answer
  | 0, s => (s, .done)
  | fuel + 1, s =>
    match s.advance hook with
    | none => (s, .done)
    | some (s, some answer) => (s, answer)
    | some (s, none) => s.drive hook fuel

end State

/-- What the steps of a session go by: the hook, and the actions that one call may take. -/
structure Means where
  hook : Hook
  fuel : Nat

namespace State

/-! ## Calls -/

def call (m : Means) (s : State) (c : Call) : State × Answer :=
  { s with frames := c.frames ++ s.frames }.drive m.hook m.fuel

def dropHandle (m : Means) (s : State) (h : WrapperId) : State := (s.call m (.drop h)).1

/-- Keeps a new handle under a name, and drops the one that was there; without a name the new one
is dropped. -/
def store (m : Means) (s : State) (h : WrapperId) : Option String → State
  | none => s.dropHandle m h
  | some name =>
    -- The steps of a close may take the new handle away again, but not the old one.
    let old := s.handles.find? name
    let s := { s with handles := s.handles.insert name h }
    match old with
    | none => s
    | some old => s.dropHandle m old

/-- Takes the name away first, then drops the handle. -/
def dropNamed (m : Means) (s : State) (name : String) : State :=
  match s.handles.find? name with
  | none => s
  | some h => { s with handles := s.handles.erase name }.dropHandle m h

def dropPoolNamed (m : Means) (s : State) (name : String) : State :=
  match s.pools.find? name with
  | none => s
  | some p => ({ s with pools := s.pools.erase name }.call m (.dropPool p)).1

/-- Drops the handle of the first name until no name has one, and counts them. -/
def dropHandles (m : Means) : Nat → State → State × Nat
  | 0, s => (s, 0)
  | fuel + 1, s =>
    match s.handles.names.head? with
    | none => (s, 0)
    | some name =>
      let (s, n) := (s.dropNamed m name).dropHandles m fuel
      (s, n + 1)

/-- Drops the pool of the first name until no name has one. -/
def dropPools (m : Means) : Nat → State → State
  | 0, s => s
  | fuel + 1, s =>
    match s.pools.names.head? with
    | none => s
    | some name => (s.dropPoolNamed m name).dropPools m fuel

/-- Something done while a pool is in use. -/
def whileUsing (s : State) (p : PoolId) (f : State → State × Result) : State × Result :=
  let (after, result) := f { s with inUse := p :: s.inUse }
  ({ after with inUse := s.inUse }, result)

def showHandle (s : State) (h : WrapperId) : Result :=
  match s.world.wrappers[h]? with
  | none => .fault .missing
  | some x => .text (if s.shared.isSome then x.identity.display else x.debug)

/-! ## Steps -/

def acquire (m : Means) (s : State) (p : PoolId) (X : Identity) (name : Option String) :
    State × Result :=
  s.whileUsing p fun s =>
    match s.call m (.acquire p X) with
    | (s, .acquired (.ok h)) => (s.store m h name, s.showHandle h)
    | (s, .acquired (.error e)) => (s, .poolError e)
    | (s, _) => (s, .fault .badRequest)

def purge (m : Means) (s : State) (p : PoolId) : State × Result :=
  s.whileUsing p fun s =>
    match s.call m (.purge p) with
    | (s, .purged n) => (s, .count n)
    | (s, _) => (s, .fault .badRequest)

def canonicalize (s : State) (path : Path) : Except PoolError Identity :=
  s.fileSystem.canonicalize path

/-- A new pool under a name that is free. -/
def addNamedPool (s : State) (name : String) (opener : Opener) (config : Config) :
    State × Result :=
  match s.newPool opener config with
  | .error e => (s, .poolError e)
  | .ok (s, p) => ({ s with pools := s.pools.insert name p }, .ok)

/-- Something done with the handle of a name. -/
def withHandle (s : State) (name : String) (f : WrapperId → State × Result) : State × Result :=
  match s.handles.find? name with
  | none => (s, .fault .noHandle)
  | some h => f h

/-- Something done with the pool of a name. -/
def withPool (s : State) (name : String) (f : PoolId → State × Result) : State × Result :=
  match s.pools.find? name with
  | none => (s, .fault .noPool)
  | some p => f p

/-- An answer that is read off a pool. -/
def observe (s : State) (name : String) (f : Pool → Result) : State × Result :=
  s.withPool name fun p => (s, ((s.world.pools[p]?).map f).getD (.fault .noPool))

/-- Something done to the stream of a handle. -/
def readBy (s : State) (name : String) (f : Content → Result × Content) : State × Result :=
  s.withHandle name fun h =>
    match s.world.readThrough h f with
    | none => (s, .fault .noHandle)
    | some (result, world) => ({ s with world }, result)

def readOnce (s : State) (n : Nat) (content : Content) : Result × Content :=
  match s.readContent n content with
  | (.ok data, content) => (.bytes data, content)
  | (.error e, content) => (.readError e none, content)

def gatherFrom (s : State) (limit : Nat) (content : Content) : Gathered Content :=
  gather s.readContent (patience content) limit content

def readExactly (s : State) (n : Nat) (content : Content) : Result × Content :=
  let g := s.gatherFrom n content
  match g.exactly n with
  | .ok data => (.bytes data, g.state)
  | .error e => (.readError e none, g.state)

def readToEnd (s : State) (limit : Nat) (content : Content) : Result × Content :=
  let g := s.gatherFrom limit content
  match g.error with
  | none => (.allBytes g.data, g.state)
  | some e => (.readError e (some g.data), g.state)

def readToString (s : State) (limit : Nat) (content : Content) : Result × Content :=
  let g := s.gatherFrom limit content
  match g.asText with
  | .ok text => (.allText g.data.length text, g.state)
  | .error e => (.readError e none, g.state)

def runStep (m : Means) (s : State) : Step → State × Result
  | .newPool name onFiles config =>
    match s.pools.find? name with
    | some _ => (s, .fault .nameTaken)
    | none => s.addNamedPool name (if onFiles then .files else .scripted) config
  | .dropPool name =>
    s.withPool name fun p =>
      if s.inUse.contains p || s.shared = some p then (s, .fault .busy)
      else (s.dropPoolNamed m name, .ok)
  | .acquire name path as canonical =>
    s.withPool name fun p =>
      if canonical then
        match s.canonicalize path with
        | .error e => (s, .poolError e)
        | .ok X => s.acquire m p X as
      else s.acquire m p ⟨path⟩ as
  | .openShared path as =>
    match s.shared, s.world.openShared s.shared s.fileSystem path with
    | none, _ => (s, .fault .noPool)
    | _, .error e => (s, .poolError e)
    | _, .ok (world, p, X) => { s with world }.acquire m p X as
  | .clone name as =>
    s.withHandle name fun h =>
      let s := { s with world := s.world.retain h }
      (s.store m h as, s.showHandle h)
  | .drop name => s.withHandle name fun _ => (s.dropNamed m name, .ok)
  | .dropAll =>
    let (s, n) := s.dropHandles m m.fuel
    (s, .count n)
  | .read name n => s.readBy name (s.readOnce n)
  | .readExact name n => s.readBy name (s.readExactly n)
  | .readToEnd name limit => s.readBy name (s.readToEnd limit)
  | .readToString name limit => s.readBy name (s.readToString limit)
  | .close name =>
    s.withHandle name fun h => ({ s with world := s.world.closeReference h }, .ok)
  | .identity name =>
    s.withHandle name fun h =>
      (s, ((s.world.wrappers[h]?).map fun x => .text x.identity.display).getD (.fault .noHandle))
  | .sameStream a b =>
    s.withHandle a fun h => s.withHandle b fun k =>
      if s.openerOf h = s.openerOf k then (s, .truth (h = k)) else (s, .fault .differentKinds)
  | .purge name => s.withPool name fun p => s.purge m p
  | .size name => s.observe name fun pool => .count pool.slots.size
  | .isEmpty name => s.observe name fun pool => .truth (pool.slots.size = 0)
  | .contains name path => s.observe name fun pool => .truth (pool.slots.find? ⟨path⟩).isSome
  | .canonicalize path =>
    match s.canonicalize path with
    | .error e => (s, .poolError e)
    | .ok X => (s, .text X.display)
  | .change change =>
    if !s.ownTree then (s, .fault .noTree)
    else match s.tree.change change with
      | .error e => (s, .readError e none)
      | .ok tree => ({ s with tree }, .ok)
  | .unknown => (s, .fault .badRequest)

/-- A step and, after all that it reports itself, its answer. -/
def runNestedStep (m : Means) (s : State) (step : NamedStep) : State :=
  let (s, result) := s.runStep m step.step
  s.report (.nested step.verb result)

/-- Does the steps of a hook, with calls nesting `depth` deep at the most. -/
def runNested (fuel : Nat) : Nat → Hook
  | 0, s, _ => s
  | depth + 1, s, steps => steps.foldl (State.runNestedStep ⟨State.runNested fuel depth, fuel⟩) s

end State

/-! ## Whole sessions -/

/-- What is seen of a session after a step. -/
structure StepReport where
  result : Result
  events : List Event
  /-- The debug text of each pool. -/
  pools : List (String × String)
  handles : Nat
  openHandles : Nat

structure Report where
  steps : List StepReport
  /-- What happened when all that was left was dropped. -/
  endEvents : List Event
  openHandles : Nat
  opens : Nat

namespace Script

def allOpenings (script : Script) : List Opening := script.openings.flatMap (·.2)

/-- How many steps there are, those of the openings included. -/
def size (script : Script) : Nat :=
  script.allOpenings.foldl (fun n o => n + o.during.length + o.onClose.length + 1)
    script.steps.length

/-- Each opening is used up by the open that takes it, so its steps run once each: no more calls
can nest than there are openings, and an acquisition is not lost more often than that. -/
def means (script : Script) : Means :=
  let fuel := 100 * (script.size + 10)
  ⟨State.runNested fuel (2 * script.allOpenings.length + 1), fuel⟩

def initial (script : Script) : State :=
  let tree := (script.tree.getD []).foldl (fun t c => (t.change c).toOption.getD t) FileTree.empty
  let s : State :=
    { openings := script.openings.foldl (fun names (path, list) => names.insert path list) {}
      tree
      ownTree := script.tree.isSome
      log := script.log }
  if script.shared then
    let (s, p) := s.addPool .files
    { s with shared := some p, pools := s.pools.insert "global" p, log := .nothing }
  else s

end Script

namespace State

def poolTexts (s : State) : List (String × String) :=
  s.pools.toList.map fun (name, p) => (name, ((s.world.pools[p]?).map Pool.debug).getD "")

/-- One step of the script, with what is seen after it. -/
def runTopStep (m : Means) (s : State) (step : Step) : State × StepReport :=
  let (s, result) := { s with reported := [] }.runStep m step
  (s,
    { result
      events := s.reported.reverse
      pools := s.poolTexts
      handles := s.handles.size
      openHandles := s.openHandles })

def runSteps (m : Means) (s : State) : List NamedStep → State × List StepReport
  | [] => (s, [])
  | step :: rest =>
    let (s, report) := s.runTopStep m step.step
    let (s, reports) := s.runSteps m rest
    (s, report :: reports)

/-- Drops the handles, then the pools, then the handles that came up meanwhile. -/
def dropEverything (m : Means) (s : State) : State :=
  -- Handles go first, so that the pools still receive their deaths.
  let s := (s.dropHandles m m.fuel).1
  let s := s.dropPools m m.fuel
  (s.dropHandles m m.fuel).1

end State

def Script.run (script : Script) : Report :=
  let m := script.means
  let (s, steps) := script.initial.runSteps m script.steps
  let s := { s with reported := [] }.dropEverything m
  { steps, endEvents := s.reported.reverse, openHandles := s.openHandles, opens := s.opens }

end ReadPool.Session
