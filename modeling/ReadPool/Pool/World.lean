import ReadPool.Config
import ReadPool.Pool.Slots

/-!
# The world of the pools

Raw handles, wrappers and pools, each in a list of its own and known by its place there; nothing
is ever taken out of a list, so a place never means two things. A wrapper counts the references
that hold it and owns its raw handle until the last of them goes or `intoRaw?` takes it out. A pool
holds its wrappers weakly, by `Slot`. This module has what is done in one go; what a pool does in
several steps is in `ReadPool.Pool.Step`.
-/

namespace ReadPool

/-- The place of a raw handle in the world. -/
abbrev RawId := Nat

/-- The place of a pool in the world. -/
abbrev PoolId := Nat

/-- How far a raw handle has come. -/
inductive Phase where
  | opened
  | closing
  | closed
deriving DecidableEq, Repr

/-- A raw handle, with whatever state `σ` its reads go by. -/
structure RawHandle (σ : Type u) where
  identity : Identity
  state : σ
  phase : Phase := .opened
deriving DecidableEq, Repr

/-- The death of a wrapper, which carries the raw handle that it leaves. -/
structure Note where
  identity : Identity
  entry : Entry
  raw : RawId
deriving DecidableEq, Repr

structure Wrapper where
  identity : Identity
  entry : Entry
  /-- The pool whose queue the wrapper's death is posted to. -/
  home : PoolId
  strong : Nat := 1
  stream : Option RawId
deriving DecidableEq, Repr

structure Pool where
  slots : Slots := .empty
  /-- The entry of the next successful open. -/
  next : Entry := 0
  /-- The deaths not yet received, in the order posted; nothing once the pool is gone. -/
  queue : Option (List Note) := some []
  /-- How the table is laid out, on which nothing here depends. -/
  config : Config := {}
deriving DecidableEq

structure World (σ : Type u) where
  raws : List (RawHandle σ) := []
  wrappers : List Wrapper := []
  pools : List Pool := []

namespace Pool

/-- How many deaths wait to be received. -/
def pending (p : Pool) : Nat := (p.queue.getD []).length

def debug (p : Pool) : String :=
  Text.showRecord "HandlePool" [("slots", toString p.slots.size), ("pending", toString p.pending)]

end Pool

namespace Wrapper

def isLive (h : Wrapper) : Bool := 0 < h.strong

def debug (h : Wrapper) : String :=
  Text.showRecord "SharedReadHandle"
    [("identity", h.identity.debug), ("entry", toString h.entry)]

end Wrapper

namespace World

/-! ## Places -/

def updateRaw (w : World σ) (r : RawId) (f : RawHandle σ → RawHandle σ) : World σ :=
  { w with raws := w.raws.modify r f }

def updateWrapper (w : World σ) (h : WrapperId) (f : Wrapper → Wrapper) : World σ :=
  { w with wrappers := w.wrappers.modify h f }

def updatePool (w : World σ) (p : PoolId) (f : Pool → Pool) : World σ :=
  { w with pools := w.pools.modify p f }

/-- A new pool, at the place that the world had free. -/
def addPool (w : World σ) (config : Config := {}) : World σ × PoolId :=
  ({ w with pools := w.pools ++ [{ config }] }, w.pools.length)

/-- A new pool, if its configuration is sound. -/
def newPool (w : World σ) (config : Config) : Except PoolError (World σ × PoolId) :=
  match config.validate with
  | .error e => .error e
  | .ok () => .ok (w.addPool config)

/-- A raw handle that was just opened. -/
def addRaw (w : World σ) (X : Identity) (state : σ) : World σ × RawId :=
  ({ w with raws := w.raws ++ [{ identity := X, state }] }, w.raws.length)

/-- A wrapper around a raw handle, with one reference. -/
def addWrapper (w : World σ) (p : PoolId) (X : Identity) (entry : Entry) (raw : RawId) :
    World σ × WrapperId :=
  ({ w with wrappers := w.wrappers ++ [{ identity := X, entry, home := p, stream := some raw }] },
    w.wrappers.length)

/-! ## References -/

/-- What a caller closes stays open: a close of a reference does nothing. -/
def closeReference (w : World σ) (_ : WrapperId) : World σ := w

/-- One more reference to a wrapper that has one. -/
def retain (w : World σ) (h : WrapperId) : World σ :=
  w.updateWrapper h fun x => { x with strong := x.strong + 1 }

def isLive (w : World σ) (h : WrapperId) : Bool := w.wrappers[h]?.any Wrapper.isLive

/-- A reference gained from a weak one: there is one if there still is another. -/
def upgrade? (w : World σ) (h : WrapperId) : Option (World σ) :=
  if w.isLive h then some (w.retain h) else none

/-- One reference fewer. The last one takes the raw handle out, for the death to be posted. -/
def release (w : World σ) (h : WrapperId) : World σ × Option (PoolId × Note) :=
  match w.wrappers[h]? with
  | none => (w, none)
  | some x =>
    if x.strong = 1 then
      (w.updateWrapper h fun x => { x with strong := 0, stream := none },
        x.stream.map fun raw => (x.home, ⟨x.identity, x.entry, raw⟩))
    else (w.updateWrapper h fun x => { x with strong := x.strong - 1 }, none)

/-- The raw handle, given back in exchange for the only reference to its wrapper. If there is
another, nothing changes, and the caller's own is left to be dropped like any other. -/
def intoRaw? (w : World σ) (h : WrapperId) : Option (World σ × RawId) :=
  (w.wrappers[h]?).bind fun x =>
    if x.strong = 1 then
      x.stream.map fun raw =>
        (w.updateWrapper h fun x => { x with strong := 0, stream := none }, raw)
    else none

/-! ## Queues -/

/-- The deaths that wait in a pool's queue; a queue that is gone has none. -/
def pending (w : World σ) (p : PoolId) : List Note := (w.pools[p]?.bind Pool.queue).getD []

/-- The death that was posted first, taken out of the queue. -/
def receive? (w : World σ) (p : PoolId) : Option (Note × World σ) :=
  match w.pending p with
  | [] => none
  | note :: notes => some (note, w.updatePool p fun pool => { pool with queue := some notes })

/-! ## Reading -/

/-- Whatever reads do to the stream of a wrapper; nothing else changes. A wrapper that is
referenced has its stream. -/
def readThrough (w : World σ) (h : WrapperId) (f : σ → α × σ) : Option (α × World σ) :=
  (w.wrappers[h]?.bind Wrapper.stream).bind fun r =>
    w.raws[r]?.map fun raw =>
      ((f raw.state).1, w.updateRaw r fun raw => { raw with state := (f raw.state).2 })

end World

end ReadPool
