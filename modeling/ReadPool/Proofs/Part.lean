import Mathlib
import ReadPool.Proofs.Moments
import ReadPool.Proofs.Slots

/-!
# The part of a world that belongs to one pool

What one pool has made, taken out of the world and numbered anew: the pool, the raw handles it has
opened and the wrappers it has made, each at the place that it has among its like. `Part` says what
belongs to the pool, and `Part.world`, `Part.frame`, `Part.event` and so on say what that looks like
on its own. Each change of a world has a lemma for a change of what belongs to the part, which the
part shows in the same way, and one for a change of anything else, which it does not show.
-/

namespace ReadPool

/-! ## Some of the places of a list -/

section Those

variable {α : Type*} {mine : Nat → Bool} {l : List α} {i : Nat}

/-- What a list has at the places that are `mine`, in their order. -/
def those (mine : Nat → Bool) : List α → List α
  | [] => []
  | x :: l => if mine 0 then x :: those (fun i => mine (i + 1)) l else those (fun i => mine (i + 1)) l

/-- The place among those. -/
abbrev rank (mine : Nat → Bool) (i : Nat) : Nat := Nat.count (fun k => mine k = true) i

theorem rank_succ (mine : Nat → Bool) (i : Nat) :
    rank mine (i + 1) = rank (fun k => mine (k + 1)) i + if mine 0 then 1 else 0 :=
  Nat.count_succ' (fun k => mine k = true) i

theorem length_those : (those mine l).length = rank mine l.length := by
  induction l generalizing mine with
  | nil => exact (Nat.count_zero _).symm
  | cons x l ih =>
    rw [List.length_cons, rank_succ, ← ih, those]
    split <;> simp

theorem getElem?_those (hi : mine i) : (those mine l)[rank mine i]? = l[i]? := by
  induction l generalizing mine i with
  | nil => rfl
  | cons x l ih =>
    cases i with
    | zero => simp [those, hi, rank]
    | succ i =>
      -- In the tail, the places count from one place on.
      have hrest := @ih (fun k => mine (k + 1)) i hi
      rw [rank_succ, those, List.getElem?_cons_succ]
      split
      · rw [List.getElem?_cons_succ, hrest]
      · rw [Nat.add_zero, hrest]

theorem those_append (x : α) :
    those mine (l ++ [x]) = those mine l ++ if mine l.length then [x] else [] := by
  induction l generalizing mine with
  | nil => rfl
  | cons y l ih =>
    simp only [List.cons_append, those, ih, List.length_cons]
    split <;> simp

theorem those_modify (hi : mine i) (f : α → α) :
    those mine (l.modify i f) = (those mine l).modify (rank mine i) f := by
  induction l generalizing mine i with
  | nil => simp [those]
  | cons x l ih =>
    cases i with
    | zero => simp [those, hi, rank]
    | succ i =>
      rw [rank_succ, List.modify_succ_cons, those, those, @ih (fun k => mine (k + 1)) i hi]
      split
      · rw [List.modify_succ_cons]
      · rw [Nat.add_zero]

/-- What happens elsewhere is not seen. -/
theorem those_modify_of_not (hi : mine i = false) (f : α → α) :
    those mine (l.modify i f) = those mine l := by
  induction l generalizing mine i with
  | nil => simp
  | cons x l ih =>
    cases i with
    | zero => simp [those, hi]
    | succ i =>
      rw [List.modify_succ_cons, those, those, @ih (fun k => mine (k + 1)) i hi]

theorem rank_inj {j : Nat} (hi : mine i) (hj : mine j) (h : rank mine i = rank mine j) : i = j :=
  Nat.count_injective hi hj h

end Those

/-! ## Slots of other numbers -/

namespace Slots

variable {s : Slots} {X : Identity} {f : WrapperId → WrapperId}

/-- The same slots, whose wrappers are numbered anew. -/
def relabel (f : WrapperId → WrapperId) (s : Slots) : Slots where
  toList := s.toList.map fun e => (e.1, { e.2 with wrapper := f e.2.wrapper })
  distinct := List.pairwise_map.2 s.distinct

theorem find?_relabel (f : WrapperId → WrapperId) (s : Slots) (X : Identity) :
    (s.relabel f).find? X
      = (s.find? X).map fun slot => { slot with wrapper := f slot.wrapper } := by
  simp only [find?, relabel, List.find?_map, Option.map_map]
  rfl

theorem isCurrent_relabel (entry : Entry) :
    (s.relabel f).isCurrent X entry = s.isCurrent X entry := by
  unfold isCurrent
  rw [find?_relabel]
  cases s.find? X <;> rfl

theorem erase_relabel : (s.relabel f).erase X = (s.erase X).relabel f := by
  apply ext_toList
  simp only [erase, relabel, List.filter_map]
  rfl

theorem evict_relabel (entry : Entry) :
    (s.relabel f).evict X entry = (s.evict X entry).relabel f := by
  unfold evict
  rw [isCurrent_relabel, erase_relabel]
  split <;> rfl

theorem publish_relabel (observed : Option Entry) (slot : Slot) :
    (s.relabel f).publish X observed { slot with wrapper := f slot.wrapper }
      = (s.publish X observed slot).map (relabel f) := by
  -- The slots carry a proof, so the two sides are compared as lists.
  have hinj : Function.Injective (Option.map toList) :=
    Option.map_injective fun _ _ => ext_toList
  apply hinj
  have hmap : ((s.publish X observed slot).map (relabel f)).map toList
      = ((s.publish X observed slot).map toList).map
          (List.map fun e => (e.1, { e.2 with wrapper := f e.2.wrapper })) := by
    simp only [Option.map_map]
    rfl
  rw [hmap, toList_publish, toList_publish, find?_relabel]
  cases hX : s.find? X with
  | none => by_cases ho : none = observed <;> simp [ho, relabel]
  | some current =>
    by_cases ho : some current.entry = observed
    · simp only [Option.map_some, ho, if_true, reduceCtorEq, if_false, Option.some.injEq, relabel,
        List.map_map]
      refine List.map_congr_left fun e _ => ?_
      by_cases he : Identity.Same e.1 X <;> simp [he]
    · simp [ho]

end Slots

/-! ## The part -/

/-- What belongs to one pool. -/
structure Part where
  pool : PoolId
  wrappers : WrapperId → Bool
  raws : RawId → Bool

namespace Part

/-- What a pool has made, going by what has happened. -/
def of (p : PoolId) (events : List Event) : Part where
  pool := p
  wrappers h := events.any fun
    | .wrapped q k _ => q = p && k = h
    | _ => false
  raws raw := events.contains (.opened p raw)

variable (part : Part)

def hasPool (p : PoolId) : Bool := p = part.pool

/-! ### Names -/

def wrapper (h : WrapperId) : WrapperId := rank part.wrappers h

def raw (raw : RawId) : RawId := rank part.raws raw

def note (note : Note) : Note := { note with raw := part.raw note.raw }

def frame : Frame → Frame
  | .receive _ n => .receive 0 n
  | .evict _ note => .evict 0 (part.note note)
  | .lookUp _ X => .lookUp 0 X
  | .opening _ X observed => .opening 0 X observed
  | .wrap _ X observed raw => .wrap 0 X observed (part.raw raw)
  | .publish _ X observed h => .publish 0 X observed (part.wrapper h)
  | .discard h => .discard (part.wrapper h)
  | .close raw X entry cause => .close (part.raw raw) X entry cause
  | .closing raw X entry cause => .closing (part.raw raw) X entry cause
  | .drop h => .drop (part.wrapper h)
  | .post _ note => .post 0 (part.note note)
  | .retire _ => .retire 0
  | .retiring _ => .retiring 0
  | .disconnect _ => .disconnect 0
  | .flush notes => .flush (notes.map part.note)

def call : Call → Call
  | .acquire _ X => .acquire 0 X
  | .purge _ => .purge 0
  | .drop h => .drop (part.wrapper h)
  | .dropPool _ => .dropPool 0
  | .post _ note => .post 0 (part.note note)
  | .release note => .release (part.note note)
  | .disconnect _ => .disconnect 0

def act : Act σ → Act σ
  | .call t c => .call t (part.call c)
  | .clone h => .clone (part.wrapper h)
  | .closeReference h => .closeReference (part.wrapper h)
  | .read h f => .read (part.wrapper h) f
  | a => a

def answer : Answer → Answer
  | .acquired result => .acquired (result.map part.wrapper)
  | a => a

/-- What of an event the part shows. -/
def event? : Event → Option Event
  | .asked p X => if part.hasPool p then some (.asked 0 X) else none
  | .opened p raw => if part.hasPool p then some (.opened 0 (part.raw raw)) else none
  | .wrapped p h raw =>
    if part.hasPool p then some (.wrapped 0 (part.wrapper h) (part.raw raw)) else none
  | .published h => if part.wrappers h then some (.published (part.wrapper h)) else none
  | .acquired p X h => if part.hasPool p then some (.acquired 0 X (part.wrapper h)) else none
  | .posted p => if part.hasPool p then some (.posted 0) else none
  | .drained p => if part.hasPool p then some (.drained 0) else none
  | .closing raw cause => if part.raws raw then some (.closing (part.raw raw) cause) else none
  | .closed raw => if part.raws raw then some (.closed (part.raw raw)) else none
  | .ended p left => if part.hasPool p then some (.ended 0 (left.map part.raw)) else none

/-! ### States -/

def wrapperOf (x : Wrapper) : Wrapper := { x with home := 0, stream := x.stream.map part.raw }

def poolOf (pool : Pool) : Pool :=
  { pool with
    slots := pool.slots.relabel part.wrapper
    queue := pool.queue.map (List.map part.note) }

def world (w : World σ) : World σ where
  raws := those part.raws w.raws
  wrappers := (those part.wrappers w.wrappers).map part.wrapperOf
  pools := (w.pools[part.pool]?.map part.poolOf).toList

def turn (t : Turn σ) : Turn σ where
  world := part.world t.world
  frames := t.frames.map part.frame
  log := t.log
  answer := t.answer.map part.answer

/-- The references that are held to wrappers of the part. -/
def held (hs : List WrapperId) : List WrapperId := (hs.filter part.wrappers).map part.wrapper

/-- The system of a lone thread, which is busy for the part or for something else. -/
def system (busy : Bool) (s : System σ) : System σ where
  world := part.world s.world
  threads := s.threads.map fun frames => if busy then frames.map part.frame else []
  held := part.held s.held
  history := s.history.filterMap part.event?

end Part

namespace Part

/-! ## What the part shows of a world -/

variable {part : Part} {w : World σ} {p : PoolId} {h : WrapperId} {raw : RawId}

theorem hasPool_iff : part.hasPool p ↔ p = part.pool := decide_eq_true_iff

theorem getElem?_pools : (part.world w).pools[0]? = w.pools[part.pool]?.map part.poolOf := by
  unfold world
  cases w.pools[part.pool]? <;> rfl

theorem getElem?_wrappers (hh : part.wrappers h) :
    (part.world w).wrappers[part.wrapper h]? = w.wrappers[h]?.map part.wrapperOf := by
  unfold world wrapper
  rw [List.getElem?_map, getElem?_those hh]

theorem getElem?_raws (hr : part.raws raw) :
    (part.world w).raws[part.raw raw]? = w.raws[raw]? := getElem?_those hr

theorem length_wrappers (part : Part) (w : World σ) :
    (part.world w).wrappers.length = part.wrapper w.wrappers.length := by
  unfold world wrapper
  rw [List.length_map, length_those]

theorem length_raws (part : Part) (w : World σ) :
    (part.world w).raws.length = part.raw w.raws.length := length_those

theorem queue_world :
    (part.world w).pools[0]?.bind Pool.queue
      = (w.pools[part.pool]?.bind Pool.queue).map (List.map part.note) := by
  rw [getElem?_pools]
  cases w.pools[part.pool]? <;> rfl

theorem pending_world : (part.world w).pending 0 = (w.pending part.pool).map part.note := by
  unfold World.pending
  rw [queue_world]
  cases w.pools[part.pool]?.bind Pool.queue <;> rfl

theorem next_world : (part.world w).pools[0]?.map Pool.next = w.pools[part.pool]?.map Pool.next := by
  rw [getElem?_pools]
  cases w.pools[part.pool]? <;> rfl

theorem slot?_world (X : Identity) : (part.world w).slot? 0 X
    = (w.slot? part.pool X).map fun slot => { slot with wrapper := part.wrapper slot.wrapper } := by
  rw [World.slot?, World.slot?, getElem?_pools]
  cases w.pools[part.pool]? with
  | none => rfl
  | some pool => exact Slots.find?_relabel _ _ _

theorem entry_slot?_world (X : Identity) :
    ((part.world w).slot? 0 X).map Slot.entry = (w.slot? part.pool X).map Slot.entry := by
  rw [slot?_world, Option.map_map]
  rfl

theorem entry_world (hh : part.wrappers h) :
    (part.world w).entry (part.wrapper h) = w.entry h := by
  unfold World.entry
  rw [getElem?_wrappers hh]
  cases w.wrappers[h]? <;> rfl

theorem isLive_world (hh : part.wrappers h) :
    (part.world w).isLive (part.wrapper h) = w.isLive h := by
  unfold World.isLive
  rw [getElem?_wrappers hh]
  cases w.wrappers[h]? <;> rfl

/-! ## What it shows of a change -/

theorem world_updatePool {f g : Pool → Pool}
    (hg : ∀ pool, part.poolOf (f pool) = g (part.poolOf pool)) :
    part.world (w.updatePool part.pool f) = (part.world w).updatePool 0 g := by
  have hpools : ((w.updatePool part.pool f).pools[part.pool]?.map part.poolOf).toList
      = (w.pools[part.pool]?.map part.poolOf).toList.modify 0 g := by
    rw [World.getElem?_updatePool, if_pos rfl]
    cases w.pools[part.pool]? <;> simp [hg]
  unfold world
  rw [hpools]
  rfl

theorem world_setQueue (notes : List Note) :
    part.world (w.updatePool part.pool fun pool => { pool with queue := some notes })
      = (part.world w).updatePool 0
          fun pool => { pool with queue := some (notes.map part.note) } :=
  world_updatePool fun _ => rfl

theorem world_evict (note : Note) :
    part.world (w.updatePool part.pool fun pool =>
        { pool with slots := pool.slots.evict note.identity note.entry })
      = (part.world w).updatePool 0 fun pool =>
          { pool with slots := pool.slots.evict note.identity note.entry } :=
  world_updatePool fun pool => by simp only [poolOf, Slots.evict_relabel]

theorem world_disconnect :
    part.world (w.updatePool part.pool fun pool => { pool with slots := .empty, queue := none })
      = (part.world w).updatePool 0 fun pool => { pool with slots := .empty, queue := none } :=
  world_updatePool fun _ => rfl

theorem world_setSlots (slots : Slots) :
    part.world (w.updatePool part.pool fun pool => { pool with slots })
      = (part.world w).updatePool 0
          fun pool => { pool with slots := slots.relabel part.wrapper } :=
  world_updatePool fun _ => rfl

theorem world_updatePool_of_not (hp : part.hasPool p = false) (f : Pool → Pool) :
    part.world (w.updatePool p f) = part.world w := by
  have hne : p ≠ part.pool := by simpa [hasPool] using hp
  unfold world
  rw [World.getElem?_updatePool, if_neg hne]
  rfl

theorem world_updateWrapper (hh : part.wrappers h) {f g : Wrapper → Wrapper}
    (hg : ∀ x, part.wrapperOf (f x) = g (part.wrapperOf x)) :
    part.world (w.updateWrapper h f) = (part.world w).updateWrapper (part.wrapper h) g := by
  have hmodify (l : List Wrapper) (k : Nat) :
      (l.modify k f).map part.wrapperOf = (l.map part.wrapperOf).modify k g := by
    apply List.ext_getElem?
    intro i
    simp only [List.getElem?_map, List.getElem?_modify]
    cases l[i]? <;> by_cases hk : k = i <;> simp [hk, hg]
  unfold world World.updateWrapper wrapper
  rw [those_modify hh, hmodify]

theorem world_updateWrapper_of_not (hh : part.wrappers h = false) (f : Wrapper → Wrapper) :
    part.world (w.updateWrapper h f) = part.world w := by
  unfold world World.updateWrapper
  rw [those_modify_of_not hh]

theorem world_updateRaw (hr : part.raws raw) (f : RawHandle σ → RawHandle σ) :
    part.world (w.updateRaw raw f) = (part.world w).updateRaw (part.raw raw) f := by
  unfold world World.updateRaw Part.raw
  rw [those_modify hr]

theorem world_updateRaw_of_not (hr : part.raws raw = false) (f : RawHandle σ → RawHandle σ) :
    part.world (w.updateRaw raw f) = part.world w := by
  unfold world World.updateRaw
  rw [those_modify_of_not hr]

theorem world_addRaw (hr : part.raws w.raws.length) (X : Identity) (state : σ) :
    part.world (w.addRaw X state).1 = ((part.world w).addRaw X state).1 := by
  unfold world World.addRaw
  rw [those_append, if_pos hr]

theorem world_addRaw_of_not (hr : part.raws w.raws.length = false) (X : Identity) (state : σ) :
    part.world (w.addRaw X state).1 = part.world w := by
  unfold world World.addRaw
  rw [those_append, hr, if_neg Bool.false_ne_true, List.append_nil]

theorem world_addWrapper (hh : part.wrappers w.wrappers.length) (X : Identity) (entry : Entry) :
    part.world (w.addWrapper p X entry raw).1
      = ((part.world w).addWrapper 0 X entry (part.raw raw)).1 := by
  unfold world World.addWrapper
  rw [those_append, if_pos hh, List.map_append]
  rfl

/-- The open of what is wrapped is numbered first. -/
theorem world_wrap (hh : part.wrappers w.wrappers.length) (X : Identity) (entry : Entry) :
    part.world ((w.updatePool part.pool fun pool => { pool with next := pool.next + 1 }).addWrapper
        part.pool X entry raw).1
      = (((part.world w).updatePool 0 fun pool => { pool with next := pool.next + 1 }).addWrapper
          0 X entry (part.raw raw)).1 := by
  have hnext : part.world (w.updatePool part.pool fun pool => { pool with next := pool.next + 1 })
      = (part.world w).updatePool 0 fun pool => { pool with next := pool.next + 1 } :=
    world_updatePool fun _ => rfl
  rw [← hnext]
  exact world_addWrapper (w := w.updatePool part.pool _) hh X entry

theorem world_addWrapper_of_not (hh : part.wrappers w.wrappers.length = false) (X : Identity)
    (entry : Entry) : part.world (w.addWrapper p X entry raw).1 = part.world w := by
  unfold world World.addWrapper
  rw [those_append, hh, if_neg Bool.false_ne_true, List.append_nil]

theorem world_addPool (hp : w.pools.length = part.pool) (config : Config) :
    part.world (w.addPool config).1 = ((part.world w).addPool config).1 := by
  have hnone : w.pools[part.pool]? = none := List.getElem?_eq_none (Nat.le_of_eq hp)
  unfold world
  rw [World.getElem?_addPool, if_pos hp.symm, hnone]
  rfl

theorem world_addPool_of_ne (hp : w.pools.length ≠ part.pool) (config : Config) :
    part.world (w.addPool config).1 = part.world w := by
  unfold world
  rw [World.getElem?_addPool, if_neg hp.symm]
  rfl

/-! ## What it shows of an operation -/

theorem publish?_world (hh : part.wrappers h) (X : Identity) (observed : Option Entry) :
    (part.world w).publish? 0 X observed (part.wrapper h)
      = (w.publish? part.pool X observed h).map (Slots.relabel part.wrapper) := by
  unfold World.publish?
  rw [getElem?_pools, entry_world hh]
  cases w.pools[part.pool]? with
  | none => rfl
  | some pool => exact Slots.publish_relabel observed ⟨w.entry h, h⟩

theorem world_retain (hh : part.wrappers h) :
    part.world (w.retain h) = (part.world w).retain (part.wrapper h) :=
  world_updateWrapper hh fun _ => rfl

theorem world_giveUp (hh : part.wrappers h) :
    part.world (w.updateWrapper h fun x => { x with strong := 0, stream := none })
      = (part.world w).updateWrapper (part.wrapper h)
          fun x => { x with strong := 0, stream := none } :=
  world_updateWrapper hh fun _ => rfl

theorem release_world (hh : part.wrappers h) : (part.world w).release (part.wrapper h)
    = (part.world (w.release h).1, (w.release h).2.map fun (_, note) => (0, part.note note)) := by
  unfold World.release
  rw [getElem?_wrappers hh]
  cases w.wrappers[h]? with
  | none => rfl
  | some x =>
    by_cases hs : x.strong = 1
    · simp only [Option.map_some, wrapperOf, hs, if_true, world_giveUp hh]
      cases x.stream <;> rfl
    · have hmap := world_updateWrapper (w := w) hh
        (f := fun x => { x with strong := x.strong - 1 })
        (g := fun x => { x with strong := x.strong - 1 }) fun _ => rfl
      simp only [Option.map_some, wrapperOf, hs, if_false, hmap]
      rfl

theorem intoRaw?_world (hh : part.wrappers h) : (part.world w).intoRaw? (part.wrapper h)
    = (w.intoRaw? h).map fun (w, raw) => (part.world w, part.raw raw) := by
  unfold World.intoRaw?
  rw [getElem?_wrappers hh]
  cases w.wrappers[h]? with
  | none => rfl
  | some x =>
    by_cases hs : x.strong = 1
    · simp only [Option.map_some, Option.bind_some, wrapperOf, hs, if_true, ← world_giveUp hh]
      cases x.stream <;> rfl
    · simp only [Option.map_some, Option.bind_some, wrapperOf, hs, if_false]
      rfl

end Part

end ReadPool
