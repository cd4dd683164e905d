import Mathlib
import ReadPool.Pool.World
import ReadPool.Proofs.Collect

/-!
# Views of a world

What the invariants read off a world: how often a wrapper is referenced, which raw handles are in
streams and in queues, and how many wrappers come from a pool. Each change of a world has a lemma
that says what it does to a view.
-/

namespace ReadPool

/-- The raw handle in a wrapper's stream. -/
def Wrapper.raws (x : Wrapper) : Multiset RawId := x.stream.toList

/-- The raw handles of the deaths in a pool's queue. -/
def Pool.raws (pool : Pool) : Multiset RawId := (pool.queue.getD []).map Note.raw

namespace World

variable {w : World σ} {h k : WrapperId} {p q : PoolId} {x : Wrapper}

/-! ## What a change leaves as it is -/

@[simp] theorem wrappers_updateRaw (r f) : (w.updateRaw r f).wrappers = w.wrappers := rfl
@[simp] theorem wrappers_updatePool (p f) : (w.updatePool p f).wrappers = w.wrappers := rfl
@[simp] theorem wrappers_addRaw (X) (s : σ) : (w.addRaw X s).1.wrappers = w.wrappers := rfl
@[simp] theorem wrappers_addPool (c) : (w.addPool c).1.wrappers = w.wrappers := rfl
@[simp] theorem raws_updateWrapper (h f) : (w.updateWrapper h f).raws = w.raws := rfl
@[simp] theorem raws_updatePool (p f) : (w.updatePool p f).raws = w.raws := rfl
@[simp] theorem raws_retain (h) : (w.retain h).raws = w.raws := rfl
@[simp] theorem raws_addWrapper (p X e r) : (w.addWrapper p X e r).1.raws = w.raws := rfl
@[simp] theorem raws_addPool (c) : (w.addPool c).1.raws = w.raws := rfl
@[simp] theorem pools_updateRaw (r f) : (w.updateRaw r f).pools = w.pools := rfl
@[simp] theorem pools_updateWrapper (h f) : (w.updateWrapper h f).pools = w.pools := rfl
@[simp] theorem pools_retain (h) : (w.retain h).pools = w.pools := rfl
@[simp] theorem pools_addRaw (X) (s : σ) : (w.addRaw X s).1.pools = w.pools := rfl
@[simp] theorem pools_addWrapper (p X e r) : (w.addWrapper p X e r).1.pools = w.pools := rfl

@[simp] theorem length_raws_updateRaw (r f) :
    (w.updateRaw r f).raws.length = w.raws.length := by simp [updateRaw]

@[simp] theorem length_raws_addRaw (X) (s : σ) :
    (w.addRaw X s).1.raws.length = w.raws.length + 1 := by simp [addRaw]

@[simp] theorem length_pools_updatePool (p f) :
    (w.updatePool p f).pools.length = w.pools.length := by simp [updatePool]

@[simp] theorem length_wrappers_updateWrapper (h f) :
    (w.updateWrapper h f).wrappers.length = w.wrappers.length := by simp [updateWrapper]

@[simp] theorem length_wrappers_retain (h) :
    (w.retain h).wrappers.length = w.wrappers.length := length_wrappers_updateWrapper h _

@[simp] theorem length_wrappers_addWrapper (p X e r) :
    (w.addWrapper p X e r).1.wrappers.length = w.wrappers.length + 1 := by simp [addWrapper]

@[simp] theorem snd_addRaw (X) (s : σ) : (w.addRaw X s).2 = w.raws.length := rfl

/-- A raw handle that is on its way to be closed is read no further. -/
theorem states_updatePhase (raw : RawId) (phase : Phase) :
    (w.updateRaw raw fun r => { r with phase }).raws.map RawHandle.state
      = w.raws.map RawHandle.state := by
  apply List.ext_getElem?
  intro k
  rw [updateRaw, List.getElem?_map, List.getElem?_map, List.getElem?_modify]
  by_cases hk : raw = k <;> cases w.raws[k]? <;> simp [hk]

/-! ## What an operation changes -/

theorem exists_of_release {w' : World σ} {death : Option (PoolId × Note)}
    (hw : w.release h = (w', death)) : ∃ f, w' = w.updateWrapper h f := by
  unfold release at hw
  split at hw
  · cases hw
    exact ⟨id, by simp [updateWrapper]⟩
  · split at hw <;> cases hw <;> exact ⟨_, rfl⟩

/-! ## Wrappers -/

@[simp] theorem snd_addWrapper (p X e r) : (w.addWrapper p X e r).2 = w.wrappers.length := rfl

theorem wrappers_addWrapper (p X e r) : (w.addWrapper p X e r).1.wrappers
    = w.wrappers ++ [{ identity := X, entry := e, home := p, stream := some r }] := rfl

theorem getElem?_updateWrapper (hx : w.wrappers[h]? = some x) (f k) :
    (w.updateWrapper h f).wrappers[k]? = if h = k then some (f x) else w.wrappers[k]? := by
  rw [updateWrapper, List.getElem?_modify]
  split
  · next hk => rw [← hk, hx]; rfl
  · simp

theorem getElem?_addWrapper (p X e r) (k) : (w.addWrapper p X e r).1.wrappers[k]?
    = if k = w.wrappers.length then
        some { identity := X, entry := e, home := p, stream := some r }
      else w.wrappers[k]? := by
  rw [wrappers_addWrapper]
  split
  · next hk => simp [hk]
  · next hk =>
    rcases Nat.lt_or_gt_of_ne hk with hlt | hgt
    · rw [List.getElem?_append_left hlt]
    · rw [List.getElem?_eq_none (by simpa using hgt), List.getElem?_eq_none (by omega)]

/-! ## References -/

/-- How many references a wrapper has; what is no wrapper has none. -/
def strong (w : World σ) (h : WrapperId) : Nat := (w.wrappers[h]?.map Wrapper.strong).getD 0

theorem strong_eq (hx : w.wrappers[h]? = some x) : w.strong h = x.strong := by
  simp [strong, hx]

theorem exists_of_strong_pos (hs : 0 < w.strong h) :
    ∃ x, w.wrappers[h]? = some x ∧ x.strong = w.strong h := by
  cases hx : w.wrappers[h]? with
  | none => simp [strong, hx] at hs
  | some x => exact ⟨x, rfl, (strong_eq hx).symm⟩

theorem isLive_iff : w.isLive h ↔ 0 < w.strong h := by
  cases hx : w.wrappers[h]? <;> simp [isLive, strong, hx, Wrapper.isLive]

@[simp] theorem strong_updateRaw (r f) : (w.updateRaw r f).strong h = w.strong h := rfl
@[simp] theorem strong_updatePool (p f) : (w.updatePool p f).strong h = w.strong h := rfl
@[simp] theorem strong_addRaw (X) (s : σ) : (w.addRaw X s).1.strong h = w.strong h := rfl
@[simp] theorem strong_addPool (c) : (w.addPool c).1.strong h = w.strong h := rfl

theorem strong_updateWrapper (hx : w.wrappers[h]? = some x) (f k) :
    (w.updateWrapper h f).strong k = if h = k then (f x).strong else w.strong k := by
  rw [strong, getElem?_updateWrapper hx]
  split <;> rfl

theorem strong_addWrapper (p X e r) (k) : (w.addWrapper p X e r).1.strong k
    = if k = w.wrappers.length then 1 else w.strong k := by
  rw [strong, getElem?_addWrapper]
  split <;> rfl

theorem strong_retain (hs : 0 < w.strong h) (k) :
    (w.retain h).strong k = w.strong k + if h = k then 1 else 0 := by
  obtain ⟨x, hx, hxs⟩ := exists_of_strong_pos hs
  rw [retain, strong_updateWrapper hx]
  split
  · next hk => rw [← hk, ← hxs]
  · rfl

theorem strong_length : w.strong w.wrappers.length = 0 := by simp [strong]

/-! ## Raw handles in streams -/

def streams (w : World σ) : Multiset RawId := collect Wrapper.raws w.wrappers

@[simp] theorem streams_updateRaw (r f) : (w.updateRaw r f).streams = w.streams := rfl
@[simp] theorem streams_updatePool (p f) : (w.updatePool p f).streams = w.streams := rfl
@[simp] theorem streams_addRaw (X) (s : σ) : (w.addRaw X s).1.streams = w.streams := rfl
@[simp] theorem streams_addPool (c) : (w.addPool c).1.streams = w.streams := rfl

theorem streams_updateWrapper_of_eq (f) (hf : ∀ x, (f x).stream = x.stream) :
    (w.updateWrapper h f).streams = w.streams := by
  rw [streams, updateWrapper, collect_modify_of_eq _ fun x => by rw [Wrapper.raws, hf x]; rfl]
  rfl

@[simp] theorem streams_retain (h) : (w.retain h).streams = w.streams :=
  streams_updateWrapper_of_eq _ fun _ => rfl

/-- The raw handle that a wrapper gives up is in no stream any more. -/
theorem streams_giveUp {r : RawId} (hx : w.wrappers[h]? = some x) (hr : x.stream = some r) (f)
    (hf : (f x).stream = none) : w.streams = {r} + (w.updateWrapper h f).streams := by
  have hm := collect_modify (g := Wrapper.raws) f hx
  simp only [Wrapper.raws, hr, hf] at hm
  simpa [streams, updateWrapper, add_comm] using hm.symm

theorem streams_addWrapper (p X e r) :
    (w.addWrapper p X e r).1.streams = {r} + w.streams := by
  rw [streams, wrappers_addWrapper, collect_coe_append, add_comm]
  simp [streams, Wrapper.raws]

/-- The raw handle in a wrapper's stream, if there is one. -/
def rawIn (w : World σ) (h : WrapperId) : RawId := (w.wrappers[h]?.bind Wrapper.stream).getD 0

theorem mem_streams {r : RawId} :
    r ∈ w.streams ↔ ∃ (h : WrapperId) (x : Wrapper), w.wrappers[h]? = some x ∧ x.stream = some r := by
  rw [streams, mem_collect]
  constructor
  · rintro ⟨x, hx, hr⟩
    obtain ⟨h, hx⟩ := List.mem_iff_getElem?.1 hx
    exact ⟨h, x, hx, Option.mem_toList.1 hr⟩
  · rintro ⟨h, x, hx, hr⟩
    exact ⟨x, List.mem_of_getElem? hx, Option.mem_toList.2 hr⟩

/-! ## Queues -/

/-- The queue of the pool still takes deaths. -/
def isUp (w : World σ) (p : PoolId) : Prop := (w.pools[p]?.bind Pool.queue).isSome

theorem isUp_iff : w.isUp p ↔ ∃ pool notes, w.pools[p]? = some pool ∧ pool.queue = some notes := by
  simp only [isUp, Option.isSome_iff_exists, Option.bind_eq_some_iff]
  exact ⟨fun ⟨a, pool, hp, ha⟩ => ⟨pool, a, hp, ha⟩, fun ⟨pool, a, hp, ha⟩ => ⟨a, pool, hp, ha⟩⟩

theorem pending_eq {pool : Pool} (hp : w.pools[p]? = some pool) :
    w.pending p = pool.queue.getD [] := by
  simp [pending, hp]

theorem exists_of_mem_pending {note : Note} (hn : note ∈ w.pending p) :
    ∃ pool notes, w.pools[p]? = some pool ∧ pool.queue = some notes ∧ w.pending p = notes := by
  cases hp : w.pools[p]? with
  | none => simp [pending, hp] at hn
  | some pool =>
    cases hq : pool.queue with
    | none => simp [pending, hp, hq] at hn
    | some notes => exact ⟨pool, notes, rfl, hq, by simp [pending, hp, hq]⟩

theorem getElem?_updatePool (p f) (q) :
    (w.updatePool p f).pools[q]? = if p = q then w.pools[q]?.map f else w.pools[q]? := by
  rw [updatePool, List.getElem?_modify]
  split <;> simp

theorem getElem?_addPool (c) (q) : (w.addPool c).1.pools[q]?
    = if q = w.pools.length then some { config := c } else w.pools[q]? := by
  change (w.pools ++ [{ config := c }])[q]? = _
  split
  · next hq => simp [hq]
  · next hq =>
    rcases Nat.lt_or_gt_of_ne hq with hlt | hgt
    · rw [List.getElem?_append_left hlt]
    · rw [List.getElem?_eq_none (by simpa using hgt), List.getElem?_eq_none (by omega)]

theorem isUp_updatePool (hq : w.isUp q) {f : Pool → Pool}
    (hf : ∀ pool, pool.queue.isSome → (f pool).queue.isSome) : (w.updatePool p f).isUp q := by
  obtain ⟨pool, notes, hpool, hn⟩ := isUp_iff.1 hq
  rw [isUp, getElem?_updatePool, hpool]
  by_cases hpq : p = q
  · simpa [hpq] using hf pool (by simp [hn])
  · simp [hpq, hn]

theorem isUp_of_updatePool {f : Pool → Pool} (hq : (w.updatePool p f).isUp q)
    (hf : p = q → ∀ pool, w.pools[p]? = some pool → (f pool).queue.isSome → pool.queue.isSome) :
    w.isUp q := by
  rw [isUp, getElem?_updatePool] at hq
  by_cases hpq : p = q
  · subst hpq
    cases hp : w.pools[p]? with
    | none => simp [hp] at hq
    | some pool =>
      rw [isUp, hp]
      exact hf rfl pool hp (by simpa [hp] using hq)
  · rwa [if_neg hpq] at hq

theorem isUp_modify_iff {w' : World σ} {f : Pool → Pool} (hw : w'.pools = w.pools.modify p f)
    (hf : p = q → ∀ pool, w.pools[p]? = some pool →
      ((f pool).queue.isSome ↔ pool.queue.isSome)) : w'.isUp q ↔ w.isUp q := by
  unfold isUp
  rw [hw, List.getElem?_modify]
  by_cases hpq : p = q
  · subst hpq
    cases hp : w.pools[p]? with
    | none => simp
    | some pool => simpa using hf rfl pool hp
  · cases w.pools[q]? <;> simp [hpq]

theorem isUp_addPool (hq : w.isUp q) (c) : (w.addPool c).1.isUp q := by
  obtain ⟨pool, notes, hpool, hn⟩ := isUp_iff.1 hq
  have hne : q ≠ w.pools.length := Nat.ne_of_lt (List.getElem?_eq_some_iff.1 hpool).1
  rw [isUp, getElem?_addPool, if_neg hne]
  exact hq

@[simp] theorem pending_updateRaw (r f) : (w.updateRaw r f).pending p = w.pending p := rfl
@[simp] theorem pending_updateWrapper (h f) : (w.updateWrapper h f).pending p = w.pending p := rfl
@[simp] theorem pending_retain (h) : (w.retain h).pending p = w.pending p := rfl
@[simp] theorem pending_addRaw (X) (s : σ) : (w.addRaw X s).1.pending p = w.pending p := rfl
@[simp] theorem pending_addWrapper (q X e r) :
    (w.addWrapper q X e r).1.pending p = w.pending p := rfl

@[simp] theorem pending_addPool (c) : (w.addPool c).1.pending p = w.pending p := by
  rw [pending, getElem?_addPool]
  split
  · next hp => simp [pending, hp]
  · rfl

@[simp] theorem pending_updatePool (s : Pool → Slots) (n : Pool → Entry) (c : Pool → Config) :
    (w.updatePool p fun pool => ⟨s pool, n pool, pool.queue, c pool⟩).pending q = w.pending q := by
  rw [pending, pending, getElem?_updatePool]
  split <;> cases w.pools[q]? <;> simp

/-- A pool that is there, with another queue. -/
theorem pending_updateQueue (hp : p < w.pools.length) (s : Pool → Slots) (n : Pool → Entry)
    (c : Pool → Config) (queue : Option (List Note)) :
    (w.updatePool p fun pool => ⟨s pool, n pool, queue, c pool⟩).pending q
      = if p = q then queue.getD [] else w.pending q := by
  rw [pending, getElem?_updatePool]
  by_cases hpq : p = q
  · subst hpq
    simp [List.getElem?_eq_getElem hp]
  · rw [if_neg hpq, if_neg hpq]
    rfl

theorem lt_length_of_isUp (hp : w.isUp p) : p < w.pools.length := by
  obtain ⟨pool, notes, hp, -⟩ := isUp_iff.1 hp
  exact (List.getElem?_eq_some_iff.1 hp).1

theorem isUp_of_mem_pending {note : Note} (hn : note ∈ w.pending p) : w.isUp p := by
  obtain ⟨pool, notes, hp, hq, -⟩ := exists_of_mem_pending hn
  exact isUp_iff.2 ⟨pool, notes, hp, hq⟩

theorem isUp_of_queue {notes : List Note} (hq : w.pools[p]?.bind Pool.queue = some notes) :
    w.isUp p := by
  rw [isUp, hq, Option.isSome_some]

theorem pending_of_queue {notes : List Note} (hq : w.pools[p]?.bind Pool.queue = some notes) :
    w.pending p = notes := by
  rw [pending, hq, Option.getD_some]

theorem queue_of_isUp (hp : w.isUp p) : w.pools[p]?.bind Pool.queue = some (w.pending p) := by
  obtain ⟨notes, hq⟩ := Option.isSome_iff_exists.1 hp
  rw [pending_of_queue hq, hq]

/-- The oldest death is taken from the queue. -/
theorem pending_receive {note : Note} {notes : List Note} (hq : w.pending p = note :: notes) :
    (w.updatePool p fun pool => { pool with queue := some notes }).pending q
      = if p = q then notes else w.pending q :=
  pending_updateQueue (lt_length_of_isUp (isUp_of_mem_pending (hq ▸ List.mem_cons_self))) _ _ _ _

/-- A death is put at the end of the queue. -/
theorem pending_post {note : Note} {notes : List Note}
    (hq : w.pools[p]?.bind Pool.queue = some notes) :
    (w.updatePool p fun pool => { pool with queue := some (notes ++ [note]) }).pending q
      = if p = q then w.pending p ++ [note] else w.pending q := by
  rw [pending_of_queue hq]
  exact pending_updateQueue (lt_length_of_isUp (isUp_of_queue hq)) _ _ _ _

theorem pending_disconnect (n : Pool → Entry) (c : Pool → Config) :
    (w.updatePool p fun pool => ⟨.empty, n pool, none, c pool⟩).pending q
      = if p = q then [] else w.pending q := by
  rw [pending, getElem?_updatePool]
  split
  · cases w.pools[q]? <;> rfl
  · rfl

theorem isUp_disconnect_iff (n : Pool → Entry) (c : Pool → Config) :
    (w.updatePool p fun pool => ⟨.empty, n pool, none, c pool⟩).isUp q ↔ p ≠ q ∧ w.isUp q := by
  rw [isUp, getElem?_updatePool]
  by_cases hpq : p = q
  · cases w.pools[q]? <;> simp [hpq]
  · simp [hpq, isUp]

/-- The raw handles of the deaths that wait in queues. -/
def queued (w : World σ) : Multiset RawId := collect Pool.raws w.pools

@[simp] theorem queued_updateRaw (r f) : (w.updateRaw r f).queued = w.queued := rfl
@[simp] theorem queued_updateWrapper (h f) : (w.updateWrapper h f).queued = w.queued := rfl
@[simp] theorem queued_retain (h) : (w.retain h).queued = w.queued := rfl
@[simp] theorem queued_addRaw (X) (s : σ) : (w.addRaw X s).1.queued = w.queued := rfl
@[simp] theorem queued_addWrapper (p X e r) : (w.addWrapper p X e r).1.queued = w.queued := rfl

@[simp] theorem queued_addPool (c) : (w.addPool c).1.queued = w.queued := by
  simp [queued, addPool, Pool.raws]

theorem queued_updatePool_of_eq (f) (hf : ∀ pool, (f pool).queue = pool.queue) :
    (w.updatePool p f).queued = w.queued := by
  rw [queued, updatePool, collect_modify_of_eq _ fun pool => by rw [Pool.raws, hf pool]; rfl]
  rfl

theorem queued_updatePool {pool : Pool} (hp : w.pools[p]? = some pool) (f) :
    (w.updatePool p f).queued + pool.raws = w.queued + (f pool).raws :=
  collect_modify f hp

/-- The raw handle of the death that is received is queued no more. -/
theorem queued_receive {note : Note} {notes : List Note} (hq : w.pending p = note :: notes) :
    w.queued
      = {note.raw} + (w.updatePool p fun pool => { pool with queue := some notes }).queued := by
  obtain ⟨pool, notes', hp, hq', hn⟩ := exists_of_mem_pending (p := p) (by rw [hq]; exact .head _)
  obtain rfl : notes' = note :: notes := hn.symm.trans hq
  have hm := queued_updatePool hp fun pool => { pool with queue := some notes }
  rw [Pool.raws, Pool.raws, hq', Option.getD_some, Option.getD_some, List.map_cons,
    ← Multiset.cons_coe, ← Multiset.singleton_add, ← add_assoc] at hm
  rw [add_comm]
  exact (add_right_cancel hm).symm

theorem queued_post {note : Note} {notes : List Note}
    (hq : w.pools[p]?.bind Pool.queue = some notes) :
    (w.updatePool p fun pool => { pool with queue := some (notes ++ [note]) }).queued
      = {note.raw} + w.queued := by
  obtain ⟨pool, hp, hq'⟩ := Option.bind_eq_some_iff.1 hq
  have hm := queued_updatePool hp fun pool => { pool with queue := some (notes ++ [note]) }
  rw [Pool.raws, Pool.raws, hq', Option.getD_some, Option.getD_some, List.map_append,
    ← Multiset.coe_add, add_comm (notes.map Note.raw : Multiset RawId), ← add_assoc] at hm
  rw [add_comm]
  exact add_right_cancel hm

/-- What was queued in a pool that is gone. -/
theorem queued_disconnect (f : Pool → Pool) (hf : ∀ pool, (f pool).queue = none) :
    w.queued = ((w.pending p).map Note.raw : List RawId) + (w.updatePool p f).queued := by
  cases hp : w.pools[p]? with
  | none => simp [pending, hp, updatePool, List.modify_eq_self (List.getElem?_eq_none_iff.1 hp)]
  | some pool =>
    have hm := queued_updatePool hp f
    simp only [Pool.raws, hf, Option.getD_none, List.map_nil, Multiset.coe_nil, add_zero] at hm
    rw [pending_eq hp, ← hm, add_comm]

theorem pending_le_queued (w : World σ) (p) :
    ((w.pending p).map Note.raw : Multiset RawId) ≤ w.queued := by
  have hd := w.queued_disconnect (p := p) (fun pool => { pool with queue := none }) fun _ => rfl
  rw [hd]
  exact Multiset.le_add_right _ _

theorem mem_queued {r : RawId} : r ∈ w.queued ↔ ∃ p, ∃ note ∈ w.pending p, note.raw = r := by
  rw [queued, mem_collect]
  constructor
  · rintro ⟨pool, hp, hr⟩
    obtain ⟨p, hp⟩ := List.mem_iff_getElem?.1 hp
    obtain ⟨note, hn, hr⟩ := List.mem_map.1 hr
    exact ⟨p, note, by rwa [pending_eq hp], hr⟩
  · rintro ⟨p, note, hn, hr⟩
    obtain ⟨pool, notes, hp, hq, hnotes⟩ := exists_of_mem_pending hn
    refine ⟨pool, List.mem_of_getElem? hp, List.mem_map.2 ⟨note, ?_, hr⟩⟩
    rwa [hq, Option.getD_some, ← hnotes]

/-! ## Slots -/

/-- The slot that a pool has for an identity. -/
def slot? (w : World σ) (p : PoolId) (X : Identity) : Option Slot :=
  w.pools[p]?.bind fun pool => pool.slots.find? X

variable {X Y : Identity}

/-- How many slots of a pool lead to wrappers that nothing references any more. -/
def deadSlots (w : World σ) (pool : Pool) : Nat :=
  pool.slots.toList.countP fun e => !w.isLive e.2.wrapper

theorem slot?_congr (h : Identity.Same X Y) : w.slot? p X = w.slot? p Y := by
  simp only [slot?, fun pool : Pool => pool.slots.find?_congr h]

@[simp] theorem slot?_updateRaw (r f) : (w.updateRaw r f).slot? p X = w.slot? p X := rfl
@[simp] theorem slot?_updateWrapper (h f) : (w.updateWrapper h f).slot? p X = w.slot? p X := rfl
@[simp] theorem slot?_retain (h) : (w.retain h).slot? p X = w.slot? p X := rfl
@[simp] theorem slot?_addRaw (Y) (s : σ) : (w.addRaw Y s).1.slot? p X = w.slot? p X := rfl
@[simp] theorem slot?_addWrapper (q Y e r) :
    (w.addWrapper q Y e r).1.slot? p X = w.slot? p X := rfl

@[simp] theorem slot?_addPool (c) : (w.addPool c).1.slot? p X = w.slot? p X := by
  rw [slot?, getElem?_addPool]
  split
  · next hp => simp [slot?, hp]
  · rfl

@[simp] theorem slot?_updatePool (n : Pool → Entry) (queue : Pool → Option (List Note))
    (c : Pool → Config) :
    (w.updatePool p fun pool => ⟨pool.slots, n pool, queue pool, c pool⟩).slot? q X
      = w.slot? q X := by
  rw [slot?, slot?, getElem?_updatePool]
  split <;> cases w.pools[q]? <;> simp

/-- A pool whose slots have changed. -/
theorem slot?_updateSlots (s : Pool → Slots) (n : Pool → Entry)
    (queue : Pool → Option (List Note)) (c : Pool → Config) :
    (w.updatePool p fun pool => ⟨s pool, n pool, queue pool, c pool⟩).slot? q X
      = if p = q then w.pools[p]?.bind fun pool => (s pool).find? X else w.slot? q X := by
  rw [slot?, getElem?_updatePool]
  by_cases hpq : p = q
  · subst hpq
    cases w.pools[p]? <;> simp
  · rw [if_neg hpq, if_neg hpq]
    rfl

theorem slot?_evict (note : Note) :
    (w.updatePool p fun pool =>
        { pool with slots := pool.slots.evict note.identity note.entry }).slot? q X
      = if p = q ∧ Identity.Same note.identity X ∧
            (w.slot? p note.identity).any (·.entry = note.entry)
        then none else w.slot? q X := by
  rw [slot?_updateSlots]
  by_cases hpq : p = q
  · subst hpq
    simp only [if_true, true_and]
    cases hp : w.pools[p]? with
    | none => simp [slot?, hp]
    | some pool =>
      rw [Option.bind_some, Slots.find?_evict, Slots.isCurrent, slot?, slot?, hp, Option.bind_some,
        Option.bind_some]
  · simp [hpq]

theorem slot?_publish {pool : Pool} {slots : Slots} {observed : Option Entry} {slot : Slot}
    (hp : w.pools[p]? = some pool) (hs : pool.slots.publish X observed slot = some slots) :
    (w.updatePool p fun pool => { pool with slots }).slot? q Y
      = if p = q ∧ Identity.Same X Y then some slot else w.slot? q Y := by
  rw [slot?_updateSlots]
  by_cases hpq : p = q
  · subst hpq
    simp [hp, Slots.find?_publish hs, slot?]
  · simp [hpq]

/-- A slot is published exactly where the table is as it was observed. -/
theorem publish_eq_none_iff {pool : Pool} {observed : Option Entry} {slot : Slot}
    (hp : w.pools[p]? = some pool) :
    pool.slots.publish X observed slot = none ↔ (w.slot? p X).map Slot.entry ≠ observed := by
  rw [slot?, hp, Option.bind_some]
  exact Slots.publish_eq_none_iff

theorem observed_of_publish {pool : Pool} {slots : Slots} {observed : Option Entry} {slot : Slot}
    (hp : w.pools[p]? = some pool) (hs : pool.slots.publish X observed slot = some slots) :
    (w.slot? p X).map Slot.entry = observed := by
  by_contra hne
  rw [(publish_eq_none_iff hp).2 hne] at hs
  cases hs

theorem slot?_disconnect (next : Pool → Entry) (c : Pool → Config) :
    (w.updatePool p fun pool => ⟨.empty, next pool, none, c pool⟩).slot? q X
      = if p = q then none else w.slot? q X := by
  rw [slot?_updateSlots]
  simp

end World

end ReadPool
