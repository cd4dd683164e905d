import Mathlib
import ReadPool.Proofs.Moments
import ReadPool.Proofs.Slots

/-!
# Tables in any order

A table may keep its entries in whatever order it pleases. What is found in it and how many there are
does not depend on the order, and what is put in or taken out keeps to it. Two worlds that differ in
the order of their tables, and in the configurations of their pools, therefore take the same turns,
and go on to differ in nothing else (`World.Matches.step`).
-/

namespace ReadPool

/-- The pools are the same, but for their configurations and the order of their tables. -/
structure Pool.Matches (pool pool' : Pool) : Prop where
  slots : pool.slots.toList.Perm pool'.slots.toList
  next : pool'.next = pool.next
  queue : pool'.queue = pool.queue

structure World.Matches (w w' : World σ) : Prop where
  raws : w'.raws = w.raws
  wrappers : w'.wrappers = w.wrappers
  length_pools : w'.pools.length = w.pools.length
  pools : ∀ p : PoolId, Option.Rel Pool.Matches w.pools[p]? w'.pools[p]?

structure Turn.Matches (turn turn' : Turn σ) : Prop where
  world : turn.world.Matches turn'.world
  frames : turn'.frames = turn.frames
  log : turn'.log = turn.log
  answer : turn'.answer = turn.answer

/-! ## What both have or neither -/

section Rel

variable {α β γ δ : Type*} {R : α → β → Prop} {a : Option α} {b : Option β}

theorem rel_map {S : γ → δ → Prop} {f : α → γ} {g : β → δ} (h : Option.Rel R a b)
    (hf : ∀ x y, R x y → S (f x) (g y)) : Option.Rel S (a.map f) (b.map g) := by
  cases h with
  | none => exact .none
  | some h => exact .some (hf _ _ h)

theorem rel_map_left {S : γ → β → Prop} {f : α → γ} (h : Option.Rel R a b)
    (hf : ∀ x y, R x y → S (f x) y) : Option.Rel S (a.map f) b := by
  cases h with
  | none => exact .none
  | some h => exact .some (hf _ _ h)

theorem rel_bind {S : γ → δ → Prop} {f : α → Option γ} {g : β → Option δ} (h : Option.Rel R a b)
    (hf : ∀ x y, R x y → Option.Rel S (f x) (g y)) : Option.Rel S (a.bind f) (b.bind g) := by
  cases h with
  | none => exact .none
  | some h => exact hf _ _ h

theorem map_eq_of_rel {f : α → γ} {g : β → γ} (h : Option.Rel R a b)
    (hf : ∀ x y, R x y → g y = f x) : b.map g = a.map f := by
  cases h with
  | none => rfl
  | some h => exact congrArg some (hf _ _ h)

theorem bind_eq_of_rel {f : α → Option γ} {g : β → Option γ} (h : Option.Rel R a b)
    (hf : ∀ x y, R x y → g y = f x) : b.bind g = a.bind f := by
  cases h with
  | none => rfl
  | some h => exact hf _ _ h

end Rel

/-! ## One table -/

namespace Slots

variable {s s' : Slots} {X : Identity}

theorem find?_eq_some_iff {slot : Slot} :
    s.find? X = some slot ↔ ∃ Y, (Y, slot) ∈ s.toList ∧ Y.Same X := by
  constructor
  · exact exists_of_find?
  · rintro ⟨Y, hmem, hsame⟩
    rw [← s.find?_congr hsame]
    exact find?_of_mem hmem

theorem find?_eq_of_perm (h : s.toList.Perm s'.toList) (X : Identity) :
    s'.find? X = s.find? X := by
  apply Option.ext
  intro slot
  rw [find?_eq_some_iff, find?_eq_some_iff]
  exact exists_congr fun Y => and_congr_left fun _ => h.mem_iff.symm

theorem size_eq_of_perm (h : s.toList.Perm s'.toList) : s'.size = s.size := h.length_eq.symm

theorem isCurrent_eq_of_perm (h : s.toList.Perm s'.toList) (X : Identity) (entry : Entry) :
    s'.isCurrent X entry = s.isCurrent X entry := by
  rw [isCurrent, isCurrent, find?_eq_of_perm h]

theorem perm_evict (h : s.toList.Perm s'.toList) (X : Identity) (entry : Entry) :
    (s.evict X entry).toList.Perm (s'.evict X entry).toList := by
  rw [evict, evict, isCurrent_eq_of_perm h]
  split
  · exact h.filter _
  · exact h

theorem rel_publish (h : s.toList.Perm s'.toList) (X : Identity) (observed : Option Entry)
    (slot : Slot) : Option.Rel (fun a b : Slots => a.toList.Perm b.toList)
      (s.publish X observed slot) (s'.publish X observed slot) := by
  have hlist := toList_publish s X observed slot
  have hlist' := toList_publish s' X observed slot
  rw [find?_eq_of_perm h] at hlist'
  split at hlist
  · next hobserved =>
    rw [if_pos hobserved] at hlist'
    obtain ⟨a, ha, hlist⟩ := Option.map_eq_some_iff.1 hlist
    obtain ⟨b, hb, hlist'⟩ := Option.map_eq_some_iff.1 hlist'
    rw [ha, hb]
    refine .some ?_
    rw [hlist, hlist']
    split
    · exact h.cons _
    · exact h.map _
  · next hobserved =>
    rw [if_neg hobserved] at hlist'
    rw [Option.map_eq_none_iff.1 hlist, Option.map_eq_none_iff.1 hlist']
    exact .none

end Slots

/-! ## The world -/

namespace Pool.Matches

variable {pool pool' : Pool}

theorem refl (pool : Pool) : pool.Matches pool := ⟨.refl _, rfl, rfl⟩

/-- What is shown of a pool. -/
theorem debug (h : pool.Matches pool') : pool'.debug = pool.debug := by
  rw [Pool.debug, Pool.debug, pending, pending, Slots.size_eq_of_perm h.slots, h.queue]

end Pool.Matches

namespace World.Matches

variable {w w' : World σ} {p : PoolId} {k : WrapperId} {raw : RawId}

theorem refl (w : World σ) : w.Matches w := by
  refine ⟨rfl, rfl, rfl, fun p => ?_⟩
  cases w.pools[p]? with
  | none => exact .none
  | some pool => exact .some (.refl pool)

/-! ### What is read off -/

/-- Whatever is the same in pools that match. -/
theorem map_pools (h : w.Matches w') {f : Pool → α}
    (hf : ∀ pool pool' : Pool, pool.Matches pool' → f pool' = f pool) (p : PoolId) :
    w'.pools[p]?.map f = w.pools[p]?.map f := map_eq_of_rel (h.pools p) hf

theorem bind_pools (h : w.Matches w') {f : Pool → Option α}
    (hf : ∀ pool pool' : Pool, pool.Matches pool' → f pool' = f pool) (p : PoolId) :
    w'.pools[p]?.bind f = w.pools[p]?.bind f := bind_eq_of_rel (h.pools p) hf

theorem queue (h : w.Matches w') (p : PoolId) :
    w'.pools[p]?.bind Pool.queue = w.pools[p]?.bind Pool.queue :=
  h.bind_pools (fun _ _ hpool => hpool.queue) p

theorem pending (h : w.Matches w') (p : PoolId) : w'.pending p = w.pending p := by
  rw [World.pending, World.pending, h.queue]

theorem slot? (h : w.Matches w') (p : PoolId) (X : Identity) : w'.slot? p X = w.slot? p X :=
  h.bind_pools (fun _ _ hpool => Slots.find?_eq_of_perm hpool.slots X) p

theorem isLive (h : w.Matches w') (k : WrapperId) : w'.isLive k = w.isLive k := by
  rw [World.isLive, World.isLive, h.wrappers]

theorem entry (h : w.Matches w') (k : WrapperId) : w'.entry k = w.entry k := by
  rw [World.entry, World.entry, h.wrappers]

/-! ### What is changed -/

theorem updateRaw (h : w.Matches w') (raw : RawId) (f : RawHandle σ → RawHandle σ) :
    (w.updateRaw raw f).Matches (w'.updateRaw raw f) :=
  { h with raws := congrArg (List.modify · raw f) h.raws }

theorem updateWrapper (h : w.Matches w') (k : WrapperId) (f : Wrapper → Wrapper) :
    (w.updateWrapper k f).Matches (w'.updateWrapper k f) :=
  { h with wrappers := congrArg (List.modify · k f) h.wrappers }

theorem updatePool (h : w.Matches w') (p : PoolId) {f g : Pool → Pool}
    (hf : ∀ pool pool' : Pool, pool.Matches pool' → (f pool).Matches (g pool')) :
    (w.updatePool p f).Matches (w'.updatePool p g) := by
  refine ⟨h.raws, h.wrappers, by simpa using h.length_pools, fun q => ?_⟩
  rw [getElem?_updatePool, getElem?_updatePool]
  split
  · exact rel_map (h.pools q) hf
  · exact h.pools q

theorem addPool (h : w.Matches w') (c c' : Config) : (w.addPool c).1.Matches (w'.addPool c').1 := by
  refine ⟨h.raws, h.wrappers, by simpa [World.addPool] using h.length_pools, fun p => ?_⟩
  rw [getElem?_addPool, getElem?_addPool, h.length_pools]
  split
  · exact .some ⟨.refl _, rfl, rfl⟩
  · exact h.pools p

theorem addRaw (h : w.Matches w') (X : Identity) (state : σ) :
    (w.addRaw X state).1.Matches (w'.addRaw X state).1 ∧
      (w'.addRaw X state).2 = (w.addRaw X state).2 :=
  ⟨{ h with raws := congrArg (· ++ _) h.raws }, congrArg List.length h.raws⟩

theorem addWrapper (h : w.Matches w') (p : PoolId) (X : Identity) (entry : Entry) (raw : RawId) :
    (w.addWrapper p X entry raw).1.Matches (w'.addWrapper p X entry raw).1 ∧
      (w'.addWrapper p X entry raw).2 = (w.addWrapper p X entry raw).2 :=
  ⟨{ h with wrappers := congrArg (· ++ _) h.wrappers }, congrArg List.length h.wrappers⟩

theorem retain (h : w.Matches w') (k : WrapperId) : (w.retain k).Matches (w'.retain k) :=
  h.updateWrapper k _

theorem release (h : w.Matches w') (k : WrapperId) :
    (w.release k).1.Matches (w'.release k).1 ∧ (w'.release k).2 = (w.release k).2 := by
  rw [World.release, World.release, h.wrappers]
  cases w.wrappers[k]? with
  | none => exact ⟨h, rfl⟩
  | some x =>
    dsimp only
    split
    · exact ⟨h.updateWrapper k _, rfl⟩
    · exact ⟨h.updateWrapper k _, rfl⟩

theorem intoRaw?_eq_none_iff (h : w.Matches w') (k : WrapperId) :
    w'.intoRaw? k = none ↔ w.intoRaw? k = none := by
  rw [World.intoRaw?, World.intoRaw?, h.wrappers]
  cases w.wrappers[k]? with
  | none => rfl
  | some x =>
    rw [Option.bind_some, Option.bind_some]
    split <;> simp

theorem rel_publish (h : w.Matches w') (p : PoolId) (X : Identity) (observed : Option Entry)
    (k : WrapperId) : Option.Rel (fun a b : Slots => a.toList.Perm b.toList)
      (w.publish? p X observed k) (w'.publish? p X observed k) := by
  unfold publish?
  rw [h.entry]
  exact rel_bind (h.pools p) fun _ _ hpool => Slots.rel_publish hpool.slots X observed _

theorem readThrough (h : w.Matches w') (k : WrapperId) (f : σ → α × σ) :
    Option.Rel (fun a b => b.1 = a.1 ∧ a.2.Matches b.2) (w.readThrough k f) (w'.readThrough k f) := by
  rw [World.readThrough, World.readThrough, h.wrappers, h.raws]
  cases w.wrappers[k]?.bind Wrapper.stream with
  | none => exact .none
  | some raw =>
    rw [Option.bind_some, Option.bind_some]
    cases w.raws[raw]? with
    | none => exact .none
    | some r => exact .some ⟨rfl, h.updateRaw raw _⟩

end World.Matches

/-! ## Turns -/

namespace World.Matches

variable {w w' : World σ}

theorem finish (h : w.Matches w') (frames : List Frame) (answer : Answer) (log : List LogEvent) :
    (w.finish frames answer log).Matches (w'.finish frames answer log) := ⟨h, rfl, rfl, rfl⟩

/-- What comes of an action in one world comes of it in the other. -/
theorem exists_yields (h : w.Matches w') {frames : List Frame} {turn : Turn σ}
    (hstep : w.step frames = some turn) :
    ∃ turn', w'.Yields frames turn' ∧ turn.Matches turn' := by
  cases yields_step hstep with
  | drained hq => exact ⟨_, .drained ((h.pending _).trans hq), h.finish ..⟩
  | received hq =>
    refine ⟨_, .received ((h.pending _).trans hq), h.updatePool _ fun _ _ hpool => ?_, rfl, rfl, rfl⟩
    exact { hpool with queue := rfl }
  | @evicted p note _ removed hr =>
    rw [← h.slot?] at hr
    refine ⟨_, .evicted hr, h.updatePool p fun _ _ hpool => ?_, rfl, rfl, rfl⟩
    exact ⟨Slots.perm_evict hpool.slots note.identity note.entry, hpool.next, hpool.queue⟩
  | found hX hl =>
    exact ⟨_, .found ((h.slot? _ _).trans hX) ((h.isLive _).trans hl), (h.retain _).finish ..⟩
  | @missed p X _ hdead =>
    refine ⟨_, .missed fun slot hslot => ?_, h, by rw [h.slot?], rfl, rfl⟩
    rw [h.slot?] at hslot
    rw [h.isLive, hdead slot hslot]
  | @wrapped p X observed raw =>
    have hnext := h.map_pools (fun _ _ hpool => hpool.next) p
    have hworld : (w.updatePool p fun pool => { pool with next := pool.next + 1 }).Matches
        (w'.updatePool p fun pool => { pool with next := pool.next + 1 }) :=
      h.updatePool p fun _ _ hpool => ⟨hpool.slots, congrArg (· + 1) hpool.next, hpool.queue⟩
    refine ⟨_, .wrapped, ?_, by rw [h.wrappers], rfl, rfl⟩
    rw [hnext]
    exact (hworld.addWrapper p X _ raw).1
  | @published p X observed k rest slots hs =>
    -- A publication compares one slot, so it succeeds in both worlds or in neither.
    have hrel := h.rel_publish p X observed k
    rw [hs] at hrel
    generalize hs' : w'.publish? p X observed k = o at hrel
    cases hrel with
    | some hslots =>
      refine ⟨_, .published hs', ?_⟩
      rw [h.entry]
      refine finish (h.updatePool p fun _ _ hpool => ?_) ..
      exact ⟨hslots, hpool.next, hpool.queue⟩
  | @lost p X observed k rest hs =>
    have hrel := h.rel_publish p X observed k
    rw [hs] at hrel
    generalize hs' : w'.publish? p X observed k = o at hrel
    cases hrel with
    | none => exact ⟨_, .lost hs', h, rfl, by rw [h.entry], rfl⟩
  | unwrapped hx hs hr =>
    exact ⟨_, .unwrapped (h.wrappers ▸ hx) hs hr, h.updateWrapper _ _, rfl, rfl, rfl⟩
  | shared hs => exact ⟨_, .shared ((h.intoRaw?_eq_none_iff _).2 hs), h, rfl, rfl, rfl⟩
  | died hx hs hr =>
    exact ⟨_, .died (h.wrappers ▸ hx) hs hr, h.updateWrapper _ _, rfl, rfl, rfl⟩
  | @dropped k rest v hw =>
    obtain ⟨hworld, hdeath⟩ := h.release k
    rw [hw] at hworld hdeath
    exact ⟨_, .dropped (Prod.ext rfl hdeath), hworld.finish ..⟩
  | closing => exact ⟨_, .closing, h.updateRaw _ _, rfl, rfl, rfl⟩
  | posted hq =>
    refine ⟨_, .posted ((h.queue _).trans hq), finish (h.updatePool _ fun _ _ hpool => ?_) ..⟩
    exact { hpool with queue := rfl }
  | releasedInline hq => exact ⟨_, .releasedInline ((h.queue _).trans hq), h, rfl, rfl, rfl⟩
  | retiring => exact ⟨_, .retiring, h, rfl, rfl, rfl⟩
  | disconnected =>
    refine ⟨_, .disconnected, h.updatePool _ fun _ _ hpool => ?_, by rw [h.pending], rfl, rfl⟩
    exact ⟨.refl _, hpool.next, rfl⟩
  | flushed => exact ⟨_, .flushed, h.finish ..⟩
  | flushing => exact ⟨_, .flushing, h, rfl, rfl, rfl⟩
  | openFailed | opened | closed | retired => cases hstep

/-- An action does not depend on the order. -/
theorem step (h : w.Matches w') (frames : List Frame) :
    Option.Rel Turn.Matches (w.step frames) (w'.step frames) := by
  cases hstep : w.step frames with
  | none =>
    rw [step_eq_none_iff.2 (step_eq_none_iff.1 hstep)]
    exact .none
  | some turn =>
    obtain ⟨turn', hyields, hmatches⟩ := h.exists_yields hstep
    rw [hyields.step (isIdle_of_step hstep)]
    exact .some hmatches

theorem opened (h : w.Matches w') (frames : List Frame) (result : Except IoError σ) :
    Option.Rel Turn.Matches (w.opened frames result) (w'.opened frames result) := by
  unfold World.opened
  split
  · next p X observed rest =>
    cases result with
    | error e => exact .some (h.finish ..)
    | ok state =>
      obtain ⟨hadded, hplace⟩ := h.addRaw X state
      exact .some ⟨hadded, congrArg (Frame.wrap p X observed · :: rest) hplace, rfl, rfl⟩
  · exact .none

theorem closed (h : w.Matches w') (frames : List Frame) (error : Option IoError) :
    Option.Rel Turn.Matches (w.closed frames error) (w'.closed frames error) := by
  unfold World.closed
  split
  · exact .some ((h.updateRaw _ _).finish ..)
  · exact .none

theorem retired (h : w.Matches w') (frames : List Frame) :
    Option.Rel Turn.Matches (w.retired frames) (w'.retired frames) := by
  unfold World.retired
  split
  · exact .some (h.finish ..)
  · exact .none

end World.Matches

end ReadPool
