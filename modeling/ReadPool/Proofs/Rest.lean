import Mathlib
import ReadPool.Proofs.Keys
import ReadPool.Proofs.Release
import ReadPool.Proofs.Slots

/-!
# At rest

What a pool is like when no operation is going on: its table has a slot for each identity that
somebody holds, and one for each death that has not been received. Without deaths to receive, the
table is what is held, and all else that the pool has opened is closed.
-/

namespace ReadPool

theorem Slots.nodup_keys (s : Slots) : (s.toList.map fun e => e.1.key).Nodup :=
  List.pairwise_map.2 (s.distinct.imp fun hab he => hab (Identity.same_iff_key.2 he))

/-! ## Opens and closes of one pool -/

/-- The event is the end of a close of what `p` has opened. -/
def Event.isCloseOf (p : PoolId) (events : List Event) : Event → Bool
  | closed raw => .opened p raw ∈ events
  | _ => false

/-- How many of the raw handles that a pool has opened are closed. -/
def closesOf (p : PoolId) (events : List Event) : Nat := events.countP (Event.isCloseOf p events)

def Event.opensBy (p : PoolId) : Event → Multiset RawId
  | opened q raw => if q = p then {raw} else 0
  | _ => 0

theorem card_opensBy (p : PoolId) (events : List Event) :
    (collect (Event.opensBy p) events).card = opensOf p events := by
  induction events with
  | nil => rfl
  | cons ev events ih =>
    rw [collect_coe_cons, Multiset.card_add, ih, opensOf, opensOf, List.countP_cons, add_comm]
    cases ev with
    | opened q raw => by_cases hq : q = p <;> simp [Event.opensBy, Event.isOpen, hq]
    | _ => simp [Event.opensBy, Event.isOpen]

theorem mem_opensBy {p : PoolId} {events : List Event} {raw : RawId} :
    raw ∈ collect (Event.opensBy p) events ↔ .opened p raw ∈ events := by
  rw [mem_collect]
  constructor
  · rintro ⟨ev, hev, hr⟩
    cases ev with
    | opened q raw' =>
      by_cases hq : q = p
      · obtain rfl : raw = raw' := by simpa [Event.opensBy, hq] using hr
        exact hq ▸ hev
      · simp [Event.opensBy, hq] at hr
    | _ => simp [Event.opensBy] at hr
  · exact fun h => ⟨_, h, by simp [Event.opensBy]⟩

theorem card_filter_closes (p : PoolId) (events rest : List Event) :
    ((collect Event.closes rest).filter fun raw => .opened p raw ∈ events).card
      = rest.countP (Event.isCloseOf p events) := by
  induction rest with
  | nil => rfl
  | cons ev rest ih =>
    rw [collect_coe_cons, Multiset.filter_add, Multiset.card_add, ih, List.countP_cons, add_comm]
    cases ev with
    | closed raw =>
      by_cases hr : .opened p raw ∈ events <;>
        simp [Event.closes, Event.isCloseOf, Multiset.filter_singleton, hr]
    | _ => simp [Event.closes, Event.isCloseOf]

namespace Scene.Owned

variable {sc : Scene σ}

theorem nodup_opensBy (ho : Owned sc) (p : PoolId) :
    (collect (Event.opensBy p) sc.history).Nodup := by
  have hle : collect (Event.opensBy p) sc.history
      ≤ (collect Event.opens sc.history).map Prod.snd := by
    rw [map_collect]
    refine collect_mono (fun ev => ?_) _
    cases ev with
    | opened q raw => by_cases hq : q = p <;> simp [Event.opensBy, Event.opens, hq]
    | _ => simp [Event.opensBy]
  exact Multiset.nodup_of_le (hle.trans_eq ho.opens_eq) (Multiset.nodup_range _)

theorem not_closed_of_mem_streams (ho : Owned sc) {raw : RawId} (h : raw ∈ sc.world.streams) :
    raw ∉ collect Event.closes sc.history := by
  intro hc
  refine Multiset.disjoint_left.1 (Multiset.nodup_add.1 ho.nodup_raws).2.2 ?_ hc
  simp [h]

end Scene.Owned

namespace System

/-- The identities of the wrappers of a pool that callers hold. -/
def heldIdentities (s : System σ) (p : PoolId) : List Identity :=
  s.held.filterMap fun h =>
    (s.world.wrappers[h]?.filter fun x => x.home = p).map Wrapper.identity

theorem mem_heldIdentities {s : System σ} {p : PoolId} {X : Identity} : X ∈ s.heldIdentities p ↔
    ∃ h ∈ s.held, ∃ x, s.world.wrappers[h]? = some x ∧ x.home = p ∧ x.identity = X := by
  simp only [heldIdentities, List.mem_filterMap, Option.map_eq_some_iff, Option.filter_eq_some_iff,
    decide_eq_true_eq, and_assoc]

/-- No operation is going on, the pool is there, and its live wrappers have their slots. -/
structure Resting (s : System σ) (p : PoolId) (pool : Pool) : Prop where
  valid : s.scene.Valid
  frames : s.frames = []
  pool : s.world.pools[p]? = some pool
  live : ∀ h x, s.scene.LiveIn p h x → s.world.slot? p x.identity = some ⟨x.entry, h⟩

namespace Resting

variable {s : System σ} {p : PoolId} {pool : Pool} (hr : Resting s p pool)
include hr

theorem strong_eq (h : WrapperId) : s.world.strong h = s.held.count h := by
  have := hr.valid.referenced.strong_eq h
  simpa [scene, hr.frames] using this

theorem slot?_eq (X : Identity) : s.world.slot? p X = pool.slots.find? X := by
  simp [World.slot?, hr.pool]

theorem isLive_iff {h : WrapperId} : s.world.isLive h ↔ h ∈ s.held := by
  rw [World.isLive_iff, hr.strong_eq, List.count_pos_iff]

theorem liveIn {h : WrapperId} {x : Wrapper} (hh : h ∈ s.held)
    (hx : s.world.wrappers[h]? = some x) (hp : x.home = p) : s.scene.LiveIn p h x := by
  refine ⟨hx, hp, ?_, ?_⟩
  · by_contra hpub
    exact (hr.valid.referenced.hidden h hpub).1 (Multiset.mem_coe.2 hh)
  · rw [← World.strong_eq hx, hr.strong_eq]
    exact List.count_pos_iff.2 hh

/-- What the slot of an identity says. -/
theorem of_mem {e : Identity × Slot} (he : e ∈ pool.slots.toList) :
    ∃ x, s.world.wrappers[e.2.wrapper]? = some x ∧ x.home = p ∧ x.identity.Same e.1 := by
  obtain ⟨⟨-, h⟩, -⟩ := hr.valid.grounded.slots p e.1 e.2
    ((hr.slot?_eq e.1).trans (Slots.find?_of_mem he))
  exact h

/-! ## Slots -/

/-- The slots of live wrappers are those of the identities that are held. -/
theorem live_keys : ((pool.slots.toList.filter fun e => s.world.isLive e.2.wrapper).map
    fun e => e.1.key).toFinset = ((s.heldIdentities p).map Identity.key).toFinset := by
  ext c
  simp only [List.mem_toFinset, List.mem_map, List.mem_filter, mem_heldIdentities]
  constructor
  · rintro ⟨e, ⟨he, hl⟩, rfl⟩
    obtain ⟨x, hx, hp, hX⟩ := hr.of_mem he
    exact ⟨x.identity, ⟨e.2.wrapper, hr.isLive_iff.1 hl, x, hx, hp, rfl⟩, hX⟩
  · rintro ⟨X, ⟨h, hh, x, hx, hp, rfl⟩, rfl⟩
    have hslot := hr.live h x (hr.liveIn hh hx hp)
    rw [hr.slot?_eq] at hslot
    obtain ⟨Y, hY, hYX⟩ := Slots.exists_of_find? hslot
    exact ⟨_, ⟨hY, hr.isLive_iff.2 hh⟩, hYX⟩

/-- The table has a slot for each identity that is held, and the slots of dead wrappers. -/
theorem size_eq : pool.slots.size = Identity.countDistinct (s.heldIdentities p)
    + s.world.deadSlots pool := by
  have hlive : (pool.slots.toList.filter fun e => s.world.isLive e.2.wrapper).length
      = Identity.countDistinct (s.heldIdentities p) := by
    rw [Identity.countDistinct_eq_card, ← hr.live_keys, List.toFinset_card_of_nodup, List.length_map]
    exact pool.slots.nodup_keys.sublist (List.filter_sublist.map _)
  rw [← hlive, ← List.countP_eq_length_filter, Slots.size]
  exact (List.length_eq_countP_add_countP
    fun e : Identity × Slot => s.world.isLive e.2.wrapper).trans (by simp [World.deadSlots])

/-- Each dead slot has its death in the queue. -/
theorem deadSlots_le_pending : s.world.deadSlots pool ≤ pool.pending := by
  have hpend : s.world.pending p = pool.queue.getD [] := World.pending_eq hr.pool
  rw [World.deadSlots, List.countP_eq_length_filter, Pool.pending, ← hpend,
    ← List.length_map (fun e : Identity × Slot => e.1.key),
    ← List.length_map (fun note : Note => note.identity.key)]
  refine (List.subperm_of_subset (pool.slots.nodup_keys.sublist (List.filter_sublist.map _)) ?_).length_le
  intro c hc
  obtain ⟨e, he, rfl⟩ := List.mem_map.1 hc
  obtain ⟨he, hl⟩ := List.mem_filter.1 he
  have h0 : s.world.strong e.2.wrapper = 0 := by
    apply Nat.eq_zero_of_not_pos
    intro hpos
    simp [World.isLive_iff.2 hpos] at hl
  obtain ⟨note, hu, hsame, -, -⟩ := hr.valid.tabled.mourned p e.1 e.2
    ((hr.slot?_eq e.1).trans (Slots.find?_of_mem he)) h0
  have hn : note ∈ s.world.pending p := by
    simpa [Scene.Underway, scene, hr.frames] using hu
  exact List.mem_map.2 ⟨note, hn, hsame⟩

/-! ## Nothing to receive -/

variable (hn : s.world.pending p = [])
include hn

theorem isLive_of_mem {e : Identity × Slot} (he : e ∈ pool.slots.toList) :
    s.world.isLive e.2.wrapper := by
  by_contra hl
  have h0 : s.world.strong e.2.wrapper = 0 :=
    Nat.eq_zero_of_not_pos fun hpos => hl (World.isLive_iff.2 hpos)
  obtain ⟨note, hu, -⟩ := hr.valid.tabled.mourned p e.1 e.2
    ((hr.slot?_eq e.1).trans (Slots.find?_of_mem he)) h0
  simp [Scene.Underway, scene, hr.frames, hn] at hu

/-- The table is what is held. -/
theorem size_eq_held : pool.slots.size = Identity.countDistinct (s.heldIdentities p) := by
  rw [hr.size_eq, World.deadSlots, List.countP_eq_zero.2 fun e he => by simp [hr.isLive_of_mem hn he], add_zero]

theorem contains_iff (X : Identity) :
    (s.world.slot? p X).isSome ↔ ∃ Y ∈ s.heldIdentities p, Y.Same X := by
  rw [hr.slot?_eq]
  constructor
  · intro h
    obtain ⟨slot, hslot⟩ := Option.isSome_iff_exists.1 h
    obtain ⟨Y, hY, hYX⟩ := Slots.exists_of_find? hslot
    obtain ⟨x, hx, hp, hX⟩ := hr.of_mem hY
    have hh := hr.isLive_iff.1 (hr.isLive_of_mem hn hY)
    exact ⟨x.identity, mem_heldIdentities.2 ⟨slot.wrapper, hh, x, hx, hp, rfl⟩, hX.trans hYX⟩
  · rintro ⟨Y, hY, hYX⟩
    obtain ⟨h, hh, x, hx, hp, rfl⟩ := mem_heldIdentities.1 hY
    have hslot := hr.live h x (hr.liveIn hh hx hp)
    rw [World.slot?_congr hYX, hr.slot?_eq] at hslot
    simp [hslot]

/-- The raw handle that a slot leads to. -/
theorem raw_of_mem {e : Identity × Slot} (he : e ∈ pool.slots.toList) :
    s.world.rawIn e.2.wrapper ∈ s.world.streams ∧
      .wrapped p e.2.wrapper (s.world.rawIn e.2.wrapper) ∈ s.history := by
  obtain ⟨x, hx, hp, -⟩ := hr.of_mem he
  have hpos := World.isLive_iff.1 (hr.isLive_of_mem hn he)
  obtain ⟨y, raw, hy, -, hraw⟩ := hr.valid.referenced.exists_stream hpos
  obtain rfl : y = x := Option.some.inj (hy.symm.trans hx)
  have hre : s.world.rawIn e.2.wrapper = raw := by simp [World.rawIn, hx, hraw]
  rw [hre]
  exact ⟨World.mem_streams.2 ⟨_, y, hx, hraw⟩,
    hp ▸ hr.valid.owned.wrapped_of_stream e.2.wrapper y raw hx hraw⟩

/-- No two slots lead to one raw handle. -/
theorem nodup_raws : (pool.slots.toList.map fun e => s.world.rawIn e.2.wrapper).Nodup := by
  refine List.pairwise_map.2 (pool.slots.distinct.imp_of_mem fun {a b} ha hb hab he => hab ?_)
  obtain ⟨-, hk⟩ := hr.valid.owned.wrapped_inj (hr.raw_of_mem hn ha).2 (he ▸ (hr.raw_of_mem hn hb).2)
  obtain ⟨x, hx, -, hX⟩ := hr.of_mem ha
  obtain ⟨y, hy, -, hY⟩ := hr.of_mem hb
  rw [hk, hy, Option.some.injEq] at hx
  exact hX.symm.trans (hx ▸ hY)

/-- What the pool has opened is closed, or the table leads to it. -/
theorem opensBy_eq : collect (Event.opensBy p) s.history
    = (collect Event.closes s.history).filter (fun raw => .opened p raw ∈ s.history)
      + (pool.slots.toList.map fun e => s.world.rawIn e.2.wrapper : List RawId) := by
  have ho := hr.valid.owned
  refine (Multiset.Nodup.ext (ho.nodup_opensBy p) ?_).2 fun raw => ?_
  · refine Multiset.nodup_add.2 ⟨ho.nodup_closes.filter _, hr.nodup_raws hn, ?_⟩
    apply Multiset.disjoint_left.2
    intro raw hc hs
    obtain ⟨e, he, rfl⟩ := List.mem_map.1 (Multiset.mem_coe.1 hs)
    exact ho.not_closed_of_mem_streams (hr.raw_of_mem hn he).1 (Multiset.mem_of_mem_filter hc)
  · rw [mem_opensBy, Multiset.mem_add, Multiset.mem_filter, Multiset.mem_coe, List.mem_map]
    constructor
    · intro hopen
      rcases hr.valid.place_of_opened (congrArg _ hr.frames) hopen with
        ⟨h, x, hh, hx, hp, hraw⟩ | ⟨note, hnote, -⟩ | hc
      · right
        have hslot := hr.live h x (hr.liveIn (Multiset.mem_coe.1 hh) hx hp)
        rw [hr.slot?_eq] at hslot
        obtain ⟨Y, hY, -⟩ := Slots.exists_of_find? hslot
        have hx' : s.world.wrappers[h]? = some x := hx
        exact ⟨_, hY, by simp [World.rawIn, hx', hraw]⟩
      · have hnote' : note ∈ s.world.pending p := hnote
        simp [hn] at hnote'
      · exact .inl ⟨mem_collect.2 ⟨_, hc, by simp [Event.closes]⟩, hopen⟩
    · rintro (⟨-, hopen⟩ | ⟨e, he, rfl⟩)
      · exact hopen
      · exact ho.opened_of_wrapped (hr.raw_of_mem hn he).2

theorem opens_eq : opensOf p s.history = closesOf p s.history + pool.slots.size := by
  rw [← card_opensBy, hr.opensBy_eq hn, Multiset.card_add, card_filter_closes, Multiset.coe_card,
    List.length_map]
  rfl

end Resting

end System

end ReadPool
