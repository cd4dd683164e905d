import Mathlib
import ReadPool.Proofs.Purge
import ReadPool.Proofs.Rest

/-!
# Slots and deaths

A slot of a pool stands for one published wrapper, and the wrapper is in exactly one of four states:
somebody references it, its death is about to be posted, its death is in the queue, or one drain has
received the death and has not looked the slot up yet. So no slot is left behind by its death.
-/

namespace ReadPool

/-- The death that is about to be posted to `p`. -/
def Frame.postingTo (p : PoolId) : Frame → Multiset Note
  | post q note => if q = p then {note} else 0
  | _ => 0

/-- The death that was received from `p` and not looked up yet. -/
def Frame.evictingFrom (p : PoolId) : Frame → Multiset Note
  | evict q note => if q = p then {note} else 0
  | _ => 0

namespace Scene

variable {sc : Scene σ} {p : PoolId}

/-- The deaths that will be looked up in the table of a pool. -/
def deaths (sc : Scene σ) (p : PoolId) : Multiset Note :=
  collect (Frame.postingTo p) sc.frames + sc.world.pending p
    + collect (Frame.evictingFrom p) sc.frames

theorem mem_deaths {note : Note} : note ∈ sc.deaths p ↔ sc.Underway p note := by
  have hpost : note ∈ collect (Frame.postingTo p) sc.frames ↔ .post p note ∈ sc.frames := by
    rw [mem_collect]
    constructor
    · rintro ⟨f, hf, hn⟩
      cases f with
      | post q note' =>
        by_cases hq : q = p
        · obtain rfl : note = note' := by simpa [Frame.postingTo, hq] using hn
          exact hq ▸ hf
        · simp [Frame.postingTo, hq] at hn
      | _ => simp [Frame.postingTo] at hn
    · exact fun h => ⟨_, h, by simp [Frame.postingTo]⟩
  have hevict : note ∈ collect (Frame.evictingFrom p) sc.frames ↔ .evict p note ∈ sc.frames := by
    rw [mem_collect]
    constructor
    · rintro ⟨f, hf, hn⟩
      cases f with
      | evict q note' =>
        by_cases hq : q = p
        · obtain rfl : note = note' := by simpa [Frame.evictingFrom, hq] using hn
          exact hq ▸ hf
        · simp [Frame.evictingFrom, hq] at hn
      | _ => simp [Frame.evictingFrom] at hn
    · exact fun h => ⟨_, h, by simp [Frame.evictingFrom]⟩
  simp only [deaths, Multiset.mem_add, hpost, hevict, Multiset.mem_coe, Underway, or_assoc]

/-- No raw handle is in two deaths. -/
theorem Owned.nodup_deaths (ho : Owned sc) : ((sc.deaths p).map Note.raw).Nodup := by
  have hframes : (collect (Frame.postingTo p) sc.frames).map Note.raw
      + (collect (Frame.evictingFrom p) sc.frames).map Note.raw ≤ collect Frame.raws sc.frames := by
    rw [map_collect, map_collect, ← collect_add_fun]
    refine collect_mono (fun f => ?_) _
    cases f with
    | post q note => by_cases hq : q = p <;> simp [Frame.postingTo, Frame.evictingFrom, Frame.raws, hq]
    | evict q note => by_cases hq : q = p <;> simp [Frame.postingTo, Frame.evictingFrom, Frame.raws, hq]
    | _ => simp [Frame.postingTo, Frame.evictingFrom]
  have hqueue : ((sc.world.pending p).map Note.raw : Multiset RawId) ≤ sc.world.queued :=
    sc.world.pending_le_queued p
  refine Multiset.nodup_of_le ?_ ho.nodup_raws
  rw [deaths, Multiset.map_add, Multiset.map_add, Multiset.map_coe, add_right_comm, raws]
  calc _ ≤ collect Frame.raws sc.frames + sc.world.queued := add_le_add hframes hqueue
    _ ≤ _ := by
      rw [add_right_comm _ sc.world.streams, add_assoc, add_assoc]
      exact add_le_add le_rfl (Multiset.le_add_right _ _)

theorem Mourned.died_of_underway (hm : Mourned sc) {note : Note} (hu : sc.Underway p note) :
    ∃ h, sc.Died p h note := by
  rcases hu with hpost | hpend | hevict
  · exact hm.frames _ hpost
  · exact hm.queues p note hpend
  · exact hm.frames _ hevict

/-- A wrapper that has a slot is live, or has one death that will be looked up; not both. -/
theorem Valid.live_add_deaths (hv : Valid sc) (hp : opensOf p sc.history < 2 ^ 64) {X : Identity}
    {slot : Slot} (h : sc.world.slot? p X = some slot) :
    (if sc.world.isLive slot.wrapper then 1 else 0)
      + (sc.deaths p).countP (fun note => note.entry = slot.entry) = 1 := by
  obtain ⟨⟨-, x, hx, hxp, -⟩, he⟩ := hv.grounded.slots p X slot h
  rw [hx, Option.map_some, Option.some.injEq] at he
  have hof {note : Note} (hn : note ∈ sc.deaths p) (hne : note.entry = slot.entry) :
      sc.world.strong slot.wrapper = 0 ∧ .wrapped p slot.wrapper note.raw ∈ sc.history := by
    obtain ⟨k, ⟨hdead, hw⟩, -⟩ := hv.mourned.died_of_underway (mem_deaths.1 hn)
    obtain ⟨y, hy, hyp, -, hye, -⟩ := id hdead
    obtain rfl : slot.wrapper = k :=
      hv.numbered.entry_inj hv.owned hp hx hy hxp hyp (he.trans (hne.symm.trans hye.symm))
    exact ⟨hdead.strong_eq_zero, hw⟩
  rcases Nat.eq_zero_or_pos (sc.world.strong slot.wrapper) with h0 | hpos
  · obtain ⟨note, hu, -, hne, hw⟩ := hv.tabled.mourned p X slot h h0
    have hlive : ¬ sc.world.isLive slot.wrapper := fun hl => by
      rw [World.isLive_iff, h0] at hl
      exact Nat.lt_irrefl 0 hl
    rw [if_neg hlive, zero_add]
    have hle : (sc.deaths p).countP (fun note => note.entry = slot.entry) ≤ 1 := by
      have hn : (((sc.deaths p).filter fun note => note.entry = slot.entry).map Note.raw).Nodup :=
        Multiset.nodup_of_le (Multiset.map_le_map (Multiset.filter_le _ _)) hv.owned.nodup_deaths
      have hsub : ((sc.deaths p).filter fun note => note.entry = slot.entry).map Note.raw
          ⊆ {note.raw} := by
        intro raw hraw
        obtain ⟨note', hm, rfl⟩ := Multiset.mem_map.1 hraw
        obtain ⟨hm, hne'⟩ := Multiset.mem_filter.1 hm
        exact Multiset.mem_singleton.2 (hv.owned.wrapped_raw_inj (hof hm hne').2 hw)
      have := Multiset.card_le_card ((Multiset.le_iff_subset hn).2 hsub)
      rwa [Multiset.card_map, Multiset.card_singleton, ← Multiset.countP_eq_card_filter] at this
    exact le_antisymm hle (Multiset.countP_pos.2 ⟨note, mem_deaths.2 hu, hne⟩)
  · rw [if_pos (World.isLive_iff.2 hpos), Multiset.countP_eq_zero.2]
    exact fun note hn hne => Nat.ne_of_gt hpos (hof hn hne).1

end Scene

namespace System

variable {σ : Type*} {s : System σ} {p : PoolId}

theorem Reachable.resting (hs : s.Reachable) (hp : opensOf p s.history < 2 ^ 64)
    (hF : s.frames = []) {pool : Pool} (hpool : s.world.pools[p]? = some pool)
    (hup : s.world.isUp p) : Resting s p pool :=
  ⟨hs.valid, hF, hpool, fun h x hl => hs.valid.tabled.live p h x hp hup hl⟩

/-- Each slot of a pool is that of a published wrapper, and the wrapper is referenced, or its death
is about to be posted, in the queue, or received and not looked up yet: exactly one of these. When
nothing is going on, the table has one slot for each identity that is held, and no more dead slots
than there are deaths in the queue; after a purge on its own it has no others. -/
theorem slot_correspondence (hs : s.Reachable) (hp : opensOf p s.history < 2 ^ 64) :
    (∀ X slot, s.world.slot? p X = some slot →
      (∃ x, s.world.wrappers[slot.wrapper]? = some x ∧ x.home = p ∧ x.entry = slot.entry ∧
        x.identity.Same X ∧ .published slot.wrapper ∈ s.history) ∧
      (if s.world.isLive slot.wrapper then 1 else 0)
        + (collect (Frame.postingTo p) s.frames).countP (fun note => note.entry = slot.entry)
        + (s.world.pending p).countP (fun note => note.entry = slot.entry)
        + (collect (Frame.evictingFrom p) s.frames).countP (fun note => note.entry = slot.entry)
          = 1) ∧
    (∀ pool, s.world.pools[p]? = some pool → s.world.isUp p → s.frames = [] →
      pool.slots.size = Identity.countDistinct (s.heldIdentities p) + s.world.deadSlots pool ∧
        s.world.deadSlots pool ≤ pool.pending) ∧
    (∀ s₀, PurgedAlone s₀ s p → ∃ pool, s.world.pools[p]? = some pool ∧ pool.pending = 0 ∧
      (∀ X, (s.world.slot? p X).isSome ↔ ∃ Y ∈ s.heldIdentities p, Y.Same X) ∧
      pool.slots.size = Identity.countDistinct (s.heldIdentities p) ∧
      opensOf p s.history = closesOf p s.history + pool.slots.size) := by
  refine ⟨fun X slot h => ⟨?_, ?_⟩, ?_, ?_⟩
  · obtain ⟨⟨hpub, x, hx, hxp, hX⟩, he⟩ := hs.valid.grounded.slots p X slot h
    have hx' : s.world.wrappers[slot.wrapper]? = some x := hx
    exact ⟨x, hx', hxp, by simpa [hx] using he, hX, hpub⟩
  · have := hs.valid.live_add_deaths hp h
    rw [Scene.deaths, Multiset.countP_add, Multiset.countP_add, Multiset.coe_countP] at this
    simp only [scene, add_assoc] at this ⊢
    exact this
  · intro pool hpool hup hF
    have hr := hs.resting hp hF hpool hup
    exact ⟨hr.size_eq, hr.deadSlots_le_pending⟩
  · intro s₀ hpurge
    obtain ⟨hup, hn⟩ := hpurge.pending_eq
    obtain ⟨pool, notes, hpool, hq⟩ := World.isUp_iff.1 hup
    have hr := hs.resting hp hpurge.2.1 hpool hup
    refine ⟨pool, hpool, ?_, hr.contains_iff hn, hr.size_eq_held hn, hr.opens_eq hn⟩
    rw [Pool.pending, ← World.pending_eq hpool, hn, List.length_nil]

/-- A thread acquires two files and lets go of the second. -/
def lettingGo : List (Act Unit) :=
  [.spawn, .newPool {}, .call 0 (.acquire 0 ⟨.ofString "/a"⟩), .turn 0, .turn 0, .opened 0 (.ok ()),
    .turn 0, .turn 0, .call 0 (.acquire 0 ⟨.ofString "/b"⟩), .turn 0, .turn 0, .opened 0 (.ok ()),
    .turn 0, .turn 0, .call 0 (.drop 1), .turn 0, .turn 0]

theorem isSome_run_lettingGo : (({} : System Unit).run? lettingGo).isSome := by decide +kernel

def letGo : System Unit := (({} : System Unit).run? lettingGo).get isSome_run_lettingGo

/-- It purges. -/
def purging : List (Act Unit) := [.turn 0, .turn 0, .turn 0, .closed 0 none, .turn 0]

theorem isSome_run_purging : (letGo.run? (.call 0 (.purge 0) :: purging)).isSome := by
  decide +kernel

def purged : System Unit := (letGo.run? (.call 0 (.purge 0) :: purging)).get isSome_run_purging

theorem slot_correspondence_purged :
    letGo.Reachable ∧ purged.Reachable ∧ opensOf 0 purged.history < 2 ^ 64 ∧
    (∃ pool, letGo.world.pools[0]? = some pool ∧
      pool.slots.size = Identity.countDistinct (letGo.heldIdentities 0) + letGo.world.deadSlots pool) ∧
    ∃ pool, purged.world.pools[0]? = some pool ∧ pool.pending = 0 ∧
      pool.slots.size = Identity.countDistinct (purged.heldIdentities 0) ∧
      opensOf 0 purged.history = closesOf 0 purged.history + pool.slots.size := by
  have hlet : ({} : System Unit).run? lettingGo = some letGo := (Option.some_get _).symm
  have hpurge : letGo.run? (.call 0 (.purge 0) :: purging) = some purged := (Option.some_get _).symm
  have hs : purged.Reachable := ⟨lettingGo ++ .call 0 (.purge 0) :: purging, by
    rw [run?_append, hlet, Option.bind_some, hpurge]⟩
  have hp : opensOf 0 purged.history < 2 ^ 64 := by decide +kernel
  have hp₀ : opensOf 0 letGo.history < 2 ^ 64 := by decide +kernel
  have hup : letGo.world.isUp 0 := by unfold World.isUp; decide +kernel
  obtain ⟨s₁, hcall, hrun⟩ := Option.bind_eq_some_iff.1 hpurge
  have halone : PurgedAlone letGo purged 0 :=
    ⟨by decide +kernel, by decide +kernel, 0, s₁, purging, hcall, by simp [purging, Act.isBy], hrun⟩
  obtain ⟨pool, notes, hpool, -⟩ := World.isUp_iff.1 hup
  obtain ⟨-, hrest, -⟩ := slot_correspondence ⟨lettingGo, hlet⟩ hp₀
  obtain ⟨-, -, hpurged⟩ := slot_correspondence hs hp
  obtain ⟨pool', hpool', hpend, -, hsize, hopens⟩ := hpurged letGo halone
  exact ⟨⟨lettingGo, hlet⟩, hs, hp, ⟨pool, hpool, (hrest pool hpool hup (by decide +kernel)).1⟩,
    pool', hpool', hpend, hsize, hopens⟩

end System

end ReadPool
