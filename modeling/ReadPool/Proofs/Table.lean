import Mathlib
import ReadPool.Proofs.Acquisitions
import ReadPool.Proofs.Numbering

/-!
# What the table of a pool says

A slot outlives its wrapper only while the death is on its way, and a wrapper that was published
has its slot for as long as it is referenced. The second needs entries to be told apart: a late
death or an old observation could otherwise take the slot of a wrapper that came after.
-/

namespace ReadPool

namespace Scene

/-- The death will still be looked up in the table of the pool. -/
def Underway (sc : Scene σ) (p : PoolId) (note : Note) : Prop :=
  .post p note ∈ sc.frames ∨ note ∈ sc.world.pending p ∨ .evict p note ∈ sc.frames

/-- The wrapper was published by the pool, and is referenced. -/
def LiveIn (sc : Scene σ) (p : PoolId) (h : WrapperId) (x : Wrapper) : Prop :=
  sc.world.wrappers[h]? = some x ∧ x.home = p ∧ .published h ∈ sc.history ∧ 0 < x.strong

structure Tabled (sc : Scene σ) : Prop where
  up : ∀ p X slot, sc.world.slot? p X = some slot → sc.world.isUp p
  mourned : ∀ p X slot, sc.world.slot? p X = some slot → sc.world.strong slot.wrapper = 0 →
    ∃ note, sc.Underway p note ∧ note.identity.Same X ∧ note.entry = slot.entry ∧
      .wrapped p slot.wrapper note.raw ∈ sc.history
  live : ∀ p h x, opensOf p sc.history < 2 ^ 64 → sc.world.isUp p → sc.LiveIn p h x →
    sc.world.slot? p x.identity = some ⟨x.entry, h⟩
  unique : ∀ p h k x y, opensOf p sc.history < 2 ^ 64 → sc.LiveIn p h x → sc.LiveIn p k y →
    x.identity.Same y.identity → h = k

variable {sc sc' : Scene σ} {p : PoolId}

namespace Step

theorem opensOf_le (hs : Step sc sc') : opensOf p sc.history ≤ opensOf p sc'.history := by
  obtain ⟨events, he⟩ := hs.history
  rw [he, opensOf, opensOf, List.countP_append]
  exact Nat.le_add_left _ _

/-- A death that is to be posted comes to the queue, if there is one. -/
theorem of_post (hs : Step sc sc') {note : Note} (hf : .post p note ∈ sc.frames) :
    .post p note ∈ sc'.frames ∨ note ∈ sc'.world.pending p ∨ ¬ sc'.world.isUp p := by
  cases hs with
  | post hq =>
    rcases Multiset.mem_cons.1 hf with heq | hf
    · cases heq
      exact .inr (.inl (by simp [World.pending_post hq]))
    · exact .inl hf
  | postInline hq =>
    rcases Multiset.mem_cons.1 hf with heq | hf
    · cases heq
      exact .inr (.inr (by simp [World.isUp, hq]))
    · exact .inl (Multiset.mem_cons_of_mem hf)
  | dropLast => exact .inl (Multiset.mem_cons_of_mem (by simpa using hf))
  | _ => exact .inl (by simpa using hf)

/-- A death stays in the queue until it is received, or the queue goes. -/
theorem of_pending (hs : Step sc sc') {note : Note} (hn : note ∈ sc.world.pending p) :
    note ∈ sc'.world.pending p ∨ .evict p note ∈ sc'.frames ∨ ¬ sc'.world.isUp p := by
  cases hs with
  | @receive w F H E q n first notes hq =>
    simp only [World.pending_receive hq]
    split
    · next hpq =>
      subst hpq
      rcases List.mem_cons.1 (hq ▸ hn) with rfl | hrest
      · exact .inr (.inl (Multiset.mem_cons_self _ _))
      · exact .inl hrest
    · exact .inl hn
  | post hq =>
    left
    rw [World.pending_post hq]
    split
    · next hpq => exact List.mem_append_left _ (hpq ▸ hn)
    · exact hn
  | @disconnect w F H E q =>
    by_cases hpq : q = p
    · exact .inr (.inr fun hup => ((World.isUp_disconnect_iff _ _).1 hup).1 hpq)
    · exact .inl (by rwa [World.pending_disconnect, if_neg hpq])
  | _ => exact .inl (by simpa using hn)

/-- Where a death is looked up, its slot goes. -/
theorem of_evict (hs : Step sc sc') {note : Note} (hf : .evict p note ∈ sc.frames) :
    .evict p note ∈ sc'.frames ∨ ∀ X slot, sc'.world.slot? p X = some slot →
      note.identity.Same X → slot.entry ≠ note.entry := by
  cases hs with
  | evict =>
    rcases Multiset.mem_cons.1 hf with heq | hf
    · cases heq
      right
      intro X slot hslot hX he
      rw [World.slot?_evict] at hslot
      split at hslot
      · cases hslot
      · next hne => exact hne ⟨rfl, hX, by simp [World.slot?_congr hX, hslot, he]⟩
    · exact .inl (Multiset.mem_cons_of_mem hf)
  | receive => exact .inl (Multiset.mem_cons_of_mem (by simpa using hf))
  | _ => exact .inl (by simpa using hf)

/-- A death is on its way until the table was looked up, or the pool is gone. -/
theorem underway (hs : Step sc sc') {note : Note} (hu : sc.Underway p note) :
    sc'.Underway p note ∨ ¬ sc'.world.isUp p ∨ .evict p note ∈ sc.frames ∧
      ∀ X slot, sc'.world.slot? p X = some slot → note.identity.Same X →
        slot.entry ≠ note.entry := by
  rcases hu with hf | hn | hf
  · rcases hs.of_post hf with hpost | hpend | hdown
    · exact .inl (.inl hpost)
    · exact .inl (.inr (.inl hpend))
    · exact .inr (.inl hdown)
  · rcases hs.of_pending hn with hpend | hevict | hdown
    · exact .inl (.inr (.inl hpend))
    · exact .inl (.inr (.inr hevict))
    · exact .inr (.inl hdown)
  · rcases hs.of_evict hf with hevict | hgone
    · exact .inl (.inr (.inr hevict))
    · exact .inr (.inr ⟨hf, hgone⟩)

/-- A pool that is up was up before, or is new. -/
theorem isUp_of_isUp (hs : Step sc sc') (hp : sc'.world.isUp p)
    (hl : p < sc.world.pools.length) : sc.world.isUp p := by
  cases hs with
  | newPool =>
    rw [World.isUp, World.getElem?_addPool, if_neg (Nat.ne_of_lt hl)] at hp
    exact hp
  | @receive w F H E q n first notes hq =>
    have hup := World.isUp_of_mem_pending (hq ▸ List.mem_cons_self : first ∈ w.pending q)
    apply World.isUp_of_updatePool hp
    intro _ pool hpool _
    simpa [World.isUp, hpool] using hup
  | post hq =>
    apply World.isUp_of_updatePool hp
    intro _ pool hpool _
    rw [hpool, Option.bind_some] at hq
    simp [hq]
  | evict => exact World.isUp_of_updatePool hp fun _ _ _ h => h
  | wrap hpool => exact World.isUp_of_updatePool hp fun _ _ _ h => h
  | publish hx hpool hs => exact World.isUp_of_updatePool hp fun _ _ _ h => h
  | disconnect => exact World.isUp_of_updatePool hp fun _ _ _ h => by cases h
  | _ => exact hp

/-- A slot stays, unless a death takes it, somebody who saw it replaces it, or the pool goes. -/
theorem slot?_next (hs : Step sc sc') {X : Identity} {slot : Slot}
    (h : sc.world.slot? p X = some slot) : sc'.world.slot? p X = some slot ∨
      (∃ note, .evict p note ∈ sc.frames ∧ note.identity.Same X ∧ note.entry = slot.entry) ∨
      (∃ Y k, .publish p Y (some slot.entry) k ∈ sc.frames ∧ Y.Same X) ∨
      .disconnect p ∈ sc.frames ∧ ¬ sc'.world.isUp p := by
  cases hs with
  | @evict w F H E q note =>
    rw [World.slot?_evict]
    split
    · next hq =>
      obtain ⟨rfl, hX, hcur⟩ := hq
      rw [World.slot?_congr hX, h] at hcur
      exact .inr (.inl ⟨note, Multiset.mem_cons_self _ _, hX, by simpa [eq_comm] using hcur⟩)
    · exact .inl h
  | @publish w F H E q Y observed k x pool slots hx hpool hs =>
    rw [World.slot?_publish hpool hs]
    split
    · next hq =>
      obtain ⟨rfl, hY⟩ := hq
      have hsaw := World.observed_of_publish hpool hs
      rw [World.slot?_congr hY, h, Option.map_some] at hsaw
      exact .inr (.inr (.inl ⟨Y, k, hsaw ▸ Multiset.mem_cons_self _ _, hY⟩))
    · exact .inl h
  | @disconnect w F H E q =>
    rw [World.slot?_disconnect]
    split
    · next hq =>
      subst hq
      refine .inr (.inr (.inr ⟨Multiset.mem_cons_self _ _, fun hup => ?_⟩))
      exact ((World.isUp_disconnect_iff _ _).1 hup).1 rfl
    · exact .inl h
  | _ => exact .inl (by simpa using h)

/-- What is published anew has its slot. -/
theorem slot?_of_published (hs : Step sc sc') {h : WrapperId} (hnew : .published h ∈ sc'.history)
    (hold : .published h ∉ sc.history) :
    ∃ q X observed x, .publish q X observed h ∈ sc.frames ∧ sc.world.wrappers[h]? = some x ∧
      (sc.world.slot? q X).map Slot.entry = observed ∧
      ∀ Y, X.Same Y → sc'.world.slot? q Y = some ⟨x.entry, h⟩ := by
  cases hs with
  | @publish w F H E q X observed k x pool slots hx hp hs =>
    have hk : h = k := by simpa [hold] using hnew
    subst hk
    exact ⟨q, X, observed, x, by simp, hx, World.observed_of_publish hp hs, fun Y hY => by
      rw [World.slot?_publish hp hs, if_pos ⟨rfl, hY⟩]⟩
  | _ => exact absurd (by simpa using hnew) hold

/-- The last reference goes by a step that posts the death, if the wrapper was published. -/
theorem underway_of_strong_eq_zero (hs : Step sc sc') (hr : Referenced sc) (ho : Owned sc)
    {h : WrapperId} {x : Wrapper} (hx : sc.world.wrappers[h]? = some x) (hpos : 0 < x.strong)
    (hpub : .published h ∈ sc.history) (h0 : sc'.world.strong h = 0) :
    ∃ raw, sc'.Underway x.home ⟨x.identity, x.entry, raw⟩ ∧
      .wrapped x.home h raw ∈ sc'.history := by
  have hne : sc.world.strong h ≠ 0 := by
    rw [World.strong_eq hx]
    exact Nat.ne_of_gt hpos
  cases hs with
  | clone hh =>
    rw [World.strong_retain (hr.strong_pos_of_held hh)] at h0
    exact absurd (Nat.eq_zero_of_add_eq_zero_right h0) hne
  | hit hp hX hl =>
    rw [World.strong_retain (World.isLive_iff.1 hl)] at h0
    exact absurd (Nat.eq_zero_of_add_eq_zero_right h0) hne
  | wrap hp =>
    rw [World.strong_addWrapper] at h0
    split at h0
    · cases h0
    · exact absurd h0 hne
  | @discard w F H E k y raw hy hs hraw =>
    rw [World.strong_updateWrapper hy] at h0
    split at h0
    · next hk => exact absurd (by simp [Frame.trial, hk]) (hr.shown h hpub)
    · exact absurd h0 hne
  | @dropShared w F H E k y hy hs =>
    rw [World.strong_updateWrapper hy] at h0
    split at h0
    · next hk =>
      subst hk
      obtain rfl : x = y := Option.some.inj (hx.symm.trans hy)
      simp only at h0
      omega
    · exact absurd h0 hne
  | @dropLast w F H E k y raw hy hs hraw =>
    rw [World.strong_updateWrapper hy] at h0
    split at h0
    · next hk =>
      subst hk
      obtain rfl : x = y := Option.some.inj (hx.symm.trans hy)
      exact ⟨raw, .inl (Multiset.mem_cons_self _ _), ho.wrapped_of_stream k x raw hx hraw⟩
    · exact absurd h0 hne
  | _ => exact absurd h0 hne

end Step

/-! ## The slots of live wrappers -/

/-- The number in the slot of a live wrapper is that of no dead one. -/
theorem entry_ne_of_dead (hg : Grounded sc) (hn : Numbered sc) (ho : Owned sc)
    (hp : opensOf p sc.history < 2 ^ 64) {X Y : Identity} {slot : Slot}
    (h : sc.world.slot? p X = some slot) (hl : 0 < sc.world.strong slot.wrapper)
    {k : WrapperId} {entry : Entry} (hd : sc.Dead p k Y entry) : slot.entry ≠ entry := by
  intro he
  obtain ⟨⟨-, x, hx, hxp, -⟩, hxe⟩ := hg.slots p X slot h
  rw [hx, Option.map_some, Option.some.injEq] at hxe
  obtain ⟨y, hy, hyp, -, hye, -⟩ := id hd
  have hk : slot.wrapper = k :=
    hn.entry_inj ho hp hx hy hxp hyp (hxe.trans (he.trans hye.symm))
  exact Nat.ne_of_gt hl (hk ▸ hd.strong_eq_zero)

/-- No step takes or replaces the slot of a live wrapper, unless it ends the pool. -/
theorem Step.slot?_of_live (hs : Step sc sc') (hm : Mourned sc) (hg : Grounded sc) (hn : Numbered sc)
    (ho : Owned sc) (hp : opensOf p sc.history < 2 ^ 64) (hup : sc'.world.isUp p) {X : Identity}
    {slot : Slot} (h : sc.world.slot? p X = some slot) (hl : 0 < sc.world.strong slot.wrapper) :
    sc'.world.slot? p X = some slot := by
  rcases hs.slot?_next h with hkept | ⟨note, hf, -, he⟩ | ⟨Y, k, hf, -⟩ | ⟨-, hdown⟩
  · exact hkept
  · obtain ⟨k, hd⟩ := hm.frames _ hf
    exact absurd he.symm (entry_ne_of_dead hg hn ho hp h hl hd.1.1)
  · obtain ⟨hobs, -⟩ := hg.frames _ hf
    obtain ⟨k', Z, hd⟩ := hobs slot.entry rfl
    exact absurd rfl (entry_ne_of_dead hg hn ho hp h hl hd)
  · exact absurd hup hdown

/-- A wrapper that is live in a pool was referenced before. -/
theorem LiveIn.before (hs : Step sc sc') (hr : Referenced sc) {h : WrapperId} {x' : Wrapper}
    (hl : sc'.LiveIn p h x') : ∃ x, sc.world.wrappers[h]? = some x ∧ x.Later x' ∧ 0 < x.strong := by
  obtain ⟨hx', hp, hpub, hpos⟩ := hl
  have hlt : h < sc.world.wrappers.length := by
    rcases hs.published hr hpub with hold | hpos
    · exact hr.lt_length h hold
    · obtain ⟨x, hx, -⟩ := World.exists_of_strong_pos hpos
      exact (List.getElem?_eq_some_iff.1 hx).1
  obtain ⟨x'', hx'', hlater⟩ := hs.later (List.getElem?_eq_getElem hlt)
  obtain rfl : x'' = x' := Option.some.inj (hx''.symm.trans hx')
  refine ⟨_, List.getElem?_eq_getElem hlt, hlater, Nat.pos_of_ne_zero fun h0 => ?_⟩
  have := hs.strong_eq_zero hr hlt ((World.strong_eq (List.getElem?_eq_getElem hlt)).trans h0)
  rw [World.strong_eq hx'] at this
  exact Nat.ne_of_gt hpos this

/-- What a pool publishes anew has its slot, and the pool is up. -/
theorem Step.slot?_of_new (hs : Step sc sc') (hg : Grounded sc) {h : WrapperId} {x : Wrapper}
    (hx : sc.world.wrappers[h]? = some x) (hnew : .published h ∈ sc'.history)
    (hold : .published h ∉ sc.history) :
    sc'.world.slot? x.home x.identity = some ⟨x.entry, h⟩ ∧ sc'.world.isUp x.home := by
  obtain ⟨q, X, observed, y, hf, hy, -, hslot⟩ := hs.slot?_of_published hnew hold
  obtain rfl : y = x := Option.some.inj (hy.symm.trans hx)
  obtain ⟨-, z, hz, hhome, hX⟩ := hg.frames _ hf
  obtain rfl : z = y := Option.some.inj (hz.symm.trans hy)
  obtain ⟨hup, hd⟩ := hg.up q (mem_collect.2 ⟨_, hf, by simp [Frame.acquiring]⟩)
  subst hhome hX
  exact ⟨hslot _ (.refl _), (hs.isUp hup).resolve_right fun hdown => hd hdown.1⟩

/-! ## Every step keeps the table right -/

namespace Tabled

theorem up_step (hi : Tabled sc) (hg : Grounded sc) (hs : Step sc sc') :
    ∀ p X slot, sc'.world.slot? p X = some slot → sc'.world.isUp p := by
  intro p X slot h
  rcases hs.slot? h with hold | ⟨Y, observed, x, hf, -⟩
  · apply (hs.isUp (hi.up p X slot hold)).resolve_right
    intro hd
    rw [hd.2 X] at h
    cases h
  · obtain ⟨hup, hd⟩ := hg.up p (mem_collect.2 ⟨_, hf, by simp [Frame.acquiring]⟩)
    exact (hs.isUp hup).resolve_right fun h => hd h.1

theorem mourned_step (hi : Tabled sc) (hr : Referenced sc) (ho : Owned sc) (hg : Grounded sc)
    (hs : Step sc sc') :
    ∀ p X slot, sc'.world.slot? p X = some slot → sc'.world.strong slot.wrapper = 0 →
      ∃ note, sc'.Underway p note ∧ note.identity.Same X ∧ note.entry = slot.entry ∧
        .wrapped p slot.wrapper note.raw ∈ sc'.history := by
  intro p X slot h h0
  rcases hs.slot? h with hold | ⟨Y, observed, x, hf, hY, hx, he, hpub, hw⟩
  · obtain ⟨⟨hpub, x, hx, hp, hX⟩, he⟩ := hg.slots p X slot hold
    rw [hx, Option.map_some, Option.some.injEq] at he
    rcases Nat.eq_zero_or_pos x.strong with hdead | hpos
    · -- The death was on its way, and the slot would have gone with its arrival.
      obtain ⟨note, hu, hsame, hent, hwr⟩ :=
        hi.mourned p X slot hold ((World.strong_eq hx).trans hdead)
      rcases hs.underway hu with hu' | hdown | ⟨-, hgone⟩
      · exact ⟨note, hu', hsame, hent, hs.mem_history hwr⟩
      · exact absurd (hi.up_step hg hs p X slot h) hdown
      · exact absurd hent.symm (hgone X slot h hsame)
    · obtain ⟨raw, hu, hwr⟩ := hs.underway_of_strong_eq_zero hr ho hx hpos hpub h0
      exact ⟨⟨x.identity, x.entry, raw⟩, hp ▸ hu, hX, he, hp ▸ hwr⟩
  · have hpos : 0 < sc.world.strong slot.wrapper := by
      have : slot.wrapper ∈ collect Frame.trial sc.frames :=
        mem_collect.2 ⟨_, hf, by simp [Frame.trial]⟩
      rw [hr.strong_eq]
      have := Multiset.count_pos.2 this
      omega
    rw [World.strong, hw] at h0
    exact absurd h0 (Nat.ne_of_gt hpos)

theorem live_step (hi : Tabled sc) (hr : Referenced sc) (hm : Mourned sc) (hg : Grounded sc)
    (hn : Numbered sc) (ho : Owned sc) (hs : Step sc sc') :
    ∀ p h x, opensOf p sc'.history < 2 ^ 64 → sc'.world.isUp p → sc'.LiveIn p h x →
      sc'.world.slot? p x.identity = some ⟨x.entry, h⟩ := by
  intro p h x' hp hup hl
  obtain ⟨x, hx, hlater, hpos⟩ := hl.before hs hr
  obtain ⟨-, hhome, hpub', -⟩ := hl
  have hxp : x.home = p := hlater.home.symm.trans hhome
  rw [hlater.identity, hlater.entry]
  by_cases hpub : .published h ∈ sc.history
  · have hbefore := hs.opensOf_le.trans_lt hp
    have hlen : p < sc.world.pools.length :=
      hn.homes_lt p (hxp ▸ List.mem_map_of_mem (List.mem_of_getElem? hx))
    have hslot := hi.live p h x hbefore (hs.isUp_of_isUp hup hlen) ⟨hx, hxp, hpub, hpos⟩
    exact hs.slot?_of_live hm hg hn ho hbefore hup hslot ((World.strong_eq hx).symm ▸ hpos)
  · exact hxp ▸ (hs.slot?_of_new hg hx hpub' hpub).1

theorem unique_step (hi : Tabled sc) (hr : Referenced sc) (hm : Mourned sc) (hg : Grounded sc)
    (hn : Numbered sc) (ho : Owned sc) (hs : Step sc sc') :
    ∀ p h k x y, opensOf p sc'.history < 2 ^ 64 → sc'.LiveIn p h x → sc'.LiveIn p k y →
      x.identity.Same y.identity → h = k := by
  intro p h k x' y' hp hh hk hsame
  by_cases hup : sc'.world.isUp p
  · have hsh := hi.live_step hr hm hg hn ho hs p h x' hp hup hh
    have hsk := hi.live_step hr hm hg hn ho hs p k y' hp hup hk
    rw [World.slot?_congr hsame, hsk] at hsh
    exact (congrArg Slot.wrapper (Option.some.inj hsh)).symm
  · -- A pool that is down publishes nothing, so both were published before.
    have hbefore {m : WrapperId} {z' : Wrapper} (hl : sc'.LiveIn p m z') :
        ∃ z, z.Later z' ∧ sc.LiveIn p m z := by
      obtain ⟨z, hz, hlater, hpos⟩ := hl.before hs hr
      obtain ⟨-, hhome, hpub', -⟩ := hl
      have hzp : z.home = p := hlater.home.symm.trans hhome
      refine ⟨z, hlater, hz, hzp, ?_, hpos⟩
      by_contra hpub
      exact hup (hzp ▸ (hs.slot?_of_new hg hz hpub' hpub).2)
    obtain ⟨x, hx, hlx⟩ := hbefore hh
    obtain ⟨y, hy, hly⟩ := hbefore hk
    rw [hx.identity, hy.identity] at hsame
    exact hi.unique p h k x y (hs.opensOf_le.trans_lt hp) hlx hly hsame

theorem step (hi : Tabled sc) (hr : Referenced sc) (hm : Mourned sc) (hg : Grounded sc)
    (hn : Numbered sc) (ho : Owned sc) (hs : Step sc sc') : Tabled sc' where
  up := hi.up_step hg hs
  mourned := hi.mourned_step hr ho hg hs
  live := hi.live_step hr hm hg hn ho hs
  unique := hi.unique_step hr hm hg hn ho hs

end Tabled

end Scene

end ReadPool
