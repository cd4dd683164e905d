import Mathlib
import ReadPool.Proofs.Deaths

/-!
# Acquisitions

What an acquisition goes by on its way through the environment: its pool is up and is not being
ended, what it saw in the table is the number of a dead wrapper, and what it publishes is a wrapper
of its own. Slots and answers are therefore those of published wrappers.
-/

namespace ReadPool

/-- The pool that a frame acquires from. -/
def Frame.acquiring : Frame → Multiset PoolId
  | lookUp p _ => {p}
  | opening p _ _ => {p}
  | wrap p _ _ _ => {p}
  | publish p _ _ _ => {p}
  | _ => 0

theorem Frame.pool?_of_mem_acquiring {f : Frame} {p : PoolId} (h : p ∈ f.acquiring) :
    f.pool? = some p := by
  cases f <;> simp_all [acquiring, pool?]

namespace Scene

/-- What was seen in the table of a pool: nothing, or the number of a dead wrapper. -/
def Observed (sc : Scene σ) (p : PoolId) (observed : Option Entry) : Prop :=
  ∀ entry, observed = some entry → ∃ h X, sc.Dead p h X entry

/-- What an acquisition at this frame goes by. -/
def Sound (sc : Scene σ) : Frame → Prop
  | .opening p _ observed => sc.Observed p observed
  | .wrap p _ observed _ => sc.Observed p observed
  | .publish p X observed h => sc.Observed p observed ∧
      ∃ x, sc.world.wrappers[h]? = some x ∧ x.home = p ∧ x.identity = X
  | _ => True

structure Grounded (sc : Scene σ) : Prop where
  up : ∀ p ∈ collect Frame.acquiring sc.frames,
    sc.world.isUp p ∧ .disconnect p ∉ sc.frames
  frames : ∀ f ∈ sc.frames, sc.Sound f
  slots : sc.Filed
  acquired : ∀ p X h, .acquired p X h ∈ sc.history → sc.Shown p X h

variable {sc sc' : Scene σ} {p : PoolId}

namespace Step

/-- Only the end of a pool takes it down, and its slots with it. -/
theorem isUp (hs : Step sc sc') (hp : sc.world.isUp p) : sc'.world.isUp p ∨
    .disconnect p ∈ sc.frames ∧ ∀ X, sc'.world.slot? p X = none := by
  cases hs with
  | newPool => exact .inl (World.isUp_addPool hp _)
  | receive hq => exact .inl (World.isUp_updatePool hp fun _ _ => rfl)
  | evict => exact .inl (World.isUp_updatePool hp fun _ h => h)
  | wrap hpool => exact .inl (World.isUp_updatePool hp fun _ h => h)
  | publish hx hpool hs => exact .inl (World.isUp_updatePool hp fun _ h => h)
  | post hq => exact .inl (World.isUp_updatePool hp fun _ _ => rfl)
  | @disconnect w F H E q =>
    by_cases hpq : q = p
    · exact .inr ⟨by simp [hpq], fun X => by rw [World.slot?_disconnect, if_pos hpq]⟩
    · exact .inl ((World.isUp_disconnect_iff _ _).2 ⟨hpq, hp⟩)
  | _ => exact .inl hp

/-- An acquisition goes on, or begins where the pool is up and nobody ends it. -/
theorem acquiring (hs : Step sc sc') (hp : p ∈ collect Frame.acquiring sc'.frames) :
    p ∈ collect Frame.acquiring sc.frames ∨
      sc.world.isUp p ∧ .disconnect p ∉ sc.frames ∧ .disconnect p ∉ sc'.frames := by
  cases hs with
  | @acquire w F H E q X hq hd =>
    by_cases hpq : p = q
    · subst hpq
      exact .inr ⟨hq, hd, by simp [hd]⟩
    · left
      simpa [Frame.acquiring, hpq] using hp
  | _ => exact .inl (by simp_all [Frame.acquiring])

/-- Nobody begins to end a pool that is acquired from. -/
theorem disconnect_mem (hs : Step sc sc') (hd : .disconnect p ∈ sc'.frames)
    (hp : p ∈ collect Frame.acquiring sc.frames) : .disconnect p ∈ sc.frames := by
  cases hs with
  | @dropPool w F H E q hq hF =>
    by_cases hpq : p = q
    · obtain ⟨f, hf, hpf⟩ := mem_collect.1 hp
      exact absurd (Frame.pool?_of_mem_acquiring hpf) (hpq ▸ hF f hf)
    · simpa [hpq] using hd
  | _ => simp_all

/-- A slot was there before, or its wrapper is the one that is published. -/
theorem slot? (hs : Step sc sc') {X : Identity} {slot : Slot}
    (h : sc'.world.slot? p X = some slot) : sc.world.slot? p X = some slot ∨
      ∃ Y observed x, .publish p Y observed slot.wrapper ∈ sc.frames ∧ Y.Same X ∧
        sc.world.wrappers[slot.wrapper]? = some x ∧ x.entry = slot.entry ∧
        .published slot.wrapper ∈ sc'.history ∧ sc'.world.wrappers = sc.world.wrappers := by
  cases hs with
  | evict =>
    rw [World.slot?_evict] at h
    split at h
    · cases h
    · exact .inl h
  | @publish w F H E q Y observed k x pool slots hx hp hs =>
    rw [World.slot?_publish hp hs] at h
    split at h
    · next hq =>
      cases h
      obtain ⟨rfl, hY⟩ := hq
      exact .inr ⟨Y, observed, x, by simp, hY, hx, rfl, by simp, rfl⟩
    · exact .inl h
  | disconnect =>
    rw [World.slot?_disconnect] at h
    split at h
    · cases h
    · exact .inl h
  | _ => exact .inl (by simpa using h)

end Step

theorem Observed.step {observed : Option Entry} (ho : sc.Observed p observed) (hr : Referenced sc)
    (hs : Step sc sc') : sc'.Observed p observed := by
  intro entry he
  obtain ⟨h, X, hd⟩ := ho entry he
  exact ⟨h, X, hd.step hr hs⟩

theorem Sound.step {f : Frame} (hf : sc.Sound f) (hr : Referenced sc) (hs : Step sc sc') :
    sc'.Sound f := by
  cases f with
  | opening p X observed => exact Observed.step hf hr hs
  | wrap p X observed raw => exact Observed.step hf hr hs
  | publish p X observed h =>
    obtain ⟨ho, x, hx, hp, hX⟩ := hf
    obtain ⟨x', hx', hl⟩ := hs.later hx
    exact ⟨ho.step hr hs, x', hx', hl.home.trans hp, hl.identity.trans hX⟩
  | _ => trivial

theorem Shown.step {X : Identity} {h : WrapperId} (hi : sc.Shown p X h) (hs : Step sc sc') :
    sc'.Shown p X h := by
  obtain ⟨hpub, x, hx, hp, hX⟩ := hi
  obtain ⟨x', hx', hl⟩ := hs.later hx
  exact ⟨hs.mem_history hpub, x', hx', hl.home.trans hp, hl.identity ▸ hX⟩

namespace Grounded

theorem up_step (hi : Grounded sc) (hs : Step sc sc') : ∀ p ∈ collect Frame.acquiring sc'.frames,
    sc'.world.isUp p ∧ .disconnect p ∉ sc'.frames := by
  intro p hp
  rcases hs.acquiring hp with hold | ⟨hup, hd, hd'⟩
  · obtain ⟨hup, hd⟩ := hi.up p hold
    exact ⟨(hs.isUp hup).resolve_right fun h => hd h.1, fun h => hd (hs.disconnect_mem h hold)⟩
  · exact ⟨(hs.isUp hup).resolve_right fun h => hd h.1, hd'⟩

theorem frames_step (hi : Grounded sc) (hr : Referenced sc) (hs : Step sc sc') :
    ∀ f ∈ sc'.frames, sc'.Sound f := by
  have hkeep : ∀ f ∈ sc.frames, sc'.Sound f := fun f hf => (hi.frames f hf).step hr hs
  suffices h : ∀ f ∈ sc'.frames, f ∈ sc.frames ∨ sc'.Sound f from
    fun f hf => (h f hf).elim (hkeep f) id
  have hst := hs
  cases hs with
  | vacant =>
    refine Multiset.forall_mem_cons.2
      ⟨.inr fun entry he => ?_, fun f hf => .inl (Multiset.mem_cons_of_mem hf)⟩
    cases he
  | @stale w F H E p X pool slot hp hX hl =>
    refine Multiset.forall_mem_cons.2
      ⟨.inr fun entry he => ?_, fun f hf => .inl (Multiset.mem_cons_of_mem hf)⟩
    cases he
    obtain ⟨⟨-, x, hx, hhome, -⟩, he⟩ := hi.slots p X slot (by simp [World.slot?, hp, hX])
    have h0 : x.strong = 0 := by
      rw [← World.strong_eq hx]
      exact Nat.eq_zero_of_not_pos fun hpos => by simp [World.isLive_iff.2 hpos] at hl
    exact ⟨slot.wrapper, x.identity, x, hx, hhome, rfl, by simpa [hx] using he, h0⟩
  | opened =>
    refine Multiset.forall_mem_cons.2 ⟨.inr ?_, fun f hf => .inl (Multiset.mem_cons_of_mem hf)⟩
    exact hkeep (.opening _ _ _) (Multiset.mem_cons_self _ _)
  | @wrap w F H E p X observed raw pool hp =>
    refine Multiset.forall_mem_cons.2 ⟨.inr ?_, fun f hf => .inl (Multiset.mem_cons_of_mem hf)⟩
    exact ⟨hkeep (.wrap p X observed raw) (Multiset.mem_cons_self _ _),
      { identity := X, entry := pool.next, home := p, stream := some raw },
      by simp only [World.getElem?_addWrapper, World.wrappers_updatePool, if_true], rfl, rfl⟩
  | _ => simp +contextual [Sound]

theorem slots_step (hi : Grounded sc) (hs : Step sc sc') : sc'.Filed := by
  intro p X slot h
  rcases hs.slot? h with hold | ⟨Y, observed, x, hf, hY, hx, he, hpub, hw⟩
  · obtain ⟨hshown, he⟩ := hi.slots p X slot hold
    refine ⟨hshown.step hs, ?_⟩
    obtain ⟨-, x, hx, -⟩ := hshown
    obtain ⟨x', hx', hl⟩ := hs.later hx
    rw [hx, Option.map_some] at he
    rw [hx', Option.map_some, hl.entry, he]
  · obtain ⟨-, x', hx', hhome, hX⟩ := hi.frames _ hf
    obtain rfl : x' = x := Option.some.inj (hx'.symm.trans hx)
    refine ⟨⟨hpub, x', hw ▸ hx', hhome, hX ▸ hY⟩, ?_⟩
    rw [hw, hx', Option.map_some, he]

theorem acquired_step (hi : Grounded sc) (hs : Step sc sc') :
    ∀ p X h, .acquired p X h ∈ sc'.history → sc'.Shown p X h := by
  have hst := hs
  intro p X h ha
  have hkeep (hold : .acquired p X h ∈ sc.history) : sc'.Shown p X h :=
    (hi.acquired p X h hold).step hst
  cases hs with
  | @hit w F H E q Y pool slot hp hX hl =>
    rcases List.mem_cons.1 ha with heq | hold
    · cases heq
      exact (hi.slots p X slot (by simp [World.slot?, hp, hX])).1.step hst
    · exact hkeep hold
  | @publish w F H E q Y observed k x pool slots hx hp hs =>
    simp only [List.mem_cons, Event.acquired.injEq, reduceCtorEq, false_or] at ha
    rcases ha with ⟨rfl, rfl, rfl⟩ | hold
    · obtain ⟨-, x', hx', hhome, hX⟩ :=
        hi.frames (.publish p X observed h) (Multiset.mem_cons_self _ _)
      exact ⟨by simp, x', hx', hhome, hX ▸ .refl X⟩
    · exact hkeep hold
  | _ => exact hkeep (by simpa using ha)

theorem step (hi : Grounded sc) (hr : Referenced sc) (hs : Step sc sc') : Grounded sc' where
  up := hi.up_step hs
  frames := hi.frames_step hr hs
  slots := hi.slots_step hs
  acquired := hi.acquired_step hs

end Grounded

end Scene

end ReadPool
