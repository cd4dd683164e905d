import Mathlib
import ReadPool.Proofs.Ownership

/-!
# Deaths

A wrapper that nothing references stays so. Each death on its way from the last reference to the
close speaks of such a wrapper, and of a published one: a wrapper that lost its race is taken apart
by the acquisition that made it.
-/

namespace ReadPool

namespace Scene

/-- The wrapper is there, and nothing references it any more. -/
def Dead (sc : Scene σ) (p : PoolId) (h : WrapperId) (X : Identity) (entry : Entry) : Prop :=
  ∃ x, sc.world.wrappers[h]? = some x ∧ x.home = p ∧ x.identity = X ∧ x.entry = entry ∧
    x.strong = 0

/-- The wrapper has left its raw handle. -/
def Left (sc : Scene σ) (p : PoolId) (h : WrapperId) (note : Note) : Prop :=
  sc.Dead p h note.identity note.entry ∧ .wrapped p h note.raw ∈ sc.history

/-- The death is that of `h`, which was published. -/
def Died (sc : Scene σ) (p : PoolId) (h : WrapperId) (note : Note) : Prop :=
  sc.Left p h note ∧ .published h ∈ sc.history

/-- The wrapper was not published and will not be. -/
def Lost (sc : Scene σ) (p : PoolId) (h : WrapperId) (note : Note) : Prop :=
  sc.Left p h note ∧ .published h ∉ sc.history

variable {sc sc' : Scene σ}

namespace Step

theorem strong_eq_zero (hs : Step sc sc') (hr : Referenced sc) {h : WrapperId}
    (hl : h < sc.world.wrappers.length) (h0 : sc.world.strong h = 0) :
    sc'.world.strong h = 0 := by
  cases hs with
  | clone hh =>
    rw [World.strong_retain (hr.strong_pos_of_held hh), h0]
    have := hr.strong_pos_of_held hh
    split
    · next hk => simp_all
    · rfl
  | hit hp hX hlive =>
    have := World.isLive_iff.1 hlive
    rw [World.strong_retain this, h0]
    split
    · next hk => simp_all
    · rfl
  | wrap hp =>
    rw [World.strong_addWrapper, World.wrappers_updatePool, if_neg (Nat.ne_of_lt hl)]
    exact h0
  | discard hx hs hr =>
    rw [World.strong_updateWrapper hx]
    split
    · rfl
    · exact h0
  | dropShared hx hs =>
    rw [World.strong_updateWrapper hx]
    split
    · next hk => rw [← World.strong_eq hx, hk, h0]
    · exact h0
  | dropLast hx hs hr =>
    rw [World.strong_updateWrapper hx]
    split
    · rfl
    · exact h0
  | _ => exact h0

/-- What is published now was referenced before. -/
theorem published (hs : Step sc sc') (hr : Referenced sc) {h : WrapperId}
    (hp : .published h ∈ sc'.history) : .published h ∈ sc.history ∨ 0 < sc.world.strong h := by
  cases hs with
  | publish hx hp' hs =>
    simp only [List.mem_cons, reduceCtorEq, Event.published.injEq, false_or] at hp
    rcases hp with rfl | hp
    · right
      rw [hr.strong_eq]
      simp [Frame.trial]
    · exact .inl hp
  | _ => exact .inl (by simpa using hp)

end Step

theorem Dead.step {p : PoolId} {h : WrapperId} {X : Identity} {entry : Entry}
    (hd : sc.Dead p h X entry) (hr : Referenced sc) (hs : Step sc sc') : sc'.Dead p h X entry := by
  obtain ⟨x, hx, hp, hX, he, h0⟩ := hd
  obtain ⟨x', hx', hl⟩ := hs.later hx
  refine ⟨x', hx', hl.home.trans hp, hl.identity.trans hX, hl.entry.trans he, ?_⟩
  have hlt : h < sc.world.wrappers.length := (List.getElem?_eq_some_iff.1 hx).1
  rw [← World.strong_eq hx']
  exact hs.strong_eq_zero hr hlt ((World.strong_eq hx).trans h0)

theorem Dead.strong_eq_zero {p : PoolId} {h : WrapperId} {X : Identity} {entry : Entry}
    (hd : sc.Dead p h X entry) : sc.world.strong h = 0 := by
  obtain ⟨x, hx, -, -, -, h0⟩ := hd
  rw [World.strong_eq hx, h0]

/-- The wrapper that gives its raw handle up has left it. -/
theorem left_giveUp {w : World σ} {F : Multiset Frame} {H : Multiset WrapperId} {E : List Event}
    {h : WrapperId} {x : Wrapper} {raw : RawId} (hx : w.wrappers[h]? = some x)
    (hw : .wrapped x.home h raw ∈ E) :
    Left ⟨w.updateWrapper h fun x => { x with strong := 0, stream := none }, F, H, E⟩ x.home h
      ⟨x.identity, x.entry, raw⟩ :=
  ⟨⟨{ x with strong := 0, stream := none }, by simp [World.getElem?_updateWrapper hx], rfl, rfl,
    rfl, rfl⟩, hw⟩

theorem Left.step {p : PoolId} {h : WrapperId} {note : Note} (hd : sc.Left p h note)
    (hr : Referenced sc) (hs : Step sc sc') : sc'.Left p h note :=
  ⟨hd.1.step hr hs, hs.mem_history hd.2⟩

theorem Died.step {p : PoolId} {h : WrapperId} {note : Note} (hd : sc.Died p h note)
    (hr : Referenced sc) (hs : Step sc sc') : sc'.Died p h note :=
  ⟨hd.1.step hr hs, hs.mem_history hd.2⟩

theorem Lost.step {p : PoolId} {h : WrapperId} {note : Note} (hd : sc.Lost p h note)
    (hr : Referenced sc) (hs : Step sc sc') : sc'.Lost p h note := by
  refine ⟨hd.1.step hr hs, fun hp => ?_⟩
  rcases hs.published hr hp with hold | hpos
  · exact hd.2 hold
  · exact Nat.ne_of_gt hpos hd.1.1.strong_eq_zero

/-! ## Deaths on their way -/

/-- A wrapper has left the raw handle for the cause. -/
def Due (sc : Scene σ) (note : Note) : CloseCause → Prop
  | .death => ∃ p h, sc.Died p h note
  | .lostRace => ∃ p h, sc.Lost p h note

/-- What a frame has to do with a raw handle that a wrapper has left is due to that wrapper. -/
def Justified (sc : Scene σ) : Frame → Prop
  | .post p note => ∃ h, sc.Died p h note
  | .evict p note => ∃ h, sc.Died p h note
  | .flush notes => ∀ note ∈ notes, sc.Due note .death
  | .close raw X entry cause => sc.Due ⟨X, entry, raw⟩ cause
  | .closing raw X entry cause => sc.Due ⟨X, entry, raw⟩ cause
  | _ => True

structure Mourned (sc : Scene σ) : Prop where
  frames : ∀ f ∈ sc.frames, sc.Justified f
  queues : ∀ p, ∀ note ∈ sc.world.pending p, ∃ h, sc.Died p h note
  begun : ∀ raw cause, .closing raw cause ∈ sc.history → ∃ X entry, sc.Due ⟨X, entry, raw⟩ cause

theorem Due.step {note : Note} {cause : CloseCause} (hd : sc.Due note cause) (hr : Referenced sc)
    (hs : Step sc sc') : sc'.Due note cause := by
  cases cause with
  | death =>
    obtain ⟨p, h, hd⟩ := hd
    exact ⟨p, h, hd.step hr hs⟩
  | lostRace =>
    obtain ⟨p, h, hd⟩ := hd
    exact ⟨p, h, hd.step hr hs⟩

theorem Justified.step {f : Frame} (hj : sc.Justified f) (hr : Referenced sc) (hs : Step sc sc') :
    sc'.Justified f := by
  cases f with
  | post p note =>
    obtain ⟨h, hd⟩ := hj
    exact ⟨h, hd.step hr hs⟩
  | evict p note =>
    obtain ⟨h, hd⟩ := hj
    exact ⟨h, hd.step hr hs⟩
  | flush notes => exact fun note hn => (hj note hn).step hr hs
  | close raw X entry cause => exact Due.step hj hr hs
  | closing raw X entry cause => exact Due.step hj hr hs
  | _ => trivial

/-- A death comes to a queue by being posted. -/
theorem Step.mem_pending (hs : Step sc sc') {q : PoolId} {note : Note}
    (hn : note ∈ sc'.world.pending q) : note ∈ sc.world.pending q ∨
      .post q note ∈ sc.frames ∧ sc'.history = .posted q :: sc.history := by
  cases hs with
  | @receive w F H E p n first notes hq =>
    simp only [World.pending_receive hq] at hn
    split at hn
    · next hpq => exact .inl (hpq ▸ hq ▸ List.mem_cons_of_mem first hn)
    · exact .inl hn
  | @post w F H E home last notes hq =>
    simp only [World.pending_post hq] at hn
    split at hn
    · next hpq =>
      subst hpq
      rcases List.mem_append.1 hn with hold | hnew
      · exact .inl hold
      · exact .inr ⟨by simp [List.mem_singleton.1 hnew], rfl⟩
    · exact .inl hn
  | @disconnect w F H E p =>
    simp only [World.pending_disconnect] at hn
    split at hn
    · cases hn
    · exact .inl hn
  | _ => exact .inl (by simpa using hn)

/-- A close begins where a frame is about to begin it. -/
theorem Step.mem_closing (hs : Step sc sc') {raw : RawId} {cause : CloseCause}
    (h : .closing raw cause ∈ sc'.history) : .closing raw cause ∈ sc.history ∨
      ∃ X entry, .close raw X entry cause ∈ sc.frames := by
  cases hs with
  | @close w F H E raw' X entry cause' =>
    rcases List.mem_cons.1 h with heq | hold
    · cases heq
      exact .inr ⟨X, entry, Multiset.mem_cons_self _ F⟩
    · exact .inl hold
  | _ => exact .inl (by simpa using h)

namespace Mourned

/-- Only the frames that a step adds need to be looked at. -/
theorem extend (hi : Mourned sc) (hr : Referenced sc) (hs : Step sc sc')
    (hf : ∀ f ∈ sc'.frames, f ∈ sc.frames ∨ sc'.Justified f) : Mourned sc' where
  frames f h := (hf f h).elim (fun hold => (hi.frames f hold).step hr hs) id
  queues p note h := by
    rcases hs.mem_pending h with hold | ⟨hpost, -⟩
    · exact (hi.queues p note hold).imp fun _ hd => hd.step hr hs
    · exact (hi.frames _ hpost).step hr hs
  begun raw cause h := by
    rcases hs.mem_closing h with hold | ⟨X, entry, hclose⟩
    · exact (hi.begun raw cause hold).imp fun _ h => h.imp fun _ hd => hd.step hr hs
    · exact ⟨X, entry, (hi.frames _ hclose).step hr hs⟩

theorem step (hi : Mourned sc) (hr : Referenced sc) (ho : Owned sc) (hs : Step sc sc') :
    Mourned sc' := by
  refine hi.extend hr hs ?_
  have hst := hs
  cases hs with
  | @receive w F H E p n note notes hq =>
    refine Multiset.forall_mem_cons.2 ⟨.inr ?_, Multiset.forall_mem_cons.2
      ⟨.inr trivial, fun f hf => .inl (Multiset.mem_cons_of_mem hf)⟩⟩
    exact (hi.queues p note (hq ▸ List.mem_cons_self)).imp fun _ hd => hd.step hr hst
  | @evict w F H E p note =>
    refine Multiset.forall_mem_cons.2 ⟨.inr ?_, fun f hf => .inl (Multiset.mem_cons_of_mem hf)⟩
    obtain ⟨h, hd⟩ := hi.frames (.evict p note) (Multiset.mem_cons_self _ F)
    exact ⟨p, h, hd.step hr hst⟩
  | @discard w F H E h x raw hx hs hraw =>
    refine Multiset.forall_mem_cons.2 ⟨.inr ?_, fun f hf => .inl (Multiset.mem_cons_of_mem hf)⟩
    refine ⟨x.home, h, left_giveUp hx (ho.wrapped_of_stream h x raw hx hraw), fun hpub => ?_⟩
    exact hr.shown h hpub (by simp [Frame.trial])
  | @dropLast w F H E h x raw hx hs hraw =>
    refine Multiset.forall_mem_cons.2 ⟨.inr ?_, fun f hf => .inl (Multiset.mem_cons_of_mem hf)⟩
    refine ⟨h, left_giveUp hx (ho.wrapped_of_stream h x raw hx hraw), ?_⟩
    by_contra hpub
    exact (hr.hidden h hpub).2.1 (by simp [Frame.dropped])
  | @close w F H E raw X entry cause =>
    refine Multiset.forall_mem_cons.2 ⟨.inr ?_, fun f hf => .inl (Multiset.mem_cons_of_mem hf)⟩
    exact (hi.frames (.close raw X entry cause) (Multiset.mem_cons_self _ F)).step hr hst
  | @postInline w F H E home note hq =>
    refine Multiset.forall_mem_cons.2 ⟨.inr ?_, fun f hf => .inl (Multiset.mem_cons_of_mem hf)⟩
    obtain ⟨h, hd⟩ := hi.frames (.post home note) (Multiset.mem_cons_self _ F)
    exact ⟨home, h, hd.step hr hst⟩
  | @disconnect w F H E p =>
    refine Multiset.forall_mem_cons.2 ⟨.inr ?_, fun f hf => .inl (Multiset.mem_cons_of_mem hf)⟩
    exact fun note hn => ⟨p, (hi.queues p note hn).imp fun _ hd => hd.step hr hst⟩
  | @flush w F H E note notes =>
    have hj := (hi.frames (.flush (note :: notes)) (Multiset.mem_cons_self _ F)).step hr hst
    refine Multiset.forall_mem_cons.2 ⟨.inr ?_, Multiset.forall_mem_cons.2
      ⟨.inr ?_, fun f hf => .inl (Multiset.mem_cons_of_mem hf)⟩⟩
    · exact hj note List.mem_cons_self
    · exact fun note' hn => hj note' (List.mem_cons_of_mem _ hn)
  | _ => simp +contextual [Justified]

end Mourned

/-! ## Drains -/

def Drained (sc : Scene σ) : Prop :=
  ∀ p, caughtUp p sc.history → sc.world.pending p = []

theorem Drained.step (hi : Drained sc) (hs : Step sc sc') : Drained sc' := by
  intro p hc
  have keep (hold : caughtUp p sc.history) : sc'.world.pending p = [] := by
    apply List.eq_nil_iff_forall_not_mem.2
    intro note hn
    rcases hs.mem_pending hn with hp | ⟨-, he⟩
    · rw [hi p hold] at hp
      cases hp
    · simp [he, caughtUp] at hc
  cases hs with
  | @receiveNone w F H E q n hq =>
    by_cases hqp : q = p
    · exact hqp ▸ hq
    · exact keep (by simpa [caughtUp, hqp] using hc)
  | post hq => exact keep (by simp_all [caughtUp])
  | _ => exact keep (by simpa [caughtUp] using hc)

end Scene

end ReadPool
