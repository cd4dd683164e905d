import Mathlib
import ReadPool.Proofs.Scene

/-!
# References

Each reference to a wrapper is held by a caller or is in the hands of a frame, and a wrapper counts
exactly those. A wrapper that was not published has one reference at the most, that of the
acquisition that tries to publish it.
-/

namespace ReadPool

/-- The reference by which an acquisition tries to publish a wrapper, or gives up to. -/
def Frame.trial : Frame → Multiset WrapperId
  | publish _ _ _ h => {h}
  | discard h => {h}
  | _ => 0

/-- The reference that is about to be dropped. -/
def Frame.dropped : Frame → Multiset WrapperId
  | drop h => {h}
  | _ => 0

namespace Scene

structure Referenced (sc : Scene σ) : Prop where
  strong_eq : ∀ h, sc.world.strong h
    = sc.held.count h + (collect Frame.trial sc.frames).count h + (collect Frame.dropped sc.frames).count h
  /-- A wrapper that is not published is referenced by its trial alone. -/
  hidden : ∀ h, .published h ∉ sc.history →
    h ∉ sc.held ∧ h ∉ collect Frame.dropped sc.frames ∧ sc.world.strong h ≤ 1
  shown : ∀ h, .published h ∈ sc.history → h ∉ collect Frame.trial sc.frames
  /-- A wrapper has its stream as long as it is referenced. -/
  stream_isSome : ∀ (h : WrapperId) (x : Wrapper), sc.world.wrappers[h]? = some x →
    (x.stream.isSome ↔ 0 < x.strong)
  lt_length : ∀ h, .published h ∈ sc.history → h < sc.world.wrappers.length

/-- The wrapper is one that the pool has published under the identity. -/
def Shown (sc : Scene σ) (p : PoolId) (X : Identity) (h : WrapperId) : Prop :=
  .published h ∈ sc.history ∧
    ∃ x, sc.world.wrappers[h]? = some x ∧ x.home = p ∧ x.identity.Same X

/-- A slot is that of a published wrapper, and carries its entry. -/
def Filed (sc : Scene σ) : Prop :=
  ∀ (p : PoolId) (X : Identity) (slot : Slot), sc.world.slot? p X = some slot →
    sc.Shown p X slot.wrapper ∧ sc.world.wrappers[slot.wrapper]?.map Wrapper.entry = some slot.entry

namespace Referenced

variable {sc sc' : Scene σ}

theorem strong_pos_of_held (hi : Referenced sc) {h : WrapperId} (hh : h ∈ sc.held) :
    0 < sc.world.strong h := by
  have := Multiset.count_pos.2 hh
  rw [hi.strong_eq]
  omega

theorem exists_stream (hi : Referenced sc) {h : WrapperId} (hs : 0 < sc.world.strong h) :
    ∃ x raw, sc.world.wrappers[h]? = some x ∧ x.strong = sc.world.strong h ∧
      x.stream = some raw := by
  obtain ⟨x, hx, hxs⟩ := World.exists_of_strong_pos hs
  obtain ⟨raw, hr⟩ := Option.isSome_iff_exists.1 ((hi.stream_isSome h x hx).2 (hxs ▸ hs))
  exact ⟨x, raw, hx, hxs, hr⟩

/-- A wrapper on trial has no other reference, and its stream. -/
theorem exists_of_trial (hi : Referenced sc) {h : WrapperId}
    (ht : h ∈ collect Frame.trial sc.frames) :
    ∃ x raw, sc.world.wrappers[h]? = some x ∧ x.strong = 1 ∧ x.stream = some raw := by
  have hle := (hi.hidden h fun hp => hi.shown h hp ht).2.2
  have hpos : 0 < sc.world.strong h := by
    rw [hi.strong_eq]
    have := Multiset.count_pos.2 ht
    omega
  obtain ⟨x, raw, hx, hxs, hr⟩ := hi.exists_stream hpos
  exact ⟨x, raw, hx, by omega, hr⟩

/-- A wrapper that is about to lose a reference has one, and its stream. -/
theorem exists_of_dropped (hi : Referenced sc) {h : WrapperId}
    (hd : h ∈ collect Frame.dropped sc.frames) :
    ∃ x raw, sc.world.wrappers[h]? = some x ∧ x.stream = some raw := by
  have hpos : 0 < sc.world.strong h := by
    rw [hi.strong_eq]
    have := Multiset.count_pos.2 hd
    omega
  obtain ⟨x, raw, hx, -, hr⟩ := hi.exists_stream hpos
  exact ⟨x, raw, hx, hr⟩

/-- What the references depend on. -/
theorem congr (hi : Referenced sc) (hw : sc'.world.wrappers = sc.world.wrappers)
    (hh : sc'.held = sc.held) (ht : collect Frame.trial sc'.frames = collect Frame.trial sc.frames)
    (hd : collect Frame.dropped sc'.frames = collect Frame.dropped sc.frames)
    (he : ∀ h, .published h ∈ sc'.history ↔ .published h ∈ sc.history) : Referenced sc' := by
  have hs : ∀ h, sc'.world.strong h = sc.world.strong h := fun h => by rw [World.strong, hw]; rfl
  constructor
  · simpa only [hs, hh, ht, hd] using hi.strong_eq
  · simpa only [hs, hh, hd, he] using hi.hidden
  · simpa only [ht, he] using hi.shown
  · simpa only [hw] using hi.stream_isSome
  · simpa only [hw, he] using hi.lt_length

/-- A change of one wrapper keeps the streams as they should be if it does so there. -/
theorem stream_isSome_updateWrapper (hi : Referenced sc) {h : WrapperId} {x : Wrapper}
    (hx : sc.world.wrappers[h]? = some x) {f : Wrapper → Wrapper}
    (hf : (f x).stream.isSome ↔ 0 < (f x).strong) (k : WrapperId) (y : Wrapper)
    (hy : (sc.world.updateWrapper h f).wrappers[k]? = some y) :
    y.stream.isSome ↔ 0 < y.strong := by
  rw [World.getElem?_updateWrapper hx] at hy
  split at hy
  · cases hy
    exact hf
  · exact hi.stream_isSome k y hy

/-- One more reference for a caller to hold. -/
theorem retain {w : World σ} {F : Multiset Frame} {H : Multiset WrapperId} {E : List Event}
    (hi : Referenced ⟨w, F, H, E⟩) {h : WrapperId} (hl : 0 < w.strong h)
    (hp : .published h ∈ E) : Referenced ⟨w.retain h, F, h ::ₘ H, E⟩ := by
  obtain ⟨x, hx, hxs⟩ := World.exists_of_strong_pos hl
  refine ⟨?_, ?_, hi.shown, ?_, ?_⟩
  · intro k
    have := hi.strong_eq k
    simp only [World.strong_retain hl, Multiset.count_cons, eq_comm (a := k)] at this ⊢
    omega
  · intro k hk
    obtain ⟨hH, hd, hs⟩ := hi.hidden k hk
    have hne : k ≠ h := fun hkh => hk (hkh ▸ hp)
    refine ⟨by simp [hne, hH], hd, ?_⟩
    rw [World.strong_retain hl, if_neg hne.symm]
    exact hs
  · refine hi.stream_isSome_updateWrapper hx ?_
    simp [(hi.stream_isSome h x hx).2 (hxs ▸ hl)]
  · intro k hk
    simpa [World.retain, World.updateWrapper] using hi.lt_length k hk

/-- The last reference goes, and the stream with it. -/
theorem giveUp {w : World σ} {F F' : Multiset Frame} {H : Multiset WrapperId} {E : List Event}
    {f : Frame} (hi : Referenced ⟨w, f ::ₘ F, H, E⟩) {h : WrapperId} {x : Wrapper}
    (hx : w.wrappers[h]? = some x) (hs : x.strong = 1) (hf : f.trial + f.dropped = {h})
    (ht : collect Frame.trial F' = collect Frame.trial F)
    (hd : collect Frame.dropped F' = collect Frame.dropped F) :
    Referenced ⟨w.updateWrapper h fun x => { x with strong := 0, stream := none }, F', H, E⟩ := by
  refine ⟨?_, ?_, ?_, ?_, ?_⟩
  · intro k
    have hk := hi.strong_eq k
    have hc := congrArg (Multiset.count k) hf
    simp only [collect_cons, Multiset.count_add, Multiset.count_singleton,
      World.strong_updateWrapper hx, ht, hd] at hk hc ⊢
    split
    · -- The one reference that there was is the frame's, so nobody else has any.
      next hkh =>
      subst hkh
      rw [World.strong_eq hx, hs] at hk
      simp only [if_true] at hc
      omega
    · next hkh =>
      rw [if_neg (Ne.symm hkh)] at hc
      omega
  · intro k hk
    obtain ⟨hH, hdk, hsk⟩ := hi.hidden k hk
    simp only [collect_cons, Multiset.mem_add, not_or] at hdk
    refine ⟨hH, by simpa only [hd] using hdk.2, ?_⟩
    simp only [World.strong_updateWrapper hx]
    split
    · exact Nat.zero_le 1
    · exact hsk
  · intro k hk
    have := hi.shown k hk
    simp only [collect_cons, Multiset.mem_add, not_or] at this
    simpa only [ht] using this.2
  · exact hi.stream_isSome_updateWrapper hx (by simp)
  · intro k hk
    simpa [World.updateWrapper] using hi.lt_length k hk

/-- A new wrapper has one reference, that of the acquisition which is to publish it. -/
theorem wrap {w : World σ} {F : Multiset Frame} {H : Multiset WrapperId} {E : List Event}
    {p : PoolId} {X : Identity} {observed : Option Entry} {raw : RawId}
    (hi : Referenced ⟨w, .wrap p X observed raw ::ₘ F, H, E⟩) (f : Pool → Pool) (entry : Entry) :
    Referenced ⟨((w.updatePool p f).addWrapper p X entry raw).1,
      .publish p X observed w.wrappers.length ::ₘ F, H,
      .wrapped p w.wrappers.length raw :: E⟩ := by
  refine ⟨?_, ?_, ?_, ?_, ?_⟩
  · intro k
    have hk := hi.strong_eq k
    simp only [collect_cons, Frame.trial, Frame.dropped, Multiset.count_add,
      Multiset.count_zero, Multiset.count_singleton, World.strong_addWrapper,
      World.wrappers_updatePool, World.strong_updatePool] at hk ⊢
    by_cases hkl : k = w.wrappers.length
    · -- No wrapper had this number, so nobody had a reference by it.
      subst hkl
      rw [World.strong_length] at hk
      simp only [↓reduceIte]
      omega
    · simp only [hkl, ↓reduceIte] at hk ⊢
      omega
  · intro k hk
    obtain ⟨hH, hd, hs⟩ := hi.hidden k (by simpa using hk)
    refine ⟨hH, by simpa [Frame.dropped] using hd, ?_⟩
    simp only [World.strong_addWrapper, World.strong_updatePool]
    split
    · exact Nat.le_refl 1
    · exact hs
  · intro k hk
    have hlt := hi.lt_length k (by simpa using hk)
    have := hi.shown k (by simpa using hk)
    simp only [collect_cons, Frame.trial, Multiset.mem_add, Multiset.mem_singleton, not_or] at this ⊢
    exact ⟨Nat.ne_of_lt hlt, this.2⟩
  · intro k y hy
    rw [World.getElem?_addWrapper] at hy
    split at hy
    · cases hy
      simp
    · exact hi.stream_isSome k y hy
  · intro k hk
    have := hi.lt_length k (by simpa using hk)
    simp only [World.wrappers_addWrapper, List.length_append, World.wrappers_updatePool] at this ⊢
    omega

/-- The reference of a trial that succeeds becomes the caller's. -/
theorem publish {w : World σ} {F : Multiset Frame} {H : Multiset WrapperId} {E : List Event}
    {p : PoolId} {X : Identity} {observed : Option Entry} {h : WrapperId} {x : Wrapper}
    (hi : Referenced ⟨w, .publish p X observed h ::ₘ F, H, E⟩) (hx : w.wrappers[h]? = some x)
    (f : Pool → Pool) :
    Referenced ⟨w.updatePool p f, F, h ::ₘ H, .acquired p X h :: .published h :: E⟩ := by
  have hh : .published h ∉ E := fun hE => hi.shown h hE (by simp [Frame.trial])
  refine ⟨?_, ?_, ?_, hi.stream_isSome, ?_⟩
  · intro k
    have := hi.strong_eq k
    simp only [collect_cons, Frame.trial, Frame.dropped, Multiset.count_add,
      Multiset.count_zero, Multiset.count_singleton, Multiset.count_cons,
      World.strong_updatePool] at this ⊢
    omega
  · intro k hk
    simp only [List.mem_cons, reduceCtorEq, Event.published.injEq, false_or, not_or] at hk
    obtain ⟨hH, hd, hs⟩ := hi.hidden k hk.2
    exact ⟨by simp [hk.1, hH], by simpa [Frame.dropped] using hd, hs⟩
  · intro k hk
    simp only [List.mem_cons, reduceCtorEq, Event.published.injEq, false_or] at hk
    rcases hk with rfl | hk
    · -- The one reference that it may have was the trial's.
      have hc := hi.strong_eq k
      have hle := (hi.hidden k hh).2.2
      simp only [collect_cons, Frame.trial, Multiset.count_add, Multiset.count_singleton_self]
        at hc hle ⊢
      exact Multiset.count_eq_zero.1 (by omega)
    · have := hi.shown k hk
      simp only [collect_cons, Multiset.mem_add, not_or] at this
      exact this.2
  · intro k hk
    simp only [List.mem_cons, reduceCtorEq, Event.published.injEq, false_or] at hk
    rcases hk with rfl | hk
    · exact (List.getElem?_eq_some_iff.1 hx).1
    · exact hi.lt_length k hk

/-- A reference goes that is not the last. -/
theorem release {w : World σ} {F : Multiset Frame} {H : Multiset WrapperId} {E : List Event}
    {h : WrapperId} {x : Wrapper} (hi : Referenced ⟨w, .drop h ::ₘ F, H, E⟩)
    (hx : w.wrappers[h]? = some x) (hs : x.strong ≠ 1) :
    Referenced ⟨w.updateWrapper h fun x => { x with strong := x.strong - 1 }, F, H, E⟩ := by
  -- The frame has one reference, and there is another.
  have hpos : 2 ≤ x.strong := by
    have hc := hi.strong_eq h
    simp only [collect_cons, Frame.dropped, Multiset.count_add, Multiset.count_singleton_self,
      World.strong_eq hx] at hc
    omega
  refine ⟨?_, ?_, ?_, ?_, ?_⟩
  · intro k
    have hk := hi.strong_eq k
    simp only [collect_cons, Frame.trial, Frame.dropped, Multiset.count_add,
      Multiset.count_zero, Multiset.count_singleton, World.strong_updateWrapper hx] at hk ⊢
    split
    · next hkh =>
      subst hkh
      rw [World.strong_eq hx] at hk
      simp only [if_true] at hk
      omega
    · next hkh =>
      rw [if_neg (Ne.symm hkh)] at hk
      omega
  · intro k hk
    obtain ⟨hH, hd, hs⟩ := hi.hidden k hk
    simp only [collect_cons, Frame.dropped, Multiset.mem_add, Multiset.mem_singleton, not_or] at hd
    refine ⟨hH, hd.2, ?_⟩
    rw [World.strong_updateWrapper hx, if_neg (Ne.symm hd.1)]
    exact hs
  · simpa [Frame.trial] using hi.shown
  · refine hi.stream_isSome_updateWrapper hx ?_
    have := hi.stream_isSome h x hx
    simp only at this ⊢
    rw [this]
    omega
  · intro k hk
    simpa [World.updateWrapper] using hi.lt_length k hk

theorem step (hi : Referenced sc) (hf : Filed sc) (hs : Step sc sc') : Referenced sc' := by
  cases hs with
  | @letGo w F H E h =>
    refine ⟨?_, ?_, ?_, hi.stream_isSome, hi.lt_length⟩
    · intro k
      have := hi.strong_eq k
      simp only [Multiset.count_cons, collect_cons, Frame.trial, Frame.dropped,
        Multiset.count_add, Multiset.count_zero, Multiset.count_singleton] at this ⊢
      omega
    · intro k hk
      obtain ⟨hH, hd, hs⟩ := hi.hidden k hk
      simp only [Multiset.mem_cons, not_or] at hH
      exact ⟨hH.2, by simp [Frame.dropped, hH.1, hd], hs⟩
    · simpa [Frame.trial] using hi.shown
  | @clone w F H E h hh =>
    refine hi.retain (hi.strong_pos_of_held hh) ?_
    by_contra hp
    exact (hi.hidden h hp).1 hh
  | @hit w F H E p X pool slot hp hX hl =>
    -- The slot is that of a wrapper which the pool has published.
    have hslot : w.slot? p X = some slot := by simp [World.slot?, hp, hX]
    have hpub : .published slot.wrapper ∈ E := (hf p X slot hslot).1.1
    have hr : Referenced ⟨w, F, H, .acquired p X slot.wrapper :: E⟩ :=
      hi.congr rfl rfl (by simp [Frame.trial]) (by simp [Frame.dropped]) (by simp)
    exact hr.retain (World.isLive_iff.1 hl) (List.mem_cons_of_mem _ hpub)
  | wrap hp => exact hi.wrap _ _
  | publish hx hp hs => exact hi.publish hx _
  | discard hx hs hr => exact hi.giveUp hx hs rfl (by simp [Frame.trial]) (by simp [Frame.dropped])
  | dropShared hx hs => exact hi.release hx hs
  | dropLast hx hs hr => exact hi.giveUp hx hs rfl (by simp [Frame.trial]) (by simp [Frame.dropped])
  | _ => exact hi.congr rfl rfl (by simp [Frame.trial]) (by simp [Frame.dropped]) (by simp)

end Referenced

end Scene

end ReadPool
