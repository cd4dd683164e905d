import Mathlib
import ReadPool.Proofs.LostRaces
import ReadPool.Proofs.Release

/-!
# A race for one identity

Acquisitions of an identity that has no slot, no death under way, and no reference that is let go.
Whoever publishes first has won for good: the slot stays, its wrapper stays referenced, and all other
raw handles of the race go the way of a lost one. `Race` says for each of them how far it has come.
-/

namespace ReadPool

/-- What a frame acquires, and from which pool. -/
def Frame.sought? : Frame → Option (PoolId × Identity)
  | lookUp p X => some (p, X)
  | opening p X _ => some (p, X)
  | wrap p X _ _ => some (p, X)
  | publish p X _ _ => some (p, X)
  | _ => none

namespace Scene

variable {sc sc' : Scene σ} {p : PoolId} {X Y : Identity} {raw r₀ : RawId} {h : WrapperId}
  {observed : Option Entry} {entry : Entry} {cause : CloseCause} {E : List Event}

/-! ## What becomes of a frame -/

namespace Step

theorem wrap_next (hs : Step sc sc') (hf : .wrap p X observed raw ∈ sc.frames) :
    .wrap p X observed raw ∈ sc'.frames ∨
      ∃ h, .publish p X observed h ∈ sc'.frames ∧ .wrapped p h raw ∈ sc'.history := by
  cases hs with
  | wrap hp =>
    simp only [Multiset.mem_cons, Frame.wrap.injEq] at hf
    rcases hf with ⟨rfl, rfl, rfl, rfl⟩ | hf
    · exact .inr ⟨_, Multiset.mem_cons_self _ _, List.mem_cons_self⟩
    · exact .inl (Multiset.mem_cons_of_mem hf)
  | _ => exact .inl (by simp_all)

/-- A trial comes to a slot and a reference, or to a race that is lost to another slot. -/
theorem publish_next (hs : Step sc sc') (hf : .publish p X observed h ∈ sc.frames) :
    .publish p X observed h ∈ sc'.frames ∨
      (h ∈ sc'.held ∧ (sc.world.slot? p X).map Slot.entry = observed ∧
        ∃ slot, sc'.world.slot? p X = some slot ∧ slot.wrapper = h) ∨
      .discard h ∈ sc'.frames ∧ (sc.world.slot? p X).map Slot.entry ≠ observed := by
  cases hs with
  | publish hx hp hs =>
    simp only [Multiset.mem_cons, Frame.publish.injEq] at hf
    rcases hf with ⟨rfl, rfl, rfl, rfl⟩ | hf
    · exact .inr (.inl ⟨Multiset.mem_cons_self _ _, World.observed_of_publish hp hs, _,
        (World.slot?_publish hp hs).trans (if_pos ⟨rfl, .refl _⟩), rfl⟩)
    · exact .inl hf
  | lose hX =>
    simp only [Multiset.mem_cons, Frame.publish.injEq] at hf
    rcases hf with ⟨rfl, rfl, rfl, rfl⟩ | hf
    · exact .inr (.inr ⟨Multiset.mem_cons_self _ _, hX⟩)
    · exact .inl (by simp [hf])
  | _ => exact .inl (by simp_all)

/-! ## Where a frame comes from -/

/-- An opener is called where the look-up has found nothing live. -/
theorem opening_before (hs : Step sc sc') (hf : .opening p X observed ∈ sc'.frames) :
    .opening p X observed ∈ sc.frames ∨ (sc.world.slot? p X).map Slot.entry = observed ∧
      ∀ slot, sc.world.slot? p X = some slot → sc.world.isLive slot.wrapper = false := by
  cases hs with
  | @vacant w F H E q Y pool hp hX =>
    have hX' : w.slot? q Y = none := by simp [World.slot?, hp, hX]
    simp only [Multiset.mem_cons, Frame.opening.injEq] at hf
    rcases hf with ⟨rfl, rfl, rfl⟩ | hf
    · exact .inr (by simp [hX'])
    · exact .inl (Multiset.mem_cons_of_mem hf)
  | @stale w F H E q Y pool slot hp hX hl =>
    have hX' : w.slot? q Y = some slot := by simp [World.slot?, hp, hX]
    simp only [Multiset.mem_cons, Frame.opening.injEq] at hf
    rcases hf with ⟨rfl, rfl, rfl⟩ | hf
    · exact .inr (by simp [hX', hl])
    · exact .inl (Multiset.mem_cons_of_mem hf)
  | _ => exact .inl (by simp_all)

theorem wrap_before (hs : Step sc sc') (hf : .wrap p X observed raw ∈ sc'.frames) :
    .wrap p X observed raw ∈ sc.frames ∨
      .opening p X observed ∈ sc.frames ∧ raw = sc.world.raws.length := by
  cases hs with
  | opened state =>
    simp only [Multiset.mem_cons, Frame.wrap.injEq] at hf
    rcases hf with ⟨rfl, rfl, rfl, rfl⟩ | hf
    · exact .inr ⟨Multiset.mem_cons_self _ _, rfl⟩
    · exact .inl (Multiset.mem_cons_of_mem hf)
  | _ => exact .inl (by simp_all)

theorem publish_before (hs : Step sc sc') (hf : .publish p X observed h ∈ sc'.frames) :
    .publish p X observed h ∈ sc.frames ∨
      ∃ raw, .wrap p X observed raw ∈ sc.frames ∧ .wrapped p h raw ∈ sc'.history ∧
        h = sc.world.wrappers.length := by
  cases hs with
  | wrap hp =>
    simp only [Multiset.mem_cons, Frame.publish.injEq] at hf
    rcases hf with ⟨rfl, rfl, rfl, rfl⟩ | hf
    · exact .inr ⟨_, Multiset.mem_cons_self _ _, List.mem_cons_self, rfl⟩
    · exact .inl (Multiset.mem_cons_of_mem hf)
  | _ => exact .inl (by simp_all)

/-- A death gets under way when the last reference goes. -/
theorem underway_before (hs : Step sc sc') {note : Note} (hu : sc'.Underway p note) :
    sc.Underway p note ∨ ∃ h x, .drop h ∈ sc.frames ∧ sc.world.wrappers[h]? = some x ∧
      x.home = p ∧ x.identity = note.identity ∧ x.stream = some note.raw := by
  rcases hu with hpost | hpend | hevict
  · cases hs with
    | @dropLast w F H E k x raw hx hs hr =>
      simp only [Multiset.mem_cons, Frame.post.injEq] at hpost
      rcases hpost with ⟨rfl, rfl⟩ | hpost
      · exact .inr ⟨k, x, Multiset.mem_cons_self _ _, hx, rfl, rfl, hr⟩
      · exact .inl (.inl (Multiset.mem_cons_of_mem hpost))
    | _ => exact .inl (.inl (by simp_all))
  · rcases hs.mem_pending hpend with hold | ⟨hpost, -⟩
    · exact .inl (.inr (.inl hold))
    · exact .inl (.inl hpost)
  · cases hs with
    | receive hq =>
      simp only [Multiset.mem_cons, Frame.evict.injEq, reduceCtorEq, false_or] at hevict
      rcases hevict with ⟨rfl, rfl⟩ | hevict
      · exact .inl (.inr (.inl (by simp [hq])))
      · exact .inl (.inr (.inr (by simp [hevict])))
    | _ => exact .inl (.inr (.inr (by simp_all)))

/-- A slot that was not there is that of a wrapper which somebody has just published. -/
theorem slot?_of_none (hs : Step sc sc') (hnone : sc.world.slot? p X = none) {slot : Slot}
    (h : sc'.world.slot? p X = some slot) : slot.wrapper ∈ sc'.held ∧
      ∃ Y observed, .publish p Y observed slot.wrapper ∈ sc.frames ∧ Y.Same X := by
  cases hs with
  | evict =>
    rw [World.slot?_evict] at h
    split at h
    · cases h
    · cases hnone.symm.trans h
  | @publish w F H E q Y observed k x pool slots hx hp hs =>
    rw [World.slot?_publish hp hs] at h
    split at h
    · next hq =>
      cases h
      obtain ⟨rfl, hY⟩ := hq
      exact ⟨Multiset.mem_cons_self _ _, Y, observed, Multiset.mem_cons_self _ _, hY⟩
    · cases hnone.symm.trans h
  | disconnect =>
    rw [World.slot?_disconnect] at h
    split at h
    · cases h
    · cases hnone.symm.trans h
  | _ => exact absurd (by simpa using h) (by simp [hnone])

/-- What is acquired by a step has the slot after it. -/
theorem acquired_slot (hs : Step sc sc') : ∃ events, sc'.history = events ++ sc.history ∧
    ∀ p X h, .acquired p X h ∈ events → (sc'.world.slot? p X).map Slot.wrapper = some h := by
  cases hs with
  | @hit w F H E q Y pool slot hp hX hl =>
    refine ⟨[_], rfl, fun p X h hm => ?_⟩
    cases List.mem_singleton.1 hm
    simp [World.slot?, hp, hX]
  | @publish w F H E q Y observed k x pool slots hx hp hs =>
    refine ⟨[_, _], rfl, fun p X h hm => ?_⟩
    simp only [List.mem_cons, Event.acquired.injEq, reduceCtorEq, List.not_mem_nil, or_false] at hm
    obtain ⟨rfl, rfl, rfl⟩ := hm
    rw [World.slot?_publish hp hs, if_pos ⟨rfl, .refl _⟩, Option.map_some]
  | receiveNone => exact ⟨[_], rfl, by simp⟩
  | vacant => exact ⟨[_], rfl, by simp⟩
  | stale => exact ⟨[_], rfl, by simp⟩
  | opened => exact ⟨[_], rfl, by simp⟩
  | wrap => exact ⟨[_], rfl, by simp⟩
  | close => exact ⟨[_], rfl, by simp⟩
  | closed => exact ⟨[_], rfl, by simp⟩
  | post => exact ⟨[_], rfl, by simp⟩
  | disconnect => exact ⟨[_], rfl, by simp⟩
  | _ => exact ⟨[], rfl, by simp⟩

/-- What is opened by a step is new. -/
theorem opened_before (hs : Step sc sc') (ho : .opened p raw ∈ sc'.history) :
    .opened p raw ∈ sc.history ∨ raw = sc.world.raws.length := by
  cases hs with
  | opened state =>
    rcases List.mem_cons.1 ho with heq | hold
    · cases heq
      exact .inr rfl
    · exact .inl hold
  | _ => exact .inl (by simpa using ho)

/-- A reference is let go by a caller who held it. -/
theorem drop_before (hs : Step sc sc') (hf : .drop h ∈ sc'.frames) :
    .drop h ∈ sc.frames ∨ sc.held = h ::ₘ sc'.held := by
  cases hs with
  | letGo =>
    simp only [Multiset.mem_cons, Frame.drop.injEq] at hf
    rcases hf with rfl | hf
    · exact .inr rfl
    · exact .inl hf
  | _ => exact .inl (by simp_all)

/-- Who holds a reference goes on to hold it, or lets it go. -/
theorem held_next (hs : Step sc sc') (hh : h ∈ sc.held) : h ∈ sc'.held ∨ .drop h ∈ sc'.frames := by
  cases hs with
  | letGo =>
    rcases Multiset.mem_cons.1 hh with rfl | hh
    · exact .inr (Multiset.mem_cons_self _ _)
    · exact .inl hh
  | clone => exact .inl (Multiset.mem_cons_of_mem hh)
  | hit => exact .inl (Multiset.mem_cons_of_mem hh)
  | publish => exact .inl (Multiset.mem_cons_of_mem hh)
  | _ => exact .inl hh

theorem length_raws_le (hs : Step sc sc') : sc.world.raws.length ≤ sc'.world.raws.length := by
  cases hs <;> simp

theorem length_pools_le (hs : Step sc sc') : sc.world.pools.length ≤ sc'.world.pools.length := by
  cases hs <;> simp [World.addPool]

end Step

/-! ## The race -/

/-- Where a raw handle of the race is: with an acquisition that saw no slot, in the slot that there
is, or lost to that. -/
def Placed (sc : Scene σ) (p : PoolId) (X : Identity) (raw : RawId) : Prop :=
  (∃ Y, .wrap p Y none raw ∈ sc.frames ∧ Y.Same X) ∨
  (∃ Y h, .publish p Y none h ∈ sc.frames ∧ Y.Same X ∧ .wrapped p h raw ∈ sc.history) ∨
  ∃ slot, sc.world.slot? p X = some slot ∧
    (.wrapped p slot.wrapper raw ∈ sc.history ∨ sc.Discarded p raw)

/-- Nobody lets go of a reference to what the pool has for the identity. -/
def Kept (sc : Scene σ) (p : PoolId) (X : Identity) : Prop :=
  ∀ h x, .drop h ∈ sc.frames → sc.world.wrappers[h]? = some x → x.home = p → ¬ x.identity.Same X

/-- A race for an identity that began when there were `r₀` raw handles. -/
structure Race (sc : Scene σ) (p : PoolId) (X : Identity) (r₀ : RawId) : Prop where
  since : r₀ ≤ sc.world.raws.length
  kept : sc.Kept p X
  calm : ∀ note, sc.Underway p note → ¬ note.identity.Same X
  opening : ∀ Y observed, .opening p Y observed ∈ sc.frames → Y.Same X → observed = none
  wrap : ∀ Y observed raw, .wrap p Y observed raw ∈ sc.frames → Y.Same X →
    observed = none ∧ r₀ ≤ raw
  publish : ∀ Y observed h, .publish p Y observed h ∈ sc.frames → Y.Same X →
    observed = none ∧ ∃ raw, r₀ ≤ raw ∧ .wrapped p h raw ∈ sc.history
  /-- Whoever has published has won, and the reference is held ever since. -/
  won : ∀ slot, sc.world.slot? p X = some slot →
    slot.wrapper ∈ sc.held ∧ ∃ raw, r₀ ≤ raw ∧ .wrapped p slot.wrapper raw ∈ sc.history
  placed : ∀ raw, r₀ ≤ raw → .opened p raw ∈ sc.history → ∀ Y, sc.OpenedFor raw Y → Y.Same X →
    sc.Placed p X raw

/-- Nobody acquires the identity from the pool. -/
def Unsought (sc : Scene σ) (p : PoolId) (X : Identity) : Prop :=
  ∀ f ∈ sc.frames, ∀ Y, f.sought? = some (p, Y) → ¬ Y.Same X

/-- The pool has nothing of the identity, and nobody is at work on it. -/
structure Untouched (sc : Scene σ) (p : PoolId) (X : Identity) : Prop where
  up : sc.world.isUp p
  vacant : sc.world.slot? p X = none
  calm : ∀ note, sc.Underway p note → ¬ note.identity.Same X
  kept : sc.Kept p X
  unsought : sc.Unsought p X

theorem Untouched.of_idle (hF : sc.frames = 0) (hq : sc.world.pending p = [])
    (hup : sc.world.isUp p) (hX : sc.world.slot? p X = none) : sc.Untouched p X where
  up := hup
  vacant := hX
  calm note hu := by simp [Underway, hF, hq] at hu
  kept h x hf := by simp [hF] at hf
  unsought f hf := by simp [hF] at hf

namespace Race

variable (hi : Race sc p X r₀) (hv : Valid sc) (hs : Step sc sc') (hup : sc'.world.isUp p)
  (hk : sc'.Kept p X)
include hi hs hup

/-- Once there is a slot, it stays. -/
theorem slot?_step {slot : Slot} (h : sc.world.slot? p X = some slot) :
    sc'.world.slot? p X = some slot := by
  rcases hs.slot?_next h with hkept | ⟨note, hf, hX, -⟩ | ⟨Y, k, hf, hY⟩ | ⟨-, hdown⟩
  · exact hkept
  · exact absurd hX (hi.calm note (.inr (.inr hf)))
  · -- Who publishes has seen no slot, for there was none to see.
    cases (hi.publish Y _ k hf hY).1
  · exact absurd hup hdown

include hv

theorem placed_step (hd : sc.Placed p X raw) : sc'.Placed p X raw := by
  rcases hd with ⟨Y, hf, hY⟩ | ⟨Y, h, hf, hY, hw⟩ | ⟨slot, hslot, hraw⟩
  · rcases hs.wrap_next hf with hf' | ⟨h, hf', hw⟩
    · exact .inl ⟨Y, hf', hY⟩
    · exact .inr (.inl ⟨Y, h, hf', hY, hw⟩)
  · rcases hs.publish_next hf with hf' | ⟨-, -, slot, hslot, rfl⟩ | ⟨hf', hne⟩
    · exact .inr (.inl ⟨Y, h, hf', hY, hs.mem_history hw⟩)
    · exact .inr (.inr ⟨slot, World.slot?_congr hY ▸ hslot, .inl (hs.mem_history hw)⟩)
    · -- The race can only be lost to a slot, for none was seen.
      rw [World.slot?_congr hY] at hne
      obtain ⟨slot, hslot⟩ : ∃ slot, sc.world.slot? p X = some slot :=
        Option.ne_none_iff_exists'.1 fun hnone => hne (by rw [hnone]; rfl)
      exact .inr (.inr ⟨slot, hi.slot?_step hs hup hslot,
        .inr (.inr ⟨h, _, hs.mem_history hw, hf', .discard⟩)⟩)
  · exact .inr (.inr ⟨slot, hi.slot?_step hs hup hslot,
      hraw.imp hs.mem_history fun hd => hd.step hv.owned hs⟩)

include hk

theorem won_step : ∀ slot, sc'.world.slot? p X = some slot →
    slot.wrapper ∈ sc'.held ∧ ∃ raw, r₀ ≤ raw ∧ .wrapped p slot.wrapper raw ∈ sc'.history := by
  intro slot hslot
  cases hold : sc.world.slot? p X with
  | none =>
    obtain ⟨hheld, Y, observed, hf, hY⟩ := hs.slot?_of_none hold hslot
    obtain ⟨-, raw, hraw, hw⟩ := hi.publish Y observed slot.wrapper hf hY
    exact ⟨hheld, raw, hraw, hs.mem_history hw⟩
  | some slot' =>
    obtain rfl : slot' = slot :=
      Option.some.inj ((hi.slot?_step hs hup hold).symm.trans hslot)
    obtain ⟨hheld, raw, hraw, hw⟩ := hi.won slot' hold
    obtain ⟨⟨-, x, hx, hp, hX⟩, -⟩ := hv.grounded.slots p X slot' hold
    obtain ⟨x', hx', hlater⟩ := hs.later hx
    refine ⟨(hs.held_next hheld).resolve_right fun hd => ?_, raw, hraw, hs.mem_history hw⟩
    exact hk _ x' hd hx' (hlater.home.trans hp) (hlater.identity ▸ hX)

/-- Whatever is done in a race, without letting go of a reference, leaves it one. -/
theorem step : Race sc' p X r₀ where
  since := hi.since.trans hs.length_raws_le
  kept := hk
  calm note hu hX := by
    rcases hs.underway_before hu with hold | ⟨h, x, hf, hx, hp, hY, -⟩
    · exact hi.calm note hold hX
    · exact hi.kept h x hf hx hp (hY ▸ hX)
  opening Y observed hf hY := by
    rcases hs.opening_before hf with hold | ⟨hobs, hdead⟩
    · exact hi.opening Y observed hold hY
    · rw [World.slot?_congr hY] at hobs hdead
      -- What has a slot is held, so only where there is none does the look-up miss.
      cases hslot : sc.world.slot? p X with
      | none => rw [← hobs, hslot, Option.map_none]
      | some slot =>
        have hlive := hv.referenced.strong_pos_of_held (hi.won slot hslot).1
        rw [← World.isLive_iff, hdead slot hslot] at hlive
        cases hlive
  wrap Y observed raw hf hY := by
    rcases hs.wrap_before hf with hold | ⟨hold, rfl⟩
    · exact hi.wrap Y observed raw hold hY
    · exact ⟨hi.opening Y observed hold hY, hi.since⟩
  publish Y observed h hf hY := by
    rcases hs.publish_before hf with hold | ⟨raw, hold, hw, -⟩
    · obtain ⟨hobs, raw, hraw, hw⟩ := hi.publish Y observed h hold hY
      exact ⟨hobs, raw, hraw, hs.mem_history hw⟩
    · obtain ⟨hobs, hraw⟩ := hi.wrap Y observed raw hold hY
      exact ⟨hobs, raw, hraw, hw⟩
  won := hi.won_step hv hs hup hk
  placed raw hraw ho Y hY hYX := by
    rcases hs.openedFor_before hY with hold | ⟨rfl, q, observed, hopening, hwrap, hhist⟩
    · -- A raw handle that was there before was opened before.
      have ho' : .opened p raw ∈ sc.history := by
        refine (hs.opened_before ho).resolve_right fun hnew => ?_
        obtain ⟨r, hr, -⟩ := hold
        exact absurd (List.getElem?_eq_some_iff.1 hr).1 (hnew ▸ lt_irrefl _)
      exact hi.placed_step hv hs hup (hi.placed raw hraw ho' Y hold hYX)
    · rw [hhist] at ho
      rcases List.mem_cons.1 ho with heq | hold
      · cases heq
        obtain rfl := hi.opening Y observed hopening hYX
        exact .inl ⟨Y, hwrap, hYX⟩
      · exact absurd (hv.owned.lt_of_opened hold) (lt_irrefl _)

omit hi hs hup hk in
/-- A race begins where nothing of the identity is left. -/
theorem start (hX : Untouched sc p X) : Race sc p X sc.world.raws.length where
  since := le_rfl
  kept := hX.kept
  calm := hX.calm
  opening Y observed hf hY := absurd hY (hX.unsought _ hf Y rfl)
  wrap Y observed raw hf hY := absurd hY (hX.unsought _ hf Y rfl)
  publish Y observed h hf hY := absurd hY (hX.unsought _ hf Y rfl)
  won slot hslot := by simp [hX.vacant] at hslot
  placed raw hraw ho := absurd (hv.owned.lt_of_opened ho) (Nat.not_lt.2 hraw)

omit hs hup hk in
/-- When nobody races any more, whatever was opened has won or is closed. -/
theorem settled (hl : Labelled sc) (hq : sc.Unsought p X)
    (hres : ∀ f h x, f ∈ sc.frames → sc.Undoes h f → sc.world.wrappers[h]? = some x →
      .lookUp x.home x.identity ∈ sc.frames)
    {raw : RawId} (hraw : r₀ ≤ raw) (ho : .opened p raw ∈ sc.history) {Y : Identity}
    (hY : sc.OpenedFor raw Y) (hYX : Y.Same X) : ∃ slot, sc.world.slot? p X = some slot ∧
      (.wrapped p slot.wrapper raw ∈ sc.history ∨ .closed raw ∈ sc.history) := by
  rcases hi.placed raw hraw ho Y hY hYX with ⟨Z, hf, hZ⟩ | ⟨Z, h, hf, hZ, -⟩ | ⟨slot, hslot, hat⟩
  · exact absurd hZ (hq _ hf Z rfl)
  · exact absurd hZ (hq _ hf Z rfl)
  · refine ⟨slot, hslot, hat.imp_right fun hd => hd.resolve_right ?_⟩
    -- An acquisition would stand below whoever undoes the wrapper.
    rintro ⟨h, f, hw, hf, hu⟩
    obtain ⟨x, hx, rfl⟩ := hv.owned.home_of_wrapped p h raw hw
    obtain rfl := hY.inj (hl.wrapped _ h raw x hw hx)
    exact hq _ (hres f h x hf hu hx) _ rfl hYX

end Race

end Scene

end ReadPool
