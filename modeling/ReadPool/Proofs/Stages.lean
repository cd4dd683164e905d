import Mathlib
import ReadPool.Proofs.Correspondence
import ReadPool.Proofs.Racing
import ReadPool.Proofs.Tales

/-!
# How far a wrapper has come

`Scene.stage` reads off a scene how far a wrapper is, from the attempt to publish it to the end of
the close. `Logs` has the steps that tell something, with what they tell; any other step is `Silent`
and leaves each wrapper at its stage. So what a log tells of an entry is a tale that leads to the
stage of its wrapper (`Chronicle`).
-/

namespace ReadPool

namespace Scene

variable {sc sc' : Scene σ} {h k : WrapperId} {n m : Note} {p : PoolId} {log : List LogEvent}

/-! ## What a wrapper's death will say -/

/-- The wrapper has come from the pool, and its death will be this one. -/
def Bears (sc : Scene σ) (h : WrapperId) (n : Note) : Prop :=
  ∃ x, sc.world.wrappers[h]? = some x ∧ x.identity = n.identity ∧ x.entry = n.entry ∧
    .wrapped 0 h n.raw ∈ sc.history

theorem Bears.inj (ho : Owned sc) (hb : sc.Bears h n) (hb' : sc.Bears h m) : n = m := by
  obtain ⟨x, hx, hX, he, hw⟩ := hb
  obtain ⟨y, hy, hY, he', hw'⟩ := hb'
  obtain rfl : x = y := Option.some.inj (hx.symm.trans hy)
  obtain ⟨X, e, r⟩ := n
  obtain ⟨Y, e', r'⟩ := m
  simp only at hX he hw hY he' hw'
  rw [← hX, ← hY, ← he, ← he', ho.wrapped_raw_inj hw hw']

/-- Where the deaths differ, so do the wrappers. -/
theorem Bears.ne (ho : Owned sc) (hb : sc.Bears h n) (hb' : sc.Bears k m) (hne : n ≠ m) :
    h ≠ k := by
  rintro rfl
  exact hne (hb.inj ho hb')

theorem Bears.raw_ne (ho : Owned sc) (hb : sc.Bears h n) (hb' : sc.Bears k m) (hne : n ≠ m) :
    n.raw ≠ m.raw := by
  intro hr
  obtain ⟨-, -, -, -, hw⟩ := id hb
  obtain ⟨-, -, -, -, hw'⟩ := id hb'
  rw [← hr] at hw'
  obtain ⟨-, rfl⟩ := ho.wrapped_inj hw hw'
  exact hne (hb.inj ho hb')

/-- While the numbers last, an entry stands for one wrapper. -/
theorem Bears.eq_of_entry_eq (hv : Valid sc) (hp : opensOf 0 sc.history < 2 ^ 64)
    (hb : sc.Bears h n) (hb' : sc.Bears k m) (he : n.entry = m.entry) : h = k ∧ n = m := by
  obtain ⟨x, hx, -, hxe, hw⟩ := id hb
  obtain ⟨y, hy, -, hye, hw'⟩ := id hb'
  obtain ⟨x', hx', hxp⟩ := hv.owned.home_of_wrapped 0 h n.raw hw
  obtain ⟨y', hy', hyp⟩ := hv.owned.home_of_wrapped 0 k m.raw hw'
  obtain rfl : x' = x := Option.some.inj (hx'.symm.trans hx)
  obtain rfl : y' = y := Option.some.inj (hy'.symm.trans hy)
  obtain rfl : h = k :=
    hv.numbered.entry_inj hv.owned hp hx hy hxp hyp (hxe.trans (he.trans hye.symm))
  exact ⟨rfl, hb.inj hv.owned hb'⟩

theorem Bears.step (hb : sc.Bears h n) (hs : Step sc sc') : sc'.Bears h n := by
  obtain ⟨x, hx, hX, he, hw⟩ := hb
  obtain ⟨x', hx', hl⟩ := hs.later hx
  exact ⟨x', hx', hl.identity.trans hX, hl.entry.trans he, hs.mem_history hw⟩

theorem Left.bears (hl : sc.Left 0 h n) : sc.Bears h n := by
  obtain ⟨⟨x, hx, -, hX, he, -⟩, hw⟩ := hl
  exact ⟨x, hx, hX, he, hw⟩

/-- The raw handle that a wrapper was made with is the one that its death will carry. -/
theorem Bears.raw_eq (hb : sc.Bears h n) (ho : Owned sc) {raw : RawId}
    (hw : .wrapped p h raw ∈ sc.history) : raw = n.raw := by
  obtain ⟨-, -, -, -, hw'⟩ := hb
  exact ho.wrapped_raw_inj hw hw'

/-- In a world with one pool, each wrapper has a death to come. -/
theorem Valid.exists_bears (hv : Valid sc) (hp : sc.world.pools.length = 1) {x : Wrapper}
    (hx : sc.world.wrappers[h]? = some x) : ∃ raw, sc.Bears h ⟨x.identity, x.entry, raw⟩ := by
  obtain ⟨raw, hw⟩ := hv.owned.wrapped_home hx
  rw [hv.home_eq_zero hp hx] at hw
  exact ⟨raw, x, hx, rfl, rfl, hw⟩

/-! ## The stage of a wrapper -/

/-- The wrapper is referenced, or its death will still be looked up. -/
def Lasts (sc : Scene σ) (h : WrapperId) (n : Note) : Prop :=
  0 < sc.world.strong h ∨ sc.Underway 0 n

/-- The slot of the identity carries the entry. -/
def Slotted (sc : Scene σ) (n : Note) : Prop :=
  (sc.world.slot? 0 n.identity).map Slot.entry = some n.entry

end Scene

/-- The death with this raw handle was left in a queue that has ended. -/
def isLeft (raw : RawId) (events : List Event) : Bool :=
  events.any fun
    | .ended _ left => left.contains raw
    | _ => false

/-- The wrapper that an acquisition is about to publish. -/
def Frame.attempt : Frame → Multiset WrapperId
  | publish _ _ _ h => {h}
  | _ => 0

theorem Frame.attempt_le (f : Frame) : f.attempt ≤ f.trial := by
  cases f <;> simp [attempt, trial]

instance (w : World σ) (p : PoolId) : Decidable (w.isUp p) := inferInstanceAs (Decidable (_ = true))

namespace Scene

variable {sc sc' : Scene σ} {h k : WrapperId} {n m : Note} {p : PoolId} {log : List LogEvent}

instance (sc : Scene σ) (p : PoolId) (note : Note) : Decidable (sc.Underway p note) :=
  inferInstanceAs (Decidable (_ ∨ _ ∨ _))

instance (sc : Scene σ) (h : WrapperId) (n : Note) : Decidable (sc.Lasts h n) :=
  inferInstanceAs (Decidable (_ ∨ _))

instance (sc : Scene σ) (n : Note) : Decidable (sc.Slotted n) := inferInstanceAs (Decidable (_ = _))

/-- How far a wrapper has come, going by the scene. -/
def stage (sc : Scene σ) (h : WrapperId) (n : Note) : Stage :=
  if h ∈ collect Frame.attempt sc.frames then .fresh
  else if .published h ∉ sc.history then .lost
  else if sc.Lasts h n then if sc.world.isUp 0 ∧ ¬ sc.Slotted n then .replaced else .standing
  else if .closed n.raw ∈ sc.history then .gone (isLeft n.raw sc.history)
  else .leaving (isLeft n.raw sc.history)

theorem stage_of_attempt (ha : h ∈ collect Frame.attempt sc.frames) : sc.stage h n = .fresh :=
  if_pos ha

theorem stage_of_hidden (ha : h ∉ collect Frame.attempt sc.frames)
    (hp : .published h ∉ sc.history) : sc.stage h n = .lost := by
  rw [stage, if_neg ha, if_pos hp]

theorem Referenced.not_attempt (hr : Referenced sc) (hp : .published h ∈ sc.history) :
    h ∉ collect Frame.attempt sc.frames := fun ha =>
  hr.shown h hp (Multiset.mem_of_le (collect_mono Frame.attempt_le _) ha)

theorem Dead.not_attempt {X : Identity} {entry : Entry} (hd : sc.Dead p h X entry)
    (hr : Referenced sc) : h ∉ collect Frame.attempt sc.frames := by
  intro ha
  have hpos := Multiset.count_pos.2 (Multiset.mem_of_le (collect_mono Frame.attempt_le _) ha)
  have := hr.strong_eq h
  rw [hd.strong_eq_zero] at this
  omega

theorem stage_of_lasts (hr : Referenced sc) (hp : .published h ∈ sc.history)
    (hl : sc.Lasts h n) :
    sc.stage h n = if sc.world.isUp 0 ∧ ¬ sc.Slotted n then .replaced else .standing := by
  rw [stage, if_neg (hr.not_attempt hp), if_neg (not_not.2 hp), if_pos hl]

theorem stage_of_not_lasts (hr : Referenced sc) (hp : .published h ∈ sc.history)
    (hl : ¬ sc.Lasts h n) :
    sc.stage h n = if .closed n.raw ∈ sc.history then .gone (isLeft n.raw sc.history)
      else .leaving (isLeft n.raw sc.history) := by
  rw [stage, if_neg (hr.not_attempt hp), if_neg (not_not.2 hp), if_neg hl]

/-- What the stage of a wrapper depends on. -/
theorem stage_congr
    (ha : h ∈ collect Frame.attempt sc'.frames ↔ h ∈ collect Frame.attempt sc.frames)
    (hp : .published h ∈ sc'.history ↔ .published h ∈ sc.history)
    (hl : .published h ∈ sc.history → (sc'.Lasts h n ↔ sc.Lasts h n))
    (hs : .published h ∈ sc.history → sc.Lasts h n →
      (sc'.world.isUp 0 ∧ ¬ sc'.Slotted n ↔ sc.world.isUp 0 ∧ ¬ sc.Slotted n))
    (hc : .published h ∈ sc.history → (.closed n.raw ∈ sc'.history ↔ .closed n.raw ∈ sc.history))
    (he : .published h ∈ sc.history → isLeft n.raw sc'.history = isLeft n.raw sc.history) :
    sc'.stage h n = sc.stage h n := by
  simp only [stage, ha, hp]
  by_cases hpub : .published h ∈ sc.history
  · simp only [hl hpub, hc hpub, he hpub]
    by_cases hlast : sc.Lasts h n
    · simp only [hs hpub hlast]
    · simp [hlast]
  · simp [hpub]

/-! ## What rules a stage out -/

/-- A raw handle that some other frame has is not that of a death under way. -/
theorem Owned.not_underway (ho : Owned sc) {f : Frame} (hf : f ∈ sc.frames) (hr : n.raw ∈ f.raws)
    (hpost : ∀ p note, f ≠ .post p note) (hevict : ∀ p note, f ≠ .evict p note) :
    ¬ sc.Underway p n := by
  have hn := ho.nodup_raws
  rw [raws, add_assoc, add_assoc, Multiset.nodup_add] at hn
  obtain ⟨hframes, -, hdisj⟩ := hn
  rintro (hp | hq | he)
  · have := eq_of_mem_collect hframes hf hp hr (by simp [Frame.raws])
    exact hpost _ _ this
  · refine Multiset.disjoint_left.1 hdisj (mem_collect.2 ⟨f, hf, hr⟩) ?_
    have : n.raw ∈ sc.world.queued := World.mem_queued.2 ⟨p, n, hq, rfl⟩
    simp [this]
  · have := eq_of_mem_collect hframes hf he hr (by simp [Frame.raws])
    exact hevict _ _ this

/-- A raw handle that is closed is that of no death under way. -/
theorem Owned.not_underway_of_closed (ho : Owned sc) (hc : .closed n.raw ∈ sc.history) :
    ¬ sc.Underway p n := by
  have hclosed : n.raw ∈ collect Event.closes sc.history :=
    mem_collect.2 ⟨_, hc, by simp [Event.closes]⟩
  rintro (hp | hq | he)
  · exact ho.not_closed_of_mem_frames (mem_collect.2 ⟨_, hp, by simp [Frame.raws]⟩) hclosed
  · refine Multiset.disjoint_left.1 (Multiset.nodup_add.1 ho.nodup_raws).2.2 ?_ hclosed
    have : n.raw ∈ sc.world.queued := World.mem_queued.2 ⟨p, n, hq, rfl⟩
    simp [this]
  · exact ho.not_closed_of_mem_frames (mem_collect.2 ⟨_, he, by simp [Frame.raws]⟩) hclosed

/-- What is closed has left its wrapper. -/
theorem Valid.not_lasts_of_closed (hv : Valid sc) (hb : sc.Bears h n)
    (hc : .closed n.raw ∈ sc.history) : ¬ sc.Lasts h n := by
  rintro (hpos | hu)
  · obtain ⟨x, raw, hx, -, hr⟩ := hv.referenced.exists_stream hpos
    obtain rfl := hb.raw_eq hv.owned (hv.owned.wrapped_of_stream h x raw hx hr)
    exact hv.owned.not_closed_of_mem_streams (World.mem_streams.2 ⟨h, x, hx, hr⟩)
      (mem_collect.2 ⟨_, hc, by simp [Event.closes]⟩)
  · exact hv.owned.not_underway_of_closed hc hu

/-- A published wrapper whose raw handle is closed has come to its end. -/
theorem Valid.stage_of_closed (hv : Valid sc) (hb : sc.Bears h n)
    (hpub : .published h ∈ sc.history) (hc : .closed n.raw ∈ sc.history) :
    sc.stage h n = .gone (isLeft n.raw sc.history) := by
  rw [stage_of_not_lasts hv.referenced hpub (hv.not_lasts_of_closed hb hc), if_pos hc]

/-- The death of a wrapper has been looked up, or has found no pool, and its close is not over. -/
theorem Valid.stage_leaving (hv : Valid sc) (hd : sc.Died 0 h n) {f : Frame} (hf : f ∈ sc.frames)
    (hr : n.raw ∈ f.raws) (hpost : ∀ p note, f ≠ .post p note)
    (hevict : ∀ p note, f ≠ .evict p note) :
    sc.stage h n = .leaving (isLeft n.raw sc.history) := by
  have hl : ¬ sc.Lasts h n := by
    rintro (hpos | hu)
    · exact Nat.ne_of_gt hpos hd.1.1.strong_eq_zero
    · exact hv.owned.not_underway hf hr hpost hevict hu
  have hc : .closed n.raw ∉ sc.history := fun hc =>
    hv.owned.not_closed_of_mem_frames (mem_collect.2 ⟨f, hf, hr⟩) (mem_closes.2 hc)
  rw [stage_of_not_lasts hv.referenced hd.2 hl, if_neg hc]

/-! ## What a queue has left -/

end Scene

/-- What the frame is there to release. -/
def Frame.released : Frame → Multiset RawId
  | flush notes => (notes.map Note.raw : List RawId)
  | close raw _ _ _ => {raw}
  | closing raw _ _ _ => {raw}
  | _ => 0

namespace Scene

variable {sc sc' : Scene σ} {h k : WrapperId} {n m : Note} {p : PoolId} {log : List LogEvent}
  {raw : RawId}

/-- The raw handle is closed, or a frame is there to release it. -/
def Released (sc : Scene σ) (raw : RawId) : Prop :=
  .closed raw ∈ sc.history ∨ raw ∈ collect Frame.released sc.frames

/-- What a queue has left is not on its way any more. -/
def Dismissed (sc : Scene σ) : Prop := ∀ raw, isLeft raw sc.history → sc.Released raw

theorem Released.step (hr : sc.Released raw) (hs : Step sc sc') : sc'.Released raw := by
  rcases hr with hc | hraw
  · exact .inl (hs.mem_history hc)
  · cases hs with
    | @closed w F H E raw' X entry cause =>
      have hsplit : raw = raw' ∨ raw ∈ collect Frame.released F := by
        simpa [Frame.released] using hraw
      rcases hsplit with rfl | hraw
      · exact .inl List.mem_cons_self
      · exact .inr hraw
    | evict | discard | postInline | disconnect => exact .inr (by simp_all [Frame.released])
    | _ => exact .inr (by simpa [Frame.released, or_assoc] using hraw)

/-- A queue that ends hands over what it has left. -/
theorem Dismissed.step (hd : Dismissed sc) (hs : Step sc sc') : Dismissed sc' := by
  intro raw hl
  have keep (hl : isLeft raw sc.history) : sc'.Released raw := (hd raw hl).step hs
  cases hs with
  | @disconnect w F H E p =>
    simp only [isLeft, List.any_cons, Bool.or_eq_true, List.contains_iff_mem] at hl
    rcases hl with hnew | hold
    · exact .inr (by simpa [Frame.released] using Or.inl hnew)
    · exact keep hold
  | _ => exact keep (by simpa [isLeft] using hl)

theorem Dismissed.not_left (hd : Dismissed sc) (ho : Owned sc) (hu : sc.Underway p n) :
    isLeft n.raw sc.history = false := by
  by_contra hl
  rcases hd n.raw (by simpa using hl) with hc | hraw
  · exact ho.not_underway_of_closed hc hu
  · obtain ⟨f, hf, hraw⟩ := mem_collect.1 hraw
    cases f with
    | flush | close | closing => exact ho.not_underway hf hraw (by simp) (by simp) hu
    | _ => simp [Frame.released] at hraw

/-! ## Steps that tell nothing -/

/-- A step that leaves each wrapper at its stage. -/
structure Silent (sc sc' : Scene σ) : Prop where
  step : Step sc sc'
  attempt_iff : ∀ h < sc.world.wrappers.length,
    (h ∈ collect Frame.attempt sc'.frames ↔ h ∈ collect Frame.attempt sc.frames)
  published : ∀ h, .published h ∈ sc'.history → .published h ∈ sc.history
  underway : ∀ note, sc.Underway 0 note → sc'.Underway 0 note
  slot?_eq : sc'.world.isUp 0 → ∀ X, sc'.world.slot? 0 X = sc.world.slot? 0 X
  isUp : sc.world.isUp 0 → sc'.world.isUp 0
  closed : ∀ raw, .closed raw ∈ sc'.history → .closed raw ∈ sc.history
  isLeft_eq : ∀ raw, isLeft raw sc'.history = isLeft raw sc.history
  /-- A wrapper that is made is one that an acquisition is about to publish. -/
  made : sc'.world.wrappers.length + (collect Frame.attempt sc.frames).card
    = sc.world.wrappers.length + (collect Frame.attempt sc'.frames).card

namespace Silent

/-- What has to do neither with frames nor with pools tells nothing. -/
theorem of_still (hs : Step sc sc') (hF : sc'.frames = sc.frames)
    (hp : sc'.world.pools = sc.world.pools) (hE : sc'.history = sc.history)
    (hl : sc'.world.wrappers.length = sc.world.wrappers.length) : Silent sc sc' where
  step := hs
  attempt_iff _ _ := by rw [hF]
  published _ h := hE ▸ h
  underway note hu := by simpa [Underway, World.pending, hF, hp] using hu
  slot?_eq _ X := by rw [World.slot?, hp, World.slot?]
  isUp h := by rwa [World.isUp, hp]
  closed _ h := hE ▸ h
  isLeft_eq _ := by rw [hE]
  made := by rw [hF, hl]

/-- A step is silent where nobody tries to publish, looks a death up, finds no pool, or ends a
close. -/
theorem of_base (hs : Step sc sc') (ha : collect Frame.attempt sc.frames = 0)
    (hevict : ∀ p note, .evict p note ∉ sc.frames)
    (hpost : ∀ p note, .post p note ∈ sc.frames → sc.world.isUp p)
    (hup : sc.world.isUp 0 → sc'.world.isUp 0)
    (hclosed : ∀ raw, .closed raw ∈ sc'.history → .closed raw ∈ sc.history)
    (hleft : ∀ raw, isLeft raw sc'.history = isLeft raw sc.history) : Silent sc sc' := by
  have hpublish {p X observed h} : .publish p X observed h ∉ sc.frames := by
    intro hf
    have hm : h ∈ collect Frame.attempt sc.frames := mem_collect.2 ⟨_, hf, by simp [Frame.attempt]⟩
    simp [ha] at hm
  refine
    { step := hs, isUp := hup, closed := hclosed, isLeft_eq := hleft, attempt_iff := ?attempt,
      published := ?published, underway := ?underway, slot?_eq := ?slots, made := ?made }
  case attempt =>
    intro h hlt
    refine iff_of_false (fun hm => ?_) (by simp [ha])
    obtain ⟨f, hf, hm⟩ := mem_collect.1 hm
    cases f with
    | publish q X observed k =>
      obtain rfl : h = k := by simpa [Frame.attempt] using hm
      -- Who begins to publish now has just made the wrapper.
      rcases hs.publish_before hf with hold | ⟨raw, -, -, rfl⟩
      · exact hpublish hold
      · exact Nat.lt_irrefl _ hlt
    | _ => simp [Frame.attempt] at hm
  case published =>
    intro h hnew
    by_contra hold
    obtain ⟨q, X, observed, x, hf, -⟩ := hs.slot?_of_published hnew hold
    exact hpublish hf
  case underway =>
    intro note hu
    have hup₀ : sc.world.isUp 0 := by
      rcases hu with hf | hpend | hf
      · exact hpost 0 note hf
      · exact World.isUp_of_mem_pending hpend
      · exact absurd hf (hevict 0 note)
    rcases hs.underway hu with hu' | hdown | ⟨hf, -⟩
    · exact hu'
    · exact absurd (hup hup₀) hdown
    · exact absurd hf (hevict 0 note)
  case slots =>
    intro hup X
    cases h : sc.world.slot? 0 X with
    | none =>
      by_contra hne
      obtain ⟨slot, hslot⟩ := Option.ne_none_iff_exists'.1 hne
      obtain ⟨-, Y, observed, hf, -⟩ := hs.slot?_of_none h hslot
      exact hpublish hf
    | some slot =>
      rcases hs.slot?_next h with hkept | ⟨note, hf, -⟩ | ⟨Y, k, hf, -⟩ | ⟨-, hdown⟩
      · exact hkept
      · exact absurd hf (hevict 0 note)
      · exact absurd hf hpublish
      · exact absurd hup hdown
  case made =>
    cases hs with
    | publish => exact absurd (Multiset.mem_cons_self _ _) hpublish
    | lose => exact absurd (Multiset.mem_cons_self _ _) hpublish
    | wrap =>
      simp only [World.length_wrappers_addWrapper, World.wrappers_updatePool, collect_cons,
        Frame.attempt, Multiset.card_add, Multiset.card_zero, Multiset.card_singleton]
      omega
    | _ => simp [Frame.attempt]

variable (hs : Silent sc sc')
include hs

theorem published_iff : .published h ∈ sc'.history ↔ .published h ∈ sc.history :=
  ⟨hs.published h, hs.step.mem_history⟩

theorem closed_iff {raw : RawId} : .closed raw ∈ sc'.history ↔ .closed raw ∈ sc.history :=
  ⟨hs.closed raw, hs.step.mem_history⟩

variable (hv : Valid sc) (hb : sc.Bears h n)
include hv hb

/-- Nobody can tell when a wrapper dies, for its death is then under way. -/
theorem lasts_iff (hv' : Valid sc') (hpub : .published h ∈ sc.history) :
    sc'.Lasts h n ↔ sc.Lasts h n := by
  obtain ⟨x, hx, hX, he, hw⟩ := id hb
  have hlt : h < sc.world.wrappers.length := (List.getElem?_eq_some_iff.1 hx).1
  constructor
  · rintro (hpos | hu)
    · refine .inl (Nat.pos_of_ne_zero fun h0 => Nat.ne_of_gt hpos ?_)
      exact hs.step.strong_eq_zero hv.referenced hlt h0
    · rcases hs.step.underway_before hu with hold | ⟨k, y, hf, hy, -, -, hr⟩
      · exact .inr hold
      · -- The last reference that goes is one to this wrapper.
        obtain ⟨-, rfl⟩ := hv.owned.wrapped_inj (hv.owned.wrapped_of_stream k y n.raw hy hr) hw
        refine .inl ?_
        have hd : k ∈ collect Frame.dropped sc.frames :=
          mem_collect.2 ⟨_, hf, by simp [Frame.dropped]⟩
        have := Multiset.count_pos.2 hd
        rw [hv.referenced.strong_eq]
        omega
  · rintro (hpos | hu)
    · by_cases h0 : sc'.world.strong h = 0
      · rw [World.strong_eq hx] at hpos
        obtain ⟨raw, hu, hw'⟩ := hs.step.underway_of_strong_eq_zero hv.referenced hv.owned hx hpos
          hpub h0
        obtain ⟨y, hy, hyp⟩ := hv.owned.home_of_wrapped 0 h n.raw hw
        obtain rfl : y = x := Option.some.inj (hy.symm.trans hx)
        obtain rfl := (hb.step hs.step).raw_eq hv'.owned hw'
        rw [hyp, hX, he] at hu
        exact .inr hu
      · exact .inl (Nat.pos_of_ne_zero h0)
    · exact .inr (hs.underway n hu)

/-- What was not replaced is not replaced now. -/
theorem replaced_iff :
    sc'.world.isUp 0 ∧ ¬ sc'.Slotted n ↔ sc.world.isUp 0 ∧ ¬ sc.Slotted n := by
  obtain ⟨x, hx, -, -, hw⟩ := id hb
  obtain ⟨y, hy, hyp⟩ := hv.owned.home_of_wrapped 0 h n.raw hw
  obtain rfl : y = x := Option.some.inj (hy.symm.trans hx)
  have hlt : 0 < sc.world.pools.length :=
    hv.numbered.homes_lt 0 (hyp ▸ List.mem_map_of_mem (List.mem_of_getElem? hx))
  have hup : sc'.world.isUp 0 ↔ sc.world.isUp 0 :=
    ⟨fun hup => hs.step.isUp_of_isUp hup hlt, hs.isUp⟩
  rw [hup]
  refine and_congr_right fun hup₀ => ?_
  rw [Slotted, hs.slot?_eq (hs.isUp hup₀), Slotted]

theorem stage_eq (hv' : Valid sc') : sc'.stage h n = sc.stage h n := by
  obtain ⟨x, hx, -⟩ := id hb
  exact stage_congr (hs.attempt_iff h (List.getElem?_eq_some_iff.1 hx).1) hs.published_iff
    (hs.lasts_iff hv hb hv') (fun _ _ => hs.replaced_iff hv hb) (fun _ => hs.closed_iff)
    fun _ => hs.isLeft_eq n.raw

end Silent

/-! ## Steps that tell -/

/-- A step with what it adds to the log. What an acquisition tries to publish was made last, nobody
else tries meanwhile, and a death that is looked up finds its pool. When a queue ends, the deaths in
it were not replaced, and no other is on its way. -/
inductive Logs : Scene σ → Scene σ → List LogEvent → Prop where
  | silent {sc sc' : Scene σ} {log : List LogEvent} (hs : Silent sc sc')
      (hl : ∀ e, told e log = []) : Logs sc sc' log
  | publish {X : Identity} {observed : Option Entry} {h : WrapperId} {x : Wrapper} {pool : Pool}
      {slots : Slots} (hF : collect Frame.attempt F = 0) (hlast : h + 1 = w.wrappers.length)
      (hx : w.wrappers[h]? = some x) (hp : w.pools[0]? = some pool)
      (hs : pool.slots.publish X observed ⟨x.entry, h⟩ = some slots) :
      Logs ⟨w, .publish 0 X observed h ::ₘ F, H, E⟩
        ⟨w.updatePool 0 fun pool => { pool with slots }, F, h ::ₘ H,
          .acquired 0 X h :: .published h :: E⟩ [.published X x.entry observed]
  | lose {X : Identity} {observed : Option Entry} {h : WrapperId} {x : Wrapper}
      (hF : collect Frame.attempt F = 0) (hlast : h + 1 = w.wrappers.length)
      (hx : w.wrappers[h]? = some x) (hX : (w.slot? 0 X).map Slot.entry ≠ observed) :
      Logs ⟨w, .publish 0 X observed h ::ₘ F, H, E⟩ ⟨w, .discard h ::ₘ .lookUp 0 X ::ₘ F, H, E⟩
        [.lostRace X x.entry]
  | evict {note : Note} {removed : Bool} (hup : w.isUp 0)
      (hr : removed ↔ (w.slot? 0 note.identity).map Slot.entry = some note.entry) :
      Logs ⟨w, .evict 0 note ::ₘ F, H, E⟩
        ⟨w.updatePool 0 fun pool =>
            { pool with slots := pool.slots.evict note.identity note.entry },
          .close note.raw note.identity note.entry .death ::ₘ F, H, E⟩
        [.drained note.identity note.entry removed]
  | postInline {note : Note} (hq : w.pools[0]?.bind Pool.queue = none) :
      Logs ⟨w, .post 0 note ::ₘ F, H, E⟩
        ⟨w, .close note.raw note.identity note.entry .death ::ₘ F, H, E⟩
        [.releasedInline note.identity note.entry]
  | closed {raw : RawId} {X : Identity} {entry : Entry} {cause : CloseCause}
      (error : Option IoError) :
      Logs ⟨w, .closing raw X entry cause ::ₘ F, H, E⟩
        ⟨w.updateRaw raw fun r => { r with phase := .closed }, F, H, .closed raw :: E⟩
        (World.closeReport X entry cause error)
  | disconnect (hF : ∀ note, .post 0 note ∉ F ∧ .evict 0 note ∉ F)
      (hq : opensOf 0 E < 2 ^ 64 →
        ∀ note ∈ w.pending 0, Slotted ⟨w, .disconnect 0 ::ₘ F, H, E⟩ note) :
      Logs ⟨w, .disconnect 0 ::ₘ F, H, E⟩
        ⟨w.updatePool 0 fun pool => { pool with slots := .empty, queue := none },
          .flush (w.pending 0) ::ₘ F, H, .ended 0 ((w.pending 0).map Note.raw) :: E⟩ []

theorem Logs.step (hl : Logs sc sc' log) : Step sc sc' := by
  cases hl with
  | silent hs => exact hs.step
  | publish hF hlast hx hp hs => exact .publish hx hp hs
  | lose hF hlast hx hX => exact .lose hX
  | evict => exact .evict
  | postInline hq => exact .postInline hq
  | closed => exact .closed
  | disconnect => exact .disconnect

section

variable {w : World σ} {F : Multiset Frame} {H : Multiset WrapperId} {E : List Event}
  {X : Identity} {observed : Option Entry} {x : Wrapper} {note : Note} {raw : RawId}
  {entry : Entry} {cause : CloseCause}

/-! ### What the end of a close tells -/

theorem told_closeReport_of_ne {e : Entry} (he : entry ≠ e) (X : Identity) (cause : CloseCause)
    (error : Option IoError) : told e (World.closeReport X entry cause error) = [] := by
  cases cause <;> cases error <;> simp [World.closeReport, LogEvent.entry?, he]

/-- The close of what has lost its race is told of only if it fails. -/
theorem adds_closeReport_lostRace (X : Identity) (entry : Entry) (error : Option IoError) :
    Adds entry .lost (told entry (World.closeReport X entry .lostRace error)) .lost := by
  cases error with
  | none => exact .nothing
  | some e =>
    refine .of_event ?_ (.loserCloseFailed X e)
    simp [World.closeReport, LogEvent.entry?]

/-- The close of what was published is told of either way. -/
theorem adds_closeReport_death (X : Identity) (entry : Entry) (error : Option IoError)
    (left : Bool) : Adds entry (.leaving left)
      (told entry (World.closeReport X entry .death error)) (.gone left) := by
  cases error with
  | none =>
    refine .of_event ?_ (.release X)
    simp [World.closeReport, LogEvent.entry?]
  | some e =>
    refine .of_event ?_ (.closeFailed X e)
    simp [World.closeReport, LogEvent.entry?]

/-! ### From stage to stage -/

/-- A death that is looked up finds its slot, or that it was replaced. -/
theorem Valid.adds_evict (hv : Valid ⟨w, .evict 0 note ::ₘ F, H, E⟩)
    (hleft : Dismissed ⟨w, .evict 0 note ::ₘ F, H, E⟩) (hup : w.isUp 0)
    {removed : Bool} (hr : removed ↔ (w.slot? 0 note.identity).map Slot.entry = some note.entry)
    (hp : opensOf 0 E < 2 ^ 64) (hb : Bears ⟨w, .evict 0 note ::ₘ F, H, E⟩ h n) :
    Adds n.entry (stage ⟨w, .evict 0 note ::ₘ F, H, E⟩ h n)
      (told n.entry [.drained note.identity note.entry removed])
      (stage ⟨w.updatePool 0 fun pool =>
            { pool with slots := pool.slots.evict note.identity note.entry },
          .close note.raw note.identity note.entry .death ::ₘ F, H, E⟩ h n) := by
  obtain ⟨k, hd⟩ := hv.mourned.frames (.evict 0 note) (Multiset.mem_cons_self _ _)
  by_cases he : n.entry = note.entry
  · obtain ⟨rfl, rfl⟩ := hb.eq_of_entry_eq hv hp hd.1.bears he
    have hu : Underway ⟨w, .evict 0 n ::ₘ F, H, E⟩ 0 n := .inr (.inr (Multiset.mem_cons_self _ _))
    have hnot : isLeft n.raw E = false := hleft.not_left hv.owned hu
    refine Adds.of_event (by simp [LogEvent.entry?]; rfl) ?_
    rw [stage_of_lasts hv.referenced hd.2 (.inr hu),
      (hv.step .evict).stage_leaving (hd.step hv.referenced .evict)
        (f := .close n.raw n.identity n.entry .death) (Multiset.mem_cons_self _ _)
        (by simp [Frame.raws]) (by simp) (by simp)]
    simp only [hup, true_and, Slotted, ← hr, hnot]
    cases removed with
    | true => exact .drain n.identity
    | false => exact .drainReplaced n.identity
  · have hne : n ≠ note := fun hn => he (congrArg Note.entry hn)
    refine Adds.of_nil ?_ (stage_congr (by simp [Frame.attempt]) Iff.rfl
      (fun _ => by simp [Lasts, Underway, hne]) (fun _ _ => ?_) (fun _ => Iff.rfl) fun _ => rfl)
    · simp [LogEvent.entry?, Ne.symm he]
    · have hup' : (w.updatePool 0 fun pool =>
          { pool with slots := pool.slots.evict note.identity note.entry }).isUp 0 :=
        World.isUp_updatePool hup fun _ h => h
      simp only [hup, hup', true_and, Slotted, World.slot?_evict]
      split
      · next hgone =>
        -- The slot that goes did not carry this entry.
        obtain ⟨hX, hcur⟩ := hgone
        obtain ⟨slot, hslot, hent⟩ := (Option.any_eq_true _ _).1 hcur
        rw [← World.slot?_congr hX, hslot]
        have hne' : slot.entry ≠ n.entry := fun heq => he (heq.symm.trans (by simpa using hent))
        simpa using hne'
      · rfl

/-- A death that finds no pool is not looked up. -/
theorem Valid.adds_postInline (hv : Valid ⟨w, .post 0 note ::ₘ F, H, E⟩)
    (hleft : Dismissed ⟨w, .post 0 note ::ₘ F, H, E⟩)
    (hq : w.pools[0]?.bind Pool.queue = none) (hp : opensOf 0 E < 2 ^ 64)
    (hb : Bears ⟨w, .post 0 note ::ₘ F, H, E⟩ h n) :
    Adds n.entry (stage ⟨w, .post 0 note ::ₘ F, H, E⟩ h n)
      (told n.entry [.releasedInline note.identity note.entry])
      (stage ⟨w, .close note.raw note.identity note.entry .death ::ₘ F, H, E⟩ h n) := by
  obtain ⟨k, hd⟩ := hv.mourned.frames (.post 0 note) (Multiset.mem_cons_self _ _)
  have hdown : ¬ w.isUp 0 := by simp [World.isUp, hq]
  by_cases he : n.entry = note.entry
  · obtain ⟨rfl, rfl⟩ := hb.eq_of_entry_eq hv hp hd.1.bears he
    have hu : Underway ⟨w, .post 0 n ::ₘ F, H, E⟩ 0 n := .inl (Multiset.mem_cons_self _ _)
    have hnot : isLeft n.raw E = false := hleft.not_left hv.owned hu
    refine Adds.of_event (by simp [LogEvent.entry?]; rfl) ?_
    rw [stage_of_lasts hv.referenced hd.2 (.inr hu),
      (hv.step (.postInline hq)).stage_leaving (hd.step hv.referenced (.postInline hq))
        (f := .close n.raw n.identity n.entry .death) (Multiset.mem_cons_self _ _)
        (by simp [Frame.raws]) (by simp) (by simp)]
    simpa only [hdown, false_and, if_false, hnot] using .releaseInline n.identity
  · have hne : n ≠ note := fun hn => he (congrArg Note.entry hn)
    refine Adds.of_nil ?_ (stage_congr (by simp [Frame.attempt]) Iff.rfl
      (fun _ => by simp [Lasts, Underway, hne]) (fun _ _ => Iff.rfl) (fun _ => Iff.rfl)
      fun _ => rfl)
    simp [LogEvent.entry?, Ne.symm he]

/-- What a queue has left when it ends was in the table, and goes without an event. -/
theorem Valid.adds_disconnect (hv : Valid ⟨w, .disconnect 0 ::ₘ F, H, E⟩)
    (hF : ∀ note, .post 0 note ∉ F ∧ .evict 0 note ∉ F)
    (hq : ∀ note ∈ w.pending 0, Slotted ⟨w, .disconnect 0 ::ₘ F, H, E⟩ note)
    (hp : opensOf 0 E < 2 ^ 64) (hb : Bears ⟨w, .disconnect 0 ::ₘ F, H, E⟩ h n) :
    Adds n.entry (stage ⟨w, .disconnect 0 ::ₘ F, H, E⟩ h n) []
      (stage ⟨w.updatePool 0 fun pool => { pool with slots := .empty, queue := none },
          .flush (w.pending 0) ::ₘ F, H, .ended 0 ((w.pending 0).map Note.raw) :: E⟩ h n) := by
  by_cases hn : n ∈ w.pending 0
  · obtain ⟨k, hd⟩ := hv.mourned.queues 0 n hn
    obtain ⟨rfl, -⟩ := hb.eq_of_entry_eq hv hp hd.1.bears rfl
    have hleft : isLeft n.raw (.ended 0 ((w.pending 0).map Note.raw) :: E) = true := by
      simp [isLeft, List.mem_map_of_mem hn]
    rw [stage_of_lasts hv.referenced hd.2 (.inr (.inr (.inl hn))), if_neg fun h => h.2 (hq n hn),
      (hv.step .disconnect).stage_leaving (hd.step hv.referenced .disconnect)
        (f := .flush (w.pending 0)) (Multiset.mem_cons_self _ _)
        (by simpa [Frame.raws] using ⟨n, hn, rfl⟩) (by simp) (by simp), hleft]
    exact .leave
  · have hraw : n.raw ∉ (w.pending 0).map Note.raw := by
      intro hm
      obtain ⟨note, hnote, hr⟩ := List.mem_map.1 hm
      obtain ⟨k, hd⟩ := hv.mourned.queues 0 note hnote
      exact hb.raw_ne hv.owned hd.1.bears (by rintro rfl; exact hn hnote) hr.symm
    have hnot : ¬ Underway ⟨w, .disconnect 0 ::ₘ F, H, E⟩ 0 n := by
      simp [Underway, hn, hF n]
    refine .of_nil rfl (stage_congr (by simp [Frame.attempt]) (by simp) (fun _ => ?_)
      (fun hpub hl => iff_of_false (fun hr => ?_) fun hr => hr.2 ?_) (fun _ => by simp)
      fun _ => ?_)
    · simp [Lasts, Underway, hn, World.pending_disconnect]
    · exact ((World.isUp_disconnect_iff _ _).1 hr.1).1 rfl
    · -- What still lasts is referenced, and has its slot.
      obtain ⟨x, hx, hX, he, hw⟩ := id hb
      obtain ⟨y, hy, hyp⟩ := hv.owned.home_of_wrapped 0 h n.raw hw
      obtain rfl : y = x := Option.some.inj (hy.symm.trans hx)
      have hpos := hl.resolve_right hnot
      rw [World.strong_eq hx] at hpos
      have hslot := hv.tabled.live 0 h y hp hr.1 ⟨hx, hyp, hpub, hpos⟩
      simp [Slotted, ← hX, hslot, he]
    · have hnone : ((w.pending 0).map Note.raw).contains n.raw = false := by simpa using hraw
      simp only [isLeft, List.any_cons, hnone, Bool.false_or]

/-- What loses a race has a stage of its own. -/
theorem Valid.adds_lose (hv : Valid ⟨w, .publish 0 X observed k ::ₘ F, H, E⟩)
    (hF : collect Frame.attempt F = 0) (hx : w.wrappers[k]? = some x) (h1 : w.pools.length = 1)
    (hp : opensOf 0 E < 2 ^ 64) (hb : Bears ⟨w, .publish 0 X observed k ::ₘ F, H, E⟩ h n) :
    Adds n.entry (stage ⟨w, .publish 0 X observed k ::ₘ F, H, E⟩ h n)
      (told n.entry [.lostRace X x.entry])
      (stage ⟨w, .discard k ::ₘ .lookUp 0 X ::ₘ F, H, E⟩ h n) := by
  obtain ⟨raw, hbk⟩ := hv.exists_bears h1 hx
  by_cases he : n.entry = x.entry
  · obtain ⟨rfl, rfl⟩ := hb.eq_of_entry_eq hv hp hbk he
    refine Adds.of_event (by simp [LogEvent.entry?]; rfl) ?_
    have hattempt : h ∈ collect Frame.attempt (.publish 0 X observed h ::ₘ F) := by
      simp [Frame.attempt]
    have hlost : stage ⟨w, .discard h ::ₘ .lookUp 0 X ::ₘ F, H, E⟩ h
        ⟨x.identity, x.entry, raw⟩ = .lost :=
      stage_of_hidden (by simp [Frame.attempt, hF])
        fun hpub => hv.referenced.not_attempt hpub hattempt
    rw [stage_of_attempt hattempt, hlost]
    exact .lose X
  · have hne : h ≠ k := hb.ne hv.owned hbk fun hn => he (congrArg Note.entry hn)
    refine Adds.of_nil ?_ (stage_congr (by simp [Frame.attempt, hne]) Iff.rfl
      (fun _ => by simp [Lasts, Underway]) (fun _ _ => Iff.rfl) (fun _ => Iff.rfl) fun _ => rfl)
    simp [LogEvent.entry?, Ne.symm he]

/-- What is closed is what a wrapper has left. -/
theorem Valid.left_of_closing (hv : Valid sc) (h1 : sc.world.pools.length = 1)
    (hf : .closing raw X entry cause ∈ sc.frames) :
    ∃ k, sc.Left 0 k ⟨X, entry, raw⟩ ∧ (cause = .death ↔ .published k ∈ sc.history) := by
  have hdue := hv.mourned.frames _ hf
  obtain ⟨p, k, hleft⟩ : ∃ p k, sc.Left p k ⟨X, entry, raw⟩ := by
    cases cause <;> obtain ⟨p, k, hd⟩ := hdue <;> exact ⟨p, k, hd.1⟩
  obtain ⟨x, hx, rfl, -⟩ := id hleft.1
  rw [hv.home_eq_zero h1 hx] at hleft
  exact ⟨k, hleft, (Due.wrapped hv.owned hdue hleft.2).2⟩

/-- The end of a close is told of what has died, and of a lost race if the close has failed. -/
theorem Valid.adds_closed (hv : Valid ⟨w, .closing raw X entry cause ::ₘ F, H, E⟩)
    (h1 : w.pools.length = 1) (hp : opensOf 0 E < 2 ^ 64)
    (hb : Bears ⟨w, .closing raw X entry cause ::ₘ F, H, E⟩ h n) (error : Option IoError) :
    Adds n.entry (stage ⟨w, .closing raw X entry cause ::ₘ F, H, E⟩ h n)
      (told n.entry (World.closeReport X entry cause error))
      (stage ⟨w.updateRaw raw fun r => { r with phase := .closed }, F, H,
        .closed raw :: E⟩ h n) := by
  obtain ⟨k, hleft, hpub⟩ := hv.left_of_closing h1 (Multiset.mem_cons_self _ _)
  by_cases he : n.entry = entry
  · obtain ⟨rfl, rfl⟩ := hb.eq_of_entry_eq hv hp hleft.bears he
    have hs : Step ⟨w, .closing raw X entry cause ::ₘ F, H, E⟩
        ⟨w.updateRaw raw fun r => { r with phase := .closed }, F, H, .closed raw :: E⟩ := .closed
    cases cause with
    | lostRace =>
      have hnot : .published h ∉ E := fun hm => by cases hpub.2 hm
      rw [stage_of_hidden (hleft.1.not_attempt hv.referenced) hnot]
      have hlost : stage ⟨w.updateRaw raw fun r => { r with phase := .closed }, F, H,
          .closed raw :: E⟩ h ⟨X, entry, raw⟩ = .lost :=
        stage_of_hidden ((hleft.1.step hv.referenced hs).not_attempt (hv.step hs).referenced)
          (by simp [hnot])
      rw [hlost]
      exact adds_closeReport_lostRace X entry error
    | death =>
      have hd : Died ⟨w, .closing raw X entry .death ::ₘ F, H, E⟩ 0 h ⟨X, entry, raw⟩ :=
        ⟨hleft, hpub.1 rfl⟩
      rw [hv.stage_leaving hd (f := .closing raw X entry .death) (Multiset.mem_cons_self _ _)
        (by simp [Frame.raws]) (by simp) (by simp)]
      have hgone : stage ⟨w.updateRaw raw fun r => { r with phase := .closed }, F, H,
          .closed raw :: E⟩ h ⟨X, entry, raw⟩ = .gone (isLeft raw (.closed raw :: E)) :=
        (hv.step hs).stage_of_closed (hb.step hs) (hs.mem_history hd.2) List.mem_cons_self
      rw [hgone]
      exact adds_closeReport_death X entry error (isLeft raw E)
  · have hraw : n.raw ≠ raw := hb.raw_ne hv.owned hleft.bears fun hn => he (congrArg Note.entry hn)
    exact Adds.of_nil (told_closeReport_of_ne (Ne.symm he) X cause error)
      (stage_congr (by simp [Frame.attempt]) (by simp) (fun _ => by simp [Lasts, Underway])
        (fun _ _ => Iff.rfl) (fun _ => by simp [hraw]) fun _ => rfl)

/-- While the numbers last, a dead wrapper is the one that bears the entry. -/
theorem Dead.eq_of_bears (hd : sc.Dead 0 k X n.entry) (hv : Valid sc)
    (h1 : sc.world.pools.length = 1) (hp : opensOf 0 sc.history < 2 ^ 64) (hb : sc.Bears h n) :
    h = k := by
  obtain ⟨y, hy, -, -, hye, -⟩ := hd
  obtain ⟨raw, hbk⟩ := hv.exists_bears h1 hy
  exact (hb.eq_of_entry_eq hv hp hbk hye.symm).1

/-- The entry that is replaced is that of a wrapper whose death is under way. -/
theorem Valid.underway_of_observed (hv : Valid sc) (h1 : sc.world.pools.length = 1)
    (hp : opensOf 0 sc.history < 2 ^ 64) (hf : .publish 0 X observed k ∈ sc.frames)
    (hX : (sc.world.slot? 0 X).map Slot.entry = observed) (ho : observed = some n.entry)
    (hb : sc.Bears h n) :
    .published h ∈ sc.history ∧ sc.Underway 0 n ∧ X.Same n.identity ∧ sc.Slotted n := by
  obtain ⟨slot, hslot, hent⟩ := Option.map_eq_some_iff.1 (hX.trans ho)
  obtain ⟨⟨hpub, z, hz, -, hzX⟩, hze⟩ := hv.grounded.slots 0 X slot hslot
  rw [hz, Option.map_some, Option.some.injEq] at hze
  obtain ⟨raw, hbz⟩ := hv.exists_bears h1 hz
  obtain ⟨rfl, rfl⟩ := hb.eq_of_entry_eq hv hp hbz (hent.symm.trans hze.symm)
  -- Whoever replaces it has found it dead.
  obtain ⟨k', Z, hd⟩ := (hv.grounded.frames _ hf).1 _ ho
  obtain rfl := hd.eq_of_bears hv h1 hp hb
  obtain ⟨note, hu, -, hne, -⟩ := hv.tabled.mourned 0 X slot hslot hd.strong_eq_zero
  obtain ⟨k'', hdied⟩ := hv.mourned.died_of_underway hu
  obtain ⟨-, rfl⟩ := hb.eq_of_entry_eq hv hp hdied.1.bears (hze.trans hne.symm)
  refine ⟨hpub, hu, hzX.symm, ?_⟩
  rw [Slotted, World.slot?_congr hzX, hslot, Option.map_some, hent]

/-- What is published has a stage of its own, and the entry that it replaces goes on to another. -/
theorem Valid.adds_publish {pool : Pool} {slots : Slots}
    (hv : Valid ⟨w, .publish 0 X observed k ::ₘ F, H, E⟩)
    (hx : w.wrappers[k]? = some x) (hpool : w.pools[0]? = some pool)
    (hs : pool.slots.publish X observed ⟨x.entry, k⟩ = some slots) (h1 : w.pools.length = 1)
    (hp : opensOf 0 E < 2 ^ 64) (hb : Bears ⟨w, .publish 0 X observed k ::ₘ F, H, E⟩ h n) :
    Adds n.entry (stage ⟨w, .publish 0 X observed k ::ₘ F, H, E⟩ h n)
      (told n.entry [.published X x.entry observed])
      (stage ⟨w.updatePool 0 fun pool => { pool with slots }, F, k ::ₘ H,
        .acquired 0 X k :: .published k :: E⟩ h n) := by
  have hstep : Step ⟨w, .publish 0 X observed k ::ₘ F, H, E⟩
      ⟨w.updatePool 0 fun pool => { pool with slots }, F, k ::ₘ H,
        .acquired 0 X k :: .published k :: E⟩ := .publish hx hpool hs
  have hv' := hv.step hstep
  have hf : Frame.publish 0 X observed k ∈ .publish 0 X observed k ::ₘ F :=
    Multiset.mem_cons_self _ _
  have hattempt : k ∈ collect Frame.attempt (.publish 0 X observed k ::ₘ F) := by
    simp [Frame.attempt]
  have hX := World.observed_of_publish hpool hs
  obtain ⟨hobserved, y, hy, -, hyX⟩ := hv.grounded.frames _ hf
  obtain rfl : y = x := Option.some.inj (hy.symm.trans hx)
  have hup : w.isUp 0 := (hv.grounded.up 0 (mem_collect.2 ⟨_, hf, by simp [Frame.acquiring]⟩)).1
  have hup' : (w.updatePool 0 fun pool => { pool with slots }).isUp 0 :=
    World.isUp_updatePool hup fun _ h => h
  obtain ⟨raw, hbk⟩ := hv.exists_bears h1 hx
  by_cases he : n.entry = y.entry
  · -- The wrapper is the one that is published.
    obtain ⟨rfl, rfl⟩ := hb.eq_of_entry_eq hv hp hbk he
    have hrep : observed ≠ some y.entry := by
      intro ho
      obtain ⟨k', Z, hd⟩ := hobserved _ ho
      obtain rfl := hd.eq_of_bears hv h1 hp hbk
      exact hd.not_attempt hv.referenced hattempt
    refine Adds.of_event (by simp [LogEvent.entry?]; rfl) ?_
    rw [stage_of_attempt hattempt, stage_of_lasts hv'.referenced (by simp)
      (.inl (hv'.referenced.strong_pos_of_held (Multiset.mem_cons_self _ _))), if_neg]
    · exact .publish X hrep
    · simp [Slotted, World.slot?_publish hpool hs, hyX, Identity.Same.refl]
  · have hne : h ≠ k := hb.ne hv.owned hbk fun hn => he (congrArg Note.entry hn)
    by_cases ho : observed = some n.entry
    · -- It is the one that is replaced, and its death is under way before and after.
      obtain ⟨hpub, hu, hsame, hslotted⟩ := hv.underway_of_observed h1 hp hf hX ho hb
      have hu' : Underway ⟨w.updatePool 0 fun pool => { pool with slots }, F, k ::ₘ H,
          .acquired 0 X k :: .published k :: E⟩ 0 n := by
        simpa [Underway] using hu
      refine Adds.of_event (by simp [ho]; rfl) ?_
      rw [stage_of_lasts hv.referenced hpub (.inr hu), stage_of_lasts hv'.referenced
        (hstep.mem_history hpub) (.inr hu'), if_neg fun h => h.2 hslotted, if_pos]
      · exact .replace X (Ne.symm he)
      · simpa [hup', Slotted, World.slot?_publish hpool hs, hsame] using Ne.symm he
    · -- Neither: what the slot carries, before and after, is some other entry.
      refine Adds.of_nil ?_ (stage_congr (by simp [Frame.attempt, hne]) (by simp [hne])
        (fun _ => by simp [Lasts, Underway]) (fun _ _ => ?_) (fun _ => by simp) fun _ => rfl)
      · simp [LogEvent.entry?, Ne.symm he, ho]
      · simp only [hup, hup', true_and, Slotted, World.slot?_publish hpool hs]
        split
        · next hsame =>
          rw [← World.slot?_congr hsame, hX]
          simp [Ne.symm he, ho]
        · rfl

end

/-- What a step tells of an entry takes its wrapper from one stage to the next. -/
theorem Logs.adds (hl : Logs sc sc' log) (hv : Valid sc) (hd : Dismissed sc)
    (h1 : sc.world.pools.length = 1) (hp : opensOf 0 sc.history < 2 ^ 64) (hb : sc.Bears h n) :
    Adds n.entry (sc.stage h n) (told n.entry log) (sc'.stage h n) := by
  cases hl with
  | silent hs hlog => exact .of_nil (hlog n.entry) (hs.stage_eq hv hb (hv.step hs.step))
  | publish hF hlast hx hpool hs => exact hv.adds_publish hx hpool hs h1 hp hb
  | lose hF hlast hx hX => exact hv.adds_lose hF hx h1 hp hb
  | evict hup hr => exact hv.adds_evict hd hup hr hp hb
  | postInline hq => exact hv.adds_postInline hd hq hp hb
  | closed error => exact hv.adds_closed h1 hp hb error
  | disconnect hF hq => exact hv.adds_disconnect hF (hq hp) hp hb

/-! ## Whole logs -/

/-- What a log tells of each entry, up to the stage of its wrapper. -/
structure Chronicle (sc : Scene σ) (log : List LogEvent) : Prop where
  unborn : ∀ e, (∀ h n, sc.Bears h n → n.entry ≠ e) → told e log = []
  tale : ∀ h n, sc.Bears h n → Tale n.entry (sc.stage h n) (told n.entry log)

theorem Bears.before (hb : sc'.Bears h n) (hs : Step sc sc') (hv : Valid sc)
    (h1 : sc.world.pools.length = 1) : sc.Bears h n ∨
      sc.world.wrappers[h]? = none ∧ h ∈ collect Frame.attempt sc'.frames := by
  obtain ⟨x', hx', -⟩ := id hb
  rcases hs.earlier hx' with ⟨x, hx, -⟩ | ⟨p, raw, hlen, -, -, -, X, observed, hf⟩
  · obtain ⟨raw, hold⟩ := hv.exists_bears h1 hx
    exact .inl ((hold.step hs).inj (hv.step hs).owned hb ▸ hold)
  · exact .inr ⟨List.getElem?_eq_none hlen.ge, mem_collect.2 ⟨_, hf, by simp [Frame.attempt]⟩⟩

/-- What is told of an entry is told of a wrapper. -/
theorem Logs.exists_bears (hl : Logs sc sc' log) (hv : Valid sc) (h1 : sc.world.pools.length = 1)
    {e : Entry} (ht : told e log ≠ []) : ∃ h n, sc.Bears h n ∧ n.entry = e := by
  cases hl with
  | silent hs hlog => exact absurd (hlog e) ht
  | @publish w F H E X observed k x pool slots hF hlast hx hpool hs =>
    obtain ⟨raw, hbk⟩ := hv.exists_bears h1 hx
    by_cases he : x.entry = e
    · exact ⟨k, _, hbk, he⟩
    · -- It is the entry that is replaced, so it is in a slot.
      have ho : observed = some e := by
        by_contra ho
        simp [LogEvent.entry?, he, ho] at ht
      obtain ⟨slot, hslot, hent⟩ :=
        Option.map_eq_some_iff.1 ((World.observed_of_publish hpool hs).trans ho)
      obtain ⟨⟨-, z, hz, -⟩, hze⟩ := hv.grounded.slots 0 X slot hslot
      rw [hz, Option.map_some, Option.some.injEq] at hze
      obtain ⟨raw', hbz⟩ := hv.exists_bears h1 hz
      exact ⟨_, _, hbz, hze.trans hent⟩
  | @lose w F H E X observed k x hF hlast hx hX =>
    obtain ⟨raw, hbk⟩ := hv.exists_bears h1 hx
    refine ⟨k, _, hbk, ?_⟩
    by_contra he
    simp only at he
    simp [LogEvent.entry?, he] at ht
  | @evict w F H E note removed hup hr =>
    obtain ⟨k, hd⟩ := hv.mourned.frames (.evict 0 note) (Multiset.mem_cons_self _ _)
    refine ⟨k, note, hd.1.bears, ?_⟩
    by_contra he
    simp [LogEvent.entry?, he] at ht
  | @postInline w F H E note hq =>
    obtain ⟨k, hd⟩ := hv.mourned.frames (.post 0 note) (Multiset.mem_cons_self _ _)
    refine ⟨k, note, hd.1.bears, ?_⟩
    by_contra he
    simp [LogEvent.entry?, he] at ht
  | @closed w F H E raw X entry cause error =>
    obtain ⟨k, hleft, -⟩ := hv.left_of_closing h1 (Multiset.mem_cons_self _ _)
    refine ⟨k, _, hleft.bears, ?_⟩
    by_contra he
    exact ht (told_closeReport_of_ne he X cause error)
  | disconnect => exact absurd rfl ht

theorem Chronicle.step {evs : List LogEvent} (hc : Chronicle sc log) (hl : Logs sc sc' evs)
    (hv : Valid sc) (hd : Dismissed sc) (h1 : sc.world.pools.length = 1)
    (hp : opensOf 0 sc'.history < 2 ^ 64) : Chronicle sc' (evs ++ log) := by
  have hs := hl.step
  have hp₀ := hs.opensOf_le.trans_lt hp
  have untold {e : Entry} (hn : ∀ h n, sc.Bears h n → n.entry ≠ e) : told e (evs ++ log) = [] := by
    rw [told_append, hc.unborn e hn, List.append_nil]
    by_contra ht
    obtain ⟨h, n, hb, he⟩ := hl.exists_bears hv h1 ht
    exact hn h n hb he
  refine ⟨fun e hn => untold fun h n hb => hn h n (hb.step hs), fun h n hb => ?_⟩
  rcases hb.before hs hv h1 with hold | ⟨hnone, hattempt⟩
  · rw [told_append]
    exact (hc.tale h n hold).append (hl.adds hv hd h1 hp₀ hold)
  · -- The entry is new, so nothing is told of it yet.
    rw [stage_of_attempt hattempt, untold]
    · exact .start
    · intro k m hbk he
      obtain ⟨rfl, -⟩ := (hbk.step hs).eq_of_entry_eq (hv.step hs) hp hb he
      obtain ⟨x, hx, -⟩ := hbk
      exact absurd (hnone.symm.trans hx) (by simp)

theorem Chronicle.exists_tale (hc : Chronicle sc log) (e : Entry) :
    ∃ stage, Tale e stage (told e log) := by
  by_cases hb : ∃ h n, sc.Bears h n ∧ n.entry = e
  · obtain ⟨h, n, hb, rfl⟩ := hb
    exact ⟨_, hc.tale h n hb⟩
  · rw [hc.unborn e fun h n hb' he => hb ⟨h, n, hb', he⟩]
    exact ⟨_, .start⟩

end Scene

end ReadPool
