import Mathlib
import ReadPool.Proofs.Linearization
import ReadPool.Proofs.Racing

/-!
# Racing acquisitions converge

Any number of acquisitions of one identity, which nobody had before and nobody lets go of meanwhile.
Whoever publishes first has won: from then on there is a slot, so every other acquisition that looks
up is given the winner's wrapper, and none calls its opener a second time. What the others have
opened is closed.
-/

namespace ReadPool

/-- An opener is called. -/
def Event.isAsked : Event → Bool
  | asked .. => true
  | _ => false

namespace Moment

/-- A caller lets go of a reference to what the pool has for the identity. -/
def letsGo (p : PoolId) (X : Identity) (m : Moment σ) : Bool :=
  match m.act with
  | .call _ (.drop h) => m.system.world.wrappers[h]?.any fun x => x.home = p ∧ x.identity.Same X
  | _ => false

/-- The call that was made with `d` frames on thread `t` calls its opener. -/
def asks (t : ThreadId) (d : Nat) (m : Moment σ) : Bool :=
  m.isOwn t d && m.events.any Event.isAsked

/-- A moment of a race, at which a slot stays if there is one. -/
structure Races (m : Moment σ) (p : PoolId) (X : Identity) (r₀ : RawId) : Prop where
  race : m.system.scene.Race p X r₀
  keeps : ∀ s' slot, m.system.next? m.act = some s' → m.system.world.slot? p X = some slot →
    s'.world.slot? p X = some slot

end Moment

theorem Moment.Races.congr {m : Moment σ} {p : PoolId} {X Y : Identity} {r₀ : RawId}
    {s' : System σ} (h : m.Races p X r₀) (hY : Y.Same X) (ha : m.system.next? m.act = some s') :
    ∀ slot, m.system.world.slot? p Y = some slot → s'.world.slot? p Y = some slot := by
  intro slot hslot
  rw [World.slot?_congr hY] at hslot ⊢
  exact h.keeps s' slot ha hslot

/-! ## The calls of the opener -/

/-- The calls of the opener that an acquisition has before it: none, once there is a slot. -/
def asksLeft (w : World σ) (p : PoolId) (X : Identity) (own : List Frame) : Nat :=
  if .lookUp p X ∈ own ∧ w.slot? p X = none then 1 else 0

theorem asksLeft_le_one (w : World σ) (p : PoolId) (X : Identity) (own : List Frame) :
    asksLeft w p X own ≤ 1 := by
  unfold asksLeft
  split <;> simp

theorem asksLeft_mono {w w' : World σ} {p : PoolId} {X : Identity} {own own' : List Frame}
    (hslot : ∀ slot, w.slot? p X = some slot → w'.slot? p X = some slot)
    (hown : .lookUp p X ∈ own' → .lookUp p X ∈ own) : asksLeft w' p X own' ≤ asksLeft w p X own := by
  unfold asksLeft
  split
  · next h =>
    have hnone : w.slot? p X = none := by
      cases hX : w.slot? p X with
      | none => rfl
      | some slot => exact absurd h.2 (by simp [hslot slot hX])
    rw [if_pos ⟨hown h.1, hnone⟩]
  · exact Nat.zero_le _

/-- Whoever calls the opener had it before it, in a race. -/
theorem Move.asks_le {p : PoolId} {X : Identity} {w : World σ} {own : List Frame} {a : Act σ}
    {turn : Turn σ} (h : Move p X w a own turn)
    (hslot : ∀ slot, w.slot? p X = some slot → turn.world.slot? p X = some slot)
    (hlive : ∀ slot, w.slot? p X = some slot → w.isLive slot.wrapper)
    (hobs : ∀ observed k, .publish p X observed k ∈ own → observed = none) :
    (if (turn.events w own).any Event.isAsked then 1 else 0) + asksLeft turn.world p X turn.frames
      ≤ asksLeft w p X own := by
  cases h with
  | @drain a F F' turn hF hne hF' hdone hframes =>
    rw [hF.any_events hne _ rfl (fun _ => rfl) fun _ => rfl]
    simpa using asksLeft_mono hslot (by simp)
  | miss hdead =>
    -- Who misses has seen no slot, for what a slot leads to is live.
    have hnone : w.slot? p X = none := by
      cases hX : w.slot? p X with
      | none => rfl
      | some slot => exact absurd (hlive slot hX) (by simp [hdead slot hX])
    simp [asksLeft, hnone, Turn.events, Event.isAsked]
  | @lose t observed k entry hX =>
    -- Who loses has lost to a slot, so the next look-up will not miss.
    have hsome : w.slot? p X ≠ none := fun hnone => hX (by
      rw [hnone, hobs observed k (List.mem_singleton_self _), Option.map_none])
    simp [asksLeft, hsome, Turn.events]
  | closed error => cases error <;> simp [asksLeft, Turn.events, Event.isAsked]
  | _ => simp [asksLeft, Turn.events, Event.isAsked]

namespace System

variable {s₀ s₁ s s' : System σ} {ms : List (Moment σ)} {a : Act σ} {t : ThreadId} {p : PoolId}
  {X Y : Identity} {r₀ : RawId}

/-- In a race an acquisition calls its opener once at the most. -/
theorem Called.asks_le_one (hs : Sound s₁) (h : Called s₁ t (.acquire p Y) ms s) (hY : Y.Same X)
    (hr : ∀ m ∈ ms, m.Races p X r₀) : ms.countP (Moment.asks t (s₁.depth t)) ≤ 1 := by
  -- What the call has asked for, with what it may still ask for, does not grow.
  have hkeeps := h.keeps (P := fun own ms s => (∀ m ∈ ms, m.Races p X r₀) →
    ms.countP (Moment.asks t (s₁.depth t)) + asksLeft s.world p Y own ≤ 1) hs
    (fun s _ => by simpa using asksLeft_le_one s.world p Y _) ?_ ?_
  · obtain ⟨_, _, _, -, -, hP⟩ := hkeeps
    have := hP hr
    omega
  · intro own ms s a s' _ _ ha hother ih hr
    obtain ⟨hrace, hr⟩ := List.forall_mem_cons.1 hr
    have hmono : asksLeft s'.world p Y own ≤ asksLeft s.world p Y own :=
      asksLeft_mono (hrace.congr hY ha) id
    have hasks : (⟨s, a⟩ : Moment σ).asks t (s₁.depth t) = false := by simp [Moment.asks, hother]
    have := ih hr
    rw [List.countP_cons, hasks]
    simp only [Bool.false_eq_true, if_false]
    omega
  · intro below own turn ms s a s' hcalled hd hm ih hr
    obtain ⟨hrace, hr⟩ := List.forall_mem_cons.1 hr
    have hasks : (⟨s, a⟩ : Moment σ).asks t (s₁.depth t)
        = (turn.events s.world own).any Event.isAsked := by
      simp [Moment.asks, hd ▸ hm.isOwn, hm.events]
    have hsound := hcalled.sound hs
    have hcost := hm.move.asks_le (hm.world ▸ hrace.congr hY hm.act) (fun slot hslot => ?_)
      fun observed k hf => ?_
    · have := ih hr
      rw [List.countP_cons, hasks, hm.world]
      omega
    · rw [World.slot?_congr hY] at hslot
      exact World.isLive_iff.2
        (hsound.valid.referenced.strong_pos_of_held (hrace.race.won slot hslot).1)
    · exact (hrace.race.publish Y observed k (hm.mem_frames hf) hY).1

/-! ## The run -/

/-- A caller begins to let go of a reference, and nobody else does. -/
theorem Sound.drop_before (hs : Sound s) (ha : s.next? a = some s') {h : WrapperId}
    (hf : .drop h ∈ s'.frames) : .drop h ∈ s.frames ∨ ∃ t, a = .call t (.drop h) := by
  cases hthread : a.thread? with
  | some t =>
    -- A turn takes no reference away from callers.
    refine .inl (((hs.scene_next ha).1.drop_before hf).resolve_right fun hheld => ?_)
    obtain ⟨frames, turn, -, -, rfl, -⟩ := exists_turn hthread ha
    have := congrArg Multiset.card hheld
    simp only [scene, take, Multiset.card_cons, Multiset.coe_card, List.length_append] at this
    omega
  | none =>
    obtain ⟨frames', ht, hf⟩ := List.mem_flatten.1 hf
    obtain ⟨-, -, hsame | hspawn | ⟨t, c, frames, rfl, hframes, -, hcall⟩⟩ := exists_call hthread ha
    · exact .inl (List.mem_flatten.2 ⟨frames', hsame ▸ ht, hf⟩)
    · rcases List.mem_append.1 (hspawn ▸ ht) with hold | hnew
      · exact .inl (List.mem_flatten.2 ⟨frames', hold, hf⟩)
      · rw [List.mem_singleton.1 hnew] at hf
        cases hf
    · rcases List.mem_or_eq_of_mem_set (hcall ▸ ht) with hold | rfl
      · exact .inl (List.mem_flatten.2 ⟨frames', hold, hf⟩)
      · rcases List.mem_append.1 hf with hnew | hold
        · cases c <;> simp_all [Call.frames]
        · exact .inl (List.mem_flatten.2 ⟨frames, List.mem_of_getElem? hframes, hold⟩)

theorem Sound.kept_next (hs : Sound s) (ha : s.next? a = some s') (hk : s.scene.Kept p X)
    (hm : (⟨s, a⟩ : Moment σ).letsGo p X = false) : s'.scene.Kept p X := by
  intro h x' hf hx' hp hX
  rcases hs.drop_before ha hf with hold | ⟨t, rfl⟩
  · obtain ⟨x, raw, hx, -⟩ := hs.valid.referenced.exists_of_dropped (h := h)
      (mem_collect.2 ⟨_, hold, by simp [Frame.dropped]⟩)
    obtain ⟨y, hy, hl⟩ := (hs.scene_next ha).1.later hx
    obtain rfl : y = x' := Option.some.inj (hy.symm.trans hx')
    exact hk h x hold hx (hl.home ▸ hp) (hl.identity ▸ hX)
  · obtain ⟨frames, -, hcall⟩ := Option.bind_eq_some_iff.1 ha
    split at hcall <;> cases hcall
    have hx : s.world.wrappers[h]? = some x' := hx'
    simp [Moment.letsGo, hx, hp, hX] at hm

/-- What holds in a race, of what has come of it and of the moments that led there. -/
theorem Run.races (h : Run s₀ ms s) (hs : Sound s₀) (hX : s₀.scene.Untouched p X)
    (hm : ∀ m ∈ ms, m.letsGo p X = false) (hup : s.world.isUp p) :
    s.scene.Race p X s₀.world.raws.length ∧
    (∀ m ∈ ms, m.Races p X s₀.world.raws.length) ∧
    ∀ m ∈ ms, ∀ Y k, .acquired p Y k ∈ m.events → Y.Same X →
      (s.world.slot? p X).map Slot.wrapper = some k := by
  induction h with
  | refl => exact ⟨.start hs.valid hX, by simp, by simp⟩
  | @next ms s s' a h ha ih =>
    obtain ⟨hnot, hm⟩ := List.forall_mem_cons.1 hm
    have hsound := h.sound hs
    have hstep := (hsound.scene_next ha).1
    -- The pool was there from the beginning, so it is up all the time.
    have hlt : p < s.world.pools.length := h.keeps (P := fun sc => p < sc.world.pools.length) hs
      (World.lt_length_of_isUp hX.up) fun _ _ hstep => hstep.length_pools_le.trans_lt'
    obtain ⟨hrace, hms, hacq⟩ := ih hm (hstep.isUp_of_isUp hup hlt)
    have hkept := hsound.kept_next ha hrace.kept hnot
    have hslot (slot : Slot) : s.world.slot? p X = some slot → s'.world.slot? p X = some slot :=
      hrace.slot?_step hstep hup
    refine ⟨hrace.step hsound.valid hstep hup hkept, List.forall_mem_cons.2 ⟨⟨hrace, ?_⟩, hms⟩,
      List.forall_mem_cons.2 ⟨fun Y k hk hY => ?_, fun m hmem Y k hk hY => ?_⟩⟩
    · intro s'' slot ha' hX'
      obtain rfl : s' = s'' := Option.some.inj (ha.symm.trans ha')
      exact hslot slot hX'
    · obtain ⟨events, hevents, hgot⟩ := hstep.acquired_slot
      obtain rfl : (⟨s, a⟩ : Moment σ).events = events :=
        List.append_cancel_right ((history_next ha).symm.trans hevents)
      exact World.slot?_congr hY ▸ hgot p Y k hk
    · obtain ⟨slot, hX', rfl⟩ := Option.map_eq_some_iff.1 (hacq m hmem Y k hk hY)
      rw [hslot slot hX', Option.map_some]

/-! ## What was opened -/

/-- The raw handles that a pool has opened for the identity since `s₀`. -/
def openedSince (s₀ s : System σ) (p : PoolId) (X : Identity) : Finset RawId :=
  (Finset.Ico s₀.world.raws.length s.world.raws.length).filter fun raw =>
    .opened p raw ∈ s.history ∧ s.world.raws[raw]?.any (·.identity.Same X)

def isClosed (s : System σ) (raw : RawId) : Bool := s.world.raws[raw]?.any (·.phase = .closed)

theorem mem_openedSince {raw : RawId} : raw ∈ openedSince s₀ s p X ↔
    s₀.world.raws.length ≤ raw ∧ .opened p raw ∈ s.history ∧
      ∃ Y, s.scene.OpenedFor raw Y ∧ Y.Same X := by
  rw [openedSince, Finset.mem_filter, Finset.mem_Ico, and_assoc]
  refine and_congr_right fun _ => ?_
  constructor
  · rintro ⟨-, hopen, hX⟩
    obtain ⟨r, hr, hX⟩ := (Option.any_eq_true _ _).1 hX
    exact ⟨hopen, r.identity, ⟨r, hr, rfl⟩, by simpa using hX⟩
  · rintro ⟨hopen, Y, ⟨r, hr, rfl⟩, hX⟩
    have hr' : s.world.raws[raw]? = some r := hr
    exact ⟨(List.getElem?_eq_some_iff.1 hr').1, hopen, by simp [hr', hX]⟩

theorem Sound.isClosed_iff (hs : Sound s) {raw : RawId} (hraw : raw < s.world.raws.length) :
    s.isClosed raw ↔ .closed raw ∈ s.history := by
  have hr : s.world.raws[raw]? = some s.world.raws[raw] := List.getElem?_eq_getElem hraw
  rw [isClosed, hr, Option.any_some, decide_eq_true_iff]
  exact hs.valid.closed_iff hr

/-- The raw handle of a slot is one of those that were opened, and is not closed. -/
theorem Reachable.exists_winner (hs : s.Reachable)
    (hr : s.scene.Race p X s₀.world.raws.length) {slot : Slot}
    (hslot : s.world.slot? p X = some slot) : ∃ x raw, s.Current p X slot.wrapper x ∧
      x.stream = some raw ∧ .wrapped p slot.wrapper raw ∈ s.history ∧
      raw ∈ openedSince s₀ s p X ∧ s.isClosed raw = false := by
  have hv := hs.valid
  obtain ⟨hheld, raw, hraw, hw⟩ := hr.won slot hslot
  obtain ⟨x, hc⟩ := hs.sound.current_of_slot hslot (Multiset.mem_coe.1 hheld)
  obtain ⟨y, raw', r, hy, hstream, hr', hphase, -⟩ :=
    hv.exists_open_stream (hv.referenced.strong_pos_of_held hheld)
  obtain rfl : x = y := Option.some.inj (hc.wrapper.symm.trans hy)
  obtain rfl := hv.owned.wrapped_raw_inj hw (hv.owned.wrapped_of_stream _ x raw' hy hstream)
  have hlabel := hs.labelled.wrapped p _ raw x hw hy
  have hr'' : s.world.raws[raw]? = some r := hr'
  exact ⟨x, raw, hc, hstream, hw,
    mem_openedSince.2 ⟨hraw, hv.owned.opened_of_wrapped hw, _, hlabel, hc.identity⟩,
    by simp [isClosed, hr'', hphase]⟩

/-- When nobody acquires any more, the winner's raw handle is left, and all others are closed. -/
theorem Reachable.settled (hs : s.Reachable) (hr : s.scene.Race p X s₀.world.raws.length)
    (hq : s.scene.Unsought p X) (hne : (openedSince s₀ s p X).Nonempty) :
    ((openedSince s₀ s p X).filter fun raw => s.isClosed raw).card + 1
        = (openedSince s₀ s p X).card ∧
      ∃ h x raw, s.Current p X h x ∧ x.stream = some raw ∧ raw ∈ openedSince s₀ s p X ∧
        s.isClosed raw = false := by
  have hplace : ∀ raw ∈ openedSince s₀ s p X, ∃ slot, s.world.slot? p X = some slot ∧
      (.wrapped p slot.wrapper raw ∈ s.history ∨ .closed raw ∈ s.history) := by
    intro raw hraw
    obtain ⟨hnew, hopen, Y, hY, hYX⟩ := mem_openedSince.1 hraw
    exact hr.settled hs.valid hs.labelled hq
      (fun f k x hf hu hx => hs.mem_lookUp (Multiset.mem_coe.1 hf) hu hx) hnew hopen hY hYX
  obtain ⟨raw₁, hraw₁⟩ := hne
  obtain ⟨slot, hslot, -⟩ := hplace raw₁ hraw₁
  obtain ⟨x, raw, hc, hstream, hw, hmem, hopen⟩ := hs.exists_winner hr hslot
  refine ⟨?_, slot.wrapper, x, raw, hc, hstream, hmem, hopen⟩
  -- A raw handle is closed unless it is the winner's.
  have hfilter : (openedSince s₀ s p X).filter (fun raw => s.isClosed raw)
      = (openedSince s₀ s p X).erase raw := by
    rw [← Finset.filter_ne']
    refine Finset.filter_congr fun raw' hraw' => ⟨fun hclosed => ?_, fun hne => ?_⟩
    · rintro rfl
      simp [hopen] at hclosed
    · obtain ⟨slot', hslot', hat⟩ := hplace raw' hraw'
      obtain rfl : slot' = slot := Option.some.inj (hslot'.symm.trans hslot)
      rw [hs.sound.isClosed_iff (Finset.mem_Ico.1 (Finset.mem_filter.1 hraw').1).2]
      exact hat.resolve_left fun hw' => hne (hs.valid.owned.wrapped_raw_inj hw' hw)
  rw [hfilter, Finset.card_erase_add_one hmem]

/-- Acquisitions of one identity, that nothing was left of and that nobody lets go of. Each calls its
opener once at the most, and all that are given a reference are given that to the wrapper which the
slot has from then on. No death of the identity gets under way. When all are over and some have opened
a raw handle, the slot has one of these, and all others are closed. -/
theorem racers_converge (p : PoolId) (X : Identity) (hs : s₀.Reachable)
    (hX : s₀.scene.Untouched p X) (h : Run s₀ ms s) (hm : ∀ m ∈ ms, m.letsGo p X = false)
    (hup : s.world.isUp p) :
    (∀ (t : ThreadId) (Y : Identity) (s₁ : System σ) (later during earlier : List (Moment σ)),
      ms = later ++ during ++ ⟨s₁, .call t (.acquire p Y)⟩ :: earlier → Y.Same X →
      (∀ m ∈ during, s₁.depth t < m.system.depth t) →
      during.countP (Moment.asks t (s₁.depth t)) ≤ 1) ∧
    (∀ m ∈ ms, ∀ Y h, .acquired p Y h ∈ m.events → Y.Same X →
      (s.world.slot? p X).map Slot.wrapper = some h) ∧
    (∀ note, note.identity.Same X → ¬ s.scene.Underway p note ∧
      ∀ m ∈ ms, ¬ m.system.scene.Underway p note) ∧
    (s.scene.Unsought p X → (openedSince s₀ s p X).Nonempty →
      ((openedSince s₀ s p X).filter fun raw => s.isClosed raw).card + 1
          = (openedSince s₀ s p X).card ∧
        ∃ h x raw, s.Current p X h x ∧ x.stream = some raw ∧ raw ∈ openedSince s₀ s p X ∧
          s.isClosed raw = false) := by
  obtain ⟨hrace, hms, hacq⟩ := h.races hs.sound hX hm hup
  refine ⟨fun t Y s₁ later during earlier hsplit hY hgoing => ?_, hacq,
    fun note hnote => ⟨fun hu => hrace.calm note hu hnote,
      fun m hmem hu => (hms m hmem).race.calm note hu hnote⟩, (h.reachable hs).settled hrace⟩
  subst hsplit
  obtain ⟨s₂, hbefore, hafter⟩ := run_append_iff.1 h
  obtain ⟨s₃, hduring, -⟩ := run_append_iff.1 hafter
  cases hbefore with
  | next hearlier ha =>
    have hcalled : Called s₁ t (.acquire p Y) during s₃ := ⟨⟨s₂, ha, hduring⟩, hgoing⟩
    exact hcalled.asks_le_one (hearlier.sound hs.sound) hY fun m hmem => hms m (by simp [hmem])

/-- Three threads and a pool that has nothing yet. -/
def gathering : List (Act Unit) := [.spawn, .spawn, .spawn, .newPool {}]

theorem isSome_run_gathering : (({} : System Unit).run? gathering).isSome := by decide +kernel

def gathered : System Unit := (({} : System Unit).run? gathering).get isSome_run_gathering

/-- Three acquire a file at once: the open of one fails, and one of the two others is late. -/
def converging : List (Act Unit) :=
  [.call 0 (.acquire 0 ⟨.ofString "/a"⟩), .call 1 (.acquire 0 ⟨.ofString "//a/."⟩),
    .call 2 (.acquire 0 ⟨.ofString "/a"⟩), .turn 0, .turn 1, .turn 2, .turn 0, .turn 1, .turn 2,
    .opened 2 (.error .noEntry), .opened 0 (.ok ()), .opened 1 (.ok ()), .turn 1, .turn 0, .turn 1,
    .turn 0, .turn 0, .turn 0, .closed 0 (some .busy), .turn 0]

theorem isSome_run_converging : (gathered.run? converging).isSome := by decide +kernel

def converged : System Unit := (gathered.run? converging).get isSome_run_converging

theorem racers_converge_converged :
    gathered.Reachable ∧ gathered.scene.Untouched 0 ⟨.ofString "/a"⟩ ∧
    Run gathered (gathered.moments converging) converged ∧
    (∀ m ∈ gathered.moments converging, m.letsGo 0 ⟨.ofString "/a"⟩ = false) ∧
    converged.world.isUp 0 ∧ converged.scene.Unsought 0 ⟨.ofString "/a"⟩ ∧
    (openedSince gathered converged 0 ⟨.ofString "/a"⟩).card = 2 ∧
    ((openedSince gathered converged 0 ⟨.ofString "/a"⟩).filter
      fun raw => converged.isClosed raw).card = 1 ∧
    ∃ h x, converged.Current 0 ⟨.ofString "/a"⟩ h x := by
  have hs : gathered.Reachable := ⟨gathering, (Option.some_get _).symm⟩
  have hX : gathered.scene.Untouched 0 ⟨.ofString "/a"⟩ :=
    .of_idle (congrArg _ (by decide +kernel : gathered.frames = [])) (by decide +kernel)
      (by unfold World.isUp; decide +kernel) (by decide +kernel)
  have hrun : Run gathered (gathered.moments converging) converged :=
    run_moments (Option.some_get _).symm
  have hm : ∀ m ∈ gathered.moments converging, m.letsGo 0 ⟨.ofString "/a"⟩ = false := by
    decide +kernel
  have hup : converged.world.isUp 0 := by unfold World.isUp; decide +kernel
  have hF : converged.frames = [] := by decide +kernel
  have hq : converged.scene.Unsought 0 ⟨.ofString "/a"⟩ := by
    intro f hf
    simp [scene, hF] at hf
  have hcard : (openedSince gathered converged 0 ⟨.ofString "/a"⟩).card = 2 := by decide +kernel
  obtain ⟨-, -, -, hsettled⟩ := racers_converge 0 ⟨.ofString "/a"⟩ hs hX hrun hm hup
  obtain ⟨hclosed, h, x, -, hc, -⟩ := hsettled hq (Finset.card_pos.1 (by omega))
  exact ⟨hs, hX, hrun, hm, hup, hq, hcard, by omega, h, x, hc⟩

end System

end ReadPool
