import Mathlib
import ReadPool.Proofs.Acquiring
import ReadPool.Proofs.Uniqueness

/-!
# When an acquisition takes effect

An acquisition is answered by an act of its own. The reference that it gives leads to the wrapper
that the table carries right then, and the error that it gives is the one that its opener has just
answered with; neither a lost race nor a close that fails shows in an answer. An identity that is
held has its slot, and whoever looks it up then is given the same wrapper.
-/

namespace ReadPool.System

variable {σ : Type*} {s₀ s s' : System σ} {ms : List (Moment σ)} {a : Act σ} {t : ThreadId}
  {p : PoolId} {X Y : Identity} {h k : WrapperId} {below : List Frame}

/-- The reference leads to the wrapper that the slot of the identity carries, and that is live. -/
structure Current (s : System σ) (p : PoolId) (X : Identity) (h : WrapperId) (x : Wrapper) :
    Prop where
  wrapper : s.world.wrappers[h]? = some x
  identity : x.identity.Same X
  slot : s.world.slot? p X = some ⟨x.entry, h⟩
  live : 0 < x.strong

theorem Sound.current_of_slot (hs : Sound s) {slot : Slot} (hslot : s.world.slot? p X = some slot)
    (hh : slot.wrapper ∈ s.held) : ∃ x, s.Current p X slot.wrapper x := by
  obtain ⟨⟨-, x, hx, -, hX⟩, he⟩ := hs.valid.grounded.slots p X slot hslot
  have hx' : s.world.wrappers[slot.wrapper]? = some x := hx
  have hpos := hs.valid.referenced.strong_pos_of_held (Multiset.mem_coe.2 hh)
  have he' : slot = ⟨x.entry, slot.wrapper⟩ := by
    rw [hx, Option.map_some, Option.some.injEq] at he
    rw [he]
  exact ⟨x, hx', hX, he' ▸ hslot, World.strong_eq hx ▸ hpos⟩

theorem Reachable.current_of_held (hs : s.Reachable) (hp : opensOf p s.history < 2 ^ 64)
    (hup : s.world.isUp p) (ha : .acquired p Y k ∈ s.history) (hk : k ∈ s.held) (hY : Y.Same X) :
    ∃ x, s.Current p X k x := by
  obtain ⟨x, hl, hx⟩ := hs.liveIn_of_held ha hk
  have hX := hx.trans hY
  exact ⟨x, hl.1, hX, World.slot?_congr hX ▸ hs.valid.tabled.live p k x hp hup hl, hl.2.2.2⟩

/-- What an answer says at the moment at which it is given. -/
theorem Moves.answered {own : List Frame} {turn : Turn σ} (hs : Sound s')
    (h : Moves s a s' t p X below own turn) (hover : turn.frames = []) :
    ∃ result, (⟨s, a⟩ : Moment σ).answer? = some (.acquired result) ∧
      (∀ h, result = .ok h → h ∈ s'.held ∧ ∃ x, s'.Current p X h x) ∧
      ∀ e, result = .error e → ∃ io observed, e = .openFailed X io ∧ a = .opened t (.error io) ∧
        (⟨s, a⟩ : Moment σ).frames = .opening p X observed :: below := by
  have hanswer := h.answer?
  have hnext := h.next
  cases h.move with
  | @hit t' slot hX hl =>
    refine ⟨.ok slot.wrapper, hanswer, fun h he => ?_, by simp⟩
    cases he
    have hh : slot.wrapper ∈ s'.held := by simp [hnext, take, Turn.gained]
    have hslot : s'.world.slot? p X = some slot := by simpa [hnext, take] using hX
    exact ⟨hh, hs.current_of_slot hslot hh⟩
  | @openFailed t' observed e =>
    obtain rfl : t' = t := Option.some.inj h.thread
    refine ⟨.error (.openFailed X e), hanswer, by simp, fun e' he => ?_⟩
    cases he
    exact ⟨e, observed, rfl, rfl, h.frames⟩
  | @publish t' observed k x pool slots hx hp hslots =>
    refine ⟨.ok k, hanswer, fun h he => ?_, by simp⟩
    cases he
    have hh : k ∈ s'.held := by simp [hnext, take, Turn.gained]
    have hslot : s'.world.slot? p X = some ⟨x.entry, k⟩ := by
      rw [hnext, take]
      exact (World.slot?_publish hp hslots).trans (if_pos ⟨rfl, .refl X⟩)
    exact ⟨hh, hs.current_of_slot hslot hh⟩
  | drain hF hne hF' hdone hframes => simp [hframes] at hover
  | _ => cases hover

/-- Until it looks its identity up, an acquisition only drains. -/
theorem Called.not_asked (hs : Sound s₀) (h : Called s₀ t (.acquire p X) ms s)
    (hfirst : ∀ m ∈ ms, m.isOwn t (s₀.depth t) → m.looksUp p X = false) :
    ∀ m ∈ ms, m.isOwn t (s₀.depth t) → ∀ Z, .asked p Z ∉ m.events := by
  have hkeeps := h.keeps
    (P := fun own ms _ => (∀ m ∈ ms, m.isOwn t (s₀.depth t) → m.looksUp p X = false) →
      (∃ F, Purging p F ∧ own = F ++ [.lookUp p X]) ∧
      ∀ m ∈ ms, m.isOwn t (s₀.depth t) → ∀ Z, .asked p Z ∉ m.events) hs
    (fun _ _ => ⟨⟨_, .receive 0, rfl⟩, by simp⟩) ?_ ?_
  · obtain ⟨_, _, _, -, -, hP⟩ := hkeeps
    exact (hP hfirst).2
  · intro own ms s a s' _ _ _ hother ih hfirst
    rw [List.forall_mem_cons] at hfirst
    obtain ⟨hown, hasked⟩ := ih hfirst.2
    exact ⟨hown, List.forall_mem_cons.2 ⟨by simp [hother], hasked⟩⟩
  · intro below own turn ms s a s' _ hd hmoves ih hfirst
    rw [List.forall_mem_cons] at hfirst
    obtain ⟨⟨F, hF, hown⟩, hasked⟩ := ih hfirst.2
    -- The act is not the look-up, so it is one of the drain's.
    have hlook := hfirst.1 (hd ▸ hmoves.isOwn)
    have hne : F ≠ [] := by
      rintro rfl
      simp [Moment.looksUp, hmoves.frames, hown] at hlook
    refine ⟨hmoves.move.of_drain hown hF hne, List.forall_mem_cons.2 ⟨fun _ Z hZ => ?_, hasked⟩⟩
    rw [hmoves.events, hown] at hZ
    simpa using hF.events hne _ _ hZ

/-- Whoever looks up what somebody holds is given that, and asks for nothing. -/
theorem Sound.next_lookUp {x : Wrapper} (hs : Sound s) (hc : s.Current p X k x)
    (ht : s.threads[t]? = some (.lookUp p X :: below)) :
    ∃ s', s.next? (.turn t) = some s' ∧ s'.depth t = below.length ∧
      (⟨s, .turn t⟩ : Moment σ).answer? = some (.acquired (.ok k)) ∧
      ∀ Z, .asked p Z ∉ (⟨s, .turn t⟩ : Moment σ).events := by
  have hidle : isIdle below :=
    (hs.delivers _ (List.mem_of_getElem? ht)).1 (by simp [Frame.acquiring])
  have hlive : s.world.isLive k := World.isLive_iff.2 (World.strong_eq hc.wrapper ▸ hc.live)
  have hstep : s.world.step (.lookUp p X :: below)
      = some ((s.world.retain k).finish below (.acquired (.ok k))) :=
    (World.Yields.found hc.slot hlive).step rfl
  have hnext : s.next? (.turn t) = some (s.take t (.lookUp p X :: below)
      ((s.world.retain k).finish below (.acquired (.ok k)))) := by
    simp [next?, ht, hstep]
  have hturn : (⟨s, .turn t⟩ : Moment σ).turn?
      = some ((s.world.retain k).finish below (.acquired (.ok k))) := by
    simp [Moment.turn?, Moment.frames, Act.turn?, Act.thread?, ht, hstep]
  refine ⟨_, hnext, ?_, ?_, ?_⟩
  · simp [depth, take, List.getElem?_set_self (List.getElem?_eq_some_iff.1 ht).1]
  · simp [Moment.answer?, hturn, World.finish, hidle]
  · simp [Moment.events, hturn, Moment.frames, Act.thread?, ht, Turn.events, World.finish, hidle]

/-- An acquisition that is over has been answered by an act of its own. With a reference it is that
to the wrapper which the slot carries at that moment, live and of the identity asked for; with an
error it is that of its last open, whose answer the act is. While a reference that was acquired is
held, the identity has its slot, and an acquisition that looks it up for the first time is given the
same wrapper and calls no opener. -/
theorem acquire_linearizes (p : PoolId) (X : Identity) :
    (∀ (s₀ s : System σ) (t : ThreadId) (ms : List (Moment σ)), s₀.Reachable →
      Called s₀ t (.acquire p X) ms s → s.depth t = s₀.depth t →
      ∃ m earlier result, ms = m :: earlier ∧ m.isOwn t (s₀.depth t) ∧
        m.answer? = some (.acquired result) ∧
        (∀ h, result = .ok h → h ∈ s.held ∧ ∃ x, s.Current p X h x) ∧
        ∀ e, result = .error e → ∃ io observed below, e = .openFailed X io ∧
          m.act = .opened t (.error io) ∧ m.frames = .opening p X observed :: below ∧
          below.length = s₀.depth t) ∧
    (∀ (s : System σ) (Y : Identity) (k : WrapperId), s.Reachable → opensOf p s.history < 2 ^ 64 →
      s.world.isUp p → .acquired p Y k ∈ s.history → k ∈ s.held → Y.Same X →
      (s.world.slot? p X).isSome ∧
      ∀ (s₀ : System σ) (t : ThreadId) (ms : List (Moment σ)) (below : List Frame), s₀.Reachable →
        Called s₀ t (.acquire p X) ms s →
        (∀ m ∈ ms, m.isOwn t (s₀.depth t) → m.looksUp p X = false) →
        s.threads[t]? = some (.lookUp p X :: below) → below.length = s₀.depth t →
        ∃ s', s.next? (.turn t) = some s' ∧ s'.depth t = s₀.depth t ∧
          (⟨s, .turn t⟩ : Moment σ).answer? = some (.acquired (.ok k)) ∧
          ∀ m ∈ ⟨s, .turn t⟩ :: ms, m.isOwn t (s₀.depth t) → ∀ Z, .asked p Z ∉ m.events) := by
  constructor
  · intro s₀ s t ms hs h hover
    cases ms with
    | nil =>
      -- A call that was just made has all left to do.
      obtain ⟨s₁, hcall, hrun⟩ := h.run
      cases hrun
      obtain ⟨below, hd, hacq⟩ := acquires_call hcall
      have := hacq.depth_eq
      simp only [Call.frames, List.length_cons] at this
      omega
    | cons m earlier =>
      obtain ⟨s', a⟩ := m
      obtain ⟨below, own, turn, hd, hmoves, hframes⟩ := h.moves_last hs.sound hover
      obtain ⟨result, hanswer, hok, herror⟩ := hmoves.answered (h.sound hs.sound) hframes
      refine ⟨_, _, result, rfl, hd ▸ hmoves.isOwn, hanswer, hok, fun e he => ?_⟩
      obtain ⟨io, observed, rfl, ha, hfr⟩ := herror e he
      exact ⟨io, observed, below, rfl, ha, hfr, hd⟩
  · intro s Y k hs hp hup ha hk hY
    obtain ⟨x, hc⟩ := hs.current_of_held hp hup ha hk hY
    refine ⟨by simp [hc.slot], fun s₀ t ms below hs₀ h hfirst ht hd => ?_⟩
    obtain ⟨s', hnext, hdepth, hanswer, hasked⟩ := hs.sound.next_lookUp hc ht
    exact ⟨s', hnext, hdepth.trans hd, hanswer,
      List.forall_mem_cons.2 ⟨fun _ => hasked, h.not_asked hs₀.sound hfirst⟩⟩

/-- A thread acquires a file. -/
def meeting : List (Act Unit) :=
  [.spawn, .spawn, .newPool {}, .call 0 (.acquire 0 ⟨.ofString "/a"⟩), .turn 0, .turn 0,
    .opened 0 (.ok ()), .turn 0, .turn 0]

theorem isSome_run_meeting : (({} : System Unit).run? meeting).isSome := by decide +kernel

def met : System Unit := (({} : System Unit).run? meeting).get isSome_run_meeting

theorem reachable_met : met.Reachable := ⟨meeting, (Option.some_get _).symm⟩

/-- Another thread acquires the same file under another spelling, and has drained. -/
def looking : List (Act Unit) := [.call 1 (.acquire 0 ⟨.ofString "//a/."⟩), .turn 1]

/-- Another thread acquires another file, whose open fails. -/
def failing : List (Act Unit) :=
  [.call 1 (.acquire 0 ⟨.ofString "/b"⟩), .turn 1, .turn 1, .opened 1 (.error .noEntry)]

theorem isSome_run_looking : (met.run? looking).isSome := by decide +kernel

theorem isSome_run_failing : (met.run? failing).isSome := by decide +kernel

theorem acquire_linearizes_met :
    met.Reachable ∧
    (∃ s, met.run? looking = some s ∧ opensOf 0 s.history < 2 ^ 64 ∧
      (s.world.slot? 0 ⟨.ofString "//a/."⟩).isSome ∧
      ∃ s', s.next? (.turn 1) = some s' ∧
        (⟨s, .turn 1⟩ : Moment Unit).answer? = some (.acquired (.ok 0))) ∧
    ∃ s ms, met.run? failing = some s ∧ Called met 1 (.acquire 0 ⟨.ofString "/b"⟩) ms s ∧
      ∃ m earlier result, ms = m :: earlier ∧ m.answer? = some (.acquired result) ∧
        ∀ e, result = .error e → ∃ io, e = .openFailed ⟨.ofString "/b"⟩ io := by
  have hlook := (Option.some_get isSome_run_looking).symm
  have hfail := (Option.some_get isSome_run_failing).symm
  have hcall : Called met 1 _ _ _ := called_of_run? hfail (by decide +kernel)
  have hcall' : Called met 1 _ _ _ := called_of_run? hlook (by decide +kernel)
  refine ⟨reachable_met, ⟨_, hlook, ?_⟩, _, _, hfail, hcall, ?_⟩
  · obtain ⟨hslot, hnext⟩ := (acquire_linearizes 0 ⟨.ofString "//a/."⟩).2 _ ⟨.ofString "/a"⟩ 0
      (hcall'.reachable reachable_met) (by decide +kernel) (by unfold World.isUp; decide +kernel)
      (by decide +kernel) (by decide +kernel) (by decide +kernel)
    obtain ⟨s', hs', -, hanswer, -⟩ := hnext met 1 _ [] reachable_met hcall' (by decide +kernel)
      (by decide +kernel) (by decide +kernel)
    exact ⟨by decide +kernel, hslot, s', hs', hanswer⟩
  · obtain ⟨m, earlier, result, hms, -, hanswer, -, herror⟩ :=
      (acquire_linearizes 0 ⟨.ofString "/b"⟩).1 met _ 1 _ reachable_met hcall (by decide +kernel)
    refine ⟨m, earlier, result, hms, hanswer, fun e he => ?_⟩
    obtain ⟨io, -, -, he, -⟩ := herror e he
    exact ⟨io, he⟩

end ReadPool.System
