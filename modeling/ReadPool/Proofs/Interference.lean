import Mathlib
import ReadPool.Proofs.Acquiring

/-!
# What a lost race says

An acquisition loses a race only where the slot is not what it saw at its look-up, and by then
somebody else has changed it. Each of its acts is paid for: an open by the race that it loses or by
the answer, a lost race by a change that others made since the look-up, and the acts of one round
of the loop by the lost race that began it. So an acquisition that others disturb finitely often
comes to its answer.
-/

namespace ReadPool

/-- A race is lost. -/
def LogEvent.isLostRace : LogEvent → Bool
  | lostRace .. => true
  | _ => false

namespace Frame

def isDiscard : Frame → Bool
  | discard _ => true
  | _ => false

/-- What was seen in the table at the last look-up. -/
def observed? : Frame → Option (Option Entry)
  | opening _ _ observed => some observed
  | wrap _ _ observed _ => some observed
  | publish _ _ observed _ => some observed
  | _ => none

end Frame

namespace Moment

variable (t : ThreadId) (d : Nat) (p : PoolId) (X : Identity) (m : Moment σ)

/-- The call that was made with `d` frames on thread `t` opens a raw handle. -/
def opens : Bool := m.isOwn t d && m.events.any (Event.isOpen p)

/-- The call loses a race. -/
def loses : Bool := m.isOwn t d && m.log.any LogEvent.isLostRace

def discards : Bool := m.isOwn t d && m.frames.head?.any Frame.isDiscard

/-- The call is past its drain. -/
def tries : Bool := m.isOwn t d && !m.frames.head?.any Frame.isDrain

/-- The slot is changed, and not by the call. -/
def interferes : Bool := !m.isOwn t d && m.changes p X

end Moment

/-! ## What an act costs -/

section Cost

/-- The table is no longer what an acquisition saw. -/
def stale (w : World σ) (p : PoolId) (X : Identity) (own : List Frame) : Nat :=
  match own.head?.bind Frame.observed? with
  | some observed => if (w.slot? p X).map Slot.entry = observed then 0 else 1
  | none => 0

/-- The raw handles that an acquisition has opened in this round and has not discarded. -/
def inHand : List Frame → Nat
  | [] => 1
  | .wrap .. :: _ => 1
  | .publish .. :: _ => 1
  | _ => 0

def discarding : List Frame → Nat
  | .discard _ :: _ => 1
  | _ => 0

/-- The acts that are left to an acquisition if it loses no further race. -/
def actsLeft : List Frame → Nat
  | [] => 0
  | .publish .. :: _ => 1
  | .wrap .. :: _ => 2
  | .opening .. :: _ => 3
  | .discard _ :: _ => 7
  | .close _ _ _ .lostRace :: _ => 6
  | .closing _ _ _ .lostRace :: _ => 5
  | _ => 4

variable {p : PoolId} {X : Identity} {w : World σ} {own F : List Frame} {a : Act σ} {turn : Turn σ}

/-- Where an acquisition drains or looks up. -/
theorem Purging.costs (hF : Purging p F) (w : World σ) (X : Identity) :
    stale w p X (F ++ [Frame.lookUp p X]) = 0 ∧ inHand (F ++ [Frame.lookUp p X]) = 0 ∧
      discarding (F ++ [Frame.lookUp p X]) = 0 ∧ actsLeft (F ++ [Frame.lookUp p X]) = 4 ∧
      (F ++ [Frame.lookUp p X]).head?.any Frame.isDiscard = false := by
  cases hF <;> simp [stale, inHand, discarding, actsLeft, Frame.observed?, Frame.isDiscard]

namespace Move

variable (h : Move p X w a own turn)
include h

/-- A race is lost where the table is no longer what it was. -/
theorem stale_le : (if turn.log.any LogEvent.isLostRace then 1 else 0)
    + stale turn.world p X turn.frames ≤ stale w p X own := by
  cases h with
  | drain hF hne hF' hdone hframes hanswer hlog =>
    have hnone : turn.log.any LogEvent.isLostRace = false := by
      simp only [List.any_eq_false]
      intro ev hev
      cases ev with
      | lostRace Y entry => exact absurd hev (hlog Y entry)
      | _ => simp [LogEvent.isLostRace]
    rw [hframes, (hF'.costs turn.world X).1, hnone]
    simp
  | opened => exact (Nat.zero_add _).le
  | closed error =>
    cases error <;> simp [stale, Frame.observed?, World.closeReport, LogEvent.isLostRace]
  | _ => simp_all [stale, Frame.observed?, LogEvent.isLostRace]

/-- An open is paid for by what the call has in hand, and that by a lost race. -/
theorem opens_le : (if (turn.events w own).any (Event.isOpen p) then 1 else 0) + inHand own
    ≤ (if turn.log.any LogEvent.isLostRace then 1 else 0) + inHand turn.frames := by
  cases h with
  | @drain a F F' turn hF hne hF' hdone hframes hanswer hlog =>
    rw [(hF.costs w X).2.1, hF.any_events hne _ rfl (fun _ => rfl) fun _ => rfl]
    simp
  | closed error => cases error <;> simp [inHand, Turn.events, Event.isOpen]
  | _ => simp [inHand, Turn.events, Event.isOpen, LogEvent.isLostRace]

theorem discards_le : (if own.head?.any Frame.isDiscard then 1 else 0) + discarding turn.frames
    ≤ (if turn.log.any LogEvent.isLostRace then 1 else 0) + discarding own := by
  cases h with
  | drain hF hne hF' hdone hframes hanswer hlog =>
    rw [hframes, (hF'.costs turn.world X).2.2.1, (hF.costs w X).2.2.2.2]
    simp
  | _ => simp [discarding, Frame.isDiscard, LogEvent.isLostRace]

/-- A lost race pays for all the acts of the round that begins with it. -/
theorem actsLeft_le : (if !own.head?.any Frame.isDrain then 1 else 0) + actsLeft turn.frames
    ≤ 7 * (if turn.log.any LogEvent.isLostRace then 1 else 0) + actsLeft own := by
  cases h with
  | drain hF hne hF' hdone hframes hanswer hlog =>
    rw [hframes, (hF'.costs turn.world X).2.2.2.1, (hF.costs w X).2.2.2.1, hF.isDrain hne]
    simp
  | closed error => cases error <;> simp [actsLeft, Frame.isDrain]
  | _ => simp [actsLeft, Frame.isDrain, LogEvent.isLostRace]

/-- What an acquisition goes by is what it has just seen, or what it went by before. -/
theorem observed {observed : Option Entry}
    (hobs : turn.frames.head?.bind Frame.observed? = some observed) :
    turn.world.slot? p X = w.slot? p X ∧
      (own.head? = some (.lookUp p X) ∧ (w.slot? p X).map Slot.entry = observed ∨
        own.head? ≠ some (.lookUp p X) ∧ own.head?.bind Frame.observed? = some observed) := by
  cases h with
  | drain hF hne hF' hdone hframes =>
    rw [hframes] at hobs
    cases hF' <;> simp [Frame.observed?] at hobs
  | miss => simpa [Frame.observed?] using hobs
  | opened => simpa [Frame.observed?] using hobs
  | wrap => simpa [Frame.observed?] using hobs
  | _ => simp [Frame.observed?] at hobs

end Move

theorem stale_le_one (w : World σ) (p : PoolId) (X : Identity) (own : List Frame) :
    stale w p X own ≤ 1 := by
  unfold stale
  split
  · split <;> simp
  · simp

theorem inHand_le_one (own : List Frame) : inHand own ≤ 1 := by
  unfold inHand
  split <;> simp

theorem stale_congr {w' : World σ} (h : w'.slot? p X = w.slot? p X) (own : List Frame) :
    stale w' p X own = stale w p X own := by
  simp only [stale, h]

end Cost

namespace System

variable {s₀ s s' : System σ} {ms : List (Moment σ)} {a : Act σ} {t : ThreadId} {d : Nat}
  {p : PoolId} {X : Identity} {below own : List Frame} {turn : Turn σ}

/-- The moments since the call looked its identity up for the last time. -/
def SinceLookUp (t : ThreadId) (d : Nat) (p : PoolId) (X : Identity)
    (ms between : List (Moment σ)) : Prop :=
  ∃ look earlier, ms = between ++ look :: earlier ∧ look.isOwn t d ∧ look.looksUp p X ∧
    ∀ m ∈ between, m.isOwn t d → m.looksUp p X = false

/-- The account of an acquisition with `own` left to do: what it has done, and what others have
done to its slot in the meantime. -/
structure Ledger (t : ThreadId) (d : Nat) (p : PoolId) (X : Identity) (own : List Frame)
    (ms : List (Moment σ)) (s : System σ) : Prop where
  lost : ms.countP (Moment.loses t d) + stale s.world p X own
    ≤ ms.countP (Moment.interferes t d p X)
  opened : ms.countP (Moment.opens t d p) ≤ ms.countP (Moment.loses t d) + inHand own
  discarded : ms.countP (Moment.discards t d) + discarding own ≤ ms.countP (Moment.loses t d)
  tried : ms.countP (Moment.tries t d) + actsLeft own ≤ 7 * ms.countP (Moment.loses t d) + 4
  seen : ∀ observed, own.head?.bind Frame.observed? = some observed → ∃ between,
    SinceLookUp t d p X ms between ∧
    ((s.world.slot? p X).map Slot.entry = observed ∨ ∃ m ∈ between, m.interferes t d p X)
  begun : (∃ m ∈ ms, m.isOwn t d ∧ m.looksUp p X) → own.head?.any Frame.isDrain = false

theorem SinceLookUp.cons {between : List (Moment σ)} {m : Moment σ}
    (h : SinceLookUp t d p X ms between) (hm : m.isOwn t d → m.looksUp p X = false) :
    SinceLookUp t d p X (m :: ms) (m :: between) := by
  obtain ⟨look, earlier, rfl, hown, hlook, hbetween⟩ := h
  exact ⟨look, earlier, rfl, hown, hlook, List.forall_mem_cons.2 ⟨hm, hbetween⟩⟩

namespace Ledger

theorem start (s : System σ) : Ledger t d p X (Call.acquire p X).frames [] s where
  lost := by simp [Call.frames, stale, Frame.observed?]
  opened := by simp
  discarded := by simp [Call.frames, discarding]
  tried := by simp [Call.frames, actsLeft]
  seen := by simp [Call.frames, Frame.observed?]
  begun := by simp

/-- Only an act of others that changes the slot shows in the account. -/
theorem other (h : Ledger t d p X own ms s) (ha : s.next? a = some s')
    (hother : (⟨s, a⟩ : Moment σ).isOwn t d = false) : Ledger t d p X own (⟨s, a⟩ :: ms) s' := by
  have hint : (⟨s, a⟩ : Moment σ).interferes t d p X = false →
      s'.world.slot? p X = s.world.slot? p X := by
    simp [Moment.interferes, Moment.changes, hother, ha]
  have hloses : (⟨s, a⟩ : Moment σ).loses t d = false := by simp [Moment.loses, hother]
  constructor
  · -- What was seen goes stale only by a change, which then pays for it.
    have := h.lost
    rw [List.countP_cons, List.countP_cons, hloses]
    cases hi : (⟨s, a⟩ : Moment σ).interferes t d p X with
    | true =>
      have := stale_le_one s'.world p X own
      simp only [if_true, Bool.false_eq_true, if_false]
      omega
    | false =>
      rw [stale_congr (hint hi)]
      exact this
  · simpa [Moment.opens, Moment.loses, hother] using h.opened
  · simpa [Moment.discards, Moment.loses, hother] using h.discarded
  · simpa [Moment.tries, Moment.loses, hother] using h.tried
  · intro observed hobs
    obtain ⟨between, hsince, hseen⟩ := h.seen observed hobs
    refine ⟨_, hsince.cons (by simp [hother]), ?_⟩
    cases hi : (⟨s, a⟩ : Moment σ).interferes t d p X with
    | true => exact .inr ⟨_, List.mem_cons_self, hi⟩
    | false =>
      rw [hint hi]
      exact hseen.imp_right fun ⟨m, hm, h⟩ => ⟨m, List.mem_cons_of_mem _ hm, h⟩
  · simpa [hother] using h.begun

/-- What the account has of an act of the call's own. -/
theorem move (h : Ledger t d p X own ms s) (hm : Moves s a s' t p X below own turn)
    (hd : below.length = d) : Ledger t d p X turn.frames (⟨s, a⟩ :: ms) s' := by
  subst hd
  have hhead : (⟨s, a⟩ : Moment σ).frames.head? = own.head? := by
    rw [hm.frames, List.head?_append_of_ne_nil _ hm.own_ne_nil]
  have hloses : (⟨s, a⟩ : Moment σ).loses t below.length = turn.log.any LogEvent.isLostRace := by
    simp [Moment.loses, hm.isOwn, hm.log]
  constructor
  · have := h.lost
    have := hm.move.stale_le
    rw [List.countP_cons, List.countP_cons, hloses, hm.world]
    omega
  · have := h.opened
    have hopens : (⟨s, a⟩ : Moment σ).opens t below.length p
        = (turn.events s.world own).any (Event.isOpen p) := by
      simp [Moment.opens, hm.isOwn, hm.events]
    have := hm.move.opens_le
    rw [List.countP_cons, List.countP_cons, hloses, hopens]
    omega
  · have := h.discarded
    have hdiscards : (⟨s, a⟩ : Moment σ).discards t below.length
        = own.head?.any Frame.isDiscard := by
      simp [Moment.discards, hm.isOwn, hhead]
    have := hm.move.discards_le
    rw [List.countP_cons, List.countP_cons, hloses, hdiscards]
    omega
  · have := h.tried
    have htries : (⟨s, a⟩ : Moment σ).tries t below.length = !own.head?.any Frame.isDrain := by
      simp [Moment.tries, hm.isOwn, hhead]
    have := hm.move.actsLeft_le
    rw [List.countP_cons, List.countP_cons, hloses, htries]
    omega
  · intro observed hobs
    obtain ⟨hslot, hnow | hbefore⟩ := hm.move.observed hobs
    · -- The act is a look-up, from which the account of what others do begins anew.
      refine ⟨[], ⟨_, ms, rfl, hm.isOwn, by simp [Moment.looksUp, hhead, hnow.1], by simp⟩, .inl ?_⟩
      rw [hm.world, hslot, hnow.2]
    · obtain ⟨between, hsince, hseen⟩ := h.seen observed hbefore.2
      refine ⟨_, hsince.cons fun _ => by simpa [Moment.looksUp, hhead] using hbefore.1, ?_⟩
      rw [hm.world, hslot]
      exact hseen.imp_right fun ⟨m, hm, h⟩ => ⟨m, List.mem_cons_of_mem _ hm, h⟩
  · rintro ⟨m, hmem, hown, hlook⟩
    refine hm.move.isDrain_eq_false ?_
    rcases List.mem_cons.1 hmem with rfl | hold
    · have : own.head? = some (.lookUp p X) := by simpa [Moment.looksUp, hhead] using hlook
      simp [this, Frame.isDrain]
    · exact h.begun ⟨m, hold, hown, hlook⟩

end Ledger

theorem Called.ledger (hs : Sound s₀) (h : Called s₀ t (.acquire p X) ms s) :
    ∃ below own nested, below.length = s₀.depth t ∧ Acquires s t p X below own nested ∧
      Ledger t (s₀.depth t) p X own ms s :=
  h.keeps hs Ledger.start (fun _ _ _ _ _ _ _ ha hother hl => hl.other ha hother)
    fun _ _ _ _ _ _ _ _ hd hm hl => hl.move hm hd

theorem Called.ledger_of_isOwn (hs : Sound s₀) (h : Called s₀ t (.acquire p X) (⟨s, a⟩ :: ms) s')
    (hown : (⟨s, a⟩ : Moment σ).isOwn t (s₀.depth t)) :
    ∃ below own turn, below.length = s₀.depth t ∧ Ledger t (s₀.depth t) p X own ms s ∧
      Moves s a s' t p X below own turn := by
  obtain ⟨h, hlt, ha⟩ := h.tail
  obtain ⟨below, own, nested, hd, hacq, hl⟩ := h.ledger hs
  obtain ⟨-, ⟨turn, hm, -⟩ | ⟨hother, -⟩⟩ := hacq.next (h.sound hs) (hd ▸ hlt) ha
  · exact ⟨below, own, turn, hd, hl, hm⟩
  · rw [hd, hown] at hother
    cases hother

/-- A race is lost to somebody who has changed the slot since the look-up. -/
theorem Called.interferes_of_loses {m : Moment σ} {later earlier : List (Moment σ)} (hs : Sound s₀)
    (h : Called s₀ t (.acquire p X) (later ++ m :: earlier) s) (hm : m.loses t (s₀.depth t)) :
    ∃ between, SinceLookUp t (s₀.depth t) p X earlier between ∧
      ∃ n ∈ between, n.interferes t (s₀.depth t) p X := by
  obtain ⟨s', h⟩ := h.prefix
  obtain ⟨s, a⟩ := m
  obtain ⟨hown, hlog⟩ := Bool.and_eq_true_iff.1 hm
  obtain ⟨below, own, turn, hd, hl, hmoves⟩ := h.ledger_of_isOwn hs hown
  rw [hmoves.log] at hlog
  cases hmoves.move with
  | @lose t' observed k entry hX =>
    obtain ⟨between, hsince, hseen⟩ := hl.seen observed rfl
    exact ⟨between, hsince, hseen.resolve_left hX⟩
  | @drain a F F' turn hF hne hF' hdone hframes hanswer hno =>
    obtain ⟨ev, hev, hlost⟩ := List.any_eq_true.1 hlog
    cases ev with
    | lostRace Y entry => exact absurd hev (hno Y entry)
    | _ => cases hlost
  | closed error => cases error <;> simp [World.closeReport, LogEvent.isLostRace] at hlog
  | _ => simp [LogEvent.isLostRace] at hlog

/-- Once it has looked up, an acquisition does not drain any more. -/
theorem Called.tries_of_isOwn {m : Moment σ} (hs : Sound s₀)
    (h : Called s₀ t (.acquire p X) (m :: ms) s) (hown : m.isOwn t (s₀.depth t))
    (hlooked : ∃ n ∈ ms, n.isOwn t (s₀.depth t) ∧ n.looksUp p X) : m.tries t (s₀.depth t) := by
  obtain ⟨s', a⟩ := m
  obtain ⟨below, own, turn, hd, hl, hm⟩ := h.ledger_of_isOwn hs hown
  have hhead : (⟨s', a⟩ : Moment σ).frames.head? = own.head? := by
    rw [hm.frames, List.head?_append_of_ne_nil _ hm.own_ne_nil]
  simp only [Moment.tries, hown, hhead, hl.begun hlooked, Bool.not_false, Bool.and_self]

/-! ## Runs without end -/

def Endless (f : ℕ → Moment σ) : Prop :=
  ∀ i, (f i).system.next? (f i).act = some (f (i + 1)).system

/-- What has happened since the run began with a call. -/
def past (f : ℕ → Moment σ) : ℕ → List (Moment σ)
  | 0 => []
  | n + 1 => f (n + 1) :: past f n

/-- The call that the run began with goes on. -/
def Pending (f : ℕ → Moment σ) (t : ThreadId) (i : ℕ) : Prop :=
  ∀ j ≤ i, 0 < j → (f 0).system.depth t < (f j).system.depth t

variable {f : ℕ → Moment σ}

theorem Endless.called {c : Call} (hf : Endless f) (hcall : (f 0).act = .call t c) {n : ℕ}
    (hn : Pending f t n) : Called (f 0).system t c (past f n) (f (n + 1)).system := by
  induction n with
  | zero => exact .start (hcall ▸ hf 0)
  | succ n ih =>
    obtain ⟨⟨s₁, hs₁, hrun⟩, hgoing⟩ := ih fun j hj => hn j (by omega)
    exact ⟨⟨s₁, hs₁, hrun.next (hf (n + 1))⟩,
      List.forall_mem_cons.2 ⟨hn (n + 1) le_rfl n.succ_pos, hgoing⟩⟩

theorem mem_past {i n : ℕ} (h0 : 0 < i) (hi : i ≤ n) : f i ∈ past f n := by
  induction n with
  | zero => omega
  | succ n ih =>
    rcases Nat.lt_or_eq_of_le hi with hlt | rfl
    · exact List.mem_cons_of_mem _ (ih (by omega))
    · exact List.mem_cons_self

theorem length_past (n : ℕ) : (past f n).length = n := by
  induction n with
  | zero => rfl
  | succ n ih => rw [past, List.length_cons, ih]

theorem countP_past_mono (P : Moment σ → Bool) {m n : ℕ} (h : m ≤ n) :
    (past f m).countP P ≤ (past f n).countP P := by
  induction n, h using Nat.le_induction with
  | base => exact le_rfl
  | succ n _ ih => exact ih.trans ((List.sublist_cons_self _ _).countP_le)

/-- What happens only in the first moments happens at most so often. -/
theorem countP_past_le {P : Moment σ → Bool} {m : ℕ} (hP : ∀ i ≥ m, P (f i) = false) (n : ℕ) :
    (past f n).countP P ≤ m := by
  rcases Nat.le_total n m with hle | hle
  · exact List.countP_le_length.trans ((length_past n).trans_le hle)
  · induction n, hle using Nat.le_induction with
    | base => exact List.countP_le_length.trans (length_past m).le
    | succ n hn ih => rwa [past, List.countP_cons_of_neg (by simp [hP (n + 1) (by omega)])]

theorem Endless.pending_of_ne (hf : Endless f) (hs : Sound (f 0).system)
    (hcall : (f 0).act = .call t (.acquire p X))
    (hnever : ∀ i > 0, (f i).system.depth t ≠ (f 0).system.depth t) (i : ℕ) : Pending f t i := by
  induction i with
  | zero =>
    intro j hj h0
    omega
  | succ i ih =>
    intro j hj h0
    rcases Nat.lt_or_eq_of_le hj with hlt | rfl
    · exact ih j (by omega) h0
    · -- What the thread had left to do at the call is still there, and is not all.
      obtain ⟨below, own, nested, hd, hacq⟩ := (hf.called hcall ih).acquires hs
      have := hacq.depth_eq
      have := hnever (i + 1) h0
      omega

/-- Others cannot disturb an acquisition for ever without changing its slot for ever. -/
theorem Endless.answered (hf : Endless f) (hs : Sound (f 0).system)
    (hcall : (f 0).act = .call t (.acquire p X))
    (hloop : ∃ i > 0, Pending f t i ∧ (f i).isOwn t ((f 0).system.depth t) ∧ (f i).looksUp p X)
    (hturns : ∀ i, Pending f t i → ∃ j ≥ i, (f j).isOwn t ((f 0).system.depth t))
    (hfinite : ∃ n, ∀ i ≥ n, Pending f t i →
      (f i).interferes t ((f 0).system.depth t) p X = false) :
    ∃ i > 0, (f i).system.depth t = (f 0).system.depth t := by
  by_contra! hnever
  have hpending := hf.pending_of_ne hs hcall hnever
  have hcalled (n : ℕ) := hf.called hcall (hpending n)
  obtain ⟨i, h0, -, hown, hlook⟩ := hloop
  obtain ⟨m, hm⟩ := hfinite
  -- Each round of the loop is paid for by a change of the slot, and there are `m` at the most.
  have hbound (n : ℕ) :
      (past f n).countP (Moment.tries t ((f 0).system.depth t)) ≤ 7 * m + 4 := by
    obtain ⟨_, _, _, -, -, hl⟩ := (hcalled n).ledger hs
    have := hl.lost
    have := hl.tried
    have := countP_past_le (fun i hi => hm i hi (hpending i)) n
    omega
  -- A call that is not answered goes on by turns of its own, none of which drains any more.
  have hunbounded (k : ℕ) :
      ∃ n ≥ i, k ≤ (past f n).countP (Moment.tries t ((f 0).system.depth t)) := by
    induction k with
    | zero => exact ⟨i, le_rfl, Nat.zero_le _⟩
    | succ k ih =>
      obtain ⟨n, hn, hk⟩ := ih
      obtain ⟨j, hj, hown'⟩ := hturns (n + 1) (hpending _)
      obtain ⟨j, rfl⟩ := Nat.exists_eq_add_of_le' (Nat.one_le_of_lt hj)
      have htries := (hcalled (j + 1)).tries_of_isOwn hs hown'
        ⟨f i, mem_past h0 (by omega), hown, hlook⟩
      refine ⟨j + 1, by omega, ?_⟩
      have := countP_past_mono (f := f) (Moment.tries t ((f 0).system.depth t))
        (by omega : n ≤ j)
      rw [past, List.countP_cons_of_pos htries]
      omega
  obtain ⟨n, -, hn⟩ := hunbounded (7 * m + 5)
  have := hbound n
  omega

/-- A race is lost only to a change of the slot by others since the look-up. So an acquisition opens
at most one raw handle more than there are such changes, discards and repeats its loop no more often,
and does not go on for ever where others change the slot finitely often, as long as it gets its
turns and what is called inside its opens and closes comes to an end. -/
theorem lost_races_are_interference (p : PoolId) (X : Identity) (t : ThreadId) :
    (∀ (s₀ s : System σ) (ms : List (Moment σ)), s₀.Reachable →
      Called s₀ t (.acquire p X) ms s →
      (∀ later m earlier, ms = later ++ m :: earlier → m.loses t (s₀.depth t) →
        ∃ between, SinceLookUp t (s₀.depth t) p X earlier between ∧
          ∃ n ∈ between, n.interferes t (s₀.depth t) p X) ∧
      ms.countP (Moment.opens t (s₀.depth t) p)
        ≤ ms.countP (Moment.interferes t (s₀.depth t) p X) + 1 ∧
      ms.countP (Moment.discards t (s₀.depth t))
        ≤ ms.countP (Moment.interferes t (s₀.depth t) p X) ∧
      ms.countP (Moment.tries t (s₀.depth t))
        ≤ 7 * ms.countP (Moment.interferes t (s₀.depth t) p X) + 4) ∧
    ∀ f : ℕ → Moment σ, Endless f → (f 0).system.Reachable →
      (f 0).act = .call t (.acquire p X) →
      (∃ i > 0, Pending f t i ∧ (f i).isOwn t ((f 0).system.depth t) ∧ (f i).looksUp p X) →
      (∀ i, Pending f t i → ∃ j ≥ i, (f j).isOwn t ((f 0).system.depth t)) →
      (∃ n, ∀ i ≥ n, Pending f t i → (f i).interferes t ((f 0).system.depth t) p X = false) →
      ∃ i > 0, (f i).system.depth t = (f 0).system.depth t := by
  refine ⟨fun s₀ s ms hs h => ?_, fun f hf hs => hf.answered hs.sound⟩
  obtain ⟨_, own, _, -, -, hl⟩ := h.ledger hs.sound
  have := hl.lost
  have := hl.opened
  have := hl.discarded
  have := hl.tried
  have := inHand_le_one own
  refine ⟨fun later m earlier hms hm => ?_, by omega, by omega, by omega⟩
  subst hms
  exact h.interferes_of_loses hs.sound hm

/-- A run of these acts, after which only threads are started. -/
def endlessly (s : System σ) : List (Act σ) → ℕ → Moment σ
  | [], i => ⟨{ s with threads := s.threads ++ List.replicate i [] }, .spawn⟩
  | a :: _, 0 => ⟨s, a⟩
  | a :: acts, i + 1 => ((s.next? a).getD s).endlessly acts i

theorem endless_endlessly {acts : List (Act σ)} (h : (s.run? acts).isSome) :
    Endless (s.endlessly acts) := by
  intro i
  induction acts generalizing s i with
  | nil => simp [endlessly, next?, List.replicate_succ']
  | cons a acts ih =>
    obtain ⟨s', hs'⟩ := Option.isSome_iff_exists.1 h
    obtain ⟨s₁, ha, hrun⟩ := Option.bind_eq_some_iff.1 hs'
    have hnext : (s.next? a).getD s = s₁ := by rw [ha, Option.getD_some]
    cases i with
    | zero => cases acts <;> simp [endlessly, ha]
    | succ i => simpa only [endlessly, hnext] using ih (s := s₁) (by simp [hrun]) i

/-- A thread is at work on the open of a file. -/
def overtaking : List (Act Unit) :=
  [.spawn, .spawn, .newPool {}, .call 1 (.acquire 0 ⟨.ofString "/a"⟩), .turn 1, .turn 1]

theorem isSome_run_overtaking : (({} : System Unit).run? overtaking).isSome := by decide +kernel

def overtaken : System Unit := (({} : System Unit).run? overtaking).get isSome_run_overtaking

theorem reachable_overtaken : overtaken.Reachable := ⟨overtaking, (Option.some_get _).symm⟩

/-- Another one opens the file too, is late, and comes back with what the first has published. -/
def losing : List (Act Unit) :=
  [.call 0 (.acquire 0 ⟨.ofString "/a"⟩), .turn 0, .turn 0, .opened 1 (.ok ()), .turn 1, .turn 1,
    .opened 0 (.ok ()), .turn 0, .turn 0, .turn 0, .turn 0, .closed 0 none, .turn 0]

theorem isSome_run_losing : (overtaken.run? losing).isSome := by decide +kernel

theorem lost_races_are_interference_overtaken :
    overtaken.Reachable ∧
    (∃ s ms m later earlier, overtaken.run? losing = some s ∧
      Called overtaken 0 (.acquire 0 ⟨.ofString "/a"⟩) ms s ∧ ms = later ++ m :: earlier ∧
      m.loses 0 0 ∧ ms.countP (Moment.opens 0 0 0) = 1 ∧
      ∃ between, SinceLookUp 0 0 0 ⟨.ofString "/a"⟩ earlier between ∧
        ∃ n ∈ between, n.interferes 0 0 0 ⟨.ofString "/a"⟩) ∧
    ∃ i > 0, (overtaken.endlessly losing i).system.depth 0 = 0 := by
  have hrun := (Option.some_get isSome_run_losing).symm
  have hcall : Called overtaken 0 _ _ _ := called_of_run? hrun (by decide +kernel)
  obtain ⟨hacts, hends⟩ := lost_races_are_interference 0 ⟨.ofString "/a"⟩ 0
  have hany : (overtaken.moments losing).dropLast.any (Moment.loses 0 0) := by decide +kernel
  obtain ⟨m, hm, hloses⟩ := List.any_eq_true.1 hany
  obtain ⟨later, earlier, hsplit⟩ := List.append_of_mem hm
  refine ⟨reachable_overtaken,
    ⟨_, _, _, _, _, hrun, hcall, hsplit, hloses, by decide +kernel, ?_⟩, ?_⟩
  · exact (hacts overtaken _ _ reachable_overtaken hcall).1 _ _ _ hsplit hloses
  · have hover {i : ℕ} (hi : Pending (overtaken.endlessly losing) 0 i) : i < 13 := by
      by_contra hge
      exact absurd (hi 13 (by omega) (by omega)) (by decide +kernel)
    refine hends (overtaken.endlessly losing) (endless_endlessly isSome_run_losing)
      reachable_overtaken rfl ⟨2, by omega, by unfold Pending; decide +kernel, by decide +kernel,
        by decide +kernel⟩ (fun i hi => ⟨12, ?_, by decide +kernel⟩) ⟨13, fun i hge hi => ?_⟩
    · have := hover hi
      omega
    · have := hover hi
      omega

end System

end ReadPool
