import Mathlib
import ReadPool.Proofs.DrainAccount

/-!
# Drain loops end and count exactly

The loop of a drain takes from a queue to which the closes that it runs may post, and which other
loops may drain from inside those closes. `Draining` has what is true of all these loops at any
moment, read off their account, and `Drained` what is true when the drain returns. A drain that is
called from inside a close is one that is called in a reachable state, so both say of it what they
say of the outermost.

Every act is paid for by a death that waited, by a stream that was referenced or by a call
(`Reckoning.price`), so a drain whose closes publish and call finitely often comes to its end.
-/

namespace ReadPool

namespace System

variable {s₀ s s' : System σ} {ms : List (Moment σ)} {a : Act σ} {p q : PoolId}
  {below own rest top : List Frame} {f : Frame}

/-! ## At any moment -/

/-- What is true of a drain that was called in `s₀`, and of all that its closes have called, after
the moments `ms`. -/
structure Draining (s₀ : System σ) (ms : List (Moment σ)) (s : System σ) : Prop where
  /-- Deaths are received in the order in which they were posted. -/
  order : ∀ q, received q ms ++ s.world.pending q = s₀.world.pending q ++ posted q ms
  /-- All loops on a pool together receive no more than has waited, was referenced, and has been
  published since. -/
  length_received_le : ∀ q, (received q ms).length
    ≤ (s₀.world.pending q).length + s₀.world.livesOf q + ms.countP (Moment.publishes q)
  /-- A loop has counted what was received, since its call, at its own place in the stack. -/
  count_eq : ∀ above q n rest, s.threads[0]? = some (above ++ .receive q n :: rest) →
    s₀.depth 0 ≤ rest.length →
    n = (sinceLoop rest.length ms).countP (Moment.receivesAt q rest.length)
  /-- The loop of a drain that ends answers what it has counted. -/
  answer : ∀ q n rest, s.threads[0]? = some (.receive q n :: rest) → isIdle rest →
    s.world.pending q = [] → (⟨s, .turn 0⟩ : Moment σ).answer? = some (.purged n)
  /-- What was received is in the count of one loop, of one that has ended or of one that stands. -/
  length_received : ∀ q, (received q ms).length = (ms.map (Moment.settles q)).sum
    + (((s.threads[0]?.getD []).take (s.depth 0 - s₀.depth 0)).map (Frame.counts q)).sum
  /-- A close is about to begin where the death was received, and then its slot taken out, just
  before; or where the death has found no queue. -/
  evicted : ∀ raw X entry cause rest,
    s.threads[0]? = some (.close raw X entry cause :: rest) → s₀.depth 0 ≤ rest.length →
    (∃ q m m' earlier, ms = m :: m' :: earlier ∧ m'.receives q = [⟨X, entry, raw⟩] ∧
      m.frames.head? = some (.evict q ⟨X, entry, raw⟩) ∧
      (s.world.slot? q X).map Slot.entry ≠ some entry) ∨
    ∃ q m earlier, ms = m :: earlier ∧ m.frames.head? = some (.post q ⟨X, entry, raw⟩) ∧
      ¬ m.system.world.isUp q
  /-- Each death that has waited takes four acts at the most, each stream that was referenced five,
  and each call ten. -/
  turns_le : ms.countP (fun m => m.act.thread?.isSome)
    ≤ 1 + s₀.world.price + 10 * ms.countP fun m => m.act.isCall
  /-- A drain that is not over can go on. -/
  exists_next : s₀.depth 0 < s.depth 0 →
    ∃ (a : Act σ) (s' : System σ), (⟨s, a⟩ : Moment σ).nests ∧ s.next? a = some s'

/-- A loop that ends answers, unless an acquisition waits for it. -/
theorem answer?_turn {n : Nat} (hframes : s.threads[0]? = some (.receive q n :: rest))
    (hidle : isIdle rest) (hq : s.world.pending q = []) :
    (⟨s, .turn 0⟩ : Moment σ).answer? = some (.purged n) := by
  have hm : (⟨s, .turn 0⟩ : Moment σ).frames = .receive q n :: rest := by
    simp [Moment.frames, Act.thread?, hframes]
  have hstep : s.world.step (.receive q n :: rest) = _ := (World.Yields.drained hq).step rfl
  simp [Moment.answer?, Moment.turn?, hm, Act.turn?, hstep, World.finish, hidle]

namespace Nesting

/-- Only the frame on top counts, where the frames below count for nothing. -/
theorem sum_eq (hn : Nesting s p below own) {g : Frame → ℕ}
    (hg : ∀ f : Frame, f.isLower → g f = 0) : (own.map g).sum = own.head?.elim 0 g := by
  cases own with
  | nil => rfl
  | cons f rest =>
    have hrest : (rest.map g).sum = 0 := by
      refine List.sum_eq_zero fun n hmem => ?_
      obtain ⟨f', hf', rfl⟩ := List.mem_map.1 hmem
      exact hg f' (hn.lower f' hf')
    simp [hrest]

theorem unpublished_le (hn : Nesting s p below own) : (own.map Frame.unpublished).sum ≤ 1 := by
  rw [hn.sum_eq fun f hf => by cases f <;> first | rfl | cases hf]
  cases own with
  | nil => exact Nat.zero_le 1
  | cons f rest => cases f <;> simp [Frame.unpublished]

/-- A wrapper that is to be published is referenced. -/
theorem publishing_le (hn : Nesting s p below own) (hs : Sound s) (q : PoolId) :
    (own.map (Frame.publishing q)).sum ≤ s.world.livesOf q := by
  rw [hn.sum_eq fun f hf => by cases f <;> first | rfl | cases hf]
  cases own with
  | nil => exact Nat.zero_le _
  | cons f rest =>
    cases f with
    | publish r X observed h =>
      have hmem : .publish r X observed h ∈ s.scene.frames := by
        simp [scene, frames_eq hn.threads]
      obtain ⟨x, raw, hx, hstrong, -⟩ := hs.valid.referenced.exists_of_trial
        (mem_collect.2 ⟨_, hmem, Multiset.mem_singleton_self h⟩)
      obtain ⟨-, y, hy, hhome, -⟩ := hs.valid.grounded.frames _ hmem
      obtain rfl : x = y := Option.some.inj (hx.symm.trans hy)
      have hpos := World.livesOf_pos hx (hstrong ▸ zero_lt_one)
      by_cases hrq : r = q
      · rw [hhome, hrq] at hpos
        simpa [Frame.publishing, hrq, scene] using Nat.succ_le_of_lt hpos
      · simp [Frame.publishing, hrq]
    | _ => exact Nat.zero_le _

end Nesting

theorem Reckoning.draining (ht : Reckoning s₀ below.length ms s own) (hn : Nesting s p below own)
    (hs : Sound s) (hbelow : s₀.threads = [below]) : Draining s₀ ms s := by
  have hthread : s.threads[0]? = some (own ++ below) := by rw [hn.threads]; rfl
  have hdepth := depth_lone hbelow
  constructor
  · exact ht.order
  · intro q
    have horder := congrArg List.length (ht.order q)
    have hlives := ht.lives q
    have hpublishing := hn.publishing_le hs q
    simp only [List.length_append] at horder
    omega
  · intro above q n rest hframes hle
    rw [hthread, Option.some.injEq] at hframes
    rcases exists_of_append_eq hframes with ⟨inner, -, hbelow⟩ | ⟨inner, hown, rfl⟩
    · -- It would be below the drain.
      have := congrArg List.length hbelow
      simp only [List.length_append, List.length_cons] at this
      omega
    · simpa using ht.loops above q n inner hown
  · exact fun q n rest hframes hidle hq => answer?_turn hframes hidle hq
  · intro q
    have htake : (own ++ below).take (s.depth 0 - s₀.depth 0) = own :=
      List.take_left' (by rw [hn.depth_eq, hdepth, Nat.add_sub_cancel])
    rw [hthread, Option.getD_some, htake]
    exact ht.account q
  · intro raw X entry cause rest hframes hle
    rw [hthread, Option.some.injEq] at hframes
    cases own with
    | nil =>
      have := congrArg List.length hframes
      simp only [List.nil_append, List.length_cons] at this
      omega
    | cons f own =>
      obtain ⟨rfl, -⟩ := List.cons_eq_cons.1 hframes
      exact ht.closing raw X entry cause rfl
  · have := ht.price
    omega
  · intro hlt
    obtain ⟨a, s', hnests, -, ha⟩ := hn.exists_next (hn.ne_nil_iff.2 (hdepth ▸ hlt))
    exact ⟨a, s', hnests, ha⟩

/-! ## When it returns -/

/-- What is true of a drain of `p` that was called in `s₀` and has returned after the moments
`ms`. -/
structure Drained (s₀ : System σ) (p : PoolId) (ms : List (Moment σ)) (s : System σ) : Prop where
  threads : s.threads = s₀.threads
  pending : s.world.pending p = []
  /-- It answers how often it has received itself. -/
  answer : ∃ m earlier, ms = m :: earlier ∧
    m.answer? = some (.purged (ms.countP (Moment.receivesAt p (s₀.depth 0))))
  /-- Where no close calls, that is as many deaths as have waited. -/
  alone : (∀ m ∈ ms, m.act.isCall = false) →
    ms.countP (Moment.receivesAt p (s₀.depth 0)) = (s₀.world.pending p).length
  /-- A drain that is called next finds nothing, and leaves all as it is. -/
  again : ∃ s₁, s.next? (.call 0 (.purge p)) = some s₁ ∧
    (⟨s₁, .turn 0⟩ : Moment σ).answer? = some (.purged 0) ∧
    s₁.next? (.turn 0) = some { s with history := .drained p :: s.history }

/-- A drain whose closes call nothing has `own` left to do above `d` frames: it receives all that it
receives by itself, and posts nothing. -/
structure Undisturbed (p : PoolId) (d : Nat) (ms : List (Moment σ)) (own : List Frame) : Prop where
  purging : Purging p own
  posted_eq : posted p ms = []
  count_eq : ms.countP (Moment.receivesAt p d) = (received p ms).length

theorem Undisturbed.go (h : Undisturbed p below.length ms (f :: rest))
    (hn : Nesting s p below (f :: rest)) (hg : Goes s a s' below f rest top) :
    Undisturbed p below.length (⟨s, a⟩ :: ms) (top ++ rest) where
  purging := h.purging.steps hg.steps
  posted_eq := by
    rw [posted_cons, h.posted_eq, hg.posts, h.purging.posts_eq_nil, List.append_nil]
  count_eq := by
    have hreceives : (⟨s, a⟩ : Moment σ).receivesAt p below.length
        = decide (f.receives p s.world ≠ []) := by
      rw [Moment.receivesAt, hg.receives]
      rcases h.purging.rest_eq_nil_or p s.world with rfl | hnone
      · simp [hn.depth_eq, Nat.add_comm]
      · simp [hnone]
    rw [List.countP_cons, hreceives, h.count_eq, received_cons, hg.receives, List.length_append,
      Frame.length_receives]
    simp

theorem Called.undisturbed (hs : Sound s₀) (hbelow : s₀.threads = [below])
    (h : Called s₀ 0 (.purge p) ms s) (hms : ∀ m ∈ ms, m.nests)
    (hcalls : ∀ m ∈ ms, m.act.isCall = false) : ∃ own, Undisturbed p below.length ms own := by
  obtain ⟨own, -, hundisturbed⟩ := h.nesting hs hbelow hms
    (Q := fun ms _ own =>
      (∀ m ∈ ms, m.act.isCall = false) → Undisturbed p below.length ms own)
    (fun _ _ _ => ⟨.receive 0, rfl, rfl⟩)
    (fun _ _ _ _ _ _ _ _ _ hcalls => absurd (hcalls _ List.mem_cons_self) (by simp [Act.isCall]))
    fun _ _ _ _ _ _ _ hn hg ih hcalls =>
      (ih fun m hm => hcalls m (List.mem_cons_of_mem _ hm)).go hn hg
  exact ⟨own, hundisturbed hcalls⟩

/-- A drain that is called where nothing waits ends at once. -/
theorem Nesting.again (hn : Nesting s p below []) (hq : s.world.pending p = []) :
    ∃ s₁, s.next? (.call 0 (.purge p)) = some s₁ ∧
      (⟨s₁, .turn 0⟩ : Moment σ).answer? = some (.purged 0) ∧
      s₁.next? (.turn 0) = some { s with history := .drained p :: s.history } := by
  have hthreads : s.threads = [below] := hn.threads
  refine ⟨{ s with threads := [.receive p 0 :: below] }, ?_, answer?_turn rfl hn.waits hq, ?_⟩
  · simp [next?, hthreads, hn.waits, admits, hn.isOpen, Call.frames, afterCall]
  · have hstep : s.world.step (.receive p 0 :: below) = _ := (World.Yields.drained hq).step rfl
    simp [next?, hstep, take, Turn.events, hq, hthreads]

/-- Where the drain has returned, nothing of it is left. -/
theorem Called.nesting_nil (hs : Sound s₀) (hbelow : s₀.threads = [below])
    (h : Called s₀ 0 (.purge p) ms s) (hms : ∀ m ∈ ms, m.nests) (hdepth : s.depth 0 = s₀.depth 0) :
    Nesting s p below [] := by
  obtain ⟨own, hn, -⟩ := h.reckoning hs hbelow hms
  have hown : own = [] := by
    rw [hn.depth_eq, depth_lone hbelow] at hdepth
    exact List.length_eq_zero_iff.1 (by omega)
  exact hown ▸ hn

/-- The last act of a drain is to find that nothing is left to receive. -/
theorem Nesting.last_turn (hs : Sound s) (hn : Nesting s p below own) (hne : own ≠ [])
    (hm : (⟨s, a⟩ : Moment σ).nests) (ha : s.next? a = some s')
    (hdepth : s'.depth 0 = below.length) :
    ∃ n, own = [.receive p n] ∧ s.world.pending p = [] ∧ a = .turn 0 := by
  cases hthread : a.thread? with
  | some t =>
    obtain ⟨f, rest, rfl⟩ := List.exists_cons_of_ne_nil hne
    obtain ⟨top, hg, hn'⟩ := Nesting.next_turn hs hn hthread ha
    obtain ⟨rfl, rfl⟩ : top = [] ∧ rest = [] := by
      rw [hn'.depth_eq] at hdepth
      simpa using hdepth
    obtain ⟨inner, n, hlast⟩ := hn.last.resolve_left fun h => hne h.1
    obtain rfl : f = .receive p n := by cases inner <;> simp_all
    have hsteps := hg.steps
    refine ⟨n, rfl, ?_, ?_⟩
    · generalize s'.world = w' at hsteps
      cases hsteps with
      | drained hq => exact hq
    · have hg0 := hg.thread
      cases a with
      | turn t => exact congrArg Act.turn (Option.some.inj hg0)
      | opened t => simp [next?, Option.some.inj hg0, hn.threads, World.opened] at ha
      | closed t => simp [next?, Option.some.inj hg0, hn.threads, World.closed] at ha
      | retired t => simp [next?, Option.some.inj hg0, hn.threads, World.retired] at ha
      | _ => cases hg0
  | none =>
    cases a with
    | call t c =>
      obtain ⟨-, -, hn'⟩ := hn.next_call hne hm ha
      rw [hn'.depth_eq, List.length_append] at hdepth
      have := List.length_pos_iff.2 hne
      omega
    | turn | opened | closed | retired => cases hthread
    | _ => cases hm

theorem Called.sinceLoop_eq {c : Call} (h : Called s₀ 0 c ms s) :
    sinceLoop (s₀.depth 0) ms = ms :=
  List.takeWhile_eq_self_iff.2 fun m hm => by simpa using h.going m hm

theorem Called.drained (hs : Sound s₀) (hbelow : s₀.threads = [below])
    (h : Called s₀ 0 (.purge p) ms s) (hms : ∀ m ∈ ms, m.nests) (hdepth : s.depth 0 = s₀.depth 0) :
    Drained s₀ p ms s := by
  have hd := depth_lone hbelow
  have hnil := h.nesting_nil hs hbelow hms hdepth
  have hpending : s.world.pending p = [] := by
    rcases hnil.last with h | ⟨inner, n, h⟩
    · exact h.2
    · simp at h
  refine ⟨hnil.threads.trans hbelow.symm, hpending, ?_, fun hcalls => ?_, hnil.again hpending⟩
  · cases ms with
    | nil =>
      obtain ⟨s₁, hcall, hrun⟩ := h.run
      cases hrun
      obtain ⟨-, hn⟩ := Nesting.call hbelow hcall
      rw [hn.depth_eq, hd] at hdepth
      simp at hdepth
    | cons m earlier =>
      obtain ⟨s', a⟩ := m
      refine ⟨_, earlier, rfl, ?_⟩
      obtain ⟨hm, hearlier⟩ := List.forall_mem_cons.1 hms
      obtain ⟨hcalled, hlt, ha⟩ := h.tail
      obtain ⟨own, hn, ht⟩ := hcalled.reckoning hs hbelow hearlier
      obtain ⟨n, rfl, hq, rfl⟩ := hn.last_turn (hcalled.sound hs)
        (hn.ne_nil_iff.2 (hd ▸ hlt)) hm ha (hdepth.trans hd)
      -- The loop has counted what it received, and the last act is no receipt.
      have hcount : n = earlier.countP (Moment.receivesAt p (s₀.depth 0)) := by
        have hloop := ht.loops [] p n [] rfl
        rwa [List.length_nil, Nat.zero_add, ← hd, hcalled.sinceLoop_eq] at hloop
      have hthread : s'.threads[0]? = some (.receive p n :: below) := by rw [hn.threads]; rfl
      have hnone : (⟨s', .turn 0⟩ : Moment σ).receives p = [] := by
        simp [Moment.receives, Moment.frames, Act.thread?, hthread, Frame.receives, hq]
      rw [answer?_turn hthread hn.waits hq, List.countP_cons_of_neg, ← hcount]
      simp [Moment.receivesAt, hnone]
  · obtain ⟨own, hun⟩ := h.undisturbed hs hbelow hms hcalls
    obtain ⟨own', -, ht⟩ := h.reckoning hs hbelow hms
    have horder := ht.order p
    rw [hpending, hun.posted_eq, List.append_nil, List.append_nil] at horder
    rw [hd, hun.count_eq, horder]

/-! ## That it returns -/

variable {f : ℕ → Moment σ}

theorem exists_of_mem_past {n : ℕ} {m : Moment σ} (h : m ∈ past f n) :
    ∃ i, 0 < i ∧ i ≤ n ∧ f i = m := by
  induction n with
  | zero => cases h
  | succ n ih =>
    rcases List.mem_cons.1 h with rfl | h
    · exact ⟨n + 1, n.succ_pos, le_rfl, rfl⟩
    · obtain ⟨i, h0, hi, rfl⟩ := ih h
      exact ⟨i, h0, hi.trans n.le_succ, rfl⟩

/-- Where drains nest, a thread goes on or a close calls. -/
theorem length_eq_of_nests (hms : ∀ m ∈ ms, m.nests) :
    ms.length = ms.countP (fun m => m.act.thread?.isSome) + ms.countP fun m => m.act.isCall := by
  rw [List.length_eq_countP_add_countP fun m : Moment σ => m.act.thread?.isSome]
  congr 1
  refine List.countP_congr fun m hm => ?_
  have hnests := hms m hm
  obtain ⟨s, a⟩ := m
  cases a with
  | call | turn | opened | closed | retired => simp [Act.thread?, Act.isCall]
  | _ => cases hnests

theorem isSome_caller? {m : Moment σ} (hm : m.nests) (hcall : m.act.isCall) : m.caller?.isSome := by
  obtain ⟨s, a⟩ := m
  cases a with
  | call => exact (Bool.and_eq_true_iff.1 hm).2
  | _ => cases hcall

/-- A close that calls has a raw handle. -/
theorem Sound.caller?_lt (hs : Sound s) {raw : RawId}
    (h : (⟨s, a⟩ : Moment σ).caller? = some raw) : raw < s.world.raws.length := by
  cases a with
  | call t c =>
    obtain ⟨f, hf, hraw⟩ := Option.bind_eq_some_iff.1 h
    obtain ⟨frames, ht, hf⟩ := Option.bind_eq_some_iff.1 hf
    have hmem : f ∈ s.scene.frames :=
      List.mem_flatten.2 ⟨frames, List.mem_of_getElem? ht, List.mem_of_mem_head? hf⟩
    refine hs.valid.owned.lt_of_mem_raws (Scene.mem_raws_of_frame hmem ?_)
    cases f with
    | closing => exact Multiset.mem_singleton.2 (Option.some.inj hraw).symm
    | _ => cases hraw
  | _ => cases h

section

variable (hf : Endless f) (hs : Sound (f 0).system) (hbelow : (f 0).system.threads = [below])
  (hcall : (f 0).act = .call 0 (.purge p)) (hnests : ∀ i > 0, Pending f 0 i → (f i).nests)

theorem nests_past (hnests : ∀ i > 0, Pending f 0 i → (f i).nests) {n : ℕ} (hn : Pending f 0 n) :
    ∀ m ∈ past f n, m.nests := by
  intro m hm
  obtain ⟨i, h0, hi, rfl⟩ := exists_of_mem_past hm
  exact hnests i h0 fun j hj => hn j (hj.trans hi)

include hf hs hbelow hcall hnests

theorem Endless.reckoning {n : ℕ} (hn : Pending f 0 n) :
    ∃ own, Nesting (f (n + 1)).system p below own ∧
      Reckoning (f 0).system below.length (past f n) (f (n + 1)).system own :=
  (hf.called hcall hn).reckoning hs hbelow (nests_past hnests hn)

/-- A drain that does not return goes on for ever. -/
theorem Endless.pending_of_never
    (hnever : ∀ n, Pending f 0 n → (f (n + 1)).system.depth 0 ≠ (f 0).system.depth 0) (n : ℕ) :
    Pending f 0 n := by
  induction n with
  | zero =>
    intro j hj h0
    omega
  | succ n ih =>
    intro j hj h0
    rcases Nat.lt_or_eq_of_le hj with hlt | rfl
    · exact ih j (by omega) h0
    · obtain ⟨own, hn, -⟩ := hf.reckoning hs hbelow hcall hnests ih
      have hd := depth_lone hbelow
      have := hn.depth_eq
      have := hnever n ih
      omega

/-- A drain cannot go on for ever where its closes publish and call finitely often. -/
theorem Endless.returns {k : ℕ}
    (hk : ∀ n, Pending f 0 n → (past f n).countP Moment.isPublishing ≤ k)
    (hfinite : ∀ raw, ∃ n, ∀ i ≥ n, Pending f 0 i → (f i).caller? ≠ some raw) :
    ∃ n, Pending f 0 n ∧ (f (n + 1)).system.depth 0 = (f 0).system.depth 0 := by
  by_contra! hnever
  have hpending := hf.pending_of_never hs hbelow hcall hnests hnever
  choose last hlast using hfinite
  have hraws (n : ℕ) :
      (f (n + 1)).system.world.raws.length ≤ (f 0).system.world.raws.length + k + 1 := by
    obtain ⟨own, hn, ht⟩ := hf.reckoning hs hbelow hcall hnests (hpending n)
    have := ht.raws
    have := hn.unpublished_le
    have := hk n (hpending n)
    omega
  -- There are so many raw handles at the most, and at some moment each of them has called for the
  -- last time.
  obtain ⟨m, hm⟩ : ∃ m, ∀ i ≥ m, (f i).act.isCall = false := by
    refine ⟨(Finset.range ((f 0).system.world.raws.length + k + 1)).sup last + 1, fun i hi => ?_⟩
    obtain ⟨i, rfl⟩ := Nat.exists_eq_add_of_le' (Nat.one_le_of_lt hi)
    by_contra hcalls
    obtain ⟨raw, hraw⟩ := Option.isSome_iff_exists.1 <|
      isSome_caller? (hnests (i + 1) i.succ_pos (hpending (i + 1))) (Bool.not_eq_false _ ▸ hcalls)
    have hlt := ((hf.called hcall (hpending i)).sound hs).caller?_lt hraw
    have hle : last raw ≤ _ := Finset.le_sup (f := last)
      (Finset.mem_range.2 (hlt.trans_le (hraws i)))
    exact hlast raw (i + 1) (hle.trans (by omega)) (hpending (i + 1)) hraw
  have hlength (n : ℕ) : n ≤ 1 + (f 0).system.world.price + 11 * m := by
    obtain ⟨own, hn, ht⟩ := hf.reckoning hs hbelow hcall hnests (hpending n)
    have := length_eq_of_nests (nests_past hnests (hpending n))
    have := length_past (f := f) n
    have := ht.price
    have := countP_past_le (P := fun m => m.act.isCall) hm n
    omega
  have := hlength (2 + (f 0).system.world.price + 11 * m)
  omega

end

/-- A lone thread drains a pool, and the closes that this runs let references go, drain and acquire,
from inside each other. At any moment, all loops on a pool have received, in the order posted, no
more than has waited, was referenced and has been published since, and each has counted what it
received itself. Where the closes publish and call finitely often, the drain returns, with the queue
empty and its own count as the answer: where nothing calls, that is how many deaths have waited. -/
theorem drain_loop_ends (p : PoolId) :
    (∀ (s₀ s : System σ) (ms : List (Moment σ)), s₀.Reachable → s₀.threads.length = 1 →
      Called s₀ 0 (.purge p) ms s → (∀ m ∈ ms, m.nests) →
      Draining s₀ ms s ∧ (s.depth 0 = s₀.depth 0 → Drained s₀ p ms s)) ∧
    ∀ (f : ℕ → Moment σ) (k : ℕ), Endless f → (f 0).system.Reachable →
      (f 0).system.threads.length = 1 → (f 0).act = .call 0 (.purge p) →
      (∀ i > 0, Pending f 0 i → (f i).nests) →
      (∀ n, Pending f 0 n → (past f n).countP Moment.isPublishing ≤ k) →
      (∀ raw, ∃ n, ∀ i ≥ n, Pending f 0 i → (f i).caller? ≠ some raw) →
      ∃ n, Called (f 0).system 0 (.purge p) (past f n) (f (n + 1)).system ∧
        Drained (f 0).system p (past f n) (f (n + 1)).system ∧
        (received p (past f n)).length
          ≤ ((f 0).system.world.pending p).length + (f 0).system.world.livesOf p + k := by
  have account {s₀ s : System σ} {ms : List (Moment σ)} (hs : s₀.Reachable)
      (hlone : s₀.threads.length = 1) (h : Called s₀ 0 (.purge p) ms s)
      (hms : ∀ m ∈ ms, m.nests) :
      Draining s₀ ms s ∧ (s.depth 0 = s₀.depth 0 → Drained s₀ p ms s) := by
    obtain ⟨below, hbelow⟩ := List.length_eq_one_iff.1 hlone
    obtain ⟨own, hn, ht⟩ := h.reckoning hs.sound hbelow hms
    exact ⟨ht.draining hn (h.sound hs.sound) hbelow, h.drained hs.sound hbelow hms⟩
  refine ⟨fun s₀ s ms hs hlone h hms => account hs hlone h hms,
    fun f k hf hs hlone hcall hnests hk hfinite => ?_⟩
  obtain ⟨below, hbelow⟩ := List.length_eq_one_iff.1 hlone
  obtain ⟨n, hn, hdepth⟩ := hf.returns hs.sound hbelow hcall hnests hk hfinite
  have hcalled := hf.called hcall hn
  obtain ⟨hdraining, hdrained⟩ := account hs hlone hcalled (nests_past hnests hn)
  refine ⟨n, hcalled, hdrained hdepth, ?_⟩
  have := hdraining.length_received_le p
  have := hk n hn
  have hle : (past f n).countP (Moment.publishes p) ≤ (past f n).countP Moment.isPublishing :=
    List.countP_mono_left fun m _ hm => (Bool.and_eq_true_iff.1 hm).1
  omega

/-- A thread holds two files and lets go of one. -/
def parting : List (Act Unit) :=
  [.spawn, .newPool {}, .call 0 (.acquire 0 ⟨.ofString "/a"⟩), .turn 0, .turn 0,
    .opened 0 (.ok ()), .turn 0, .turn 0, .call 0 (.acquire 0 ⟨.ofString "/b"⟩), .turn 0, .turn 0,
    .opened 0 (.ok ()), .turn 0, .turn 0, .call 0 (.drop 0), .turn 0, .turn 0]

theorem isSome_run_parting : (({} : System Unit).run? parting).isSome := by decide +kernel

def parted : System Unit := (({} : System Unit).run? parting).get isSome_run_parting

theorem reachable_parted : parted.Reachable := ⟨parting, (Option.some_get _).symm⟩

/-- The thread drains. The close lets the other file go, drains, and opens the first one anew. -/
def reentering : List (Act Unit) :=
  [.call 0 (.purge 0), .turn 0, .turn 0, .turn 0, .call 0 (.drop 1), .turn 0, .turn 0,
    .call 0 (.purge 0), .turn 0, .turn 0, .turn 0, .closed 0 none, .turn 0,
    .call 0 (.acquire 0 ⟨.ofString "/a"⟩), .turn 0, .turn 0, .opened 0 (.ok ()), .turn 0, .turn 0,
    .closed 0 (some .busy), .turn 0]

theorem isSome_run_reentering : (parted.run? reentering).isSome := by decide +kernel

theorem drain_loop_ends_reentered :
    parted.Reachable ∧ parted.threads.length = 1 ∧
    (∃ s ms, parted.run? reentering = some s ∧ Called parted 0 (.purge 0) ms s ∧
      (received 0 ms).length = 2 ∧ ms.countP (Moment.receivesAt 0 0) = 1 ∧ Draining parted ms s ∧
      Drained parted 0 ms s) ∧
    ∃ n, Drained parted 0 (past (parted.endlessly reentering) n)
      (parted.endlessly reentering (n + 1)).system := by
  have hrun := (Option.some_get isSome_run_reentering).symm
  have hcalled : Called parted 0 _ _ _ := called_of_run? hrun (by decide +kernel)
  have hlone : parted.threads.length = 1 := by decide +kernel
  obtain ⟨haccount, hends⟩ := drain_loop_ends 0
  obtain ⟨hdraining, hdrained⟩ :=
    haccount parted _ _ reachable_parted hlone hcalled (by decide +kernel)
  refine ⟨reachable_parted, hlone, ⟨_, _, hrun, hcalled, by decide +kernel, by decide +kernel,
    hdraining, hdrained (by decide +kernel)⟩, ?_⟩
  have hover {i : ℕ} (hi : Pending (parted.endlessly reentering) 0 i) : i < 21 := by
    by_contra hge
    exact absurd (hi 21 (by omega) (by omega)) (by decide +kernel)
  have hnests : ∀ i < 21, 0 < i → (parted.endlessly reentering i).nests := by decide +kernel
  have hpublishes : ∀ n < 21,
      (past (parted.endlessly reentering) n).countP Moment.isPublishing ≤ 1 := by decide +kernel
  obtain ⟨n, -, hdrained, -⟩ := hends (parted.endlessly reentering) 1
    (endless_endlessly isSome_run_reentering) reachable_parted hlone rfl
    (fun i h0 hi => hnests i (hover hi) h0) (fun n hn => hpublishes n (hover hn))
    fun raw => ⟨21, fun i hge hi => absurd (hover hi) (by omega)⟩
  exact ⟨n, hdrained⟩

end System

end ReadPool
