import Mathlib
import ReadPool.Proofs.Acquiring
import ReadPool.Proofs.Labels
import ReadPool.Proofs.Mirror
import ReadPool.Proofs.Refinement

/-!
# Identities apart

A lone caller uses one pool for any number of files. What it does with one of them comes to the same
as if it had not done anything with the others (`identities_apart`): the deaths of a file are received
at other times, and its wrappers have other numbers, but nobody who uses it can tell. The opener may
answer as it likes, as long as it goes by the file and by how often it was asked for it.

The registries of the two runs mirror each other (`Mirrored`), so all that is left to see here is what
the opener was asked for, and which wrapper was made for what.
-/

namespace ReadPool

/-- Each answer of the opener depends on the identity, and on how often it was opened before. What it
was asked for comes last first. -/
def Environment.OpensBy (env : Environment σ) (opens : Nat → Identity → Except IoError σ) :
    List Identity → Prop
  | [] => True
  | X :: earlier => env.opening (earlier.length + 1) X = opens (earlier.countP (·.Same X)) X ∧
      env.OpensBy opens earlier

namespace System

/-- What each wrapper was made for. -/
def made (s : System σ) : List Identity := s.world.wrappers.map Wrapper.identity

/-- The raw handle that the wrapper was made around is closed. -/
def HasClosed (s : System σ) (h : WrapperId) : Prop :=
  ∃ raw, .wrapped 0 h raw ∈ s.history ∧ .closed raw ∈ s.history

/-- What of a caller's operations concerns an identity, with the outcomes, and with how often the
identity was opened by then. Generations have the numbers that they would have without the others. -/
def excerpt (env : Environment σ) (X : Identity) (s : System σ) :
    List Operation → List (Operation × Outcome × Nat)
  | [] => []
  | op :: ops =>
    match s.perform env op with
    | none => []
    | some (outcome, s') =>
      if op.concerns X s.made then
        (op.renumber (place X s.made), outcome.renumber (place X s'.made),
          (asks 0 s'.history).countP (·.Same X)) :: s'.excerpt env X ops
      else s'.excerpt env X ops

end System

variable {env env' : Environment σ} {X Y : Identity} {op : Operation}
  {opens : Nat → Identity → Except IoError σ}

/-! ## What the opener is asked for -/

theorem asks_append (p : PoolId) (E E' : List Event) : asks p (E ++ E') = asks p E ++ asks p E' :=
  List.filterMap_append

theorem length_asks (p : PoolId) (E : List Event) : (asks p E).length = asksOf p E := by
  induction E with
  | nil => rfl
  | cons ev E ih =>
    rw [asksOf, List.countP_cons, ← asksOf, ← ih, asks, List.filterMap_cons, ← asks]
    cases ev with
    | asked q Y => by_cases hq : q = p <;> simp [Event.isAsk, hq]
    | _ => rfl

theorem Environment.OpensBy.mono {asked asked' : List Identity} (h : env.OpensBy opens asked')
    (hsuffix : asked <:+ asked') : env.OpensBy opens asked := by
  obtain ⟨new, rfl⟩ := hsuffix
  induction new with
  | nil => exact h
  | cons Y new ih => exact ih h.2

/-- An acquisition asks for nothing but its own identity. -/
theorem Acquiring.asked {p q : PoolId} {own : List Frame} {w : World σ} {turn : Turn σ}
    (h : Acquiring p X own) (hY : .asked q Y ∈ turn.events w own) : Y = X := by
  cases h with
  | @drain F hF =>
    by_cases hne : F = []
    · subst hne
      simp only [List.nil_append, Turn.events] at hY
      split at hY <;> simp_all
    · rcases hF.events hne _ _ hY with h | ⟨raw, h | h⟩ <;> cases h
  | opening observed =>
    simp only [Turn.events] at hY
    split at hY <;> simp at hY
  | publish observed k =>
    simp only [Turn.events] at hY
    split at hY <;> simp at hY
  | _ => simp [Turn.events] at hY

namespace System

variable {s s' s₁ : System σ} {r r' : Registry σ} {own : List Frame}

theorem exists_turn?_eq {turn : Turn σ} (h : s.turn? env own = some turn) :
    ∃ a : Act σ, a.turn? s.world own = some turn := by
  unfold turn? at h
  split at h
  · exact ⟨.opened 0 _, h⟩
  · exact ⟨.closed 0 _, h⟩
  · exact ⟨.turn 0, h⟩

/-- By induction on the fuel: the acquisition goes on, and each of its turns asks for its own
identity at the most. -/
theorem settle_asks {fuel : Nat} {answer : Answer} (hs : Sound s) (ht : s.threads = [own])
    (hown : Acquiring 0 X own) (h : s.settle env fuel = some (answer, s')) :
    ∃ new, asks 0 s'.history = new ++ asks 0 s.history ∧ ∀ Y ∈ new, Y = X := by
  induction fuel generalizing s own with
  | zero => cases h
  | succ fuel ih =>
    cases hturn : s.turn? env own with
    | none => simp [settle, advance?, ht, hturn] at h
    | some turn =>
      have hadv := advance?_eq ht hturn
      obtain ⟨a, ha⟩ := exists_turn?_eq hturn
      have hnew : ∀ Y ∈ asks 0 (turn.events s.world own), Y = X := by
        intro Y hY
        obtain ⟨ev, hev, hY⟩ := List.mem_filterMap.1 hY
        cases ev with
        | asked q Z =>
          simp only [Option.ite_none_right_eq_some, Option.some.injEq] at hY
          exact hY.2 ▸ hown.asked hev
        | _ => cases hY
      cases hanswer : turn.answer with
      | some answer' =>
        rw [hanswer] at hadv
        rw [settle, hadv] at h
        cases h
        exact ⟨_, asks_append 0 _ _, hnew⟩
      | none =>
        rw [hanswer] at hadv
        rw [settle, hadv] at h
        have hv : s.scene = ⟨s.world, own + (0 : Multiset Frame), s.held, s.history⟩ := by
          simp [scene, frames, ht]
        have hmove := hown.move (hv ▸ hs.valid) ha
        rcases hmove.acquiring with hgoing | ⟨-, result, hover⟩
        · obtain ⟨new, hasks, hsame⟩ := ih (hs.advance hadv) rfl hgoing h
          refine ⟨new ++ asks 0 (turn.events s.world own), ?_,
            fun Y hY => (List.mem_append.1 hY).elim (hsame Y) (hnew Y)⟩
          rw [hasks, asks_append, List.append_assoc]
        · cases hanswer.symm.trans hover

/-! ## What an operation leaves behind -/

theorem asks_suffix {acts : List (Act σ)} (h : s.run? acts = some s') :
    asks 0 s.history <:+ asks 0 s'.history := by
  rw [(run_moments h).history, asks_append]
  exact List.suffix_append _ _

/-- What a wrapper was made for does not change. -/
theorem made_prefix {acts : List (Act σ)} (hs : Sound s) (h : s.run? acts = some s') :
    s.made <+: s'.made := by
  rw [List.prefix_iff_getElem?]
  intro g hg
  have hlt : g < s.world.wrappers.length := by simpa [made] using hg
  have hkept : ∃ x', s'.world.wrappers[g]? = some x' ∧
      x'.identity = s.world.wrappers[g].identity :=
    (run_moments h).keeps hs (P := fun sc => ∃ x', sc.world.wrappers[g]? = some x' ∧
        x'.identity = s.world.wrappers[g].identity) ⟨_, List.getElem?_eq_getElem hlt, rfl⟩
      fun sc sc' hstep ⟨x, hx, hident⟩ => by
        obtain ⟨x', hx', hlater⟩ := hstep.later hx
        exact ⟨x', hx', hlater.identity.trans hident⟩
  obtain ⟨x', hx', hident⟩ := hkept
  simp [made, hx', hident]

theorem length_made (s : System σ) : s.made.length = s.world.wrappers.length := List.length_map _

theorem made_eq_some_iff {h : WrapperId} {X : Identity} :
    s.made[h]? = some X ↔ ∃ x, s.world.wrappers[h]? = some x ∧ x.identity = X := by
  rw [made, List.getElem?_map, Option.map_eq_some_iff]

end System

namespace Registry

variable {r : Registry σ}

theorem counts_whileHeld {g : Nat} {after : Cell σ → Outcome × Registry σ}
    (h : ∀ c, (after c).2.attempts = r.attempts ∧ (after c).2.generations = r.generations) :
    (r.whileHeld g after).2.attempts = r.attempts ∧
      (r.whileHeld g after).2.generations = r.generations := by
  unfold whileHeld
  split
  · exact ⟨rfl, rfl⟩
  · exact h _

/-- How often the opener was called, and how many generations there are. -/
theorem counts_perform (env : Environment σ) (r : Registry σ) (op : Operation) :
    (r.perform env op).2.attempts = r.attempts + (r.asked op).length ∧
      (r.perform env op).2.generations = r.generations + (r.started env op).length := by
  cases op with
  | acquire Y =>
    cases hc : r.current? Y with
    | some c => simp [perform, started, asked, hc, update]
    | none =>
      cases hopen : env.opening (r.attempts + 1) Y with
      | error e =>
        rw [started_error hc hopen]
        simp [perform, asked, hc, hopen]
      | ok state =>
        rw [started_ok hc hopen]
        simp [perform, asked, hc, hopen, start]
  | purge => exact ⟨rfl, rfl⟩
  | clone g => exact counts_whileHeld fun _ => ⟨rfl, rfl⟩
  | drop g => exact counts_whileHeld fun _ => ⟨rfl, rfl⟩
  | close g => exact counts_whileHeld fun _ => ⟨rfl, rfl⟩
  | read g n => exact counts_whileHeld fun _ => ⟨rfl, rfl⟩

/-- A generation is started for what was acquired, and has one reference. -/
theorem exists_of_started (hp : r.Proper) (h : Y ∈ r.started env op) :
    op = .acquire Y ∧ r.started env op = [Y] ∧
      ∃ c, (r.perform env op).2.holding? r.generations = some c ∧ c.identity = Y := by
  cases op with
  | acquire Z =>
    cases hc : r.current? Z with
    | some c => simp [started, asked, hc] at h
    | none =>
      cases hopen : env.opening (r.attempts + 1) Z with
      | error e => simp [started_error hc hopen] at h
      | ok state =>
        rw [started_ok hc hopen] at h
        obtain rfl := List.mem_singleton.1 h
        have hp' : Proper { r with attempts := r.attempts + 1 } := ⟨hp.distinct, hp.numbered, hp.lt⟩
        refine ⟨rfl, started_ok hc hopen, ⟨Y, r.generations, 1, state⟩, ?_, rfl⟩
        simp only [perform, hc, hopen]
        exact (hp'.holding?_start hc state _).trans (if_pos rfl)
  | _ => simp [started, asked] at h

end Registry

namespace System

variable {s s' s₁ : System σ} {r r' : Registry σ}

theorem call_asks {outcome : Outcome} (hs : Sound s) (ht : s.threads = [[]])
    (h : s.call env (.acquire 0 Y) = some (outcome, s')) :
    ∃ new, asks 0 s'.history = new ++ asks 0 s.history ∧ ∀ Z ∈ new, Z = Y := by
  obtain ⟨s₁, hnext, h⟩ := Option.bind_eq_some_iff.1 h
  obtain ⟨⟨answer, s₂⟩, hset, h⟩ := Option.map_eq_some_iff.1 h
  cases h
  have hs₁ := hs.next hnext
  obtain ⟨frames, hframes, hnext⟩ := Option.bind_eq_some_iff.1 hnext
  obtain ⟨-, rfl⟩ := eq_of_getElem? ht hframes
  split at hnext
  · cases hnext
    have hthreads : s.threads.set 0 ((Call.acquire 0 Y).frames ++ [])
        = [(Call.acquire 0 Y).frames] := by simp [ht]
    have hasks := settle_asks hs₁ hthreads (Acquiring.call 0 Y) hset
    exact hasks
  · cases hnext

namespace Simulates

/-- The opener is asked for what the registry says: it is called as often, and for what is acquired. -/
theorem asks_perform (h : Simulates r s) (ht : s.threads = [[]])
    (hop : s.perform env op = some ((r.perform env op).1, s₁))
    (h₁ : Simulates (r.perform env op).2 s₁) :
    asks 0 s₁.history = r.asked op ++ asks 0 s.history := by
  obtain ⟨acts, hacts⟩ := perform_run hop
  obtain ⟨new, hnew⟩ := asks_suffix hacts
  have hlen : new.length = (r.asked op).length := by
    have hasks := congrArg List.length hnew
    have hcount := (Registry.counts_perform env r op).1
    rw [List.length_append, length_asks, length_asks, ← h.attempts, ← h₁.attempts] at hasks
    omega
  rw [← hnew]
  congr 1
  -- As many of them as the registry says, and none but the identity itself.
  cases op with
  | acquire Y =>
    obtain ⟨new', hnew', hsame⟩ := call_asks h.sound ht hop
    obtain rfl : new = new' := List.append_cancel_right (hnew.trans hnew')
    have hasked : ∀ Z ∈ r.asked (.acquire Y), Z = Y := by
      unfold Registry.asked
      split <;> simp_all
    rw [List.eq_replicate_of_mem hsame, List.eq_replicate_of_mem hasked, hlen]
  | _ => exact List.length_eq_zero_iff.1 hlen

/-- Wrappers are made for what the registry starts. -/
theorem made_perform (h : Simulates r s)
    (hop : s.perform env op = some ((r.perform env op).1, s₁))
    (h₁ : Simulates (r.perform env op).2 s₁) : s₁.made = s.made ++ r.started env op := by
  obtain ⟨acts, hacts⟩ := perform_run hop
  obtain ⟨new, hnew⟩ := made_prefix h.sound hacts
  have hlen : new.length = (r.started env op).length := by
    have hmade := congrArg List.length hnew
    have hcount := (Registry.counts_perform env r op).2
    rw [List.length_append, length_made, length_made, ← h.generations, ← h₁.generations] at hmade
    omega
  rw [← hnew]
  congr 1
  cases hstarted : r.started env op with
  | nil => exact List.length_eq_zero_iff.1 (hlen.trans (by rw [hstarted]; rfl))
  | cons Y rest =>
    have hY : Y ∈ r.started env op := hstarted ▸ List.mem_cons_self
    obtain ⟨rfl, hone, c, hc, rfl⟩ := Registry.exists_of_started h.proper hY
    obtain ⟨Z, rfl⟩ := List.length_eq_one_iff.1 (hlen.trans (by rw [hone]; rfl))
    -- The new wrapper is the one that the registry has a new cell for.
    obtain ⟨x, raw, raw', hx, -, -, -, rfl⟩ := h₁.exists_wrapper hc
    have hlast : s₁.made[r.generations]? = some Z := by
      rw [← hnew, h.generations, ← length_made, List.getElem?_append_right (Nat.le_refl _),
        Nat.sub_self]
      rfl
    rw [made, List.getElem?_map, hx, Option.map_some, Option.some.injEq] at hlast
    rw [← hstarted, hone, ← hlast]

/-- The operation as the registry has it, with what the opener is asked for and what is made. -/
theorem exists_perform (h : Simulates r s) (ht : s.threads = [[]]) (env : Environment σ)
    (op : Operation) : ∃ s₁, s.perform env op = some ((r.perform env op).1, s₁) ∧
      s₁.threads = [[]] ∧ Simulates (r.perform env op).2 s₁ ∧
      asks 0 s₁.history = r.asked op ++ asks 0 s.history ∧ s₁.made = s.made ++ r.started env op := by
  obtain ⟨s₁, hop, ht₁, h₁⟩ := h.perform env ht op
  exact ⟨s₁, hop, ht₁, h₁, h.asks_perform ht hop h₁, h.made_perform hop h₁⟩

/-- Where there is nothing left to receive, the raw handles of all wrappers are closed but of those
that are referenced. -/
theorem hasClosed_iff (h : Simulates r s) (ht : s.threads = [[]]) (hq : s.world.pending 0 = [])
    {g : Nat} (hg : g < s.world.wrappers.length) : s.HasClosed g ↔ r.holding? g = none := by
  have hv := h.sound.valid
  constructor
  · rintro ⟨raw, hw, hclosed⟩
    cases hc : r.holding? g with
    | none => rfl
    | some c =>
      -- The raw handle of a wrapper that is referenced is in its stream.
      obtain ⟨x, raw', -, hx, hstream, -⟩ := h.exists_wrapper hc
      obtain rfl := hv.owned.wrapped_raw_inj hw (hv.owned.wrapped_of_stream g x raw' hx hstream)
      exact absurd (Scene.mem_closes.2 hclosed)
        (hv.owned.not_closed_of_mem_streams (World.mem_streams.2 ⟨g, x, hx, hstream⟩))
  · intro hnone
    have hx := List.getElem?_eq_getElem hg
    obtain ⟨raw, hw⟩ := hv.owned.wrapped_home hx
    rw [h.kempt.home g _ hx] at hw
    have hframes : s.scene.frames = 0 := by simp [scene, frames, ht]
    rcases hv.place_of_opened hframes (hv.owned.opened_of_wrapped hw) with
      ⟨k, y, hheld, hy, hhome, hstream⟩ | ⟨note, hnote, -⟩ | hclosed
    · have hwy := hv.owned.wrapped_of_stream k y raw hy hstream
      obtain ⟨-, rfl⟩ := hv.owned.wrapped_inj hw hwy
      obtain ⟨c, hc⟩ := (h.contains_iff ht g).1 (List.contains_iff_mem.2 hheld)
      cases hnone.symm.trans hc
    · have hnil : s.scene.world.pending 0 = [] := hq
      rw [hnil] at hnote
      cases hnote
    · exact ⟨raw, hw, hclosed⟩

end Simulates

/-! ## Two runs -/

/-- The second caller has done what the first has done with one identity. -/
structure Mirrored (X : Identity) (s s' : System σ) : Prop where
  registries : ∃ r r', Simulates r s ∧ Simulates r' s' ∧ Registry.Mirrors X s.made r r'
  threads : s.threads = [[]]
  threads' : s'.threads = [[]]
  asks_eq : asks 0 s'.history = (asks 0 s.history).filter (·.Same X)
  made_eq : s'.made = s.made.filter (·.Same X)

namespace Mirrored

variable {s₁' : System σ}

theorem alone (X : Identity) (config config' : Config) :
    Mirrored X (alone config : System σ) (alone config') :=
  ⟨⟨{}, {}, .alone config, .alone config', .start_empty⟩, rfl, rfl, rfl, rfl⟩

variable {outcome outcome' : Outcome}

/-- What the caller does with other identities is not seen. -/
theorem foreign (hm : Mirrored X s s') (hforeign : op.concerns X s.made = false)
    (hop : s.perform env op = some (outcome, s₁)) : Mirrored X s₁ s' := by
  obtain ⟨r, r', h, h', hmirrors⟩ := hm.registries
  obtain ⟨s₂, hop₂, ht₂, h₂, hasks, hmade⟩ := h.exists_perform hm.threads env op
  cases hop.symm.trans hop₂
  have hothers : (r.asked op).filter (·.Same X) = [] := by
    refine List.filter_eq_nil_iff.2 fun Y hY => ?_
    simpa [Registry.concerns_of_mem_asked hY s.made] using hforeign
  refine ⟨⟨_, r', h₂, h', hmade ▸ hmirrors.foreign hforeign⟩, ht₂, hm.threads', ?_, ?_⟩
  · rw [hasks, List.filter_append, hothers, List.nil_append, hm.asks_eq]
  · have hnew : (r.started env op).filter (·.Same X) = [] := by
      refine List.filter_eq_nil_iff.2 fun Y hY => ?_
      exact List.filter_eq_nil_iff.1 hothers Y (List.mem_filter.1 hY).1
    rw [hmade, List.filter_append, hnew, List.append_nil, hm.made_eq]

/-- What the caller does with the identity comes to the same. -/
theorem own (hm : Mirrored X s s') (hreading : env'.reading = env.reading)
    (hown : op.concerns X s.made) (hop : s.perform env op = some (outcome, s₁))
    (hop' : s'.perform env' (op.renumber (place X s.made)) = some (outcome', s₁'))
    (hopens : env.OpensBy opens (asks 0 s₁.history))
    (hopens' : env'.OpensBy opens (asks 0 s₁'.history)) :
    outcome' = outcome.renumber (place X s₁.made) ∧ Mirrored X s₁ s₁' := by
  obtain ⟨r, r', h, h', hmirrors⟩ := hm.registries
  obtain ⟨s₂, hop₂, ht₂, h₂, hasks, hmade⟩ := h.exists_perform hm.threads env op
  cases hop.symm.trans hop₂
  obtain ⟨s₂', hop₂', ht₂', h₂', hasks', hmade'⟩ := h'.exists_perform hm.threads' env' _
  cases hop'.symm.trans hop₂'
  rw [hmirrors.asked_own hown] at hasks'
  have hsame : ∀ Y ∈ r.asked op, Y.Same X := by
    intro Y hY
    simpa [Registry.concerns_of_mem_asked hY s.made] using hown
  -- How often an identity was opened before is the same in both runs.
  have hopening : ∀ Y ∈ r.asked op,
      env'.opening (r'.attempts + 1) Y = env.opening (r.attempts + 1) Y := by
    intro Y hY
    have hYX := hsame Y hY
    rw [hasks, (Registry.asked_eq_of_mem hY).2, List.singleton_append] at hopens
    rw [hasks', (Registry.asked_eq_of_mem hY).2, List.singleton_append] at hopens'
    have hanswer := hopens.1
    have hanswer' := hopens'.1
    rw [length_asks, ← h.attempts] at hanswer
    rw [length_asks, ← h'.attempts, hm.asks_eq, List.countP_filter] at hanswer'
    rw [hanswer, hanswer']
    congr 1
    refine List.countP_congr fun Z _ => ?_
    simp only [Bool.and_eq_true, decide_eq_true_eq]
    exact and_iff_left_of_imp fun hZ => hZ.trans hYX
  obtain ⟨houtcome, hafter⟩ := hmirrors.own hown hreading hopening
  rw [← hmade] at houtcome hafter
  refine ⟨houtcome, ⟨_, _, h₂, h₂', hafter⟩, ht₂, ht₂', ?_, ?_⟩
  · rw [hasks', hasks, List.filter_append, hm.asks_eq,
      List.filter_eq_self.2 fun Y hY => decide_eq_true (hsame Y hY)]
  · have hstarted : r'.started env' (op.renumber (place X s.made)) = r.started env op := by
      unfold Registry.started
      rw [hmirrors.asked_own hown]
      exact List.filter_congr fun Y hY => by rw [hopening Y hY]
    have hnew : (r.started env op).filter (·.Same X) = r.started env op :=
      List.filter_eq_self.2 fun Y hY => decide_eq_true (hsame Y (List.mem_filter.1 hY).1)
    rw [hmade', hmade, hstarted, List.filter_append, hnew, hm.made_eq]

/-- By induction on the operations: each of them is one of the identity's or not. -/
theorem play {ops : List Operation} {outcomes outcomes' : List (Outcome × Nat)} {t t' : System σ}
    (hm : Mirrored X s s') (hreading : env'.reading = env.reading)
    (hplay : s.play env ops = some (outcomes, t))
    (hplay' : s'.play env' ((s.excerpt env X ops).map Prod.fst) = some (outcomes', t'))
    (hopens : env.OpensBy opens (asks 0 t.history))
    (hopens' : env'.OpensBy opens (asks 0 t'.history)) :
    outcomes' = (s.excerpt env X ops).map Prod.snd ∧ Mirrored X t t' := by
  induction ops generalizing s s' outcomes outcomes' with
  | nil =>
    cases hplay
    cases hplay'
    exact ⟨rfl, hm⟩
  | cons op ops ih =>
    obtain ⟨⟨outcome, s₁⟩, hop, hplay⟩ := Option.bind_eq_some_iff.1 hplay
    obtain ⟨⟨rest, t₁⟩, hrest, hplay⟩ := Option.map_eq_some_iff.1 hplay
    cases hplay
    obtain ⟨acts, hacts⟩ := play_run hrest
    simp only [excerpt, hop] at hplay' ⊢
    cases hconcerns : op.concerns X s.made with
    | false =>
      rw [hconcerns, if_neg Bool.false_ne_true] at hplay'
      rw [if_neg Bool.false_ne_true]
      exact ih (hm.foreign hconcerns hop) hrest hplay'
    | true =>
      rw [hconcerns, if_pos rfl, List.map_cons] at hplay'
      rw [if_pos rfl, List.map_cons]
      obtain ⟨⟨outcome', s₁'⟩, hop', hplay'⟩ := Option.bind_eq_some_iff.1 hplay'
      obtain ⟨⟨rest', t₁'⟩, hrest', hplay'⟩ := Option.map_eq_some_iff.1 hplay'
      cases hplay'
      obtain ⟨acts', hacts'⟩ := play_run hrest'
      obtain ⟨houtcome, hm₁⟩ := hm.own hreading hconcerns hop hop'
        (hopens.mono (asks_suffix hacts)) (hopens'.mono (asks_suffix hacts'))
      obtain ⟨hrests, hm'⟩ := ih hm₁ hrest hrest'
      have hcount : asksOf 0 s₁'.history = (asks 0 s₁.history).countP (·.Same X) := by
        rw [← length_asks, hm₁.asks_eq, List.countP_eq_length_filter]
      exact ⟨by rw [hrests, houtcome, hcount], hm'⟩

/-- After a purge, the same raw handles of the identity are closed. -/
theorem purge (hm : Mirrored X s s') (env env' : Environment σ) :
    ∃ t t', s.perform env .purge = some (.done, t) ∧ s'.perform env' .purge = some (.done, t') ∧
      t.made = s.made ∧ ∀ g, isOf X s.made g →
        (t.HasClosed g ↔ t'.HasClosed (place X s.made g)) := by
  obtain ⟨r, r', h, h', hmirrors⟩ := hm.registries
  obtain ⟨t, hpurge, ht, h₁, hq⟩ := h.purge env hm.threads
  obtain ⟨t', hpurge', ht', h₁', hq'⟩ := h'.purge env' hm.threads'
  refine ⟨t, t', hpurge, hpurge', ?_, fun g hg => ?_⟩
  · have hmade : t.made = s.made ++ r.started env .purge := h.made_perform hpurge h₁
    exact hmade.trans (List.append_nil _)
  · have hlt := lt_length_of_isOf hg
    rw [h₁.hasClosed_iff ht hq (by rwa [← h₁.generations, hmirrors.generations]),
      h₁'.hasClosed_iff ht' hq'
        (by rw [← h₁'.generations, hmirrors.generations']; exact place_lt hg hlt),
      hmirrors.cells g hg, Option.map_eq_none_iff]

end Mirrored

/-- Identities do not notice each other. Where the opener goes by the identity and by how often it was
opened before, all that is done with one identity comes to the same if nothing is done with any other:
an acquisition gives the same wrapper, or a new one, or the same error, a read gives the same result,
and the same opens are made. After a purge, the same raw handles are closed. -/
theorem identities_apart (env env' : Environment σ) (hreading : env'.reading = env.reading)
    (opens : Nat → Identity → Except IoError σ) (config config' : Config) (X : Identity)
    (ops : List Operation) :
    ∃ outcomes s outcomes' s', (alone config).play env ops = some (outcomes, s) ∧
      (alone config').play env' (((alone config).excerpt env X ops).map Prod.fst)
        = some (outcomes', s') ∧
      (env.OpensBy opens (asks 0 s.history) → env'.OpensBy opens (asks 0 s'.history) →
        outcomes' = ((alone config).excerpt env X ops).map Prod.snd ∧
        asks 0 s'.history = (asks 0 s.history).filter (·.Same X) ∧
        s'.made = s.made.filter (·.Same X) ∧
        ∃ t t', s.perform env .purge = some (.done, t) ∧
          s'.perform env' .purge = some (.done, t') ∧ t.made = s.made ∧
          ∀ g, isOf X s.made g → (t.HasClosed g ↔ t'.HasClosed (place X s.made g))) := by
  obtain ⟨s, hplay, -⟩ := (Simulates.alone config).play env rfl ops
  obtain ⟨s', hplay', -⟩ := (Simulates.alone config').play env' rfl
    (((alone config).excerpt env X ops).map Prod.fst)
  refine ⟨_, s, _, s', hplay, hplay', fun hopens hopens' => ?_⟩
  obtain ⟨houtcomes, hm⟩ :=
    (Mirrored.alone X config config').play hreading hplay hplay' hopens hopens'
  exact ⟨houtcomes, hm.asks_eq, hm.made_eq, hm.purge env env'⟩

/-- A stream counts its reads, from where its open has set it. -/
def counting (opening : Nat → Identity → Except IoError Nat) : Environment Nat where
  opening := opening
  closing _ := some .busy
  reading _ n := (.ok [n.toUInt8], n + 1)

/-- Two files are used in turn. One cannot be opened at first, the other is let go and opened again. -/
def mixing : List Operation :=
  [.acquire ⟨.ofString "/a"⟩, .acquire ⟨.ofString "/b"⟩, .read 0 1, .acquire ⟨.ofString "/b"⟩,
    .drop 0, .clone 1, .read 1 1, .acquire ⟨.ofString "/b"⟩, .acquire ⟨.ofString "/a"⟩, .read 2 1]

/-- The first open of `/b` fails. -/
def opensMixed (n : Nat) (X : Identity) : Except IoError Nat :=
  if n = 0 ∧ X = ⟨.ofString "/b"⟩ then .error .busy else .ok (10 * n)

/-- All that was done with `/a`, on its own. -/
def unmixed : List Operation :=
  [.acquire ⟨.ofString "/a"⟩, .read 0 1, .drop 0, .acquire ⟨.ofString "/a"⟩, .read 1 1]

theorem identities_apart_mixed : ∃ outcomes s',
    (alone {}).play (counting fun n => opensMixed (n - 1)) unmixed = some (outcomes, s') ∧
    outcomes = [(.acquired (.ok 0), 1), (.read (.ok [0]), 1), (.done, 1), (.acquired (.ok 1), 2),
      (.read (.ok [10]), 2)] ∧
    asks 0 s'.history = [⟨.ofString "/a"⟩, ⟨.ofString "/a"⟩] := by
  have hexcerpt : (alone {}).excerpt (counting fun n => opensMixed ((n - 1) / 2))
      ⟨.ofString "/a"⟩ mixing = unmixed.zip [(.acquired (.ok 0), 1), (.read (.ok [0]), 1),
        (.done, 1), (.acquired (.ok 1), 2), (.read (.ok [10]), 2)] := by decide +kernel
  obtain ⟨outcomes, s, outcomes', s', hplay, hplay', hapart⟩ :=
    identities_apart (counting fun n => opensMixed ((n - 1) / 2))
      (counting fun n => opensMixed (n - 1)) rfl opensMixed {} {} ⟨.ofString "/a"⟩ mixing
  rw [hexcerpt] at hplay' hapart
  have hasks : asks 0 s.history
      = [⟨.ofString "/a"⟩, ⟨.ofString "/b"⟩, ⟨.ofString "/b"⟩, ⟨.ofString "/a"⟩] := by
    have hall : ((alone {}).play (counting fun n => opensMixed ((n - 1) / 2)) mixing).map
        (fun x => asks 0 x.2.history)
          = some [⟨.ofString "/a"⟩, ⟨.ofString "/b"⟩, ⟨.ofString "/b"⟩, ⟨.ofString "/a"⟩] := by
      decide +kernel
    rw [hplay] at hall
    exact Option.some.inj hall
  have hasks' : asks 0 s'.history = [⟨.ofString "/a"⟩, ⟨.ofString "/a"⟩] := by
    have hall : ((alone {}).play (counting fun n => opensMixed (n - 1)) unmixed).map
        (fun x => asks 0 x.2.history) = some [⟨.ofString "/a"⟩, ⟨.ofString "/a"⟩] := by
      decide +kernel
    have hplay' : (alone {}).play (counting fun n => opensMixed (n - 1)) unmixed
        = some (outcomes', s') := hplay'
    rw [hplay'] at hall
    exact Option.some.inj hall
  obtain ⟨houtcomes, -⟩ := hapart
    (hasks ▸ ⟨by decide +kernel, by decide +kernel, by decide +kernel, by decide +kernel, trivial⟩)
    (hasks' ▸ ⟨by decide +kernel, by decide +kernel, trivial⟩)
  exact ⟨outcomes', s', hplay', houtcomes, hasks'⟩

end System

end ReadPool
