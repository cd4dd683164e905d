import Mathlib
import ReadPool.Proofs.Registry

/-!
# What a registry has of one identity

Two registries, one of which has only seen the operations on an identity `X`. Its generations are
those of `X`, numbered anew, and it has the same cells for them (`Registry.Mirrors`). An operation on
`X` comes to the same in both and keeps that (`Mirrors.own`), and an operation on anything else leaves
what there is of `X` alone (`Mirrors.foreign`).
-/

namespace ReadPool

variable {X Y : Identity} {made : List Identity} {g k : Nat}

/-! ## Places among one's like -/

/-- The generation is one of the identity, going by the identities that generations were made for. -/
def isOf (X : Identity) (made : List Identity) (g : Nat) : Bool := made[g]?.any (·.Same X)

/-- How many generations of the identity there were before this one. -/
def place (X : Identity) (made : List Identity) (g : Nat) : Nat := (made.take g).countP (·.Same X)

theorem isOf_iff : isOf X made g ↔ ∃ Y, made[g]? = some Y ∧ Y.Same X := by
  simp [isOf, Option.any_eq_true]

theorem lt_length_of_isOf (hg : isOf X made g) : g < made.length := by
  obtain ⟨Y, hY, -⟩ := isOf_iff.1 hg
  exact (List.getElem?_eq_some_iff.1 hY).1

theorem place_length (X : Identity) (made : List Identity) :
    place X made made.length = (made.filter (·.Same X)).length := by
  rw [place, List.take_length, List.countP_eq_length_filter]

theorem place_lt (hg : isOf X made g) (hk : g < k) : place X made g < place X made k := by
  obtain ⟨Y, hY, hYX⟩ := isOf_iff.1 hg
  have hsub : (made.take (g + 1)).Sublist (made.take k) := List.take_sublist_take_left hk
  have hle := hsub.countP_le (p := fun Y => decide (Y.Same X))
  rw [List.take_add_one, hY, List.countP_append] at hle
  simpa [place, hYX] using hle

theorem place_inj (hg : isOf X made g) (hk : isOf X made k) :
    place X made g = place X made k ↔ g = k := by
  refine ⟨fun heq => ?_, fun h => h ▸ rfl⟩
  rcases Nat.lt_trichotomy g k with hlt | rfl | hlt
  · exact absurd heq (Nat.ne_of_lt (place_lt hg hlt))
  · rfl
  · exact absurd heq (Nat.ne_of_gt (place_lt hk hlt))

theorem place_append (hg : g ≤ made.length) : place X (made ++ [Y]) g = place X made g := by
  rw [place, List.take_append_of_le_length hg, place]

theorem isOf_append (hg : g ≠ made.length) : isOf X (made ++ [Y]) g = isOf X made g := by
  unfold isOf
  rcases Nat.lt_or_gt_of_ne hg with hlt | hgt
  · rw [List.getElem?_append_left hlt]
  · rw [List.getElem?_eq_none (by simpa using hgt), List.getElem?_eq_none (Nat.le_of_lt hgt)]

theorem isOf_length : isOf X (made ++ [Y]) made.length = decide (Y.Same X) := by
  simp [isOf]

/-! ## Operations on one identity -/

namespace Operation

def concerns (X : Identity) (made : List Identity) : Operation → Bool
  | .acquire Y => Y.Same X
  | .clone g => isOf X made g
  | .drop g => isOf X made g
  | .close g => isOf X made g
  | .read g _ => isOf X made g
  | .purge => true

/-- The same operation where generations have other numbers. -/
def renumber (f : Nat → Nat) : Operation → Operation
  | .acquire Y => .acquire Y
  | .clone g => .clone (f g)
  | .drop g => .drop (f g)
  | .close g => .close (f g)
  | .read g n => .read (f g) n
  | .purge => .purge

end Operation

def Outcome.renumber (f : Nat → Nat) : Outcome → Outcome
  | .acquired result => .acquired (result.map f)
  | o => o

def Cell.renumber (f : Nat → Nat) (c : Cell σ) : Cell σ := { c with generation := f c.generation }

namespace Registry

variable {r r' : Registry σ} {env env' : Environment σ} {c : Cell σ} {op : Operation} {state : σ}

/-- What the opener is asked for by an operation. -/
def asked (r : Registry σ) : Operation → List Identity
  | .acquire Y => if (r.current? Y).isSome then [] else [Y]
  | _ => []

/-- What an operation makes a generation for. -/
def started (env : Environment σ) (r : Registry σ) (op : Operation) : List Identity :=
  (r.asked op).filter fun Y => (env.opening (r.attempts + 1) Y).isOk

theorem asked_eq_of_mem (hY : Y ∈ r.asked op) : op = .acquire Y ∧ r.asked op = [Y] := by
  cases op with
  | acquire Z =>
    simp only [asked] at hY ⊢
    split at hY
    · exact absurd hY List.not_mem_nil
    · next hnot =>
      rw [if_neg hnot, List.mem_singleton.1 hY]
      exact ⟨rfl, rfl⟩
  | _ => exact absurd hY List.not_mem_nil

theorem append_started (h : r.asked op = []) (made : List Identity) :
    made ++ r.started env op = made := by
  rw [started, h, List.filter_nil, List.append_nil]

theorem started_error (hY : r.current? Y = none) {e : IoError}
    (h : env.opening (r.attempts + 1) Y = .error e) : r.started env (.acquire Y) = [] := by
  simp [started, asked, hY, h, Except.isOk, Except.toBool]

theorem started_ok (hY : r.current? Y = none) (h : env.opening (r.attempts + 1) Y = .ok state) :
    r.started env (.acquire Y) = [Y] := by
  simp [started, asked, hY, h, Except.isOk, Except.toBool]

/-- The second registry has what the first has of one identity, numbered anew. -/
structure Mirrors (X : Identity) (made : List Identity) (r r' : Registry σ) : Prop where
  proper : r.Proper
  proper' : r'.Proper
  generations : r.generations = made.length
  generations' : r'.generations = place X made made.length
  identity : ∀ g c, r.holding? g = some c → made[g]? = some c.identity
  cells : ∀ g, isOf X made g →
    r'.holding? (place X made g) = (r.holding? g).map (Cell.renumber (place X made))
  only : ∀ g' c', r'.holding? g' = some c' → ∃ g, isOf X made g ∧ g' = place X made g

namespace Mirrors

theorem start_empty : Mirrors X [] ({} : Registry σ) {} where
  proper := .start_empty
  proper' := .start_empty
  generations := rfl
  generations' := rfl
  identity _ _ h := nomatch h
  cells _ h := nomatch h
  only _ _ h := nomatch h

theorem isOf_of_holding? (hm : Mirrors X made r r') (hc : r.holding? g = some c) :
    isOf X made g ↔ c.identity.Same X := by
  simp [isOf, hm.identity g c hc]

/-- How often the opener was called does not matter. -/
theorem retry (hm : Mirrors X made r r') (n n' : Nat) :
    Mirrors X made { r with attempts := n } { r' with attempts := n' } :=
  ⟨⟨hm.proper.distinct, hm.proper.numbered, hm.proper.lt⟩,
    ⟨hm.proper'.distinct, hm.proper'.numbered, hm.proper'.lt⟩, hm.generations, hm.generations',
    hm.identity, hm.cells, hm.only⟩

/-- The current streams of the identity are the same. -/
theorem current? (hm : Mirrors X made r r') (hY : Y.Same X) :
    r'.current? Y = (r.current? Y).map (Cell.renumber (place X made)) := by
  cases hc : r.current? Y with
  | some c =>
    obtain ⟨hg, hcY⟩ := hm.proper.current?_eq_some_iff.1 hc
    have hof : isOf X made c.generation := (hm.isOf_of_holding? hg).2 (hcY.trans hY)
    refine hm.proper'.current?_eq_some_iff.2 ⟨?_, hcY⟩
    exact (hm.cells _ hof).trans (by rw [hg]; rfl)
  | none =>
    cases hc' : r'.current? Y with
    | none => rfl
    | some c' =>
      -- The cell would be that of a generation which is current in the first registry.
      obtain ⟨hg', hcY⟩ := hm.proper'.current?_eq_some_iff.1 hc'
      obtain ⟨g, hof, hgen⟩ := hm.only _ _ hg'
      have hcells := hm.cells g hof
      rw [← hgen, hg'] at hcells
      obtain ⟨c, hg, rfl⟩ := Option.map_eq_some_iff.1 hcells.symm
      obtain ⟨-, rfl, -⟩ := of_holding? hg
      have := hm.proper.current?_eq_some_iff.2 ⟨hg, hcY⟩
      exact absurd (hc.symm.trans this) (by simp)

/-! ## Changes of a stream -/

variable {f : Cell σ → Cell σ}

theorem identity_update (hm : Mirrors X made r r') (hf : Keeps f) (hc : r.holding? g = some c)
    (k : Nat) (d : Cell σ) (hd : (r.update g f).holding? k = some d) :
    made[k]? = some d.identity := by
  rw [holding?_update hf hc] at hd
  split at hd
  · next hkg =>
    split at hd
    · cases hd
      rw [(hf c).1, hkg]
      exact hm.identity g c hc
    · cases hd
  · exact hm.identity k d hd

/-- A stream of the identity changes on both sides. -/
theorem update (hm : Mirrors X made r r') (hf : Keeps f)
    (hcomm : ∀ c : Cell σ, f (c.renumber (place X made)) = (f c).renumber (place X made))
    (hg : isOf X made g) (hc : r.holding? g = some c) :
    Mirrors X made (r.update g f) (r'.update (place X made g) f) := by
  have hc' : r'.holding? (place X made g) = some (c.renumber (place X made)) := by
    rw [hm.cells g hg, hc, Option.map_some]
  refine ⟨hm.proper.update hf g, hm.proper'.update hf _, hm.generations, hm.generations',
    hm.identity_update hf hc, fun k hk => ?_, fun k' d hd => ?_⟩
  · have hlive : ((f c).renumber (place X made)).isLive = (f c).isLive := rfl
    simp only [holding?_update hf hc', holding?_update hf hc, place_inj hk hg, hcomm, hlive]
    split
    · split <;> rfl
    · exact hm.cells k hk
  · rw [holding?_update hf hc'] at hd
    split at hd
    · next heq => exact ⟨g, hg, heq⟩
    · exact hm.only k' d hd

/-- A stream of another identity changes, and that is not seen. -/
theorem update_of_not (hm : Mirrors X made r r') (hf : Keeps f) (hg : isOf X made g = false)
    (hc : r.holding? g = some c) : Mirrors X made (r.update g f) r' := by
  refine ⟨hm.proper.update hf g, hm.proper', hm.generations, hm.generations',
    hm.identity_update hf hc, fun k hk => ?_, hm.only⟩
  have hkg : k ≠ g := by
    rintro rfl
    simp [hg] at hk
  rw [holding?_update hf hc, if_neg hkg]
  exact hm.cells k hk

/-! ## New streams -/

theorem identity_start (hm : Mirrors X made r r') (hY : r.current? Y = none) (state : σ) (k : Nat)
    (d : Cell σ) (hd : (r.start Y state).holding? k = some d) :
    (made ++ [Y])[k]? = some d.identity := by
  rw [hm.proper.holding?_start hY] at hd
  split at hd
  · next hk =>
    cases hd
    rw [hk, hm.generations, List.getElem?_append_right (Nat.le_refl _), Nat.sub_self]
    rfl
  · have hold := hm.identity k d hd
    rwa [List.getElem?_append_left (List.getElem?_eq_some_iff.1 hold).1]

/-- A generation that was there before has the place that it had. -/
theorem of_isOf_append (hk : isOf X (made ++ [Y]) k) (hne : k ≠ made.length) :
    isOf X made k ∧ place X (made ++ [Y]) k = place X made k := by
  rw [isOf_append hne] at hk
  exact ⟨hk, place_append (Nat.le_of_lt (lt_length_of_isOf hk))⟩

/-- The cells of generations that were there before. -/
theorem cells_start (hm : Mirrors X made r r') (hY : r.current? Y = none) (state : σ)
    (hk : isOf X (made ++ [Y]) k) (hne : k ≠ made.length) :
    r'.holding? (place X (made ++ [Y]) k)
      = ((r.start Y state).holding? k).map (Cell.renumber (place X (made ++ [Y]))) := by
  obtain ⟨hold, hplace⟩ := of_isOf_append hk hne
  rw [hm.proper.holding?_start hY, hm.generations, if_neg hne, hplace, hm.cells k hold]
  cases hc : r.holding? k with
  | none => rfl
  | some c =>
    obtain ⟨-, rfl, -⟩ := of_holding? hc
    simp [Cell.renumber, hplace]

theorem only_append (hm : Mirrors X made r r') {k' : Nat} {d : Cell σ}
    (hd : r'.holding? k' = some d) :
    ∃ g, isOf X (made ++ [Y]) g ∧ k' = place X (made ++ [Y]) g := by
  obtain ⟨g, hg, rfl⟩ := hm.only k' d hd
  have hlt := lt_length_of_isOf hg
  exact ⟨g, by rw [isOf_append (Nat.ne_of_lt hlt)]; exact hg, (place_append (Nat.le_of_lt hlt)).symm⟩

/-- The identity gets a generation on both sides. -/
theorem start (hm : Mirrors X made r r') (hYX : Y.Same X) (hY : r.current? Y = none) (state : σ) :
    Mirrors X (made ++ [Y]) (r.start Y state) (r'.start Y state) := by
  have hY' : r'.current? Y = none := by rw [hm.current? hYX, hY, Option.map_none]
  have hnew : isOf X (made ++ [Y]) made.length := by simp [isOf_length, hYX]
  have hplace : place X (made ++ [Y]) made.length = r'.generations :=
    (place_append (Nat.le_refl _)).trans hm.generations'.symm
  refine ⟨hm.proper.start Y state, hm.proper'.start Y state, ?_, ?_, hm.identity_start hY state,
    fun k hk => ?_, fun k' d hd => ?_⟩
  · simp [Registry.start, hm.generations]
  · rw [place_length, List.filter_append, List.length_append, ← place_length, ← hm.generations']
    simp [Registry.start, hYX]
  · rw [hm.proper'.holding?_start hY']
    by_cases hk' : k = made.length
    · subst hk'
      rw [hplace, if_pos rfl, hm.proper.holding?_start hY, hm.generations, if_pos rfl]
      simp [Cell.renumber, hplace]
    · have hne : place X (made ++ [Y]) k ≠ r'.generations := by
        rw [← hplace]
        exact fun heq => hk' ((place_inj hk hnew).1 heq)
      rw [if_neg hne]
      exact hm.cells_start hY state hk hk'
  · rw [hm.proper'.holding?_start hY'] at hd
    split at hd
    · next hk' => exact ⟨made.length, hnew, hk'.trans hplace.symm⟩
    · exact hm.only_append hd

/-- Another identity gets a generation, and that is not seen. -/
theorem start_of_not (hm : Mirrors X made r r') (hYX : ¬ Y.Same X) (hY : r.current? Y = none)
    (state : σ) : Mirrors X (made ++ [Y]) (r.start Y state) r' := by
  -- The new generation is none of the identity's, so it takes no place among them.
  refine ⟨hm.proper.start Y state, hm.proper', ?_, ?_, hm.identity_start hY state,
    fun k hk => ?_, fun k' d hd => hm.only_append hd⟩
  · simp [Registry.start, hm.generations]
  · rw [hm.generations', place_length, place_length, List.filter_append]
    simp [hYX]
  · refine hm.cells_start hY state hk fun hlen => ?_
    subst hlen
    simp [isOf_length, hYX] at hk

/-! ## Operations -/

/-- An operation comes to the same on both sides, and keeps what the second has of the first. -/
def Alike (X : Identity) (made : List Identity) (after after' : Outcome × Registry σ) : Prop :=
  after'.1 = after.1.renumber (place X made) ∧ Mirrors X made after.2 after'.2

/-- What needs a reference is done on both sides or on neither. -/
theorem whileHeld (hm : Mirrors X made r r') (hg : isOf X made g)
    {after after' : Cell σ → Outcome × Registry σ}
    (h : ∀ c, r.holding? g = some c → Alike X made (after c) (after' (c.renumber (place X made)))) :
    Alike X made (r.whileHeld g after) (r'.whileHeld (place X made g) after') := by
  unfold Registry.whileHeld
  rw [hm.cells g hg]
  cases hc : r.holding? g with
  | none => exact ⟨rfl, hm⟩
  | some c => exact h c hc

theorem whileHeld_of_not (hm : Mirrors X made r r') {after : Cell σ → Outcome × Registry σ}
    (h : ∀ c, r.holding? g = some c → Mirrors X made (after c).2 r') :
    Mirrors X made (r.whileHeld g after).2 r' := by
  unfold Registry.whileHeld
  cases hc : r.holding? g with
  | none => exact hm
  | some c => exact h c hc

theorem acquire (hm : Mirrors X made r r') (hY : Y.Same X)
    (hopening : ∀ Z ∈ r.asked (.acquire Y),
      env'.opening (r'.attempts + 1) Z = env.opening (r.attempts + 1) Z) :
    Alike X (made ++ r.started env (.acquire Y)) (r.perform env (.acquire Y))
      (r'.perform env' (.acquire Y)) := by
  have hcurrent := hm.current? hY
  cases hc : r.current? Y with
  | some c =>
    obtain ⟨hg, hcY⟩ := hm.proper.current?_eq_some_iff.1 hc
    rw [hc, Option.map_some] at hcurrent
    rw [append_started (by simp [asked, hc])]
    simp only [perform, hc, hcurrent]
    exact ⟨rfl, hm.update keeps_retain (fun _ => rfl)
      ((hm.isOf_of_holding? hg).2 (hcY.trans hY)) hg⟩
  | none =>
    rw [hc, Option.map_none] at hcurrent
    have hanswer := hopening Y (by simp [asked, hc])
    have hretry := hm.retry (r.attempts + 1) (r'.attempts + 1)
    cases hopen : env.opening (r.attempts + 1) Y with
    | error e =>
      rw [started_error hc hopen, List.append_nil]
      simp only [perform, hc, hcurrent, hanswer, hopen]
      exact ⟨rfl, hretry⟩
    | ok state =>
      rw [started_ok hc hopen]
      simp only [perform, hc, hcurrent, hanswer, hopen]
      refine ⟨?_, hretry.start hY hc state⟩
      rw [hm.generations', hm.generations]
      simp [Outcome.renumber, Except.map, place_append]

/-- An operation on the identity comes to the same on both sides. -/
theorem own (hm : Mirrors X made r r') (hop : op.concerns X made)
    (hreading : env'.reading = env.reading)
    (hopening : ∀ Z ∈ r.asked op,
      env'.opening (r'.attempts + 1) Z = env.opening (r.attempts + 1) Z) :
    Alike X (made ++ r.started env op) (r.perform env op)
      (r'.perform env' (op.renumber (place X made))) := by
  cases op with
  | acquire Y => exact hm.acquire (by simpa [Operation.concerns] using hop) hopening
  | purge =>
    rw [append_started rfl]
    exact ⟨rfl, hm⟩
  | clone g =>
    rw [append_started rfl]
    exact hm.whileHeld hop fun c hc => ⟨rfl, hm.update keeps_retain (fun _ => rfl) hop hc⟩
  | drop g =>
    rw [append_started rfl]
    exact hm.whileHeld hop fun c hc => ⟨rfl, hm.update keeps_release (fun _ => rfl) hop hc⟩
  | close g =>
    rw [append_started rfl]
    exact hm.whileHeld hop fun c hc => ⟨rfl, hm⟩
  | read g n =>
    rw [append_started rfl]
    refine hm.whileHeld hop fun c hc => ?_
    rw [hreading]
    exact ⟨rfl, hm.update (keeps_leave _) (fun _ => rfl) hop hc⟩

theorem acquire_of_not (hm : Mirrors X made r r') (hY : ¬ Y.Same X) :
    Mirrors X (made ++ r.started env (.acquire Y)) (r.perform env (.acquire Y)).2 r' := by
  cases hc : r.current? Y with
  | some c =>
    obtain ⟨hg, hcY⟩ := hm.proper.current?_eq_some_iff.1 hc
    have hof : isOf X made c.generation = false := by
      rw [Bool.eq_false_iff]
      exact fun hof => hY (hcY.symm.trans ((hm.isOf_of_holding? hg).1 hof))
    rw [append_started (by simp [asked, hc])]
    simp only [perform, hc]
    exact hm.update_of_not keeps_retain hof hg
  | none =>
    have hretry := hm.retry (r.attempts + 1) r'.attempts
    cases hopen : env.opening (r.attempts + 1) Y with
    | error e =>
      rw [started_error hc hopen, List.append_nil]
      simp only [perform, hc, hopen]
      exact hretry
    | ok state =>
      rw [started_ok hc hopen]
      simp only [perform, hc, hopen]
      exact hretry.start_of_not hY hc state

/-- An operation on anything else is not seen. -/
theorem foreign (hm : Mirrors X made r r') (hop : op.concerns X made = false) :
    Mirrors X (made ++ r.started env op) (r.perform env op).2 r' := by
  cases op with
  | acquire Y => exact hm.acquire_of_not (by simpa [Operation.concerns] using hop)
  | purge => cases hop
  | clone g =>
    rw [append_started rfl]
    exact hm.whileHeld_of_not fun c hc => hm.update_of_not keeps_retain hop hc
  | drop g =>
    rw [append_started rfl]
    exact hm.whileHeld_of_not fun c hc => hm.update_of_not keeps_release hop hc
  | close g =>
    rw [append_started rfl]
    exact hm.whileHeld_of_not fun c hc => hm
  | read g n =>
    rw [append_started rfl]
    exact hm.whileHeld_of_not fun c hc => hm.update_of_not (keeps_leave _) hop hc

/-! ## What the opener is asked for -/

theorem asked_own (hm : Mirrors X made r r') (hop : op.concerns X made) :
    r'.asked (op.renumber (place X made)) = r.asked op := by
  cases op with
  | acquire Y =>
    have hcurrent := hm.current? (Y := Y) (by simpa [Operation.concerns] using hop)
    simp only [asked, Operation.renumber, hcurrent, Option.isSome_map]
  | _ => rfl

end Mirrors

/-- An operation concerns what it asks the opener for. -/
theorem concerns_of_mem_asked (hY : Y ∈ r.asked op) (made : List Identity) :
    op.concerns X made = decide (Y.Same X) := by
  rw [(asked_eq_of_mem hY).1]
  rfl

end Registry

end ReadPool
