import Mathlib
import ReadPool.Pool.Step
import ReadPool.Stream

/-!
# The registry that a pool stands for

What one caller can see of a pool, without slots, weak references and deaths: for each identity the
generation of its stream, and how many references to it are held. An acquisition opens only where
no reference is; what is closed or purged changes nothing.
-/

namespace ReadPool

/-- What a caller can do. A stream is known by its generation. -/
inductive Operation where
  | acquire (X : Identity)
  | clone (g : Nat)
  | drop (g : Nat)
  | close (g : Nat)
  | read (g n : Nat)
  | purge
deriving DecidableEq

inductive Outcome where
  | acquired (result : Except PoolError Nat)
  | read (result : Except IoError (List UInt8))
  | done
  /-- There is no reference to that stream. -/
  | absent
deriving DecidableEq

/-- What opens, closes and reads come to. -/
structure Environment (σ : Type u) where
  /-- The answer of the opener to its `n`th call. -/
  opening : Nat → Identity → Except IoError σ
  closing : RawId → Option IoError
  reading : Reader σ

/-- What the registry knows of an identity. -/
structure Cell (σ : Type u) where
  identity : Identity
  /-- How many streams there were, of all identities, before this one. -/
  generation : Nat
  references : Nat
  state : σ

namespace Cell

def isLive (c : Cell σ) : Bool := 0 < c.references

def retain (c : Cell σ) : Cell σ := { c with references := c.references + 1 }

def release (c : Cell σ) : Cell σ := { c with references := c.references - 1 }

/-- The stream as a read has left it. -/
def leave (state : σ) (c : Cell σ) : Cell σ := { c with state }

end Cell

structure Registry (σ : Type u) where
  cells : List (Cell σ) := []
  generations : Nat := 0
  /-- How often the opener was called. -/
  attempts : Nat := 0

namespace Registry

/-- The cell of an identity, if its stream is referenced. -/
def current? (r : Registry σ) (X : Identity) : Option (Cell σ) :=
  (r.cells.find? fun c => c.identity.Same X).filter Cell.isLive

/-- The cell of a generation, if its stream is referenced. -/
def holding? (r : Registry σ) (g : Nat) : Option (Cell σ) :=
  (r.cells.find? fun c => c.generation = g).filter Cell.isLive

/-- The cells of the identities whose streams are referenced. -/
def live (r : Registry σ) : List (Cell σ) := r.cells.filter Cell.isLive

def update (r : Registry σ) (g : Nat) (f : Cell σ → Cell σ) : Registry σ :=
  { r with cells := r.cells.map fun c => if c.generation = g then f c else c }

/-- A new generation for an identity, with one reference. -/
def start (r : Registry σ) (X : Identity) (state : σ) : Registry σ where
  cells := ⟨X, r.generations, 1, state⟩ :: r.cells.filter fun c => ¬ c.identity.Same X
  generations := r.generations + 1
  attempts := r.attempts

/-- Something done with a stream that is referenced. -/
def whileHeld (r : Registry σ) (g : Nat) (f : Cell σ → Outcome × Registry σ) :
    Outcome × Registry σ :=
  match r.holding? g with
  | none => (.absent, r)
  | some c => f c

def perform (env : Environment σ) (r : Registry σ) : Operation → Outcome × Registry σ
  | .acquire X =>
    match r.current? X with
    | some c =>
      (.acquired (.ok c.generation), r.update c.generation Cell.retain)
    | none =>
      let r := { r with attempts := r.attempts + 1 }
      match env.opening r.attempts X with
      | .error e => (.acquired (.error (.openFailed X e)), r)
      | .ok state => (.acquired (.ok r.generations), r.start X state)
  | .clone g => r.whileHeld g fun _ => (.done, r.update g Cell.retain)
  | .drop g => r.whileHeld g fun _ => (.done, r.update g Cell.release)
  | .close g => r.whileHeld g fun _ => (.done, r)
  | .read g n => r.whileHeld g fun c =>
    (.read (env.reading n c.state).1, r.update g (Cell.leave (env.reading n c.state).2))
  | .purge => (.done, r)

/-- The outcome of each operation, and how often the opener was called by then. -/
def play (env : Environment σ) (r : Registry σ) :
    List Operation → List (Outcome × Nat) × Registry σ
  | [] => ([], r)
  | op :: ops =>
    let (outcome, r) := r.perform env op
    let (outcomes, r') := r.play env ops
    ((outcome, r.attempts) :: outcomes, r')

/-! ## One cell for an identity, one for a generation -/

structure Proper (r : Registry σ) : Prop where
  distinct : r.cells.Pairwise fun a b => ¬ a.identity.Same b.identity
  numbered : r.cells.Pairwise fun a b => a.generation ≠ b.generation
  lt : ∀ c ∈ r.cells, c.generation < r.generations

/-- A change of cells that does not touch what they are known by. -/
def Keeps (f : Cell σ → Cell σ) : Prop :=
  ∀ c, (f c).identity = c.identity ∧ (f c).generation = c.generation

variable {r : Registry σ} {g : Nat} {f : Cell σ → Cell σ} {X : Identity} {c : Cell σ}

theorem keeps_retain : Keeps (Cell.retain : Cell σ → Cell σ) := fun _ => ⟨rfl, rfl⟩

theorem keeps_release : Keeps (Cell.release : Cell σ → Cell σ) := fun _ => ⟨rfl, rfl⟩

theorem keeps_leave (state : σ) : Keeps (Cell.leave state) := fun _ => ⟨rfl, rfl⟩

theorem Keeps.ite (hf : Keeps f) (g : Nat) :
    Keeps fun c : Cell σ => if c.generation = g then f c else c := by
  intro c
  dsimp only
  split
  · exact hf c
  · exact ⟨rfl, rfl⟩

theorem Proper.start_empty : Proper ({} : Registry σ) := ⟨.nil, .nil, by simp⟩

theorem Proper.update (hp : Proper r) (hf : Keeps f) (g : Nat) : Proper (r.update g f) := by
  have hk := hf.ite g
  refine ⟨List.pairwise_map.2 (hp.distinct.imp fun {a b} h => ?_),
    List.pairwise_map.2 (hp.numbered.imp fun {a b} h => ?_), ?_⟩
  · rwa [(hk a).1, (hk b).1]
  · rwa [(hk a).2, (hk b).2]
  · intro c hc
    obtain ⟨a, ha, rfl⟩ := List.mem_map.1 hc
    rw [(hk a).2]
    exact hp.lt a ha

theorem Proper.start (hp : Proper r) (X : Identity) (state : σ) : Proper (r.start X state) := by
  refine ⟨List.pairwise_cons.2 ⟨?_, hp.distinct.filter _⟩,
    List.pairwise_cons.2 ⟨?_, hp.numbered.filter _⟩, ?_⟩
  · intro c hc
    obtain ⟨-, hX⟩ := List.mem_filter.1 hc
    intro h
    simp [h.symm] at hX
  · intro c hc
    exact Nat.ne_of_gt (hp.lt c (List.mem_filter.1 hc).1)
  · intro c hc
    rcases List.mem_cons.1 hc with rfl | hc
    · exact Nat.lt_succ_self _
    · exact Nat.lt_succ_of_lt (hp.lt c (List.mem_filter.1 hc).1)

/-! ## What is found -/

theorem Proper.eq_of_generation (hp : Proper r) {a b : Cell σ} (ha : a ∈ r.cells)
    (hb : b ∈ r.cells) (h : a.generation = b.generation) : a = b := by
  have : Std.Symm fun a b : Cell σ => a.generation ≠ b.generation := ⟨fun _ _ h => h.symm⟩
  by_contra hne
  exact hp.numbered.forall ha hb hne h

theorem Proper.eq_of_same (hp : Proper r) {a b : Cell σ} (ha : a ∈ r.cells) (hb : b ∈ r.cells)
    (h : a.identity.Same b.identity) : a = b := by
  have : Std.Symm fun a b : Cell σ => ¬ a.identity.Same b.identity := ⟨fun _ _ h h' => h h'.symm⟩
  by_contra hne
  exact hp.distinct.forall ha hb hne h

theorem of_holding? (h : r.holding? g = some c) :
    c ∈ r.cells ∧ c.generation = g ∧ c.isLive := by
  obtain ⟨hf, hl⟩ := Option.filter_eq_some_iff.1 h
  exact ⟨List.mem_of_find?_eq_some hf, by simpa using List.find?_some hf, hl⟩

theorem Proper.holding?_of_mem (hp : Proper r) (hc : c ∈ r.cells) (hl : c.isLive) :
    r.holding? c.generation = some c := by
  refine Option.filter_eq_some_iff.2 ⟨?_, hl⟩
  cases hf : r.cells.find? fun a => a.generation = c.generation with
  | none => simpa using List.find?_eq_none.1 hf c hc
  | some a =>
    have ha : a.generation = c.generation := by simpa using List.find?_some hf
    exact congrArg some (hp.eq_of_generation (List.mem_of_find?_eq_some hf) hc ha)

/-- The stream of an identity is the one that is referenced under it. -/
theorem Proper.current?_eq_some_iff (hp : Proper r) :
    r.current? X = some c ↔ r.holding? c.generation = some c ∧ c.identity.Same X := by
  constructor
  · intro h
    obtain ⟨hf, hl⟩ := Option.filter_eq_some_iff.1 h
    exact ⟨hp.holding?_of_mem (List.mem_of_find?_eq_some hf) hl, by simpa using List.find?_some hf⟩
  · rintro ⟨h, hX⟩
    obtain ⟨hc, -, hl⟩ := of_holding? h
    refine Option.filter_eq_some_iff.2 ⟨?_, hl⟩
    cases hf : r.cells.find? fun a => a.identity.Same X with
    | none => simpa [hX] using List.find?_eq_none.1 hf c hc
    | some a =>
      have ha : a.identity.Same X := by simpa using List.find?_some hf
      exact congrArg some
        (hp.eq_of_same (List.mem_of_find?_eq_some hf) hc (ha.trans hX.symm))

/-- A change of a stream that is referenced; it may be the end of its last reference. -/
theorem holding?_update (hf : Keeps f) (hc : r.holding? g = some c) (k : Nat) :
    (r.update g f).holding? k
      = if k = g then (if (f c).isLive then some (f c) else none) else r.holding? k := by
  have hk : (fun c : Cell σ => decide (c.generation = k))
      ∘ (fun c : Cell σ => if c.generation = g then f c else c)
      = fun c => decide (c.generation = k) := by
    funext c
    exact congrArg (fun n => decide (n = k)) ((hf.ite g) c).2
  rw [holding?, update, List.find?_map, hk]
  by_cases hkg : k = g
  · subst hkg
    obtain ⟨hfind, -⟩ := Option.filter_eq_some_iff.1 hc
    obtain ⟨-, hg, -⟩ := of_holding? hc
    rw [if_pos rfl, hfind, Option.map_some, if_pos hg, Option.filter_some]
  · rw [if_neg hkg, holding?]
    cases hfind : r.cells.find? fun c => c.generation = k with
    | none => rfl
    | some a =>
      have ha : a.generation = k := by simpa using List.find?_some hfind
      rw [Option.map_some, if_neg (ha ▸ hkg)]

theorem holding?_update_of_isLive (hf : Keeps f) (hc : r.holding? g = some c) (hl : (f c).isLive)
    (k : Nat) : (r.update g f).holding? k = if k = g then some (f c) else r.holding? k := by
  rw [holding?_update hf hc, if_pos hl]

/-- A generation for an identity that has no referenced stream. -/
theorem Proper.holding?_start (hp : Proper r) (hX : r.current? X = none) (state : σ) (g : Nat) :
    (r.start X state).holding? g
      = if g = r.generations then some ⟨X, g, 1, state⟩ else r.holding? g := by
  by_cases hg : g = r.generations
  · simp [holding?, Registry.start, hg, Cell.isLive]
  · rw [if_neg hg]
    apply Option.ext
    intro c
    constructor
    · intro h
      obtain ⟨hc, rfl, hl⟩ := of_holding? h
      rcases List.mem_cons.1 hc with rfl | hc
      · exact absurd rfl hg
      · exact hp.holding?_of_mem (List.mem_filter.1 hc).1 hl
    · intro h
      obtain ⟨hc, rfl, hl⟩ := of_holding? h
      refine (hp.start X state).holding?_of_mem (List.mem_cons_of_mem _ ?_) hl
      refine List.mem_filter.2 ⟨hc, ?_⟩
      -- A cell of the identity would be its current one.
      by_contra hs
      have : r.current? X = some c := hp.current?_eq_some_iff.2 ⟨h, by simpa using hs⟩
      exact absurd (hX.symm.trans this) (by simp)

theorem Proper.mem_live_iff (hp : Proper r) :
    c ∈ r.live ↔ r.holding? c.generation = some c := by
  rw [live, List.mem_filter]
  constructor
  · rintro ⟨hc, hl⟩
    exact hp.holding?_of_mem hc hl
  · intro h
    obtain ⟨hc, -, hl⟩ := of_holding? h
    exact ⟨hc, hl⟩

theorem Proper.isSome_current?_iff (hp : Proper r) :
    (r.current? X).isSome ↔ ∃ c ∈ r.live, c.identity.Same X := by
  simp only [Option.isSome_iff_exists, hp.current?_eq_some_iff, hp.mem_live_iff]

end Registry

end ReadPool
