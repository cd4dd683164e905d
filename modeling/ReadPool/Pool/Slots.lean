import ReadPool.Identity

/-!
# Slots

The table of a pool: for an identity, the entry that was published for it last and the wrapper to
find it by. An identity has one slot at the most. A slot goes in or out by one of two operations,
both of which look at what is there first: `publish` compares with what its caller observed, and
`evict` with the entry that died.

`find?` is the view of a table: each operation has a lemma that says what it does to it.
-/

namespace ReadPool

/-- The number of an open, counted from zero in each pool. -/
abbrev Entry := UInt64

/-- The place of a wrapper in the world. -/
abbrev WrapperId := Nat

/-- A weakly held wrapper. -/
structure Slot where
  entry : Entry
  wrapper : WrapperId
deriving DecidableEq, Repr

structure Slots where
  toList : List (Identity × Slot)
  distinct : toList.Pairwise fun a b => ¬ Identity.Same a.1 b.1
deriving DecidableEq

namespace Slots

def empty : Slots := ⟨[], .nil⟩

def size (s : Slots) : Nat := s.toList.length

/-- The slot of an identity, whatever its spelling. -/
def find? (s : Slots) (X : Identity) : Option Slot :=
  (s.toList.find? fun e => Identity.Same e.1 X).map (·.2)

theorem find?_congr {X Y : Identity} (s : Slots) (h : Identity.Same X Y) :
    s.find? X = s.find? Y := by
  have hp : (fun e : Identity × Slot => decide (Identity.Same e.1 X))
      = fun e => decide (Identity.Same e.1 Y) := by
    funext e
    exact decide_eq_decide.2 ⟨fun h' => h'.trans h, fun h' => h'.trans h.symm⟩
  rw [find?, find?, hp]

@[simp] theorem find?_empty (X : Identity) : empty.find? X = none := rfl

theorem not_same_of_find?_eq_none {s : Slots} {X : Identity} (h : s.find? X = none) :
    ∀ e ∈ s.toList, ¬ Identity.Same X e.1 := by
  simp only [find?, Option.map_eq_none_iff, List.find?_eq_none, decide_eq_true_eq] at h
  exact fun e he hs => h e he hs.symm

/-! ## Changing one slot -/

/-- A slot for an identity that has none. -/
def insert (s : Slots) (X : Identity) (slot : Slot) (h : s.find? X = none) : Slots where
  toList := (X, slot) :: s.toList
  distinct := List.pairwise_cons.2 ⟨not_same_of_find?_eq_none h, s.distinct⟩

/-- Another slot for an identity; the key keeps its spelling. -/
def replace (s : Slots) (X : Identity) (slot : Slot) : Slots where
  toList := s.toList.map fun e => if Identity.Same e.1 X then (e.1, slot) else e
  distinct := by
    refine List.pairwise_map.2 (s.distinct.imp fun {a b} hab => ?_)
    split <;> split <;> exact hab

def erase (s : Slots) (X : Identity) : Slots where
  toList := s.toList.filter fun e => ¬ Identity.Same e.1 X
  distinct := s.distinct.filter _

theorem find?_insert (s : Slots) (X Y : Identity) (slot : Slot) (h : s.find? X = none) :
    (s.insert X slot h).find? Y = if Identity.Same X Y then some slot else s.find? Y := by
  by_cases hXY : Identity.Same X Y
  · simp [find?, insert, hXY]
  · simp [find?, insert, hXY]

theorem find?_replace (s : Slots) (X Y : Identity) (slot : Slot) :
    (s.replace X slot).find? Y
      = if Identity.Same X Y then (s.find? Y).map fun _ => slot else s.find? Y := by
  simp only [find?, replace, List.find?_map, Option.map_map, Function.comp_def, apply_ite Prod.fst,
    ite_self]
  cases hf : s.toList.find? fun e => Identity.Same e.1 Y with
  | none => simp
  | some e =>
    have he : Identity.Same e.1 Y := by simpa using List.find?_some hf
    by_cases hXY : Identity.Same X Y
    · simp [hXY, he.trans hXY.symm]
    · have hne : ¬ Identity.Same e.1 X := fun h => hXY (h.symm.trans he)
      simp [hXY, hne]

theorem find?_erase (s : Slots) (X Y : Identity) :
    (s.erase X).find? Y = if Identity.Same X Y then none else s.find? Y := by
  simp only [find?, erase, List.find?_filter]
  by_cases hXY : Identity.Same X Y
  · rw [if_pos hXY, Option.map_eq_none_iff, List.find?_eq_none]
    intro e _ h
    simp only [decide_not, Bool.not_eq_true', decide_eq_false_iff_not,
      decide_eq_true_eq] at h
    exact h.1 (h.2.trans hXY.symm)
  · rw [if_neg hXY]
    congr 2
    funext e
    by_cases he : Identity.Same e.1 Y
    · have hne : ¬ Identity.Same e.1 X := fun h => hXY (h.symm.trans he)
      simp [he, hne]
    · simp [he]

/-! ## Comparing first -/

/-- Puts the slot in if the table still is as observed: nothing there, or that entry there. -/
def publish (s : Slots) (X : Identity) (observed : Option Entry) (slot : Slot) : Option Slots :=
  match h : s.find? X, observed with
  | none, none => some (s.insert X slot h)
  | some current, some entry => if current.entry = entry then some (s.replace X slot) else none
  | _, _ => none

/-- The slot still carries the entry that died. -/
def isCurrent (s : Slots) (X : Identity) (entry : Entry) : Bool :=
  (s.find? X).any (·.entry = entry)

/-- Takes the slot out if it still carries the entry that died. -/
def evict (s : Slots) (X : Identity) (entry : Entry) : Slots :=
  if s.isCurrent X entry then s.erase X else s

/-- A slot is published exactly where the table is as it was observed. -/
theorem publish_eq_none_iff {s : Slots} {X : Identity} {observed : Option Entry} {slot : Slot} :
    s.publish X observed slot = none ↔ (s.find? X).map Slot.entry ≠ observed := by
  unfold publish
  split
  · next hX => simp [hX]
  · next current entry hX =>
    by_cases he : current.entry = entry <;> simp [hX, he]
  · next hX hne hsome =>
    simp only [true_iff]
    intro he
    cases hf : s.find? X with
    | none => exact hne hf (by simpa [hf] using he.symm)
    | some current => exact hsome current current.entry hf (by simpa [hf] using he.symm)

theorem find?_publish {s s' : Slots} {X : Identity} {observed : Option Entry} {slot : Slot}
    (h : s.publish X observed slot = some s') (Y : Identity) :
    s'.find? Y = if Identity.Same X Y then some slot else s.find? Y := by
  unfold publish at h
  split at h
  · next hX =>
    cases h
    exact find?_insert s X Y slot hX
  · next current entry hX =>
    split at h
    · cases h
      rw [find?_replace]
      by_cases hXY : Identity.Same X Y
      · rw [if_pos hXY, if_pos hXY, ← find?_congr s hXY, hX, Option.map_some]
      · rw [if_neg hXY, if_neg hXY]
    · cases h
  · cases h

theorem find?_evict (s : Slots) (X Y : Identity) (entry : Entry) :
    (s.evict X entry).find? Y
      = if Identity.Same X Y ∧ s.isCurrent X entry then none else s.find? Y := by
  unfold evict
  by_cases hc : s.isCurrent X entry = true
  · rw [if_pos hc, find?_erase]
    simp [hc]
  · rw [if_neg hc]
    simp [hc]

end Slots

end ReadPool
