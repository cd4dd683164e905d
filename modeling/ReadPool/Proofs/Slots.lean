import Mathlib
import ReadPool.Pool.Slots

/-!
# Tables as lists

A table has one slot for an identity at the most, so what it says of an identity is what stands in
its list; and two tables are the same if their lists are.
-/

namespace ReadPool.Slots

variable {s s' : Slots} {X : Identity} {slot : Slot} {observed : Option Entry}

theorem ext_toList (h : s.toList = s'.toList) : s = s' := by
  cases s
  cases s'
  exact (Slots.mk.injEq ..).mpr h

theorem find?_of_mem {e : Identity × Slot} (he : e ∈ s.toList) : s.find? e.1 = some e.2 := by
  have hd := s.distinct
  rw [find?]
  generalize s.toList = l at he hd
  induction l with
  | nil => cases he
  | cons a l ih =>
    obtain ⟨ha, hl⟩ := List.pairwise_cons.1 hd
    rcases List.mem_cons.1 he with rfl | he
    · simp [Identity.Same.refl]
    · rw [List.find?_cons_of_neg (by simpa using ha e he)]
      exact ih he hl

theorem exists_of_find? (h : s.find? X = some slot) : ∃ Y, (Y, slot) ∈ s.toList ∧ Y.Same X := by
  obtain ⟨⟨Y, slot'⟩, hf, rfl⟩ := Option.map_eq_some_iff.1 h
  exact ⟨Y, List.mem_of_find?_eq_some hf, by simpa using List.find?_some hf⟩

/-- What is published, seen as a list. -/
theorem toList_publish (s : Slots) (X : Identity) (observed : Option Entry) (slot : Slot) :
    (s.publish X observed slot).map toList
      = if (s.find? X).map Slot.entry = observed then
          some (if s.find? X = none then (X, slot) :: s.toList
            else s.toList.map fun e => if Identity.Same e.1 X then (e.1, slot) else e)
        else none := by
  unfold publish
  split
  · next hX => simp [hX, insert]
  · next current entry hX => by_cases he : current.entry = entry <;> simp [hX, he, replace]
  · next observed _ hne hsome =>
    cases hf : s.find? X with
    | none =>
      have hobs : none ≠ observed := fun h => hne hf h.symm
      simp [hobs]
    | some current =>
      have hobs : some current.entry ≠ observed := fun h => hsome current current.entry hf h.symm
      simp [hobs]

/-- Where the table is as it was observed, a slot is published. -/
theorem exists_publish (slot : Slot) (h : (s.find? X).map Slot.entry = observed) :
    ∃ s', s.publish X observed slot = some s' := by
  rw [← Option.ne_none_iff_exists']
  exact fun hnone => publish_eq_none_iff.1 hnone h

end ReadPool.Slots
