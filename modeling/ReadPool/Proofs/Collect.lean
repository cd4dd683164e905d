import Mathlib

/-!
# Collecting

What the elements of a bag or a list have, all of it in one bag. The invariants of a system are
equations between such bags: whatever one element loses by a step, another gains.
-/

namespace ReadPool

variable {α β γ : Type*}

def collect (g : α → Multiset β) (s : Multiset α) : Multiset β := s.bind g

variable (g : α → Multiset β)

@[simp] theorem collect_zero : collect g 0 = 0 := Multiset.zero_bind g

@[simp] theorem collect_nil : collect g (([] : List α) : Multiset α) = 0 := Multiset.zero_bind g

@[simp] theorem collect_singleton (a : α) : collect g {a} = g a := Multiset.singleton_bind a g

@[simp] theorem collect_cons (a : α) (s : Multiset α) : collect g (a ::ₘ s) = g a + collect g s :=
  Multiset.cons_bind a s g

@[simp] theorem collect_coe_cons (a : α) (l : List α) :
    collect g ((a :: l : List α) : Multiset α) = g a + collect g l := Multiset.cons_bind a l g

@[simp] theorem collect_add (s t : Multiset α) : collect g (s + t) = collect g s + collect g t :=
  Multiset.add_bind s t g

@[simp] theorem collect_coe_append (l l' : List α) :
    collect g ((l ++ l' : List α) : Multiset α) = collect g l + collect g l' := by
  rw [← Multiset.coe_add, collect_add]

variable {g}

theorem mem_collect {b : β} {s : Multiset α} : b ∈ collect g s ↔ ∃ a ∈ s, b ∈ g a :=
  Multiset.mem_bind

theorem collect_add_fun (g' : α → Multiset β) (s : Multiset α) :
    collect (fun a => g a + g' a) s = collect g s + collect g' s := Multiset.bind_add s g g'

theorem map_collect (f : β → γ) (s : Multiset α) :
    (collect g s).map f = collect (fun a => (g a).map f) s := Multiset.map_bind s g f

theorem collect_mono {g' : α → Multiset β} (h : ∀ a, g a ≤ g' a) (s : Multiset α) :
    collect g s ≤ collect g' s := by
  induction s using Multiset.induction_on with
  | empty => exact le_rfl
  | cons a s ih =>
    rw [collect_cons, collect_cons]
    exact add_le_add (h a) ih

/-- Where nothing is collected twice, it comes from one element. -/
theorem eq_of_mem_collect {s : Multiset α} (hn : (collect g s).Nodup) {a a' : α} (ha : a ∈ s)
    (ha' : a' ∈ s) {b : β} (hb : b ∈ g a) (hb' : b ∈ g a') : a = a' := by
  by_contra hne
  obtain ⟨t, rfl⟩ := Multiset.exists_cons_of_mem ha
  have hat : a' ∈ t := (Multiset.mem_cons.1 ha').resolve_left (Ne.symm hne)
  rw [collect_cons] at hn
  exact Multiset.disjoint_left.1 (Multiset.nodup_add.1 hn).2.2 hb (mem_collect.2 ⟨a', hat, hb'⟩)

/-! ## One element of a list -/

variable {l : List α} {i : ℕ} {a : α}

/-- A change of one element changes what is collected by what it changes in its own. -/
theorem collect_modify (f : α → α) (h : l[i]? = some a) :
    collect g (l.modify i f) + g a = collect g l + g (f a) := by
  induction l generalizing i with
  | nil => simp at h
  | cons b l ih =>
    cases i with
    | zero =>
      obtain rfl : b = a := by simpa using h
      simp only [List.modify_zero_cons, collect_coe_cons]
      abel
    | succ i =>
      have hi := ih (i := i) (by simpa using h)
      simp only [List.modify_succ_cons, collect_coe_cons, add_assoc, hi]

theorem collect_modify_of_eq (f : α → α) (h : ∀ a, g (f a) = g a) :
    collect g (l.modify i f) = collect g l := by
  induction l generalizing i with
  | nil => simp
  | cons b l ih => cases i <;> simp [h, ih]

end ReadPool
