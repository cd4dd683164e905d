import Mathlib
import ReadPool.Pool.Slots

/-!
# What identities are known by

Identities are the same where they have one key, which is the list of their components. Tables and
counts go by that, and so does the comparison: it has no difference to find just where the keys are
equal (`compare_eq_iff`). Up to that it is a total order, and sorting by it leaves the spellings of
one identity in the order they came in.

The order of keys comes from that of single components, which has the four kinds in turn and names by
their bytes.
-/

namespace ReadPool

namespace Identity

/-- What an identity is known by. -/
def key (X : Identity) : List Component := X.path.components

theorem same_iff_key {X Y : Identity} : X.Same Y ↔ X.key = Y.key := Iff.rfl

theorem countDistinct_eq_card (xs : List Identity) :
    countDistinct xs = (xs.map key).toFinset.card := by
  induction xs with
  | nil => rfl
  | cons x xs ih =>
    rw [countDistinct, List.map_cons, List.toFinset_cons, ih]
    by_cases hx : ∃ y ∈ xs, Same x y
    · rw [if_pos (by simpa using hx), Finset.insert_eq_of_mem]
      · rfl
      · obtain ⟨y, hy, hxy⟩ := hx
        simpa using ⟨y, hy, (same_iff_key.1 hxy).symm⟩
    · rw [if_neg (by simpa using hx), Finset.card_insert_of_notMem]
      simp only [List.mem_toFinset, List.mem_map, not_exists, not_and]
      exact fun y hy hyx => hx ⟨y, hy, same_iff_key.2 hyx.symm⟩

end Identity

/-! ## The order of components -/

namespace Component

/-- Components are compared by their kinds, and then by their bytes, which only names differ in. -/
theorem compare_eq : Component.compare = compareLex (compareOn rank) (compareOn bytes) := by
  funext a b
  cases a with
  | name x =>
    cases b with
    | name y => exact (congrFun₂ List.compare_eq_compareLex x y).symm
    | _ => rfl
  | _ => cases b <;> rfl

theorem eq_of_rank_eq {a b : Component} (hrank : a.rank = b.rank) (hbytes : a.bytes = b.bytes) :
    a = b := by
  cases a with
  | name x =>
    cases b with
    | name y => exact congrArg name hbytes
    | _ => cases hrank
  | _ => cases b <;> first | rfl | cases hrank

instance : Std.TransCmp Component.compare := compare_eq ▸ inferInstance

instance : Std.LawfulEqCmp Component.compare where
  compare_self := Std.ReflCmp.compare_self
  eq_of_compare {a b} h := by
    rw [compare_eq, compareLex_eq_eq] at h
    exact eq_of_rank_eq (compare_eq_iff_eq.1 h.1) (Std.LawfulEqCmp.eq_of_compare h.2)

end Component

/-! ## The order of identities -/

namespace Identity

variable {x y x' y' : Identity}

theorem compare_eq (x y : Identity) :
    x.compare y = List.compareLex Component.compare x.key y.key := rfl

theorem compare_eq_iff : x.compare y = .eq ↔ x.Same y := by
  rw [compare_eq, Std.LawfulEqCmp.compare_eq_iff_eq]
  rfl

instance : Std.TransCmp Identity.compare where
  eq_swap {x y} := by
    rw [compare_eq, compare_eq]
    exact Std.OrientedCmp.eq_swap
  isLE_trans {x y z} hxy hyz := by
    rw [compare_eq] at hxy hyz ⊢
    exact Std.TransCmp.isLE_trans hxy hyz

/-- Spellings do not matter to the order. -/
theorem compare_congr (hx : x.Same x') (hy : y.Same y') : x.compare y = x'.compare y' := by
  rw [Identity.compare, Identity.compare, Path.compare, Path.compare, hx, hy]

theorem isLE_total (x y : Identity) : (x.compare y).isLE ∨ (y.compare x).isLE := by
  have hswap : y.compare x = (x.compare y).swap := Std.OrientedCmp.eq_swap
  rw [hswap]
  cases x.compare y <;> simp

theorem same_of_isLE (hxy : (x.compare y).isLE) (hyx : (y.compare x).isLE) : x.Same y :=
  compare_eq_iff.1 (Std.OrientedCmp.isLE_antisymm hxy hyx)

/-- What is left over decides. -/
theorem compare_of_prefix (h : x.key <+: y.key) (hne : ¬ x.Same y) : x.compare y = .lt := by
  obtain ⟨rest, hrest⟩ := h
  have hcons : rest ≠ [] := by
    rintro rfl
    exact hne ((List.append_nil _).symm.trans hrest)
  rw [compare_eq, ← hrest]
  induction x.key with
  | nil =>
    obtain ⟨c, cs, rfl⟩ := List.exists_cons_of_ne_nil hcons
    rfl
  | cons c cs ih =>
    have hself : c.compare c = .eq := Std.ReflCmp.compare_self
    rw [List.cons_append, List.compareLex_cons_cons, hself]
    exact ih

/-! ## Sorting -/

theorem pairwise_sort (xs : List Identity) :
    (sort xs).Pairwise fun x y => (x.compare y).isLE :=
  List.pairwise_mergeSort (fun _ _ _ => Std.TransCmp.isLE_trans)
    (fun x y => by simpa using isLE_total x y) xs

theorem sort_perm (xs : List Identity) : (sort xs).Perm xs := List.mergeSort_perm ..

/-- The spellings of one identity stay in the order they came in. -/
theorem filter_same_sort (x : Identity) (xs : List Identity) :
    (sort xs).filter (fun y => x.Same y) = xs.filter fun y => x.Same y := by
  have hle : (xs.filter fun y => x.Same y).Pairwise fun y z => (y.compare z).isLE := by
    refine List.pairwise_of_forall_mem_list fun y hy z hz => ?_
    have hyz : y.Same z := by
      simp only [List.mem_filter, decide_eq_true_eq] at hy hz
      exact hy.2.symm.trans hz.2
    rw [compare_eq_iff.2 hyz]
    rfl
  have hsub : (xs.filter fun y => x.Same y).Sublist (sort xs) :=
    List.sublist_mergeSort (fun _ _ _ => Std.TransCmp.isLE_trans)
      (fun x y => by simpa using isLE_total x y) hle List.filter_sublist
  have hsub' : (xs.filter fun y => x.Same y).Sublist ((sort xs).filter fun y => x.Same y) := by
    simpa [List.filter_filter] using hsub.filter fun y => decide (x.Same y)
  exact (hsub'.eq_of_length ((sort_perm xs).symm.filter _).length_eq).symm

/-- Identities have one order, by their components. It finds no difference where tables and counts
see one identity, does not depend on spellings, and up to them is total; what begins another is
less. A list sorted by it has the same members, each with its spelling, and those of one identity as
they came. -/
theorem order_total_up_to_spelling :
    (∀ x y : Identity, (x.compare y = .eq ↔ x.Same y) ∧
      (x.Same y ↔ x.path.components = y.path.components)) ∧
    (∀ (s : Slots) (x : Identity),
      s.find? x = (s.toList.find? fun e => e.1.compare x = .eq).map (·.2)) ∧
    (∀ xs, countDistinct xs = (xs.map fun x => x.path.components).toFinset.card) ∧
    (∀ x x' y y' : Identity, x.Same x' → y.Same y' → x.compare y = x'.compare y') ∧
    (∀ x y : Identity, x.compare y = (y.compare x).swap) ∧
    (∀ x y : Identity, (x.compare y).isLE ∨ (y.compare x).isLE) ∧
    (∀ x y : Identity, (x.compare y).isLE → (y.compare x).isLE → x.Same y) ∧
    (∀ x y z : Identity, (x.compare y).isLE → (y.compare z).isLE → (x.compare z).isLE) ∧
    (∀ x y : Identity, x.path.components <+: y.path.components →
      x.path.components ≠ y.path.components → x.compare y = .lt) ∧
    ∀ xs, (sort xs).Perm xs ∧ ((sort xs).Pairwise fun x y => (x.compare y).isLE) ∧
      ∀ x : Identity, (sort xs).filter (fun y => x.Same y) = xs.filter fun y => x.Same y := by
  refine ⟨fun x y => ⟨compare_eq_iff, Iff.rfl⟩, fun s x => ?_, countDistinct_eq_card,
    fun _ _ _ _ => compare_congr, fun _ _ => Std.OrientedCmp.eq_swap, isLE_total,
    fun _ _ => same_of_isLE, fun _ _ _ => Std.TransCmp.isLE_trans, fun _ _ => compare_of_prefix,
    fun xs => ⟨sort_perm xs, pairwise_sort xs, fun x => filter_same_sort x xs⟩⟩
  simp only [Slots.find?, compare_eq_iff]

/-- A slash is more than a hyphen, but it ends a name, and what begins another name is less. -/
theorem order_total_up_to_spelling_hyphen :
    (⟨.ofString "/a//b"⟩ : Identity).Same ⟨.ofString "/a/./b/"⟩ ∧
    (⟨.ofString "/a/./b/"⟩ : Identity).compare ⟨.ofString "/a-b"⟩ = .lt ∧
    (⟨.ofString "/a"⟩ : Identity).compare ⟨.ofString "/a//b"⟩ = .lt ∧
    ((⟨.ofString "/a"⟩ : Identity).compare ⟨.ofString "/a-b"⟩).isLE := by
  obtain ⟨-, -, -, hcongr, -, -, hantisymm, htrans, hbegins, -⟩ := order_total_up_to_spelling
  have hsame : (⟨.ofString "/a//b"⟩ : Identity).Same ⟨.ofString "/a/./b/"⟩ :=
    hantisymm _ _ (by decide +kernel) (by decide +kernel)
  have hlt : (⟨.ofString "/a//b"⟩ : Identity).compare ⟨.ofString "/a-b"⟩ = .lt := by decide +kernel
  have hfirst : (⟨.ofString "/a"⟩ : Identity).compare ⟨.ofString "/a//b"⟩ = .lt :=
    hbegins _ _ (by decide +kernel) (by decide +kernel)
  refine ⟨hsame, ?_, hfirst, htrans _ ⟨.ofString "/a//b"⟩ _ ?_ ?_⟩
  · rw [← hcongr _ _ _ _ hsame (.refl _), hlt]
  · rw [hfirst]
    rfl
  · rw [hlt]
    rfl

end Identity

end ReadPool
