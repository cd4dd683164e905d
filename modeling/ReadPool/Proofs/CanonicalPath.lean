import Mathlib
import ReadPool.FileTree.Canonical
import ReadPool.Proofs.NormalForm

/-!
# Canonical paths

A canonical path is its own canonical path. Each of its names has been looked up as a name and found
to be no link; names that are settled in this way are taken one by one as they are when the path is
walked again, however few links are left.
-/

namespace ReadPool.FileTree

variable {t : FileTree} {links : Nat} {back names result : List FileName} {p q : Path}

/-! ## Names that count -/

/-- A piece of a path that is looked up by its name. -/
structure IsName (name : FileName) : Prop where
  ne_nil : name ≠ []
  ne_dot : name ≠ [dot]
  ne_dots : name ≠ [dot, dot]
  slash_notMem : slash ∉ name

instance (name : FileName) : Decidable (IsName name) :=
  decidable_of_iff (name ≠ [] ∧ name ≠ [dot] ∧ name ≠ [dot, dot] ∧ slash ∉ name)
    ⟨fun ⟨hnil, hdot, hdots, hslash⟩ => ⟨hnil, hdot, hdots, hslash⟩,
      fun h => ⟨h.ne_nil, h.ne_dot, h.ne_dots, h.slash_notMem⟩⟩

theorem not_asksDirectory (hne : names ≠ []) (h : ∀ name ∈ names, IsName name) :
    asksDirectory names = false := by
  obtain ⟨name, rest, rfl⟩ := List.exists_cons_of_ne_nil hne
  have hname := h name List.mem_cons_self
  simp [asksDirectory, hname.ne_nil, hname.ne_dot, hname.ne_dots]

theorem pathOf_bytes (hne : names ≠ []) :
    (pathOf names).bytes = slash :: List.intercalate [slash] names := by
  simp only [pathOf, if_neg hne]
  induction names with
  | nil => exact absurd rfl hne
  | cons name rest ih =>
    cases rest with
    | nil => simp
    | cons next rest =>
      rw [List.flatMap_cons, ih (by simp), List.intercalate_cons_cons, List.append_assoc,
        List.cons_append, List.singleton_append]

theorem isAbsolute_pathOf (names : List FileName) : (pathOf names).isAbsolute = true := by
  by_cases hne : names = []
  · subst hne
    decide
  · simp [Path.isAbsolute, pathOf_bytes hne]

theorem pathOf_ne_nil (names : List FileName) : (pathOf names).bytes ≠ [] := by
  by_cases hne : names = []
  · subst hne
    decide
  · simp [pathOf_bytes hne]

/-- A path from the root splits into its names, after the nothing that its first slash ends. -/
theorem splitSlash_pathOf (hne : names ≠ []) (h : ∀ name ∈ names, IsName name) :
    Path.splitSlash (pathOf names).bytes = [] :: names := by
  rw [pathOf_bytes hne, Path.splitSlash, if_pos rfl,
    Path.splitSlash_intercalate hne fun name hmem => (h name hmem).slash_notMem]

/-! ## Settled names -/

/-- The names from the root, last first, each of which leads to a node that is no link. -/
inductive Settled (t : FileTree) : List FileName → Prop where
  | root : Settled t []
  | name {name : FileName} {above : List FileName} {i : Inode} (habove : Settled t above)
      (hname : IsName name) (hfind : t.find .keep (pathOf (name :: above).reverse) = .ok i)
      (hlink : t.link? i = none) : Settled t (name :: above)

/-- Looks up names, last first, to see whether they are settled. -/
def settles (t : FileTree) : List FileName → Bool
  | [] => true
  | name :: above =>
    t.settles above && decide (IsName name) &&
      match t.find .keep (pathOf (name :: above).reverse) with
      | .error _ => false
      | .ok i => (t.link? i).isNone

namespace Settled

theorem of_settles (h : t.settles back) : t.Settled back := by
  induction back with
  | nil => exact .root
  | cons name above ih =>
    obtain ⟨hname, hfound⟩ := Bool.and_eq_true_iff.1 h
    obtain ⟨habove, hname⟩ := Bool.and_eq_true_iff.1 hname
    split at hfound
    · cases hfound
    · next i hfind =>
      exact (ih habove).name (of_decide_eq_true hname) hfind (Option.isNone_iff_eq_none.1 hfound)

theorem tail (h : t.Settled back) : t.Settled back.tail := by
  cases h with
  | root => exact .root
  | name habove => exact habove

theorem isName (h : t.Settled back) : ∀ name ∈ back, IsName name := by
  induction h with
  | root => simp
  | name _ hname _ _ ih => exact List.forall_mem_cons.2 ⟨hname, ih⟩

/-- A path that leads somewhere has no byte that the system cannot be told. -/
theorem not_contains_zero (h : t.Settled back) :
    (pathOf back.reverse).bytes.contains 0 = false := by
  cases h with
  | root => decide
  | name _ _ hfind _ =>
    by_contra hz
    rw [Bool.not_eq_false] at hz
    rw [find, place, pathFault?, if_pos hz] at hfind
    cases hfind

/-- All but the last names of settled names are settled, as are any of them from the root on. -/
theorem of_append (h : t.Settled (names ++ back)) : t.Settled back := by
  induction names with
  | nil => exact h
  | cons name names ih => exact ih h.tail

end Settled

/-! ## The walk -/

/-- All that a canonical path is made of has been found to be settled. -/
theorem settled_canonicalWalk (hback : t.Settled back) (hnames : ∀ name ∈ names, slash ∉ name)
    (h : t.canonicalWalk links back names = .ok result) : t.Settled result.reverse := by
  fun_induction canonicalWalk t links back names with
  | case1 links back =>
    cases h
    rwa [List.reverse_reverse]
  | case2 links back name rest hskip ih =>
    exact ih hback (List.forall_mem_cons.1 hnames).2 h
  | case3 links back rest hskip ih =>
    exact ih hback.tail (List.forall_mem_cons.1 hnames).2 h
  | case4 => cases h
  | case5 => cases h
  | case6 back name rest hskip hdots path i hfind target hlink links ih =>
    -- A link's target goes on from the root, or from the names before the link; both are settled.
    refine ih ?_ ?_ h
    · split
      · exact .root
      · exact hback
    · intro piece hpiece
      rcases List.mem_append.1 hpiece with hpiece | hpiece
      · exact Path.slash_notMem_of_mem_splitSlash hpiece
      · exact (List.forall_mem_cons.1 hnames).2 piece hpiece
  | case7 => cases h
  | case8 links back name rest hskip hdots path i hfind hlink hdir ih =>
    obtain ⟨hname, hrest⟩ := List.forall_mem_cons.1 hnames
    obtain ⟨hnil, hdot⟩ := not_or.1 hskip
    exact ih (hback.name ⟨hnil, hdot, hdots, hname⟩ hfind hlink) hrest h

/-- Settled names are taken as they are. -/
theorem canonicalWalk_of_settled (h : t.Settled (names.reverse ++ back)) :
    t.canonicalWalk links back names = .ok (back.reverse ++ names) := by
  induction names generalizing back with
  | nil => rw [canonicalWalk, List.append_nil]
  | cons name rest ih =>
    have hsettled : t.Settled (rest.reverse ++ name :: back) := by simpa using h
    have hrest : ∀ name ∈ rest, IsName name := fun name hmem =>
      h.isName name (by simp [hmem])
    cases hsettled.of_append with
    | @name _ _ i _ hname hfind hlink =>
      -- What follows is names that count, so that this one is a directory's need not be asked.
      have hdir : ¬ (rest ≠ [] ∧ asksDirectory rest = true ∧ t.isDirectory i = false) := by
        rintro ⟨hne, hasks, -⟩
        rw [not_asksDirectory hne hrest] at hasks
        cases hasks
      rw [canonicalWalk, if_neg (not_or.2 ⟨hname.ne_nil, hname.ne_dot⟩), if_neg hname.ne_dots]
      simp only [hfind, hlink, if_neg hdir]
      rw [ih hsettled, List.reverse_cons, List.append_assoc, List.singleton_append]

/-! ## Asking again -/

theorem realpath_pathOf (h : t.Settled names.reverse) :
    t.realpath (pathOf names) = .ok (pathOf names) := by
  have hzero : (pathOf names).bytes.contains 0 = false := by
    have hzero := h.not_contains_zero
    rwa [List.reverse_reverse] at hzero
  have hwalk : t.canonicalWalk maxLinks [] (Path.splitSlash (pathOf names).bytes) = .ok names := by
    by_cases hne : names = []
    · subst hne
      simp [pathOf, Path.splitSlash, canonicalWalk]
    · have hnames : ∀ name ∈ names, IsName name := fun name hmem =>
        h.isName name (List.mem_reverse.2 hmem)
      rw [splitSlash_pathOf hne hnames, canonicalWalk, if_pos (.inl rfl),
        canonicalWalk_of_settled (by simpa using h), List.reverse_nil, List.nil_append]
  rw [realpath, hzero, if_neg Bool.false_ne_true, if_neg (pathOf_ne_nil names), isAbsolute_pathOf,
    if_pos rfl]
  exact congrArg (Except.map pathOf) hwalk

theorem settled_of_walk (hback : t.Settled back)
    (h : (t.canonicalWalk links back (Path.splitSlash p.bytes)).map pathOf = .ok q) :
    ∃ names, t.Settled names.reverse ∧ q = pathOf names := by
  cases hwalk : t.canonicalWalk links back (Path.splitSlash p.bytes) with
  | error e =>
    rw [hwalk] at h
    cases h
  | ok names =>
    rw [hwalk] at h
    cases h
    exact ⟨names, settled_canonicalWalk hback (fun _ => Path.slash_notMem_of_mem_splitSlash) hwalk,
      rfl⟩

/-- The names that relative paths start from are canonical. -/
def BaseSettled (t : FileTree) : Prop :=
  ∀ names, t.namesOf? t.base = some names → t.Settled names.reverse

theorem baseSettled_of_settles (hbase : t.namesOf? t.base = some names)
    (h : t.settles names.reverse) : t.BaseSettled := by
  intro names' hbase'
  cases hbase.symm.trans hbase'
  exact .of_settles h

theorem settled_of_realpath (hbase : p.isAbsolute = true ∨ t.BaseSettled)
    (h : t.realpath p = .ok q) : ∃ names, t.Settled names.reverse ∧ q = pathOf names := by
  unfold realpath at h
  split_ifs at h with hzero hnil habs
  · exact settled_of_walk .root h
  · split at h
    · cases h
    · next start hstart => exact settled_of_walk (hbase.resolve_left habs start hstart) h

/-- A canonical path is its own canonical path. -/
theorem realpath_realpath (hbase : p.isAbsolute = true ∨ t.BaseSettled)
    (h : t.realpath p = .ok q) : t.realpath q = .ok q := by
  obtain ⟨names, hnames, rfl⟩ := settled_of_realpath hbase h
  exact realpath_pathOf hnames

end ReadPool.FileTree
