import Mathlib
import ReadPool.Identity

/-!
# The normal form of a path

What the components of a path are written back to has the same components, so the spellings of one
path have one of them in common.
-/

namespace ReadPool

namespace Path

variable {bytes piece : List UInt8} {pieces : List (List UInt8)}

/-! ## Splitting and joining -/

theorem splitSlash_ne_nil (bytes : List UInt8) : splitSlash bytes ≠ [] := by
  cases bytes with
  | nil => simp [splitSlash]
  | cons b bytes =>
    rw [splitSlash]
    split
    · simp
    · split <;> simp

theorem splitSlash_cons (h : b ≠ slash) (bytes : List UInt8) :
    ∃ first rest, splitSlash bytes = first :: rest ∧
      splitSlash (b :: bytes) = (b :: first) :: rest := by
  obtain ⟨first, rest, hsplit⟩ := List.exists_cons_of_ne_nil (splitSlash_ne_nil bytes)
  exact ⟨first, rest, hsplit, by rw [splitSlash, if_neg h, hsplit]⟩

theorem slash_notMem_of_mem_splitSlash (h : piece ∈ splitSlash bytes) : slash ∉ piece := by
  induction bytes generalizing piece with
  | nil =>
    obtain rfl : piece = [] := by simpa [splitSlash] using h
    simp
  | cons b bytes ih =>
    by_cases hb : b = slash
    · rw [splitSlash, if_pos hb] at h
      rcases List.mem_cons.1 h with rfl | h
      · simp
      · exact ih h
    · obtain ⟨first, rest, hsplit, hcons⟩ := splitSlash_cons hb bytes
      rw [hcons] at h
      rw [hsplit] at ih
      rcases List.mem_cons.1 h with rfl | h
      · simp [Ne.symm hb, ih List.mem_cons_self]
      · exact ih (List.mem_cons_of_mem _ h)

theorem splitSlash_of_notMem (h : slash ∉ piece) : splitSlash piece = [piece] := by
  induction piece with
  | nil => rfl
  | cons b piece ih =>
    simp only [List.mem_cons, not_or] at h
    rw [splitSlash, if_neg (Ne.symm h.1), ih h.2]

theorem splitSlash_append (h : slash ∉ piece) (bytes : List UInt8) :
    splitSlash (piece ++ slash :: bytes) = piece :: splitSlash bytes := by
  induction piece with
  | nil => rw [List.nil_append, splitSlash, if_pos rfl]
  | cons b piece ih =>
    simp only [List.mem_cons, not_or] at h
    rw [List.cons_append, splitSlash, if_neg (Ne.symm h.1), ih h.2]

theorem splitSlash_intercalate (hne : pieces ≠ []) (h : ∀ piece ∈ pieces, slash ∉ piece) :
    splitSlash (List.intercalate [slash] pieces) = pieces := by
  induction pieces with
  | nil => exact absurd rfl hne
  | cons piece pieces ih =>
    obtain ⟨hpiece, hpieces⟩ := List.forall_mem_cons.1 h
    cases pieces with
    | nil => rw [List.intercalate_singleton, splitSlash_of_notMem hpiece]
    | cons next rest =>
      rw [List.intercalate_cons_cons, List.append_assoc, List.singleton_append,
        splitSlash_append hpiece, ih (by simp) hpieces]

/-! ## Lists of components -/

end Path

/-- A component that stands for a piece between slashes. -/
structure Component.IsPiece (c : Component) : Prop where
  component? : Path.component? c.bytes = some c
  slash_notMem : slash ∉ c.bytes

namespace Component.IsPiece

variable {c : Component}

theorem bytes_ne_nil (h : c.IsPiece) : c.bytes ≠ [] := by
  intro hnil
  simpa [Path.component?, hnil] using h.component?

theorem bytes_ne_dot (h : c.IsPiece) : c.bytes ≠ [dot] := by
  intro hdot
  simpa [Path.component?, hdot] using h.component?

end Component.IsPiece

namespace Path

variable {p : Path} {bytes piece : List UInt8} {c : Component} {cs : List Component}

theorem bytes_of_component? (h : component? piece = some c) : c.bytes = piece := by
  unfold component? at h
  split at h
  · cases h
  · split at h
    · next hdots =>
      cases h
      exact hdots.symm
    · cases h
      rfl

/-- The components that pieces give after a slash. -/
def parts (bytes : List UInt8) : List Component := (splitSlash bytes).filterMap component?

theorem components_eq (bytes : List UInt8) : components ⟨bytes⟩ = start bytes ++ parts bytes := rfl

theorem isPiece_of_mem_parts (h : c ∈ parts bytes) : c.IsPiece := by
  obtain ⟨piece, hmem, hpiece⟩ := List.mem_filterMap.1 h
  have hbytes := bytes_of_component? hpiece
  exact ⟨hbytes.symm ▸ hpiece, hbytes.symm ▸ slash_notMem_of_mem_splitSlash hmem⟩

/-- What the components of a path look like. -/
inductive IsSpelled : List Component → Prop where
  | plain {cs : List Component} (h : ∀ c ∈ cs, c.IsPiece) : IsSpelled cs
  | root {cs : List Component} (h : ∀ c ∈ cs, c.IsPiece) : IsSpelled (.root :: cs)
  | current {cs : List Component} (h : ∀ c ∈ cs, c.IsPiece) : IsSpelled (.current :: cs)

theorem isSpelled_components (p : Path) : IsSpelled p.components := by
  have hparts : ∀ c ∈ parts p.bytes, c.IsPiece := fun _ => isPiece_of_mem_parts
  unfold components start
  split
  · exact .root hparts
  · split
    · exact .current hparts
    · exact .plain hparts

theorem filterMap_component? (h : ∀ c ∈ cs, c.IsPiece) :
    (cs.map Component.bytes).filterMap component? = cs := by
  rw [List.filterMap_map]
  exact (List.filterMap_congr fun c hc => (h c hc).component?).trans (List.filterMap_some)

/-- The first byte of joined pieces is that of the first piece. -/
theorem head?_intercalate (hpiece : piece ≠ []) (pieces : List (List UInt8)) :
    (List.intercalate [slash] (piece :: pieces)).head? = piece.head? := by
  obtain ⟨b, rest, rfl⟩ := List.exists_cons_of_ne_nil hpiece
  cases pieces with
  | nil => simp
  | cons next pieces => simp [List.intercalate_cons_cons]

/-- A list of components that could be those of a path is what its own spelling has. -/
theorem components_ofComponents (h : IsSpelled cs) : (ofComponents cs).components = cs := by
  have slashless {cs : List Component} (hcs : ∀ c ∈ cs, c.IsPiece) :
      ∀ piece ∈ cs.map Component.bytes, slash ∉ piece := by
    intro piece hpiece
    obtain ⟨c, hc, rfl⟩ := List.mem_map.1 hpiece
    exact (hcs c hc).slash_notMem
  cases h with
  | plain hcs =>
    cases cs with
    | nil => rfl
    | cons c cs =>
      have hc := hcs c List.mem_cons_self
      have hof : ofComponents (c :: cs)
          = ⟨List.intercalate [slash] ((c :: cs).map Component.bytes)⟩ := by
        unfold ofComponents
        split
        · next heq =>
          cases heq
          exact absurd hc.component? (by decide)
        · rfl
      have hsplit := splitSlash_intercalate (by simp) (slashless hcs)
      have hhead : (List.intercalate [slash] ((c :: cs).map Component.bytes)).head?
          ≠ some slash := by
        rw [List.map_cons, head?_intercalate hc.bytes_ne_nil]
        exact fun hs => hc.slash_notMem (List.mem_of_mem_head? hs)
      rw [hof, components, start, if_neg hhead, hsplit, if_neg (by simpa using hc.bytes_ne_dot),
        filterMap_component? hcs, List.nil_append]
  | @root cs hcs =>
    cases cs with
    | nil => rfl
    | cons c cs =>
      have hof : ofComponents (.root :: c :: cs)
          = ⟨slash :: List.intercalate [slash] ((c :: cs).map Component.bytes)⟩ := rfl
      rw [hof, components, start, if_pos List.head?_cons, splitSlash, if_pos rfl,
        splitSlash_intercalate (by simp) (slashless hcs), List.filterMap_cons_none rfl,
        filterMap_component? hcs, List.singleton_append]
  | @current cs hcs =>
    have hof : ofComponents (.current :: cs)
        = ⟨List.intercalate [slash] ([dot] :: cs.map Component.bytes)⟩ := by
      cases cs <;> rfl
    have hsplit : splitSlash (List.intercalate [slash] ([dot] :: cs.map Component.bytes))
        = [dot] :: cs.map Component.bytes :=
      splitSlash_intercalate (by simp) (List.forall_mem_cons.2 ⟨by decide, slashless hcs⟩)
    have hhead : (List.intercalate [slash] ([dot] :: cs.map Component.bytes)).head?
        ≠ some slash := by
      rw [head?_intercalate (by simp)]
      decide
    rw [hof, components, start, if_neg hhead, hsplit, if_pos List.head?_cons,
      List.filterMap_cons_none rfl, filterMap_component? hcs, List.singleton_append]

theorem components_normalize (p : Path) : p.normalize.components = p.components :=
  components_ofComponents (isSpelled_components p)

end Path

namespace Identity

variable {X Y : Identity}

/-- The identity in the spelling that has nothing to spare. -/
def normal (X : Identity) : Identity := ⟨X.path.normalize⟩

theorem same_normal (X : Identity) : X.normal.Same X := X.path.components_normalize

theorem normal_eq_iff : X.normal = Y.normal ↔ X.Same Y := by
  constructor
  · exact fun h => (same_normal X).symm.trans (h ▸ same_normal Y)
  · intro h
    rw [normal, normal, Path.normalize, Path.normalize, h]

@[simp] theorem same_normal_left : X.normal.Same Y ↔ X.Same Y :=
  ⟨(same_normal X).symm.trans, (same_normal X).trans⟩

@[simp] theorem same_normal_right : X.Same Y.normal ↔ X.Same Y :=
  ⟨fun h => h.trans (same_normal Y), fun h => h.trans (same_normal Y).symm⟩

end Identity

end ReadPool
