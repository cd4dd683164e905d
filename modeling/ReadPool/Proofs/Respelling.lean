import Mathlib
import ReadPool.Proofs.NormalForm

/-!
# What a spelling may vary in

A slash cuts a path in two, and what comes after it counts by its pieces alone
(`components_append_slash`). So more slashes and a `.` after a piece change nothing, while a root, a
`.` at the beginning and every `..` are there in all spellings of a path, the normal form being one.
-/

namespace ReadPool

namespace Path

variable {p q : Path} {bytes before after piece : List UInt8} {c : Component}

/-! ## Pieces after a slash -/

@[simp] theorem parts_nil : parts [] = [] := rfl

@[simp] theorem parts_dot : parts [dot] = [] := rfl

theorem splitSlash_append_slash (before after : List UInt8) :
    splitSlash (before ++ slash :: after) = splitSlash before ++ splitSlash after := by
  induction before with
  | nil => exact splitSlash_append List.not_mem_nil after
  | cons b before ih =>
    by_cases hb : b = slash
    · rw [List.cons_append, splitSlash, if_pos hb, ih, splitSlash, if_pos hb, List.cons_append]
    · obtain ⟨first, rest, hsplit, hcons⟩ := splitSlash_cons hb before
      rw [List.cons_append, splitSlash, if_neg hb, ih, hcons, hsplit]
      rfl

theorem parts_append_slash (before after : List UInt8) :
    parts (before ++ slash :: after) = parts before ++ parts after := by
  rw [parts, splitSlash_append_slash, List.filterMap_append, parts, parts]

@[simp] theorem parts_slash (bytes : List UInt8) : parts (slash :: bytes) = parts bytes :=
  parts_append_slash [] bytes

/-- Where a path starts, it starts in front of its first slash. -/
theorem start_append_slash (hne : before ≠ []) (after : List UInt8) :
    start (before ++ slash :: after) = start before := by
  obtain ⟨b, rest, rfl⟩ := List.exists_cons_of_ne_nil hne
  rw [start, start, splitSlash_append_slash,
    List.head?_append_of_ne_nil _ (splitSlash_ne_nil (b :: rest))]
  rfl

theorem components_append_slash (before after : List UInt8) :
    components ⟨before ++ slash :: after⟩ = components ⟨before ++ [slash]⟩ ++ parts after := by
  cases before with
  | nil => rfl
  | cons b rest =>
    have hne : b :: rest ≠ [] := List.cons_ne_nil b rest
    rw [components_eq, components_eq, start_append_slash hne, start_append_slash hne,
      parts_append_slash, parts_append_slash, parts_nil, List.append_nil, List.append_assoc]

/-! ## What may vary -/

theorem components_slash_end (hne : bytes ≠ []) :
    components ⟨bytes ++ [slash]⟩ = components ⟨bytes⟩ := by
  rw [components_eq, start_append_slash hne, parts_append_slash, parts_nil, List.append_nil,
    components_eq]

/-- A run of slashes counts once. -/
theorem components_replicate_slash (before after : List UInt8) (n : Nat) :
    components ⟨before ++ List.replicate (n + 1) slash ++ after⟩
      = components ⟨before ++ slash :: after⟩ := by
  have hparts : parts (List.replicate n slash ++ after) = parts after := by
    induction n with
    | zero => rfl
    | succ n ih => rw [List.replicate_succ, List.cons_append, parts_slash, ih]
  rw [List.replicate_succ, List.append_assoc, List.cons_append, components_append_slash, hparts,
    ← components_append_slash]

/-- A `.` behind a piece does not count. The piece in front of a root's slash is empty. -/
theorem components_slash_dot (hne : before ++ after ≠ [])
    (hafter : after = [] ∨ after.head? = some slash) :
    components ⟨before ++ [slash, dot] ++ after⟩ = components ⟨before ++ after⟩ := by
  rw [List.append_assoc, List.cons_append, List.singleton_append, components_append_slash]
  rcases hafter with rfl | hslash
  · rw [List.append_nil] at hne
    rw [parts_dot, List.append_nil, List.append_nil, components_slash_end hne]
  · obtain ⟨rest, rfl⟩ := List.head?_eq_some_iff.1 hslash
    rw [components_append_slash before rest]
    exact congrArg _ (parts_append_slash [dot] rest)

/-! ## What stays -/

theorem ne_of_mem_parts (h : c ∈ parts bytes) : c ≠ .root ∧ c ≠ .current := by
  constructor
  · rintro rfl
    exact absurd (isPiece_of_mem_parts h).component? (by decide)
  · rintro rfl
    exact absurd (isPiece_of_mem_parts h).component? (by decide)

/-- After the start come all pieces but the empty ones and the dots. -/
theorem map_bytes_parts (bytes : List UInt8) : (parts bytes).map Component.bytes
    = (splitSlash bytes).filter fun piece => piece ≠ [] ∧ piece ≠ [dot] := by
  rw [parts, List.map_filterMap, ← List.filterMap_eq_filter]
  refine List.filterMap_congr fun piece _ => ?_
  cases hpiece : component? piece with
  | none =>
    have hdrop : piece = [] ∨ piece = [dot] := by
      by_contra hkeep
      unfold component? at hpiece
      rw [if_neg hkeep] at hpiece
      split at hpiece <;> cases hpiece
    rw [Option.map_none, Option.guard, if_neg (by simpa [or_iff_not_imp_left] using hdrop)]
  | some c =>
    have hkeep : ¬ (piece = [] ∨ piece = [dot]) := by
      intro hdrop
      rw [component?, if_pos hdrop] at hpiece
      cases hpiece
    rw [Option.map_some, bytes_of_component? hpiece, Option.guard,
      if_pos (by simpa [not_or] using hkeep)]

/-- A root, or a dot at the beginning, is the first component, and no other is one of them. -/
theorem head?_components (h : c = .root ∨ c = .current) :
    p.components.head? = some c ↔ (start p.bytes).head? = some c := by
  have hne : (parts p.bytes).head? ≠ some c := by
    intro hc
    have hparts := ne_of_mem_parts (List.mem_of_mem_head? hc)
    exact h.elim hparts.1 hparts.2
  change (start p.bytes ++ parts p.bytes).head? = some c ↔ _
  rw [List.head?_append]
  cases start p.bytes with
  | cons c' cs => rfl
  | nil => simpa only [List.head?_nil, Option.none_or, reduceCtorEq, iff_false] using hne

theorem head?_components_root : p.components.head? = some .root ↔ p.isAbsolute := by
  rw [head?_components (.inl rfl), start, isAbsolute, decide_eq_true_iff]
  split
  · next hslash => simp [hslash]
  · next hslash => split <;> simp [hslash]

/-- A path that begins with a dot does not begin with a slash. -/
theorem head?_components_current :
    p.components.head? = some .current ↔ (splitSlash p.bytes).head? = some [dot] := by
  rw [head?_components (.inr rfl), start]
  split
  · next hslash =>
    obtain ⟨rest, hrest⟩ := List.head?_eq_some_iff.1 hslash
    simp [hrest, splitSlash]
  · split
    · next hdot => simp [hdot]
    · next hdot => simp [hdot]

theorem filter_start (bytes : List UInt8) :
    (start bytes).filter (fun c => c ≠ .root ∧ c ≠ .current) = [] := by
  unfold start
  split
  · rfl
  · split <;> rfl

/-- All pieces are kept but the empty ones and the dots. -/
theorem map_bytes_components (p : Path) :
    (p.components.filter fun c => c ≠ .root ∧ c ≠ .current).map Component.bytes
      = (splitSlash p.bytes).filter fun piece => piece ≠ [] ∧ piece ≠ [dot] := by
  have hparts : (parts p.bytes).filter (fun c => c ≠ .root ∧ c ≠ .current) = parts p.bytes := by
    rw [List.filter_eq_self]
    exact fun c hc => by simpa using ne_of_mem_parts hc
  rw [← map_bytes_parts, components, List.filter_append, filter_start, List.nil_append]
  exact congrArg _ hparts

theorem component?_eq_parent_iff : component? piece = some .parent ↔ piece = [dot, dot] := by
  constructor
  · exact fun h => (bytes_of_component? h).symm
  · rintro rfl
    rfl

/-- Every `..` is kept. -/
theorem count_parent (p : Path) :
    p.components.count .parent = (splitSlash p.bytes).count [dot, dot] := by
  have hstart : (start p.bytes).count .parent = 0 := by
    unfold start
    split
    · rfl
    · split <;> rfl
  change (start p.bytes ++ parts p.bytes).count .parent = _
  rw [List.count_append, hstart, Nat.zero_add, parts, List.count, List.countP_filterMap, List.count]
  refine List.countP_congr fun piece _ => ?_
  have hiff : component? piece = some .parent ↔ piece = [dot, dot] := component?_eq_parent_iff
  cases hc : component? piece with
  | none => simpa [hc] using hiff
  | some c => simpa [hc] using hiff

/-! ## The normal form -/

theorem bytes_ofComponents {cs : List Component} (h : cs ≠ [.root]) :
    (ofComponents cs).bytes = List.intercalate [slash] (cs.map Component.bytes) := by
  unfold ofComponents
  split
  · exact absurd rfl h
  · rfl

/-- The components after a root, if there is one, with one slash between any two of them. -/
theorem bytes_normalize (p : Path) :
    p.normalize.bytes = (if p.isAbsolute then [slash] else [])
      ++ List.intercalate [slash] ((p.components.filter (· ≠ .root)).map Component.bytes) := by
  have piece_ne {cs : List Component} (h : ∀ c ∈ cs, c.IsPiece) : ∀ c ∈ cs, c ≠ .root := by
    rintro c hc rfl
    exact absurd (h _ hc).component? (by decide)
  have hroot := head?_components_root (p := p)
  have hs := isSpelled_components p
  rw [normalize]
  generalize p.components = cs at hroot hs ⊢
  cases hs with
  | plain hcs =>
    have hne := piece_ne hcs
    have hhead : cs.head? ≠ some .root := fun h => hne _ (List.mem_of_mem_head? h) rfl
    rw [if_neg (hroot.not.1 hhead), bytes_ofComponents (by rintro rfl; exact hhead rfl),
      List.filter_eq_self.2 (by simpa using hne), List.nil_append]
  | @root cs hcs =>
    rw [if_pos (hroot.1 rfl), List.filter_cons_of_neg (by simp),
      List.filter_eq_self.2 (by simpa using piece_ne hcs)]
    cases cs <;> rfl
  | @current cs hcs =>
    have hhead : (Component.current :: cs).head? ≠ some .root := by simp
    rw [if_neg (hroot.not.1 hhead), bytes_ofComponents (by simp),
      List.filter_eq_self.2 (by simpa using piece_ne hcs), List.nil_append]

/-! ## Changes that tell -/

/-- What stands between slashes, or at an end, is one of the pieces. -/
theorem exists_splitSlash_eq (hbefore : before = [] ∨ before.getLast? = some slash)
    (hafter : after = [] ∨ after.head? = some slash) : ∃ first last, ∀ piece, slash ∉ piece →
      splitSlash (before ++ piece ++ after) = first ++ piece :: last := by
  have hlast : ∃ last, ∀ piece, slash ∉ piece → splitSlash (piece ++ after) = piece :: last := by
    rcases hafter with rfl | hslash
    · exact ⟨[], fun piece h => by rw [List.append_nil, splitSlash_of_notMem h]⟩
    · obtain ⟨rest, rfl⟩ := List.head?_eq_some_iff.1 hslash
      exact ⟨splitSlash rest, fun piece h => splitSlash_append h rest⟩
  obtain ⟨last, hlast⟩ := hlast
  rcases hbefore with rfl | hslash
  · exact ⟨[], last, hlast⟩
  · obtain ⟨rest, rfl⟩ := List.getLast?_eq_some_iff.1 hslash
    refine ⟨splitSlash rest, last, fun piece h => ?_⟩
    rw [List.append_assoc, List.append_assoc, List.singleton_append, splitSlash_append_slash,
      hlast piece h]

/-- No other piece can stand for a `..`. -/
theorem components_ne_of_parent (hbefore : before = [] ∨ before.getLast? = some slash)
    (hafter : after = [] ∨ after.head? = some slash) (hs : slash ∉ piece)
    (hne : piece ≠ [dot, dot]) :
    components ⟨before ++ [dot, dot] ++ after⟩ ≠ components ⟨before ++ piece ++ after⟩ := by
  intro heq
  obtain ⟨first, last, hsplit⟩ := exists_splitSlash_eq hbefore hafter
  have hcount := congrArg (List.count .parent) heq
  rw [count_parent, count_parent, hsplit _ (by decide), hsplit _ hs, List.count_append,
    List.count_append, List.count_cons_self, List.count_cons_of_ne hne] at hcount
  omega

/-! ## One spelling for all -/

/-- Of all the spellings of a path, one is its normal form: its components after the root, if it has
one, with single slashes between them. Slashes may be repeated where there is one, a `.` may follow
any piece, and a slash what is not empty. But a root, a `.` that a path begins with, and every `..`
are in all spellings, as are all pieces but the empty ones and other dots, so a path that differs in
one of them is another. -/
theorem normal_form_unique :
    (∀ p : Path, (⟨p.normalize⟩ : Identity).Same ⟨p⟩ ∧ p.normalize.normalize = p.normalize ∧
      p.normalize.bytes = (if p.isAbsolute then [slash] else [])
        ++ List.intercalate [slash] ((p.components.filter (· ≠ .root)).map Component.bytes)) ∧
    (∀ p q : Path, (⟨p⟩ : Identity).Same ⟨q⟩ ↔ p.normalize.bytes = q.normalize.bytes) ∧
    (∀ before after n, (⟨⟨before ++ List.replicate (n + 1) slash ++ after⟩⟩ : Identity).Same
      ⟨⟨before ++ slash :: after⟩⟩) ∧
    (∀ before after, before ++ after ≠ [] → (after = [] ∨ after.head? = some slash) →
      (⟨⟨before ++ [slash, dot] ++ after⟩⟩ : Identity).Same ⟨⟨before ++ after⟩⟩) ∧
    (∀ bytes, bytes ≠ [] → (⟨⟨bytes ++ [slash]⟩⟩ : Identity).Same ⟨⟨bytes⟩⟩) ∧
    (∀ p : Path, (p.components.head? = some .root ↔ p.isAbsolute) ∧
      (p.components.head? = some .current ↔ (splitSlash p.bytes).head? = some [dot]) ∧
      p.components.count .parent = (splitSlash p.bytes).count [dot, dot] ∧
      (p.components.filter fun c => c ≠ .root ∧ c ≠ .current).map Component.bytes
        = (splitSlash p.bytes).filter fun piece => piece ≠ [] ∧ piece ≠ [dot]) ∧
    (∀ p q : Path, ¬ (p.isAbsolute ↔ q.isAbsolute) ∨
        ¬ ((splitSlash p.bytes).head? = some [dot] ↔ (splitSlash q.bytes).head? = some [dot]) ∨
        (splitSlash p.bytes).count [dot, dot] ≠ (splitSlash q.bytes).count [dot, dot] →
      ¬ (⟨p⟩ : Identity).Same ⟨q⟩) ∧
    ∀ before piece after, (before = [] ∨ before.getLast? = some slash) →
      (after = [] ∨ after.head? = some slash) → slash ∉ piece → piece ≠ [dot, dot] →
      ¬ (⟨⟨before ++ [dot, dot] ++ after⟩⟩ : Identity).Same ⟨⟨before ++ piece ++ after⟩⟩ := by
  have hnormal (p q : Path) : (⟨p⟩ : Identity).Same ⟨q⟩ ↔ p.normalize = q.normalize := by
    rw [← Identity.normal_eq_iff, Identity.normal, Identity.normal, Identity.mk.injEq]
  refine ⟨fun p => ⟨Identity.same_normal ⟨p⟩, (hnormal _ _).1 (Identity.same_normal ⟨p⟩),
    bytes_normalize p⟩,
    fun p q => (hnormal p q).trans ⟨congrArg bytes, congrArg mk⟩,
    fun before after n => components_replicate_slash before after n,
    fun _ _ => components_slash_dot, fun _ => components_slash_end,
    fun p => ⟨head?_components_root, head?_components_current, count_parent p,
      map_bytes_components p⟩, ?_, fun _ _ _ => components_ne_of_parent⟩
  intro p q hdiff hsame
  have hsame : p.components = q.components := hsame
  rw [← head?_components_root, ← head?_components_root, ← head?_components_current,
    ← head?_components_current, ← count_parent, ← count_parent, hsame] at hdiff
  simp at hdiff

/-- A root and a byte that is no text, a dot alone, a dot that is dropped, and a `..` that becomes a
name. -/
theorem normal_form_unique_dotted :
    (⟨⟨[slash, dot, slash, 0xFF]⟩⟩ : Identity).Same ⟨⟨[slash, 0xFF]⟩⟩ ∧
    (⟨⟨[dot, slash]⟩⟩ : Identity).Same ⟨⟨[dot]⟩⟩ ∧
    ¬ (⟨.ofString "./a"⟩ : Identity).Same ⟨.ofString "a"⟩ ∧
    ¬ (⟨⟨[slash] ++ [dot, dot] ++ []⟩⟩ : Identity).Same ⟨⟨[slash] ++ [dot, dot, dot] ++ []⟩⟩ := by
  obtain ⟨-, -, -, hdot, hend, -, hdiff, hparent⟩ := normal_form_unique
  exact ⟨hdot [] [slash, 0xFF] (by decide) (by decide), hend [dot] (by decide),
    hdiff _ _ (by decide +kernel), hparent [slash] [dot, dot, dot] [] (by decide) (by decide)
      (by decide) (by decide)⟩

end Path

end ReadPool
