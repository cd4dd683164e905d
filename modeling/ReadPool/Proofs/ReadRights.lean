import Mathlib
import ReadPool.FileTree.Change
import ReadPool.FileTree.Open
import ReadPool.Proofs.Canonicalize

/-!
# Identities and the right to read

Finding the node of a path asks for the right to search directories only, so no identity depends on
whether its file can be read. `withReading` grants that right anew, and all that leads to an
identity stays the same; whether the file can be opened is another matter.
-/

namespace ReadPool

namespace FileTree

variable {t : FileTree} {readable : Inode → Bool}

/-! ## Giving the right to read anew -/

/-- The tree in which just the nodes that `readable` says can be read. -/
def withReading (t : FileTree) (readable : Inode → Bool) : FileTree :=
  { t with nodes := t.nodes.mapIdx fun i node =>
      { node with rights := { node.rights with read := readable i } } }

@[simp] theorem root_withReading : (t.withReading readable).root = t.root := rfl

@[simp] theorem base_withReading : (t.withReading readable).base = t.base := rfl

theorem nodes_withReading (i : Inode) : (t.withReading readable).nodes[i]?
    = t.nodes[i]?.map fun node =>
      { node with rights := { node.rights with read := readable i } } := by
  rw [withReading, List.getElem?_mapIdx]

@[simp] theorem directory?_withReading (i : Inode) :
    (t.withReading readable).directory? i = t.directory? i := by
  rw [directory?, directory?, nodes_withReading]
  rcases t.nodes[i]? with _ | ⟨kind, rights, owned⟩
  · rfl
  · cases kind <;> rfl

@[simp] theorem link?_withReading (i : Inode) :
    (t.withReading readable).link? i = t.link? i := by
  rw [link?, link?, nodes_withReading]
  rcases t.nodes[i]? with _ | ⟨kind, rights, owned⟩
  · rfl
  · cases kind <;> rfl

@[simp] theorem isSearchable_withReading (i : Inode) :
    (t.withReading readable).isSearchable i = t.isSearchable i := by
  rw [isSearchable, isSearchable, nodes_withReading, Option.any_map]

theorem isReadable_withReading (i : Inode) :
    (t.withReading readable).isReadable i = (t.nodes[i]?.isSome && readable i) := by
  rw [isReadable, nodes_withReading]
  cases t.nodes[i]? <;> rfl

@[simp] theorem isDirectory_withReading (i : Inode) :
    (t.withReading readable).isDirectory i = t.isDirectory i := by
  rw [isDirectory, isDirectory, directory?_withReading]

@[simp] theorem nameOf?_withReading (i : Inode) :
    (t.withReading readable).nameOf? i = t.nameOf? i := by
  simp only [nameOf?, directory?_withReading]

@[simp] theorem lookUp_withReading (here : Inode) (name : FileName) :
    (t.withReading readable).lookUp here name = t.lookUp here name := by
  have hremoved : (t.withReading readable).isRemoved here = t.isRemoved here := by
    rw [isRemoved, isRemoved, nameOf?_withReading]
    rfl
  rw [lookUp, lookUp, directory?_withReading, hremoved]

/-! ## Nothing that finds a node looks at it -/

theorem walk_withReading (last : LastName) (links : Nat) (here : Inode) (names : List FileName) :
    (t.withReading readable).walk last links here names = t.walk last links here names := by
  -- Both walks ask the same questions, and to each of them the answers are the same.
  fun_induction walk t last links here names <;> rw [walk] <;>
    grind [startOf, directory?_withReading, link?_withReading, isSearchable_withReading,
      lookUp_withReading, root_withReading]

@[simp] theorem find_withReading (last : LastName) (p : Path) :
    (t.withReading readable).find last p = t.find last p := by
  simp only [find, place, walk_withReading, startOf, root_withReading, base_withReading]

theorem namesOf?_withReading (i : Inode) :
    (t.withReading readable).namesOf? i = t.namesOf? i := by
  have habove : ∀ height i below,
      (t.withReading readable).namesAbove height i below = t.namesAbove height i below := by
    intro height
    induction height with
    | zero => exact fun i below => rfl
    | succ height ih =>
      intro i below
      simp only [namesAbove, directory?_withReading, nameOf?_withReading, root_withReading, ih]
  rw [namesOf?, namesOf?, habove, withReading, List.length_mapIdx]

theorem canonicalWalk_withReading (links : Nat) (back names : List FileName) :
    (t.withReading readable).canonicalWalk links back names = t.canonicalWalk links back names := by
  fun_induction canonicalWalk t links back names <;> rw [canonicalWalk] <;>
    grind [find_withReading, link?_withReading, isDirectory_withReading]

theorem realpath_withReading (p : Path) :
    (t.withReading readable).realpath p = t.realpath p := by
  simp only [realpath, canonicalWalk_withReading, namesOf?_withReading, base_withReading]

theorem canonicalize_withReading (p : Path) :
    (t.withReading readable).fileSystem.canonicalize p = t.fileSystem.canonicalize p := by
  have hkind : ∀ q, (t.withReading readable).namesDirectory q = t.namesDirectory q := by
    intro q
    rw [namesDirectory, namesDirectory, find_withReading]
    congr 1
    exact funext isDirectory_withReading
  simp only [FileSystem.canonicalize, fileSystem, realpath_withReading, hkind]

end FileTree

/-! ## What an identity promises -/

/-- A path is given an identity only if what it leads to can be opened, and where the right to read
is what is missing for that, the path is refused with that. -/
structure FileSystem.AdmitsReadable (fs : FileSystem σ) (path : Path) : Prop where
  opens : ∀ X, fs.canonicalize path = .ok X →
    fs.isDirectory X.path = .ok false ∧ ∃ state, fs.openRead X.path = .ok state
  refuses : ∀ target e, fs.realpath path = .ok target → fs.isDirectory target = .ok false →
    fs.openRead target = .error e → e.kind = .permissionDenied →
      fs.canonicalize path = .error (.accessDenied path)

namespace FileTree

variable {t : FileTree} {path : Path} {X : Identity} {i : Inode}

/-- Where there is an identity, only the right to read decides whether its file is opened. -/
theorem exists_node_of_canonicalize (h : t.fileSystem.canonicalize path = .ok X) :
    ∃ i, t.find .follow X.path = .ok i ∧
      t.openRead X.path = if t.isReadable i then .ok { node := i } else .error .accessDenied := by
  obtain ⟨-, hdir⟩ := FileSystem.canonicalize_eq_ok_iff.1 h
  have hdir : (t.find .follow X.path).map t.isDirectory = .ok false := hdir
  cases hfind : t.find .follow X.path with
  | error e =>
    rw [hfind] at hdir
    cases hdir
  | ok i => exact ⟨i, rfl, by rw [openRead, hfind]⟩

theorem openRead_eq_error (hfind : t.find .follow X.path = .ok i) (hread : t.isReadable i = false) :
    t.openRead X.path = .error .accessDenied := by
  rw [openRead, hfind]
  simp only [hread, Bool.false_eq_true, if_false]

theorem admitsReadable_iff : t.fileSystem.AdmitsReadable path ↔
    ∀ X i, t.fileSystem.canonicalize path = .ok X → t.find .follow X.path = .ok i →
      t.isReadable i := by
  constructor
  · intro h X i hX hfind
    obtain ⟨-, state, hopen⟩ := h.opens X hX
    by_contra hread
    cases (openRead_eq_error hfind (Bool.eq_false_iff.2 hread)).symm.trans hopen
  · intro h
    constructor
    · intro X hX
      obtain ⟨i, hfind, hopen⟩ := exists_node_of_canonicalize hX
      rw [if_pos (h X i hX hfind)] at hopen
      exact ⟨(FileSystem.canonicalize_eq_ok_iff.1 hX).2, _, hopen⟩
    · intro target e hreal hdir hopen _
      have hX : t.fileSystem.canonicalize path = .ok ⟨target⟩ :=
        FileSystem.canonicalize_eq_ok_iff.2 ⟨hreal, hdir⟩
      obtain ⟨i, hfind, hread⟩ := exists_node_of_canonicalize hX
      rw [if_pos (h _ i hX hfind)] at hread
      cases hread.symm.trans hopen

/-- The promise is kept for a path just if what it leads to can be read, and nothing that is done
before the open sees to that: whoever may read what, the path has the same identity, or is refused
with the same error. Where nothing can be read, the promise is broken by every path that has an
identity. -/
theorem canonicalize_asks_no_reading (t : FileTree) (path : Path) :
    (t.fileSystem.AdmitsReadable path ↔
      ∀ X i, t.fileSystem.canonicalize path = .ok X → t.find .follow X.path = .ok i →
        t.isReadable i) ∧
    (∀ readable, (t.withReading readable).fileSystem.canonicalize path
      = t.fileSystem.canonicalize path) ∧
    ((t.withReading fun _ => false).fileSystem.AdmitsReadable path ↔
      ∀ X, t.fileSystem.canonicalize path ≠ .ok X) := by
  refine ⟨admitsReadable_iff, fun _ => canonicalize_withReading path, ?_⟩
  rw [admitsReadable_iff]
  simp only [canonicalize_withReading, find_withReading]
  constructor
  · intro h X hX
    obtain ⟨i, hfind, -⟩ := exists_node_of_canonicalize hX
    simpa [isReadable_withReading] using h X i hX hfind
  · exact fun h X i hX => absurd hX (h X)

/-- A file that nobody may read. -/
def secret : Path := .ofString "/tmp/tree/r/f"

/-- A file is written, and all rights to it are taken away. -/
def withSecret : Except IoError FileTree := do
  (← empty.change (.write secret (Text.encode "x"))).change (.chmod secret 0)

theorem secret_has_identity : ∃ t, withSecret = .ok t ∧
    t.fileSystem.canonicalize secret = .ok ⟨secret⟩ ∧
    t.fileSystem.openRead secret = .error .accessDenied ∧
    ¬ t.fileSystem.AdmitsReadable secret := by
  have htree : ∃ t, withSecret = .ok t ∧ t.fileSystem.canonicalize secret = .ok ⟨secret⟩ ∧
      t.fileSystem.openRead secret = .error .accessDenied := by
    refine ⟨_, by cbv, ?_, ?_⟩
    · cbv
    · cbv
  obtain ⟨t, ht, hX, hopen⟩ := htree
  refine ⟨t, ht, hX, hopen, fun h => ?_⟩
  obtain ⟨-, state, hopen'⟩ := h.opens _ hX
  cases hopen.symm.trans hopen'

end FileTree

end ReadPool
