import ReadPool.FileSystem

/-!
# File trees

A tree of files as an operating system holds it: numbered nodes, so that a file that is open goes
on when its name is taken away, and directories that give names to them. Rights are granted per
node, to the one user by whom everything is done. Finding a node by a path is in
`ReadPool.FileTree.Walk`.
-/

namespace ReadPool

/-- The number of a node. -/
abbrev Inode := Nat

/-- The name of a node in a directory. -/
abbrev FileName := List UInt8

structure Directory where
  parent : Inode
  /-- The file system that the directory is on. -/
  volume : Nat := 0
  entries : List (FileName × Inode) := []
deriving DecidableEq, Repr

inductive NodeKind where
  | file (data : List UInt8)
  | directory (dir : Directory)
  | link (target : List UInt8)
  /-- Endless zeros. -/
  | zeros
  /-- Nothing at all. -/
  | nothing
deriving DecidableEq, Repr

/-- What the user may do with a node. -/
structure Rights where
  read : Bool := true
  write : Bool := true
  search : Bool := true
deriving DecidableEq, Repr

/-- The rights that a mode gives to the owner: its bits 8, 7 and 6. -/
def Rights.ofMode (mode : Nat) : Rights := ⟨mode.testBit 8, mode.testBit 7, mode.testBit 6⟩

structure Node where
  kind : NodeKind
  rights : Rights := {}
  /-- The user owns the node, and may change the rights. -/
  owned : Bool := true
deriving DecidableEq, Repr

structure FileTree where
  nodes : List Node
  root : Inode
  /-- The directory that relative paths start from. -/
  base : Inode

namespace Directory

def find? (d : Directory) (name : FileName) : Option Inode := d.entries.lookup name

/-- The name of a node in the directory. -/
def nameOf? (d : Directory) (i : Inode) : Option FileName :=
  (d.entries.find? fun e => e.2 = i).map (·.1)

def erase (d : Directory) (name : FileName) : Directory :=
  { d with entries := d.entries.filter fun e => e.1 ≠ name }

/-- The entry, in place of any other of its name. -/
def insert (d : Directory) (name : FileName) (i : Inode) : Directory :=
  { d with entries := (name, i) :: (d.erase name).entries }

end Directory

namespace FileTree

/-! ## Nodes -/

def directory? (t : FileTree) (i : Inode) : Option Directory :=
  match t.nodes[i]? with
  | some ⟨.directory dir, _, _⟩ => some dir
  | _ => none

def isDirectory (t : FileTree) (i : Inode) : Bool := (t.directory? i).isSome

def isEmptyDirectory (t : FileTree) (i : Inode) : Bool :=
  (t.directory? i).any fun dir => dir.entries.isEmpty

def link? (t : FileTree) (i : Inode) : Option (List UInt8) :=
  match t.nodes[i]? with
  | some ⟨.link target, _, _⟩ => some target
  | _ => none

def isReadable (t : FileTree) (i : Inode) : Bool := t.nodes[i]?.any fun node => node.rights.read

def isWritable (t : FileTree) (i : Inode) : Bool := t.nodes[i]?.any fun node => node.rights.write

def isSearchable (t : FileTree) (i : Inode) : Bool :=
  t.nodes[i]?.any fun node => node.rights.search

def isOwned (t : FileTree) (i : Inode) : Bool := t.nodes[i]?.any Node.owned

/-- The file system that a directory is on. -/
def volume (t : FileTree) (i : Inode) : Nat := ((t.directory? i).map Directory.volume).getD 0

def add (t : FileTree) (node : Node) : FileTree × Inode :=
  ({ t with nodes := t.nodes ++ [node] }, t.nodes.length)

def update (t : FileTree) (i : Inode) (f : Node → Node) : FileTree :=
  { t with nodes := t.nodes.modify i f }

def updateDirectory (t : FileTree) (i : Inode) (f : Directory → Directory) : FileTree :=
  t.update i fun node =>
    match node.kind with
    | .directory dir => { node with kind := .directory (f dir) }
    | _ => node

/-! ## The way up -/

/-- The name of a directory in the one above it. A directory that has been removed has none. -/
def nameOf? (t : FileTree) (i : Inode) : Option FileName :=
  (t.directory? i).bind fun dir => (t.directory? dir.parent).bind fun above => above.nameOf? i

/-- The directory has no name any more, and none can be given in it. -/
def isRemoved (t : FileTree) (i : Inode) : Bool := i ≠ t.root && (t.nameOf? i).isNone

/-- The names from the root to a directory, at most `height` of them, with those in `below` after
them. -/
def namesAbove (t : FileTree) : Nat → Inode → List FileName → Option (List FileName)
  | 0, i, below => if i = t.root then some below else none
  | height + 1, i, below =>
    if i = t.root then some below
    else match t.directory? i, t.nameOf? i with
      | some dir, some name => t.namesAbove height dir.parent (name :: below)
      | _, _ => none

/-- The names from the root to a directory. No name leads to a directory twice, so there are fewer
names than nodes. -/
def namesOf? (t : FileTree) (i : Inode) : Option (List FileName) :=
  t.namesAbove t.nodes.length i []

/-- A directory is another one, or is met on at most `height` steps up from it. -/
def isAbove (t : FileTree) (top : Inode) : Nat → Inode → Bool
  | 0, i => i = top
  | height + 1, i =>
    i = top || (i ≠ t.root && (t.directory? i).any fun dir => t.isAbove top height dir.parent)

/-- A directory is another one, or is somewhere below it. -/
def isWithin (t : FileTree) (i top : Inode) : Bool := t.isAbove top t.nodes.length i

/-! ## Paths -/

/-- The node on which a path begins. -/
def startOf (t : FileTree) (bytes : List UInt8) (here : Inode) : Inode :=
  if bytes.head? = some slash then t.root else here

/-- A path from the root, name by name. -/
def pathOf (names : List FileName) : Path :=
  ⟨if names = [] then [slash] else names.flatMap fun name => slash :: name⟩

/-- The path of the directory that relative paths start from. -/
def basePath? (t : FileTree) : Option Path := (t.namesOf? t.base).map pathOf

/-! ## The tree to begin with -/

/-- An empty directory at `/tmp/tree/r`, beside the devices in `/dev`. The user owns what is below
`/tmp`. -/
def empty : FileTree where
  nodes :=
    [ ⟨.directory ⟨0, 0, [(nameOf "tmp", 1), (nameOf "dev", 4)]⟩, .ofMode 0o500, false⟩,
      ⟨.directory ⟨0, 0, [(nameOf "tree", 2)]⟩, .ofMode 0o700, false⟩,
      ⟨.directory ⟨1, 0, [(nameOf "r", 3)]⟩, .ofMode 0o700, true⟩,
      ⟨.directory ⟨2, 0, []⟩, .ofMode 0o700, true⟩,
      ⟨.directory ⟨0, 1, [(nameOf "zero", 5), (nameOf "null", 6)]⟩, .ofMode 0o500, false⟩,
      ⟨.zeros, .ofMode 0o600, false⟩,
      ⟨.nothing, .ofMode 0o600, false⟩ ]
  root := 0
  base := 3
where
  nameOf (text : String) : FileName := Text.encode text

end FileTree

end ReadPool
