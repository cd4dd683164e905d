import ReadPool.FileTree.Spot

/-!
# Changing a tree

What a user may do to a tree of files. A change is either of a node, to which the path leads
through links, or of an entry, at the path's spot. Entries can be changed in a directory that
grants to be written, whatever rights there are on the node that they name.
-/

namespace ReadPool

inductive TreeChange where
  | write (path : Path) (data : List UInt8)
  | append (path : Path) (data : List UInt8)
  | makeDirectory (path : Path)
  | makeLink (path : Path) (target : List UInt8)
  | chmod (path : Path) (mode : Nat)
  | remove (path : Path)
  | rename (path dest : Path)
deriving DecidableEq, Repr

namespace FileTree

/-! ## Entries -/

/-- A new node under a free name of a directory. -/
def attach (t : FileTree) (dir : Inode) (name : FileName) (node : Node) : Except IoError FileTree :=
  if !t.isWritable dir then .error .accessDenied
  else
    let (t, i) := t.add node
    .ok (t.updateDirectory dir fun d => d.insert name i)

/-- The directory and the name of a path under which nothing is yet. A slash may follow the name of
what will be a directory only. -/
def vacancy (t : FileTree) (p : Path) (forDirectory : Bool) : Except IoError (Inode × FileName) :=
  match t.spot p with
  | .error e => .error e
  | .ok ⟨dir, .name name, slash⟩ =>
    match t.lookUp dir name with
    | .error e => .error e
    | .ok (some _) => .error .entryExists
    | .ok none => if slash && !forDirectory then .error .noEntry else .ok (dir, name)
  | .ok _ => .error .entryExists

/-- A new directory. -/
def makeDirectory (t : FileTree) (p : Path) : Except IoError FileTree := do
  let (dir, name) ← t.vacancy p true
  t.attach dir name
    { kind := .directory { parent := dir, volume := t.volume dir }, rights := .ofMode 0o755 }

/-- A new link. Its target need not lead anywhere. -/
def makeLink (t : FileTree) (p : Path) (target : List UInt8) : Except IoError FileTree :=
  if p.bytes.contains 0 then .error .nulInPath
  else match pathFault? ⟨target⟩ with
    | some e => .error e
    | none => do
      let (dir, name) ← t.vacancy p false
      t.attach dir name { kind := .link target }

/-- Takes away a file, a link, or a directory that is empty. -/
def remove (t : FileTree) (p : Path) : Except IoError FileTree := do
  let i ← t.find .keep p
  let spot ← t.spot p
  match spot.ending with
  | .root => throw .busy
  | .current => throw .invalidArgument
  | .parent => throw .directoryNotEmpty
  | .name name =>
    -- Through a link that a slash follows a directory is found, but it is the link that is here.
    let entry ← t.lookUp spot.dir name
    if !t.isWritable spot.dir then throw .accessDenied
    else if t.isDirectory i ∧ entry ≠ some i then throw .notDirectory
    else if t.isDirectory i ∧ t.isEmptyDirectory i = false then throw .directoryNotEmpty
    else return t.updateDirectory spot.dir fun d => d.erase name

/-! ## Renaming -/

/-- An entry that is there, or the place for one. -/
structure Entry where
  dir : Inode
  name : FileName
  slash : Bool
  node : Option Inode

/-- Why a node cannot take the place of another one. -/
def replaceFault? (t : FileTree) (i old : Inode) : Option IoError :=
  match t.isDirectory i, t.isDirectory old with
  | true, false => some .notDirectory
  | false, true => some .isDirectory
  | _, _ => none

/-- Why `source`, which has the node `i`, cannot be moved to `dest`. -/
def moveFault? (t : FileTree) (source dest : Entry) (i : Inode) : Option IoError :=
  let isDir := t.isDirectory i
  if !isDir && (source.slash || dest.slash) then some .notDirectory
  else if t.isWithin dest.dir i then some .invalidArgument
  else if dest.node.any (t.isWithin source.dir) then some .directoryNotEmpty
  else if dest.node = some i then none
  else if !t.isWritable source.dir || !t.isWritable dest.dir then some .accessDenied
  else match dest.node.bind (t.replaceFault? i) with
    | some e => some e
    | none =>
      -- A directory that gets another parent is itself written.
      if isDir && source.dir ≠ dest.dir && !t.isWritable i then some .accessDenied
      else if dest.node.any fun old => t.isDirectory old && !t.isEmptyDirectory old then
        some .directoryNotEmpty
      else none

/-- Gives a node the entry of `dest` for that of `source`. -/
def move (t : FileTree) (source dest : Entry) (i : Inode) : FileTree :=
  if dest.node = some i then t
  else
    let t := t.updateDirectory source.dir fun d => d.erase source.name
    let t := t.updateDirectory dest.dir fun d => d.insert dest.name i
    t.updateDirectory i fun d => { d with parent := dest.dir }

def rename (t : FileTree) (p p' : Path) : Except IoError FileTree :=
  if p.bytes.contains 0 || p'.bytes.contains 0 then .error .nulInPath
  else do
    let source ← t.spot p
    let dest ← t.spot p'
    if t.volume source.dir ≠ t.volume dest.dir then throw .otherVolume
    match source.ending, dest.ending with
    | .name name, .name name' =>
      match ← t.lookUp source.dir name with
      | none => throw .noEntry
      | some i =>
        let source : Entry := ⟨source.dir, name, source.slash, some i⟩
        let dest : Entry := ⟨dest.dir, name', dest.slash, ← t.lookUp dest.dir name'⟩
        match t.moveFault? source dest i with
        | some e => throw e
        | none => return t.move source dest i
    | _, _ => throw .busy

/-! ## Nodes -/

def setData (t : FileTree) (i : Inode) (f : List UInt8 → List UInt8) : Except IoError FileTree :=
  if t.isDirectory i then .error .isDirectory
  else if !t.isWritable i then .error .accessDenied
  else .ok (t.update i fun node =>
    match node.kind with
    | .file data => { node with kind := .file (f data) }
    | _ => node)

def setRights (t : FileTree) (i : Inode) (rights : Rights) : Except IoError FileTree :=
  if t.isOwned i then .ok (t.update i fun node => { node with rights }) else .error .notPermitted

/-- The rights of a file that has been written. -/
def fileRights : Rights := .ofMode 0o644

/-- Replaces what is in a file, and its rights; a file that is not there is created. -/
def write (t : FileTree) (p : Path) (data : List UInt8) : Except IoError FileTree := do
  match ← t.place .create p with
  | .vacant dir name => t.attach dir name { kind := .file data, rights := fileRights }
  | .node i => (← t.setData i fun _ => data).setRights i fileRights

def change (t : FileTree) : TreeChange → Except IoError FileTree
  | .write p data => t.write p data
  | .append p data => do t.setData (← t.find .follow p) (· ++ data)
  | .makeDirectory p => t.makeDirectory p
  | .makeLink p target => t.makeLink p target
  | .chmod p mode => do t.setRights (← t.find .follow p) (.ofMode mode)
  | .remove p => t.remove p
  | .rename p p' => t.rename p p'

end FileTree

end ReadPool
