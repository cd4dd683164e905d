import ReadPool.FileTree.Canonical
import ReadPool.Stream

/-!
# Open files

A file is open by its node, whatever becomes of its name, and each open file has a position of its
own. Opening asks for the right to read; a directory can be opened, but not read.
-/

namespace ReadPool

structure OpenFile where
  node : Inode
  position : Nat := 0
deriving DecidableEq, Repr

namespace FileTree

def openRead (t : FileTree) (p : Path) : Except IoError OpenFile :=
  match t.find .follow p with
  | .error e => .error e
  | .ok i => if t.isReadable i then .ok { node := i } else .error .accessDenied

/-- The path leads to a directory. -/
def namesDirectory (t : FileTree) (p : Path) : Except IoError Bool :=
  (t.find .follow p).map t.isDirectory

def fileSystem (t : FileTree) : FileSystem OpenFile where
  realpath := t.realpath
  isDirectory := t.namesDirectory
  openRead := t.openRead

/-- One read of an open file. -/
def read (t : FileTree) : Reader OpenFile := fun n f =>
  match t.nodes[f.node]? with
  | some ⟨.file data, _, _⟩ =>
    let bytes := (data.drop f.position).take n
    (.ok bytes, { f with position := f.position + bytes.length })
  | some ⟨.directory _, _, _⟩ => (.error .isDirectory, f)
  | some ⟨.zeros, _, _⟩ => (.ok (List.replicate n 0), f)
  | _ => (.ok [], f)

end FileTree

end ReadPool
