import ReadPool.FileTree.Walk

/-!
# Spots

Where a path has its last name: the directory that the names before it lead to. What has the
name there, if anything, is not looked at, so a spot is where an entry is made, moved or taken
away. A path whose last name is `.` or `..`, or that has no name, has a spot too, but none at
which this could be done.
-/

namespace ReadPool

/-- What a path ends in, slashes apart. -/
inductive Ending where
  /-- Nothing: the path is the root. -/
  | root
  | current
  | parent
  | name (name : FileName)
deriving DecidableEq, Repr

structure Spot where
  dir : Inode
  ending : Ending
  /-- A slash follows. -/
  slash : Bool
deriving DecidableEq, Repr

namespace Ending

def ofName (name : FileName) : Ending :=
  if name = [dot] then .current else if name = [dot, dot] then .parent else .name name

end Ending

namespace FileTree

/-- The names up to the last one that is not empty. -/
def dropSlashes (names : List FileName) : List FileName :=
  (names.reverse.dropWhile (· = [])).reverse

/-- The spot of a path. Its directory has to grant the search. -/
def spot (t : FileTree) (p : Path) : Except IoError Spot :=
  match pathFault? p with
  | some e => .error e
  | none =>
    let names := Path.splitSlash p.bytes
    let named := dropSlashes names
    let slash := named.length < names.length
    match named.getLast? with
    | none => .ok ⟨t.root, .root, slash⟩
    | some name =>
      match t.walk .follow maxLinks (t.startOf p.bytes t.base) named.dropLast with
      | .error e => .error e
      | .ok (.vacant _ _) => .error .noEntry
      | .ok (.node dir) =>
        if !t.isDirectory dir then .error .notDirectory
        else if !t.isSearchable dir then .error .accessDenied
        else .ok ⟨dir, .ofName name, slash⟩

end FileTree

end ReadPool
