import ReadPool.FileTree

/-!
# Finding a node

How a path leads to a node: name by name, from the root or from the base, through links. Every
directory that is left by a name has to grant the search, a path that ends in a slash names a
directory, and a path leads through 40 links at the most.
-/

namespace ReadPool

/-- Where a path leads. -/
inductive Place where
  | node (i : Inode)
  /-- The name is free in the directory. -/
  | vacant (dir : Inode) (name : FileName)
deriving DecidableEq, Repr

/-- What is done at the last name of a path. -/
inductive LastName where
  /-- A link is followed. -/
  | follow
  /-- A link stands for itself. -/
  | keep
  /-- A link is followed, and a file can be created under a name that is free. -/
  | create
deriving DecidableEq, Repr

namespace FileTree

/-- The most links that one path leads through. -/
def maxLinks : Nat := 40

/-- The longest name, in bytes. -/
def maxName : Nat := 255

/-- The length, in bytes, from which on no path is accepted. -/
def pathBound : Nat := 4096

/-- What has a name in a directory. -/
def lookUp (t : FileTree) (here : Inode) (name : FileName) : Except IoError (Option Inode) :=
  match t.directory? here with
  | none => .error .notDirectory
  | some dir =>
    if t.isRemoved here then .error .noEntry
    else if maxName < name.length then .error .nameTooLong
    else .ok (dir.find? name)

/-- Where the names lead to from `here`, through at most `links` links. An empty name asks for a
directory and stays there. -/
def walk (t : FileTree) (last : LastName) (links : Nat) (here : Inode) (names : List FileName) :
    Except IoError Place :=
  match names with
  | [] => .ok (.node here)
  | name :: rest =>
    match t.directory? here with
    | none => .error .notDirectory
    | some dir =>
      -- A slash too many asks for a directory only; a `.` is searched for like a name.
      if name = [] then walk t last links here rest
      else if !t.isSearchable here then .error .accessDenied
      else if name = [dot] then walk t last links here rest
      else if name = [dot, dot] then walk t last links dir.parent rest
      -- A file cannot be created with a slash, whatever has the name.
      else if last = .create ∧ rest ≠ [] ∧ rest.all (· = []) then .error .isDirectory
      else match t.lookUp here name with
        | .error e => .error e
        | .ok none =>
          if last = .create ∧ rest = [] then .ok (.vacant here name) else .error .noEntry
        | .ok (some next) =>
          match t.link? next with
          | none => walk t last links next rest
          | some target =>
            if last = .keep ∧ rest = [] then .ok (.node next)
            else match links with
              | 0 => .error .tooManyLinks
              | links + 1 =>
                walk t last links (t.startOf target here) (Path.splitSlash target ++ rest)
termination_by (links, names.length)

/-- What a path is refused for before the tree is looked at. -/
def pathFault? (p : Path) : Option IoError :=
  if p.bytes.contains 0 then some .nulInPath
  else if p.bytes = [] then some .noEntry
  else if pathBound ≤ p.bytes.length then some .nameTooLong
  else none

/-- Where a path leads. -/
def place (t : FileTree) (last : LastName) (p : Path) : Except IoError Place :=
  match pathFault? p with
  | some e => .error e
  | none => t.walk last maxLinks (t.startOf p.bytes t.base) (Path.splitSlash p.bytes)

/-- The node that a path leads to. -/
def find (t : FileTree) (last : LastName) (p : Path) : Except IoError Inode :=
  match t.place last p with
  | .error e => .error e
  | .ok (.node i) => .ok i
  | .ok (.vacant _ _) => .error .noEntry

end FileTree

end ReadPool
