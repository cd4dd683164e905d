import ReadPool.FileTree.Walk

/-!
# Canonical paths

The path of a node from the root that leads through no link. It is found name by name: `.` is
left out, `..` takes back the name before it, and a link is replaced by its target. All that the
tree is asked is whether the path so far names a node, and which; that it names a directory is
asked only where a slash, `.` or `..` at the end of what is left says so.
-/

namespace ReadPool.FileTree

/-- What follows a name, up to the next one that counts, says that the name is a directory's. -/
def asksDirectory : List FileName → Bool
  | [] => true
  | name :: rest =>
    if name = [] ∨ name = [dot] then asksDirectory rest
    else name = [dot, dot]

/-- The canonical path, with the names found so far in `back`, last first. -/
def canonicalWalk (t : FileTree) (links : Nat) (back names : List FileName) :
    Except IoError (List FileName) :=
  match names with
  | [] => .ok back.reverse
  | name :: rest =>
    if name = [] ∨ name = [dot] then canonicalWalk t links back rest
    else if name = [dot, dot] then canonicalWalk t links back.tail rest
    else
      let path := (name :: back).reverse
      match t.find .keep (pathOf path) with
      | .error e => .error e
      | .ok i =>
        match t.link? i with
        | some target =>
          match links with
          | 0 => .error .tooManyLinks
          | links + 1 =>
            canonicalWalk t links (if target.head? = some slash then [] else back)
              (Path.splitSlash target ++ rest)
        | none =>
          -- The names that follow are looked for only when their turn comes.
          if rest ≠ [] ∧ asksDirectory rest ∧ t.isDirectory i = false then .error .notDirectory
          else canonicalWalk t links (name :: back) rest
termination_by (links, names.length)

/-- The canonical path of the node that a path leads to. -/
def realpath (t : FileTree) (p : Path) : Except IoError Path :=
  if p.bytes.contains 0 then .error .nulInPath
  else if p.bytes = [] then .error .noEntry
  else
    -- A base that has been removed has no path any more.
    match if p.isAbsolute then some [] else t.namesOf? t.base with
    | none => .error .noEntry
    | some names => (t.canonicalWalk maxLinks names.reverse (Path.splitSlash p.bytes)).map pathOf

end ReadPool.FileTree
