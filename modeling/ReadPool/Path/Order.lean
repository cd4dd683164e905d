import ReadPool.Path

/-!
# The order of paths

Paths are ordered by their components, the first difference deciding: the root before `.`, `.`
before `..`, `..` before names, and names by their bytes. A path comes before every longer one
that begins with it.
-/

namespace ReadPool

/-- The place of a component's kind among the kinds. -/
def Component.rank : Component → Nat
  | .root => 0
  | .current => 1
  | .parent => 2
  | .name _ => 3

protected def Component.compare (a b : Component) : Ordering :=
  match a, b with
  | .name x, .name y => List.compareLex compare x y
  | a, b => compare a.rank b.rank

protected def Path.compare (p q : Path) : Ordering :=
  List.compareLex Component.compare p.components q.components

end ReadPool
