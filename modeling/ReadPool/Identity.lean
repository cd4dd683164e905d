import ReadPool.Path.Order

/-!
# Identities

An identity is the path under which a stream is pooled. It keeps the spelling it was made with,
but the pool knows it only up to its components: `Same` is the equality that look-ups use.
-/

namespace ReadPool

structure Identity where
  path : Path
deriving DecidableEq, Repr, Inhabited

namespace Identity

/-- The two identities name one file, however they are spelled. -/
def Same (x y : Identity) : Prop := x.path.components = y.path.components

instance (x y : Identity) : Decidable (Same x y) :=
  inferInstanceAs (Decidable (x.path.components = y.path.components))

theorem Same.refl (x : Identity) : Same x x := rfl

theorem Same.symm {x y : Identity} (h : Same x y) : Same y x := Eq.symm h

theorem Same.trans {x y z : Identity} (h : Same x y) (h' : Same y z) : Same x z := Eq.trans h h'

protected def compare (x y : Identity) : Ordering := x.path.compare y.path

/-- The identities in ascending order; those that are the same stay in the order they came in. -/
def sort (xs : List Identity) : List Identity :=
  xs.mergeSort fun x y => (x.compare y).isLE

/-- How many different files the identities name. -/
def countDistinct : List Identity → Nat
  | [] => 0
  | x :: xs => countDistinct xs + if xs.any fun y => decide (Same x y) then 0 else 1

/-! ## Texts -/

def display (x : Identity) : String := x.path.display

def debug (x : Identity) : String := Text.showTagged "FileIdentity" x.path.debug

end Identity

end ReadPool
