/-!
# Names

Values under names, in ascending order of the names. A name has one value at the most.
-/

namespace ReadPool

structure Names (α : Type u) where
  toList : List (String × α) := []

namespace Names

def find? (s : Names α) (name : String) : Option α := s.toList.lookup name

def erase (s : Names α) (name : String) : Names α := ⟨s.toList.filter fun e => e.1 ≠ name⟩

/-- The value, in place of any other of its name. -/
def insert (s : Names α) (name : String) (a : α) : Names α :=
  ⟨s.toList.filter (fun e => e.1 < name) ++ (name, a) :: s.toList.filter (fun e => name < e.1)⟩

def names (s : Names α) : List String := s.toList.map (·.1)

def size (s : Names α) : Nat := s.toList.length

end Names

end ReadPool
