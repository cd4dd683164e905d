import ReadPool.Text.Quoted

/-!
# Paths

A path is a byte string. What it names is given by its components: a run of slashes separates and
counts once, a `.` counts only where a relative path begins with it, and `..` is a component like
any other. Two spellings with the same components are the same path, and `normalize` picks one of
them. The order on components is in `ReadPool.Path.Order`.
-/

namespace ReadPool

structure Path where
  bytes : List UInt8
deriving DecidableEq, Repr, Inhabited

/-- The byte that separates components. -/
def slash : UInt8 := 0x2F

/-- The byte that `.` and `..` are written with. -/
def dot : UInt8 := 0x2E

inductive Component where
  | root
  | current
  | parent
  | name (bytes : List UInt8)
deriving DecidableEq, Repr

/-- The bytes of a component; the root has none besides its slash. -/
def Component.bytes : Component → List UInt8
  | .root => []
  | .current => [dot]
  | .parent => [dot, dot]
  | .name bytes => bytes

namespace Path

def ofString (text : String) : Path := ⟨Text.encode text⟩

/-! ## Splitting -/

/-- The pieces between slashes; there is one more of them than there are slashes. -/
def splitSlash : List UInt8 → List (List UInt8)
  | [] => [[]]
  | b :: rest =>
    if b = slash then [] :: splitSlash rest
    else match splitSlash rest with
      | [] => [[b]]
      | piece :: pieces => (b :: piece) :: pieces

/-- The component that a piece is, unless it is one of those that do not count. -/
def component? (piece : List UInt8) : Option Component :=
  if piece = [] ∨ piece = [dot] then none
  else if piece = [dot, dot] then some .parent
  else some (.name piece)

/-- What comes before the components that the pieces give. -/
def start (bytes : List UInt8) : List Component :=
  if bytes.head? = some slash then [.root]
  else if (splitSlash bytes).head? = some [dot] then [.current]
  else []

def components (p : Path) : List Component :=
  start p.bytes ++ (splitSlash p.bytes).filterMap component?

/-- The path starts at the root. -/
def isAbsolute (p : Path) : Bool := p.bytes.head? = some slash

/-! ## Writing back -/

/-- The components with one slash between any two of them. -/
def ofComponents : List Component → Path
  | [.root] => ⟨[slash]⟩
  | cs => ⟨List.intercalate [slash] (cs.map Component.bytes)⟩

/-- The spelling of a path that has nothing to spare. -/
def normalize (p : Path) : Path := ofComponents p.components

/-! ## Texts -/

/-- The path as text, with U+FFFD for what is none. -/
def display (p : Path) : String := Text.lossy p.bytes

/-- The path in quotation marks, from which its bytes can be read back. -/
def debug (p : Path) : String := Text.quoteBytes p.bytes

end Path

end ReadPool
