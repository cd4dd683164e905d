/-!
# Bytes as text

A byte string is cut into pieces: characters in UTF-8, and between them the runs of bytes that no
character explains, each as long as it can be and still begin one. No byte is lost by the cut
(`flatMap_bytes_pieces`), so what is said of a byte string can be said piece by piece.
-/

namespace ReadPool.Text

/-- A character of a byte string, or a run of bytes that is none. -/
inductive Piece where
  | char (c : Char)
  | broken (bytes : List UInt8)
deriving DecidableEq, Repr

/-- The bytes that a piece stands for. -/
def Piece.bytes : Piece → List UInt8
  | .char c => String.utf8EncodeChar c
  | .broken bytes => bytes

/-! ## The first piece -/

/-- The code point that the head of a byte string spells, if it spells one at all. -/
def spelled (bytes : List UInt8) : Nat :=
  let lead := (bytes.headD 0).toNat
  let (bits, more) :=
    if lead < 0x80 then (lead, 0)
    else if lead < 0xE0 then (lead % 32, 1)
    else if lead < 0xF0 then (lead % 16, 2)
    else (lead % 8, 3)
  ((bytes.drop 1).take more).foldl (fun acc b => acc * 64 + b.toNat % 64) bits

/-- The character whose encoding the bytes begin with. -/
def leading? (bytes : List UInt8) : Option Char :=
  let c := Char.ofNat (spelled bytes)
  if (String.utf8EncodeChar c).isPrefixOf bytes then some c else none

def isContinuation (b : UInt8) : Bool := 0x80 ≤ b && b ≤ 0xBF

/-- Some character of three or four bytes begins with these two. -/
def opensLong (lead next : UInt8) : Bool :=
  if lead == 0xE0 then 0xA0 ≤ next && next ≤ 0xBF
  else if lead == 0xED then 0x80 ≤ next && next ≤ 0x9F
  else if lead == 0xF0 then 0x90 ≤ next && next ≤ 0xBF
  else if lead == 0xF4 then 0x80 ≤ next && next ≤ 0x8F
  else 0xE1 ≤ lead && lead ≤ 0xF3 && isContinuation next

/-- How many bytes to give up where no character begins: the longest beginning of one that the
bytes do have, and one byte at the least. -/
def brokenLength : List UInt8 → Nat
  | lead :: next :: rest =>
    if opensLong lead next then
      if 0xF0 ≤ lead && (rest.head?.any isContinuation) then 3 else 2
    else 1
  | _ => 1

theorem brokenLength_pos (bytes : List UInt8) : 0 < brokenLength bytes := by
  fun_cases brokenLength bytes <;> decide

/-- The first piece of a byte string that is not empty. -/
def firstPiece (bytes : List UInt8) : Piece :=
  match leading? bytes with
  | some c => .char c
  | none => .broken (bytes.take (brokenLength bytes))

theorem append_drop_of_leading? {bytes : List UInt8} {c : Char} (h : leading? bytes = some c) :
    String.utf8EncodeChar c ++ bytes.drop (String.utf8EncodeChar c).length = bytes := by
  simp only [leading?, Option.ite_none_right_eq_some, Option.some.injEq] at h
  obtain ⟨hp, rfl⟩ := h
  exact List.prefix_iff_eq_append.1 (List.isPrefixOf_iff_prefix.1 hp)

theorem firstPiece_bytes_append (bytes : List UInt8) :
    (firstPiece bytes).bytes ++ bytes.drop (firstPiece bytes).bytes.length = bytes := by
  unfold firstPiece
  split
  · next c h => exact append_drop_of_leading? h
  · simp only [Piece.bytes, List.length_take]
    rcases Nat.le_total (brokenLength bytes) bytes.length with hl | hl
    · rw [Nat.min_eq_left hl, List.take_append_drop]
    · rw [Nat.min_eq_right hl, List.drop_length, List.append_nil, List.take_of_length_le hl]

theorem firstPiece_bytes_length_pos {bytes : List UInt8} (h : bytes ≠ []) :
    0 < (firstPiece bytes).bytes.length := by
  have hb := brokenLength_pos bytes
  have hl := List.length_pos_iff.2 h
  unfold firstPiece
  split
  · next c _ => simpa [Piece.bytes] using c.utf8Size_pos
  · simp only [Piece.bytes, List.length_take]; omega

/-! ## All pieces -/

/-- The byte string cut into pieces, from the left. -/
def pieces (bytes : List UInt8) : List Piece :=
  if h : bytes = [] then []
  else
    have := firstPiece_bytes_length_pos h
    have := List.length_pos_iff.2 h
    let p := firstPiece bytes
    p :: pieces (bytes.drop p.bytes.length)
termination_by bytes.length
decreasing_by simp only [List.length_drop]; omega

theorem flatMap_bytes_pieces (bytes : List UInt8) : (pieces bytes).flatMap Piece.bytes = bytes := by
  fun_induction pieces bytes with
  | case1 => simp_all
  | case2 bytes h _ _ p ih => rw [List.flatMap_cons, ih, firstPiece_bytes_append]

/-! ## Reading text -/

/-- The character that a piece is. -/
def Piece.char? : Piece → Option Char
  | .char c => some c
  | .broken _ => none

/-- The text, with U+FFFD for each broken piece. -/
def lossy (bytes : List UInt8) : String :=
  String.ofList ((pieces bytes).map fun p => p.char?.getD '\uFFFD')

/-- The text, if no piece is broken. -/
def decode? (bytes : List UInt8) : Option String :=
  ((pieces bytes).mapM Piece.char?).map String.ofList

/-- The bytes of a text. -/
def encode (text : String) : List UInt8 :=
  text.toList.flatMap String.utf8EncodeChar

end ReadPool.Text
