import Mathlib
import ReadPool.PoolError

/-!
# Reading quoted text

What is between quotation marks can be read back: every escape says by its first characters what it
is and where it ends, so neither where a broken piece begins nor what stands beside an escape can be
mistaken. Hence a debug text tells byte strings apart that are the same for a reader of the display
text, and it does so inside a longer text too.
-/

namespace ReadPool

namespace Text

/-- The value of a hexadecimal digit, in upper or lower case. -/
def hexValue (c : Char) : Nat := "0123456789abcdef".toList.idxOf c.toLower

/-- What a character after a backslash stands for, where it is all of an escape. -/
def unescapeChar : Char → Char
  | '0' => '\x00'
  | 't' => '\t'
  | 'n' => '\n'
  | 'r' => '\r'
  | c => c

/-- What was read, with the bytes before it. -/
def putBefore (bytes : List UInt8) (read : Option (List UInt8 × List Char)) :
    Option (List UInt8 × List Char) :=
  read.map fun (more, rest) => (bytes ++ more, rest)

/-- The bytes up to the closing quotation mark, and what follows that. Inside an escape by code
point, the number that the digits so far make is given. -/
def unquote : Option Nat → List Char → Option (List UInt8 × List Char)
  | none, '"' :: rest => some ([], rest)
  | none, '\\' :: 'x' :: high :: low :: rest =>
    putBefore [UInt8.ofNat (16 * hexValue high + hexValue low)] (unquote none rest)
  | none, '\\' :: 'u' :: '{' :: rest => unquote (some 0) rest
  | none, '\\' :: c :: rest =>
    putBefore (String.utf8EncodeChar (unescapeChar c)) (unquote none rest)
  | none, c :: rest => putBefore (String.utf8EncodeChar c) (unquote none rest)
  | some code, '}' :: rest =>
    putBefore (String.utf8EncodeChar (Char.ofNat code)) (unquote none rest)
  | some code, digit :: rest => unquote (some (16 * code + hexValue digit)) rest
  | _, [] => none

/-- The bytes of the first thing in a text that is between quotation marks. -/
def firstQuoted? (text : String) : Option (List UInt8) :=
  (unquote none (text.toList.dropWhile (· ≠ '"')).tail).map Prod.fst

@[simp] theorem putBefore_nil (read : Option (List UInt8 × List Char)) :
    putBefore [] read = read := by
  cases read <;> rfl

@[simp] theorem putBefore_some (bytes more : List UInt8) (rest : List Char) :
    putBefore bytes (some (more, rest)) = some (bytes ++ more, rest) := rfl

@[simp] theorem putBefore_putBefore (bytes bytes' : List UInt8)
    (read : Option (List UInt8 × List Char)) :
    putBefore bytes (putBefore bytes' read) = putBefore (bytes ++ bytes') read := by
  cases read <;> simp [putBefore]

/-! ## Digits -/

theorem hexValue_digitChar : ∀ n < 16, hexValue n.digitChar = n := by decide

theorem hexValue_toUpper_digitChar : ∀ n < 16, hexValue n.digitChar.toUpper = n := by decide

theorem digitChar_ne_brace : ∀ n < 16, n.digitChar ≠ '}' := by decide

variable {rest : List Char}

theorem unquote_digit {n : Nat} (hn : n < 16) (code : Nat) :
    unquote (some code) (n.digitChar :: rest) = unquote (some (16 * code + n)) rest := by
  rw [unquote, hexValue_digitChar n hn]
  exact digitChar_ne_brace n hn

/-- The digits of a number make the number. -/
theorem unquote_toDigits (n : Nat) (rest : List Char) :
    unquote (some 0) (Nat.toDigits 16 n ++ rest) = unquote (some n) rest := by
  induction n using Nat.strong_induction_on generalizing rest with
  | _ n ih =>
    rw [Nat.toDigits_eq_if (by decide)]
    split
    · next hn => rw [List.singleton_append, unquote_digit hn, Nat.mul_zero, Nat.zero_add]
    · next hn =>
      -- All digits but the last are those of a smaller number.
      have hlast : n % 16 < 16 := Nat.mod_lt n (by decide)
      rw [List.append_assoc, ih (n / 16) (by omega), List.singleton_append, unquote_digit hlast,
        Nat.div_add_mod]

/-! ## Pieces -/

/-- A character that stands for itself. -/
theorem unquote_char {c : Char} (hq : c ≠ '"') (hb : c ≠ '\\') :
    unquote none (c :: rest) = putBefore (String.utf8EncodeChar c) (unquote none rest) := by
  rw [unquote]
  · exact hq
  · rintro _ _ _ rfl
    exact absurd rfl hb
  · rintro _ rfl
    exact absurd rfl hb
  · rintro _ _ rfl
    exact absurd rfl hb

theorem unquote_escapeChar (c : Char) :
    unquote none (escapeChar c ++ rest)
      = putBefore (String.utf8EncodeChar c) (unquote none rest) := by
  unfold escapeChar
  split
  -- Six characters have an escape of their own.
  iterate 6 rfl
  next hq hb =>
    split
    · exact unquote_char hq hb
    · have hcode : unquote none ('\\' :: 'u' :: '{' :: (Nat.toDigits 16 c.toNat ++ '}' :: rest))
          = unquote (some c.toNat) ('}' :: rest) := by
        rw [unquote, unquote_toDigits]
      simpa [unquote] using hcode

theorem unquote_escapeByte (b : UInt8) :
    unquote none (escapeByte b ++ rest) = putBefore [b] (unquote none rest) := by
  have hhigh : b.toNat / 16 < 16 := by
    have := b.toNat_lt
    omega
  have hlow : b.toNat % 16 < 16 := Nat.mod_lt _ (by decide)
  simp only [escapeByte, hexByte, List.map_cons, List.map_nil, List.cons_append, List.nil_append,
    unquote, hexValue_toUpper_digitChar _ hhigh, hexValue_toUpper_digitChar _ hlow,
    Nat.div_add_mod, UInt8.ofNat_toNat]

theorem unquote_escapePiece (p : Piece) :
    unquote none (escapePiece p ++ rest) = putBefore p.bytes (unquote none rest) := by
  cases p with
  | char c => exact unquote_escapeChar c
  | broken bytes =>
    induction bytes with
    | nil => simp [escapePiece, Piece.bytes]
    | cons b bytes ih =>
      simp only [escapePiece, Piece.bytes, List.flatMap_cons, List.append_assoc] at ih ⊢
      rw [unquote_escapeByte, ih, putBefore_putBefore, List.singleton_append]

theorem unquote_pieces (ps : List Piece) (rest : List Char) :
    unquote none (ps.flatMap escapePiece ++ '"' :: rest) = some (ps.flatMap Piece.bytes, rest) := by
  induction ps with
  | nil => rfl
  | cons p ps ih =>
    rw [List.flatMap_cons, List.append_assoc, unquote_escapePiece, ih, putBefore_some,
      List.flatMap_cons]

/-- What is quoted is read back wherever it stands, if nothing before it is quoted. -/
theorem firstQuoted?_append {before : String} (h : '"' ∉ before.toList) (bytes : List UInt8)
    (after : String) : firstQuoted? (before ++ quoteBytes bytes ++ after) = some bytes := by
  have hskip : ∀ c ∈ before.toList, decide (c ≠ '"') = true := by
    intro c hc
    exact decide_eq_true fun he => h (he ▸ hc)
  have htext : (before ++ quoteBytes bytes ++ after).toList = before.toList
      ++ '"' :: ((pieces bytes).flatMap escapePiece ++ '"' :: after.toList) := by
    simp [quoteBytes, quoteChars]
  rw [firstQuoted?, htext, List.dropWhile_append_of_pos hskip,
    List.dropWhile_cons_of_neg (by decide), List.tail_cons, unquote_pieces, flatMap_bytes_pieces,
    Option.map_some]

end Text

/-! ## Debug texts -/

theorem Identity.firstQuoted?_debug (X : Identity) :
    Text.firstQuoted? X.debug = some X.path.bytes := by
  have hname : '"' ∉ ("FileIdentity" ++ "(").toList := by decide
  exact Text.firstQuoted?_append hname X.path.bytes ")"

theorem PoolError.debug_openFailed (X : Identity) (source : IoError) :
    (openFailed X source).debug
      = "Open \x7b identity: FileIdentity(" ++ Text.quoteBytes X.path.bytes
        ++ ("), source: " ++ source.debug ++ " \x7d") := by
  apply String.toList_inj.1
  simp [debug, constructorName, Text.showRecord, Identity.debug, Text.showTagged, Path.debug]

theorem PoolError.message_openFailed (X : Identity) (source : IoError) :
    (openFailed X source).message
      = "failed to open " ++ X.display ++ ": " ++ source.display := rfl

theorem PoolError.firstQuoted?_debug_openFailed (X : Identity) (source : IoError) :
    Text.firstQuoted? (openFailed X source).debug = some X.path.bytes := by
  rw [debug_openFailed]
  exact Text.firstQuoted?_append (by decide) _ _

theorem Identity.eq_of_bytes {X Y : Identity} (h : some X.path.bytes = some Y.path.bytes) :
    X = Y := by
  obtain ⟨⟨bytes⟩⟩ := X
  obtain ⟨⟨bytes'⟩⟩ := Y
  cases h
  rfl

/-- No character begins with either of these bytes, so both are displayed as one that is broken. -/
theorem Identity.exists_display_eq : ∃ X Y : Identity, X ≠ Y ∧ X.display = Y.display :=
  ⟨⟨⟨[0xFF]⟩⟩, ⟨⟨[0xFE]⟩⟩, by decide, by decide +kernel⟩

/-- The bytes of an identity can be read off its debug text, and off that of a failed open, so that
no other identity has the same text. The message of a failed open does not tell all identities
apart. -/
theorem Identity.debug_tells_apart (X : Identity) (source : IoError) :
    Text.firstQuoted? X.debug = some X.path.bytes ∧
    (∀ Y : Identity, X.debug = Y.debug ↔ X = Y) ∧
    Text.firstQuoted? (PoolError.openFailed X source).debug = some X.path.bytes ∧
    (∀ Y : Identity, (PoolError.openFailed X source).debug = (PoolError.openFailed Y source).debug
      ↔ X = Y) ∧
    ∃ Y Z : Identity, Y ≠ Z ∧
      (PoolError.openFailed Y source).message = (PoolError.openFailed Z source).message := by
  refine ⟨X.firstQuoted?_debug, fun Y => ⟨fun h => ?_, congrArg debug⟩,
    PoolError.firstQuoted?_debug_openFailed X source, fun Y => ⟨fun h => ?_, ?_⟩, ?_⟩
  · apply eq_of_bytes
    rw [← X.firstQuoted?_debug, h, Y.firstQuoted?_debug]
  · apply eq_of_bytes
    rw [← PoolError.firstQuoted?_debug_openFailed X source, h,
      PoolError.firstQuoted?_debug_openFailed]
  · rintro rfl
    rfl
  · obtain ⟨Y, Z, hne, hdisplay⟩ := exists_display_eq
    refine ⟨Y, Z, hne, ?_⟩
    rw [PoolError.message_openFailed, PoolError.message_openFailed, hdisplay]

/-- A backslash, a combining mark, a character that is cut short, and a quotation mark. -/
example : Identity.debug ⟨⟨[0x5C, 0xCC, 0x81, 0xE6, 0x97, 0x22]⟩⟩
    = "FileIdentity(\"\\\\\\u\x7b301\x7d\\xE6\\x97\\\"\")" := by decide +kernel

end ReadPool
