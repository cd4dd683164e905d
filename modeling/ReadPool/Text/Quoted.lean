import ReadPool.Text.Printable
import ReadPool.Text.Utf8

/-!
# Quoted text

The written form of byte strings and texts between quotation marks, from which the bytes can be
read back: a broken byte is written `\xHH`, a character that does not show `\u{h}`.
-/

namespace ReadPool.Text

/-! ## Escapes -/

/-- The two upper-case hexadecimal digits of a byte. -/
def hexByte (b : UInt8) : List Char :=
  [Nat.digitChar (b.toNat / 16), Nat.digitChar (b.toNat % 16)].map Char.toUpper

/-- A character as it is written between quotation marks. -/
def escapeChar (c : Char) : List Char :=
  match c with
  | '\x00' => ['\\', '0']
  | '\t' => ['\\', 't']
  | '\n' => ['\\', 'n']
  | '\r' => ['\\', 'r']
  | '"' => ['\\', '"']
  | '\\' => ['\\', '\\']
  | c => if isPrintable c then [c] else ['\\', 'u', '{'] ++ Nat.toDigits 16 c.toNat ++ ['}']

def escapeByte (b : UInt8) : List Char := ['\\', 'x'] ++ hexByte b

def escapePiece : Piece → List Char
  | .char c => escapeChar c
  | .broken bytes => bytes.flatMap escapeByte

/-! ## Quotation -/

/-- The characters of a byte string's quoted form. -/
def quoteChars (bytes : List UInt8) : List Char :=
  '"' :: (pieces bytes).flatMap escapePiece ++ ['"']

def quoteBytes (bytes : List UInt8) : String := String.ofList (quoteChars bytes)

def quote (text : String) : String :=
  String.ofList ('"' :: text.toList.flatMap escapeChar ++ ['"'])

/-! ## Records -/

/-- A record with named fields, as it is written in a debug text. -/
def showRecord (name : String) (fields : List (String × String)) : String :=
  name ++ " \x7b " ++ ", ".intercalate (fields.map fun (field, value) => field ++ ": " ++ value)
    ++ " \x7d"

/-- A value under the name of its constructor. -/
def showTagged (name value : String) : String := name ++ "(" ++ value ++ ")"

def showOption (show1 : α → String) : Option α → String
  | none => "None"
  | some a => showTagged "Some" (show1 a)

end ReadPool.Text
