import ReadPool.Stream

/-!
# Loops of reads

Reading an exact number of bytes, to the end, or into text: one loop asks again and again for what
is still missing, tries again where it is told to, and stops at a read that gives nothing, at an
error, or when nothing is missing. The three operations differ in what they make of its outcome.
-/

namespace ReadPool

/-- What a loop of reads came to. -/
structure Gathered (σ : Type u) where
  data : List UInt8
  /-- The error that ended the loop. -/
  error : Option IoError
  state : σ

/-- Reads until `missing` bytes have come, one read per unit of `fuel`; `back` holds what came
before, last byte first. -/
def gatherLoop (read : Reader σ) : Nat → Nat → List UInt8 → σ → Gathered σ
  | 0, _, back, s => ⟨back.reverse, none, s⟩
  | fuel + 1, missing, back, s =>
    if missing = 0 then ⟨back.reverse, none, s⟩
    else match read missing s with
      | (.ok [], s) => ⟨back.reverse, none, s⟩
      | (.ok bytes, s) =>
        gatherLoop read fuel (missing - bytes.length) (bytes.reverseAux back) s
      | (.error e, s) =>
        if e.isInterrupted then gatherLoop read fuel missing back s
        else ⟨back.reverse, some e, s⟩

/-- Reads up to `limit` bytes. A read that neither ends the loop nor asks to be tried again brings
a byte, so `limit` and the handle's patience bound the number of reads. -/
def gather (read : Reader σ) (patience : Nat) (limit : Nat) (s : σ) : Gathered σ :=
  gatherLoop read (limit + patience + 1) limit [] s

/-! ## What the loop came to -/

/-- The error of a stream that ends before the bytes asked for. -/
def unexpectedEof : IoError := .custom .unexpectedEof "failed to fill whole buffer"

/-- The error of bytes that are no text. -/
def invalidText : IoError := .custom .invalidData "stream did not contain valid UTF-8"

namespace Gathered

/-- Exactly `n` bytes; what came of fewer is lost. -/
def exactly (g : Gathered σ) (n : Nat) : Except IoError (List UInt8) :=
  match g.error with
  | some e => .error e
  | none => if g.data.length < n then .error unexpectedEof else .ok g.data

/-- All bytes as text, or the error; an error of the stream comes before one of the text. -/
def asText (g : Gathered σ) : Except IoError String :=
  match g.error with
  | some e => .error e
  | none => match Text.decode? g.data with
    | some text => .ok text
    | none => .error invalidText

end Gathered

end ReadPool
