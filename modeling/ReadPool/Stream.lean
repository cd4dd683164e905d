import ReadPool.IoError

/-!
# Streams

What a raw handle gives when it is read: the bytes of a source, which are endless, absent or laid
down event by event. A read takes what it can from the head of its source and never joins two
events. Loops of reads are in `ReadPool.Stream.Composite`.
-/

namespace ReadPool

/-- A step in the life of a scripted source. -/
inductive StreamEvent where
  | data (bytes : List UInt8)
  | fail (error : IoError)
  | eof
deriving DecidableEq, Repr

inductive Source where
  | counting (next : UInt8)
  | repeating (byte : UInt8)
  | script (events : List StreamEvent)
deriving DecidableEq, Repr

structure Stream where
  source : Source
  /-- The most that one read gives. -/
  chunk : Option Nat := none
deriving DecidableEq, Repr

/-- What a read of a handle in some state gives, and the state it leaves. -/
abbrev Reader (σ : Type u) := Nat → σ → Except IoError (List UInt8) × σ

/-- The bytes from `b` upwards, modulo 256. -/
def countFrom (b : UInt8) : Nat → List UInt8
  | 0 => []
  | n + 1 => b :: countFrom (b + 1) n

namespace Source

/-- A source that is at its end. -/
def empty : Source := script []

/-- One read of at most `n` bytes, where `n` is not zero. -/
def read : Reader Source
  | n, counting b => (.ok (countFrom b n), counting (b + UInt8.ofNat n))
  | n, repeating b => (.ok (List.replicate n b), repeating b)
  | _, script [] => (.ok [], script [])
  | _, script (.fail e :: events) => (.error e, script events)
  | _, script (.eof :: events) => (.ok [], script events)
  | n, script (.data bytes :: events) =>
    -- An event that is read to its end is over: no empty read follows it.
    if bytes.length ≤ n then (.ok bytes, script events)
    else (.ok (bytes.take n), script (.data (bytes.drop n) :: events))

end Source

namespace Stream

/-- What is left of `n` under the limit on one read. -/
def effective (s : Stream) (n : Nat) : Nat :=
  match s.chunk with
  | none => n
  | some m => min m n

/-- One read into a buffer of `n` bytes; where no byte could come, the source is not asked. -/
def read : Reader Stream := fun n s =>
  if s.effective n = 0 then (.ok [], s)
  else
    let (result, source) := s.source.read (s.effective n)
    (result, { s with source })

/-- How many reads the stream can still answer by asking to be tried again. -/
def patience (s : Stream) : Nat :=
  match s.source with
  | .script events => events.length
  | _ => 0

end Stream

end ReadPool
