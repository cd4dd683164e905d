import ReadPool.PoolError

/-!
# Pool configuration

How the table of a pool is laid out. A layout is a count of shards, which has to be a power of two
greater than one, and a capacity to begin with; neither can be seen in what the pool does.
-/

namespace ReadPool

structure Config where
  shards : Option UInt64 := none
  capacity : UInt64 := 0
deriving DecidableEq, Repr

/-- What is wrong with a count of shards. -/
inductive ShardFault where
  | tooFew
  | notPowerOfTwo
deriving DecidableEq, Repr

def ShardFault.reason : ShardFault → String
  | tooFew => "shard_amount must be greater than 1"
  | notPowerOfTwo => "shard_amount must be a power of two"

namespace Config

def withShards (c : Config) (n : UInt64) : Config := { c with shards := some n }

def withCapacity (c : Config) (n : UInt64) : Config := { c with capacity := n }

/-- A word is a power of two when it has one bit: taking one away then clears it. -/
def isPowerOfTwo (n : UInt64) : Bool := n != 0 && (n &&& (n - 1)) == 0

def fault? (c : Config) : Option ShardFault :=
  match c.shards with
  | none => none
  | some n => if n ≤ 1 then some .tooFew else if isPowerOfTwo n then none else some .notPowerOfTwo

def validate (c : Config) : Except PoolError Unit :=
  match c.fault? with
  | none => .ok ()
  | some fault => .error (.invalidConfig fault.reason)

def debug (c : Config) : String :=
  Text.showRecord "PoolConfig"
    [("shard_amount", Text.showOption toString c.shards), ("capacity", toString c.capacity)]

end Config

end ReadPool
