import Mathlib
import ReadPool.Pool.World

/-!
# Settings of a pool

A configuration is built by any number of settings, in any order. Of each kind the last one counts,
and the count of shards, if there is one, decides whether there will be a pool: it has to be a power
of two that fits into a word, and not the least one.
-/

namespace ReadPool

/-- A setting that is made when a configuration is built. -/
inductive Setting where
  | shards (n : UInt64)
  | capacity (n : UInt64)
deriving DecidableEq, Repr

namespace Setting

def shards? : Setting → Option UInt64
  | shards n => some n
  | capacity _ => none

def capacity? : Setting → Option UInt64
  | shards _ => none
  | capacity n => some n

end Setting

namespace Config

def set (c : Config) : Setting → Config
  | .shards n => c.withShards n
  | .capacity n => c.withCapacity n

/-- The configuration that is built by settings, first things first. -/
def of (settings : List Setting) : Config := settings.foldl set {}

/-- Of each kind, the last setting counts. -/
theorem of_eq (settings : List Setting) : Config.of settings =
    { shards := (settings.filterMap Setting.shards?).getLast?
      capacity := (settings.filterMap Setting.capacity?).getLast?.getD 0 } := by
  induction settings using List.reverseRecOn with
  | nil => rfl
  | append_singleton settings setting ih =>
    rw [of, List.foldl_concat, ← of, ih]
    cases setting <;>
      simp [set, withShards, withCapacity, Setting.shards?, Setting.capacity?]

/-! ## Powers of two -/

/-- The word is told from its bits, without a division. -/
theorem isPowerOfTwo_iff {n : UInt64} : isPowerOfTwo n ↔ ∃ j, n.toNat = 2 ^ j := by
  rcases eq_or_ne n 0 with rfl | hn
  · simp [isPowerOfTwo, fun j => (Nat.two_pow_pos j).ne]
  · have hpos : n.toNat ≠ 0 := fun h => hn (UInt64.toNat_inj.1 h)
    have hone : 1 ≤ n := UInt64.le_iff_toNat_le.2 (Nat.one_le_iff_ne_zero.2 hpos)
    have hand : (n &&& (n - 1)).toNat = n.toNat &&& n.toNat - 1 := by
      rw [UInt64.toNat_and, UInt64.toNat_sub_of_le _ _ hone, UInt64.toNat_one]
    rw [isPowerOfTwo, Bool.and_eq_true, bne_iff_ne, beq_iff_eq, ← UInt64.toNat_inj, hand,
      UInt64.toNat_zero, Nat.and_sub_one_eq_zero_iff_isPowerOfTwo hpos, and_iff_right hn]
    rfl

/-- The counts of shards that there can be. -/
theorem exists_exponent_iff {n : UInt64} :
    (∃ j, 1 ≤ j ∧ j ≤ 63 ∧ n.toNat = 2 ^ j) ↔ 1 < n ∧ isPowerOfTwo n := by
  rw [isPowerOfTwo_iff, UInt64.lt_iff_toNat_lt, UInt64.toNat_one]
  constructor
  · rintro ⟨j, hj, -, hn⟩
    exact ⟨hn ▸ Nat.one_lt_two_pow (Nat.ne_of_gt hj), j, hn⟩
  · rintro ⟨hlt, j, hn⟩
    have hj : 2 ^ j < 2 ^ 64 := hn ▸ n.toNat_lt
    have hj' : j < 64 := (Nat.pow_lt_pow_iff_right Nat.one_lt_two).1 hj
    refine ⟨j, Nat.one_le_iff_ne_zero.2 ?_, Nat.le_of_lt_succ hj', hn⟩
    rintro rfl
    rw [hn] at hlt
    exact Nat.lt_irrefl 1 hlt

/-! ## What is wrong -/

variable {c : Config} {n : UInt64}

theorem fault?_eq_none_iff : c.fault? = none ↔
    ∀ n, c.shards = some n → ∃ j, 1 ≤ j ∧ j ≤ 63 ∧ n.toNat = 2 ^ j := by
  simp only [exists_exponent_iff, fault?]
  cases c.shards with
  | none => simp
  | some n =>
    by_cases hfew : n ≤ 1
    · simp [hfew]
    · cases hpow : isPowerOfTwo n <;> simp [hfew, UInt64.not_le.1 hfew, hpow]

theorem fault?_eq_tooFew_iff :
    c.fault? = some .tooFew ↔ c.shards = some 0 ∨ c.shards = some 1 := by
  rw [fault?]
  cases c.shards with
  | none => simp
  | some n =>
    have hfew : n ≤ 1 ↔ n = 0 ∨ n = 1 := by
      rw [UInt64.le_iff_toNat_le, ← UInt64.toNat_inj, ← UInt64.toNat_inj, UInt64.toNat_zero,
        UInt64.toNat_one]
      omega
    by_cases h : n ≤ 1
    · simp [h, hfew.1 h]
    · cases hpow : isPowerOfTwo n <;> simp [h, hpow, ← hfew]

theorem fault?_eq_notPowerOfTwo_iff : c.fault? = some .notPowerOfTwo ↔
    ∃ n, c.shards = some n ∧ 1 < n ∧ ∀ j, n.toNat ≠ 2 ^ j := by
  rw [fault?]
  cases c.shards with
  | none => simp
  | some n =>
    have hpow : (∀ j, n.toNat ≠ 2 ^ j) ↔ isPowerOfTwo n = false := by
      rw [← Bool.not_eq_true, isPowerOfTwo_iff, not_exists]
    by_cases hfew : n ≤ 1
    · simp [hfew]
    · cases h : isPowerOfTwo n <;> simp [hfew, hpow, UInt64.not_le.1 hfew, h]

/-- The greatest count of shards that there can be. -/
example : (Config.of [.shards 12, .capacity 4, .shards 0x8000000000000000]).fault? = none := by decide

end Config

/-! ## Whether there is a pool -/

namespace World

variable {w : World σ} {c : Config}

theorem newPool_eq (w : World σ) (c : Config) : w.newPool c =
    match c.fault? with
    | none => .ok (w.addPool c)
    | some fault => .error (.invalidConfig fault.reason) := by
  rw [newPool, Config.validate]
  cases c.fault? <;> rfl

theorem newPool_eq_ok_iff {made : World σ × PoolId} :
    w.newPool c = .ok made ↔ c.fault? = none ∧ made = w.addPool c := by
  rw [newPool_eq]
  cases c.fault? <;> simp [eq_comm]

theorem newPool_eq_error_iff {e : PoolError} :
    w.newPool c = .error e ↔ ∃ fault, c.fault? = some fault ∧ e = .invalidConfig fault.reason := by
  rw [newPool_eq]
  cases c.fault? <;> simp [eq_comm]

end World

end ReadPool
