import MagicLaw.Outbox.Storage

/-!
# The law of the retry delay

What `RetryConfig::next_delay_ms` of `infrastructure/storage/outbox.rs`
computes, in numbers without a limit: `backoff`, the doubled base under the
cap, and less than that again of jitter.

* `nextDelayMs_lawful`: for every configuration and every count the delay is
  computed without a panic, it is between the backoff and the cap, and it does
  not go down with the count.

The jitter range is whatever the product of floating-point numbers gives, as
long as it is not above the backoff.
-/

namespace MagicLaw.Outbox

/-! ## The arithmetic that can panic -/

/-- The product of two `u64` values, which may overflow. -/
def checkedMul (a b : UInt64) : Option UInt64 :=
  if a.toNat * b.toNat < 2 ^ 64 then some (a * b) else none

/-- The remainder of two `u64` values, which has to be by some other value
than 0. -/
def checkedRem (a b : UInt64) : Option UInt64 := if b = 0 then none else some (a % b)

/-- `next_delay_ms`, and nothing where it would panic. -/
def RetryConfig.nextDelayMs? (retry : RetryConfig) (retryCount : UInt32) : Option UInt64 :=
  let power := saturate (2 ^ retryCount.toNat)
  let base := saturate (retry.baseBackoffMs.toNat * power.toNat)
  let capped := min base retry.maxBackoffMs
  let jitterRange := retry.jitterRange capped
  if 0 < jitterRange then do
    let product ← checkedMul retryCount.toUInt64 7
    let jitter ← checkedRem product jitterRange
    return min (saturate (capped.toNat + jitter.toNat)) retry.maxBackoffMs
  else some (min capped retry.maxBackoffMs)

/-- A count is a `u32`, so seven times it is a `u64`. -/
theorem toNat_mul_seven (retryCount : UInt32) :
    (retryCount.toUInt64 * 7).toNat = retryCount.toNat * 7 := by
  have hcount := retryCount.toNat_lt
  have hseven : (7 : UInt64).toNat = 7 := rfl
  rw [UInt64.toNat_mul, UInt32.toNat_toUInt64, hseven]
  omega

theorem checkedMul_seven (retryCount : UInt32) :
    checkedMul retryCount.toUInt64 7 = some (retryCount.toUInt64 * 7) := by
  have hcount := retryCount.toNat_lt
  have hseven : (7 : UInt64).toNat = 7 := rfl
  unfold checkedMul
  rw [UInt32.toNat_toUInt64, hseven, if_pos (by omega)]

theorem nextDelayMs?_eq (retry : RetryConfig) (retryCount : UInt32) :
    retry.nextDelayMs? retryCount = some (retry.nextDelayMs retryCount) := by
  unfold RetryConfig.nextDelayMs? RetryConfig.nextDelayMs
  dsimp only
  generalize retry.jitterRange _ = range
  by_cases hrange : 0 < range
  · have hne : ¬range = 0 := by
      rintro rfl
      exact absurd hrange (by decide)
    rw [if_pos hrange, if_pos hrange, checkedMul_seven]
    show (checkedRem _ _ >>= _) = _
    rw [checkedRem, if_neg hne]
    rfl
  · rw [if_neg hrange, if_neg hrange]

/-! ## The delay as a number -/

theorem toNat_saturate (n : Nat) : (saturate n).toNat = min n (2 ^ 64 - 1) := by
  unfold saturate
  rw [UInt64.toNat_ofNat']
  exact Nat.mod_eq_of_lt (by omega)

theorem toNat_min (a b : UInt64) : (min a b).toNat = min a.toNat b.toNat := by
  show (if a ≤ b then a else b).toNat = _
  by_cases hle : a ≤ b
  · have := UInt64.le_iff_toNat_le.mp hle
    rw [if_pos hle]
    omega
  · have := UInt64.lt_iff_toNat_lt.mp (UInt64.not_le.mp hle)
    rw [if_neg hle]
    omega

/-- `min(base_backoff_ms * 2^n, max_backoff_ms)` -/
def RetryConfig.backoff (retry : RetryConfig) (n : Nat) : Nat :=
  min (retry.baseBackoffMs.toNat * 2 ^ n) retry.maxBackoffMs.toNat

/-- The jitter that is added, before the second cap. -/
def RetryConfig.jitter (retry : RetryConfig) (retryCount : UInt32) : Nat :=
  let range := retry.jitterRange (UInt64.ofNat (retry.backoff retryCount.toNat))
  if 0 < range then retryCount.toNat * 7 % range.toNat else 0

/-- Below the cap nothing is lost by the saturation. -/
theorem min_saturated (base power cap : Nat) (hcap : cap < 2 ^ 64) :
    min (min (base * min power (2 ^ 64 - 1)) (2 ^ 64 - 1)) cap = min (base * power) cap := by
  by_cases hzero : base = 0
  · simp [hzero]
  · by_cases hpower : power ≤ 2 ^ 64 - 1
    · rw [Nat.min_eq_left hpower]
      omega
    · have hsmall : 2 ^ 64 - 1 ≤ base * (2 ^ 64 - 1) :=
        Nat.le_mul_of_pos_left _ (Nat.pos_of_ne_zero hzero)
      have hbig : power ≤ base * power := Nat.le_mul_of_pos_left _ (Nat.pos_of_ne_zero hzero)
      rw [Nat.min_eq_right (by omega : 2 ^ 64 - 1 ≤ power)]
      omega

theorem toNat_capped (retry : RetryConfig) (retryCount : UInt32) :
    (min (saturate (retry.baseBackoffMs.toNat * (saturate (2 ^ retryCount.toNat)).toNat))
      retry.maxBackoffMs).toNat = retry.backoff retryCount.toNat := by
  rw [toNat_min, toNat_saturate, toNat_saturate]
  exact min_saturated _ _ _ retry.maxBackoffMs.toNat_lt

/-- The delay is the backoff and the jitter, under the cap. -/
theorem toNat_nextDelayMs (retry : RetryConfig) (retryCount : UInt32) :
    (retry.nextDelayMs retryCount).toNat =
      min (retry.backoff retryCount.toNat + retry.jitter retryCount) retry.maxBackoffMs.toNat := by
  have hcapped := toNat_capped retry retryCount
  have hmax := retry.maxBackoffMs.toNat_lt
  unfold RetryConfig.nextDelayMs RetryConfig.jitter
  dsimp only
  generalize min (saturate _) retry.maxBackoffMs = capped at hcapped ⊢
  rw [← hcapped, UInt64.ofNat_toNat]
  by_cases hrange : 0 < retry.jitterRange capped
  · rw [if_pos hrange, if_pos hrange, toNat_min, toNat_saturate, UInt64.toNat_mod,
      toNat_mul_seven]
    omega
  · rw [if_neg hrange, if_neg hrange, toNat_min]
    rfl

theorem jitter_le (retry : RetryConfig) (hjitter : ∀ capped, retry.jitterRange capped ≤ capped)
    (retryCount : UInt32) : retry.jitter retryCount ≤ retry.backoff retryCount.toNat := by
  have hfits : retry.backoff retryCount.toNat < 2 ^ 64 :=
    Nat.lt_of_le_of_lt (Nat.min_le_right ..) retry.maxBackoffMs.toNat_lt
  have hrange := UInt64.le_iff_toNat_le.mp
    (hjitter (UInt64.ofNat (retry.backoff retryCount.toNat)))
  rw [UInt64.toNat_ofNat', Nat.mod_eq_of_lt hfits] at hrange
  unfold RetryConfig.jitter
  dsimp only
  split
  case isTrue hpos =>
    have := Nat.mod_lt (retryCount.toNat * 7) (UInt64.lt_iff_toNat_lt.mp hpos)
    omega
  case isFalse => omega

/-! ## The law -/

theorem backoff_le_nextDelayMs (retry : RetryConfig) (retryCount : UInt32) :
    retry.backoff retryCount.toNat ≤ (retry.nextDelayMs retryCount).toNat := by
  have hcap : retry.backoff retryCount.toNat ≤ retry.maxBackoffMs.toNat := Nat.min_le_right ..
  rw [toNat_nextDelayMs]
  omega

/-- The backoff doubles up to the cap. -/
theorem backoff_succ (retry : RetryConfig) (n : Nat) :
    retry.backoff (n + 1) =
      min (retry.backoff n + retry.backoff n) retry.maxBackoffMs.toNat := by
  unfold RetryConfig.backoff
  rw [Nat.pow_succ, ← Nat.mul_assoc]
  omega

theorem backoff_mono (retry : RetryConfig) {n m : Nat} (h : n ≤ m) :
    retry.backoff n ≤ retry.backoff m := by
  have hpower : retry.baseBackoffMs.toNat * 2 ^ n ≤ retry.baseBackoffMs.toNat * 2 ^ m :=
    Nat.mul_le_mul_left _ (Nat.pow_le_pow_right (by omega) h)
  unfold RetryConfig.backoff
  omega

/-- The jitter of one count stays below the backoff of the next one. -/
theorem nextDelayMs_le_backoff (retry : RetryConfig)
    (hjitter : ∀ capped, retry.jitterRange capped ≤ capped) (retryCount : UInt32) :
    (retry.nextDelayMs retryCount).toNat ≤ retry.backoff (retryCount.toNat + 1) := by
  have hle := jitter_le retry hjitter retryCount
  rw [toNat_nextDelayMs, backoff_succ]
  omega

theorem nextDelayMs_mono (retry : RetryConfig)
    (hjitter : ∀ capped, retry.jitterRange capped ≤ capped) {n m : UInt32} (h : n ≤ m) :
    retry.nextDelayMs n ≤ retry.nextDelayMs m := by
  rcases Nat.eq_or_lt_of_le (UInt32.le_iff_toNat_le.mp h) with heq | hlt
  · rw [UInt32.toNat_inj.mp heq]
    exact UInt64.le_refl _
  · rw [UInt64.le_iff_toNat_le]
    calc (retry.nextDelayMs n).toNat
        ≤ retry.backoff (n.toNat + 1) := nextDelayMs_le_backoff retry hjitter n
      _ ≤ retry.backoff m.toNat := backoff_mono retry hlt
      _ ≤ (retry.nextDelayMs m).toNat := backoff_le_nextDelayMs retry m

theorem nextDelayMs_lawful (retry : RetryConfig)
    (hjitter : ∀ capped, retry.jitterRange capped ≤ capped) (n : UInt32) :
    retry.nextDelayMs? n = some (retry.nextDelayMs n) ∧
      min (retry.baseBackoffMs.toNat * 2 ^ n.toNat) retry.maxBackoffMs.toNat ≤
        (retry.nextDelayMs n).toNat ∧
      retry.nextDelayMs n ≤ retry.maxBackoffMs ∧
      ∀ m, n ≤ m → retry.nextDelayMs n ≤ retry.nextDelayMs m :=
  ⟨nextDelayMs?_eq retry n, backoff_le_nextDelayMs retry n, retry.nextDelayMs_le n,
    fun _ h => nextDelayMs_mono retry hjitter h⟩

/-- `RetryConfig::default`, whose jitter is a tenth. -/
def RetryConfig.default : RetryConfig where
  maxRetries := 5
  baseBackoffMs := 1000
  maxBackoffMs := 60000
  jitterRange capped := capped / 10

/-- The first delays of the default configuration. -/
theorem nextDelayMs_lawful_default :
    RetryConfig.default.nextDelayMs? 3 = some 8021 ∧
      RetryConfig.default.nextDelayMs 3 ≤ RetryConfig.default.nextDelayMs 5 := by
  have hjitter : ∀ capped, RetryConfig.default.jitterRange capped ≤ capped := by
    intro capped
    rw [UInt64.le_iff_toNat_le]
    show (capped / 10).toNat ≤ capped.toNat
    rw [UInt64.toNat_div]
    exact Nat.div_le_self ..
  obtain ⟨hsome, -, -, hmono⟩ := nextDelayMs_lawful .default hjitter 3
  refine ⟨hsome.trans ?_, hmono 5 (by decide)⟩
  decide

end MagicLaw.Outbox
