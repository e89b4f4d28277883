import Mathlib.Data.Nat.Notation

/-!
# Leaky buckets

A bucket fills with what passes and leaks its limit once in a window, at a constant rate. Its
headroom, counted in amounts times seconds, grows by the limit each second; what passes is paid
from it and what is given back adds to it, however the leak was rounded down.
-/

/-- The level a bucket was left at at second `since`. -/
structure LeakyBucket where
  limit : ℕ
  window : ℕ
  level : ℕ
  since : ℕ

namespace LeakyBucket

variable (b : LeakyBucket) {t t' current amount : ℕ}

/-- What can still pass at second `t`, times the window. A level above the limit counts as the
limit: the window is over before more than the limit has leaked. -/
def headroom (t : ℕ) : ℕ :=
  b.limit * b.window - (min b.level b.limit * b.window - b.limit * (t - b.since))

/-- The level may be seen as `current` at second `t`: the window is over, or no more has leaked
than the rate allows. -/
def Leaked (t current : ℕ) : Prop :=
  b.window ≤ t - b.since ∧ current = 0 ∨
    ∃ leak, leak * b.window ≤ b.limit * (t - b.since) ∧ current = b.level - leak

theorem headroom_le (t : ℕ) : b.headroom t ≤ b.limit * b.window := Nat.sub_le _ _

theorem headroom_accrues (h : t ≤ t') : b.headroom t' ≤ b.headroom t + b.limit * (t' - t) := by
  have hgap : t' - b.since ≤ (t - b.since) + (t' - t) := by omega
  have hmul := Nat.mul_le_mul_left b.limit hgap
  rw [Nat.mul_add] at hmul
  unfold headroom
  omega

theorem Leaked.le (h : b.Leaked t current) :
    min b.level b.limit * b.window - b.limit * (t - b.since) ≤ current * b.window := by
  rcases h with ⟨hover, rfl⟩ | ⟨leak, hleak, rfl⟩
  · have hmin : min b.level b.limit * b.window ≤ b.limit * b.window :=
      Nat.mul_le_mul_right _ (Nat.min_le_right _ _)
    have hall := Nat.mul_le_mul_left b.limit hover
    omega
  · have hmin : min b.level b.limit * b.window ≤ b.level * b.window :=
      Nat.mul_le_mul_right _ (Nat.min_le_left _ _)
    rw [Nat.sub_mul]
    omega

/-- What passes is paid from the headroom. -/
theorem headroom_admit (h : b.Leaked t current) (hamount : amount ≤ b.limit - current) :
    amount * b.window + headroom ⟨b.limit, b.window, current + amount, t⟩ t ≤ b.headroom t := by
  have hleaked := h.le
  simp only [headroom, Nat.sub_self, Nat.mul_zero, Nat.sub_zero]
  by_cases hover : current ≤ b.limit
  · have hsum : current + amount ≤ b.limit := by omega
    have hmul := Nat.mul_le_mul_right b.window hsum
    rw [Nat.min_eq_left hsum]
    rw [Nat.add_mul] at hmul ⊢
    omega
  · obtain rfl : amount = 0 := by omega
    rw [Nat.add_zero, Nat.min_eq_right (by omega), Nat.sub_self, Nat.zero_mul]
    exact Nat.zero_le _

theorem headroom_refund (t amount : ℕ) :
    headroom ⟨b.limit, b.window, b.level - amount, b.since⟩ t ≤
      b.headroom t + amount * b.window := by
  have hmin : min b.level b.limit ≤ min (b.level - amount) b.limit + amount := by omega
  have hmul := Nat.mul_le_mul_right b.window hmin
  rw [Nat.add_mul] at hmul
  simp only [headroom]
  omega

end LeakyBucket
