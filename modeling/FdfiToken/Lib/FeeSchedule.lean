import Mathlib.Algebra.Order.Floor.Div
import Mathlib.Order.GaloisConnection.Basic
import Mathlib.Tactic.Linarith
import Mathlib.Tactic.Ring

/-!
# Capped proportional fees

A fee of `rate / scale` of the amount, rounded up and capped. The amount left after the fee
and the least amount that leaves a wanted one form a Galois connection, and the second is a
right inverse of the first: nothing is lost when an amount is grossed up and charged again.
-/

/-- `rate / scale` of the amount, rounded up, and at most `cap`. -/
structure FeeSchedule where
  scale : ℕ
  rate : ℕ
  cap : ℕ
  scale_pos : 0 < scale
  rate_le : rate ≤ scale

namespace FeeSchedule

variable (s : FeeSchedule)

/-- The fee on `x`. -/
def fee (x : ℕ) : ℕ := min s.cap ((x * s.rate) ⌈/⌉ s.scale)

/-- What is left of `x` after the fee. -/
def net (x : ℕ) : ℕ := x - s.fee x

/-- The uncapped amount to charge so that `p` is left. -/
def rawGross (p : ℕ) : ℕ := (p * s.scale) ⌈/⌉ (s.scale - s.rate)

/-- The least amount that leaves at least `p`. -/
def gross (p : ℕ) : ℕ :=
  if s.rate = s.scale then if p = 0 then 0 else p + s.cap
  else min (p + s.cap) (s.rawGross p)

private theorem ceil_le_iff {n d k : ℕ} (hd : 0 < d) : n ⌈/⌉ d ≤ k ↔ n ≤ d * k := by
  rw [ceilDiv_le_iff_le_smul hd, smul_eq_mul]

theorem fee_le_self (x : ℕ) : s.fee x ≤ x := by
  refine (Nat.min_le_right _ _).trans ((ceil_le_iff s.scale_pos).mpr ?_)
  rw [Nat.mul_comm]
  exact Nat.mul_le_mul_right x s.rate_le

theorem net_le_self (x : ℕ) : s.net x ≤ x := Nat.sub_le _ _

theorem net_add_fee (x : ℕ) : s.net x + s.fee x = x := Nat.sub_add_cancel (s.fee_le_self x)

@[simp] theorem fee_zero : s.fee 0 = 0 := Nat.le_zero.mp (s.fee_le_self 0)

@[simp] theorem net_zero : s.net 0 = 0 := Nat.le_zero.mp (s.net_le_self 0)

theorem fee_of_rate_zero (h : s.rate = 0) (x : ℕ) : s.fee x = 0 := by
  have hceil : (x * s.rate) ⌈/⌉ s.scale ≤ 0 := (ceil_le_iff s.scale_pos).mpr (by simp [h])
  exact Nat.le_zero.mp ((Nat.min_le_right _ _).trans hceil)

private theorem le_net_iff_cap (p x : ℕ) :
    p ≤ s.net x ↔ p + s.cap ≤ x ∨ p ≤ x ∧ p * s.scale ≤ (s.scale - s.rate) * x := by
  have hle := s.fee_le_self x
  have hprop (hpx : p ≤ x) : (x * s.rate) ⌈/⌉ s.scale ≤ x - p ↔
      p * s.scale ≤ (s.scale - s.rate) * x := by
    obtain ⟨y, rfl⟩ := Nat.exists_eq_add_of_le hpx
    obtain ⟨q, hq⟩ := Nat.exists_eq_add_of_le s.rate_le
    rw [ceil_le_iff s.scale_pos, Nat.add_sub_cancel_left, hq, Nat.add_sub_cancel_left]
    constructor <;> intro h <;> nlinarith
  have hmin : s.fee x ≤ x - p ↔ s.cap ≤ x - p ∨ (x * s.rate) ⌈/⌉ s.scale ≤ x - p := min_le_iff
  unfold net
  by_cases hpx : p ≤ x
  · rw [hprop hpx] at hmin
    omega
  · omega

/-- Grossing up is the lower adjoint of charging the fee. -/
theorem gross_le_iff (p x : ℕ) : s.gross p ≤ x ↔ p ≤ s.net x := by
  rw [le_net_iff_cap]
  unfold gross
  split
  · rename_i hrate
    have hscale := s.scale_pos
    rw [hrate, Nat.sub_self, Nat.zero_mul, Nat.le_zero, Nat.mul_eq_zero]
    split <;> omega
  · rename_i hrate
    have hpos : 0 < s.scale - s.rate := by have := s.rate_le; omega
    rw [min_le_iff, rawGross, ceil_le_iff hpos]
    constructor
    · rintro (h | h)
      · exact .inl h
      · refine .inr ⟨?_, h⟩
        have hsub : (s.scale - s.rate) * x ≤ s.scale * x :=
          Nat.mul_le_mul_right x (Nat.sub_le _ _)
        rw [Nat.mul_comm] at h
        exact Nat.le_of_mul_le_mul_left (h.trans hsub) s.scale_pos
    · rintro (h | h)
      · exact .inl h
      · exact .inr h.2

private theorem gross_net : GaloisConnection s.gross s.net := s.gross_le_iff

theorem le_rawGross (p : ℕ) (h : s.rate < s.scale) : p ≤ s.rawGross p := by
  by_contra hlt
  have hpos : 0 < s.scale - s.rate := by omega
  have hraw := (ceil_le_iff hpos).mp (le_refl (s.rawGross p))
  have hsub : (s.scale - s.rate) * s.rawGross p ≤ s.scale * s.rawGross p :=
    Nat.mul_le_mul_right _ (Nat.sub_le _ _)
  rw [Nat.mul_comm] at hraw
  exact hlt (Nat.le_of_mul_le_mul_left (hraw.trans hsub) s.scale_pos)

private theorem gross_lt_succ (p : ℕ) : s.gross p < s.gross (p + 1) := by
  unfold gross
  split
  · rw [if_neg (Nat.succ_ne_zero p)]
    split <;> omega
  · rename_i hrate
    have hpos : 0 < s.scale - s.rate := by have := s.rate_le; omega
    have hraw : s.rawGross p < s.rawGross (p + 1) := by
      rw [Nat.lt_iff_add_one_le, ← Nat.le_sub_iff_add_le (by
        have := s.le_rawGross (p + 1) (by omega); omega)]
      rw [rawGross, ceil_le_iff hpos]
      have hnext := (ceil_le_iff hpos).mp (le_refl (s.rawGross (p + 1)))
      obtain ⟨y, hy⟩ : ∃ y, s.rawGross (p + 1) = y + 1 :=
        ⟨s.rawGross (p + 1) - 1, by have := s.le_rawGross (p + 1) (by omega); omega⟩
      rw [hy] at hnext ⊢
      rw [Nat.add_sub_cancel]
      have hsub : s.scale - s.rate ≤ s.scale := Nat.sub_le _ _
      nlinarith
    omega

/-- Charging the fee on a grossed-up amount leaves exactly the amount wanted. -/
theorem net_gross (p : ℕ) : s.net (s.gross p) = p := by
  refine le_antisymm ?_ ((s.gross_le_iff p _).mp le_rfl)
  by_contra hlt
  have hle := (s.gross_le_iff (p + 1) (s.gross p)).mpr (by omega)
  have hstrict := s.gross_lt_succ p
  omega

def coinsertion : GaloisCoinsertion s.gross s.net :=
  s.gross_net.toGaloisCoinsertion fun p => (s.net_gross p).le

end FeeSchedule
