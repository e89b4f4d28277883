import Mathlib.Algebra.Order.Floor.Div
import Mathlib.Order.GaloisConnection.Basic

/-!
# Rounding down

A rounding is monotone, never above its argument, and changes nothing the second time. Roundings
come from Galois connections and are carried across the exact ones. On the naturals there are two
that matter for amounts: down to a grid, and a portion of whole units.
-/

namespace Rounding

section Interior

variable {α β : Type*} [PartialOrder α] [PartialOrder β] {k : α → α}

/-- `k` rounds down to its fixed points. -/
structure Interior (k : α → α) : Prop where
  mono : Monotone k
  le_self : ∀ x, k x ≤ x
  idem : ∀ x, k (k x) = k x

private theorem Interior.of_gc {l : α → β} {u : β → α} (gc : GaloisConnection l u) :
    Interior (l ∘ u) where
  mono := gc.monotone_l.comp gc.monotone_u
  le_self := gc.l_u_le
  idem x := gc.l_u_l_eq_l (u x)

/-- A rounding seen through an exact connection. -/
theorem Interior.conj {l : α → β} {u : β → α} (gi : GaloisCoinsertion l u) (h : Interior k) :
    Interior (l ∘ k ∘ u) where
  mono := gi.gc.monotone_l.comp (h.mono.comp gi.gc.monotone_u)
  le_self x := (gi.gc _ _).mpr (h.le_self (u x))
  idem x := by
    simp only [Function.comp_apply]
    rw [gi.u_l_eq, h.idem]

private theorem Interior.isGreatest (h : Interior k) (x : α) :
    IsGreatest {y | k y = y ∧ y ≤ x} (k x) := by
  constructor
  · exact ⟨h.idem x, h.le_self x⟩
  · intro y hy
    have hle := h.mono hy.2
    rwa [hy.1] at hle

end Interior

/-- The multiple of `r` at or below `x`. -/
def onGrid (r x : ℕ) : ℕ := x / r * r

theorem interior_onGrid {r : ℕ} (hr : 0 < r) : Interior (onGrid r) :=
  .of_gc (Nat.galoisConnection_mul_div hr)

private theorem onGrid_eq_self_iff {r x : ℕ} : onGrid r x = x ↔ r ∣ x := by
  constructor
  · intro h
    rw [← h]
    exact Nat.dvd_mul_left r (x / r)
  · exact Nat.div_mul_cancel

theorem isGreatest_onGrid {r : ℕ} (hr : 0 < r) (x : ℕ) :
    IsGreatest {y | r ∣ y ∧ y ≤ x} (onGrid r x) := by
  have h := (interior_onGrid hr).isGreatest x
  simpa only [onGrid_eq_self_iff] using h

/-- `rate / scale` of `k` units, in whole units. -/
def portion (rate scale k : ℕ) : ℕ := k * rate / scale

section Portion

variable {rate scale : ℕ}

theorem portion_mono (rate scale : ℕ) : Monotone (portion rate scale) := by
  intro k k' h
  exact Nat.div_le_div_right (Nat.mul_le_mul_right rate h)

theorem portion_le (h : rate ≤ scale) (k : ℕ) : portion rate scale k ≤ k := by
  refine Nat.div_le_of_le_mul ?_
  rw [Nat.mul_comm scale]
  exact Nat.mul_le_mul_left k h

theorem portion_lt (h : rate < scale) {k : ℕ} (hk : 0 < k) : portion rate scale k < k := by
  rw [portion, Nat.div_lt_iff_lt_mul (by omega)]
  exact Nat.mul_lt_mul_of_pos_left h hk

private theorem portion_succ_le (h : rate ≤ scale) (k : ℕ) :
    portion rate scale (k + 1) ≤ portion rate scale k + 1 := by
  by_cases hscale : scale = 0
  · simp [portion, hscale]
  · have hpos : 0 < scale := Nat.pos_of_ne_zero hscale
    unfold portion
    rw [← Nat.add_div_right _ hpos, Nat.add_mul, Nat.one_mul]
    exact Nat.div_le_div_right (Nat.add_le_add_left h _)

theorem rest_mono (h : rate ≤ scale) : Monotone fun k => k - portion rate scale k := by
  refine monotone_nat_of_le_succ fun k => ?_
  have hstep := portion_succ_le h k
  have hle := portion_le h k
  change k - portion rate scale k ≤ k + 1 - portion rate scale (k + 1)
  omega

/-- A portion of an amount on a grid, rounded down to the grid, is the portion of its units. -/
theorem portion_grid {r : ℕ} (hr : 0 < r) (k : ℕ) :
    portion rate scale (k * r) / r = portion rate scale k := by
  rw [portion, portion, Nat.div_div_eq_div_mul, Nat.mul_right_comm, Nat.mul_div_mul_right _ _ hr]

end Portion

end Rounding
