import FdfiToken.Lib.Shift
import Mathlib.Data.BitVec
import Mathlib.Algebra.Order.BigOperators.Group.Finset

/-!
# Delegated weights

Everybody has a weight and names a delegate. A delegate counts the weights of those who named
it, so moving weight or naming another delegate shifts what is counted by exactly that weight.
-/

namespace Weights

open Shifts

variable {α β G : Type*} [Fintype α] [DecidableEq β]

/-- The weights delegated to `d`. -/
def tally [AddCommMonoid G] (delegates : α → β) (weight : α → G) (d : β) : G :=
  ∑ a, if delegates a = d then weight a else 0

section Group

variable [AddCancelCommMonoid G] (delegates : α → β) (d : β)

@[simp] theorem tally_zero : tally delegates (0 : α → G) d = 0 := by
  simp [tally]

theorem tally_single [DecidableEq α] (a : α) (x : G) :
    tally delegates (Pi.single a x) d = if delegates a = d then x else 0 := by
  rw [tally, Finset.sum_eq_single a]
  · rw [Pi.single_eq_same]
  · intro b _ hb
    simp [Pi.single_eq_of_ne hb]
  · simp

theorem tally_shift {weight weight' out into : α → G} (h : Shift out into weight weight') :
    Shift (tally delegates out d) (tally delegates into d) (tally delegates weight d)
      (tally delegates weight' d) := by
  refine Shift.sum (p := fun a => if delegates a = d then out a else 0)
    (q := fun a => if delegates a = d then into a else 0) ?_
  funext a
  by_cases ha : delegates a = d
  · simp only [Pi.add_apply, if_pos ha]
    exact h.apply a
  · simp [ha]

theorem tally_update [DecidableEq α] (weight : α → G) (a : α) (b : β) :
    Shift (if delegates a = d then weight a else 0) (if b = d then weight a else 0)
      (tally delegates weight d) (tally (Function.update delegates a b) weight d) := by
  have hentry : Shift (if delegates a = d then weight a else 0) (if b = d then weight a else 0)
      (if delegates a = d then weight a else 0) (if b = d then weight a else 0) := add_comm _ _
  have hsum := Shift.sum_update (fun c => if delegates c = d then weight c else 0) hentry
  have hupdated : (Function.update (fun c => if delegates c = d then weight c else 0) a
      (if b = d then weight a else 0)) =
        fun c => if Function.update delegates a b c = d then weight c else 0 := by
    funext c
    by_cases hc : c = a
    · subst hc
      simp
    · simp [hc]
  rw [hupdated] at hsum
  exact hsum

end Group

/-- Nobody's weight is counted twice. -/
theorem sum_tally_le (delegates : α → β) (weight : α → ℕ) (ds : Finset β) :
    ∑ d ∈ ds, tally delegates weight d ≤ ∑ a, weight a := by
  unfold tally
  rw [Finset.sum_comm]
  refine Finset.sum_le_sum fun a _ => ?_
  rw [Finset.sum_ite_eq]
  split
  · exact le_rfl
  · exact Nat.zero_le _

theorem tally_le (delegates : α → β) (weight : α → ℕ) (d : β) :
    tally delegates weight d ≤ ∑ a, weight a := by
  have hle := sum_tally_le delegates weight {d}
  rwa [Finset.sum_singleton] at hle

theorem toNat_shift {w : ℕ} {x x' out into : BitVec w} {n n' : ℕ} (hx : x.toNat = n)
    (h : Shift out into x x') (hn : Shift out.toNat into.toNat n n') (hlt : n' < 2 ^ w) :
    x'.toNat = n' := by
  have hword := congrArg BitVec.toNat (show x' + out = x + into from h)
  have hnumber : n' + out.toNat = n + into.toNat := hn
  rw [BitVec.toNat_add, BitVec.toNat_add, hx, ← hnumber] at hword
  have hcancel : x'.toNat ≡ n' [MOD 2 ^ w] := Nat.ModEq.add_right_cancel' _ hword
  rwa [Nat.ModEq, Nat.mod_eq_of_lt x'.isLt, Nat.mod_eq_of_lt hlt] at hcancel

end Weights
