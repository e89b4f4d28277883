import Mathlib.Algebra.BigOperators.Group.Finset.Basic
import Mathlib.Algebra.BigOperators.Pi
import Mathlib.Data.Fintype.BigOperators

/-!
# Shifts

What takes a fixed amount out of a state and puts a fixed amount into it, stated without
subtraction. Shifts compose by adding up, determine their result, and so commute.
-/

namespace Shifts

variable {G : Type*} [AddCancelCommMonoid G] {out into out' into' s s' s'' s₁ s₂ s₁₂ s₂₁ : G}

/-- `s'` is `s` less `out` and plus `into`. -/
def Shift (out into s s' : G) : Prop := s' + out = s + into

theorem Shift.refl (s : G) : Shift 0 0 s s := rfl

theorem Shift.trans (h : Shift out into s s') (h' : Shift out' into' s' s'') :
    Shift (out + out') (into + into') s s'' := by
  unfold Shift at h h' ⊢
  calc s'' + (out + out') = (s'' + out') + out := by rw [add_comm out, add_assoc]
    _ = (s' + out) + into' := by rw [h', add_right_comm]
    _ = s + (into + into') := by rw [h, add_assoc]

theorem Shift.unique (h : Shift out into s s') (h' : Shift out into s s'') : s' = s'' :=
  add_right_cancel (Eq.trans h (Eq.symm h'))

/-- Two shifts lead to the same state in either order. -/
theorem Shift.commute (h₁ : Shift out into s s₁) (h₁₂ : Shift out' into' s₁ s₁₂)
    (h₂ : Shift out' into' s s₂) (h₂₁ : Shift out into s₂ s₂₁) : s₁₂ = s₂₁ := by
  have hswap := h₂.trans h₂₁
  rw [add_comm out', add_comm into'] at hswap
  exact (h₁.trans h₁₂).unique hswap

section Families

variable {α : Type*} {p q f f' : α → G}

theorem Shift.apply (h : Shift p q f f') (a : α) : Shift (p a) (q a) (f a) (f' a) := congrFun h a

theorem Shift.sum [Fintype α] (h : Shift p q f f') :
    Shift (∑ a, p a) (∑ a, q a) (∑ a, f a) (∑ a, f' a) := by
  unfold Shift
  rw [← Finset.sum_add_distrib, ← Finset.sum_add_distrib]
  exact Finset.sum_congr rfl fun a _ => h.apply a

theorem Shift.sum_update [Fintype α] [DecidableEq α] (f : α → G) {a : α} {x : G}
    (h : Shift out into (f a) x) : Shift out into (∑ b, f b) (∑ b, Function.update f a x b) := by
  unfold Shift at h ⊢
  rw [Finset.sum_update_of_mem (Finset.mem_univ a), add_right_comm, h, add_right_comm,
    Finset.sdiff_singleton_eq_erase, Finset.add_sum_erase _ _ (Finset.mem_univ a)]

end Families

end Shifts
