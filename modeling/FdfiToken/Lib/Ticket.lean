import FdfiToken.Lib.Run
import Mathlib.Data.BitVec

/-!
# Wrapping counters

A counter of fixed width that some labels advance by one. It counts them modulo the width, and
hands each of them the next of its values.
-/

namespace Runs

/-- The values a counter hands out, `k` of them from `n` on. -/
def tickets {w : ℕ} (n : BitVec w) : ℕ → List (BitVec w)
  | 0 => []
  | k + 1 => n :: tickets (n + 1) k

section Tickets

variable {w : ℕ} {n x : BitVec w} {k : ℕ}

private theorem add_one_add (n : BitVec w) (i : ℕ) :
    n + 1 + BitVec.ofNat w i = n + BitVec.ofNat w (i + 1) := by
  rw [BitVec.add_assoc, BitVec.add_comm 1, BitVec.ofNat_add]
  rfl

private theorem mem_tickets (h : x ∈ tickets n k) : ∃ i < k, x = n + BitVec.ofNat w i := by
  induction k generalizing n with
  | zero => cases h
  | succ k ih =>
    rcases List.mem_cons.mp h with rfl | htail
    · exact ⟨0, Nat.succ_pos k, by simp⟩
    · obtain ⟨i, hi, rfl⟩ := ih htail
      exact ⟨i + 1, by omega, add_one_add n i⟩

theorem nodup_tickets (hk : k ≤ 2 ^ w) : (tickets n k).Nodup := by
  induction k generalizing n with
  | zero => exact List.nodup_nil
  | succ k ih =>
    refine List.nodup_cons.mpr ⟨?_, ih (by omega)⟩
    intro hmem
    obtain ⟨i, hi, heq⟩ := mem_tickets hmem
    rw [add_one_add] at heq
    have hzero : BitVec.ofNat w (i + 1) = 0 := left_eq_add.mp heq
    have hvalue := congrArg BitVec.toNat hzero
    rw [BitVec.toNat_ofNat, Nat.mod_eq_of_lt (by omega)] at hvalue
    simp at hvalue

end Tickets

section Advances

variable {σ ℓ : Type*} {step : σ → ℓ → σ → Prop} {w : ℕ} {μ : σ → BitVec w} {P : ℓ → Prop}
  [DecidablePred P] {s s' : σ} {ls : List ℓ}

def Advances (step : σ → ℓ → σ → Prop) (μ : σ → BitVec w) (P : ℓ → Prop) [DecidablePred P] :
    Prop :=
  ∀ s l s', step s l s' → μ s' = if P l then μ s + 1 else μ s

namespace Run

theorem advanced (hμ : Advances step μ P) (h : Run step s ls s') :
    μ s' = μ s + BitVec.ofNat w (ls.filter P).length := by
  induction h with
  | nil => simp
  | @cons s s' s'' l ls head _ ih =>
    rw [ih, hμ _ _ _ head]
    by_cases hl : P l
    · rw [if_pos hl, List.filter_cons_of_pos (by simpa using hl), List.length_cons, add_one_add]
    · rw [if_neg hl, List.filter_cons_of_neg (by simpa using hl)]

end Run

/-- What a label that advances the counter is served for is the value of the moment, and these
follow one another. -/
theorem Advances.served_in_order {serves : BitVec w → ℓ → Prop} (hμ : Advances step μ P)
    (hserves : ∀ s l s', step s l s' → P l → serves (μ s) l) (h : Run step s ls s') :
    List.Forall₂ serves (tickets (μ s) (ls.filter P).length) (ls.filter P) := by
  induction h with
  | nil => exact .nil
  | @cons s s' s'' l ls head _ ih =>
    rw [hμ _ _ _ head] at ih
    by_cases hl : P l
    · rw [if_pos hl] at ih
      rw [List.filter_cons_of_pos (by simpa using hl)]
      exact .cons (hserves _ _ _ head hl) ih
    · rw [if_neg hl] at ih
      rwa [List.filter_cons_of_neg (by simpa using hl)]

end Advances

end Runs
