import FdfiToken.Lib.Run
import Mathlib.Algebra.BigOperators.Group.Finset.Piecewise
import Mathlib.Algebra.BigOperators.Group.Multiset.Basic
import Mathlib.Algebra.Order.BigOperators.Group.Finset
import Mathlib.Algebra.Order.Ring.Int
import Mathlib.Logic.Function.Basic

/-!
# Lock and issue

The books of a bridge in one shared unit. A hub locks what leaves it, the other parties issue
what reaches them and cancel what leaves them, and what has left one party and reached none is
in flight. Nothing is created or lost: what is locked is what is in flight or issued.
-/

namespace LockIssue

variable {ι : Type*}

structure Books (ι : Type*) where
  locked : ℤ
  issued : ι → ℤ
  inFlight : Multiset ℕ

/-- Units leave a party for the wire, or reach one from it. -/
inductive Transfer (ι : Type*) where
  | depart (i : ι) (n : ℕ)
  | arrive (i : ι) (n : ℕ)

namespace Books

def empty : Books ι := ⟨0, fun _ => 0, 0⟩

variable [DecidableEq ι] (hub : ι)

/-- Party `i` gives up `n` units: the hub locks them, another party cancels them. -/
def release (i : ι) (n : ℤ) (b : Books ι) : Books ι :=
  if i = hub then { b with locked := b.locked + n }
  else { b with issued := Function.update b.issued i (b.issued i - n) }

inductive Step : Books ι → Transfer ι → Books ι → Prop
  | depart (b : Books ι) (i : ι) (n : ℕ) :
      Step b (.depart i n) { b.release hub i n with inFlight := n ::ₘ b.inFlight }
  | arrive (b : Books ι) (i : ι) (n : ℕ) (sent : n ∈ b.inFlight) :
      Step b (.arrive i n) { b.release hub i (-n) with inFlight := b.inFlight.erase n }

/-- What a party owes the wire: what it issued, or what the hub locked with the sign turned. -/
def position (b : Books ι) (i : ι) : ℤ := if i = hub then -b.locked else b.issued i

theorem release_position (i j : ι) (n : ℤ) (b : Books ι) :
    (b.release hub i n).position hub j = b.position hub j + if j = i then -n else 0 := by
  unfold release position
  by_cases hi : i = hub
  · subst hi
    by_cases hj : j = i
    · simp only [hj, if_true]
      ring
    · simp [hj]
  · by_cases hj : j = i
    · subst hj
      simp only [if_neg hi, if_true, Function.update_self]
      ring
    · simp [hi, hj]

def outside [Fintype ι] (b : Books ι) : ℤ := ∑ i ∈ Finset.univ.erase hub, b.issued i

private theorem release_balance [Fintype ι] (i : ι) (n : ℤ) (b : Books ι) :
    (b.release hub i n).locked - (b.release hub i n).outside hub =
      b.locked - b.outside hub + n := by
  unfold release
  split
  · simp only [outside]
    ring
  · rename_i hi
    have hmem : i ∈ Finset.univ.erase hub := Finset.mem_erase.mpr ⟨hi, Finset.mem_univ i⟩
    simp only [outside]
    rw [Finset.sum_update_of_mem hmem, ← Finset.add_sum_erase _ _ hmem,
      Finset.sdiff_singleton_eq_erase]
    ring

def Balanced [Fintype ι] (b : Books ι) : Prop :=
  b.locked = (b.inFlight.sum : ℕ) + b.outside hub

theorem balanced_empty [Fintype ι] : (empty : Books ι).Balanced hub := by
  simp [Balanced, empty, outside]

theorem Step.balanced [Fintype ι] {t : Transfer ι} {b b' : Books ι} (h : Step hub b t b')
    (hb : b.Balanced hub) : b'.Balanced hub := by
  unfold Balanced at hb ⊢
  cases h with
  | depart i n =>
    have hbalance := b.release_balance hub i n
    simp only [Multiset.sum_cons, Nat.cast_add]
    change (b.release hub i n).locked = _ + (b.release hub i n).outside hub
    linarith
  | arrive i n sent =>
    have hbalance := b.release_balance hub i (-n)
    have hsum : n + (b.inFlight.erase n).sum = b.inFlight.sum := Multiset.sum_erase sent
    change (b.release hub i (-n)).locked =
      ((b.inFlight.erase n).sum : ℕ) + (b.release hub i (-n)).outside hub
    rw [← hsum, Nat.cast_add] at hb
    linarith

/-- The books balance after every run. -/
theorem conserved [Fintype ι] {ts : List (Transfer ι)} {b : Books ι}
    (h : Runs.Run (Step hub) empty ts b) : b.locked = (b.inFlight.sum : ℕ) + b.outside hub :=
  h.invariant (I := Balanced hub) (fun _ _ _ hb hstep => hstep.balanced hub hb)
    (balanced_empty hub)

section Covered

variable [Fintype ι] {b : Books ι} (hb : b.Balanced hub) (hissued : ∀ i, i ≠ hub → 0 ≤ b.issued i)

include hb hissued

/-- Where nobody has issued less than nothing, the hub covers each party and what is in flight. -/
theorem Balanced.covers {i : ι} (hi : i ≠ hub) :
    b.issued i + (b.inFlight.sum : ℕ) ≤ b.locked := by
  have hmem : i ∈ Finset.univ.erase hub := Finset.mem_erase.mpr ⟨hi, Finset.mem_univ i⟩
  have hone : b.issued i ≤ b.outside hub :=
    Finset.single_le_sum (f := b.issued) (fun j hj => hissued j (Finset.ne_of_mem_erase hj)) hmem
  unfold Balanced at hb
  omega

theorem Balanced.nothing_out (hzero : b.locked = 0) :
    b.inFlight.sum = 0 ∧ ∀ i, i ≠ hub → b.issued i = 0 := by
  have houtside : 0 ≤ b.outside hub :=
    Finset.sum_nonneg fun j hj => hissued j (Finset.ne_of_mem_erase hj)
  have hsum := hb
  unfold Balanced at hsum
  refine ⟨by omega, ?_⟩
  intro i hi
  have hcovers := hb.covers hub hissued hi
  have hpos := hissued i hi
  omega

end Covered

def entry (i : ι) : Transfer ι → ℤ
  | .depart j n => if j = i then -n else 0
  | .arrive j n => if j = i then n else 0

theorem issued_eq {ts : List (Transfer ι)} {b : Books ι} (h : Runs.Run (Step hub) empty ts b)
    {i : ι} (hi : i ≠ hub) : b.issued i = (ts.map (entry i)).sum := by
  have hrelease (b : Books ι) (j : ι) (n : ℤ) :
      (b.release hub j n).issued i = b.issued i + if j = i then -n else 0 := by
    unfold release
    by_cases hj : j = i
    · subst hj
      rw [if_neg hi, if_pos rfl]
      exact (Function.update_self ..).trans (Int.sub_eq_add_neg)
    · rw [if_neg hj, add_zero]
      split
      · rfl
      · exact Function.update_of_ne (Ne.symm hj) _ _
  have hledger := h.ledger (I := fun _ => True) (fun b => b.issued i) (entry i)
    (fun _ _ _ _ _ => trivial) (fun b t b' _ hstep => ?_) trivial
  · rw [hledger]
    exact zero_add _
  · cases hstep with
    | depart j n => exact hrelease b j n
    | arrive j n sent =>
      have hstep := hrelease b j (-n)
      rw [neg_neg] at hstep
      exact hstep

end Books

end LockIssue
