import Mathlib.Algebra.Ring.Nat

/-!
# Checked fixed-width arithmetic

Unsigned words of any width with the checked and saturating operations of a systems
language, and the blocks of fallible steps they are used in. Each operation has one lemma
that reads a result over `Nat`; nothing later unfolds the operations themselves.
-/

namespace Word

variable {w v : Nat}

/-- The word of width `w` holding `n`, when `n` fits. -/
def fit (w n : Nat) : Option (BitVec w) :=
  if n < 2 ^ w then some (BitVec.ofNat w n) else none

@[simp] theorem fit_eq_some {n : Nat} {x : BitVec w} : fit w n = some x ↔ x.toNat = n := by
  unfold fit
  split
  · rename_i h
    rw [Option.some.injEq, ← BitVec.toNat_inj, BitVec.toNat_ofNat, Nat.mod_eq_of_lt h]
    exact eq_comm
  · rename_i h
    constructor
    · intro hx
      cases hx
    · intro hx
      exact absurd (hx ▸ x.isLt) h

@[simp] theorem fit_eq_none {n : Nat} : fit w n = none ↔ 2 ^ w ≤ n := by
  simp [fit]

def checkedAdd (a b : BitVec w) : Option (BitVec w) := fit w (a.toNat + b.toNat)

def checkedSub (a b : BitVec w) : Option (BitVec w) :=
  if b.toNat ≤ a.toNat then fit w (a.toNat - b.toNat) else none

def checkedMul (a b : BitVec w) : Option (BitVec w) := fit w (a.toNat * b.toNat)

def checkedDiv (a b : BitVec w) : Option (BitVec w) :=
  if b.toNat = 0 then none else fit w (a.toNat / b.toNat)

def checkedRem (a b : BitVec w) : Option (BitVec w) :=
  if b.toNat = 0 then none else fit w (a.toNat % b.toNat)

def checkedPow (a : BitVec w) (n : Nat) : Option (BitVec w) := fit w (a.toNat ^ n)

def tryCast (v : Nat) (a : BitVec w) : Option (BitVec v) := fit v a.toNat

def saturatingAdd (a b : BitVec w) : BitVec w :=
  BitVec.ofNat w (min (a.toNat + b.toNat) (2 ^ w - 1))

def saturatingMul (a b : BitVec w) : BitVec w :=
  BitVec.ofNat w (min (a.toNat * b.toNat) (2 ^ w - 1))

def saturatingSub (a b : BitVec w) : BitVec w := if a ≤ b then 0 else a - b

@[simp] theorem checkedAdd_eq_some {a b c : BitVec w} :
    checkedAdd a b = some c ↔ c.toNat = a.toNat + b.toNat := by
  simp [checkedAdd]

theorem checkedAdd_eq_none {a b : BitVec w} :
    checkedAdd a b = none ↔ 2 ^ w ≤ a.toNat + b.toNat := fit_eq_none

@[simp] theorem checkedSub_eq_some {a b c : BitVec w} :
    checkedSub a b = some c ↔ c.toNat + b.toNat = a.toNat := by
  unfold checkedSub
  split
  · rw [fit_eq_some]
    omega
  · constructor
    · intro hx
      cases hx
    · omega

@[simp] theorem checkedSub_eq_none {a b : BitVec w} :
    checkedSub a b = none ↔ a.toNat < b.toNat := by
  unfold checkedSub
  split
  · rw [fit_eq_none]
    omega
  · simp only [true_iff]
    omega

@[simp] theorem checkedMul_eq_some {a b c : BitVec w} :
    checkedMul a b = some c ↔ c.toNat = a.toNat * b.toNat := by
  simp [checkedMul]

@[simp] theorem checkedDiv_eq_some {a b c : BitVec w} :
    checkedDiv a b = some c ↔ 0 < b.toNat ∧ c.toNat = a.toNat / b.toNat := by
  unfold checkedDiv
  split
  · simp [*]
  · rw [fit_eq_some]
    omega

@[simp] theorem checkedRem_eq_some {a b c : BitVec w} :
    checkedRem a b = some c ↔ 0 < b.toNat ∧ c.toNat = a.toNat % b.toNat := by
  unfold checkedRem
  split
  · simp [*]
  · rw [fit_eq_some]
    omega

@[simp] theorem checkedPow_eq_some {a c : BitVec w} {n : Nat} :
    checkedPow a n = some c ↔ c.toNat = a.toNat ^ n := by
  simp [checkedPow]

@[simp] theorem tryCast_eq_some {a : BitVec w} {c : BitVec v} :
    tryCast v a = some c ↔ c.toNat = a.toNat := by
  simp [tryCast]

theorem exists_fit {n : Nat} (h : n < 2 ^ w) : ∃ x, fit w n = some x ∧ x.toNat = n := by
  cases hx : fit w n with
  | none =>
    rw [fit_eq_none] at hx
    omega
  | some x => exact ⟨x, rfl, fit_eq_some.mp hx⟩

theorem exists_checkedAdd {a b : BitVec w} (h : a.toNat + b.toNat < 2 ^ w) :
    ∃ c, checkedAdd a b = some c ∧ c.toNat = a.toNat + b.toNat := exists_fit h

theorem exists_checkedMul {a b : BitVec w} (h : a.toNat * b.toNat < 2 ^ w) :
    ∃ c, checkedMul a b = some c ∧ c.toNat = a.toNat * b.toNat := exists_fit h

theorem exists_checkedSub {a b : BitVec w} (h : b.toNat ≤ a.toNat) :
    ∃ c, checkedSub a b = some c ∧ c.toNat + b.toNat = a.toNat := by
  have hlt := a.isLt
  obtain ⟨c, hc, hval⟩ := exists_fit (w := w) (n := a.toNat - b.toNat) (by omega)
  exact ⟨c, by rw [checkedSub, if_pos h, hc], by omega⟩

theorem exists_checkedDiv {a b : BitVec w} (h : 0 < b.toNat) :
    ∃ c, checkedDiv a b = some c ∧ c.toNat = a.toNat / b.toNat := by
  have hle := Nat.div_le_self a.toNat b.toNat
  have hlt := a.isLt
  obtain ⟨c, hc, hval⟩ := exists_fit (w := w) (n := a.toNat / b.toNat) (by omega)
  exact ⟨c, by rw [checkedDiv, if_neg (by omega), hc], hval⟩

@[simp] theorem toNat_saturatingAdd (a b : BitVec w) :
    (saturatingAdd a b).toNat = min (a.toNat + b.toNat) (2 ^ w - 1) := by
  have hpow : 0 < 2 ^ w := Nat.two_pow_pos w
  rw [saturatingAdd, BitVec.toNat_ofNat, Nat.mod_eq_of_lt]
  omega

@[simp] theorem toNat_saturatingMul (a b : BitVec w) :
    (saturatingMul a b).toNat = min (a.toNat * b.toNat) (2 ^ w - 1) := by
  have hpow : 0 < 2 ^ w := Nat.two_pow_pos w
  rw [saturatingMul, BitVec.toNat_ofNat, Nat.mod_eq_of_lt]
  omega

@[simp] theorem toNat_saturatingSub (a b : BitVec w) :
    (saturatingSub a b).toNat = a.toNat - b.toNat := by
  unfold saturatingSub
  split
  · rename_i hle
    rw [BitVec.le_def] at hle
    simp [Nat.sub_eq_zero_of_le hle]
  · rename_i hlt
    rw [BitVec.le_def] at hlt
    exact BitVec.toNat_sub_of_le (BitVec.le_def.mpr (by omega))

def least (a b : BitVec w) : BitVec w := if a.toNat ≤ b.toNat then a else b

@[simp] theorem toNat_least (a b : BitVec w) : (least a b).toNat = min a.toNat b.toNat := by
  unfold least
  split
  · rename_i h
    rw [Nat.min_eq_left h]
  · rename_i h
    rw [Nat.min_eq_right (by omega)]

end Word

namespace Fallible

universe u

variable {ε : Type*} {α β : Type u}

/-- Continue only when `p` holds. -/
def require (p : Prop) [Decidable p] (e : ε) : Except ε Unit :=
  if p then .ok () else .error e

/-- A missing value is the error `e`. -/
def orError (e : ε) : Option α → Except ε α
  | some a => .ok a
  | none => .error e

def value (x : Except ε α) (h : x.isOk = true) : α :=
  match x, h with
  | .ok a, _ => a

theorem eq_ok_value (x : Except ε α) (h : x.isOk = true) : x = .ok (value x h) := by
  cases x with
  | error e => cases h
  | ok a => rfl

def failure : Except ε α → Option ε
  | .error e => some e
  | .ok _ => none

theorem failure_eq_some {x : Except ε α} {e : ε} : failure x = some e ↔ x = .error e := by
  cases x <;> simp [failure]

@[simp] theorem bind_eq_ok {x : Except ε α} {f : α → Except ε β} {b : β} :
    (x >>= f) = .ok b ↔ ∃ a, x = .ok a ∧ f a = .ok b := by
  cases x with
  | error e => simp [bind, Except.bind]
  | ok a => simp [bind, Except.bind]

@[simp] theorem map_eq_ok {x : Except ε α} {f : α → β} {b : β} :
    (f <$> x) = .ok b ↔ ∃ a, x = .ok a ∧ f a = b := by
  cases x with
  | error e => simp [Functor.map, Except.map]
  | ok a => simp [Functor.map, Except.map]

@[simp] theorem pure_eq_ok {a b : α} : (pure a : Except ε α) = .ok b ↔ a = b := by
  simp [pure, Except.pure]

@[simp] theorem require_eq_ok {p : Prop} [Decidable p] {e : ε} {u : Unit} :
    require p e = .ok u ↔ p := by
  unfold require
  split <;> simp [*]

@[simp] theorem orError_eq_ok {e : ε} {o : Option α} {a : α} :
    orError e o = .ok a ↔ o = some a := by
  cases o <;> simp [orError]

theorem bind_eq_error {x : Except ε α} {f : α → Except ε β} {e : ε} :
    (x >>= f) = .error e ↔ x = .error e ∨ ∃ a, x = .ok a ∧ f a = .error e := by
  cases x with
  | error e' => simp [bind, Except.bind]
  | ok a => simp [bind, Except.bind]

theorem pure_ne_error {a : α} {e : ε} : (pure a : Except ε α) ≠ .error e := by
  simp [pure, Except.pure]

theorem require_eq_error {p : Prop} [Decidable p] {e e' : ε} :
    require p e = .error e' ↔ ¬ p ∧ e = e' := by
  unfold require
  split <;> simp [*]

theorem orError_eq_error {e e' : ε} {o : Option α} :
    orError e o = .error e' ↔ o = none ∧ e = e' := by
  cases o <;> simp [orError]

@[simp] theorem ok_bind {a : α} {f : α → Except ε β} : (Except.ok a >>= f) = f a := rfl

end Fallible
