import Mathlib.Tactic.Ring
import Mathlib.Data.List.Induction

/-!
# Big-endian bytes

Fixed-length big-endian encodings of natural numbers and of words, and the slices they are
read back from.
-/

namespace BigEndian

abbrev Byte := BitVec 8

/-- The `k` low-order bytes of `n`, most significant first. -/
def encode : ℕ → ℕ → List Byte
  | 0, _ => []
  | k + 1, n => encode k (n / 256) ++ [BitVec.ofNat 8 n]

def decode (bytes : List Byte) : ℕ := bytes.foldl (fun acc b => acc * 256 + b.toNat) 0

@[simp] theorem length_encode (k n : ℕ) : (encode k n).length = k := by
  induction k generalizing n with
  | zero => rfl
  | succ k ih => simp [encode, ih]

@[simp] theorem decode_nil : decode [] = 0 := rfl

@[simp] theorem decode_concat (bytes : List Byte) (b : Byte) :
    decode (bytes ++ [b]) = decode bytes * 256 + b.toNat := by
  simp [decode]

private theorem decode_encode (k n : ℕ) : decode (encode k n) = n % 256 ^ k := by
  induction k generalizing n with
  | zero => simp [encode, Nat.mod_one]
  | succ k ih =>
    rw [encode, decode_concat, ih, BitVec.toNat_ofNat]
    change n / 256 % 256 ^ k * 256 + n % 256 = n % 256 ^ (k + 1)
    rw [Nat.pow_succ, Nat.mul_comm (256 ^ k) 256, Nat.mod_mul]
    ring

private theorem decode_lt (bytes : List Byte) : decode bytes < 256 ^ bytes.length := by
  induction bytes using List.reverseRecOn with
  | nil => simp
  | append_singleton bytes b ih =>
    have hb : b.toNat < 256 := b.isLt
    rw [decode_concat, List.length_append, List.length_singleton, Nat.pow_succ]
    calc decode bytes * 256 + b.toNat < decode bytes * 256 + 256 := by omega
      _ = (decode bytes + 1) * 256 := by ring
      _ ≤ 256 ^ bytes.length * 256 := Nat.mul_le_mul_right _ ih

private theorem encode_decode (bytes : List Byte) : encode bytes.length (decode bytes) = bytes := by
  induction bytes using List.reverseRecOn with
  | nil => rfl
  | append_singleton bytes b ih =>
    have hb : b.toNat < 256 := b.isLt
    have hdiv : (decode bytes * 256 + b.toNat) / 256 = decode bytes := by omega
    have hlow : BitVec.ofNat 8 (decode bytes * 256 + b.toNat) = b := by
      rw [← BitVec.toNat_inj, BitVec.toNat_ofNat]
      omega
    rw [List.length_append, List.length_singleton, encode, decode_concat, hdiv, hlow, ih]

/-- The `k` bytes of a word. -/
def ofWord {w : ℕ} (k : ℕ) (x : BitVec w) : List Byte := encode k x.toNat

def toWord (w : ℕ) (bytes : List Byte) : BitVec w := BitVec.ofNat w (decode bytes)

@[simp] theorem length_ofWord {w : ℕ} (k : ℕ) (x : BitVec w) : (ofWord k x).length = k :=
  length_encode k x.toNat

theorem toWord_ofWord {w k : ℕ} (h : 256 ^ k = 2 ^ w) (x : BitVec w) :
    toWord w (ofWord k x) = x := by
  rw [← BitVec.toNat_inj, toWord, ofWord, decode_encode, BitVec.toNat_ofNat, h]
  simp

theorem ofWord_toWord {w : ℕ} {bytes : List Byte} (h : 256 ^ bytes.length = 2 ^ w) :
    ofWord bytes.length (toWord w bytes) = bytes := by
  have hlt := decode_lt bytes
  rw [h] at hlt
  rw [ofWord, toWord, BitVec.toNat_ofNat, Nat.mod_eq_of_lt hlt, encode_decode]

/-- The bytes from `start` up to `stop`, when the string is long enough. -/
def slice (bytes : List Byte) (start stop : ℕ) : Option (List Byte) :=
  if start ≤ stop ∧ stop ≤ bytes.length then some ((bytes.drop start).take (stop - start)) else none

theorem slice_append (pre mid post : List Byte) {start stop : ℕ} (hstart : start = pre.length)
    (hstop : stop = pre.length + mid.length) :
    slice (pre ++ mid ++ post) start stop = some mid := by
  subst hstart hstop
  unfold slice
  rw [if_pos ⟨Nat.le_add_right _ _, by simp⟩, List.append_assoc, List.drop_left,
    Nat.add_sub_cancel_left, List.take_left]

theorem slice_eq_some {bytes part : List Byte} {start stop : ℕ} :
    slice bytes start stop = some part ↔
      (start ≤ stop ∧ stop ≤ bytes.length) ∧ (bytes.drop start).take (stop - start) = part := by
  unfold slice
  split <;> simp [*]

theorem length_of_slice {bytes part : List Byte} {start stop : ℕ}
    (h : slice bytes start stop = some part) : part.length = stop - start := by
  obtain ⟨hle, rfl⟩ := slice_eq_some.mp h
  rw [List.length_take, List.length_drop]
  omega

theorem exists_slice (bytes : List Byte) (start stop : ℕ) (hle : start ≤ stop)
    (hstop : stop ≤ bytes.length) : ∃ part, slice bytes start stop = some part :=
  ⟨_, slice_eq_some.mpr ⟨⟨hle, hstop⟩, rfl⟩⟩

theorem take_append_slice {bytes part : List Byte} {start stop : ℕ}
    (h : slice bytes start stop = some part) : bytes.take start ++ part = bytes.take stop := by
  obtain ⟨⟨hle, -⟩, rfl⟩ := slice_eq_some.mp h
  rw [← List.take_add, Nat.add_sub_cancel' hle]

end BigEndian
