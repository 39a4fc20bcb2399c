import Mathlib.Algebra.Order.Ring.Nat
import Mathlib.Tactic.Ring
import Mathlib.Data.List.Basic
/-!
# Numbers of a fixed width

Big-endian digits: the bytes of an identifier, the hexadecimal text of a
digest, the fixed fields of a binary record. A number below `b ^ n` is
recovered from its `n` digits, and the order of numbers is the
lexicographic order of their digits.
-/

namespace Common

/-- The last `n` digits of `k` in base `b`, most significant first. -/
def digits (b : ℕ) : ℕ → ℕ → List ℕ
  | 0, _ => []
  | n + 1, k => k / b ^ n % b :: digits b n k

/-- The number a digit list spells, read after the number `a`. -/
def ofDigitsFrom (b : ℕ) : ℕ → List ℕ → ℕ
  | a, [] => a
  | a, x :: xs => ofDigitsFrom b (a * b + x) xs

/-- The number a digit list spells. -/
def ofDigits (b : ℕ) (xs : List ℕ) : ℕ :=
  ofDigitsFrom b 0 xs

variable {b n k : ℕ}

@[simp] theorem length_digits : (digits b n k).length = n := by
  induction n with
  | zero => rfl
  | succ n ih => simp [digits, ih]

theorem lt_of_mem_digits (hb : 0 < b) {x : ℕ} (hx : x ∈ digits b n k) : x < b := by
  induction n with
  | zero => cases hx
  | succ n ih =>
    rcases List.mem_cons.1 hx with rfl | hx
    · exact Nat.mod_lt _ hb
    · exact ih hx

/-- Digits are read back after a number. -/
theorem ofDigitsFrom_digits (a : ℕ) :
    ofDigitsFrom b a (digits b n k) = a * b ^ n + k % b ^ n := by
  induction n generalizing a with
  | zero => simp [digits, ofDigitsFrom, Nat.mod_one]
  | succ n ih =>
    rw [digits, ofDigitsFrom, ih, pow_succ, Nat.mod_mul]
    ring

/-- **A number that fits is read back from its digits.** -/
theorem ofDigits_digits (hk : k < b ^ n) : ofDigits b (digits b n k) = k := by
  rw [ofDigits, ofDigitsFrom_digits, Nat.zero_mul, Nat.zero_add, Nat.mod_eq_of_lt hk]

/-! ## Hexadecimal digits -/

/-- The value of a hexadecimal digit of either case. -/
def hexValue (c : Char) : Option ℕ :=
  if c.isDigit then some (c.toNat - 48)
  else if 'a'.toNat ≤ c.toNat ∧ c.toNat ≤ 'f'.toNat then some (c.toNat - 87)
  else if 'A'.toNat ≤ c.toNat ∧ c.toNat ≤ 'F'.toNat then some (c.toNat - 55)
  else none

/-- The lower-case hexadecimal digit of a number below sixteen. -/
def hexDigit (n : ℕ) : Char :=
  if n < 10 then Char.ofNat (48 + n) else Char.ofNat (87 + n)

/-- A digit has its value. -/
theorem hexValue_hexDigit {n : ℕ} (h : n < 16) : hexValue (hexDigit n) = some n := by
  revert n
  decide

end Common
