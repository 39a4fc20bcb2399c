import MengXia.PluginProto.Wire
/-!
# The varint readers of both protocols

The core preflight and the plugin scanner each have a `read_varint` of their
own, with a test of its own for an encoding that is too long. Both accept the
shortest encodings in LEB128 and nothing else.
-/

namespace Common

variable {n : ℕ} {bytes : List UInt8}

/-- The number that bytes spell in LEB128: seven bits each, lowest first, all
but the last with their high bit set. -/
def leb128 : List UInt8 → Option ℕ
  | [] => none
  | byte :: rest =>
    if byte.toNat < 128 then (if rest = [] then some byte.toNat else none)
    else (leb128 rest).map fun n => byte.toNat % 128 + 128 * n

/-- An encoding of a number than which none is shorter. -/
def IsMinimalLeb128 (n : ℕ) (bytes : List UInt8) : Prop :=
  leb128 bytes = some n ∧ ∀ other, leb128 other = some n → bytes.length ≤ other.length

theorem leb128_encodeVarintFrom {fuel : ℕ} (hpositive : 0 < fuel) (hn : n < 128 ^ fuel) :
    leb128 (encodeVarintFrom fuel n) = some n := by
  induction fuel generalizing n with
  | zero => exact absurd hpositive (Nat.lt_irrefl 0)
  | succ fuel ih =>
    rw [encodeVarintFrom]
    split
    · rename_i hsmall
      rw [leb128, toNat_ofNat_of_lt (by omega), if_pos hsmall, if_pos rfl]
    · have hbyte := toNat_ofNat_of_lt (by omega : n % 128 + 128 < 256)
      have hdiv : n / 128 < 128 ^ fuel := Nat.div_lt_of_lt_mul (by rwa [← pow_succ'])
      have hfuel : 0 < fuel := by
        by_contra hzero
        obtain rfl : fuel = 0 := by omega
        omega
      rw [leb128, hbyte, if_neg (by omega), ih hfuel hdiv, Option.map_some]
      congr 1
      omega

/-- **No encoding is shorter than the varint**, and one as short is it. -/
theorem encodeVarintFrom_minimal (fuel : ℕ) (h : leb128 bytes = some n) :
    (encodeVarintFrom fuel n).length ≤ bytes.length ∧
      (bytes.length ≤ (encodeVarintFrom fuel n).length → bytes = encodeVarintFrom fuel n) := by
  induction bytes generalizing fuel n with
  | nil => cases h
  | cons byte rest ih =>
    cases fuel with
    | zero => exact ⟨Nat.zero_le _, fun hlength => absurd hlength (by simp [encodeVarintFrom])⟩
    | succ fuel =>
      rw [leb128] at h
      rw [encodeVarintFrom]
      by_cases hlast : byte.toNat < 128
      · rw [if_pos hlast, Option.ite_none_right_eq_some] at h
        obtain ⟨rfl, hn⟩ := h
        cases hn
        rw [if_pos hlast, UInt8.ofNat_toNat]
        exact ⟨le_rfl, fun _ => rfl⟩
      · rw [if_neg hlast, Option.map_eq_some_iff] at h
        obtain ⟨m, hm, rfl⟩ := h
        by_cases hsmall : byte.toNat % 128 + 128 * m < 128
        · -- A number of one digit that is written with more.
          rw [if_pos hsmall]
          refine ⟨by simp, fun hlength => ?_⟩
          obtain rfl : rest = [] := List.length_eq_zero_iff.1 (by simpa using hlength)
          cases hm
        · have hbyte := byte.toNat_lt
          have hfirst : (byte.toNat % 128 + 128 * m) % 128 + 128 = byte.toNat := by omega
          have hothers : (byte.toNat % 128 + 128 * m) / 128 = m := by omega
          obtain ⟨hle, heq⟩ := ih fuel hm
          rw [if_neg hsmall, hfirst, hothers, UInt8.ofNat_toNat]
          refine ⟨Nat.succ_le_succ hle, fun hlength => ?_⟩
          rw [heq (Nat.le_of_succ_le_succ hlength)]

theorem isMinimalLeb128_iff {fuel : ℕ} (hpositive : 0 < fuel) (hn : n < 128 ^ fuel) :
    IsMinimalLeb128 n bytes ↔ bytes = encodeVarintFrom fuel n := by
  have hencoded := leb128_encodeVarintFrom hpositive hn
  constructor
  · rintro ⟨hbytes, hminimal⟩
    exact (encodeVarintFrom_minimal _ hbytes).2 (hminimal _ hencoded)
  · rintro rfl
    exact ⟨hencoded, fun other h => (encodeVarintFrom_minimal _ h).1⟩

/-- **A number has one shortest encoding.** -/
theorem IsMinimalLeb128.unique {other : List UInt8} (h : IsMinimalLeb128 n bytes)
    (h' : IsMinimalLeb128 n other) : bytes = other := by
  have hn : n < 128 ^ (n + 1) := (Nat.lt_succ_self n).trans (Nat.lt_pow_self (by decide))
  have hiff := @isMinimalLeb128_iff n
  rw [(hiff (Nat.succ_pos n) hn).1 h, (hiff (Nat.succ_pos n) hn).1 h']

theorem isMinimalLeb128_word (value : UInt64) :
    IsMinimalLeb128 value.toNat bytes ↔ bytes = encodeVarint value.toNat :=
  isMinimalLeb128_iff (by decide : 0 < 10) (value.toNat_lt.trans (by decide))

end Common

namespace MengXia

open Common

/-- **The readers of both protocols agree.** Each accepts the shortest LEB128
encoding of a number of 64 bits, wherever it starts, and nothing else; it
returns the number and the offset behind it, and no number has two such
encodings. -/
theorem readVarint_agree (bytes : List UInt8) (offset next : ℕ) (value : UInt64) :
    (CoreProto.readVarint bytes offset = .ok (value, next) ↔
      ∃ code, IsMinimalLeb128 value.toNat code ∧ code <+: bytes.drop offset ∧
        next = offset + code.length) ∧
    (PluginProto.readVarint bytes offset = .ok (value, next) ↔
      ∃ code, IsMinimalLeb128 value.toNat code ∧ code <+: bytes.drop offset ∧
        next = offset + code.length) ∧
    ∀ code code', IsMinimalLeb128 value.toNat code → IsMinimalLeb128 value.toNat code' →
      code = code' :=
  have hcore : CoreProto.readVarint bytes offset = .ok (value, next) ↔
      ∃ code, IsMinimalLeb128 value.toNat code ∧ code <+: bytes.drop offset ∧
        next = offset + code.length := by
    simp only [isMinimalLeb128_word, exists_eq_left]
    rw [CoreProto.readVarint_eq_ok, and_comm]
  ⟨hcore, PluginProto.readVarint_eq_ok_iff_core.trans hcore, fun _ _ h h' => h.unique h'⟩

end MengXia
