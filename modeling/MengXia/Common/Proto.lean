import MengXia.Common.Fields
import Mathlib.Data.Nat.Bitwise
/-!
# Protocol buffers on the wire

Messages as the lists of their fields: a field is a number with a value of
one of the four wire types, written as a key and a payload. Numbers are
written in base 128, lowest digits first, all bytes but the last with their
high bit set. A generated message type is a `MessageCodec`: how one field
is merged into a value, and which fields a value is written as.

The format is the published encoding of protocol buffers, version 3, without
groups. Where it leaves a choice the definitions follow the crate `prost`: a
varint has ten bytes at most and its last one no bit above the 64th, a field
of an unknown number is skipped, one of a known number and another wire type
is an error, a later value of a field replaces an earlier one, and a field
with its default value is not written.
-/

namespace Common

/-! ## Varints -/

/-- The digits of a number in base 128, at most so many. -/
def encodeVarintFrom : ℕ → ℕ → List UInt8
  | 0, _ => []
  | fuel + 1, n =>
    if n < 128 then [UInt8.ofNat n]
    else UInt8.ofNat (n % 128 + 128) :: encodeVarintFrom fuel (n / 128)

/-- The varint of a number below `2 ^ 64`. -/
def encodeVarint (n : ℕ) : List UInt8 :=
  encodeVarintFrom 10 n

/-- Read a varint from its digit `index` on. Ten bytes hold more than 64
bits, so the tenth is at most 1. -/
def decodeVarintFrom : ℕ → List UInt8 → Option (ℕ × List UInt8)
  | _, [] => none
  | index, byte :: rest =>
    if index = 9 ∧ 1 < byte.toNat then none
    else if byte.toNat < 128 then some (byte.toNat, rest)
    else
      match decodeVarintFrom (index + 1) rest with
      | some (n, rest) => some (byte.toNat - 128 + 128 * n, rest)
      | none => none

def decodeVarint : List UInt8 → Option (ℕ × List UInt8) :=
  decodeVarintFrom 0

/-- A byte keeps its number. -/
theorem toNat_ofNat_of_lt {n : ℕ} (h : n < 256) : (UInt8.ofNat n).toNat = n := by
  rw [UInt8.toNat_ofNat']
  exact Nat.mod_eq_of_lt h

/-- The digits from one on are read back. -/
theorem decodeVarintFrom_encode {index n : ℕ} (hindex : index < 10)
    (hn : n < 2 ^ (64 - 7 * index)) (rest : List UInt8) :
    decodeVarintFrom index (encodeVarintFrom (10 - index) n ++ rest) = some (n, rest) := by
  induction hdigits : 10 - index generalizing index n with
  | zero => omega
  | succ fuel ih =>
    unfold encodeVarintFrom
    by_cases hlast : index = 9
    · subst hlast
      have hsmall : n < 2 := hn
      rw [if_pos (by omega)]
      simp only [List.cons_append, List.nil_append, decodeVarintFrom,
        toNat_ofNat_of_lt (by omega : n < 256)]
      rw [if_neg (by omega), if_pos (by omega)]
    · split
      · rename_i hsmall
        simp only [List.cons_append, List.nil_append, decodeVarintFrom,
          toNat_ofNat_of_lt (by omega : n < 256)]
        rw [if_neg (by omega), if_pos hsmall]
      · have hdiv : n / 128 < 2 ^ (64 - 7 * (index + 1)) := by
          rw [Nat.div_lt_iff_lt_mul (by decide)]
          calc n < 2 ^ (64 - 7 * index) := hn
            _ = 2 ^ (64 - 7 * (index + 1)) * 2 ^ 7 := by
              rw [← Nat.pow_add]
              congr 1
              omega
        simp only [List.cons_append, decodeVarintFrom,
          toNat_ofNat_of_lt (by omega : n % 128 + 128 < 256)]
        rw [if_neg (by omega), if_neg (by omega), ih (by omega) hdiv (by omega)]
        simp only [Option.some.injEq, Prod.mk.injEq, and_true]
        omega

/-- **A varint is read back**, with what follows it. -/
theorem decodeVarint_encode {n : ℕ} (hn : n < 2 ^ 64) (rest : List UInt8) :
    decodeVarint (encodeVarint n ++ rest) = some (n, rest) :=
  decodeVarintFrom_encode (by decide) hn rest

/-- The bytes of a varint: one, and one more for each power of 128 that the
number reaches. -/
def varintSize (n : ℕ) : ℕ :=
  1 + (List.range 9).countP fun i => 128 ^ (i + 1) ≤ n

/-- One byte, and one for every seven bits that follow. -/
theorem length_encodeVarintFrom (fuel n : ℕ) : (encodeVarintFrom (fuel + 1) n).length =
    1 + (List.range fuel).countP fun i => 128 ^ (i + 1) ≤ n := by
  induction fuel generalizing n with
  | zero => rw [encodeVarintFrom]; split <;> rfl
  | succ fuel ih =>
    -- The powers above the first are the powers that the other digits reach.
    have hrest (i : ℕ) : (128 ^ (i + 1 + 1) ≤ n) = (128 ^ (i + 1) ≤ n / 128) := by
      rw [Nat.le_div_iff_mul_le (by decide), ← pow_succ]
    rw [encodeVarintFrom, List.range_succ_eq_map, List.countP_cons, List.countP_map]
    simp only [Function.comp_def, hrest]
    split
    · rename_i hsmall
      rw [Nat.div_eq_of_lt hsmall, List.countP_eq_zero.2 fun i _ => by simp]
      simp [hsmall]
    · rename_i hlarge
      rw [List.length_cons, ih]
      simp [Nat.not_lt.1 hlarge, Nat.add_comm]

/-- **A varint has its size.** -/
theorem length_encodeVarint (n : ℕ) : (encodeVarint n).length = varintSize n :=
  length_encodeVarintFrom 9 n

/-- A varint has at most ten bytes. -/
theorem varintSize_le (n : ℕ) : varintSize n ≤ 10 :=
  Nat.add_le_add_left List.countP_le_length 1

/-- A larger number is not shorter. -/
theorem varintSize_mono {m n : ℕ} (h : m ≤ n) : varintSize m ≤ varintSize n :=
  Nat.add_le_add_left (List.countP_mono_left fun _ _ hi =>
    decide_eq_true ((of_decide_eq_true hi).trans h)) 1

/-- A varint has a byte. -/
theorem length_encodeVarint_pos (n : ℕ) : 0 < (encodeVarint n).length := by
  unfold encodeVarint encodeVarintFrom
  split <;> simp

/-- A digit above a value is seen in the sum exactly if it is not zero. -/
theorem add_mul_lt_iff {value digit power : ℕ} (h : value < power) :
    value + digit * power < power ↔ digit = 0 := by
  constructor
  · intro hlt
    by_contra hne
    have := Nat.le_mul_of_pos_left power (Nat.pos_of_ne_zero hne)
    omega
  · rintro rfl
    simpa using h

/-- One more digit of seven bits. -/
theorem add_digit_lt {value digit index : ℕ} (h : value < 2 ^ (7 * index)) (hdigit : digit < 128) :
    value + digit * 2 ^ (7 * index) < 2 ^ (7 * (index + 1)) := by
  have hle : digit * 2 ^ (7 * index) ≤ 127 * 2 ^ (7 * index) :=
    Nat.mul_le_mul_right _ (Nat.le_of_lt_succ hdigit)
  rw [Nat.mul_add, Nat.pow_add]
  omega

/-- `value |= u64::from(byte & 0x7f) << shift`. -/
def addDigit (value : UInt64) (byte : UInt8) (shift : ℕ) : UInt64 :=
  value ||| (byte &&& 0x7f).toUInt64 <<< UInt64.ofNat shift

/-- The low bits of a digit. -/
theorem toNat_and_low (byte : UInt8) : (byte &&& 0x7f).toNat = byte.toNat % 128 := by
  rw [UInt8.toNat_and]
  exact Nat.and_two_pow_sub_one_eq_mod _ 7

/-- The last digit has its high bit clear. -/
theorem and_high_eq_zero_iff (byte : UInt8) : byte &&& 0x80 = 0 ↔ byte.toNat < 128 := by
  obtain ⟨⟨byte⟩⟩ := byte
  revert byte
  decide +kernel

/-- Bytes compare as their numbers do. -/
theorem one_lt_iff (byte : UInt8) : 1 < byte ↔ 1 < byte.toNat :=
  UInt8.lt_iff_toNat_lt

/-- **The digits do not overlap**, so that one more is a sum. -/
theorem toNat_addDigit {value : UInt64} {byte : UInt8} {index : ℕ} (hindex : index ≤ 9)
    (hten : ¬ (index = 9 ∧ 1 < byte.toNat)) (hvalue : value.toNat < 2 ^ (7 * index)) :
    (addDigit value byte (7 * index)).toNat =
        value.toNat + byte.toNat % 128 * 2 ^ (7 * index) ∧
      (addDigit value byte (7 * index)).toNat < 2 ^ (7 * (index + 1)) := by
  have hshift : (UInt64.ofNat (7 * index)).toNat % 64 = 7 * index := by
    rw [UInt64.toNat_ofNat']
    omega
  have hbound := add_digit_lt hvalue (Nat.mod_lt byte.toNat (by decide : 0 < 128))
  have hfits : byte.toNat % 128 * 2 ^ (7 * index) < 2 ^ 64 := by
    by_cases h9 : index = 9
    · subst h9
      omega
    · have hle : 2 ^ (7 * (index + 1)) ≤ 2 ^ 64 := Nat.pow_le_pow_right (by decide) (by omega)
      omega
  have hsum : (addDigit value byte (7 * index)).toNat =
      value.toNat + byte.toNat % 128 * 2 ^ (7 * index) := by
    rw [addDigit, UInt64.toNat_or, UInt64.toNat_shiftLeft, hshift, UInt8.toNat_toUInt64,
      toNat_and_low, Nat.shiftLeft_eq, Nat.mod_eq_of_lt hfits, Nat.or_comm, Nat.mul_comm,
      ← Nat.two_pow_add_eq_or_of_lt hvalue, Nat.add_comm]
  exact ⟨hsum, hsum ▸ hbound⟩

/-! ## Fixed widths -/

/-- A number of so many bytes, lowest first. -/
def leBytes (width n : ℕ) : List UInt8 :=
  (beBytes width n).reverse

def readFixed (width : ℕ) (input : List UInt8) : Option (ℕ × List UInt8) :=
  if input.length < width then none
  else some (ofBeBytes (input.take width).reverse, input.drop width)

@[simp] theorem length_leBytes (width n : ℕ) : (leBytes width n).length = width := by
  simp [leBytes]

/-- A fixed-width integer is read back. -/
theorem readFixed_leBytes {width n : ℕ} (h : n < 256 ^ width) (rest : List UInt8) :
    readFixed width (leBytes width n ++ rest) = some (n, rest) := by
  have hlength : ¬ (leBytes width n ++ rest).length < width := by simp
  unfold readFixed
  rw [if_neg hlength, List.take_left' (length_leBytes width n),
    List.drop_left' (length_leBytes width n), leBytes, List.reverse_reverse,
    ofBeBytes_beBytes h]

/-- **A fixed field is the number it is read as.** -/
theorem readFixed_eq_some {width n : ℕ} {input rest : List UInt8}
    (h : readFixed width input = some (n, rest)) :
    input = leBytes width n ++ rest ∧ n < 256 ^ width := by
  unfold readFixed at h
  split at h
  · cases h
  · rename_i hlength
    obtain ⟨rfl, rfl⟩ : ofBeBytes (input.take width).reverse = n ∧ input.drop width = rest := by
      simpa using h
    have hwidth : (input.take width).reverse.length = width := by
      simp only [List.length_reverse, List.length_take]
      omega
    refine ⟨?_, ?_⟩
    · have hbytes := beBytes_ofBeBytes (input.take width).reverse
      rw [hwidth] at hbytes
      rw [leBytes, hbytes, List.reverse_reverse, List.take_append_drop]
    · simpa only [hwidth] using ofBeBytes_lt (input.take width).reverse

/-! ## Fields -/

/-- A value with its wire type. -/
inductive WireValue where
  | varint (n : ℕ)
  | fixed64 (n : ℕ)
  | bytes (b : List UInt8)
  | fixed32 (n : ℕ)
  deriving DecidableEq

namespace WireValue

/-- The wire type in the key. -/
def wire : WireValue → ℕ
  | .varint _ => 0
  | .fixed64 _ => 1
  | .bytes _ => 2
  | .fixed32 _ => 5

/-- The bytes after the key. -/
def payload : WireValue → List UInt8
  | .varint n => encodeVarint n
  | .fixed64 n => leBytes 8 n
  | .bytes b => encodeVarint b.length ++ b
  | .fixed32 n => leBytes 4 n

/-- The values that fit their type. -/
def InRange : WireValue → Prop
  | .varint n => n < 2 ^ 64
  | .fixed64 n => n < 2 ^ 64
  | .bytes b => b.length < 2 ^ 64
  | .fixed32 n => n < 2 ^ 32

end WireValue

/-- A field of a message: its number and its value. -/
structure RawField where
  number : ℕ
  value : WireValue
  deriving DecidableEq

namespace RawField

def key (f : RawField) : ℕ :=
  f.number * 8 + f.value.wire

def encode (f : RawField) : List UInt8 :=
  encodeVarint f.key ++ f.value.payload

/-- The fields a key of 32 bits can announce. -/
structure InRange (f : RawField) : Prop where
  positive : 1 ≤ f.number
  number : f.number < 2 ^ 29
  value : f.value.InRange

/-- A wire type has three bits. -/
theorem wire_lt (v : WireValue) : v.wire < 8 := by
  cases v <;> simp [WireValue.wire]

/-- No field is empty. -/
theorem length_encode_pos (f : RawField) : 0 < f.encode.length := by
  unfold encode
  rw [List.length_append]
  exact Nat.add_pos_left (length_encodeVarint_pos _) _

end RawField

/-- The fields of a message in the order given. -/
def encodeFields (fields : List RawField) : List UInt8 :=
  fields.flatMap RawField.encode

/-- Fields are written one after the other. -/
theorem encodeFields_append (fields fields' : List RawField) :
    encodeFields (fields ++ fields') = encodeFields fields ++ encodeFields fields' :=
  List.flatMap_append

/-- The bytes of a field that holds so many bytes. -/
def dataSize (number length : ℕ) : ℕ :=
  varintSize (number * 8 + 2) + varintSize length + length

/-- A key and a length take at most twenty bytes. -/
theorem dataSize_le (number length : ℕ) : dataSize number length ≤ 20 + length := by
  have hkey := varintSize_le (number * 8 + 2)
  have hlength := varintSize_le length
  unfold dataSize
  omega

/-- The size of an integer field. -/
theorem RawField.length_encode_varint (number n : ℕ) :
    (RawField.encode ⟨number, .varint n⟩).length = varintSize (number * 8) + varintSize n := by
  simp only [encode, WireValue.payload, List.length_append, length_encodeVarint]
  rfl

/-- An integer field has at most twenty bytes. -/
theorem RawField.length_encode_varint_le (number n : ℕ) :
    (RawField.encode ⟨number, .varint n⟩).length ≤ 20 := by
  rw [length_encode_varint]
  exact Nat.add_le_add (varintSize_le _) (varintSize_le _)

/-- The size of a length-delimited field. -/
theorem RawField.length_encode_bytes (number : ℕ) (b : List UInt8) :
    (RawField.encode ⟨number, .bytes b⟩).length = dataSize number b.length := by
  simp only [encode, WireValue.payload, List.length_append, length_encodeVarint, dataSize,
    Nat.add_assoc]
  rfl

/-- The fields a key of 64 bits can announce. -/
structure RawField.Fits (f : RawField) : Prop where
  positive : 1 ≤ f.number
  key : f.key < 2 ^ 64
  value : f.value.InRange

/-- The payload of a field of the given wire type. -/
def readValue (wire : ℕ) (input : List UInt8) : Option (WireValue × List UInt8) :=
  match wire with
  | 0 =>
    match decodeVarint input with
    | some (n, rest) => some (.varint n, rest)
    | none => none
  | 1 =>
    match readFixed 8 input with
    | some (n, rest) => some (.fixed64 n, rest)
    | none => none
  | 2 =>
    match decodeVarint input with
    | some (length, rest) =>
      if rest.length < length then none else some (.bytes (rest.take length), rest.drop length)
    | none => none
  | 5 =>
    match readFixed 4 input with
    | some (n, rest) => some (.fixed32 n, rest)
    | none => none
  | _ => none

/-- One field: a key of at most 32 bits and its payload. -/
def readField (input : List UInt8) : Option (RawField × List UInt8) :=
  match decodeVarint input with
  | none => none
  | some (key, rest) =>
    if 2 ^ 32 ≤ key ∨ key / 8 = 0 then none
    else
      match readValue (key % 8) rest with
      | some (value, rest) => some (⟨key / 8, value⟩, rest)
      | none => none

/-- The fields of an input, of which there are no more than bytes. -/
def readFieldsFrom : ℕ → List UInt8 → Option (List RawField)
  | _, [] => some []
  | 0, _ :: _ => none
  | fuel + 1, input =>
    match readField input with
    | none => none
    | some (f, rest) =>
      match readFieldsFrom fuel rest with
      | none => none
      | some fields => some (f :: fields)

def readFields (input : List UInt8) : Option (List RawField) :=
  readFieldsFrom input.length input

/-- A value is read back. -/
theorem readValue_payload {v : WireValue} (h : v.InRange) (rest : List UInt8) :
    readValue v.wire (v.payload ++ rest) = some (v, rest) := by
  cases v with
  | varint n | bytes b => simp [readValue, WireValue.wire, WireValue.payload, decodeVarint_encode h]
  | fixed64 n =>
    have hn : n < 256 ^ 8 := h
    simp [readValue, WireValue.wire, WireValue.payload, readFixed_leBytes hn]
  | fixed32 n =>
    have hn : n < 256 ^ 4 := h
    simp [readValue, WireValue.wire, WireValue.payload, readFixed_leBytes hn]

/-- A field is read back. -/
theorem readField_encode {f : RawField} (h : f.InRange) (rest : List UInt8) :
    readField (f.encode ++ rest) = some (f, rest) := by
  have hwire := RawField.wire_lt f.value
  have hnumber := h.number
  have hpositive := h.positive
  have hkey : f.key < 2 ^ 32 := by
    unfold RawField.key
    omega
  have hdiv : f.key / 8 = f.number := by
    unfold RawField.key
    omega
  have hmod : f.key % 8 = f.value.wire := by
    unfold RawField.key
    omega
  unfold readField RawField.encode
  rw [List.append_assoc, decodeVarint_encode (by omega)]
  simp only [hdiv, hmod]
  rw [if_neg (by omega), readValue_payload h.value]

/-- A key holds the number of its field. -/
theorem RawField.key_div (f : RawField) : f.key / 8 = f.number := by
  have hwire := RawField.wire_lt f.value
  unfold RawField.key
  omega

/-- A key holds the wire type. -/
theorem RawField.key_mod (f : RawField) : f.key % 8 = f.value.wire := by
  have hwire := RawField.wire_lt f.value
  unfold RawField.key
  omega

/-- **No field is the beginning of another.** -/
theorem RawField.encode_append_inj {f g : RawField} (hf : f.Fits) (hg : g.Fits)
    {rest rest' : List UInt8} (h : f.encode ++ rest = g.encode ++ rest') :
    f = g ∧ rest = rest' := by
  have hkeys := decodeVarint_encode hf.key (f.value.payload ++ rest)
  rw [← List.append_assoc, ← RawField.encode, h, RawField.encode, List.append_assoc,
    decodeVarint_encode hg.key] at hkeys
  obtain ⟨hkey, hpayload⟩ := Prod.mk.inj (Option.some.inj hkeys)
  have hnumber : f.number = g.number := by rw [← f.key_div, ← g.key_div, hkey]
  have hwire : f.value.wire = g.value.wire := by rw [← f.key_mod, ← g.key_mod, hkey]
  have hvalues := readValue_payload hf.value rest
  rw [hwire, ← hpayload, readValue_payload hg.value] at hvalues
  obtain ⟨hvalue, hrest⟩ := Prod.mk.inj (Option.some.inj hvalues)
  obtain ⟨number, value⟩ := f
  obtain ⟨number', value'⟩ := g
  simp only at hnumber hvalue
  rw [hnumber, hvalue]
  exact ⟨rfl, hrest.symm⟩

/-- **The fields of a message are read back.** -/
theorem readFieldsFrom_encode {fields : List RawField} (h : ∀ f ∈ fields, f.InRange) {fuel : ℕ}
    (hfuel : (encodeFields fields).length ≤ fuel) :
    readFieldsFrom fuel (encodeFields fields) = some fields := by
  induction fields generalizing fuel with
  | nil =>
    cases fuel <;> rfl
  | cons f fields ih =>
    have hpositive := f.length_encode_pos
    rw [encodeFields, List.flatMap_cons, List.length_append] at hfuel
    obtain ⟨fuel, rfl⟩ := Nat.exists_eq_succ_of_ne_zero (by omega : fuel ≠ 0)
    have hrest : (encodeFields fields).length ≤ fuel := by
      unfold encodeFields
      omega
    obtain ⟨byte, bytes, hbytes⟩ := List.exists_cons_of_length_pos
      (by rw [List.length_append]; omega : 0 < (f.encode ++ encodeFields fields).length)
    rw [encodeFields, List.flatMap_cons]
    have hread := readField_encode (h f List.mem_cons_self) (encodeFields fields)
    rw [hbytes] at hread
    show readFieldsFrom (fuel + 1) (f.encode ++ encodeFields fields) = _
    rw [hbytes]
    simp only [readFieldsFrom, hread,
      ih (fun g hg => h g (List.mem_cons_of_mem f hg)) hrest]

/-- **Fields are read back.** -/
theorem readFields_encode {fields : List RawField} (h : ∀ f ∈ fields, f.InRange) :
    readFields (encodeFields fields) = some fields :=
  readFieldsFrom_encode h le_rfl

/-- **No two lists of fields are written alike.** -/
theorem encodeFields_injective {fields fields' : List RawField} (h : ∀ f ∈ fields, f.InRange)
    (h' : ∀ f ∈ fields', f.InRange) (heq : encodeFields fields = encodeFields fields') :
    fields = fields' := by
  have hread := readFields_encode h
  rw [heq, readFields_encode h'] at hread
  exact (Option.some.inj hread).symm

/-! ## Messages -/

/-- A generated message type. -/
structure MessageCodec (σ : Type) where
  /-- The value with every field at its default. -/
  initial : σ
  /-- `merge_field`: what a field read from the wire does to a value. -/
  merge : σ → RawField → Option σ
  /-- `encode_raw`: the fields a value is written as. -/
  fields : σ → List RawField

namespace MessageCodec

variable {σ : Type} (codec : MessageCodec σ)

/-- `merge`: read fields into a value. -/
def mergeFrom (s : σ) (input : List UInt8) : Option σ :=
  (readFields input).bind fun fields => fields.foldlM codec.merge s

/-- `decode`. -/
def decode (input : List UInt8) : Option σ :=
  codec.mergeFrom codec.initial input

/-- `encode_to_vec`. -/
def encode (s : σ) : List UInt8 :=
  encodeFields (codec.fields s)

/-- A message is decoded by merging its fields. -/
theorem decode_encodeFields {fields : List RawField} (h : ∀ f ∈ fields, f.InRange) :
    codec.decode (encodeFields fields) = fields.foldlM codec.merge codec.initial := by
  unfold decode mergeFrom
  rw [readFields_encode h, Option.bind_some]

end MessageCodec

/-! ## The fields of generated messages -/

namespace WireValue

def varint? : WireValue → Option ℕ
  | .varint n => some n
  | _ => none

def fixed64? : WireValue → Option ℕ
  | .fixed64 n => some n
  | _ => none

def bytes? : WireValue → Option (List UInt8)
  | .bytes b => some b
  | _ => none

variable {v : WireValue}

/-- Wire type 0 is an integer. -/
theorem eq_varint_of_wire (h : v.wire = 0) : ∃ n, v = .varint n := by
  cases v with
  | varint n => exact ⟨n, rfl⟩
  | _ => cases h

/-- Wire type 1 is eight bytes. -/
theorem eq_fixed64_of_wire (h : v.wire = 1) : ∃ n, v = .fixed64 n := by
  cases v with
  | fixed64 n => exact ⟨n, rfl⟩
  | _ => cases h

/-- Wire type 2 is a string. -/
theorem eq_bytes_of_wire (h : v.wire = 2) : ∃ b, v = .bytes b := by
  cases v with
  | bytes b => exact ⟨b, rfl⟩
  | _ => cases h

end WireValue

/-- A varint field, left out at its default. -/
def varintField (number n : ℕ) : List RawField :=
  if n = 0 then [] else [⟨number, .varint n⟩]

/-- A `fixed64` field, left out at its default. -/
def fixed64Field (number n : ℕ) : List RawField :=
  if n = 0 then [] else [⟨number, .fixed64 n⟩]

/-- A `bytes` field, left out when empty. -/
def bytesField (number : ℕ) (b : List UInt8) : List RawField :=
  if b = [] then [] else [⟨number, .bytes b⟩]

/-- Zero is not written. -/
@[simp] theorem varintField_zero (number : ℕ) : varintField number 0 = [] :=
  rfl

/-- The empty string is not written. -/
@[simp] theorem bytesField_nil (number : ℕ) : bytesField number [] = [] :=
  rfl

/-- Any other integer is one field. -/
theorem varintField_of_pos {n : ℕ} (number : ℕ) (h : 0 < n) :
    varintField number n = [⟨number, .varint n⟩] :=
  if_neg (Nat.pos_iff_ne_zero.1 h)

/-- A `fixed64` other than zero is one field. -/
theorem fixed64Field_of_pos {n : ℕ} (number : ℕ) (h : 0 < n) :
    fixed64Field number n = [⟨number, .fixed64 n⟩] :=
  if_neg (Nat.pos_iff_ne_zero.1 h)

/-- Any other string is one field. -/
theorem bytesField_of_ne_nil {b : List UInt8} (number : ℕ) (h : b ≠ []) :
    bytesField number b = [⟨number, .bytes b⟩] :=
  if_neg h

/-- The bytes of a varint field. -/
def numberSize (number n : ℕ) : ℕ :=
  if n = 0 then 0 else varintSize (number * 8) + varintSize n

/-- The bytes of a `bytes` field. -/
def bytesSize (number length : ℕ) : ℕ :=
  if length = 0 then 0 else dataSize number length

/-- The size of an integer, which may be zero. -/
theorem length_encode_varintField (number n : ℕ) :
    (encodeFields (varintField number n)).length = numberSize number n := by
  unfold varintField numberSize
  split
  · rfl
  · rw [encodeFields, List.flatMap_singleton, RawField.length_encode_varint]

/-- An integer takes at most twenty bytes. -/
theorem length_encode_varintField_le (number n : ℕ) :
    (encodeFields (varintField number n)).length ≤ 20 := by
  rw [length_encode_varintField, numberSize]
  split
  · exact Nat.zero_le _
  · exact Nat.add_le_add (varintSize_le _) (varintSize_le _)

/-- The size of a string, which may be empty. -/
theorem length_encode_bytesField (number : ℕ) (b : List UInt8) :
    (encodeFields (bytesField number b)).length = bytesSize number b.length := by
  unfold bytesField bytesSize
  simp only [List.length_eq_zero_iff]
  split
  · rfl
  · rw [encodeFields, List.flatMap_singleton, RawField.length_encode_bytes]

/-- A string takes at most twenty bytes more than it has. -/
theorem length_encode_bytesField_le (number : ℕ) (b : List UInt8) :
    (encodeFields (bytesField number b)).length ≤ 20 + b.length := by
  rw [length_encode_bytesField, bytesSize]
  split
  · exact Nat.zero_le _
  · exact dataSize_le _ _

/-- A field of a message type, which is written even when it is empty. -/
def messageField (number : ℕ) (fields : List RawField) : List RawField :=
  [⟨number, .bytes (encodeFields fields)⟩]

/-- The size of an embedded message. -/
theorem length_encode_messageField (number : ℕ) (fields : List RawField) :
    (encodeFields (messageField number fields)).length =
      dataSize number (encodeFields fields).length := by
  rw [messageField, encodeFields.eq_def [_], List.flatMap_singleton, RawField.length_encode_bytes]

/-- An `optional` integer field. -/
def optionalVarintField (number : ℕ) (value : Option ℕ) : List RawField :=
  value.toList.map fun n => ⟨number, .varint n⟩

/-- The bytes of an `optional` integer field. -/
def optionalSize (number : ℕ) (value : Option ℕ) : ℕ :=
  value.elim 0 fun n => varintSize (number * 8) + varintSize n

/-- The size of an optional integer. -/
theorem length_encode_optionalVarintField (number : ℕ) (value : Option ℕ) :
    (encodeFields (optionalVarintField number value)).length = optionalSize number value := by
  cases value with
  | none => rfl
  | some n => simp [encodeFields, optionalVarintField, optionalSize, RawField.length_encode_varint]

/-- An `optional` `bytes` field. -/
def optionalBytesField (number : ℕ) (value : Option (List UInt8)) : List RawField :=
  value.toList.map fun b => ⟨number, .bytes b⟩

/-- An `int64` field, in two's complement. -/
def int64Field (number : ℕ) (value : ℤ) : List RawField :=
  varintField number (value % 2 ^ 64).toNat

/-! ## The size of messages -/

/-- The fields take at most so many bytes. -/
def FitsIn (size : ℕ) (fields : List RawField) : Prop :=
  (encodeFields fields).length ≤ size

namespace FitsIn

theorem nil : FitsIn 0 [] :=
  le_rfl

theorem append {m n : ℕ} {fields fields' : List RawField} (h : FitsIn m fields)
    (h' : FitsIn n fields') : FitsIn (m + n) (fields ++ fields') := by
  unfold FitsIn at h h' ⊢
  rw [encodeFields_append, List.length_append]
  exact Nat.add_le_add h h'

theorem mono {m n : ℕ} {fields : List RawField} (h : FitsIn m fields) (hle : m ≤ n) :
    FitsIn n fields :=
  Nat.le_trans h hle

theorem varint (number n : ℕ) : FitsIn 20 (varintField number n) :=
  length_encode_varintField_le number n

theorem int64 (number : ℕ) (value : ℤ) : FitsIn 20 (int64Field number value) :=
  varint number _

theorem optionalVarint (number : ℕ) (value : Option ℕ) :
    FitsIn 20 (optionalVarintField number value) := by
  cases value with
  | none => exact Nat.zero_le _
  | some n => simpa [FitsIn, optionalVarintField, encodeFields] using
      RawField.length_encode_varint_le number n

theorem bytes {number size : ℕ} {b : List UInt8} (h : b.length ≤ size) :
    FitsIn (20 + size) (bytesField number b) :=
  Nat.le_trans (length_encode_bytesField_le number b) (Nat.add_le_add_left h 20)

/-- A string that is written even when empty. -/
theorem rawBytes {number size : ℕ} {b : List UInt8} (h : b.length ≤ size) :
    FitsIn (20 + size) [⟨number, .bytes b⟩] := by
  rw [FitsIn, encodeFields, List.flatMap_singleton, RawField.length_encode_bytes]
  exact (dataSize_le _ _).trans (Nat.add_le_add_left h 20)

theorem optionalBytes {number size : ℕ} {value : Option (List UInt8)}
    (h : ∀ b ∈ value, b.length ≤ size) : FitsIn (20 + size) (optionalBytesField number value) := by
  cases value with
  | none => exact Nat.zero_le _
  | some b => exact rawBytes (h b rfl)

theorem message {number size : ℕ} {fields : List RawField} (h : FitsIn size fields) :
    FitsIn (20 + size) (messageField number fields) :=
  rawBytes h

/-- Repeated fields, each of at most so many bytes. -/
theorem repeated {α : Type} {f : α → List RawField} {size : ℕ} {xs : List α}
    (h : ∀ x ∈ xs, FitsIn size (f x)) : FitsIn (xs.length * size) (xs.flatMap f) := by
  induction xs with
  | nil => exact Nat.zero_le _
  | cons x xs ih =>
    obtain ⟨hx, hxs⟩ := List.forall_mem_cons.1 h
    rw [List.flatMap_cons, List.length_cons, Nat.succ_mul, Nat.add_comm]
    exact hx.append (ih hxs)

end FitsIn

/-- A field numbered above all that is written is absent. -/
theorem varintField_eq_nil_of_lt {number n m : ℕ} (h : ∀ x ∈ varintField number n, x.number < m)
    (hm : m ≤ number) : varintField number n = [] := by
  unfold varintField at h ⊢
  split
  · rfl
  · rename_i hn
    rw [if_neg hn] at h
    exact absurd (h _ List.mem_cons_self) (by simpa using hm)

theorem fixed64Field_eq_nil_of_lt {number n m : ℕ}
    (h : ∀ x ∈ fixed64Field number n, x.number < m) (hm : m ≤ number) :
    fixed64Field number n = [] := by
  unfold fixed64Field at h ⊢
  split
  · rfl
  · rename_i hn
    rw [if_neg hn] at h
    exact absurd (h _ List.mem_cons_self) (by simpa using hm)

theorem bytesField_eq_nil_of_lt {number m : ℕ} {b : List UInt8}
    (h : ∀ x ∈ bytesField number b, x.number < m) (hm : m ≤ number) : bytesField number b = [] := by
  unfold bytesField at h ⊢
  split
  · rfl
  · rename_i hb
    rw [if_neg hb] at h
    exact absurd (h _ List.mem_cons_self) (by simpa using hm)

/-- **A `uint32` field left out at its default is read back as it was.** -/
theorem foldlM_varintField {σ : Type} (codec : MessageCodec σ) (number : ℕ) {s : σ}
    (set : UInt32 → σ) (hset : ∀ n, codec.merge s ⟨number, .varint n⟩ = some (set (.ofNat n)))
    (hzero : set 0 = s) (w : UInt32) :
    (varintField number w.toNat).foldlM codec.merge s = some (set w) := by
  unfold varintField
  split
  · rename_i hw
    obtain rfl : w = 0 := UInt32.toNat.inj hw
    exact congrArg some hzero.symm
  · rw [List.foldlM_cons, hset, UInt32.ofNat_toNat]
    rfl

/-- A string is merged into its field. -/
theorem foldlM_bytesField {σ : Type} (codec : MessageCodec σ) (number : ℕ) {s : σ}
    (set : List UInt8 → σ) (hset : ∀ b, codec.merge s ⟨number, .bytes b⟩ = some (set b))
    (hnil : set [] = s) (b : List UInt8) :
    (bytesField number b).foldlM codec.merge s = some (set b) := by
  unfold bytesField
  split
  · rename_i hb
    subst hb
    exact congrArg some hnil.symm
  · rw [List.foldlM_cons, hset]
    rfl

/-- What is left of a field when its integer is read with 32 bits. -/
def RawField.narrow (f : RawField) : List RawField :=
  match f.value with
  | .varint n => varintField f.number (n % 2 ^ 32)
  | _ => [f]

/-- The field's integer, if it is one, has 32 bits. -/
def RawField.Narrow (f : RawField) : Prop :=
  ∀ n, f.value = .varint n → n < 2 ^ 32

/-- Narrowing keeps the number. -/
theorem RawField.number_of_mem_narrow {f x : RawField} (hx : x ∈ f.narrow) :
    x.number = f.number := by
  obtain ⟨number, value⟩ := f
  cases value with
  | varint n =>
    simp only [narrow, varintField] at hx
    split at hx
    · cases hx
    · rw [List.mem_singleton.1 hx]
  | _ => rw [List.mem_singleton.1 hx]

/-- A field narrows to one at most. -/
theorem RawField.length_narrow_le (f : RawField) : f.narrow.length ≤ 1 := by
  obtain ⟨number, value⟩ := f
  cases value with
  | varint n =>
    simp only [narrow, varintField]
    split <;> simp
  | _ => exact le_rfl

/-- Narrowing does not lengthen a field. -/
theorem RawField.length_encode_narrow_le (f : RawField) :
    (encodeFields f.narrow).length ≤ f.encode.length := by
  obtain ⟨number, value⟩ := f
  cases value with
  | varint n =>
    simp only [narrow, varintField]
    split
    · exact Nat.zero_le _
    · rw [encodeFields, List.flatMap_singleton, length_encode_varint, length_encode_varint]
      exact Nat.add_le_add_left (varintSize_mono (Nat.mod_le n (2 ^ 32))) _
  | _ => simp [narrow, encodeFields]

/-- Reading with 32 bits makes no message longer. -/
theorem length_encodeFields_narrow_le (fields : List RawField) :
    (encodeFields (fields.flatMap RawField.narrow)).length ≤ (encodeFields fields).length := by
  induction fields with
  | nil => exact le_rfl
  | cons f fields ih =>
    have hf := f.length_encode_narrow_le
    rw [List.flatMap_cons, encodeFields_append, List.length_append]
    simp only [encodeFields, List.flatMap_cons, List.length_append] at ih hf ⊢
    omega

/-- Only integers of 32 bits narrow to themselves. -/
theorem RawField.narrow_eq_self_iff {f : RawField} (hpositive : f.value ≠ .varint 0) :
    f.narrow = [f] ↔ f.Narrow := by
  obtain ⟨number, value⟩ := f
  cases value with
  | varint n =>
    have hn : n ≠ 0 := fun hn => hpositive (by rw [hn])
    simp only [narrow, varintField, Narrow, WireValue.varint.injEq, forall_eq']
    constructor
    · intro h
      split at h
      · cases h
      · have hmod : n % 2 ^ 32 = n := by simpa using h
        rw [← hmod]
        exact Nat.mod_lt _ (by decide)
    · intro h
      rw [Nat.mod_eq_of_lt h, if_neg hn]
  | _ => simp [narrow, Narrow]

/-- A list is kept when every element is. -/
theorem flatMap_eq_self_iff {α : Type} {g : α → List α} {xs : List α}
    (hg : ∀ x, (g x).length ≤ 1) : xs.flatMap g = xs ↔ ∀ x ∈ xs, g x = [x] := by
  have hlength : ∀ xs : List α, (xs.flatMap g).length ≤ xs.length := by
    intro xs
    induction xs with
    | nil => exact le_rfl
    | cons x xs ih =>
      have := hg x
      rw [List.flatMap_cons, List.length_append, List.length_cons]
      omega
  induction xs with
  | nil => simp
  | cons x xs ih =>
    rw [List.flatMap_cons, List.forall_mem_cons]
    constructor
    · intro h
      cases hx : g x with
      | nil =>
        -- A value that is dropped here cannot be made up for by the rest.
        rw [hx, List.nil_append] at h
        have := hlength xs
        rw [h, List.length_cons] at this
        omega
      | cons y ys =>
        obtain rfl : ys = [] := by
          have := hg x
          rw [hx, List.length_cons] at this
          exact List.length_eq_zero_iff.1 (by omega)
        rw [hx] at h
        obtain ⟨rfl, hxs⟩ : y = x ∧ xs.flatMap g = xs := by simpa using h
        exact ⟨rfl, ih.1 hxs⟩
    · rintro ⟨hx, hxs⟩
      rw [hx, ih.2 hxs, List.singleton_append]

end Common
