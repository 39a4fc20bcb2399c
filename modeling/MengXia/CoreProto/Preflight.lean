import MengXia.Common.Proto
import MengXia.Common.Txn
import Mathlib.Data.List.Infix
import Mathlib.Logic.Relation
/-!
# The wire preflight of the core protocol

`preflight` walks a message before it is decoded, with a stack of the
messages it is inside of. Which fields hold messages is said by a table. What
it accepts is a grammar: fields written one after the other, where the fields
that hold messages hold such a sequence again, to a depth that is limited.
-/

namespace MengXia.CoreProto

open Common

variable {rest : List UInt8} {offset' left : ℕ} {word : UInt64}

/-- `DecodeDepth`. -/
structure DecodeDepth where
  value : ℕ
  minimum : 1 ≤ value
  maximum : value ≤ 64

/-- `WirePreflightError`, but for the error of the limit's constructor; an
index out of its range would be a panic. -/
inductive WirePreflightError where
  | depthExceeded
  | malformed
  | outOfBounds
  deriving DecidableEq

/-- `ScanFrame`. -/
structure ScanFrame (Kind : Type) where
  bytes : List UInt8
  offset : ℕ
  kind : Kind

/-! ## Varints of least width -/

/-- The loop of `read_varint` with so many turns left, from an offset on and
with the value of the digits before. -/
def readVarintFrom (bytes : List UInt8) :
    ℕ → ℕ → UInt64 → Except WirePreflightError (UInt64 × ℕ)
  | 0, _, _ => .error .malformed
  | left + 1, offset, value =>
    match bytes[offset]? with
    | none => .error .malformed
    | some byte =>
      let shift := 7 * (9 - left)
      if shift = 63 ∧ 1 < byte then .error .malformed
      else
        let value := addDigit value byte shift
        if byte &&& 0x80 = 0 then
          if shift ≠ 0 ∧ byte = 0 then .error .malformed else .ok (value, offset + 1)
        else readVarintFrom bytes left (offset + 1) value

/-- `read_varint`: the value and the offset behind it. -/
def readVarint (bytes : List UInt8) (offset : ℕ) : Except WirePreflightError (UInt64 × ℕ) :=
  readVarintFrom bytes 10 offset 0

theorem drop_of_getElem? {bytes : List UInt8} {offset : ℕ} {byte : UInt8}
    (h : bytes[offset]? = some byte) : bytes.drop offset = byte :: bytes.drop (offset + 1) := by
  obtain ⟨hlt, rfl⟩ := List.getElem?_eq_some_iff.1 h
  exact List.drop_eq_getElem_cons hlt

/-- The first digit of a varint at the beginning of some bytes. -/
theorem encodeVarintFrom_prefix_cons {m : ℕ} {byte : UInt8} :
    encodeVarintFrom (left + 1) m <+: byte :: rest ↔
      m < 128 ∧ byte.toNat = m ∨
      128 ≤ m ∧ byte.toNat = m % 128 + 128 ∧ encodeVarintFrom left (m / 128) <+: rest := by
  have hofNat : ∀ n, n < 256 → (UInt8.ofNat n = byte ↔ byte.toNat = n) := by
    intro n hn
    constructor
    · rintro rfl
      exact toNat_ofNat_of_lt hn
    · rintro rfl
      exact UInt8.ofNat_toNat
  rw [encodeVarintFrom]
  split
  · rename_i hsmall
    rw [List.cons_prefix_cons, hofNat m (by omega)]
    constructor
    · rintro ⟨hbyte, -⟩
      exact .inl ⟨hsmall, hbyte⟩
    · rintro (⟨-, hbyte⟩ | ⟨hlarge, -⟩)
      · exact ⟨hbyte, List.nil_prefix⟩
      · omega
  · rename_i hlarge
    rw [List.cons_prefix_cons, hofNat _ (by omega)]
    constructor
    · rintro ⟨hbyte, hrest⟩
      exact .inr ⟨by omega, hbyte, hrest⟩
    · rintro (⟨hsmall, -⟩ | ⟨-, hbyte, hrest⟩)
      · omega
      · exact ⟨hbyte, hrest⟩

/-- The loop reads the digits that are left, of a number that is not zero
unless they are all. -/
theorem readVarintFrom_eq_ok {bytes : List UInt8} {index offset : ℕ} {value : UInt64}
    (hleft : left + index = 10) (hvalue : value.toNat < 2 ^ (7 * index)) :
    readVarintFrom bytes left offset value = .ok (word, offset') ↔
      ∃ m, word.toNat = value.toNat + m * 2 ^ (7 * index) ∧ m < 2 ^ (64 - 7 * index) ∧
        (0 < index → 0 < m) ∧ offset' = offset + (encodeVarintFrom left m).length ∧
        encodeVarintFrom left m <+: bytes.drop offset := by
  induction left generalizing index offset value with
  | zero =>
    obtain rfl : index = 10 := by omega
    constructor
    · intro h
      cases h
    · rintro ⟨m, -, hm, hpositive, -⟩
      have := hpositive (by decide)
      simp at hm
      omega
  | succ left ih =>
    obtain rfl : left = 9 - index := by omega
    have hindex : index ≤ 9 := by omega
    have hshift : 9 - (9 - index) = index := by omega
    rw [readVarintFrom]
    cases hbyte : bytes[offset]? with
    | none =>
      have hempty : bytes.drop offset = [] :=
        List.drop_eq_nil_iff.2 (List.getElem?_eq_none_iff.1 hbyte)
      constructor
      · intro h
        cases h
      · rintro ⟨m, -, -, -, -, hprefix⟩
        rw [hempty, List.prefix_nil, encodeVarintFrom] at hprefix
        split at hprefix <;> cases hprefix
    | some byte =>
      have hlt := byte.toNat_lt
      rw [drop_of_getElem? hbyte]
      simp only [encodeVarintFrom_prefix_cons, hshift, one_lt_iff, and_high_eq_zero_iff]
      by_cases hten : 7 * index = 63 ∧ 1 < byte.toNat
      · obtain rfl : index = 9 := by omega
        rw [if_pos hten]
        constructor
        · intro h
          cases h
        · rintro ⟨m, -, hm, -, -, hdigit⟩
          have hm : m < 2 := hm
          omega
      obtain ⟨hdigit, hbelow⟩ :=
        toNat_addDigit hindex (by omega : ¬ (index = 9 ∧ 1 < byte.toNat)) hvalue
      rw [if_neg hten]
      by_cases hlast : byte.toNat < 128
      · -- The last digit, which is not zero unless it is the first.
        have hzero : byte = 0 ↔ byte.toNat = 0 := UInt8.toNat_inj.symm
        rw [Nat.mod_eq_of_lt hlast] at hdigit
        rw [if_pos hlast]
        by_cases hcanonical : 7 * index ≠ 0 ∧ byte = 0
        · rw [if_pos hcanonical]
          rw [hzero] at hcanonical
          constructor
          · intro h
            cases h
          · rintro ⟨m, -, -, hpositive, -, hdigit⟩
            have := hpositive (by omega)
            omega
        · rw [if_neg hcanonical]
          rw [hzero] at hcanonical
          have hpow : byte.toNat < 2 ^ (64 - 7 * index) := by
            by_cases h9 : index = 9
            · subst h9
              omega
            · calc byte.toNat < 2 ^ 7 := hlast
                _ ≤ 2 ^ (64 - 7 * index) := Nat.pow_le_pow_right (by decide) (by omega)
          have hlength : (encodeVarintFrom (9 - index + 1) byte.toNat).length = 1 := by
            rw [encodeVarintFrom, if_pos hlast]
            rfl
          constructor
          · intro h
            cases h
            exact ⟨byte.toNat, hdigit, hpow, by omega, by rw [hlength], .inl ⟨hlast, rfl⟩⟩
          · rintro ⟨m, hword, -, -, rfl, hfirst⟩
            obtain rfl : byte.toNat = m := by omega
            rw [hlength, UInt64.toNat_inj.1 (hword.trans hdigit.symm)]
      · have h9 : index ≠ 9 := by
          rintro rfl
          exact hten ⟨rfl, by omega⟩
        have hmore : 9 - index = (9 - index - 1) + 1 := by omega
        have hpow : 2 ^ (7 * (index + 1)) = 2 ^ (7 * index) * 128 := by
          rw [Nat.mul_add, Nat.pow_add]
        have hbound : 2 ^ (64 - 7 * index) = 128 * 2 ^ (64 - 7 * (index + 1)) := by
          rw [← Nat.pow_add 2 7]
          congr 1
          omega
        rw [if_neg hlast, ih (by omega : 9 - index + (index + 1) = 10) hbelow, hdigit]
        constructor
        · rintro ⟨m, hword, hm, hpositive, rfl, hprefix⟩
          have hpositive := hpositive (Nat.succ_pos _)
          have hdiv : (byte.toNat % 128 + 128 * m) / 128 = m := by omega
          have hmod : (byte.toNat % 128 + 128 * m) % 128 + 128 = byte.toNat := by omega
          refine ⟨byte.toNat % 128 + 128 * m, ?_, ?_, fun _ => by omega, ?_,
            .inr ⟨by omega, hmod.symm, by rwa [hdiv]⟩⟩
          · rw [hword, hpow]
            ring
          · rw [hbound]
            omega
          · rw [encodeVarintFrom, if_neg (by omega), hdiv, List.length_cons]
            omega
        · rintro ⟨m, hword, hm, hpositive, rfl, hdigits⟩
          obtain ⟨hlarge, hfirst, hprefix⟩ : 128 ≤ m ∧ byte.toNat = m % 128 + 128 ∧
              encodeVarintFrom (9 - index) (m / 128) <+: bytes.drop (offset + 1) := by
            rcases hdigits with hdigits | hdigits
            · omega
            · exact hdigits
          refine ⟨m / 128, ?_, ?_, fun _ => by omega, ?_, hprefix⟩
          · have hmod : byte.toNat % 128 = m % 128 := by omega
            rw [hword, hpow, hmod]
            conv_lhs => rw [← Nat.mod_add_div m 128]
            ring
          · rw [hbound] at hm
            omega
          · rw [encodeVarintFrom, if_neg (by omega), List.length_cons]
            omega

/-- **The varints that are read** are those the encoder writes. -/
theorem readVarint_eq_ok {bytes : List UInt8} {offset : ℕ} :
    readVarint bytes offset = .ok (word, offset') ↔
      offset' = offset + (encodeVarint word.toNat).length ∧
        encodeVarint word.toNat <+: bytes.drop offset := by
  rw [readVarint, readVarintFrom_eq_ok (rfl : 10 + 0 = 10) (by decide)]
  constructor
  · rintro ⟨m, hword, -, -, hoffset, hprefix⟩
    obtain rfl : word.toNat = m := by simpa using hword
    exact ⟨hoffset, hprefix⟩
  · rintro ⟨hoffset, hprefix⟩
    exact ⟨word.toNat, by simp, word.toNat_lt, fun h => absurd h (Nat.lt_irrefl 0), hoffset,
      hprefix⟩

/-! ## The scan -/

section Scan

variable {Kind : Type}

variable {pre : List UInt8} {levels width : ℕ} {kind : Kind} {f : RawField}
  {error : WirePreflightError} {stack : List (ScanFrame Kind)}

/-- `skip_fixed`: the offset behind so many bytes. -/
def skipFixed (bytes : List UInt8) (offset width : ℕ) : Except WirePreflightError ℕ :=
  if offset + width ≤ bytes.length then .ok (offset + width) else .error .malformed

/-- `&bytes[start..end]`. -/
def slice (bytes : List UInt8) (start stop : ℕ) : Except WirePreflightError (List UInt8) :=
  if start ≤ stop ∧ stop ≤ bytes.length then .ok ((bytes.drop start).take (stop - start))
  else .error .outOfBounds

variable (embedded : Kind → ℕ → Option Kind)

/-- One field of the message on top: the offset behind it and, if the table
maps it to a message, the kind and the span of its content. -/
def scanField (frame : ScanFrame Kind) :
    Except WirePreflightError (ℕ × Option (Kind × ℕ × ℕ)) := do
  let (tag, offset) ← readVarint frame.bytes frame.offset
  let number := tag.toNat / 8
  let wire := tag.toNat % 8
  if number = 0 ∨ wire = 3 ∨ wire = 4 then .error .malformed
  else
    match wire with
    | 0 => do
      let (_, offset) ← readVarint frame.bytes offset
      .ok (offset, none)
    | 1 => do
      let offset ← skipFixed frame.bytes offset 8
      .ok (offset, none)
    | 2 => do
      let (length, start) ← readVarint frame.bytes offset
      let stop := start + length.toNat
      if frame.bytes.length < stop then .error .malformed
      else .ok (stop, (embedded frame.kind number).map fun kind => (kind, start, stop))
    | 5 => do
      let offset ← skipFixed frame.bytes offset 4
      .ok (offset, none)
    | _ => .error .malformed

/-- One turn of the loop of `preflight`: the stack after it, top first. -/
def scanStep (limit : DecodeDepth) (frame : ScanFrame Kind) (below : List (ScanFrame Kind)) :
    Except WirePreflightError (List (ScanFrame Kind)) :=
  if frame.offset = frame.bytes.length then .ok below
  else do
    let (offset, child) ← scanField embedded frame
    match child with
    | none => .ok ({ frame with offset } :: below)
    | some (kind, start, stop) =>
      if limit.value ≤ below.length + 1 then .error .depthExceeded
      -- The stack is an array of `MAX_DECODE_DEPTH` frames.
      else if 64 ≤ below.length + 1 then .error .outOfBounds
      else do
        let bytes ← slice frame.bytes start stop
        .ok (⟨bytes, 0, kind⟩ :: { frame with offset } :: below)

/-- The loop of `preflight`, if it ends within so many turns. -/
def scanLoop (limit : DecodeDepth) :
    ℕ → List (ScanFrame Kind) → Option (Except WirePreflightError Unit)
  | _, [] => some (.ok ())
  | 0, _ :: _ => none
  | turns + 1, frame :: below =>
    match scanStep embedded limit frame below with
    | .error error => some (.error error)
    | .ok stack => scanLoop limit turns stack

/-- `preflight`, if it ends within so many turns. -/
def preflight (payload : List UInt8) (root : Kind) (limit : DecodeDepth) (turns : ℕ) :
    Option (Except WirePreflightError Unit) :=
  scanLoop embedded limit turns [⟨payload, 0, root⟩]

/-! ## The grammar -/

/-- **The grammar of messages** nested to at most so many levels: fields one
after the other, where the table's messages are such sequences again. -/
def WellFormed : ℕ → Kind → List UInt8 → Prop
  | 0, _, _ => False
  | levels + 1, kind, input =>
    ∃ fields : List RawField, input = encodeFields fields ∧ ∀ f ∈ fields, f.Fits ∧
      ∀ content child, f.value = .bytes content → embedded kind f.number = some child →
        WellFormed levels child content

variable {embedded}

theorem wellFormed_nil :
    WellFormed embedded (levels + 1) kind [] :=
  ⟨[], rfl, fun _ h => absurd h List.not_mem_nil⟩

/-- A message that begins with a field. -/
theorem wellFormed_cons (hf : f.Fits) :
    WellFormed embedded (levels + 1) kind (f.encode ++ rest) ↔
      (∀ content child, f.value = .bytes content → embedded kind f.number = some child →
        WellFormed embedded levels child content) ∧
      WellFormed embedded (levels + 1) kind rest := by
  constructor
  · rintro ⟨fields, hinput, hfields⟩
    cases fields with
    | nil =>
      have hlength := congrArg List.length hinput
      have hpositive := f.length_encode_pos
      rw [List.length_append, encodeFields, List.flatMap_nil, List.length_nil] at hlength
      omega
    | cons g fields =>
      obtain ⟨hhead, htail⟩ := List.forall_mem_cons.1 hfields
      rw [encodeFields, List.flatMap_cons] at hinput
      obtain ⟨rfl, rfl⟩ := RawField.encode_append_inj hf hhead.1 hinput
      exact ⟨hhead.2, fields, rfl, htail⟩
  · rintro ⟨hhead, fields, rfl, htail⟩
    exact ⟨f :: fields, rfl, List.forall_mem_cons.2 ⟨⟨hf, hhead⟩, htail⟩⟩

/-- A message that is not empty begins with a field. -/
theorem WellFormed.exists_field {input : List UInt8} (h : WellFormed embedded levels kind input)
    (hne : input ≠ []) :
    ∃ (f : RawField) (rest : List UInt8), f.Fits ∧ input = f.encode ++ rest := by
  cases levels with
  | zero => exact h.elim
  | succ levels =>
    obtain ⟨fields, rfl, hfields⟩ := h
    cases fields with
    | nil => exact absurd rfl hne
    | cons f fields => exact ⟨f, _, (hfields f List.mem_cons_self).1, rfl⟩

/-! ## One field -/

/-- What a field of some message leads the scan to. -/
def childSpan (embedded : Kind → ℕ → Option Kind) (kind : Kind) (stop : ℕ) (f : RawField) :
    Option (Kind × ℕ × ℕ) :=
  match f.value with
  | .bytes content => (embedded kind f.number).map fun child => (child, stop - content.length, stop)
  | _ => none

theorem drop_add_length {bytes : List UInt8} {offset : ℕ} (h : bytes.drop offset = pre ++ rest) :
    bytes.drop (offset + pre.length) = rest := by
  rw [← List.drop_drop, h, List.drop_left]

theorem add_length_le {bytes : List UInt8} {offset : ℕ} (h : bytes.drop offset = pre ++ rest)
    (hne : pre ≠ []) :
    offset + pre.length + rest.length = bytes.length := by
  have hlength := congrArg List.length h
  have hpositive := List.length_pos_of_ne_nil hne
  rw [List.length_drop, List.length_append] at hlength
  omega

theorem encodeVarint_ne_nil (n : ℕ) : encodeVarint n ≠ [] :=
  List.ne_nil_of_length_pos (length_encodeVarint_pos n)

/-- A varint that stands at the offset is read. -/
theorem readVarint_append {bytes : List UInt8} {offset v : ℕ} (hv : v < 2 ^ 64)
    (h : bytes.drop offset = encodeVarint v ++ rest) :
    ∃ word : UInt64, word.toNat = v ∧
      readVarint bytes offset = .ok (word, offset + (encodeVarint v).length) := by
  have hword := UInt64.toNat_ofNat_of_lt' hv
  refine ⟨UInt64.ofNat v, hword, readVarint_eq_ok.2 ?_⟩
  rw [hword, h]
  exact ⟨rfl, List.prefix_append _ _⟩

/-- What is read is a varint that stands at the offset. -/
theorem exists_of_readVarint {bytes : List UInt8} {offset : ℕ}
    (h : readVarint bytes offset = .ok (word, offset')) :
    offset' = offset + (encodeVarint word.toNat).length ∧
      bytes.drop offset = encodeVarint word.toNat ++ bytes.drop offset' := by
  obtain ⟨rfl, rest, hrest⟩ := readVarint_eq_ok.1 h
  exact ⟨rfl, by rw [drop_add_length hrest.symm, hrest]⟩

theorem skipFixed_append {bytes : List UInt8} {offset : ℕ} (h : bytes.drop offset = pre ++ rest)
    (hwidth : pre.length = width) (hpositive : 0 < width) :
    skipFixed bytes offset width = .ok (offset + width) := by
  have hlength := add_length_le h (List.ne_nil_of_length_pos (hwidth ▸ hpositive))
  exact if_pos (by omega)

theorem exists_of_skipFixed {bytes : List UInt8} {offset : ℕ}
    (h : skipFixed bytes offset width = .ok offset') :
    offset' = offset + width ∧
      ∃ n < 256 ^ width, bytes.drop offset = leBytes width n ++ bytes.drop offset' := by
  unfold skipFixed at h
  obtain ⟨hle, h⟩ := requirement_eq_ok.1 h
  cases h
  have hread : readFixed width (bytes.drop offset) =
      some (ofBeBytes ((bytes.drop offset).take width).reverse,
        (bytes.drop offset).drop width) := if_neg (by rw [List.length_drop]; omega)
  obtain ⟨hbytes, hlt⟩ := readFixed_eq_some hread
  rw [List.drop_drop] at hbytes
  exact ⟨rfl, _, hlt, hbytes⟩

/-- **A field that stands at the offset** is read, and the scan goes on behind
it. -/
theorem scanField_encode {frame : ScanFrame Kind} (hf : f.Fits)
    (hrest : frame.bytes.drop frame.offset = f.encode ++ rest) :
    scanField embedded frame = .ok (frame.offset + f.encode.length,
      childSpan embedded frame.kind (frame.offset + f.encode.length) f) := by
  have hlength : f.encode.length = (encodeVarint f.key).length + f.value.payload.length := by
    rw [RawField.encode, List.length_append]
  rw [RawField.encode, List.append_assoc] at hrest
  have hbehind := drop_add_length hrest
  have hpositive := hf.positive
  obtain ⟨tag, htag, hread⟩ := readVarint_append hf.key hrest
  unfold scanField
  rw [hread]
  simp only [bind, Except.bind, htag, f.key_div, f.key_mod]
  rw [if_neg (by cases f.value <;> simp [WireValue.wire] <;> omega), hlength, ← Nat.add_assoc]
  obtain ⟨number, value⟩ := f
  cases value with
  | varint n =>
    simp only [WireValue.wire, WireValue.payload, childSpan] at hbehind ⊢
    obtain ⟨word, -, hread⟩ := readVarint_append hf.value hbehind
    rw [hread]
  | fixed64 n | fixed32 n =>
    simp only [WireValue.wire, WireValue.payload, childSpan] at hbehind ⊢
    rw [skipFixed_append hbehind (length_leBytes ..) (by decide), length_leBytes]
  | bytes content =>
    simp only [WireValue.wire, WireValue.payload, childSpan] at hbehind ⊢
    rw [List.append_assoc] at hbehind
    have hfits := add_length_le hbehind (encodeVarint_ne_nil _)
    obtain ⟨length, hcontent, hread⟩ := readVarint_append hf.value hbehind
    rw [hread]
    simp only [hcontent]
    rw [List.length_append] at hfits ⊢
    rw [if_neg (by omega), ← Nat.add_assoc, Nat.add_sub_cancel]

/-- What is read is a field. -/
theorem exists_of_scanField {frame : ScanFrame Kind} {result : ℕ × Option (Kind × ℕ × ℕ)}
    (h : scanField embedded frame = .ok result) :
    ∃ (f : RawField) (rest : List UInt8), f.Fits ∧
      frame.bytes.drop frame.offset = f.encode ++ rest := by
  obtain ⟨⟨tag, offset⟩, htag, h⟩ := exceptBind_eq_ok.1 h
  obtain ⟨rfl, htag⟩ := exists_of_readVarint htag
  obtain ⟨hnumber, h⟩ := refusal_eq_ok.1 h
  -- Each wire type leaves a value whose bytes follow the tag.
  have hfield : ∀ (value : WireValue) (rest : List UInt8), value.wire = tag.toNat % 8 →
      value.InRange → frame.bytes.drop (frame.offset + (encodeVarint tag.toNat).length) =
        value.payload ++ rest →
      ∃ (f : RawField) (rest : List UInt8), f.Fits ∧
        frame.bytes.drop frame.offset = f.encode ++ rest := by
    intro value rest hwire hrange hvalue
    have hkey : RawField.key ⟨tag.toNat / 8, value⟩ = tag.toNat := by
      simp only [RawField.key, hwire]
      omega
    refine ⟨⟨tag.toNat / 8, value⟩, rest, ⟨Nat.pos_of_ne_zero fun hzero => hnumber (.inl hzero),
      hkey.symm ▸ tag.toNat_lt, hrange⟩, ?_⟩
    rw [htag, hvalue, RawField.encode, hkey, List.append_assoc]
  split at h
  · rename_i hwire
    obtain ⟨⟨n, offset⟩, hread, -⟩ := exceptBind_eq_ok.1 h
    exact hfield (.varint n.toNat) _ hwire.symm n.toNat_lt (exists_of_readVarint hread).2
  · rename_i hwire
    obtain ⟨offset, hread, -⟩ := exceptBind_eq_ok.1 h
    obtain ⟨-, n, hn, hbytes⟩ := exists_of_skipFixed hread
    exact hfield (.fixed64 n) _ hwire.symm hn hbytes
  · rename_i hwire
    obtain ⟨⟨length, start⟩, hread, h⟩ := exceptBind_eq_ok.1 h
    have hbytes := (exists_of_readVarint hread).2
    obtain ⟨hfits, -⟩ := refusal_eq_ok.1 h
    have htake : ((frame.bytes.drop start).take length.toNat).length = length.toNat := by
      rw [List.length_take, List.length_drop]
      omega
    refine hfield (.bytes ((frame.bytes.drop start).take length.toNat))
      ((frame.bytes.drop start).drop length.toNat) hwire.symm ?_ ?_
    · rw [WireValue.InRange, htake]
      exact length.toNat_lt
    · rw [WireValue.payload, htake, List.append_assoc, List.take_append_drop, hbytes]
  · rename_i hwire
    obtain ⟨offset, hread, -⟩ := exceptBind_eq_ok.1 h
    obtain ⟨-, n, hn, hbytes⟩ := exists_of_skipFixed hread
    exact hfield (.fixed32 n) _ hwire.symm hn hbytes
  · cases h

/-! ## The stack -/

/-- The stack keeps within its limit, and every frame within the payload. -/
structure Stacked (payload : List UInt8) (limit : DecodeDepth) (stack : List (ScanFrame Kind)) :
    Prop where
  depth : stack.length ≤ limit.value
  within : ∀ frame ∈ stack, frame.bytes <:+: payload ∧ frame.offset ≤ frame.bytes.length

/-- What is left of every message on the stack is well formed, for the levels
it may still use. -/
def Pending (embedded : Kind → ℕ → Option Kind) (limit : DecodeDepth) :
    List (ScanFrame Kind) → Prop
  | [] => True
  | frame :: below =>
    WellFormed embedded (limit.value - below.length) frame.kind
      (frame.bytes.drop frame.offset) ∧ Pending embedded limit below

/-- The turns that a stack can still take: two for every byte that is left,
one for every message. -/
def turnsLeft : List (ScanFrame Kind) → ℕ
  | [] => 0
  | frame :: below => 2 * (frame.bytes.length - frame.offset) + 1 + turnsLeft below

/-- What one turn of the loop does. -/
inductive Turn (embedded : Kind → ℕ → Option Kind) (payload : List UInt8) (limit : DecodeDepth)
    (stack : List (ScanFrame Kind)) :
    Except WirePreflightError (List (ScanFrame Kind)) → Prop where
  | goes {stack' : List (ScanFrame Kind)} (stacked : Stacked payload limit stack')
      (fewer : turnsLeft stack' < turnsLeft stack)
      (pending : Pending embedded limit stack ↔ Pending embedded limit stack') :
    Turn embedded payload limit stack (.ok stack')
  | fails {error : WirePreflightError} (bounds : error ≠ .outOfBounds)
      (refused : ¬Pending embedded limit stack) : Turn embedded payload limit stack (.error error)

variable {payload : List UInt8} {limit : DecodeDepth} {frame : ScanFrame Kind}
  {below : List (ScanFrame Kind)}

/-- The content of a field stands at its end. -/
theorem exists_encode_bytes (number : ℕ) (content : List UInt8) :
    ∃ pre ≠ [], RawField.encode ⟨number, .bytes content⟩ = pre ++ content := by
  refine ⟨_, ?_, (List.append_assoc _ _ _).symm⟩
  simp [encodeVarint_ne_nil]

theorem slice_content {bytes content : List UInt8} {offset : ℕ}
    (h : bytes.drop offset = pre ++ (content ++ rest)) (hne : pre ≠ []) :
    slice bytes (offset + pre.length) (offset + pre.length + content.length) = .ok content := by
  have hlength := add_length_le h hne
  rw [List.length_append] at hlength
  rw [slice, if_pos (by omega), drop_add_length h, Nat.add_sub_cancel_left, List.take_left]

/-- The turn of a message that is read to its end. -/
theorem turn_pop (h : Stacked payload limit (frame :: below))
    (hend : frame.offset = frame.bytes.length) :
    Turn embedded payload limit (frame :: below) (scanStep embedded limit frame below) := by
  have hdepth := h.depth
  rw [List.length_cons] at hdepth
  rw [scanStep, if_pos hend]
  refine .goes ⟨by omega, fun other hother => h.within other (List.mem_cons_of_mem _ hother)⟩ ?_ ?_
  · simp only [turnsLeft]
    omega
  · obtain ⟨levels, hlevels⟩ : ∃ levels, limit.value - below.length = levels + 1 :=
      ⟨limit.value - below.length - 1, by omega⟩
    rw [Pending, hlevels, hend, List.drop_length]
    exact and_iff_right wellFormed_nil

theorem onlyFails_readVarintFrom {bytes : List UInt8} {offset : ℕ} {value : UInt64} :
    OnlyFails .malformed (readVarintFrom bytes left offset value) := by
  induction left generalizing offset value with
  | zero => exact .error
  | succ left ih =>
    rw [readVarintFrom]
    split
    · exact .error
    · exact .ite .error (.ite (.ite .error .ok) ih)

theorem onlyFails_scanField : OnlyFails .malformed (scanField embedded frame) := by
  refine .bind onlyFails_readVarintFrom fun _ => .ite .error ?_
  split
  · exact .bind onlyFails_readVarintFrom fun _ => .ok
  · exact .bind (.ite .ok .error) fun _ => .ok
  · exact .bind onlyFails_readVarintFrom fun _ => .ite .error .ok
  · exact .bind (.ite .ok .error) fun _ => .ok
  · exact .error

/-- The frame behind a field. -/
theorem Stacked.advance (h : Stacked payload limit (frame :: below))
    (hrest : frame.bytes.drop frame.offset = f.encode ++ rest) :
    Stacked payload limit ({ frame with offset := frame.offset + f.encode.length } :: below) := by
  have hlength := add_length_le hrest (List.ne_nil_of_length_pos f.length_encode_pos)
  obtain ⟨hframe, hbelow⟩ := List.forall_mem_cons.1 h.within
  exact ⟨h.depth, List.forall_mem_cons.2 ⟨⟨hframe.1, by simp only; omega⟩, hbelow⟩⟩

/-- **The turn of a field.** -/
theorem turn_field (h : Stacked payload limit (frame :: below))
    (hmore : frame.offset ≠ frame.bytes.length) :
    Turn embedded payload limit (frame :: below) (scanStep embedded limit frame below) := by
  have hdepth := h.depth
  rw [List.length_cons] at hdepth
  have hmaximum := limit.maximum
  have hoffset := (h.within frame List.mem_cons_self).2
  have hne : frame.bytes.drop frame.offset ≠ [] := by
    rw [Ne, List.drop_eq_nil_iff]
    omega
  obtain ⟨levels, hlevels⟩ : ∃ levels, limit.value - below.length = levels + 1 :=
    ⟨limit.value - below.length - 1, by omega⟩
  rw [scanStep, if_neg hmore]
  cases hscan : scanField embedded frame with
  | error error =>
    refine .fails ?_ ?_
    · rw [onlyFails_scanField error hscan]
      decide
    · rintro ⟨hwell, -⟩
      obtain ⟨f, rest, hf, hrest⟩ := hwell.exists_field hne
      rw [scanField_encode hf hrest] at hscan
      cases hscan
  | ok result =>
    obtain ⟨f, rest, hf, hrest⟩ := exists_of_scanField hscan
    have hpositive := f.length_encode_pos
    have hlength := add_length_le hrest (List.ne_nil_of_length_pos hpositive)
    rw [scanField_encode hf hrest] at hscan
    obtain rfl := Except.ok.inj hscan
    have hbehind := drop_add_length hrest
    simp only [bind, Except.bind]
    cases hchild : childSpan embedded frame.kind (frame.offset + f.encode.length) f with
    | none =>
      -- No message inside: the scan goes on behind the field.
      refine .goes (h.advance hrest) ?_ ?_
      · simp only [turnsLeft]
        omega
      · simp only [Pending, hrest, hbehind, hlevels, wellFormed_cons hf]
        refine and_congr_left' (and_iff_right fun content child hvalue hembedded => ?_)
        rw [childSpan, hvalue] at hchild
        simp only [hembedded, Option.map_some] at hchild
        cases hchild
    | some span =>
      obtain ⟨number, value⟩ := f
      cases value with
      | bytes content =>
        obtain ⟨child, hembedded, rfl⟩ : ∃ child, embedded frame.kind number = some child ∧
            (child, frame.offset + (RawField.encode ⟨number, .bytes content⟩).length -
              content.length, frame.offset + (RawField.encode ⟨number, .bytes content⟩).length) =
                span := by
          simpa [childSpan] using hchild
        have hpending : Pending embedded limit (frame :: below) ↔
            WellFormed embedded levels child content ∧ WellFormed embedded (levels + 1) frame.kind
              rest ∧ Pending embedded limit below := by
          simp only [Pending, hrest, hlevels, wellFormed_cons hf, and_assoc]
          refine and_congr_left' ?_
          simp only [WireValue.bytes.injEq, hembedded, Option.some.injEq]
          exact ⟨fun h => h content child rfl rfl, fun h _ _ hc hk => hc ▸ hk ▸ h⟩
        simp only
        by_cases hdeep : limit.value ≤ below.length + 1
        · rw [if_pos hdeep]
          obtain rfl : levels = 0 := by omega
          exact .fails (by decide) fun hp => (hpending.1 hp).1
        · rw [if_neg hdeep, if_neg (by omega)]
          have hadvance := h.advance hrest
          obtain ⟨pre, hpre, hencode⟩ := exists_encode_bytes number content
          have hprefix := List.length_pos_of_ne_nil hpre
          rw [hencode, List.append_assoc] at hrest
          rw [hencode, List.length_append, ← Nat.add_assoc] at hadvance hlength hbehind ⊢
          rw [Nat.add_sub_cancel, slice_content hrest hpre]
          refine .goes ⟨?_, List.forall_mem_cons.2 ⟨⟨?_, Nat.zero_le _⟩, hadvance.within⟩⟩ ?_ ?_
          · simp only [List.length_cons]
            omega
          · refine List.IsInfix.trans ?_ (h.within frame List.mem_cons_self).1
            refine List.IsInfix.trans ?_ (List.drop_suffix frame.offset frame.bytes).isInfix
            exact ⟨pre, rest, by rw [hrest, List.append_assoc]⟩
          · simp only [turnsLeft]
            omega
          · have hbelow : limit.value - (below.length + 1) = levels := by omega
            simp only [Pending, List.length_cons, List.drop_zero, hbelow, hlevels, hbehind]
              at hpending ⊢
            exact hpending
      | varint _ | fixed64 _ | fixed32 _ => cases hchild

/-- **Every turn keeps the stack in its bounds** and brings the scan closer to
its end; it fails only where something on the stack is not well formed. -/
theorem turn (h : Stacked payload limit (frame :: below)) :
    Turn embedded payload limit (frame :: below) (scanStep embedded limit frame below) := by
  by_cases hend : frame.offset = frame.bytes.length
  · exact turn_pop h hend
  · exact turn_field h hend

/-- The loop from a stack on. -/
theorem scanLoop_spec {turns : ℕ} (h : Stacked payload limit stack)
    (hturns : turnsLeft stack ≤ turns) :
    ∃ result, scanLoop embedded limit turns stack = some result ∧
      (result = .ok () ↔ Pending embedded limit stack) ∧ result ≠ .error .outOfBounds := by
  induction turns generalizing stack with
  | zero =>
    cases stack with
    | nil => exact ⟨.ok (), rfl, iff_of_true rfl trivial, fun h => by cases h⟩
    | cons frame below =>
      rw [turnsLeft] at hturns
      omega
  | succ turns ih =>
    cases stack with
    | nil => exact ⟨.ok (), rfl, iff_of_true rfl trivial, fun h => by cases h⟩
    | cons frame below =>
      have hturn : Turn embedded payload limit (frame :: below) _ := turn h
      generalize hresult : scanStep embedded limit frame below = result at hturn
      rw [scanLoop, hresult]
      cases hturn with
      | goes stacked fewer pending =>
        rw [pending]
        exact ih stacked (by omega)
      | fails bounds refused =>
        exact ⟨_, rfl, iff_of_false (fun h => by cases h) refused,
          fun h => bounds (Except.error.inj h)⟩

theorem scanLoop_mono {turns more : ℕ} {result : Except WirePreflightError Unit}
    (h : scanLoop embedded limit turns stack = some result) (hle : turns ≤ more) :
    scanLoop embedded limit more stack = some result := by
  induction turns generalizing stack more with
  | zero =>
    cases stack with
    | nil =>
      rw [scanLoop] at h ⊢
      exact h
    | cons frame below => cases h
  | succ turns ih =>
    cases stack with
    | nil =>
      rw [scanLoop] at h ⊢
      exact h
    | cons frame below =>
      obtain ⟨more, rfl⟩ := Nat.exists_eq_succ_of_ne_zero (by omega : more ≠ 0)
      rw [scanLoop] at h ⊢
      cases hstep : scanStep embedded limit frame below with
      | error error =>
        rw [hstep] at h
        exact h
      | ok stack =>
        rw [hstep] at h
        exact ih h (by omega)

/-- The stack before and after a turn. -/
def Scans (embedded : Kind → ℕ → Option Kind) (limit : DecodeDepth)
    (stack stack' : List (ScanFrame Kind)) : Prop :=
  ∃ frame below, stack = frame :: below ∧ scanStep embedded limit frame below = .ok stack'

theorem stacked_start (payload : List UInt8) (root : Kind) (limit : DecodeDepth) :
    Stacked payload limit [⟨payload, 0, root⟩] := by
  refine ⟨limit.minimum, fun frame hframe => ?_⟩
  rw [List.mem_singleton.1 hframe]
  exact ⟨List.infix_rfl, Nat.zero_le _⟩

theorem stacked_of_scans {stack' : List (ScanFrame Kind)}
    (h : Relation.ReflTransGen (Scans embedded limit) stack stack')
    (hstack : Stacked payload limit stack) : Stacked payload limit stack' := by
  induction h with
  | refl => exact hstack
  | tail _ hscan ih =>
    obtain ⟨frame, below, rfl, hstep⟩ := hscan
    have hturn : Turn embedded payload limit (frame :: below) _ := turn ih
    rw [hstep] at hturn
    cases hturn with
    | goes stacked fewer pending => exact stacked

/-- **The preflight recognises its grammar.** For any table of embedded
messages it ends within two turns for every byte and one more, its answer is
`Ok` exactly for the well-formed messages of at most the limited depth, and
on the way its stack never exceeds the limit nor an offset its message, which
is a part of the payload. -/
theorem preflight_recognises (embedded : Kind → ℕ → Option Kind) (payload : List UInt8)
    (root : Kind) (limit : DecodeDepth) :
    (∃ result, (∀ turns, 2 * payload.length + 1 ≤ turns →
        preflight embedded payload root limit turns = some result) ∧
      (result = .ok () ↔ WellFormed embedded limit.value root payload) ∧
      result ≠ .error .outOfBounds) ∧
    ∀ stack, Relation.ReflTransGen (Scans embedded limit) [⟨payload, 0, root⟩] stack →
      stack.length ≤ limit.value ∧
      ∀ frame ∈ stack, frame.bytes <:+: payload ∧ frame.offset ≤ frame.bytes.length := by
  refine ⟨?_, fun stack hscans => ?_⟩
  · obtain ⟨result, hloop, haccepts, hbounds⟩ : ∃ result,
        scanLoop embedded limit (turnsLeft [⟨payload, 0, root⟩]) [⟨payload, 0, root⟩] =
          some result ∧
        (result = .ok () ↔ Pending embedded limit [⟨payload, 0, root⟩]) ∧
        result ≠ .error .outOfBounds :=
      scanLoop_spec (stacked_start payload root limit) le_rfl
    refine ⟨result, fun turns hturns => scanLoop_mono hloop ?_, ?_, hbounds⟩
    · simpa [turnsLeft] using hturns
    · simpa [Pending] using haccepts
  · have hstacked := stacked_of_scans hscans (stacked_start payload root limit)
    exact ⟨hstacked.depth, hstacked.within⟩

/-- A message with a number inside a message. -/
theorem nested_message_recognised :
    preflight (fun _ _ => some ()) [0x0a, 0x02, 0x08, 0x01] () ⟨2, by decide, by decide⟩ 9 =
        some (.ok ()) ∧
      WellFormed (fun _ _ => some ()) 2 () [0x0a, 0x02, 0x08, 0x01] := by
  have hok : preflight (fun _ _ => some ()) [0x0a, 0x02, 0x08, 0x01] ()
      ⟨2, by decide, by decide⟩ 9 = some (.ok ()) := by decide
  obtain ⟨result, hturns, haccepts, -⟩ := (preflight_recognises (fun _ _ => some ())
    [0x0a, 0x02, 0x08, 0x01] () ⟨2, by decide, by decide⟩).1
  have hresult : result = .ok () := Option.some.inj ((hturns 9 (by decide)).symm.trans hok)
  exact ⟨hok, haccepts.1 hresult⟩

end Scan

end MengXia.CoreProto
