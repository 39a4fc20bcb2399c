import MengXia.CoreProto.Preflight
/-!
# The wire scanner of the plugin protocol

`wire.rs` walks a message before it is decoded and refuses every encoding
but one: fields in increasing order, none twice, no default written out,
varints of least width, at most one body. The model reads lists where the
code moves an offset. A scan that succeeds is shown to be exactly a list of
canonical fields written one after the other.
-/

namespace MengXia.PluginProto

open Common

variable {input rest : List UInt8} {number : ℕ}

/-- `ProtocolCodecError`. -/
inductive ProtocolCodecError where
  | invalidLimit
  | unknownOrReservedField
  | duplicateField
  | nonCanonicalEncoding
  | nonCanonicalVarint
  | wrongWireType
  | unsupportedGroup
  | truncated
  | depthExceeded
  | invalidSemanticValue
  | allocationUnavailable
  | invalidFrameLength
  | transport
  deriving DecidableEq

/-- `DecodeDepth`: the levels of messages, an envelope and its body at least. -/
structure DecodeDepth where
  value : ℕ
  minimum : 2 ≤ value
  maximum : value ≤ 16

/-- `DecodeDepth::new`. -/
def DecodeDepth.new (value : ℕ) : Except ProtocolCodecError DecodeDepth :=
  if h : 2 ≤ value ∧ value ≤ 16 then .ok ⟨value, h.1, h.2⟩ else .error .invalidLimit

/-- `MessageKind`. -/
inductive MessageKind where
  | hostEnvelope
  | pluginEnvelope
  | hostHello
  | pluginHello
  | pingRequest
  | pingResponse
  | shutdownRequest
  | shutdownResponse
  | pluginFailure
  deriving DecidableEq

/-- `FieldSpec`. -/
structure FieldSpec where
  wire : ℕ
  child : Option MessageKind
  oneof : Bool
  deriving DecidableEq

/-- A varint field, the wire type of the integers and enumerations. -/
def FieldSpec.varint : FieldSpec :=
  ⟨0, none, false⟩

/-- A field of the envelopes' `oneof body`. -/
def FieldSpec.body (kind : MessageKind) : FieldSpec :=
  ⟨2, some kind, true⟩

/-- `descriptor_field`, which the build derives from `control.proto`. -/
def descriptorField : MessageKind → ℕ → Option FieldSpec
  | .hostEnvelope, 1 => some .varint
  | .hostEnvelope, 2 => some (.body .hostHello)
  | .hostEnvelope, 3 => some (.body .pingRequest)
  | .hostEnvelope, 4 => some (.body .shutdownRequest)
  | .pluginEnvelope, 1 => some .varint
  | .pluginEnvelope, 2 => some (.body .pluginHello)
  | .pluginEnvelope, 3 => some (.body .pingResponse)
  | .pluginEnvelope, 4 => some (.body .shutdownResponse)
  | .pluginEnvelope, 5 => some (.body .pluginFailure)
  | .hostHello, 1 => some .varint
  | .hostHello, 2 => some .varint
  | .hostHello, 3 => some ⟨2, none, false⟩
  | .hostHello, 4 => some .varint
  | .hostHello, 5 => some .varint
  | .pluginHello, 1 => some .varint
  | .pluginHello, 2 => some .varint
  | .pluginHello, 3 => some ⟨2, none, false⟩
  | .pingRequest, 1 => some ⟨1, none, false⟩
  | .pingResponse, 1 => some ⟨1, none, false⟩
  | .pluginFailure, 1 => some .varint
  | _, _ => none

/-! ## Varints of least width -/

/-- The loop of `read_varint` with so many turns left. -/
def readVarintFrom (input : List UInt8) (start : ℕ) :
    ℕ → ℕ → UInt64 → Except ProtocolCodecError (UInt64 × ℕ)
  | 0, _, _ => .error .nonCanonicalVarint
  | left + 1, offset, value =>
    match input[offset]? with
    | none => .error .truncated
    | some byte =>
      let index := 9 - left
      if index = 9 ∧ 1 < byte then .error .nonCanonicalVarint
      else
        let value := addDigit value byte (7 * index)
        if byte &&& 0x80 = 0 then
          let width := offset + 1 - start
          if 1 < width ∧ value < 1 <<< UInt64.ofNat ((width - 1) * 7) then
            .error .nonCanonicalVarint
          else .ok (value, offset + 1)
        else readVarintFrom input start left (offset + 1) value

/-- `read_varint`: the value and the offset behind it. -/
def readVarint (input : List UInt8) (offset : ℕ) : Except ProtocolCodecError (UInt64 × ℕ) :=
  readVarintFrom input offset 10 offset 0

/-- **Both checks for a shortest encoding are one**: the value lacks the bits
of its last digit if that digit is zero. -/
theorem tooWide_iff {value : UInt64} {byte : UInt8} {index : ℕ} (hindex : index ≤ 9)
    (hten : ¬ (index = 9 ∧ 1 < byte.toNat)) (hvalue : value.toNat < 2 ^ (7 * index))
    (hlast : byte.toNat < 128) :
    addDigit value byte (7 * index) < 1 <<< UInt64.ofNat (index * 7) ↔ byte = 0 := by
  have hshift : (UInt64.ofNat (index * 7)).toNat % 64 = 7 * index := by
    rw [UInt64.toNat_ofNat']
    omega
  have hpow : 2 ^ (7 * index) < 2 ^ 64 := Nat.pow_lt_pow_right (by decide) (by omega)
  have hone : (1 <<< UInt64.ofNat (index * 7) : UInt64).toNat = 2 ^ (7 * index) := by
    rw [UInt64.toNat_shiftLeft, hshift, Nat.shiftLeft_eq, UInt64.toNat_one, Nat.one_mul,
      Nat.mod_eq_of_lt hpow]
  rw [UInt64.lt_iff_toNat_lt, hone, (toNat_addDigit hindex hten hvalue).1,
    Nat.mod_eq_of_lt hlast, add_mul_lt_iff hvalue, ← UInt8.toNat_inj]
  rfl

/-- **The loops of both protocols accept the same**, turn by turn. -/
theorem readVarintFrom_toOption {input : List UInt8} {start left index : ℕ} {value : UInt64}
    (hleft : left + index = 10) (hvalue : value.toNat < 2 ^ (7 * index)) :
    (readVarintFrom input start left (start + index) value).toOption =
      (CoreProto.readVarintFrom input left (start + index) value).toOption := by
  induction left generalizing index value with
  | zero => rfl
  | succ left ih =>
    have hindex : 9 - left = index := by omega
    have hwidth : start + index + 1 - start = index + 1 := by omega
    rw [readVarintFrom, CoreProto.readVarintFrom]
    cases input[start + index]? with
    | none => rfl
    | some byte =>
      simp only [hindex, hwidth, Nat.add_sub_cancel, one_lt_iff, and_high_eq_zero_iff]
      have htenth : 7 * index = 63 ↔ index = 9 := by omega
      simp only [htenth]
      by_cases hten : index = 9 ∧ 1 < byte.toNat
      · rw [if_pos hten, if_pos hten]
        rfl
      rw [if_neg hten, if_neg hten]
      by_cases hlast : byte.toNat < 128
      · have hchecks := and_congr (by omega : 1 < index + 1 ↔ 7 * index ≠ 0)
          (tooWide_iff (by omega) hten hvalue hlast)
        simp only [if_pos hlast, hchecks]
        split <;> rfl
      · rw [if_neg hlast, if_neg hlast]
        exact ih (by omega) (toNat_addDigit (by omega) hten hvalue).2

/-- **Both protocols read the same varints.** -/
theorem readVarint_eq_ok_iff_core {input : List UInt8} {offset next : ℕ} {value : UInt64} :
    readVarint input offset = .ok (value, next) ↔
      CoreProto.readVarint input offset = .ok (value, next) := by
  have hagree : (readVarint input offset).toOption = (CoreProto.readVarint input offset).toOption :=
    readVarintFrom_toOption (Nat.add_zero 10) (by decide)
  rw [← toOption_eq_some, ← toOption_eq_some, hagree]

/-- `read_varint` at the beginning of what is left: the number and what follows
it. -/
def nextVarint (input : List UInt8) : Except ProtocolCodecError (ℕ × List UInt8) := do
  let (value, offset) ← readVarint input 0
  .ok (value.toNat, input.drop offset)

/-- **The scanner accepts the varints the encoder writes, and no others.** -/
theorem nextVarint_eq_ok {v : ℕ} :
    nextVarint input = .ok (v, rest) ↔ v < 2 ^ 64 ∧ input = encodeVarint v ++ rest := by
  constructor
  · intro h
    obtain ⟨⟨value, offset⟩, hread, hdone⟩ := exceptBind_eq_ok.1 h
    cases hdone
    obtain ⟨-, hinput⟩ :=
      CoreProto.exists_of_readVarint (readVarint_eq_ok_iff_core.1 hread)
    exact ⟨value.toNat_lt, hinput⟩
  · rintro ⟨hv, rfl⟩
    obtain ⟨value, rfl, hread⟩ :=
      CoreProto.readVarint_append hv (List.drop_zero (l := encodeVarint v ++ rest))
    refine exceptBind_eq_ok.2 ⟨_, readVarint_eq_ok_iff_core.2 hread, ?_⟩
    simp only [Nat.zero_add, List.drop_left]

/-! ## The scan -/

/-- The arms for the fixed widths: bytes that are not all zero. -/
def scanFixed (width : ℕ) (input : List UInt8) : Except ProtocolCodecError (List UInt8) :=
  if input.length < width then .error .truncated
  else if (input.take width).all (· == 0) then .error .nonCanonicalEncoding
  else .ok (input.drop width)

/-- The `match wire` of `scan_message`, with the scan of an embedded message
as a parameter. -/
def scanValue (child : MessageKind → List UInt8 → Except ProtocolCodecError Unit)
    (kind : MessageKind) (number wire : ℕ) (field : FieldSpec) (input : List UInt8) :
    Except ProtocolCodecError (List UInt8) :=
  match wire with
  | 0 => do
    let (value, rest) ← nextVarint input
    if value = 0 then .error .nonCanonicalEncoding
    else if kind = .pluginFailure ∧ number = 1 ∧ 3 < value then .error .invalidSemanticValue
    else .ok rest
  | 1 => scanFixed 8 input
  | 2 => do
    let (length, rest) ← nextVarint input
    if rest.length < length then .error .truncated
    else
      match field.child with
      | none => if length = 0 then .error .nonCanonicalEncoding else .ok (rest.drop length)
      | some kind => do
        child kind (rest.take length)
        .ok (rest.drop length)
  | 5 => scanFixed 4 input
  | _ => .error .wrongWireType

/-- The checks of a key against the fields before it. -/
def scanKey (kind : MessageKind) (observed : ℕ) (observedOneof : Bool) (lastNumber key : ℕ) :
    Except ProtocolCodecError FieldSpec :=
  if key / 8 = 0 then .error .unknownOrReservedField
  else if key % 8 = 3 ∨ key % 8 = 4 then .error .unsupportedGroup
  else
    match descriptorField kind (key / 8) with
    | none => .error .unknownOrReservedField
    | some field =>
      if key / 8 = lastNumber then .error .duplicateField
      else if key / 8 < lastNumber then .error .nonCanonicalEncoding
      else if key % 8 ≠ field.wire then .error .wrongWireType
      -- `checked_shl` of a 16-bit mask
      else if 16 ≤ key / 8 then .error .duplicateField
      else if observed.testBit (key / 8) ∨ field.oneof ∧ observedOneof then .error .duplicateField
      else .ok field

/-- The loop of `scan_message`; every turn reads a byte at least. -/
def scanFields (child : MessageKind → List UInt8 → Except ProtocolCodecError Unit)
    (kind : MessageKind) :
    ℕ → ℕ → Bool → ℕ → List UInt8 → Except ProtocolCodecError Unit
  | _, _, _, _, [] => .ok ()
  | 0, _, _, _, _ :: _ => .error .truncated
  | fuel + 1, observed, observedOneof, lastNumber, input => do
    let (key, rest) ← nextVarint input
    let field ← scanKey kind observed observedOneof lastNumber key
    let rest ← scanValue child kind (key / 8) (key % 8) field rest
    scanFields child kind fuel (observed ||| 2 ^ (key / 8)) (observedOneof || field.oneof) (key / 8)
      rest

/-- `scan_message` with so many levels left. -/
def scanMessage : ℕ → MessageKind → List UInt8 → Except ProtocolCodecError Unit
  | 0, _, _ => .error .depthExceeded
  | levels + 1, kind, input =>
    scanFields (scanMessage levels) kind input.length 0 false 0 input

/-- `validate_message`. -/
def validateMessage (input : List UInt8) (root : MessageKind) (depth : DecodeDepth) :
    Except ProtocolCodecError Unit :=
  scanMessage depth.value root input

/-! ## What a scan accepts -/

section Canonical

variable (child : MessageKind → List UInt8 → Except ProtocolCodecError Unit) (kind : MessageKind)

/-- A value the scanner lets pass in a field. -/
def CanonicalValue (number : ℕ) (field : FieldSpec) : WireValue → Prop
  | .varint n => 0 < n ∧ ¬ (kind = .pluginFailure ∧ number = 1 ∧ 3 < n)
  | .fixed64 n => 0 < n
  | .bytes b =>
    match field.child with
    | none => 0 < b.length
    | some kind => child kind b = .ok ()
  | .fixed32 n => 0 < n

/-- A field the scanner lets pass after the field `lastNumber`. -/
structure CanonicalField (oneof : Bool) (lastNumber : ℕ) (f : RawField) (field : FieldSpec) :
    Prop where
  known : descriptorField kind f.number = some field
  later : lastNumber < f.number
  wire : f.value.wire = field.wire
  body : ¬ (field.oneof ∧ oneof)
  range : f.value.InRange
  value : CanonicalValue child kind f.number field f.value

/-- Fields the scanner lets pass after the field `lastNumber`, where `oneof`
tells whether a body has been seen. -/
inductive CanonicalFrom : Bool → ℕ → List RawField → Prop
  | nil (oneof : Bool) (lastNumber : ℕ) : CanonicalFrom oneof lastNumber []
  | cons {oneof : Bool} {lastNumber : ℕ} {f : RawField} {field : FieldSpec}
      {fields : List RawField} (head : CanonicalField child kind oneof lastNumber f field)
      (tail : CanonicalFrom (oneof || field.oneof) f.number fields) :
      CanonicalFrom oneof lastNumber (f :: fields)

end Canonical

/-- The fields of every message are numbered from 1 to 5. -/
theorem descriptorField_bounds {kind : MessageKind} {field : FieldSpec}
    (h : descriptorField kind number = some field) : 1 ≤ number ∧ number ≤ 5 := by
  unfold descriptorField at h
  split at h <;> first | omega | cases h

theorem descriptorField_wire_le {kind : MessageKind} {field : FieldSpec}
    (h : descriptorField kind number = some field) : field.wire ≤ 2 := by
  unfold descriptorField at h
  split at h <;> cases h <;> decide

theorem scanFixed_eq_ok {width : ℕ} :
    scanFixed width input = .ok rest ↔
      ∃ n, 0 < n ∧ n < 256 ^ width ∧ input = leBytes width n ++ rest := by
  have hzero : ((input.take width).all (· == 0) = true) ↔
      ofBeBytes (input.take width).reverse = 0 := by
    simp [ofBeBytes_eq_zero_iff]
  unfold scanFixed
  constructor
  · intro h
    obtain ⟨hlength, h⟩ := refusal_eq_ok.1 h
    obtain ⟨hall, h⟩ := refusal_eq_ok.1 h
    cases h
    have hread : readFixed width input =
        some (ofBeBytes (input.take width).reverse, input.drop width) := if_neg hlength
    obtain ⟨hinput, hlt⟩ := readFixed_eq_some hread
    exact ⟨_, Nat.pos_of_ne_zero (hzero.not.1 hall), hlt, hinput⟩
  · rintro ⟨n, hn, hlt, rfl⟩
    have hread := readFixed_leBytes hlt rest
    unfold readFixed at hread
    split at hread
    · cases hread
    rename_i hlength
    obtain ⟨hvalue, hrest⟩ : ofBeBytes ((leBytes width n ++ rest).take width).reverse = n ∧
        (leBytes width n ++ rest).drop width = rest := by simpa using hread
    rw [if_neg hlength, if_neg (hzero.not.2 (by omega)), hrest]

/-- **The scan of a value takes one canonical payload.** -/
theorem scanValue_eq_ok {child : MessageKind → List UInt8 → Except ProtocolCodecError Unit}
    {kind : MessageKind} {wire : ℕ} {field : FieldSpec} :
    scanValue child kind number wire field input = .ok rest ↔
      ∃ v : WireValue, v.wire = wire ∧ v.InRange ∧ CanonicalValue child kind number field v ∧
        input = v.payload ++ rest := by
  constructor
  · intro h
    unfold scanValue at h
    split at h
    · obtain ⟨⟨value, rest'⟩, hread, hdone⟩ := exceptBind_eq_ok.1 h
      obtain ⟨hvalue, rfl⟩ := nextVarint_eq_ok.1 hread
      obtain ⟨hzero, hdone⟩ := refusal_eq_ok.1 hdone
      obtain ⟨hcode, hdone⟩ := refusal_eq_ok.1 hdone
      cases hdone
      exact ⟨.varint value, rfl, hvalue, ⟨Nat.pos_of_ne_zero hzero, hcode⟩, rfl⟩
    · obtain ⟨n, hn, hlt, rfl⟩ := scanFixed_eq_ok.1 h
      exact ⟨.fixed64 n, rfl, hlt, hn, rfl⟩
    · obtain ⟨⟨length, rest'⟩, hread, hdone⟩ := exceptBind_eq_ok.1 h
      obtain ⟨hlength, rfl⟩ := nextVarint_eq_ok.1 hread
      obtain ⟨hfits, hdone⟩ := refusal_eq_ok.1 hdone
      have htake : (rest'.take length).length = length := by
        rw [List.length_take]
        omega
      have hpayload : encodeVarint length ++ rest' =
          (WireValue.bytes (rest'.take length)).payload ++ rest'.drop length := by
        rw [WireValue.payload, htake, List.append_assoc, List.take_append_drop]
      have hrange : (WireValue.bytes (rest'.take length)).InRange := by
        rw [WireValue.InRange, htake]
        exact hlength
      split at hdone
      · rename_i hchild
        obtain ⟨hempty, hdone⟩ := refusal_eq_ok.1 hdone
        cases hdone
        refine ⟨.bytes (rest'.take length), rfl, hrange, ?_, hpayload⟩
        rw [CanonicalValue, hchild, htake]
        exact Nat.pos_of_ne_zero hempty
      · rename_i childKind hchild
        obtain ⟨_, hscan, hdone⟩ := exceptBind_eq_ok.1 hdone
        cases hdone
        refine ⟨.bytes (rest'.take length), rfl, hrange, ?_, hpayload⟩
        rw [CanonicalValue, hchild]
        exact hscan
    · obtain ⟨n, hn, hlt, rfl⟩ := scanFixed_eq_ok.1 h
      exact ⟨.fixed32 n, rfl, hlt, hn, rfl⟩
    · cases h
  · rintro ⟨v, rfl, hrange, hcanonical, rfl⟩
    cases v with
    | varint n =>
      refine exceptBind_eq_ok.2 ⟨(n, rest), nextVarint_eq_ok.2 ⟨hrange, rfl⟩, ?_⟩
      simp only
      rw [if_neg (Nat.pos_iff_ne_zero.1 hcanonical.1), if_neg hcanonical.2]
    | fixed64 n | fixed32 n => exact scanFixed_eq_ok.2 ⟨n, hcanonical, hrange, rfl⟩
    | bytes b =>
      refine exceptBind_eq_ok.2 ⟨(b.length, b ++ rest), nextVarint_eq_ok.2 ⟨hrange, ?_⟩, ?_⟩
      · rw [WireValue.payload, List.append_assoc]
      · simp only
        rw [if_neg (by simp), List.take_left, List.drop_left]
        cases hchild : field.child with
        | none =>
          rw [CanonicalValue, hchild] at hcanonical
          exact if_neg (Nat.pos_iff_ne_zero.1 hcanonical)
        | some childKind =>
          rw [CanonicalValue, hchild] at hcanonical
          exact exceptBind_eq_ok.2 ⟨(), hcanonical, rfl⟩

/-- **The mask of fields seen adds nothing to their order**: a key passes when
its field is known, later than the last one and no second body. -/
theorem scanKey_eq_ok {kind : MessageKind} {observed lastNumber key : ℕ} {oneof : Bool}
    {field : FieldSpec} (hobserved : observed < 2 ^ (lastNumber + 1)) :
    scanKey kind observed oneof lastNumber key = .ok field ↔
      descriptorField kind (key / 8) = some field ∧ lastNumber < key / 8 ∧
        key % 8 = field.wire ∧ ¬ (field.oneof ∧ oneof) := by
  unfold scanKey
  constructor
  · intro h
    obtain ⟨-, h⟩ := refusal_eq_ok.1 h
    obtain ⟨-, h⟩ := refusal_eq_ok.1 h
    split at h
    · cases h
    rename_i field' hfield
    simp only [refusal_eq_ok] at h
    obtain ⟨hdifferent, hlater, hwire, -, hseen, h⟩ := h
    cases h
    exact ⟨hfield, by omega, not_not.1 hwire, fun h => hseen (Or.inr h)⟩
  · rintro ⟨hfield, hlater, hwire, hbody⟩
    obtain ⟨hfirst, hlast⟩ := descriptorField_bounds hfield
    have hgroup := descriptorField_wire_le hfield
    have hunseen : observed.testBit (key / 8) = false :=
      Nat.testBit_lt_two_pow (hobserved.trans_le (Nat.pow_le_pow_right (by decide) hlater))
    simp only [refusal_eq_ok, hfield, hunseen]
    exact ⟨by omega, by omega, by omega, by omega, not_not.2 hwire, by omega, by simpa using hbody,
      trivial⟩

/-- **A scan succeeds on canonical fields written one after the other**, and on
nothing else. -/
theorem scanFields_eq_ok {child : MessageKind → List UInt8 → Except ProtocolCodecError Unit}
    {kind : MessageKind} {fuel observed lastNumber : ℕ} {oneof : Bool} (hfuel : input.length ≤ fuel)
    (hobserved : observed < 2 ^ (lastNumber + 1)) :
    scanFields child kind fuel observed oneof lastNumber input = .ok () ↔
      ∃ fields, CanonicalFrom child kind oneof lastNumber fields ∧
        input = encodeFields fields := by
  induction fuel generalizing observed lastNumber oneof input with
  | zero =>
    obtain rfl : input = [] := List.length_eq_zero_iff.1 (by omega)
    exact ⟨fun _ => ⟨[], .nil oneof lastNumber, rfl⟩, fun _ => rfl⟩
  | succ fuel ih =>
    -- The mask after this field, whatever its number.
    have hmask : ∀ {number}, lastNumber < number →
        observed ||| 2 ^ number < 2 ^ (number + 1) := fun h =>
      Nat.or_lt_two_pow (hobserved.trans_le (Nat.pow_le_pow_right (by decide) (by omega)))
        (Nat.pow_lt_pow_right (by decide) (by omega))
    cases input with
    | nil => exact ⟨fun _ => ⟨[], .nil oneof lastNumber, rfl⟩, fun _ => rfl⟩
    | cons byte bytes =>
      have hlengths : ∀ {f : RawField} {rest}, byte :: bytes = f.encode ++ rest →
          rest.length ≤ fuel := by
        intro f rest heq
        have hlength := congrArg List.length heq
        have := f.length_encode_pos
        rw [List.length_append] at hlength
        omega
      constructor
      · intro h
        obtain ⟨⟨key, rest⟩, hkey, hafter⟩ := exceptBind_eq_ok.1 h
        obtain ⟨field, hfield, hvalues⟩ := exceptBind_eq_ok.1 hafter
        obtain ⟨rest', hvalue, hscan⟩ := exceptBind_eq_ok.1 hvalues
        obtain ⟨hknown, hlater, hwire, hbody⟩ := (scanKey_eq_ok hobserved).1 hfield
        obtain ⟨v, hv, hrange, hcanonical, rfl⟩ := scanValue_eq_ok.1 hvalue
        obtain ⟨-, hinput⟩ := nextVarint_eq_ok.1 hkey
        have hencode : byte :: bytes = RawField.encode ⟨key / 8, v⟩ ++ rest' := by
          rw [hinput, RawField.encode, RawField.key, List.append_assoc]
          simp only [hv, Nat.div_add_mod']
        obtain ⟨fields, hfields, rfl⟩ := (ih (hlengths hencode) (hmask hlater)).1 hscan
        exact ⟨⟨key / 8, v⟩ :: fields,
          .cons ⟨hknown, hlater, hv.trans hwire, hbody, hrange, hcanonical⟩ hfields, hencode⟩
      · rintro ⟨fields, hfields, hinput⟩
        cases hfields with
        | nil => cases hinput
        | @cons _ _ f field fields head tail =>
          have hencode : byte :: bytes = f.encode ++ encodeFields fields := hinput
          have hkey : f.key < 2 ^ 64 := by
            have := (descriptorField_bounds head.known).2
            have := RawField.wire_lt f.value
            unfold RawField.key
            omega
          refine exceptBind_eq_ok.2 ⟨(f.key, f.value.payload ++ encodeFields fields),
            nextVarint_eq_ok.2 ⟨hkey, ?_⟩, ?_⟩
          · rw [hencode, RawField.encode, List.append_assoc]
          simp only [f.key_div, f.key_mod]
          refine exceptBind_eq_ok.2 ⟨field, (scanKey_eq_ok hobserved).2 ?_, ?_⟩
          · rw [f.key_div, f.key_mod]
            exact ⟨head.known, head.later, head.wire, head.body⟩
          refine exceptBind_eq_ok.2 ⟨encodeFields fields,
            scanValue_eq_ok.2 ⟨f.value, rfl, head.range, head.value, rfl⟩, ?_⟩
          exact (ih (hlengths hencode) (hmask head.later)).2 ⟨fields, tail, rfl⟩

/-- **The messages a scan accepts.** -/
theorem scanMessage_eq_ok {levels : ℕ} {kind : MessageKind} :
    scanMessage (levels + 1) kind input = .ok () ↔
      ∃ fields, CanonicalFrom (scanMessage levels) kind false 0 fields ∧
        input = encodeFields fields :=
  scanFields_eq_ok le_rfl (by decide)

end MengXia.PluginProto
