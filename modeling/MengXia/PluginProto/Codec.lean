import MengXia.PluginProto.Wire
import Mathlib.Tactic.IntervalCases
/-!
# The plugin control codec

The envelopes a host and a plugin exchange, their generated readers and
writers, and the checks `codec.rs` makes around them. An accepted input is
compared with what its envelope is written as: the two differ exactly where
an integer of a body has more than the 32 bits its field is read with.
-/

namespace MengXia.PluginProto

open Common

variable {σ : Type} {lastNumber number levels : ℕ} {fields : List RawField} {s : σ}

/-! ## Messages -/

/-- `HostHello`. -/
structure HostHello where
  protocolMajor : UInt32
  protocolMinor : UInt32
  sessionChallenge : List UInt8
  maxFrameBytes : UInt32
  maxInFlightRequests : UInt32
  deriving DecidableEq

/-- `PluginHello`. -/
structure PluginHello where
  protocolMajor : UInt32
  protocolMinor : UInt32
  sessionChallenge : List UInt8
  deriving DecidableEq

/-- The fields of `PingRequest` and `PingResponse`. -/
structure Ping where
  nonce : UInt64
  deriving DecidableEq

/-- `ShutdownRequest` and `ShutdownResponse` have no fields. -/
structure Shutdown where
  deriving DecidableEq

/-- `PluginFailure`, with the number of its code. -/
structure PluginFailure where
  code : Int32
  deriving DecidableEq

/-- `host_envelope::Body`. -/
inductive HostBody where
  | hello (hello : HostHello)
  | ping (ping : Ping)
  | shutdown (shutdown : Shutdown)
  deriving DecidableEq

/-- `plugin_envelope::Body`. -/
inductive PluginBody where
  | hello (hello : PluginHello)
  | ping (ping : Ping)
  | shutdown (shutdown : Shutdown)
  | failure (failure : PluginFailure)
  deriving DecidableEq

/-- The fields of both envelopes. -/
structure Envelope (Body : Type) where
  sequence : UInt64
  body : Option Body
  deriving DecidableEq

/-- `HostEnvelope`. -/
abbrev HostEnvelope := Envelope HostBody

/-- `PluginEnvelope`. -/
abbrev PluginEnvelope := Envelope PluginBody

/-! ## Generated readers and writers -/

def HostHello.codec : MessageCodec HostHello where
  initial := ⟨0, 0, [], 0, 0⟩
  merge hello f :=
    match f.number with
    | 1 => f.value.varint?.map fun n => { hello with protocolMajor := .ofNat n }
    | 2 => f.value.varint?.map fun n => { hello with protocolMinor := .ofNat n }
    | 3 => f.value.bytes?.map fun b => { hello with sessionChallenge := b }
    | 4 => f.value.varint?.map fun n => { hello with maxFrameBytes := .ofNat n }
    | 5 => f.value.varint?.map fun n => { hello with maxInFlightRequests := .ofNat n }
    | _ => some hello
  fields hello :=
    varintField 1 hello.protocolMajor.toNat ++ (varintField 2 hello.protocolMinor.toNat ++
      (bytesField 3 hello.sessionChallenge ++ (varintField 4 hello.maxFrameBytes.toNat ++
        varintField 5 hello.maxInFlightRequests.toNat)))

def PluginHello.codec : MessageCodec PluginHello where
  initial := ⟨0, 0, []⟩
  merge hello f :=
    match f.number with
    | 1 => f.value.varint?.map fun n => { hello with protocolMajor := .ofNat n }
    | 2 => f.value.varint?.map fun n => { hello with protocolMinor := .ofNat n }
    | 3 => f.value.bytes?.map fun b => { hello with sessionChallenge := b }
    | _ => some hello
  fields hello :=
    varintField 1 hello.protocolMajor.toNat ++ (varintField 2 hello.protocolMinor.toNat ++
      bytesField 3 hello.sessionChallenge)

def Ping.codec : MessageCodec Ping where
  initial := ⟨0⟩
  merge ping f :=
    match f.number with
    | 1 => f.value.fixed64?.map fun n => ⟨.ofNat n⟩
    | _ => some ping
  fields ping := fixed64Field 1 ping.nonce.toNat

def Shutdown.codec : MessageCodec Shutdown where
  initial := ⟨⟩
  merge shutdown _ := some shutdown
  fields _ := []

/-- An `int32` is written with the bits of its 64-bit sign extension. -/
def PluginFailure.codec : MessageCodec PluginFailure where
  initial := ⟨0⟩
  merge failure f :=
    match f.number with
    | 1 => f.value.varint?.map fun n => ⟨.ofNat n⟩
    | _ => some failure
  fields failure := varintField 1 failure.code.toInt64.toUInt64.toNat

/-- `oneof::merge` and `oneof::encode` of a body. -/
structure BodyCodec (Body : Type) where
  merge : Option Body → RawField → Option (Option Body)
  field : Body → RawField

/-- An arm of `oneof::merge`: into the message there is, if it is of this kind. -/
def mergeBody {σ Body : Type} (codec : MessageCodec σ) (current : Option σ) (wrap : σ → Body)
    (value : WireValue) : Option (Option Body) :=
  value.bytes?.bind fun b =>
    (codec.mergeFrom (current.getD codec.initial) b).map fun message => some (wrap message)

def HostBody.hello? : HostBody → Option HostHello
  | .hello message => some message
  | _ => none

def HostBody.ping? : HostBody → Option Ping
  | .ping message => some message
  | _ => none

def HostBody.shutdown? : HostBody → Option Shutdown
  | .shutdown message => some message
  | _ => none

def HostBody.codec : BodyCodec HostBody where
  merge body f :=
    match f.number with
    | 2 => mergeBody HostHello.codec (body.bind hello?) .hello f.value
    | 3 => mergeBody Ping.codec (body.bind ping?) .ping f.value
    | 4 => mergeBody Shutdown.codec (body.bind shutdown?) .shutdown f.value
    | _ => some body
  field
    | .hello message => ⟨2, .bytes (HostHello.codec.encode message)⟩
    | .ping message => ⟨3, .bytes (Ping.codec.encode message)⟩
    | .shutdown message => ⟨4, .bytes (Shutdown.codec.encode message)⟩

def PluginBody.hello? : PluginBody → Option PluginHello
  | .hello message => some message
  | _ => none

def PluginBody.ping? : PluginBody → Option Ping
  | .ping message => some message
  | _ => none

def PluginBody.shutdown? : PluginBody → Option Shutdown
  | .shutdown message => some message
  | _ => none

def PluginBody.failure? : PluginBody → Option PluginFailure
  | .failure message => some message
  | _ => none

def PluginBody.codec : BodyCodec PluginBody where
  merge body f :=
    match f.number with
    | 2 => mergeBody PluginHello.codec (body.bind hello?) .hello f.value
    | 3 => mergeBody Ping.codec (body.bind ping?) .ping f.value
    | 4 => mergeBody Shutdown.codec (body.bind shutdown?) .shutdown f.value
    | 5 => mergeBody PluginFailure.codec (body.bind failure?) .failure f.value
    | _ => some body
  field
    | .hello message => ⟨2, .bytes (PluginHello.codec.encode message)⟩
    | .ping message => ⟨3, .bytes (Ping.codec.encode message)⟩
    | .shutdown message => ⟨4, .bytes (Shutdown.codec.encode message)⟩
    | .failure message => ⟨5, .bytes (PluginFailure.codec.encode message)⟩

def Envelope.codec {Body : Type} (bodies : BodyCodec Body) : MessageCodec (Envelope Body) where
  initial := ⟨0, none⟩
  merge envelope f :=
    match f.number with
    | 1 => f.value.varint?.map fun n => { envelope with sequence := .ofNat n }
    | _ => (bodies.merge envelope.body f).map fun body => { envelope with body }
  fields envelope :=
    varintField 1 envelope.sequence.toNat ++ (envelope.body.map bodies.field).toList

/-! ## The codec -/

/-- `SESSION_CHALLENGE_BYTES`. -/
def sessionChallengeBytes : ℕ :=
  32

/-- `validate_host_semantics`. -/
def validateHostSemantics (envelope : HostEnvelope) : Except ProtocolCodecError Unit :=
  match envelope.body with
  | some (.hello hello) =>
    if hello.sessionChallenge.length = sessionChallengeBytes ∧ hello.maxFrameBytes ≠ 0 ∧
        hello.maxInFlightRequests ≠ 0 then .ok ()
    else .error .invalidSemanticValue
  | some (.ping _) => .ok ()
  | some (.shutdown _) => .ok ()
  | none => .error .invalidSemanticValue

/-- `validate_plugin_semantics`. -/
def validatePluginSemantics (envelope : PluginEnvelope) : Except ProtocolCodecError Unit :=
  match envelope.body with
  | some (.hello hello) =>
    if hello.sessionChallenge.length = sessionChallengeBytes then .ok ()
    else .error .invalidSemanticValue
  | some (.ping _) => .ok ()
  | some (.shutdown _) => .ok ()
  | some (.failure failure) =>
    if 1 ≤ failure.code ∧ failure.code ≤ 3 then .ok () else .error .invalidSemanticValue
  | none => .error .invalidSemanticValue

/-- What `decode_host_envelope` and `decode_plugin_envelope` share. -/
def decodeEnvelope {Body : Type} (kind : MessageKind) (bodies : BodyCodec Body)
    (validate : Envelope Body → Except ProtocolCodecError Unit) (payload : List UInt8)
    (depth : DecodeDepth) : Except ProtocolCodecError (Envelope Body) := do
  validateMessage payload kind depth
  match (Envelope.codec bodies).decode payload with
  | none => .error .truncated
  | some envelope => do
    validate envelope
    .ok envelope

/-- `decode_host_envelope`. -/
def decodeHostEnvelope : List UInt8 → DecodeDepth → Except ProtocolCodecError HostEnvelope :=
  decodeEnvelope .hostEnvelope HostBody.codec validateHostSemantics

/-- `decode_plugin_envelope`. -/
def decodePluginEnvelope : List UInt8 → DecodeDepth → Except ProtocolCodecError PluginEnvelope :=
  decodeEnvelope .pluginEnvelope PluginBody.codec validatePluginSemantics

/-- `encode_host_envelope`. -/
def encodeHostEnvelope : HostEnvelope → List UInt8 :=
  (Envelope.codec HostBody.codec).encode

/-- `encode_plugin_envelope`. -/
def encodePluginEnvelope : PluginEnvelope → List UInt8 :=
  (Envelope.codec PluginBody.codec).encode

/-! ## Bodies -/

section Bodies

variable {child : MessageKind → List UInt8 → Except ProtocolCodecError Unit}
  {kind : MessageKind} {codec : MessageCodec σ}

variable {oneof : Bool} {field : FieldSpec}

/-- **A message reads canonical fields by appending them**, integers cut to 32
bits. -/
structure Appends (codec : MessageCodec σ) (kind : MessageKind) : Prop where
  initial : codec.fields codec.initial = []
  merge : ∀ {child : MessageKind → List UInt8 → Except ProtocolCodecError Unit} {oneof : Bool}
    {lastNumber : ℕ} {f : RawField} {field : FieldSpec} {s : σ},
    CanonicalField child kind oneof lastNumber f field →
    (∀ x ∈ codec.fields s, x.number < f.number) →
    ∃ s', codec.merge s f = some s' ∧ codec.fields s' = codec.fields s ++ f.narrow

theorem CanonicalField.varint {value : WireValue}
    (h : CanonicalField child kind oneof lastNumber ⟨number, value⟩ field) (hwire : field.wire = 0)
    : ∃ n, value = .varint n ∧ 0 < n := by
  obtain ⟨n, rfl⟩ := WireValue.eq_varint_of_wire (h.wire.trans hwire)
  exact ⟨n, rfl, h.value.1⟩

theorem CanonicalField.bytes {value : WireValue}
    (h : CanonicalField child kind oneof lastNumber ⟨number, value⟩ field) (hwire : field.wire = 2)
    (hchild : field.child = none) : ∃ b, value = .bytes b ∧ b ≠ [] := by
  obtain ⟨b, rfl⟩ := WireValue.eq_bytes_of_wire (h.wire.trans hwire)
  have hvalue := h.value
  rw [CanonicalValue, hchild] at hvalue
  exact ⟨b, rfl, List.ne_nil_of_length_pos hvalue⟩

theorem descriptorField_hostHello (h : descriptorField .hostHello number = some field) :
    (number = 1 ∨ number = 2 ∨ number = 4 ∨ number = 5) ∧ field.wire = 0 ∨
      number = 3 ∧ field.wire = 2 ∧ field.child = none := by
  obtain ⟨hfirst, hlast⟩ := descriptorField_bounds h
  interval_cases number <;> cases h <;> simp [FieldSpec.varint]

theorem hostHello_appends : Appends HostHello.codec .hostHello where
  initial := rfl
  merge := by
    rintro child oneof lastNumber ⟨number, value⟩ field s h hfresh
    simp only [HostHello.codec, List.forall_mem_append] at hfresh ⊢
    obtain ⟨h1, h2, h3, h4, h5⟩ := hfresh
    obtain ⟨hnumber, hwire⟩ | ⟨rfl, hwire, hchild⟩ := descriptorField_hostHello h.known
    · obtain ⟨n, rfl, hn⟩ := h.varint hwire
      -- what the message holds from this number on is empty so far
      obtain rfl | rfl | rfl | rfl := hnumber
      all_goals
        refine ⟨_, rfl, ?_⟩
        simp [varintField_eq_nil_of_lt h1, varintField_eq_nil_of_lt h2, bytesField_eq_nil_of_lt h3,
          varintField_eq_nil_of_lt h4, varintField_eq_nil_of_lt h5, RawField.narrow]
    · obtain ⟨b, rfl, hb⟩ := h.bytes hwire hchild
      refine ⟨_, rfl, ?_⟩
      simp [bytesField_eq_nil_of_lt h3, varintField_eq_nil_of_lt h4, varintField_eq_nil_of_lt h5,
        RawField.narrow, bytesField_of_ne_nil 3 hb]

theorem descriptorField_pluginHello (h : descriptorField .pluginHello number = some field) :
    (number = 1 ∨ number = 2) ∧ field.wire = 0 ∨
      number = 3 ∧ field.wire = 2 ∧ field.child = none := by
  obtain ⟨hfirst, hlast⟩ := descriptorField_bounds h
  interval_cases number <;> cases h <;> simp [FieldSpec.varint]

theorem pluginHello_appends : Appends PluginHello.codec .pluginHello where
  initial := rfl
  merge := by
    rintro child oneof lastNumber ⟨number, value⟩ field s h hfresh
    simp only [PluginHello.codec, List.forall_mem_append] at hfresh ⊢
    obtain ⟨h1, h2, h3⟩ := hfresh
    obtain ⟨hnumber, hwire⟩ | ⟨rfl, hwire, hchild⟩ := descriptorField_pluginHello h.known
    · obtain ⟨n, rfl, hn⟩ := h.varint hwire
      obtain rfl | rfl := hnumber
      all_goals
        refine ⟨_, rfl, ?_⟩
        simp [varintField_eq_nil_of_lt h1, varintField_eq_nil_of_lt h2, bytesField_eq_nil_of_lt h3,
          RawField.narrow]
    · obtain ⟨b, rfl, hb⟩ := h.bytes hwire hchild
      refine ⟨_, rfl, ?_⟩
      simp [bytesField_eq_nil_of_lt h3, RawField.narrow, bytesField_of_ne_nil 3 hb]

theorem CanonicalField.nonce {f : RawField} (hkind : kind = .pingRequest ∨ kind = .pingResponse)
    (h : CanonicalField child kind oneof lastNumber f field) :
    ∃ n, f = ⟨1, .fixed64 n⟩ ∧ 0 < n ∧ n < 2 ^ 64 := by
  obtain ⟨number, value⟩ := f
  have hknown := h.known
  obtain ⟨hfirst, hlast⟩ := descriptorField_bounds hknown
  obtain ⟨rfl, hwire⟩ : number = 1 ∧ field.wire = 1 := by
    simp only at hfirst hlast
    rcases hkind with rfl | rfl <;> interval_cases number <;> cases hknown <;> exact ⟨rfl, rfl⟩
  obtain ⟨n, rfl⟩ := WireValue.eq_fixed64_of_wire (h.wire.trans hwire)
  exact ⟨n, rfl, h.value, h.range⟩

theorem ping_appends (hkind : kind = .pingRequest ∨ kind = .pingResponse) :
    Appends Ping.codec kind where
  initial := rfl
  merge := by
    intro child oneof lastNumber f field s h hfresh
    obtain ⟨n, rfl, hpositive, hn⟩ := h.nonce hkind
    refine ⟨_, rfl, ?_⟩
    have hempty := fixed64Field_eq_nil_of_lt hfresh le_rfl
    simp only [Ping.codec, UInt64.toNat_ofNat', Nat.mod_eq_of_lt hn,
      fixed64Field_of_pos 1 hpositive] at hempty ⊢
    rw [hempty]
    rfl

theorem shutdown_appends (hkind : ∀ number, descriptorField kind number = none) :
    Appends Shutdown.codec kind where
  initial := rfl
  merge := by
    intro child oneof lastNumber f field s h hfresh
    have hknown := h.known
    rw [hkind] at hknown
    cases hknown

theorem failure_appends : Appends PluginFailure.codec .pluginFailure where
  initial := rfl
  merge := by
    rintro child oneof lastNumber ⟨number, value⟩ field s h hfresh
    have hknown := h.known
    obtain ⟨hfirst, hlast⟩ := descriptorField_bounds hknown
    obtain ⟨rfl, hwire⟩ : number = 1 ∧ field.wire = 0 := by
      simp only at hfirst hlast
      interval_cases number <;> cases hknown
      exact ⟨rfl, rfl⟩
    obtain ⟨n, rfl, hn⟩ := h.varint hwire
    have hcode : n ≤ 3 := by
      have := h.value.2
      simp only [true_and, not_lt] at this
      exact this
    refine ⟨_, rfl, ?_⟩
    have hempty := varintField_eq_nil_of_lt hfresh le_rfl
    simp only [PluginFailure.codec] at hempty ⊢
    rw [hempty]
    interval_cases n <;> rfl

/-- **A canonical message is read by appending its fields**, integers cut to 32
bits. -/
theorem Appends.foldlM (happends : Appends codec kind)
    (h : CanonicalFrom child kind oneof lastNumber fields)
    (hs : ∀ x ∈ codec.fields s, x.number ≤ lastNumber) :
    ∃ s', fields.foldlM codec.merge s = some s' ∧
      codec.fields s' = codec.fields s ++ fields.flatMap RawField.narrow := by
  induction h generalizing s with
  | nil => exact ⟨s, rfl, by simp⟩
  | @cons oneof lastNumber f field fields head tail ih =>
    obtain ⟨s₁, hmerge, hfields⟩ :=
      happends.merge head fun x hx => (hs x hx).trans_lt head.later
    have hlater : ∀ x ∈ codec.fields s₁, x.number ≤ f.number := by
      intro x hx
      rw [hfields] at hx
      rcases List.mem_append.1 hx with hx | hx
      · exact (hs x hx).trans head.later.le
      · exact (RawField.number_of_mem_narrow hx).le
    obtain ⟨s', hfold, hfields'⟩ := ih hlater
    refine ⟨s', ?_, ?_⟩
    · rw [List.foldlM_cons, hmerge]
      exact hfold
    · rw [hfields', hfields, List.flatMap_cons, List.append_assoc]

theorem CanonicalFrom.inRange (h : CanonicalFrom child kind oneof lastNumber fields) :
    ∀ f ∈ fields, f.InRange := by
  induction h with
  | nil => simp
  | cons head tail ih =>
    refine List.forall_mem_cons.2 ⟨⟨?_, ?_, head.range⟩, ih⟩
    · exact (descriptorField_bounds head.known).1
    · exact (descriptorField_bounds head.known).2.trans_lt (by decide)

theorem CanonicalFrom.ne_zero (h : CanonicalFrom child kind oneof lastNumber fields) :
    ∀ f ∈ fields, f.value ≠ .varint 0 := by
  induction h with
  | nil => simp
  | cons head tail ih =>
    refine List.forall_mem_cons.2 ⟨fun hzero => ?_, ih⟩
    have hvalue := head.value
    rw [hzero] at hvalue
    exact lt_irrefl 0 hvalue.1

theorem inRange_narrow {f x : RawField} (hf : f.InRange) (hx : x ∈ f.narrow) : x.InRange := by
  refine ⟨?_, ?_, ?_⟩
  · rw [RawField.number_of_mem_narrow hx]
    exact hf.positive
  · rw [RawField.number_of_mem_narrow hx]
    exact hf.number
  · obtain ⟨number, value⟩ := f
    cases value with
    | varint n =>
      simp only [RawField.narrow, varintField] at hx
      split at hx
      · cases hx
      · rw [List.mem_singleton.1 hx]
        exact (Nat.mod_lt n (by decide)).trans (by decide)
    | _ => rw [List.mem_singleton.1 hx]; exact hf.value

/-- The integers of a message have 32 bits each. -/
def FitsWords (input : List UInt8) : Prop :=
  ∀ fields, readFields input = some fields → ∀ f ∈ fields, f.Narrow

/-- **An accepted body is written as it was read exactly when its integers have
32 bits.** -/
theorem Appends.reencode (happends : Appends codec kind) {input : List UInt8}
    (h : scanMessage levels kind input = .ok ()) :
    ∃ s, codec.decode input = some s ∧ (codec.encode s).length ≤ input.length ∧
      (codec.encode s = input ↔ FitsWords input) := by
  cases levels with
  | zero => cases h
  | succ levels =>
    obtain ⟨fields, hcanonical, rfl⟩ := scanMessage_eq_ok.1 h
    have hrange := hcanonical.inRange
    obtain ⟨s, hfold, hfields⟩ := happends.foldlM hcanonical (s := codec.initial)
      (by rw [happends.initial]; simp)
    rw [happends.initial, List.nil_append] at hfields
    refine ⟨s, (codec.decode_encodeFields hrange).trans hfold, ?_, ?_⟩
    · rw [MessageCodec.encode, hfields]
      exact length_encodeFields_narrow_le fields
    have hnarrow : ∀ x ∈ fields.flatMap RawField.narrow, x.InRange := by
      intro x hx
      obtain ⟨f, hf, hx⟩ := List.mem_flatMap.1 hx
      exact inRange_narrow (hrange f hf) hx
    calc codec.encode s = encodeFields fields
        ↔ fields.flatMap RawField.narrow = fields := by
          rw [MessageCodec.encode, hfields]
          exact ⟨encodeFields_injective hnarrow hrange, fun h => by rw [h]⟩
      _ ↔ ∀ f ∈ fields, f.narrow = [f] := flatMap_eq_self_iff RawField.length_narrow_le
      _ ↔ ∀ f ∈ fields, f.Narrow :=
          forall₂_congr fun f hf => RawField.narrow_eq_self_iff (hcanonical.ne_zero f hf)
      _ ↔ FitsWords (encodeFields fields) := by
          unfold FitsWords
          rw [readFields_encode hrange]
          simp

theorem CanonicalFrom.mono {lastNumber' : ℕ} (h : CanonicalFrom child kind oneof lastNumber fields)
    (hle : lastNumber' ≤ lastNumber) :
    CanonicalFrom child kind oneof lastNumber' fields := by
  cases h with
  | nil => exact .nil _ _
  | cons head tail => exact .cons { head with later := hle.trans_lt head.later } tail

theorem CanonicalFrom.varintField {n : ℕ} (h : CanonicalFrom child kind oneof number fields)
    (hknown : descriptorField kind number = some .varint) (hkind : kind ≠ .pluginFailure)
    (hlater : lastNumber < number) (hn : n < 2 ^ 64) :
    CanonicalFrom child kind oneof lastNumber (Common.varintField number n ++ fields) := by
  unfold Common.varintField
  split
  · exact h.mono hlater.le
  · rename_i hpositive
    have hfield : CanonicalField child kind oneof lastNumber ⟨number, .varint n⟩ .varint :=
      ⟨hknown, hlater, rfl, by simp [FieldSpec.varint], hn, Nat.pos_of_ne_zero hpositive,
        fun hfailure => hkind hfailure.1⟩
    exact .cons hfield (by simpa [FieldSpec.varint] using h)

theorem CanonicalFrom.bytesField {b : List UInt8} (h : CanonicalFrom child kind oneof number fields)
    (hknown : descriptorField kind number = some ⟨2, none, false⟩) (hlater : lastNumber < number)
    (hb : b.length < 2 ^ 64) :
    CanonicalFrom child kind oneof lastNumber (Common.bytesField number b ++ fields) := by
  unfold Common.bytesField
  split
  · exact h.mono hlater.le
  · rename_i hne
    have hfield : CanonicalField child kind oneof lastNumber ⟨number, .bytes b⟩ ⟨2, none, false⟩ :=
      ⟨hknown, hlater, rfl, by simp, hb, List.length_pos_of_ne_nil hne⟩
    exact .cons hfield (by simpa using h)

/-! ## Bodies that are written -/

/-- **What is written of a message is read back**: it passes the scan as a body of
its kind and decodes to itself. -/
structure ReadBack (codec : MessageCodec σ) (kind : MessageKind) (s : σ) : Prop where
  canonical : ∀ child, CanonicalFrom child kind false 0 (codec.fields s)
  fold : (codec.fields s).foldlM codec.merge codec.initial = some s
  length : (codec.encode s).length < 2 ^ 64

theorem ReadBack.scan (h : ReadBack codec kind s) (levels : ℕ) :
    scanMessage (levels + 1) kind (codec.encode s) = .ok () :=
  scanMessage_eq_ok.2 ⟨_, h.canonical _, rfl⟩

theorem ReadBack.decode (h : ReadBack codec kind s) :
    codec.decode (codec.encode s) = some s :=
  (codec.decode_encodeFields (h.canonical fun _ _ => .ok ()).inRange).trans h.fold

theorem hostHello_readBack {hello : HostHello} (h : hello.sessionChallenge.length = 32) :
    ReadBack HostHello.codec .hostHello hello where
  canonical child := by
    have hword : ∀ w : UInt32, w.toNat < 2 ^ 64 := fun w => w.toNat_lt.trans (by decide)
    have hlast : CanonicalFrom child .hostHello false 4
        (varintField 5 hello.maxInFlightRequests.toNat ++ []) :=
      (CanonicalFrom.nil false 5).varintField rfl (by decide) (by decide) (hword _)
    rw [List.append_nil] at hlast
    exact (((hlast.varintField rfl (by decide) (by decide) (hword _)).bytesField rfl (by decide)
      (by omega)).varintField rfl (by decide) (by decide) (hword _)).varintField rfl (by decide)
      (by decide) (hword _)
  fold := by
    obtain ⟨major, minor, challenge, frameBytes, inFlight⟩ := hello
    have h1 := foldlM_varintField HostHello.codec 1 (fun w => ⟨w, 0, [], 0, 0⟩)
      (fun _ => rfl) rfl major
    have h2 := foldlM_varintField HostHello.codec 2 (fun w => ⟨major, w, [], 0, 0⟩)
      (fun _ => rfl) rfl minor
    have h3 := foldlM_bytesField HostHello.codec 3 (fun b => ⟨major, minor, b, 0, 0⟩)
      (fun _ => rfl) rfl challenge
    have h4 := foldlM_varintField HostHello.codec 4 (fun w => ⟨major, minor, challenge, w, 0⟩)
      (fun _ => rfl) rfl frameBytes
    have h5 := foldlM_varintField HostHello.codec 5
      (fun w => ⟨major, minor, challenge, frameBytes, w⟩) (fun _ => rfl) rfl inFlight
    show (varintField 1 major.toNat ++ (varintField 2 minor.toNat ++ (bytesField 3 challenge ++
      (varintField 4 frameBytes.toNat ++ varintField 5 inFlight.toNat)))).foldlM
        HostHello.codec.merge ⟨0, 0, [], 0, 0⟩ = _
    simp only [List.foldlM_append, h1, h2, h3, h4, h5, Option.bind_eq_bind, Option.bind_some]
  length := by
    have h1 := length_encode_varintField_le 1 hello.protocolMajor.toNat
    have h2 := length_encode_varintField_le 2 hello.protocolMinor.toNat
    have h3 := length_encode_bytesField_le 3 hello.sessionChallenge
    have h4 := length_encode_varintField_le 4 hello.maxFrameBytes.toNat
    have h5 := length_encode_varintField_le 5 hello.maxInFlightRequests.toNat
    simp only [MessageCodec.encode, HostHello.codec, encodeFields_append, List.length_append]
    omega

theorem pluginHello_readBack {hello : PluginHello} (h : hello.sessionChallenge.length = 32) :
    ReadBack PluginHello.codec .pluginHello hello where
  canonical child := by
    have hword : ∀ w : UInt32, w.toNat < 2 ^ 64 := fun w => w.toNat_lt.trans (by decide)
    have hlast : CanonicalFrom child .pluginHello false 2
        (bytesField 3 hello.sessionChallenge ++ []) :=
      (CanonicalFrom.nil false 3).bytesField rfl (by decide) (by omega)
    rw [List.append_nil] at hlast
    exact (hlast.varintField rfl (by decide) (by decide) (hword _)).varintField rfl (by decide)
      (by decide) (hword _)
  fold := by
    obtain ⟨major, minor, challenge⟩ := hello
    have h1 := foldlM_varintField PluginHello.codec 1 (fun w => ⟨w, 0, []⟩) (fun _ => rfl) rfl major
    have h2 := foldlM_varintField PluginHello.codec 2 (fun w => ⟨major, w, []⟩)
      (fun _ => rfl) rfl minor
    have h3 := foldlM_bytesField PluginHello.codec 3 (fun b => ⟨major, minor, b⟩)
      (fun _ => rfl) rfl challenge
    show (varintField 1 major.toNat ++ (varintField 2 minor.toNat ++
      bytesField 3 challenge)).foldlM PluginHello.codec.merge ⟨0, 0, []⟩ = _
    simp only [List.foldlM_append, h1, h2, h3, Option.bind_eq_bind, Option.bind_some]
  length := by
    have h1 := length_encode_varintField_le 1 hello.protocolMajor.toNat
    have h2 := length_encode_varintField_le 2 hello.protocolMinor.toNat
    have h3 := length_encode_bytesField_le 3 hello.sessionChallenge
    simp only [MessageCodec.encode, PluginHello.codec, encodeFields_append, List.length_append]
    omega

theorem ping_readBack (kind : MessageKind) (ping : Ping)
    (hkind : descriptorField kind 1 = some ⟨1, none, false⟩) : ReadBack Ping.codec kind ping where
  canonical child := by
    simp only [Ping.codec, fixed64Field]
    split
    · exact .nil _ _
    · rename_i hnonce
      have hfield : CanonicalField child kind false 0 ⟨1, .fixed64 ping.nonce.toNat⟩
          ⟨1, none, false⟩ :=
        ⟨hkind, Nat.one_pos, rfl, by simp, ping.nonce.toNat_lt, Nat.pos_of_ne_zero hnonce⟩
      exact .cons hfield (.nil _ _)
  fold := by
    obtain ⟨nonce⟩ := ping
    simp only [Ping.codec, fixed64Field]
    split
    · rename_i hnonce
      obtain rfl : nonce = 0 := UInt64.toNat.inj hnonce
      rfl
    · simp [WireValue.fixed64?]
  length := by
    have hkey := varintSize_le (RawField.key ⟨1, .fixed64 ping.nonce.toNat⟩)
    simp only [MessageCodec.encode, Ping.codec, fixed64Field]
    split
    · exact Nat.pow_pos (by decide)
    · simp only [encodeFields, List.flatMap_singleton, RawField.encode, WireValue.payload,
        List.length_append, length_leBytes, length_encodeVarint]
      omega

theorem shutdown_readBack (kind : MessageKind) (shutdown : Shutdown) :
    ReadBack Shutdown.codec kind shutdown where
  canonical child := .nil _ _
  fold := rfl
  length := Nat.pow_pos (by decide)

/-- The codes a failure may carry. -/
theorem code_cases {code : Int32} (h : 1 ≤ code ∧ code ≤ 3) : code = 1 ∨ code = 2 ∨ code = 3 := by
  have hlower : 1 ≤ code.toInt := Int32.le_iff_toInt_le.1 h.1
  have hupper : code.toInt ≤ 3 := Int32.le_iff_toInt_le.1 h.2
  have hcases : code.toInt = 1 ∨ code.toInt = 2 ∨ code.toInt = 3 := by omega
  rcases hcases with hcode | hcode | hcode
  · exact Or.inl (Int32.toInt.inj hcode)
  · exact Or.inr (Or.inl (Int32.toInt.inj hcode))
  · exact Or.inr (Or.inr (Int32.toInt.inj hcode))

theorem failure_readBack {failure : PluginFailure} (h : 1 ≤ failure.code ∧ failure.code ≤ 3) :
    ReadBack PluginFailure.codec .pluginFailure failure := by
  obtain ⟨code⟩ := failure
  have hfields : ∃ n, 0 < n ∧ n ≤ 3 ∧ PluginFailure.codec.fields ⟨code⟩ = [⟨1, .varint n⟩] ∧
      Int32.ofNat n = code := by
    rcases code_cases h with rfl | rfl | rfl
    · exact ⟨1, by decide, by decide, rfl, rfl⟩
    · exact ⟨2, by decide, by decide, rfl, rfl⟩
    · exact ⟨3, by decide, by decide, rfl, rfl⟩
  obtain ⟨n, hpositive, hn, hfields, rfl⟩ := hfields
  refine ⟨fun child => ?_, ?_, ?_⟩
  · rw [hfields]
    have hfield : CanonicalField child .pluginFailure false 0 ⟨1, .varint n⟩ .varint :=
      ⟨rfl, Nat.one_pos, rfl, by simp, show n < 2 ^ 64 by omega, hpositive, by omega⟩
    exact .cons hfield (.nil _ _)
  · rw [hfields]
    rfl
  · have hlength := RawField.length_encode_varint_le 1 n
    simp only [MessageCodec.encode, hfields, encodeFields, List.flatMap_singleton]
    omega

end Bodies

/-! ## Envelopes -/

section Envelopes

variable {kind : MessageKind} {Body : Type} {bodies : BodyCodec Body}
  {child : MessageKind → List UInt8 → Except ProtocolCodecError Unit}

/-- What a body in an envelope is read and written as again. -/
def Rewritten (bodies : BodyCodec Body) (number : ℕ) (b b' : List UInt8) : Prop :=
  ∃ body, bodies.merge none ⟨number, .bytes b⟩ = some (some body) ∧
    bodies.field body = ⟨number, .bytes b'⟩

/-- **The messages an envelope carries**: a sequence number, and at most one body
that its codec reads. -/
structure Carries (bodies : BodyCodec Body) (kind : MessageKind) : Prop where
  sequence : descriptorField kind 1 = some .varint
  envelope : kind ≠ .pluginFailure
  body : ∀ {number field}, descriptorField kind number = some field → number ≠ 1 →
    ∃ childKind, field = .body childKind ∧ ∀ {levels b},
      scanMessage levels childKind b = .ok () →
        ∃ b', Rewritten bodies number b b' ∧ b'.length ≤ b.length ∧ (b' = b ↔ FitsWords b)

theorem Appends.rewritten {codec : MessageCodec σ} {childKind : MessageKind}
    (happends : Appends codec childKind) {wrap : σ → Body}
    (hmerge : ∀ b, bodies.merge none ⟨number, .bytes b⟩ = mergeBody codec none wrap (.bytes b))
    (hfield : ∀ s, bodies.field (wrap s) = ⟨number, .bytes (codec.encode s)⟩) {b : List UInt8}
    (h : scanMessage levels childKind b = .ok ()) :
    ∃ b', Rewritten bodies number b b' ∧ b'.length ≤ b.length ∧ (b' = b ↔ FitsWords b) := by
  obtain ⟨s, hdecode, hlength, hiff⟩ := happends.reencode h
  refine ⟨codec.encode s, ⟨wrap s, ?_, hfield s⟩, hlength, hiff⟩
  rw [hmerge]
  simp only [mergeBody, WireValue.bytes?, Option.bind_some, Option.getD_none]
  rw [MessageCodec.decode] at hdecode
  rw [hdecode]
  rfl

theorem hostBody_carries : Carries HostBody.codec .hostEnvelope where
  sequence := rfl
  envelope := by decide
  body := by
    intro number field hfield hnumber
    obtain ⟨hfirst, hlast⟩ := descriptorField_bounds hfield
    interval_cases number <;> cases hfield
    · exact absurd rfl hnumber
    · exact ⟨.hostHello, rfl, hostHello_appends.rewritten (fun _ => rfl) (fun _ => rfl)⟩
    · exact ⟨.pingRequest, rfl, (ping_appends (Or.inl rfl)).rewritten (fun _ => rfl) (fun _ => rfl)⟩
    · exact ⟨.shutdownRequest, rfl,
        (shutdown_appends fun _ => rfl).rewritten (fun _ => rfl) (fun _ => rfl)⟩

theorem pluginBody_carries : Carries PluginBody.codec .pluginEnvelope where
  sequence := rfl
  envelope := by decide
  body := by
    intro number field hfield hnumber
    obtain ⟨hfirst, hlast⟩ := descriptorField_bounds hfield
    interval_cases number <;> cases hfield
    · exact absurd rfl hnumber
    · exact ⟨.pluginHello, rfl, pluginHello_appends.rewritten (fun _ => rfl) (fun _ => rfl)⟩
    · exact ⟨.pingResponse, rfl,
        (ping_appends (Or.inr rfl)).rewritten (fun _ => rfl) (fun _ => rfl)⟩
    · exact ⟨.shutdownResponse, rfl,
        (shutdown_appends fun _ => rfl).rewritten (fun _ => rfl) (fun _ => rfl)⟩
    · exact ⟨.pluginFailure, rfl, failure_appends.rewritten (fun _ => rfl) (fun _ => rfl)⟩

/-- After a body nothing follows. -/
theorem Carries.nothing_after (hcarries : Carries bodies kind)
    (h : CanonicalFrom child kind true lastNumber fields) (hlast : 1 ≤ lastNumber) :
    fields = [] := by
  cases h with
  | nil => rfl
  | cons head tail =>
    have hlater := head.later
    obtain ⟨childKind, rfl, -⟩ := hcarries.body head.known (by omega)
    exact absurd ⟨rfl, rfl⟩ head.body

/-- The fields of an envelope after its sequence number. -/
theorem Carries.body_fields (hcarries : Carries bodies kind)
    (h : CanonicalFrom (scanMessage levels) kind false 1 fields) :
    fields = [] ∨ ∃ number b b', fields = [⟨number, .bytes b⟩] ∧ number ≠ 1 ∧
      Rewritten bodies number b b' ∧ b'.length ≤ b.length ∧ (b' = b ↔ FitsWords b) := by
  cases h with
  | nil => exact Or.inl rfl
  | @cons _ _ f field fields head tail =>
    obtain ⟨number, value⟩ := f
    have hlater : 1 < number := head.later
    obtain ⟨childKind, rfl, hbody⟩ := hcarries.body head.known (by simp only; omega)
    obtain ⟨b, rfl⟩ := WireValue.eq_bytes_of_wire head.wire
    obtain rfl := hcarries.nothing_after tail hlater.le
    obtain ⟨b', hrewritten, hlength, hiff⟩ := hbody head.value
    exact Or.inr ⟨number, b, b', rfl, by omega, hrewritten, hlength, hiff⟩

/-- The sequence number comes first, unless it is zero. -/
theorem Carries.sequence_field (hcarries : Carries bodies kind)
    (h : CanonicalFrom child kind false 0 fields) :
    ∃ n rest, n < 2 ^ 64 ∧ fields = varintField 1 n ++ rest ∧
      CanonicalFrom child kind false 1 rest := by
  cases h with
  | nil => exact ⟨0, [], by decide, rfl, .nil _ _⟩
  | @cons _ _ f field fields head tail =>
    obtain ⟨number, value⟩ := f
    by_cases hnumber : number = 1
    · subst hnumber
      obtain rfl : FieldSpec.varint = field :=
        Option.some.inj (hcarries.sequence.symm.trans head.known)
      obtain ⟨n, rfl⟩ := WireValue.eq_varint_of_wire head.wire
      exact ⟨n, fields, head.range, by rw [varintField_of_pos 1 head.value.1]; rfl, tail⟩
    · have hfirst : 1 ≤ number := (descriptorField_bounds head.known).1
      exact ⟨0, _, by decide, rfl, .cons { head with later := by simp only; omega } tail⟩

/-- The integers of an envelope's body have 32 bits each. -/
def BodyFitsWords (payload : List UInt8) : Prop :=
  ∀ fields, readFields payload = some fields →
    ∀ f ∈ fields, ∀ b, f.value = .bytes b → FitsWords b

theorem foldlM_sequence (n : ℕ) :
    (varintField 1 n).foldlM (Envelope.codec bodies).merge (Envelope.codec bodies).initial =
      some ⟨.ofNat n, none⟩ := by
  unfold varintField
  split
  · rename_i hzero
    subst hzero
    rfl
  · rfl

theorem merge_body (hnumber : number ≠ 1) (envelope : Envelope Body) (b : List UInt8) :
    (Envelope.codec bodies).merge envelope ⟨number, .bytes b⟩ =
      (bodies.merge envelope.body ⟨number, .bytes b⟩).map fun body => { envelope with body } := by
  simp only [Envelope.codec]

/-- **An envelope that passes the scan is decoded**, and written as it was read
exactly when the integers of its body have 32 bits. -/
theorem Carries.reencode (hcarries : Carries bodies kind) {payload : List UInt8}
    (h : scanMessage levels kind payload = .ok ()) :
    ∃ envelope, (Envelope.codec bodies).decode payload = some envelope ∧
      ((Envelope.codec bodies).encode envelope = payload ↔ BodyFitsWords payload) := by
  cases levels with
  | zero => cases h
  | succ levels =>
    obtain ⟨fields, hcanonical, rfl⟩ := scanMessage_eq_ok.1 h
    have hrange := hcanonical.inRange
    have hdecode := (Envelope.codec bodies).decode_encodeFields hrange
    have hfits : BodyFitsWords (encodeFields fields) ↔
        ∀ f ∈ fields, ∀ b, f.value = .bytes b → FitsWords b := by
      unfold BodyFitsWords
      rw [readFields_encode hrange]
      simp
    obtain ⟨n, rest, hn, rfl, hrest⟩ := hcarries.sequence_field hcanonical
    have hsequence : ∀ f ∈ varintField 1 n, ∀ b, f.value = .bytes b → FitsWords b := by
      intro f hf b hb
      unfold varintField at hf
      split at hf
      · cases hf
      · rw [List.mem_singleton.1 hf] at hb
        cases hb
    have hnumber : (UInt64.ofNat n).toNat = n := by
      rw [UInt64.toNat_ofNat']
      exact Nat.mod_eq_of_lt hn
    rw [List.foldlM_append, foldlM_sequence] at hdecode
    rw [hfits, List.forall_mem_append]
    rcases hcarries.body_fields hrest with rfl | ⟨number, b, b', rfl, hnot, hbody, hlength, hiff⟩
    · refine ⟨⟨.ofNat n, none⟩, hdecode, ?_⟩
      simp only [MessageCodec.encode, Envelope.codec, hnumber]
      exact ⟨fun _ => ⟨hsequence, by simp⟩, fun _ => rfl⟩
    · obtain ⟨body, hmerge, hfield⟩ := hbody
      refine ⟨⟨.ofNat n, some body⟩, ?_, ?_⟩
      · rw [hdecode, Option.bind_eq_bind, Option.bind_some, List.foldlM_cons, merge_body hnot,
          hmerge]
        rfl
      · have hold := hrange ⟨number, .bytes b⟩ (by simp)
        have hnew : RawField.InRange ⟨number, .bytes b'⟩ :=
          ⟨hold.positive, hold.number, hlength.trans_lt hold.value⟩
        have hwritten : ∀ f ∈ varintField 1 n ++ [⟨number, .bytes b'⟩], f.InRange := by
          intro f hf
          rcases List.mem_append.1 hf with hf | hf
          · exact hrange f (List.mem_append_left _ hf)
          · rw [List.mem_singleton.1 hf]
            exact hnew
        have hencode : (Envelope.codec bodies).encode ⟨.ofNat n, some body⟩ =
            encodeFields (varintField 1 n ++ [⟨number, .bytes b'⟩]) := by
          simp only [MessageCodec.encode, Envelope.codec, hnumber, Option.map_some, hfield,
            Option.toList_some]
        calc (Envelope.codec bodies).encode ⟨.ofNat n, some body⟩ = _
            ↔ b' = b := by
              rw [hencode]
              refine ⟨fun heq => ?_, fun heq => by rw [heq]⟩
              have hlists := encodeFields_injective hwritten hrange heq
              simpa using hlists
          _ ↔ FitsWords b := hiff
          _ ↔ _ := by simpa using fun _ => hsequence

/-- A body that an envelope carries and that is read back from what is written. -/
structure CarriedBody (bodies : BodyCodec Body) (kind : MessageKind) (body : Body) : Prop where
  written : ∃ number childKind b, bodies.field body = ⟨number, .bytes b⟩ ∧
    descriptorField kind number = some (.body childKind) ∧ number ≠ 1 ∧ b.length < 2 ^ 64 ∧
    (∀ levels, scanMessage (levels + 1) childKind b = .ok ()) ∧
    bodies.merge none ⟨number, .bytes b⟩ = some (some body)

theorem ReadBack.carried {codec : MessageCodec σ} {childKind : MessageKind}
    (h : ReadBack codec childKind s) {wrap : σ → Body}
    (hknown : descriptorField kind number = some (.body childKind)) (hnumber : number ≠ 1)
    (hmerge : ∀ b, bodies.merge none ⟨number, .bytes b⟩ = mergeBody codec none wrap (.bytes b))
    (hfield : bodies.field (wrap s) = ⟨number, .bytes (codec.encode s)⟩) :
    CarriedBody bodies kind (wrap s) := by
  refine ⟨number, childKind, codec.encode s, hfield, hknown, hnumber, h.length, h.scan, ?_⟩
  rw [hmerge]
  simp only [mergeBody, WireValue.bytes?, Option.bind_some, Option.getD_none]
  have hdecode := h.decode
  rw [MessageCodec.decode] at hdecode
  rw [hdecode]
  rfl

theorem hostBody_carried {envelope : HostEnvelope}
    (h : validateHostSemantics envelope = .ok ()) :
    ∃ body, envelope.body = some body ∧ CarriedBody HostBody.codec .hostEnvelope body := by
  obtain ⟨sequence, body⟩ := envelope
  cases body with
  | none => cases h
  | some body =>
    refine ⟨body, rfl, ?_⟩
    cases body with
    | hello hello =>
      obtain ⟨⟨hchallenge, -⟩, -⟩ := requirement_eq_ok.1 h
      exact (hostHello_readBack hchallenge).carried rfl (by decide) (fun _ => rfl) rfl
    | ping ping =>
      exact (ping_readBack .pingRequest ping rfl).carried rfl (by decide) (fun _ => rfl) rfl
    | shutdown shutdown =>
      exact (shutdown_readBack .shutdownRequest shutdown).carried rfl (by decide) (fun _ => rfl) rfl

theorem pluginBody_carried {envelope : PluginEnvelope}
    (h : validatePluginSemantics envelope = .ok ()) :
    ∃ body, envelope.body = some body ∧ CarriedBody PluginBody.codec .pluginEnvelope body := by
  obtain ⟨sequence, body⟩ := envelope
  cases body with
  | none => cases h
  | some body =>
    refine ⟨body, rfl, ?_⟩
    cases body with
    | hello hello =>
      obtain ⟨hchallenge, -⟩ := requirement_eq_ok.1 h
      exact (pluginHello_readBack hchallenge).carried rfl (by decide) (fun _ => rfl) rfl
    | ping ping =>
      exact (ping_readBack .pingResponse ping rfl).carried rfl (by decide) (fun _ => rfl) rfl
    | shutdown shutdown =>
      exact (shutdown_readBack .shutdownResponse shutdown).carried rfl (by decide) (fun _ => rfl)
        rfl
    | failure failure =>
      obtain ⟨hcode, -⟩ := requirement_eq_ok.1 h
      exact (failure_readBack hcode).carried rfl (by decide) (fun _ => rfl) rfl

variable {validate : Envelope Body → Except ProtocolCodecError Unit}

/-- **A valid envelope is read back from what it is written as.** -/
theorem Carries.decodeEnvelope_encode (hcarries : Carries bodies kind) {envelope : Envelope Body}
    (hvalid : validate envelope = .ok ())
    (hbody : ∃ body, envelope.body = some body ∧ CarriedBody bodies kind body)
    (depth : DecodeDepth) :
    decodeEnvelope kind bodies validate ((Envelope.codec bodies).encode envelope) depth =
      .ok envelope := by
  obtain ⟨sequence, _⟩ := envelope
  obtain ⟨body, rfl, number, childKind, b, hfield, hknown, hnumber, hb, hscan, hmerge⟩ := hbody
  obtain ⟨levels, hlevels⟩ : ∃ levels, depth.value = levels + 2 :=
    ⟨depth.value - 2, (Nat.sub_add_cancel depth.minimum).symm⟩
  have hfields : (Envelope.codec bodies).fields ⟨sequence, some body⟩ =
      varintField 1 sequence.toNat ++ [⟨number, .bytes b⟩] := by
    simp only [Envelope.codec, Option.map_some, hfield, Option.toList_some]
  have hfirst : 1 ≤ number := (descriptorField_bounds hknown).1
  have hlast : CanonicalField (scanMessage (levels + 1)) kind false 1 ⟨number, .bytes b⟩
      (.body childKind) :=
    ⟨hknown, by simp only; omega, rfl, by simp, hb, hscan levels⟩
  have hcanonical : CanonicalFrom (scanMessage (levels + 1)) kind false 0
      (varintField 1 sequence.toNat ++ [⟨number, .bytes b⟩]) :=
    (CanonicalFrom.cons hlast (.nil _ _)).varintField hcarries.sequence hcarries.envelope
      Nat.one_pos sequence.toNat_lt
  have hscanned : validateMessage ((Envelope.codec bodies).encode ⟨sequence, some body⟩) kind
      depth = .ok () := by
    rw [validateMessage, hlevels, scanMessage_eq_ok]
    exact ⟨_, hcanonical, by rw [MessageCodec.encode, hfields]⟩
  have hdecoded : (Envelope.codec bodies).decode
      ((Envelope.codec bodies).encode ⟨sequence, some body⟩) = some ⟨sequence, some body⟩ := by
    rw [MessageCodec.encode, hfields, MessageCodec.decode_encodeFields _ hcanonical.inRange,
      List.foldlM_append, foldlM_sequence, Option.bind_eq_bind, Option.bind_some,
      List.foldlM_cons, merge_body hnumber, hmerge, UInt64.ofNat_toNat]
    rfl
  rw [decodeEnvelope, hscanned]
  show (match (Envelope.codec bodies).decode _ with
    | none => _
    | some envelope => _) = _
  rw [hdecoded]
  exact exceptBind_eq_ok.2 ⟨(), hvalid, rfl⟩

/-- **What is accepted is written as it was read exactly when the integers of its
body have 32 bits.** -/
theorem Carries.encode_eq_iff (hcarries : Carries bodies kind) {payload : List UInt8}
    {depth : DecodeDepth} {envelope : Envelope Body}
    (h : decodeEnvelope kind bodies validate payload depth = .ok envelope) :
    (Envelope.codec bodies).encode envelope = payload ↔ BodyFitsWords payload := by
  obtain ⟨_, hscan, hrest⟩ := exceptBind_eq_ok.1 h
  obtain ⟨decoded, hdecoded, hiff⟩ := hcarries.reencode hscan
  rw [hdecoded] at hrest
  obtain ⟨_, -, henvelope⟩ := exceptBind_eq_ok.1 hrest
  obtain rfl : decoded = envelope := by simpa using henvelope
  exact hiff

end Envelopes

/-- A greeting of sequence 1 for version 1.0. -/
def greeting : HostEnvelope :=
  ⟨1, some (.hello ⟨1, 0, List.replicate 32 7, 65536, 4⟩)⟩

/-- The greeting of version 1 with `2 ^ 32` added to the version. -/
def wideGreeting : List UInt8 :=
  [0x12, 0x2c, 0x08, 0x81, 0x80, 0x80, 0x80, 0x10, 0x1a, 0x20] ++ List.replicate 32 7 ++
    [0x20, 0x01, 0x28, 0x01]

/-- **The control codec is canonical on integers of 32 bits.** An accepted input is
what its envelope is written as exactly when the integers in its body have 32
bits, and every valid envelope is read back. -/
theorem accepted_encoded_iff (depth : DecodeDepth) :
    (∀ payload envelope, decodeHostEnvelope payload depth = .ok envelope →
      (encodeHostEnvelope envelope = payload ↔ BodyFitsWords payload)) ∧
    (∀ payload envelope, decodePluginEnvelope payload depth = .ok envelope →
      (encodePluginEnvelope envelope = payload ↔ BodyFitsWords payload)) ∧
    (∀ envelope, validateHostSemantics envelope = .ok () →
      decodeHostEnvelope (encodeHostEnvelope envelope) depth = .ok envelope) ∧
    (∀ envelope, validatePluginSemantics envelope = .ok () →
      decodePluginEnvelope (encodePluginEnvelope envelope) depth = .ok envelope) := by
  refine ⟨fun payload envelope h => hostBody_carries.encode_eq_iff h,
    fun payload envelope h => pluginBody_carries.encode_eq_iff h, fun envelope h => ?_,
    fun envelope h => ?_⟩
  · exact hostBody_carries.decodeEnvelope_encode h (hostBody_carried h) depth
  · exact pluginBody_carries.decodeEnvelope_encode h (pluginBody_carried h) depth

theorem greeting_canonical :
    decodeHostEnvelope (encodeHostEnvelope greeting) ⟨2, by decide, by decide⟩ = .ok greeting ∧
      BodyFitsWords (encodeHostEnvelope greeting) := by
  have hread := (accepted_encoded_iff ⟨2, by decide, by decide⟩).2.2.1 greeting rfl
  exact ⟨hread, ((accepted_encoded_iff ⟨2, by decide, by decide⟩).1 _ _ hread).1 rfl⟩

/-- **A version of 33 bits is accepted and written as another input.** -/
theorem wideGreeting_rewritten :
    ∃ envelope, decodeHostEnvelope wideGreeting ⟨2, by decide, by decide⟩ = .ok envelope ∧
      encodeHostEnvelope envelope ≠ wideGreeting := by
  refine ⟨⟨0, some (.hello ⟨1, 0, List.replicate 32 7, 1, 1⟩)⟩, ?_, ?_⟩
  · rfl
  · decide +kernel

end MengXia.PluginProto
