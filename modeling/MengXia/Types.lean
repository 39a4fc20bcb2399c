import MengXia.Common.Fields
import Mathlib.Logic.Basic
import Mathlib.Data.Int.Notation
/-!
# Foundation values

Identifiers, digests, timestamps, error codes and text, as the types
crate defines them. An identifier is a UUID of version 7 by construction,
and a timestamp lies in the years 1 to 9999 by construction, so the
checks the store repeats on stored bytes hold of every value here.
-/

namespace MengXia

/-! ## Text -/

/-- A Rust string, as its characters. -/
abbrev Text : Type := List Char

/-- A byte string. -/
abbrev Bytes : Type := List UInt8

namespace Text

/-- `str::len`: the number of UTF-8 bytes. -/
def byteLength (t : Text) : ℕ :=
  (t.map fun c => c.utf8Size).sum

/-- `str::as_bytes`. -/
def utf8 (t : Text) : Bytes :=
  t.flatMap fun c => (String.utf8EncodeChar c)

/-- `str::from_utf8`. -/
def ofUtf8 (bytes : Bytes) : Option Text :=
  bytes.toByteArray.utf8Decode?.map Array.toList

theorem ofUtf8_utf8 (t : Text) : ofUtf8 t.utf8 = some t := by
  have h : t.utf8.toByteArray.utf8Decode? = some t.toArray := List.utf8Decode?_utf8Encode
  rw [ofUtf8, h]
  rfl

/-- Different texts have different bytes. -/
theorem utf8_injective {s t : Text} (h : s.utf8 = t.utf8) : s = t := by
  have hread := congrArg ofUtf8 h
  rwa [ofUtf8_utf8, ofUtf8_utf8, Option.some_inj] at hread

theorem utf8_inj {s t : Text} : s.utf8 = t.utf8 ↔ s = t := ⟨utf8_injective, congrArg _⟩

theorem length_utf8 (t : Text) : t.utf8.length = t.byteLength := by
  unfold utf8 byteLength
  rw [List.length_flatMap]
  simp only [String.length_utf8EncodeChar]

end Text

/-- `char::is_control`: general category Cc. -/
def isControl (c : Char) : Bool :=
  c.toNat < 0x20 || (0x7f ≤ c.toNat && c.toNat ≤ 0x9f)

/-- `char::is_whitespace`: the Unicode property White_Space. -/
def isWhitespace (c : Char) : Bool :=
  (0x09 ≤ c.toNat && c.toNat ≤ 0x0d) || c.toNat == 0x20 || c.toNat == 0x85 ||
    c.toNat == 0xa0 || c.toNat == 0x1680 || (0x2000 ≤ c.toNat && c.toNat ≤ 0x200a) ||
    c.toNat == 0x2028 || c.toNat == 0x2029 || c.toNat == 0x202f || c.toNat == 0x205f ||
    c.toNat == 0x3000

/-- `is_ascii_lowercase`. -/
def isAsciiLowercase (c : Char) : Bool :=
  'a'.toNat ≤ c.toNat && c.toNat ≤ 'z'.toNat

/-- `is_ascii_digit`. -/
def isAsciiDigit (c : Char) : Bool :=
  '0'.toNat ≤ c.toNat && c.toNat ≤ '9'.toNat

/-! ## Identifiers -/

/-- Version 7 and the RFC 4122 variant, the two fixed fields of the
sixteen bytes read in big-endian order. -/
def isUuidV7 (bits : BitVec 128) : Bool :=
  bits.toNat / 2 ^ 76 % 16 == 7 && bits.toNat / 2 ^ 62 % 4 == 2

/-- Sixteen bytes that pass `Id::from_bytes`. -/
structure Uuid where
  bits : BitVec 128
  isV7 : isUuidV7 bits = true
  deriving DecidableEq

/-- `Id::from_bytes`. -/
def Uuid.fromBits (bits : BitVec 128) : Option Uuid :=
  if h : isUuidV7 bits = true then some ⟨bits, h⟩ else none

theorem Uuid.fromBits_eq_some {bits : BitVec 128} {u : Uuid} :
    fromBits bits = some u ↔ bits = u.bits := by
  unfold fromBits
  constructor
  · intro h
    split at h <;> cases h
    rfl
  · rintro rfl
    exact dif_pos u.isV7

/-- The order of identifiers is that of their bytes. -/
def Uuid.key (u : Uuid) : ℕ :=
  u.bits.toNat

theorem Uuid.key_injective : Function.Injective Uuid.key := by
  intro u v h
  have hb : u.bits = v.bits := BitVec.eq_of_toNat_eq h
  cases u
  cases v
  subst hb
  rfl

/-- The sixteen bytes, most significant first. -/
def Uuid.toBytes (u : Uuid) : Bytes :=
  (Common.digits 256 16 u.key).map UInt8.ofNat

@[simp] theorem Uuid.length_toBytes (u : Uuid) : u.toBytes.length = 16 := by
  simp [Uuid.toBytes]

theorem Uuid.toBytes_injective : Function.Injective Uuid.toBytes := by
  intro u v h
  exact Uuid.key_injective (congrArg BitVec.toNat ((Common.beBytes_toNat_inj 16).1 h))

/-- What an identifier names. -/
inductive Entity where
  | asset
  | assetRevision
  | representation
  | resource
  | location
  | command
  | runtime
  | domainEvent
  | provenanceEvent
  | project
  | projectSpecRevision
  | subject
  | workItem
  | workRevision
  | take
  | relationship
  | verificationReport
  deriving DecidableEq

/-- `Id<T>`. -/
structure Id (entity : Entity) where
  uuid : Uuid
  deriving DecidableEq

namespace Id

variable {entity : Entity}

def fromBits (bits : BitVec 128) : Option (Id entity) :=
  (Uuid.fromBits bits).map Id.mk

theorem fromBits_eq_some {bits : BitVec 128} {id : Id entity} :
    fromBits bits = some id ↔ bits = id.uuid.bits := by
  rw [fromBits, Option.map_eq_some_iff, ← Uuid.fromBits_eq_some]
  exact ⟨by rintro ⟨u, hu, rfl⟩; exact hu, fun h => ⟨_, h, rfl⟩⟩

def key (id : Id entity) : ℕ :=
  id.uuid.key

theorem uuid_injective : Function.Injective (Id.uuid : Id entity → Uuid) := by
  rintro ⟨u⟩ ⟨v⟩ h
  exact congrArg Id.mk h

theorem key_injective : Function.Injective (Id.key : Id entity → ℕ) := by
  intro a b h
  exact uuid_injective (Uuid.key_injective h)

theorem toBytes_injective {a b : Id entity} (h : a.uuid.toBytes = b.uuid.toBytes) : a = b :=
  uuid_injective (Uuid.toBytes_injective h)

theorem toBytes_inj {a b : Id entity} : a.uuid.toBytes = b.uuid.toBytes ↔ a = b :=
  ⟨toBytes_injective, fun h => by rw [h]⟩

end Id

/-! ## Digests and timestamps -/

/-- `Sha256Digest`. -/
structure Digest where
  bits : BitVec 256
  deriving DecidableEq

def Digest.key (d : Digest) : ℕ :=
  d.bits.toNat

/-- The thirty-two bytes, most significant first. -/
def Digest.toBytes (d : Digest) : Bytes :=
  (Common.digits 256 32 d.key).map UInt8.ofNat

@[simp] theorem Digest.length_toBytes (d : Digest) : d.toBytes.length = 32 := by
  simp [Digest.toBytes]

theorem Digest.toBytes_injective : Function.Injective Digest.toBytes := by
  intro u v h
  exact congrArg Digest.mk ((Common.beBytes_toNat_inj 32).1 h)

/-- The instants `Timestamp::from_unix_seconds_nanos` accepts: nanoseconds
below one second, and a year from 1 to 9999 in UTC. -/
def isTimestamp (seconds : ℤ) (nanos : ℕ) : Bool :=
  nanos ≤ 999999999 && -62135596800 ≤ seconds && seconds ≤ 253402300799

/-- `Timestamp`. -/
structure Timestamp where
  seconds : ℤ
  nanos : ℕ
  valid : isTimestamp seconds nanos = true
  deriving DecidableEq

/-- `RevisionNo`, a `u64` counter. -/
abbrev RevisionNo : Type := ℕ

/-- `u64::checked_add(1)`. -/
def checkedNext (revision : RevisionNo) : Option RevisionNo :=
  if revision + 1 < 2 ^ 64 then some (revision + 1) else none

theorem checkedNext_eq_some {r r' : RevisionNo} :
    checkedNext r = some r' ↔ r + 1 < 2 ^ 64 ∧ r' = r + 1 := by
  unfold checkedNext
  split <;> rename_i h
  · rw [Option.some_inj]
    exact ⟨fun e => ⟨h, e.symm⟩, fun e => e.2.symm⟩
  · exact ⟨fun e => (by cases e), fun e => absurd e.1 h⟩

theorem checkedNext_eq_none {r : RevisionNo} : checkedNext r = none ↔ 2 ^ 64 ≤ r + 1 := by
  unfold checkedNext
  split <;> rename_i h
  · exact ⟨fun e => (by cases e), fun e => absurd h (Nat.not_lt.mpr e)⟩
  · exact ⟨fun _ => Nat.not_lt.mp h, fun _ => rfl⟩

/-! ## Error codes -/

/-- `ErrorCode`. -/
inductive ErrorCode where
  | validationError
  | authenticationError
  | authorizationDenied
  | notFound
  | conflict
  | invalidTransition
  | sourceModifiedDuringIngest
  | storageIoError
  | storageCorruption
  | storageBusy
  | storageConfigurationError
  | ipcTransportError
  | protocolVersionUnsupported
  | deadlineExceeded
  | operationCancelled
  | providerValidation
  | invalidCredential
  | providerRateLimited
  | providerTimeout
  | providerUnavailable
  | submissionUnknown
  | pluginProtocolViolation
  | sandboxUnavailable
  | pluginRevoked
  | backpressure
  | internalError
  | commandInProgress
  | adminAuthUnavailable
  | unsupportedCapability
  | idGenerationUnavailable
  | revisionExhausted
  deriving DecidableEq

/-- `ErrorCode::as_str`. -/
def ErrorCode.asStr : ErrorCode → String
  | .validationError => "VALIDATION_ERROR"
  | .authenticationError => "AUTHENTICATION_ERROR"
  | .authorizationDenied => "AUTHORIZATION_DENIED"
  | .notFound => "NOT_FOUND"
  | .conflict => "CONFLICT"
  | .invalidTransition => "INVALID_TRANSITION"
  | .sourceModifiedDuringIngest => "SOURCE_MODIFIED_DURING_INGEST"
  | .storageIoError => "STORAGE_IO_ERROR"
  | .storageCorruption => "STORAGE_CORRUPTION"
  | .storageBusy => "STORAGE_BUSY"
  | .storageConfigurationError => "STORAGE_CONFIGURATION_ERROR"
  | .ipcTransportError => "IPC_TRANSPORT_ERROR"
  | .protocolVersionUnsupported => "PROTOCOL_VERSION_UNSUPPORTED"
  | .deadlineExceeded => "DEADLINE_EXCEEDED"
  | .operationCancelled => "OPERATION_CANCELLED"
  | .providerValidation => "PROVIDER_VALIDATION"
  | .invalidCredential => "INVALID_CREDENTIAL"
  | .providerRateLimited => "PROVIDER_RATE_LIMITED"
  | .providerTimeout => "PROVIDER_TIMEOUT"
  | .providerUnavailable => "PROVIDER_UNAVAILABLE"
  | .submissionUnknown => "SUBMISSION_UNKNOWN"
  | .pluginProtocolViolation => "PLUGIN_PROTOCOL_VIOLATION"
  | .sandboxUnavailable => "SANDBOX_UNAVAILABLE"
  | .pluginRevoked => "PLUGIN_REVOKED"
  | .backpressure => "BACKPRESSURE"
  | .internalError => "INTERNAL_ERROR"
  | .commandInProgress => "COMMAND_IN_PROGRESS"
  | .adminAuthUnavailable => "ADMIN_AUTH_UNAVAILABLE"
  | .unsupportedCapability => "UNSUPPORTED_CAPABILITY"
  | .idGenerationUnavailable => "ID_GENERATION_UNAVAILABLE"
  | .revisionExhausted => "REVISION_EXHAUSTED"

end MengXia
