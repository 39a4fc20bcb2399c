import MengXia.Payloads
import MengXia.Platform.Copy
/-!
# Crash intents

What a process leaves behind before it touches a library or a destination:
records of fixed fields with the hash of the fields at the end. The intents of
a bootstrap and of a migration are read back; the one of a materialization is
only compared, byte by byte, with the one that is expected.
-/

namespace MengXia

open Common VersionedResult

variable {record : Bytes} {offset : ℕ}

/-- Fields and the hash of them. -/
def withChecksum (fields : List Bytes) : Bytes :=
  fields.flatten ++ Digest.toBytes ⟨sha256 fields.flatten⟩

theorem withChecksum_eq_iff {fields : List Bytes} {widths : List ℕ}
    (h : fields.map List.length = widths) :
    withChecksum fields = record ↔ record.length = widths.sum + 32 ∧
      fieldsAt record 0 widths = fields ∧
      Digest.toBytes ⟨sha256 (slice record 0 widths.sum)⟩ =
        slice record widths.sum (widths.sum + 32) :=
  @eq_sealed_iff _ _ _ h (fun r => Digest.toBytes ⟨sha256 r⟩) 32 (fun _ => Digest.length_toBytes _)
    record

/-! ## What is read at an offset -/

/-- The `Id` at an offset. -/
def uuidAt (record : Bytes) (offset : ℕ) : Option Uuid :=
  Uuid.fromBits (BitVec.ofNat 128 (ofBeBytes (slice record offset (offset + 16))))

/-- The `Timestamp` at an offset, its seconds before its nanoseconds. -/
def timestampAt (record : Bytes) (offset : ℕ) : Option Timestamp :=
  if h : isTimestamp (u64At record offset).toInt (u32At record (offset + 8)).toNat = true then
    some ⟨_, _, h⟩
  else none

/-- The `Sha256Digest` at an offset. -/
def digestAt (record : Bytes) (offset : ℕ) : Digest :=
  ⟨BitVec.ofNat 256 (ofBeBytes (slice record offset (offset + 32)))⟩

theorem uuidAt_eq_some (h : offset + 16 ≤ record.length) {u : Uuid} :
    uuidAt record offset = some u ↔ slice record offset (offset + 16) = u.toBytes := by
  exact Uuid.fromBits_eq_some.trans (ofNat_ofBeBytes 16 (by rw [length_slice h]; omega))

theorem digestAt_eq (h : offset + 32 ≤ record.length) {d : Digest} :
    digestAt record offset = d ↔ slice record offset (offset + 32) = d.toBytes := by
  refine Iff.trans ?_ (ofNat_ofBeBytes 32 (by rw [length_slice h]; omega))
  exact ⟨congrArg Digest.bits, congrArg Digest.mk⟩

theorem timestampAt_eq_some (h : offset + 12 ≤ record.length) {t : Timestamp} :
    timestampAt record offset = some t ↔
      slice record offset (offset + 8) = beBytes 8 (BitVec.ofInt 64 t.seconds).toNat ∧
        slice record (offset + 8) (offset + 12) = beBytes 4 t.nanos := by
  have hvalid := t.valid
  simp only [isTimestamp, Bool.and_eq_true, decide_eq_true_eq] at hvalid
  have hseconds : (BitVec.ofInt 64 t.seconds).toInt = t.seconds := by
    rw [BitVec.toInt_ofInt, Int.bmod_eq_of_le] <;> omega
  have hnanos : (BitVec.ofNat 32 t.nanos).toNat = t.nanos := by
    rw [BitVec.toNat_ofNat]
    omega
  rw [← u64At_eq (by omega), ← hnanos, ← @u32At_eq _ (offset + 8) (by omega)]
  unfold timestampAt
  constructor
  · intro hread
    split at hread
    · cases hread
      simp
    · cases hread
  · rintro ⟨h1, h2⟩
    simp only [h1, h2, hseconds, hnanos, dif_pos t.valid]

/-- `slot_is_exact`. -/
def slotIsExact (record : Bytes) (offset width : ℕ) (value : Bytes) : Bool :=
  value.all (· < 128) && !value.contains 0 &&
    slice record offset (offset + value.length) = value &&
    reservedZero record (offset + value.length) (offset + width)

theorem slotIsExact_eq {width : ℕ} {value : Bytes} (h : offset + width ≤ record.length)
    (hvalue : (value.all (· < 128) && !value.contains 0) = true) :
    slotIsExact record offset width value = true ↔
      slice record offset (offset + value.length) = value ∧
        slice record (offset + value.length) (offset + width) =
          List.replicate (width - value.length) 0 := by
  rw [slotIsExact, hvalue, Bool.true_and, Bool.and_eq_true, decide_eq_true_eq, reservedZero_eq h,
    Nat.add_sub_add_left]

/-! ## The intent of a bootstrap -/

/-- `BootstrapIntent`. -/
@[ext] structure BootstrapIntent where
  rootDevice : BitVec 64
  rootInode : BitVec 64
  ownerUid : BitVec 32
  libraryId : Uuid
  createdAt : Timestamp
  migrationDigest : Digest

namespace BootstrapIntent

/-- `MAGIC`. -/
def magic : Bytes := Text.utf8 "MXBTINT1".toList

/-- `MIGRATION_NAME`. -/
def migrationName : Bytes := Text.utf8 "0000_store_bootstrap".toList

/-- `CANONICAL_BASENAME`. -/
def canonicalBasename : Bytes := Text.utf8 "library.sqlite3".toList

/-- `STAGING_BASENAME`. -/
def stagingBasename : Bytes := Text.utf8 ".library.sqlite3.bootstrap".toList

/-- What `encode` writes before the checksum, field by field; the bytes that
it does not set are zero. -/
def fields (intent : BootstrapIntent) : List Bytes :=
  [magic, beBytes 2 1, beBytes 2 76, beBytes 4 256, beBytes 8 intent.rootDevice.toNat,
    beBytes 8 intent.rootInode.toNat, beBytes 4 intent.ownerUid.toNat, List.replicate 4 0,
    intent.libraryId.toBytes, beBytes 8 (BitVec.ofInt 64 intent.createdAt.seconds).toNat,
    beBytes 4 intent.createdAt.nanos, beBytes 4 0, beBytes 1 migrationName.length,
    beBytes 1 canonicalBasename.length, beBytes 1 stagingBasename.length, List.replicate 1 0,
    migrationName, List.replicate 12 0, canonicalBasename, List.replicate 17 0, stagingBasename,
    List.replicate 6 0, intent.migrationDigest.toBytes, List.replicate 20 0]

/-- `BootstrapIntent::encode`. -/
def encode (intent : BootstrapIntent) : Bytes :=
  withChecksum intent.fields

/-- `BootstrapIntent::decode`; every refusal is `Configuration`. -/
def decode (record : Bytes) : Option BootstrapIntent :=
  if record.length ≠ 256 then none
  else if Digest.toBytes ⟨sha256 (slice record 0 224)⟩ ≠ slice record 224 256 ∨
      slice record 0 8 ≠ magic ∨ ofBeBytes (slice record 8 10) ≠ 1 ∨
      ofBeBytes (slice record 10 12) ≠ 76 ∨ ofBeBytes (slice record 12 16) ≠ 256 ∨
      ¬ reservedZero record 36 40 ∨ ofBeBytes (slice record 68 72) ≠ 0 ∨
      ofBeBytes (slice record 72 73) ≠ migrationName.length ∨
      ofBeBytes (slice record 73 74) ≠ canonicalBasename.length ∨
      ofBeBytes (slice record 74 75) ≠ stagingBasename.length ∨ ¬ reservedZero record 75 76 ∨
      ¬ slotIsExact record 76 32 migrationName ∨ ¬ slotIsExact record 108 32 canonicalBasename ∨
      ¬ slotIsExact record 140 32 stagingBasename ∨ ¬ reservedZero record 204 224 then none
  else do
    let libraryId ← uuidAt record 40
    let createdAt ← timestampAt record 56
    return ⟨u64At record 16, u64At record 24, u32At record 32, libraryId, createdAt,
      digestAt record 172⟩

variable {intent : BootstrapIntent}

/-- What is read from a record is what was written for the intent. -/
theorem values_eq_some (hlength : record.length = 256) :
    (do
      let libraryId ← uuidAt record 40
      let createdAt ← timestampAt record 56
      return (⟨u64At record 16, u64At record 24, u32At record 32, libraryId, createdAt,
        digestAt record 172⟩ : BootstrapIntent)) = some intent ↔
      slice record 16 24 = beBytes 8 intent.rootDevice.toNat ∧
      slice record 24 32 = beBytes 8 intent.rootInode.toNat ∧
      slice record 32 36 = beBytes 4 intent.ownerUid.toNat ∧
      slice record 40 56 = intent.libraryId.toBytes ∧
      (slice record 56 64 = beBytes 8 (BitVec.ofInt 64 intent.createdAt.seconds).toNat ∧
        slice record 64 68 = beBytes 4 intent.createdAt.nanos) ∧
      slice record 172 204 = intent.migrationDigest.toBytes := by
  rw [← u64At_eq (by omega), ← u64At_eq (by omega), ← u32At_eq (by omega),
    ← uuidAt_eq_some (by omega), ← timestampAt_eq_some (by omega), ← digestAt_eq (by omega)]
  simp only [bind, pure, Option.bind_eq_some_iff, Option.some.injEq, BootstrapIntent.ext_iff]
  grind

/-- **The intent of a record is the one it was written for.** -/
theorem decode_eq_some : decode record = some intent ↔ intent.encode = record := by
  have hconstants : magic.length = 8 ∧ migrationName.length = 20 ∧
    canonicalBasename.length = 15 ∧ stagingBasename.length = 26 := by decide
  have hwidths : intent.fields.map List.length = [8, 2, 2, 4, 8, 8, 4, 4, 16, 8, 4, 4, 1, 1, 1, 1,
      20, 12, 15, 17, 26, 6, 32, 20] := by
    simp [-List.reduceReplicate, fields, hconstants]
  rw [encode, withChecksum_eq_iff hwidths]
  by_cases hlength : record.length = 256
  · have hname := @slotIsExact_eq record 76 32 migrationName (by omega) (by decide)
    have hcanonical := @slotIsExact_eq record 108 32 canonicalBasename (by omega) (by decide)
    have hstaging := @slotIsExact_eq record 140 32 stagingBasename (by omega) (by decide)
    rw [decode, if_neg (not_not.2 hlength), Option.ite_none_left_eq_some, values_eq_some hlength]
    simp [-List.reduceReplicate, fields, fieldsAt, hlength, hconstants, hname, hcanonical,
      hstaging, reservedZero_eq, ofBeBytes_slice_eq_iff]
    -- the same fields on both sides, in the order of the checks and in that of the record
    grind
  · simp [decode, hlength]

end BootstrapIntent

/-! ## The intent of a migration -/

/-- `MigrationIntent`. -/
@[ext] structure MigrationIntent where
  attemptId : Uuid
  libraryId : Uuid
  rootDevice : BitVec 64
  rootInode : BitVec 64
  sourceDevice : BitVec 64
  sourceInode : BitVec 64
  sourceLength : BitVec 64
  sourceSha256 : Digest
  migrationPrefixSha256 : Digest
  createdAt : Timestamp

namespace MigrationIntent

/-- `MAGIC`. -/
def magic : Bytes := Text.utf8 "MENGXIA_MIG2_V1".toList ++ [0]

/-- `MIGRATION_NAME`. -/
def migrationName : Bytes := Text.utf8 "0002_projects_work".toList

/-- `CREATIVE_MIGRATION_SHA256`. -/
def creativeMigrationSha256 : Digest :=
  ⟨0xdc95fcfee381d07834e14975a0fdacd0874de9c6512c72ff0ac04777e07522d1⟩

/-- What `encode` writes before the checksum, field by field. -/
def fields (intent : MigrationIntent) : List Bytes :=
  [magic, beBytes 2 1, beBytes 2 512, List.replicate 4 0, intent.attemptId.toBytes,
    intent.libraryId.toBytes, beBytes 8 intent.rootDevice.toNat, beBytes 8 intent.rootInode.toNat,
    beBytes 8 intent.sourceDevice.toNat, beBytes 8 intent.sourceInode.toNat,
    beBytes 8 intent.sourceLength.toNat, intent.sourceSha256.toBytes,
    intent.migrationPrefixSha256.toBytes, creativeMigrationSha256.toBytes,
    beBytes 8 (BitVec.ofInt 64 intent.createdAt.seconds).toNat, beBytes 4 intent.createdAt.nanos,
    beBytes 2 2, beBytes 2 migrationName.length, migrationName, List.replicate 254 0]

/-- `MigrationIntent::encode`. -/
def encode (intent : MigrationIntent) : Bytes :=
  withChecksum intent.fields

/-- `MigrationIntent::decode` of the 512 bytes it is given; every refusal is
`Corruption`. -/
def decode (record : Bytes) : Option MigrationIntent :=
  if record.length ≠ 512 then none
  else if slice record 0 16 ≠ magic ∨ ofBeBytes (slice record 16 18) ≠ 1 ∨
      ofBeBytes (slice record 18 20) ≠ 512 ∨ ¬ reservedZero record 20 24 ∨
      slice record 160 192 ≠ creativeMigrationSha256.toBytes ∨
      ofBeBytes (slice record 204 206) ≠ 2 ∨
      ofBeBytes (slice record 206 208) ≠ migrationName.length ∨
      slice record 208 226 ≠ migrationName ∨ ¬ reservedZero record 226 480 ∨
      slice record 480 512 ≠ Digest.toBytes ⟨sha256 (slice record 0 480)⟩ then none
  else do
    let attemptId ← uuidAt record 24
    let libraryId ← uuidAt record 40
    let createdAt ← timestampAt record 192
    return ⟨attemptId, libraryId, u64At record 56, u64At record 64, u64At record 72,
      u64At record 80, u64At record 88, digestAt record 96, digestAt record 128, createdAt⟩

variable {intent : MigrationIntent}

/-- What is read from a record is what was written for the intent. -/
theorem values_eq_some (hlength : record.length = 512) :
    (do
      let attemptId ← uuidAt record 24
      let libraryId ← uuidAt record 40
      let createdAt ← timestampAt record 192
      return (⟨attemptId, libraryId, u64At record 56, u64At record 64, u64At record 72,
        u64At record 80, u64At record 88, digestAt record 96, digestAt record 128, createdAt⟩ :
        MigrationIntent)) = some intent ↔
      slice record 24 40 = intent.attemptId.toBytes ∧
      slice record 40 56 = intent.libraryId.toBytes ∧
      slice record 56 64 = beBytes 8 intent.rootDevice.toNat ∧
      slice record 64 72 = beBytes 8 intent.rootInode.toNat ∧
      slice record 72 80 = beBytes 8 intent.sourceDevice.toNat ∧
      slice record 80 88 = beBytes 8 intent.sourceInode.toNat ∧
      slice record 88 96 = beBytes 8 intent.sourceLength.toNat ∧
      slice record 96 128 = intent.sourceSha256.toBytes ∧
      slice record 128 160 = intent.migrationPrefixSha256.toBytes ∧
      slice record 192 200 = beBytes 8 (BitVec.ofInt 64 intent.createdAt.seconds).toNat ∧
        slice record 200 204 = beBytes 4 intent.createdAt.nanos := by
  rw [← uuidAt_eq_some (by omega), ← uuidAt_eq_some (by omega), ← u64At_eq (by omega),
    ← u64At_eq (by omega), ← u64At_eq (by omega), ← u64At_eq (by omega), ← u64At_eq (by omega),
    ← digestAt_eq (by omega), ← digestAt_eq (by omega), ← timestampAt_eq_some (by omega)]
  simp only [bind, pure, Option.bind_eq_some_iff, Option.some.injEq, MigrationIntent.ext_iff]
  grind

/-- **The intent of a record is the one it was written for.** -/
theorem decode_eq_some : decode record = some intent ↔ intent.encode = record := by
  have hconstants : magic.length = 16 ∧ migrationName.length = 18 := by decide
  have hwidths : intent.fields.map List.length = [16, 2, 2, 4, 16, 16, 8, 8, 8, 8, 8, 32, 32, 32,
      8, 4, 2, 2, 18, 254] := by
    simp [-List.reduceReplicate, fields, hconstants]
  rw [encode, withChecksum_eq_iff hwidths]
  by_cases hlength : record.length = 512
  · rw [decode, if_neg (not_not.2 hlength), Option.ite_none_left_eq_some, values_eq_some hlength]
    simp [-List.reduceReplicate, fields, fieldsAt, hlength, hconstants, reservedZero_eq,
      ofBeBytes_slice_eq_iff]
    grind
  · simp [decode, hlength]

end MigrationIntent

/-! ## The intent of a materialization -/

namespace Platform

open Common.Program

/-- `MaterializationIntentBinding`. -/
@[ext] structure IntentBinding where
  commandId : BitVec 128
  assetId : BitVec 128
  assetRevisionId : BitVec 128
  representationId : BitVec 128
  resourceId : BitVec 128
  memberOrdinal : BitVec 32
  expectedDigest : Digest
  expectedLength : BitVec 64
  requestDigest : Digest
  libraryId : BitVec 128

/-- `INTENT_MAGIC`. -/
def intentMagic : Bytes := Text.utf8 "MENGXIA_MAT_V1".toList ++ [0, 0]

/-- What `encode_intent_record` writes before the checksum, field by field. -/
def intentFields (binding : IntentBinding) (name : Bytes) (parentDevice parentInode : BitVec 64) :
    List Bytes :=
  [intentMagic, beBytes 2 1, beBytes 2 512, List.replicate 4 0, beBytes 16 binding.commandId.toNat,
    beBytes 16 binding.assetId.toNat, beBytes 16 binding.assetRevisionId.toNat,
    beBytes 16 binding.representationId.toNat, beBytes 16 binding.resourceId.toNat,
    beBytes 4 binding.memberOrdinal.toNat, List.replicate 4 0, binding.expectedDigest.toBytes,
    beBytes 8 binding.expectedLength.toNat, beBytes 8 parentDevice.toNat,
    beBytes 8 parentInode.toNat, beBytes 2 name.length,
    name ++ List.replicate (262 - name.length) 0, binding.requestDigest.toBytes,
    beBytes 16 binding.libraryId.toNat]

/-- `encode_intent_record`. -/
def encodeIntentRecord (binding : IntentBinding) (name : Bytes)
    (parentDevice parentInode : BitVec 64) : Except DestinationError Bytes :=
  if name = [] ∨ 255 < name.length ∨ name.contains 0 then .error .invalidPath
  else .ok (withChecksum (intentFields binding name parentDevice parentInode))

/-- `validate_exact_record` of the file that is read. -/
def validateExactRecord (expected : Bytes) : CopyProgram Unit := do
  let observed ← readLoop .unsafeConfiguration 512 512 0 []
  let trailing ← askIo (.pread 1 512)
  require (trailing = [] ∧ observed = expected) .unsafeConfiguration

/-- Some run of `validate_exact_record` accepts the file. -/
def Accepts {χ : Type} (view : χ → Choice) (s : Files) (expected : Bytes) : Prop :=
  ¬ Yields view (fun _ _ => False) (validateExactRecord expected) s

/-- **A record is accepted byte by byte.** -/
theorem Accepts.eq {χ : Type} {view : χ → Choice} {s : Files} {expected : Bytes}
    (h : Accepts view s expected) : s.staging = expected := by
  by_contra hne
  refine h (wpx_bind.2 (wpx_readLoop (List.nil_append s.staging).symm (Nat.zero_le _)
    (fun observed rest hfile hlength => ?_) fun _ _ => trivial))
  refine wpx_bind.2 (wpx_file (.pread ..) (fun c _ => ?_) fun _ _ _ => trivial)
  refine wpx_requires (fun hsame => hne ?_) fun _ => trivial
  -- nothing is read behind the record: it is the whole file
  have hread : Choice.read (view c) s.staging 1 512 = [] := hsame.1
  rw [hfile, ← hlength, Choice.read_append] at hread
  rw [hfile, hsame.2]
  simpa using hread

variable {binding binding' : IntentBinding} {name name' : Bytes}
  {parentDevice parentInode parentDevice' parentInode' : BitVec 64}

/-- **A record is written for one binding and one destination.** -/
theorem encodeIntentRecord_injective
    (h : encodeIntentRecord binding name parentDevice parentInode = .ok record)
    (h' : encodeIntentRecord binding' name' parentDevice' parentInode' = .ok record) :
    binding = binding' ∧ name = name' ∧ parentDevice = parentDevice' ∧
      parentInode = parentInode' := by
  obtain ⟨hname, h⟩ := refusal_eq_ok.1 h
  obtain ⟨hname', h'⟩ := refusal_eq_ok.1 h'
  simp only [not_or, not_lt] at hname hname'
  have hwidths : ∀ (binding : IntentBinding) (name : Bytes) (device inode : BitVec 64),
      name.length ≤ 255 → (intentFields binding name device inode).map List.length =
        [16, 2, 2, 4, 16, 16, 16, 16, 16, 4, 4, 32, 8, 8, 8, 2, 262, 32, 16] := by
    intro binding name device inode hshort
    have hmagic : intentMagic.length = 16 := by decide
    have hpadded : name.length + (262 - name.length) = 262 := by omega
    simp [intentFields, hmagic, hpadded]
  have hfields := fields_eq_of_sealed_eq (hwidths _ _ parentDevice parentInode hname.2.1)
    (hwidths _ _ parentDevice' parentInode' hname'.2.1)
    ((Except.ok.inj h).trans (Except.ok.inj h').symm)
  simp only [intentFields, List.cons.injEq, beBytes_toNat_inj 16, beBytes_toNat_inj 8,
    beBytes_toNat_inj 4, Digest.toBytes_injective.eq_iff, true_and, and_true] at hfields
  obtain ⟨hcommand, hasset, hrevision, hrepresentation, hresource, hordinal, hdigest, hexpected,
    hdevice, hinode, hsize, hpadded, hrequest, hlibrary⟩ := hfields
  have hnames : name.length = name'.length := by
    rw [← @ofBeBytes_beBytes 2 name.length (by omega), hsize, ofBeBytes_beBytes (by omega)]
  exact ⟨IntentBinding.ext hcommand hasset hrevision hrepresentation hresource hordinal hdigest
    hexpected hrequest hlibrary, (List.append_inj hpadded hnames).1, hdevice, hinode⟩

end Platform

/-- **Crash intents are unambiguous.** The intents of bootstraps and of
migrations are read back from their records, and from no other bytes. A
record of a materialization is written for one binding and one destination,
so that a sidecar which is accepted for them is accepted for no others. -/
theorem intents_unambiguous :
    (∀ intent : BootstrapIntent, BootstrapIntent.decode intent.encode = some intent) ∧
    (∀ record intent, BootstrapIntent.decode record = some intent → record = intent.encode) ∧
    (∀ intent : MigrationIntent, MigrationIntent.decode intent.encode = some intent) ∧
    (∀ record intent, MigrationIntent.decode record = some intent → record = intent.encode) ∧
    ∀ binding name device inode record binding' name' device' inode' record',
      Platform.encodeIntentRecord binding name device inode = .ok record →
      Platform.encodeIntentRecord binding' name' device' inode' = .ok record' →
      (record = record' → binding = binding' ∧ name = name' ∧ device = device' ∧ inode = inode') ∧
      ∀ (χ : Type) (view view' : χ → Platform.Choice) (sidecar : Platform.Files),
        Platform.Accepts view sidecar record → Platform.Accepts view' sidecar record' →
          binding = binding' ∧ name = name' ∧ device = device' ∧ inode = inode' := by
  refine ⟨fun _ => BootstrapIntent.decode_eq_some.2 rfl,
    fun _ _ h => (BootstrapIntent.decode_eq_some.1 h).symm,
    fun _ => MigrationIntent.decode_eq_some.2 rfl,
    fun _ _ h => (MigrationIntent.decode_eq_some.1 h).symm, ?_⟩
  intro binding name device inode record binding' name' device' inode' record' h h'
  have hsame : record = record' → _ := fun heq =>
    Platform.encodeIntentRecord_injective h (heq ▸ h')
  exact ⟨hsame, fun _ _ _ _ haccepts haccepts' => hsame (haccepts.eq.symm.trans haccepts'.eq)⟩

/-- Up to 200 bytes are read at a time. -/
def longReads : Platform.Choice :=
  { Platform.shortTransfers with portion := 199 }

/-- A binding of zeros but for its ordinal. -/
def firstBinding : Platform.IntentBinding :=
  ⟨0, 0, 0, 0, 0, 1, ⟨0⟩, 0, ⟨0⟩, 0⟩

/-- The sidecar of a destination is accepted for it, and for no other. -/
theorem firstBinding_accepted : ∃ record,
    Platform.encodeIntentRecord firstBinding [0x61] 7 8 = .ok record ∧
    Platform.Accepts (fun _ : Unit => longReads) ⟨record, fun _ => []⟩ record ∧
    ∀ binding name device inode record', Platform.encodeIntentRecord binding name device inode =
      .ok record' → Platform.Accepts (fun _ : Unit => longReads)
        ⟨record, fun _ => []⟩ record' →
      firstBinding = binding ∧ [0x61] = name ∧ 7 = device ∧ 8 = inode := by
  obtain ⟨record, hrecord⟩ : ∃ record,
      Platform.encodeIntentRecord firstBinding [0x61] 7 8 = .ok record := ⟨_, rfl⟩
  have haccepted : Platform.Accepts (fun _ : Unit => longReads)
      ⟨record, fun _ => []⟩ record := by
    intro hnever
    have hrun : (Program.runWith (Platform.Files.handle fun _ : Unit => longReads) ()
        (Platform.validateExactRecord record).run ⟨record, fun _ => []⟩).1 = .ok () := by
      cases hrecord
      decide +kernel
    have hend := Program.wp_runWith hnever ()
    rw [hrun] at hend
    exact hend
  refine ⟨record, hrecord, haccepted, fun binding name device inode record' hrecord' h' => ?_⟩
  exact (intents_unambiguous.2.2.2.2 _ _ _ _ _ _ _ _ _ _ hrecord hrecord').2 Unit _ _ _
    haccepted h'

end MengXia
