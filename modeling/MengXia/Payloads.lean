import MengXia.Store.Takes
/-!
# Persisted payloads

An event carries a list of tagged fields, and a versioned result a record of
fixed fields. The decoders are characterised as the inverses of the encoders:
what one accepts is the encoding of what it reads, and of nothing else.

A result holds its identifiers as raw bytes and is written whatever they are,
while the decoder takes only identifiers of version 7. A result comes back
exactly when its identifiers are such.
-/

namespace MengXia

open Common Store

variable {bytes : Bytes}

/-! ## Event payloads -/

namespace EventPayload

variable {fields : List (ℕ × Bytes)} {previous : ℕ} {encoded : Bytes}

/-- The loop of `EventPayload::decode` over the bytes from its cursor on, after
the tag `previous`, with the fields that it passes. -/
def passedFields (previous : ℕ) : Bytes → Option (List (ℕ × Bytes))
  | [] => some []
  | tag :: high :: low :: rest =>
    let length := high.toNat * 256 + low.toNat
    if tag.toNat ≤ previous ∨ length = 0 ∨ rest.length < length then none
    else (passedFields tag.toNat (rest.drop length)).map ((tag.toNat, rest.take length) :: ·)
  | _ => none
termination_by bytes => bytes.length
decreasing_by
  rw [List.length_drop]
  simp only [List.length_cons]
  omega

/-- `EventPayload::decode`: a payload is its bytes. -/
def decode (bytes : Bytes) : Option Bytes :=
  if bytes = [] ∨ 2048 < bytes.length then none
  else (passedFields 0 bytes).map fun _ => bytes

/-- **Writing one field**: what it has to be, and what is written. -/
theorem encodeFields_cons_eq_some {tag : ℕ} {value out : Bytes} :
    Store.encodeFields encoded previous ((tag, value) :: fields) = some out ↔
      (previous < tag ∧ tag < 256 ∧ value ≠ [] ∧ value.length < 2 ^ 16) ∧
        encoded.length + 3 + value.length ≤ 2048 ∧
        Store.encodeFields (encoded ++ [UInt8.ofNat tag, UInt8.ofNat (value.length / 256),
          UInt8.ofNat (value.length % 256)] ++ value) tag fields = some out := by
  rw [Store.encodeFields, Option.ite_none_left_eq_some]
  refine and_congr (by simp only [not_or, not_le, ne_eq]) ?_
  refine Option.ite_none_left_eq_some.trans (and_congr_left' ?_)
  simp only [List.length_append, List.length_cons, List.length_nil]
  omega

/-- **Fields that the decoder passes are written as they were found.** -/
theorem encodeFields_of_passed (h : passedFields previous bytes = some fields)
    (hbound : encoded.length + bytes.length ≤ 2048) :
    Store.encodeFields encoded previous fields = some (encoded ++ bytes) := by
  fun_induction passedFields previous bytes generalizing encoded fields with
  | case1 => cases h; rw [Store.encodeFields, List.append_nil]
  | case2 => cases h
  | case4 => cases h
  | case3 previous tag high low rest length hfield =>
    rename_i ih
    obtain ⟨fields, hfields, rfl⟩ := Option.map_eq_some_iff.1 h
    have hhigh := high.toNat_lt
    have hlow := low.toNat_lt
    have htag := tag.toNat_lt
    have htake : (rest.take length).length = length := by rw [List.length_take]; omega
    have hdiv : length / 256 = high.toNat := by omega
    have hmod : length % 256 = low.toNat := by omega
    simp only [List.length_cons] at hbound
    refine encodeFields_cons_eq_some.2 ⟨⟨by omega, by omega, ?_, by omega⟩, by omega, ?_⟩
    · exact List.ne_nil_of_length_pos (by omega)
    · rw [htake, hdiv, hmod, ih hfields (by simp; omega)]
      simp

/-- **Fields that are written are passed by the decoder.** -/
theorem passed_of_encodeFields {out : Bytes}
    (h : Store.encodeFields encoded previous fields = some out) (hbound : encoded.length ≤ 2048) :
    ∃ rest, out = encoded ++ rest ∧ out.length ≤ 2048 ∧
      passedFields previous rest = some fields := by
  induction fields generalizing previous encoded with
  | nil =>
    cases h
    exact ⟨[], (List.append_nil _).symm, hbound, by rw [passedFields]⟩
  | cons field fields ih =>
    obtain ⟨⟨hprevious, htag, hvalue, hlength⟩, hfits, h⟩ := encodeFields_cons_eq_some.1 h
    obtain ⟨rest, rfl, hout, hpassed⟩ := ih h (by simp; omega)
    have hpos := List.length_pos_of_ne_nil hvalue
    have hword : (UInt8.ofNat (field.2.length / 256)).toNat * 256 +
        (UInt8.ofNat (field.2.length % 256)).toNat = field.2.length := by
      rw [UInt8.toNat_ofNat', UInt8.toNat_ofNat']
      omega
    have hread : (UInt8.ofNat field.1).toNat = field.1 := UInt8.toNat_ofNat_of_lt' htag
    have hfield : ¬ (field.1 ≤ previous ∨ field.2.length = 0 ∨
        (field.2 ++ rest).length < field.2.length) := by
      rw [List.length_append]
      omega
    refine ⟨_, by rw [List.append_assoc, List.append_assoc], hout, ?_⟩
    rw [List.cons_append, List.cons_append, List.cons_append, List.nil_append, passedFields, hword,
      hread, if_neg hfield, List.drop_left, List.take_left, hpassed]
    rfl

/-- **A payload is written from the fields that the decoder passes.** -/
theorem eventPayload_eq_some :
    eventPayload fields = some (some bytes) ↔
      bytes ≠ [] ∧ bytes.length ≤ 2048 ∧ passedFields 0 bytes = some fields := by
  have hwritten : eventPayload fields = some (some bytes) ↔
      bytes ≠ [] ∧ Store.encodeFields [] 0 fields = some bytes := by
    unfold eventPayload
    cases Store.encodeFields [] 0 fields with
    | none => simp
    | some out => cases out <;> cases bytes <;> simp
  rw [hwritten]
  refine and_congr_right fun _ => ⟨fun h => ?_, fun h => ?_⟩
  · obtain ⟨rest, rfl, hrest⟩ := passed_of_encodeFields h (by simp)
    exact hrest
  · exact @encodeFields_of_passed _ _ _ [] h.2 (by simpa using h.1)

/-- **What the decoder accepts** is a payload that was written from fields. -/
theorem decode_eq_some {payload : Bytes} :
    decode bytes = some payload ↔
      payload = bytes ∧ ∃ fields, eventPayload fields = some (some payload) := by
  simp only [decode, eventPayload_eq_some, Option.ite_none_left_eq_some, Option.map_eq_some_iff,
    not_or, not_lt]
  constructor
  · rintro ⟨⟨hne, hle⟩, fields, hfields, rfl⟩
    exact ⟨rfl, fields, hne, hle, hfields⟩
  · rintro ⟨rfl, fields, hne, hle, hfields⟩
    exact ⟨⟨hne, hle⟩, fields, hfields, rfl⟩

/-- **A payload is written from the fields that its decoding passes.** -/
theorem eventPayload_iff_decode :
    eventPayload fields = some (some bytes) ↔
      decode bytes = some bytes ∧ passedFields 0 bytes = some fields := by
  rw [decode_eq_some]
  constructor
  · intro h
    exact ⟨⟨rfl, fields, h⟩, (eventPayload_eq_some.1 h).2.2⟩
  · rintro ⟨⟨-, fields', hwritten⟩, hpassed⟩
    obtain ⟨hne, hle, -⟩ := eventPayload_eq_some.1 hwritten
    exact eventPayload_eq_some.2 ⟨hne, hle, hpassed⟩

end EventPayload

/-! ## Versioned results -/

/-- `VersionedResultPayload`, with the identifiers as the source holds them. -/
inductive VersionedResult where
  | project (specRevisionId : BitVec 128) (revision : BitVec 64) (sequence : BitVec 32)
  | projectSpecRevision (projectId : BitVec 128) (revision : BitVec 64) (sequence : BitVec 32)
  | subject (revision : BitVec 64)
  | workItem (workRevisionId : BitVec 128) (revision : BitVec 64) (sequence : BitVec 32)
  | workRevision (workItemId : BitVec 128) (revision : BitVec 64) (sequence : BitVec 32)
  | take (revision : BitVec 64) (ordinal : BitVec 32) (state : TakeState)
      (primaryAssetId : BitVec 128) (relatedTakeId : Option (BitVec 128))
  | assetLifecycle (revision : BitVec 64) (lifecycle : AssetLifecycle)

/-- `TakeState::code`. -/
def TakeState.code : TakeState → UInt8
  | .candidate => 1
  | .shortlisted => 2
  | .selected => 3
  | .approved => 4
  | .rejected => 5
  | .superseded => 6

/-- The states by their codes, in `VersionedResultPayload::decode`. -/
def TakeState.ofCode : UInt8 → Option TakeState
  | 1 => some .candidate
  | 2 => some .shortlisted
  | 3 => some .selected
  | 4 => some .approved
  | 5 => some .rejected
  | 6 => some .superseded
  | _ => none

/-- The byte of a lifecycle in `VersionedResultPayload::encode`. -/
def AssetLifecycle.code : AssetLifecycle → UInt8
  | .active => 1
  | .retired => 2

/-- The lifecycles by their bytes. -/
def AssetLifecycle.ofCode : UInt8 → Option AssetLifecycle
  | 1 => some .active
  | 2 => some .retired
  | _ => none

theorem TakeState.ofCode_eq_some {code : UInt8} {state : TakeState} :
    TakeState.ofCode code = some state ↔ code = state.code := by
  constructor
  · intro h
    unfold TakeState.ofCode at h
    split at h <;> cases h <;> rfl
  · rintro rfl
    cases state <;> rfl

theorem AssetLifecycle.ofCode_eq_some {code : UInt8} {lifecycle : AssetLifecycle} :
    AssetLifecycle.ofCode code = some lifecycle ↔ code = lifecycle.code := by
  constructor
  · intro h
    unfold AssetLifecycle.ofCode at h
    split at h <;> cases h <;> rfl
  · rintro rfl
    cases lifecycle <;> rfl

namespace VersionedResult

variable {r : VersionedResult} {kind : ResultKind}

/-- `VersionedResultPayload::result_kind`. -/
def resultKind : VersionedResult → ResultKind
  | .project .. => .project
  | .projectSpecRevision .. => .projectSpecRevision
  | .subject .. => .subject
  | .workItem .. => .workItem
  | .workRevision .. => .workRevision
  | .take .. => .take
  | .assetLifecycle .. => .assetLifecycle

/-- The identifiers of a result. -/
def ids : VersionedResult → List (BitVec 128)
  | .project id _ _ | .projectSpecRevision id _ _ | .workItem id _ _ | .workRevision id _ _ => [id]
  | .subject _ | .assetLifecycle _ _ => []
  | .take _ _ _ asset related => asset :: related.toList

/-- `VersionedResultPayload::encode`, field by field; the bytes that it does
not set are zero. -/
def fields : VersionedResult → List Bytes
  | .project id revision sequence | .projectSpecRevision id revision sequence
  | .workItem id revision sequence | .workRevision id revision sequence =>
    [beBytes 16 id.toNat, beBytes 8 revision.toNat, beBytes 4 sequence.toNat, List.replicate 4 0]
  | .subject revision => [beBytes 8 revision.toNat, List.replicate 8 0]
  | .take revision ordinal state asset related =>
    [beBytes 8 revision.toNat, beBytes 4 ordinal.toNat, [state.code],
      [if related.isSome then 1 else 0], List.replicate 2 0, beBytes 16 asset.toNat,
      related.elim (List.replicate 16 0) fun id => beBytes 16 id.toNat]
  | .assetLifecycle revision lifecycle =>
    [beBytes 8 revision.toNat, [lifecycle.code], List.replicate 7 0]

def encode (r : VersionedResult) : Bytes :=
  r.fields.flatten

/-! The closures of `VersionedResultPayload::decode`. -/

def u64At (bytes : Bytes) (offset : ℕ) : BitVec 64 :=
  BitVec.ofNat 64 (ofBeBytes (slice bytes offset (offset + 8)))

def u32At (bytes : Bytes) (offset : ℕ) : BitVec 32 :=
  BitVec.ofNat 32 (ofBeBytes (slice bytes offset (offset + 4)))

def idAt (bytes : Bytes) (offset : ℕ) : Option (BitVec 128) :=
  let raw := BitVec.ofNat 128 (ofBeBytes (slice bytes offset (offset + 16)))
  if isUuidV7 raw then some raw else none

def reservedZero (bytes : Bytes) (start stop : ℕ) : Bool :=
  (slice bytes start stop).all (· = 0)

/-- What the four kinds of 32 bytes hold. -/
def linkedAt (bytes : Bytes) : Option (BitVec 128 × BitVec 64 × BitVec 32) :=
  if bytes.length = 32 ∧ reservedZero bytes 28 32 then
    (idAt bytes 0).map fun id => (id, u64At bytes 16, u32At bytes 24)
  else none

/-- The related take of the branch of takes. -/
def relatedAt (bytes : Bytes) : Option (Option (BitVec 128)) :=
  if bytes.getD 13 0 = 0 ∧ reservedZero bytes 32 48 then some none
  else if bytes.getD 13 0 = 1 then (idAt bytes 32).map some
  else none

/-- `VersionedResultPayload::decode`; every refusal is `StorageCorruption`, and
a text that is no kind is refused like the kinds held in columns. -/
def decode (kind : ResultKind) (bytes : Bytes) : Option VersionedResult :=
  match kind with
  | .project => (linkedAt bytes).map fun x => .project x.1 x.2.1 x.2.2
  | .projectSpecRevision => (linkedAt bytes).map fun x => .projectSpecRevision x.1 x.2.1 x.2.2
  | .subject =>
    if bytes.length = 16 ∧ reservedZero bytes 8 16 then some (.subject (u64At bytes 0)) else none
  | .workItem => (linkedAt bytes).map fun x => .workItem x.1 x.2.1 x.2.2
  | .workRevision => (linkedAt bytes).map fun x => .workRevision x.1 x.2.1 x.2.2
  | .take =>
    if bytes.length = 48 ∧ reservedZero bytes 14 16 then
      (TakeState.ofCode (bytes.getD 12 0)).bind fun state =>
      (relatedAt bytes).bind fun related =>
      (idAt bytes 16).map fun asset =>
      .take (u64At bytes 0) (u32At bytes 8) state asset related
    else none
  | .assetLifecycle =>
    if bytes.length = 16 ∧ reservedZero bytes 9 16 then
      (AssetLifecycle.ofCode (bytes.getD 8 0)).map fun lifecycle =>
      .assetLifecycle (u64At bytes 0) lifecycle
    else none
  | .asset | .assetRevision | .location => none

variable {offset : ℕ}

theorem u64At_eq (h : offset + 8 ≤ bytes.length) {v : BitVec 64} :
    u64At bytes offset = v ↔ slice bytes offset (offset + 8) = beBytes 8 v.toNat :=
  ofNat_ofBeBytes 8 (by rw [length_slice h]; omega)

theorem u32At_eq (h : offset + 4 ≤ bytes.length) {v : BitVec 32} :
    u32At bytes offset = v ↔ slice bytes offset (offset + 4) = beBytes 4 v.toNat :=
  ofNat_ofBeBytes 4 (by rw [length_slice h]; omega)

theorem idAt_eq (h : offset + 16 ≤ bytes.length) {id : BitVec 128} :
    idAt bytes offset = some id ↔
      isUuidV7 id = true ∧ slice bytes offset (offset + 16) = beBytes 16 id.toNat := by
  rw [← ofNat_ofBeBytes 16 (by rw [length_slice h]; omega), idAt,
    Option.ite_none_right_eq_some, Option.some_inj]
  refine and_congr_left fun hid => ?_
  rw [hid]

theorem reservedZero_eq {start stop : ℕ} (h : stop ≤ bytes.length) :
    reservedZero bytes start stop = true ↔
      slice bytes start stop = List.replicate (stop - start) 0 := by
  rw [← length_slice h, List.eq_replicate_length, reservedZero, List.all_eq_true]
  simp

theorem slice_one (h : offset < bytes.length) :
    slice bytes offset (offset + 1) = [bytes.getD offset 0] := by
  rw [slice, Nat.add_sub_cancel_left, List.drop_eq_getElem_cons h,
    List.getD_eq_getElem?_getD, List.getElem?_eq_getElem h]
  rfl

theorem linkedAt_eq_some {id : BitVec 128} {revision : BitVec 64} {sequence : BitVec 32} :
    linkedAt bytes = some (id, revision, sequence) ↔ isUuidV7 id = true ∧
      bytes = [beBytes 16 id.toNat, beBytes 8 revision.toNat, beBytes 4 sequence.toNat,
        List.replicate 4 0].flatten := by
  rw [linkedAt, Option.ite_none_right_eq_some, @eq_flatten_iff _ [16, 8, 4, 4] _ (by simp)]
  by_cases hlength : bytes.length = 32
  · simp [fieldsAt, hlength, idAt_eq, u64At_eq, u32At_eq, reservedZero_eq]
    tauto
  · simp [hlength]

theorem relatedAt_eq_some (h : bytes.length = 48) {related : Option (BitVec 128)} :
    relatedAt bytes = some related ↔ (∀ id ∈ related, isUuidV7 id = true) ∧
      bytes.getD 13 0 = (if related.isSome then 1 else 0) ∧
      slice bytes 32 48 = related.elim (List.replicate 16 0) fun id => beBytes 16 id.toNat := by
  have hzero := @reservedZero_eq bytes 32 48 (by omega)
  have hid := @idAt_eq bytes 32 (by omega)
  unfold relatedAt
  generalize bytes.getD 13 0 = flag
  cases related with
  | none => simp [hzero]
  | some id => by_cases hflag : flag = 1 <;> simp [hflag, hid]

/-- **A record that holds a result** is read under its kind, and no other is. -/
theorem decode_resultKind :
    decode r.resultKind bytes = some r ↔
      (∀ id ∈ r.ids, isUuidV7 id = true) ∧ bytes = r.encode := by
  rw [encode]
  cases r with
  | project id revision sequence | projectSpecRevision id revision sequence
  | workItem id revision sequence | workRevision id revision sequence =>
    simpa [resultKind, decode, ids, fields] using @linkedAt_eq_some bytes id revision sequence
  | subject revision =>
    rw [@eq_flatten_iff _ [8, 8] _ (by simp [fields])]
    by_cases hlength : bytes.length = 16
    · simp [resultKind, decode, ids, fields, fieldsAt, hlength, u64At_eq, reservedZero_eq]
      tauto
    · simp [resultKind, decode, hlength]
  | assetLifecycle revision lifecycle =>
    rw [@eq_flatten_iff _ [8, 1, 7] _ (by simp [fields])]
    by_cases hlength : bytes.length = 16
    · have hcode := @slice_one bytes 8 (by omega)
      simp [resultKind, decode, ids, fields, fieldsAt, hlength, u64At_eq, reservedZero_eq, hcode,
        AssetLifecycle.ofCode_eq_some]
      tauto
    · simp [resultKind, decode, hlength]
  | take revision ordinal state asset related =>
    rw [@eq_flatten_iff _ [8, 4, 1, 1, 2, 16, 16] _ (by cases related <;> simp [fields])]
    by_cases hlength : bytes.length = 48
    · have hcode := @slice_one bytes 12 (by omega)
      have hflag := @slice_one bytes 13 (by omega)
      simp [resultKind, decode, ids, fields, fieldsAt, hlength, u64At_eq, u32At_eq, idAt_eq,
        reservedZero_eq, hcode, hflag, TakeState.ofCode_eq_some, relatedAt_eq_some,
        Option.bind_eq_some_iff]
      tauto
    · simp [resultKind, decode, hlength]

theorem resultKind_of_decode (h : decode kind bytes = some r) : r.resultKind = kind := by
  cases kind with
  | asset | assetRevision | location => cases h
  | project | projectSpecRevision | workItem | workRevision =>
    obtain ⟨x, -, rfl⟩ := Option.map_eq_some_iff.1 h
    rfl
  | subject =>
    obtain ⟨-, h⟩ := Option.ite_none_right_eq_some.1 h
    cases h
    rfl
  | assetLifecycle =>
    obtain ⟨-, h⟩ := Option.ite_none_right_eq_some.1 h
    obtain ⟨lifecycle, -, rfl⟩ := Option.map_eq_some_iff.1 h
    rfl
  | take =>
    obtain ⟨-, h⟩ := Option.ite_none_right_eq_some.1 h
    obtain ⟨state, -, h⟩ := Option.bind_eq_some_iff.1 h
    obtain ⟨related, -, h⟩ := Option.bind_eq_some_iff.1 h
    obtain ⟨asset, -, rfl⟩ := Option.map_eq_some_iff.1 h
    rfl

/-- **What the decoder accepts** under a kind is the encoding of the result it
returns, of that kind and with identifiers of version 7. -/
theorem decode_eq_some :
    decode kind bytes = some r ↔
      r.resultKind = kind ∧ (∀ id ∈ r.ids, isUuidV7 id = true) ∧ bytes = r.encode := by
  constructor
  · intro h
    have hkind := resultKind_of_decode h
    exact ⟨hkind, decode_resultKind.1 (by rwa [hkind])⟩
  · rintro ⟨rfl, h⟩
    exact decode_resultKind.2 h

end VersionedResult

/-- **The persisted payload codecs are inverse to each other.** Fields are
written as `bytes` exactly when the decoder accepts these and passes those
fields, and it accepts nothing else. A result comes back from its encoding
exactly when its identifiers are of version 7, and its decoder, too, accepts
nothing but encodings. -/
theorem payload_codecs_inverse :
    (∀ fields bytes, eventPayload fields = some (some bytes) ↔
      EventPayload.decode bytes = some bytes ∧
        EventPayload.passedFields 0 bytes = some fields) ∧
    (∀ bytes payload, EventPayload.decode bytes = some payload ↔
      payload = bytes ∧ ∃ fields, eventPayload fields = some (some payload)) ∧
    (∀ r : VersionedResult, VersionedResult.decode r.resultKind r.encode = some r ↔
      ∀ id ∈ r.ids, isUuidV7 id = true) ∧
    (∀ kind bytes (r : VersionedResult), VersionedResult.decode kind bytes = some r ↔
      r.resultKind = kind ∧ (∀ id ∈ r.ids, isUuidV7 id = true) ∧ bytes = r.encode) := by
  refine ⟨fun _ _ => EventPayload.eventPayload_iff_decode, fun _ _ => EventPayload.decode_eq_some,
    fun r => ?_, fun _ _ _ => VersionedResult.decode_eq_some⟩
  rw [VersionedResult.decode_resultKind]
  exact and_iff_left rfl

/-- **A project whose revision is named by sixteen zero bytes** is written but
not read back. -/
theorem versionedResult_not_read_back :
    VersionedResult.decode (VersionedResult.project 0 1 1).resultKind
      (VersionedResult.project 0 1 1).encode ≠ some (.project 0 1 1) := by
  intro h
  have hv7 := (VersionedResult.decode_resultKind.1 h).1 0 (List.mem_singleton_self _)
  exact absurd hv7 (by decide)

end MengXia
