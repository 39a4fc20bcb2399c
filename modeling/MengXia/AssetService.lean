
import MengXia.Common.Sha256
import MengXia.Store.AssetQuery
/-!
# The asset query service

The cursors of `ListAssets` and `InspectAsset` and the service method around
the port. A cursor is a record of 80 or 208 bytes that ends with the hash of
the rest.
-/

namespace MengXia

open Common

variable {libraryId : BitVec 128} {bytes representation resource phase location : Bytes}
  {position : InspectAssetPosition} {e : AssetStoreError} {assetId : Id .asset} {entity : Entity}

variable {fields : List Bytes}

/-! ## Cursors -/

/-- `LIST_CURSOR_MAGIC`. -/
def listCursorMagic : Bytes :=
  Text.utf8 "MXLCUR2".toList ++ [0]

/-- The first 48 bytes of a cursor, field by field. -/
def listCursorFields (libraryId : BitVec 128) (snapshotSequence lastExaminedSequence : ℕ) :
    List Bytes :=
  [listCursorMagic, beBytes 2 2, beBytes 2 80, beBytes 4 1, beBytes 16 libraryId.toNat,
    beBytes 8 snapshotSequence, beBytes 8 lastExaminedSequence]

/-- `encode_list_cursor`. -/
def encodeListCursor (position : ListAssetsPosition) (expectedLibraryId : BitVec 128) :
    AssetResult Bytes :=
  match position with
  | .first => .error .internal
  | .after libraryId snapshotSequence lastExaminedSequence _ =>
    if libraryId ≠ expectedLibraryId then .error .storageCorruption
    else do
      let _ ← ListAssetsPosition.newAfter libraryId snapshotSequence lastExaminedSequence
      let record := (listCursorFields libraryId snapshotSequence lastExaminedSequence).flatten
      .ok (record ++ Digest.toBytes ⟨sha256 record⟩)

/-- `decode_list_cursor`. -/
def decodeListCursor (cursor : Bytes) (expectedLibraryId : BitVec 128) :
    AssetResult ListAssetsPosition :=
  if cursor.length ≠ 80 then .error .validation
  else if slice cursor 0 8 ≠ listCursorMagic ∨ ofBeBytes (slice cursor 8 10) ≠ 2 ∨
      ofBeBytes (slice cursor 10 12) ≠ 80 ∨ ofBeBytes (slice cursor 12 16) ≠ 1 ∨
      slice cursor 16 32 ≠ beBytes 16 expectedLibraryId.toNat ∨
      Digest.toBytes ⟨sha256 (slice cursor 0 48)⟩ ≠ slice cursor 48 80 then .error .validation
  else
    ListAssetsPosition.newAfter expectedLibraryId (ofBeBytes (slice cursor 32 40))
      (ofBeBytes (slice cursor 40 48))

/-- The widths of the fields of a list cursor. -/
def listCursorWidths : List ℕ := [8, 2, 2, 4, 16, 8, 8]

theorem map_length_listCursorFields (libraryId : BitVec 128)
    (snapshotSequence lastExaminedSequence : ℕ) :
    (listCursorFields libraryId snapshotSequence lastExaminedSequence).map List.length =
      listCursorWidths := by
  have hmagic : listCursorMagic.length = 8 := by decide
  simp [listCursorFields, listCursorWidths, hmagic]

/-- **The decoder accepts the cursors that are written**, and no other bytes. -/
theorem decodeListCursor_eq_ok {position : ListAssetsPosition} :
    decodeListCursor bytes libraryId = .ok position ↔
      encodeListCursor position libraryId = .ok bytes := by
  cases position with
  | first =>
    simp only [decodeListCursor, encodeListCursor, refusal_eq_ok, ListAssetsPosition.newAfter]
    grind
  | after stored snapshot last valid =>
    have hrecord := @eq_sealed_iff _ _ _ (map_length_listCursorFields stored snapshot last)
      (fun record => Digest.toBytes ⟨sha256 record⟩) 32 (fun _ => Digest.length_toBytes _) bytes
    have hbounds : snapshot < 256 ^ 8 ∧ last < 256 ^ 8 := by
      simp only [isListPosition, Bool.and_eq_true, decide_eq_true_eq] at valid
      omega
    have hnew (x y : ℕ) :
        ListAssetsPosition.newAfter libraryId x y = .ok (.after stored snapshot last valid) ↔
          libraryId = stored ∧ x = snapshot ∧ y = last := by
      unfold ListAssetsPosition.newAfter
      split <;> grind
    have hself : ListAssetsPosition.newAfter stored snapshot last = _ := dif_pos valid
    simp only [decodeListCursor, encodeListCursor, refusal_eq_ok, not_or, not_not, hself, bind,
      Except.bind, Except.ok.injEq, hrecord, hnew]
    by_cases hlength : bytes.length = 80
    · simp only [hlength, ofBeBytes_slice_eq_iff, listCursorFields, listCursorWidths, fieldsAt,
        List.cons.injEq, Nat.reduceAdd, Nat.reduceLeDiff, Nat.reduceSub, Nat.reducePow,
        Nat.reduceLT, List.sum_cons, List.sum_nil, true_and, and_true]
      grind
    · simp [hlength, listCursorWidths]

/-- **A cursor is read back as the position it was written for.** -/
theorem decodeListCursor_encode {snapshotSequence lastExaminedSequence : ℕ}
    (valid : isListPosition libraryId snapshotSequence lastExaminedSequence = true) :
    ∃ bytes, encodeListCursor (.after libraryId snapshotSequence lastExaminedSequence valid)
        libraryId = .ok bytes ∧ bytes ≠ [] ∧
      decodeListCursor bytes libraryId =
        .ok (.after libraryId snapshotSequence lastExaminedSequence valid) := by
  have hnew : ListAssetsPosition.newAfter libraryId snapshotSequence lastExaminedSequence = _ :=
    dif_pos valid
  have hencode : ∃ bytes, encodeListCursor
      (.after libraryId snapshotSequence lastExaminedSequence valid) libraryId = .ok bytes := by
    simp [encodeListCursor, hnew, bind, Except.bind]
  obtain ⟨bytes, hencode⟩ := hencode
  have hdecode := decodeListCursor_eq_ok.2 hencode
  have hlength := not_not.1 (refusal_eq_ok.1 hdecode).1
  exact ⟨bytes, hencode, List.ne_nil_of_length_pos (by omega), hdecode⟩

theorem onlyFails_decodeListCursor : OnlyFails .validation (decodeListCursor bytes libraryId) :=
  .ite .error (.ite .error (.dite (fun _ => .ok) fun _ => .error))

/-! ## Cursors of inspections -/

/-- `INSPECT_CURSOR_MAGIC`. -/
def inspectCursorMagic : Bytes :=
  Text.utf8 "MXICUR2".toList ++ [0]

/-- The number of a phase in a cursor. -/
def InspectMemberPhase.code : InspectMemberPhase → ℕ
  | .noLocationSeen => 1
  | .locationSeen => 2
  | .requiredCustodySeen => 3

/-- The phase of a number in a cursor. -/
def InspectMemberPhase.ofCode : ℕ → AssetResult InspectMemberPhase
  | 1 => .ok .noLocationSeen
  | 2 => .ok .locationSeen
  | 3 => .ok .requiredCustodySeen
  | _ => .error .validation

/-- `typed_id`. -/
def typedId {entity : Entity} (bytes : Bytes) : AssetResult (Id entity) :=
  if bytes.length ≠ 16 then .error .validation
  else match Id.fromBits (BitVec.ofNat 128 (ofBeBytes bytes)) with
    | none => .error .validation
    | some id => .ok id

/-- The bytes of a location that may be absent. -/
def locationBytes : Option (Id .location) → Bytes
  | none => List.replicate 16 0
  | some id => id.uuid.toBytes

/-- The bytes of a cursor that name its member, field by field: zeros before
the first member. -/
def InspectAssetPosition.memberFields (position : InspectAssetPosition) :
    AssetResult (List Bytes) :=
  match position.member, position.phase, position.blobRevision with
  | none, none, none =>
    if position.lastLocationId.isNone then
      .ok [List.replicate 16 0, List.replicate 16 0, List.replicate 4 0, List.replicate 4 0,
        List.replicate 8 0, List.replicate 16 0]
    else .error .internal
  | some key, some phase, some blobRevision =>
    .ok [key.representationId.uuid.toBytes, key.resourceId.uuid.toBytes, beBytes 4 key.ordinal,
      beBytes 4 phase.code, beBytes 8 blobRevision, locationBytes position.lastLocationId]
  | _, _, _ => .error .internal

/-- The first 72 bytes of a cursor, field by field. -/
def inspectCursorHead (libraryId : BitVec 128) (assetId : Id .asset)
    (selectedRevisionId : Id .assetRevision) (assetRevision : RevisionNo) : List Bytes :=
  [inspectCursorMagic, beBytes 2 2, beBytes 2 208, beBytes 4 2, beBytes 16 libraryId.toNat,
    assetId.uuid.toBytes, selectedRevisionId.uuid.toBytes, beBytes 8 assetRevision]

/-- `encode_inspect_cursor`. -/
def encodeInspectCursor (position : InspectAssetPosition) (expectedLibraryId : BitVec 128) :
    AssetResult Bytes :=
  if position.libraryId ≠ expectedLibraryId then .error .storageCorruption
  else do
    let fields ← position.memberFields
    let record := (inspectCursorHead expectedLibraryId position.assetId
      position.selectedRevisionId position.assetRevision ++ fields ++
      [List.replicate 40 0]).flatten
    .ok (record ++ Digest.toBytes ⟨sha256 record⟩)

/-- The last location of a cursor, absent when its bytes are zero. -/
def decodeLocation (bytes : Bytes) : AssetResult (Option (Id .location)) :=
  if bytes.all (· = 0) then .ok none
  else do
    let id ← typedId bytes
    .ok (some id)

/-- The position at the member whose fields a cursor holds: the last part of
`decode_inspect_cursor`. -/
def decodeInspectMember (libraryId : BitVec 128) (assetId : Id .asset)
    (selectedRevisionId : Id .assetRevision) (assetRevision : RevisionNo)
    (representation resource ordinal phase blobRevision location : Bytes) :
    AssetResult InspectAssetPosition := do
  let phase ← InspectMemberPhase.ofCode (ofBeBytes phase)
  let representationId ← typedId representation
  let resourceId ← typedId resource
  if 4095 < ofBeBytes ordinal then .error .validation
  else do
    let lastLocationId ← decodeLocation location
    InspectAssetPosition.new libraryId assetId selectedRevisionId assetRevision
      (some ⟨representationId, resourceId, ofBeBytes ordinal⟩) (some phase)
      (some (ofBeBytes blobRevision)) lastLocationId

/-- `decode_inspect_cursor`. -/
def decodeInspectCursor (cursor : Bytes) (expectedLibraryId : BitVec 128) :
    AssetResult InspectAssetPosition :=
  if cursor.length ≠ 208 then .error .validation
  else if slice cursor 0 8 ≠ inspectCursorMagic ∨ ofBeBytes (slice cursor 8 10) ≠ 2 ∨
      ofBeBytes (slice cursor 10 12) ≠ 208 ∨ ofBeBytes (slice cursor 12 16) ≠ 2 ∨
      slice cursor 16 32 ≠ beBytes 16 expectedLibraryId.toNat ∨
      (slice cursor 136 176).any (· ≠ 0) ∨
      Digest.toBytes ⟨sha256 (slice cursor 0 176)⟩ ≠ slice cursor 176 208 then .error .validation
  else do
    let assetId ← typedId (slice cursor 32 48)
    let selectedRevisionId ← typedId (slice cursor 48 64)
    let assetRevision := ofBeBytes (slice cursor 64 72)
    if ofBeBytes (slice cursor 108 112) = 0 then
      if (slice cursor 72 136).any (· ≠ 0) then .error .validation
      else
        InspectAssetPosition.new expectedLibraryId assetId selectedRevisionId assetRevision none
          none none none
    else
      decodeInspectMember expectedLibraryId assetId selectedRevisionId assetRevision
        (slice cursor 72 88) (slice cursor 88 104) (slice cursor 104 108) (slice cursor 108 112)
        (slice cursor 112 120) (slice cursor 120 136)

theorem InspectMemberPhase.ofCode_eq_ok {n : ℕ} {phase : InspectMemberPhase} :
    ofCode n = .ok phase ↔ n = phase.code := by
  constructor
  · intro h
    unfold ofCode at h
    split at h <;> cases h <;> rfl
  · rintro rfl
    cases phase <;> rfl

/-- **The bytes of an identifier**, and no others, are read as it. -/
theorem typedId_eq_ok {id : Id entity} : typedId bytes = .ok id ↔ bytes = id.uuid.toBytes := by
  rw [typedId, refusal_eq_ok, not_not]
  constructor
  · rintro ⟨hlength, h⟩
    split at h
    · cases h
    · rename_i found hfound
      cases h
      exact (ofNat_ofBeBytes 16 hlength).1 (Id.fromBits_eq_some.1 hfound)
  · rintro rfl
    have hbits : _ = id.uuid.bits := (ofNat_ofBeBytes 16 id.uuid.length_toBytes).2 rfl
    refine ⟨id.uuid.length_toBytes, ?_⟩
    rw [Id.fromBits_eq_some.2 hbits]

@[simp] theorem length_locationBytes (location : Option (Id .location)) :
    (locationBytes location).length = 16 := by
  cases location <;> simp [locationBytes]

/-- **The bytes of a location**, and no others, are read as it: no identifier
is all zeros. -/
theorem decodeLocation_eq_ok (hlength : bytes.length = 16) {location : Option (Id .location)} :
    decodeLocation bytes = .ok location ↔ bytes = locationBytes location := by
  have hzero : (bytes.all fun byte => decide (byte = 0)) = true ↔ bytes = List.replicate 16 0 := by
    rw [← hlength, List.eq_replicate_length]
    simp
  have hne (id : Id .location) : id.uuid.toBytes ≠ List.replicate 16 0 := by
    intro h
    have hbits : _ = id.uuid.bits := (ofNat_ofBeBytes 16 id.uuid.length_toBytes).2 rfl
    have hv7 := id.uuid.isV7
    rw [← hbits, h] at hv7
    exact absurd hv7 (by decide)
  simp only [decodeLocation, hzero, ite_eq_iff, exceptBind_eq_ok, typedId_eq_ok, Except.ok.injEq]
  cases location with
  | none => simp [locationBytes, -List.reduceReplicate]
  | some id =>
    simp only [locationBytes, reduceCtorEq, and_false, false_or, Option.some.injEq]
    grind

/-- The widths of the fields of an inspection cursor. -/
def inspectCursorWidths : List ℕ := [8, 2, 2, 4, 16, 16, 16, 8, 16, 16, 4, 4, 8, 16, 40]

/-- The numbers of a position fit their fields, and its member is one that a
cursor may name. -/
structure InspectAssetPosition.Fits (position : InspectAssetPosition) : Prop where
  assetRevision : position.assetRevision < 2 ^ 64
  blobRevision : ∀ revision ∈ position.blobRevision, revision < 2 ^ 64
  ordinal : ∀ key ∈ position.member, key.ordinal ≤ 4095

/-- **A position is before the first member or at one**, and has all of a
member then. -/
theorem InspectAssetPosition.cases_member (position : InspectAssetPosition) :
    position.member = none ∧ position.phase = none ∧ position.blobRevision = none ∧
        position.lastLocationId = none ∨
      ∃ key phase blobRevision, position.member = some key ∧ position.phase = some phase ∧
        position.blobRevision = some blobRevision := by
  have hvalid := position.valid
  unfold isInspectPosition at hvalid
  simp only [Bool.and_eq_true, Bool.or_eq_true, Option.isNone_iff_eq_none, Option.any_eq_true,
    Option.isSome_iff_exists] at hvalid
  obtain ⟨-, ⟨⟨⟨hmember, hphase⟩, hblob⟩, hlast⟩ | ⟨⟨⟨key, hkey⟩, blob, hblob, -⟩, phase, hphase,
    -⟩⟩ := hvalid
  · exact .inl ⟨hmember, hphase, hblob, hlast⟩
  · exact .inr ⟨key, phase, blob, hkey, hphase, hblob⟩

/-- A position is built of its parts. -/
theorem InspectAssetPosition.new_eq_ok {selectedRevisionId : Id .assetRevision}
    {assetRevision : RevisionNo} {member : Option MemberKey} {phase : Option InspectMemberPhase}
    {blobRevision : Option RevisionNo} {lastLocationId : Option (Id .location)} :
    InspectAssetPosition.new libraryId assetId selectedRevisionId assetRevision member phase
        blobRevision lastLocationId = .ok position ↔
      libraryId = position.libraryId ∧ assetId = position.assetId ∧
        selectedRevisionId = position.selectedRevisionId ∧
        assetRevision = position.assetRevision ∧ member = position.member ∧
        phase = position.phase ∧ blobRevision = position.blobRevision ∧
        lastLocationId = position.lastLocationId := by
  constructor
  · intro h
    unfold InspectAssetPosition.new at h
    split at h <;> cases h
    exact ⟨rfl, rfl, rfl, rfl, rfl, rfl, rfl, rfl⟩
  · rintro ⟨rfl, rfl, rfl, rfl, rfl, rfl, rfl, rfl⟩
    exact dif_pos position.valid

/-- The fields of a cursor whose member bytes are the given ones. -/
def inspectCursorFields (position : InspectAssetPosition) (fields : List Bytes) : List Bytes :=
  inspectCursorHead position.libraryId position.assetId position.selectedRevisionId
    position.assetRevision ++ fields ++ [List.replicate 40 0]

theorem InspectAssetPosition.map_length_memberFields (h : position.memberFields = .ok fields) :
    fields.map List.length = [16, 16, 4, 4, 8, 16] := by
  unfold memberFields at h
  split at h
  · obtain ⟨-, h⟩ := requirement_eq_ok.1 h
    cases h
    simp
  · cases h
    simp
  · cases h

theorem map_length_inspectCursorFields (h : position.memberFields = .ok fields) :
    (inspectCursorFields position fields).map List.length = inspectCursorWidths := by
  have hmagic : inspectCursorMagic.length = 8 := by decide
  simp [inspectCursorFields, inspectCursorHead, inspectCursorWidths,
    InspectAssetPosition.map_length_memberFields h, hmagic]

/-- **What the encoder writes**: the fields in their places, and their hash. -/
theorem encodeInspectCursor_eq_ok (h : position.memberFields = .ok fields) :
    encodeInspectCursor position libraryId = .ok bytes ↔ position.libraryId = libraryId ∧
      bytes.length = 208 ∧
      fieldsAt bytes 0 inspectCursorWidths = inspectCursorFields position fields ∧
      Digest.toBytes ⟨sha256 (slice bytes 0 176)⟩ = slice bytes 176 208 := by
  have hrecord := @eq_sealed_iff _ _ _ (map_length_inspectCursorFields h)
    (fun record => Digest.toBytes ⟨sha256 record⟩) 32 (fun _ => Digest.length_toBytes _) bytes
  unfold encodeInspectCursor
  rw [refusal_eq_ok, not_not, h]
  refine and_congr_right ?_
  rintro rfl
  exact (Except.ok.injEq _ _).to_iff.trans hrecord

/-- Every position has a cursor. -/
theorem exists_encodeInspectCursor (position : InspectAssetPosition) :
    ∃ bytes, encodeInspectCursor position position.libraryId = .ok bytes := by
  obtain ⟨hmember, hphase, hblob, hlast⟩ | ⟨key, phase, blob, hmember, hphase, hblob⟩ :=
    position.cases_member
  all_goals simp [encodeInspectCursor, InspectAssetPosition.memberFields, bind, Except.bind, *]

/-- **What is read as a position at a member.** -/
theorem decodeInspectMember_eq_ok {selectedRevisionId : Id .assetRevision}
    {assetRevision : RevisionNo} {ordinal blobRevision : Bytes} (hlocation : location.length = 16) :
    decodeInspectMember libraryId assetId selectedRevisionId assetRevision representation resource
        ordinal phase blobRevision location = .ok position ↔
      libraryId = position.libraryId ∧ assetId = position.assetId ∧
        selectedRevisionId = position.selectedRevisionId ∧
        assetRevision = position.assetRevision ∧
        ∃ key phase' blob, position.member = some key ∧ position.phase = some phase' ∧
          position.blobRevision = some blob ∧
          representation = key.representationId.uuid.toBytes ∧
          resource = key.resourceId.uuid.toBytes ∧ ofBeBytes ordinal = key.ordinal ∧
          key.ordinal ≤ 4095 ∧ ofBeBytes phase = phase'.code ∧ ofBeBytes blobRevision = blob ∧
          location = locationBytes position.lastLocationId := by
  simp only [decodeInspectMember, exceptBind_eq_ok, refusal_eq_ok, typedId_eq_ok,
    InspectMemberPhase.ofCode_eq_ok, decodeLocation_eq_ok hlocation,
    InspectAssetPosition.new_eq_ok, Nat.not_lt]
  constructor
  · rintro ⟨phase', hphase, representationId, rfl, resourceId, rfl, hordinal, last, rfl, hl, ha, hs,
      hr, hm, hp, hb, rfl⟩
    exact ⟨hl, ha, hs, hr, _, phase', _, hm.symm, hp.symm, hb.symm, rfl, rfl, rfl, hordinal,
      hphase, rfl, rfl⟩
  · rintro ⟨hl, ha, hs, hr, key, phase', _, hm, hp, hb, hrep, hres, hord, hle, hphase, rfl, hloc⟩
    exact ⟨phase', hphase, _, hrep, _, hres, hord ▸ hle, _, hloc, hl, ha, hs, hr,
      by rw [hm, hord], hp.symm, hb.symm, rfl⟩

/-- **The decoder accepts the cursors of positions that fit**, and no other
bytes. -/
theorem decodeInspectCursor_eq_ok :
    decodeInspectCursor bytes libraryId = .ok position ↔
      position.Fits ∧ encodeInspectCursor position libraryId = .ok bytes := by
  by_cases hlength : bytes.length = 208
  swap
  · have hother : encodeInspectCursor position libraryId ≠ .ok bytes := by
      intro h
      obtain ⟨fields, hfields, -⟩ := exceptBind_eq_ok.1 (refusal_eq_ok.1 h).2
      exact hlength ((encodeInspectCursor_eq_ok hfields).1 h).2.1
    simp [decodeInspectCursor, hlength, hother]
  have hlocation : (slice bytes 120 136).length = 16 := length_slice (by omega)
  simp only [decodeInspectCursor, hlength, exceptBind_eq_ok, typedId_eq_ok, ite_eq_iff,
    InspectAssetPosition.new_eq_ok, decodeInspectMember_eq_ok hlocation, not_or, not_not,
    ofBeBytes_slice_eq_iff, any_slice_ne_zero_iff, Nat.reduceLeDiff, Nat.reduceSub, Nat.reducePow,
    Nat.reduceLT, true_and, reduceCtorEq, and_false, false_or]
  obtain ⟨hmember, hphase, hblob, hlast⟩ | ⟨key, phase, blob, hmember, hphase, hblob⟩ :=
    position.cases_member
  · have hfields : position.memberFields = .ok [List.replicate 16 0, List.replicate 16 0,
        List.replicate 4 0, List.replicate 4 0, List.replicate 8 0, List.replicate 16 0] := by
      simp only [InspectAssetPosition.memberFields, hmember, hphase, hblob, hlast,
        Option.isNone_none, if_true]
    have hfits : position.Fits ↔ position.assetRevision < 2 ^ 64 :=
      ⟨fun h => h.assetRevision, fun h => ⟨h, by simp [hblob], by simp [hmember]⟩⟩
    have hzeros : slice bytes 72 136 = List.replicate 64 0 ↔
        slice bytes 72 88 = List.replicate 16 0 ∧
        slice bytes 88 104 = List.replicate 16 0 ∧ slice bytes 104 108 = List.replicate 4 0 ∧
        slice bytes 108 112 = List.replicate 4 0 ∧ slice bytes 112 120 = List.replicate 8 0 ∧
        slice bytes 120 136 = List.replicate 16 0 := by
      rw [slice_split bytes (by decide : 72 ≤ 88) (by decide),
        slice_split bytes (by decide : 88 ≤ 104) (by decide),
        slice_split bytes (by decide : 104 ≤ 108) (by decide),
        slice_split bytes (by decide : 108 ≤ 112) (by decide),
        slice_split bytes (by decide : 112 ≤ 120) (by decide)]
      simp [List.append_eq_replicate_iff, length_slice, hlength, -List.reduceReplicate]
    have hphaseZero : beBytes 4 0 = List.replicate 4 0 := rfl
    simp only [encodeInspectCursor_eq_ok hfields, hfits, hmember, hphase, hblob, hlast, hlength,
      fieldsAt, inspectCursorWidths, inspectCursorFields, inspectCursorHead, List.cons_append,
      List.nil_append, List.cons.injEq, Nat.reduceAdd, Nat.reducePow, hzeros, hphaseZero]
    grind
  · have hfields : position.memberFields = .ok [key.representationId.uuid.toBytes,
        key.resourceId.uuid.toBytes, beBytes 4 key.ordinal, beBytes 4 phase.code, beBytes 8 blob,
        locationBytes position.lastLocationId] := by
      simp only [InspectAssetPosition.memberFields, hmember, hphase, hblob]
    have hfits : position.Fits ↔
        position.assetRevision < 2 ^ 64 ∧ blob < 2 ^ 64 ∧ key.ordinal ≤ 4095 :=
      ⟨fun h => ⟨h.1, h.2 blob hblob, h.3 key hmember⟩,
        fun h => ⟨h.1, by simpa [hblob] using h.2.1, by simp [hmember, h.2.2]⟩⟩
    have hcode : phase.code < 4294967296 ∧ beBytes 4 phase.code ≠ beBytes 4 0 := by
      cases phase <;> decide
    simp only [encodeInspectCursor_eq_ok hfields, hfits, hmember, hphase, hblob, hlength,
      fieldsAt, inspectCursorWidths, inspectCursorFields, inspectCursorHead, List.cons_append,
      List.nil_append, List.cons.injEq, Nat.reduceAdd, Nat.reducePow, Option.some.injEq]
    grind

theorem onlyFails_typedId : OnlyFails .validation (typedId bytes : Except _ (Id entity)) := by
  refine .ite .error ?_
  split
  · exact .error
  · exact .ok

theorem InspectAssetPosition.onlyFails_new {selectedRevisionId : Id .assetRevision}
    {assetRevision : RevisionNo} {member : Option MemberKey} {phase : Option InspectMemberPhase}
    {blobRevision : Option RevisionNo} {lastLocationId : Option (Id .location)} :
    OnlyFails .validation (InspectAssetPosition.new libraryId assetId selectedRevisionId
      assetRevision member phase blobRevision lastLocationId) :=
  .dite (fun _ => .ok) fun _ => .error

theorem onlyFails_decodeInspectCursor :
    OnlyFails .validation (decodeInspectCursor bytes libraryId) := by
  refine .ite .error (.ite .error (.bind onlyFails_typedId fun _ => .bind onlyFails_typedId fun _ =>
    .ite (.ite .error InspectAssetPosition.onlyFails_new) (.bind ?_ fun _ =>
      .bind onlyFails_typedId fun _ => .bind onlyFails_typedId fun _ => .ite .error
        (.bind (.ite .ok (.bind onlyFails_typedId fun _ => .ok)) fun _ =>
          InspectAssetPosition.onlyFails_new))))
  unfold InspectMemberPhase.ofCode
  split
  exacts [.ok, .ok, .ok, .error]

/-! ## The service -/

/-- `ListAssetsResponse`. -/
structure ListAssetsResponse where
  page : AssetPage
  nextCursor : Option Bytes
  deriving DecidableEq

/-- `ListAssetsQuery::new`. -/
def ListAssetsQuery.new (pageSize : ℕ) (position : ListAssetsPosition) :
    AssetResult ListAssetsQuery :=
  if h : 1 ≤ pageSize ∧ pageSize ≤ 64 then .ok ⟨pageSize, position, h⟩ else .error .validation

/-- `InspectAssetResponse`. -/
structure InspectAssetResponse where
  page : AssetMemberPage
  nextCursor : Option Bytes
  deriving DecidableEq

/-- The position a query continues from is one of its asset and of the
revision it selects, if it selects one. -/
def InspectAssetStart.agreesWith (assetId : Id .asset)
    (selectedRevisionId : Option (Id .assetRevision)) : InspectAssetStart → Bool
  | .first => true
  | .continue_ position => position.assetId = assetId &&
    selectedRevisionId.all (· = position.selectedRevisionId)

theorem InspectAssetStart.agrees_of_agreesWith {selectedRevisionId : Option (Id .assetRevision)}
    {start : InspectAssetStart} (h : start.agreesWith assetId selectedRevisionId = true) :
    ∀ position, start = .continue_ position → position.assetId = assetId ∧
      ∀ revision ∈ selectedRevisionId, revision = position.selectedRevisionId := by
  rintro position rfl
  simp only [agreesWith, Bool.and_eq_true, decide_eq_true_eq, Option.all_eq_true] at h
  exact h

/-- `InspectAssetQuery::new`. -/
def InspectAssetQuery.new (assetId : Id .asset) (selectedRevisionId : Option (Id .assetRevision))
    (pageSize : ℕ) (start : InspectAssetStart) : AssetResult InspectAssetQuery :=
  if hsize : 1 ≤ pageSize ∧ pageSize ≤ 64 then
    if hstart : start.agreesWith assetId selectedRevisionId = true then
      .ok ⟨assetId, selectedRevisionId, pageSize, start, hsize,
        InspectAssetStart.agrees_of_agreesWith hstart⟩
    else .error .validation
  else .error .validation

namespace AssetQueryService

/-- The position a cursor of `list_assets` names. -/
def listPosition (libraryId : BitVec 128) : Option Bytes → AssetResult ListAssetsPosition
  | none => .ok .first
  | some [] => .ok .first
  | some cursor => decodeListCursor cursor libraryId

/-- `AssetQueryService::list_assets`. -/
def listAssets (libraryId : BitVec 128) (t : Store.Tables) (pageSize : ℕ)
    (cursor : Option Bytes) : AssetResult ListAssetsResponse := do
  let position ← listPosition libraryId cursor
  let query ← ListAssetsQuery.new pageSize position
  let page ← Store.AssetQuery.listAssets libraryId t query
  match page.next with
  | none => .ok ⟨page, none⟩
  | some next => do
    let bytes ← encodeListCursor next libraryId
    .ok ⟨page, some bytes⟩

/-- Where a cursor of `inspect_asset` starts. -/
def inspectStart (libraryId : BitVec 128) : Option Bytes → AssetResult InspectAssetStart
  | none => .ok .first
  | some [] => .ok .first
  | some cursor => do
    let position ← decodeInspectCursor cursor libraryId
    .ok (.continue_ position)

/-- `AssetQueryService::inspect_asset`. -/
def inspectAsset (libraryId : BitVec 128) (t : Store.Tables) (assetId : Id .asset)
    (selectedRevisionId : Option (Id .assetRevision)) (pageSize : ℕ) (cursor : Option Bytes) :
    AssetResult InspectAssetResponse := do
  let start ← inspectStart libraryId cursor
  let query ← InspectAssetQuery.new assetId selectedRevisionId pageSize start
  let page ← Store.AssetQuery.inspectAsset libraryId t query
  match page.next with
  | none => .ok ⟨page, none⟩
  | some next => do
    let bytes ← encodeInspectCursor next libraryId
    .ok ⟨page, some bytes⟩

end AssetQueryService

end MengXia
