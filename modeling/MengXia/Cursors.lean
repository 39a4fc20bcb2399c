
import MengXia.AssetService
import MengXia.CreativeService
import MengXia.VerificationReports
/-!
# Cursors

The four cursors of the app crate side by side. A scope is what a cursor is
for: a creative listing of a library, its asset list, the inspection of one
of its assets, or the issues of one of its reports. Every codec is a pair of
inverse maps between the positions of its scope and the bytes it accepts,
and no bytes are accepted in two scopes.

The fields that name a scope stand in the cursor itself, so that nothing is
asked of the hash.
-/

namespace MengXia

open Common

/-- What a cursor is for. The owner of verification reports refuses a
library without an identifier when it is built. -/
inductive CursorScope where
  | creativeList (libraryId : BitVec 128) (kind : CreativeCursorKind)
  | assetList (libraryId : BitVec 128)
  | assetInspection (libraryId : BitVec 128)
  | integrityIssues (libraryId : BitVec 128) (present : libraryId ≠ 0)
      (verificationId : Id .verificationReport)

namespace CursorScope

variable {scope : CursorScope} {bytes : Bytes}

/-- What a cursor of a scope points at. -/
def Position : CursorScope → Type
  | .creativeList _ _ => CreativeListPosition
  | .assetList _ => ListAssetsPosition
  | .assetInspection _ => InspectAssetPosition
  | .integrityIssues _ _ _ => ℕ

/-- The encoder of a scope. -/
def encode : (scope : CursorScope) → scope.Position → AssetResult Bytes
  | .creativeList libraryId kind, position => encodeCreativeCursor position libraryId kind
  | .assetList libraryId, position => encodeListCursor position libraryId
  | .assetInspection libraryId, position => encodeInspectCursor position libraryId
  | .integrityIssues libraryId _ verificationId, nextOrdinal =>
    encodeIssueCursor libraryId verificationId nextOrdinal

/-- The decoder of a scope. -/
def decode : (scope : CursorScope) → Bytes → AssetResult scope.Position
  | .creativeList libraryId kind, bytes => decodeCreativeCursor bytes libraryId kind
  | .assetList libraryId, bytes => decodeListCursor bytes libraryId
  | .assetInspection libraryId, bytes => decodeInspectCursor bytes libraryId
  | .integrityIssues libraryId _ verificationId, bytes =>
    decodeIssueCursor bytes libraryId verificationId

/-- The ordinals of issues, which are numbers of 32 bits from one on. -/
def isIssueOrdinal (ordinal : ℕ) : Prop :=
  0 < ordinal ∧ ordinal < 2 ^ 32

/-- The positions of a scope that a cursor is made for: those behind the
first page of a listing, a position of the library whose numbers fit their
fields and whose member ordinal is one a member can have, and the ordinal of
an issue. -/
def Valid : (scope : CursorScope) → scope.Position → Prop
  | .creativeList libraryId _, position =>
    ∃ snapshotEndpoint lastKey valid, position = .after libraryId snapshotEndpoint lastKey valid
  | .assetList libraryId, position =>
    ∃ snapshotSequence lastExaminedSequence valid,
      position = .after libraryId snapshotSequence lastExaminedSequence valid
  | .assetInspection libraryId, position =>
    InspectAssetPosition.libraryId position = libraryId ∧ InspectAssetPosition.Fits position
  | .integrityIssues _ _ _, nextOrdinal => isIssueOrdinal nextOrdinal

/-- The bytes of a cursor of a scope. -/
def size : CursorScope → ℕ
  | .creativeList _ _ => 160
  | .assetList _ => 80
  | .assetInspection _ => 208
  | .integrityIssues _ _ _ => 96

/-! ## Both directions -/

/-- **A cursor is read back as the position it was written for.** -/
theorem decode_encode {position : scope.Position} (h : scope.Valid position) :
    ∃ bytes, scope.encode position = .ok bytes ∧ scope.decode bytes = .ok position := by
  cases scope with
  | creativeList libraryId kind =>
    obtain ⟨snapshotEndpoint, lastKey, valid, rfl⟩ := h
    obtain ⟨bytes, hencode, -, hdecode⟩ := @decodeCreativeCursor_encode libraryId kind _ _ valid
    exact ⟨bytes, hencode, hdecode⟩
  | assetList libraryId =>
    obtain ⟨snapshotSequence, lastExaminedSequence, valid, rfl⟩ := h
    obtain ⟨bytes, hencode, -, hdecode⟩ := decodeListCursor_encode valid
    exact ⟨bytes, hencode, hdecode⟩
  | assetInspection libraryId =>
    obtain ⟨hlibrary, hfits⟩ := h
    obtain ⟨bytes, hencode⟩ := exists_encodeInspectCursor position
    rw [hlibrary] at hencode
    exact ⟨bytes, hencode, decodeInspectCursor_eq_ok.2 ⟨hfits, hencode⟩⟩
  | integrityIssues libraryId present verificationId =>
    obtain ⟨bytes, hencode, -, hdecode⟩ :=
      decodeIssueCursor_encode present verificationId h.1 h.2
    exact ⟨bytes, hencode, hdecode⟩

/-- **What is accepted is the cursor of what it yields.** -/
theorem encode_decode {position : scope.Position} (h : scope.decode bytes = .ok position) :
    scope.encode position = .ok bytes := by
  cases scope with
  | creativeList libraryId kind => exact decodeCreativeCursor_eq_ok.1 h
  | assetList libraryId => exact decodeListCursor_eq_ok.1 h
  | assetInspection libraryId => exact (decodeInspectCursor_eq_ok.1 h).2
  | integrityIssues libraryId present verificationId =>
    exact ((decodeIssueCursor_eq_ok present).1 h).2.2

/-- **What is accepted is a position a cursor is made for.** -/
theorem decode_valid {position : scope.Position} (h : scope.decode bytes = .ok position) :
    scope.Valid position := by
  cases scope with
  | creativeList libraryId kind =>
    simp only [decode, decodeCreativeCursor] at h
    obtain ⟨-, h⟩ := refusal_eq_ok.1 h
    obtain ⟨-, h⟩ := refusal_eq_ok.1 h
    unfold CreativeListPosition.newAfter at h
    split at h <;> cases h
    exact ⟨_, _, _, rfl⟩
  | assetList libraryId =>
    simp only [decode, decodeListCursor] at h
    obtain ⟨-, h⟩ := refusal_eq_ok.1 h
    obtain ⟨-, h⟩ := refusal_eq_ok.1 h
    unfold ListAssetsPosition.newAfter at h
    split at h <;> cases h
    exact ⟨_, _, _, rfl⟩
  | assetInspection libraryId =>
    obtain ⟨hfits, hencode⟩ := decodeInspectCursor_eq_ok.1 h
    exact ⟨not_not.1 (refusal_eq_ok.1 hencode).1, hfits⟩
  | integrityIssues libraryId present verificationId =>
    obtain ⟨hpositive, hbounded, -⟩ := (decodeIssueCursor_eq_ok present).1 h
    exact ⟨hpositive, hbounded⟩

/-! ## Scopes -/

/-- **A decoder refuses with a validation error**, never another one. -/
theorem onlyFails_decode : OnlyFails .validation (scope.decode bytes) := by
  cases scope with
  | creativeList libraryId kind => exact onlyFails_decodeCreativeCursor
  | assetList libraryId => exact onlyFails_decodeListCursor
  | assetInspection libraryId => exact onlyFails_decodeInspectCursor
  | integrityIssues libraryId present verificationId => exact onlyFails_decodeIssueCursor

/-- A kind of listing is read from its magic and its scope. -/
theorem kind_injective {kind kind' : CreativeCursorKind} (hmagic : kind.magic = kind'.magic)
    (hscope : kind.scope.2 = kind'.scope.2) : kind = kind' := by
  cases kind <;> cases kind'
  case projects.projects => rfl
  case subjects.subjects => rfl
  case work.work => exact congrArg _ (Id.toBytes_injective hscope)
  case takes.takes => exact congrArg _ (Id.toBytes_injective hscope)
  all_goals
    simp only [CreativeCursorKind.magic, CreativeCursorKind.magicText] at hmagic
    exact absurd hmagic (by decide)

/-- The first fields of the cursors of a scope, which name it. -/
def header : CursorScope → List Bytes
  | .creativeList libraryId kind =>
    [kind.magic, beBytes 2 1, beBytes 2 160, List.replicate 4 0, beBytes 16 libraryId.toNat,
      [kind.scope.1], List.replicate 7 0, kind.scope.2]
  | .assetList libraryId =>
    [listCursorMagic, beBytes 2 2, beBytes 2 80, beBytes 4 1, beBytes 16 libraryId.toNat]
  | .assetInspection libraryId =>
    [inspectCursorMagic, beBytes 2 2, beBytes 2 208, beBytes 4 2, beBytes 16 libraryId.toNat]
  | .integrityIssues libraryId _ verificationId =>
    [issueCursorMagic, beBytes 2 1, beBytes 2 96, beBytes 4 3, beBytes 16 libraryId.toNat,
      verificationId.uuid.toBytes]

/-- The widths of the fields of a header. -/
def headerWidths : CursorScope → List ℕ
  | .creativeList _ _ => [16, 2, 2, 4, 16, 1, 7, 16]
  | .assetList _ | .assetInspection _ => [8, 2, 2, 4, 16]
  | .integrityIssues _ _ _ => [8, 2, 2, 4, 16, 16]

theorem map_length_header (scope : CursorScope) :
    scope.header.map List.length = scope.headerWidths := by
  have hlist : listCursorMagic.length = 8 := by decide
  have hinspect : inspectCursorMagic.length = 8 := by decide
  have hissue : issueCursorMagic.length = 8 := by decide
  cases scope with
  | creativeList libraryId kind =>
    simp [header, headerWidths, kind.length_magic, kind.length_scope]
  | assetList libraryId => simp [header, headerWidths, hlist]
  | assetInspection libraryId => simp [header, headerWidths, hinspect]
  | integrityIssues libraryId present verificationId => simp [header, headerWidths, hissue]

/-- Bytes that start with two headers of the same widths start with one. -/
theorem header_eq {scope' : CursorScope} {rest rest' : Bytes}
    (h : scope.header.flatten ++ rest = scope'.header.flatten ++ rest')
    (hwidths : scope'.headerWidths = scope.headerWidths) :
    scope.header = scope'.header :=
  fields_eq_of_sealed_eq (map_length_header scope) ((map_length_header scope').trans hwidths) h

/-- A sealed record of the given widths whose first fields are the given ones. -/
theorem sealed_starts {fields front others : List Bytes} {widths : List ℕ}
    (hwidths : fields.map List.length = widths) (hfields : fields = front ++ others)
    (digest : Digest) :
    (fields.flatten ++ digest.toBytes).length = widths.sum + 32 ∧
      ∃ rest, fields.flatten ++ digest.toBytes = front.flatten ++ rest := by
  refine ⟨?_, others.flatten ++ digest.toBytes, ?_⟩
  · rw [List.length_append, List.length_flatten, hwidths, Digest.length_toBytes]
  · rw [hfields, List.flatten_append, List.append_assoc]

/-- **A cursor starts with what names its scope.** -/
theorem encode_header {position : scope.Position} (h : scope.encode position = .ok bytes) :
    bytes.length = scope.size ∧ ∃ rest, bytes = scope.header.flatten ++ rest := by
  cases scope with
  | creativeList libraryId kind =>
    simp only [encode, encodeCreativeCursor] at h
    split at h
    · cases h
    · split at h <;> cases h
      exact sealed_starts (map_length_creativeCursorFields _ _ _ _) rfl _
  | assetList libraryId =>
    simp only [encode, encodeListCursor] at h
    split at h
    · cases h
    · split at h
      · cases h
      · rename_i heq
        rw [not_not] at heq
        subst heq
        obtain ⟨_, -, h⟩ := exceptBind_eq_ok.1 h
        cases h
        exact sealed_starts (map_length_listCursorFields _ _ _) rfl _
  | assetInspection libraryId =>
    simp only [encode, encodeInspectCursor] at h
    obtain ⟨hlibrary, h⟩ := refusal_eq_ok.1 h
    obtain ⟨fields, hfields, h⟩ := exceptBind_eq_ok.1 h
    cases h
    rw [← not_not.1 hlibrary]
    have hfront : inspectCursorFields position fields =
        (assetInspection position.libraryId).header ++
          (inspectCursorFields position fields).drop 5 := rfl
    exact sealed_starts (map_length_inspectCursorFields hfields) hfront _
  | integrityIssues libraryId present verificationId =>
    simp only [encode, encodeIssueCursor] at h
    split at h <;> cases h
    exact sealed_starts (map_length_issueCursorFields _ _ _) rfl _

/-- **Two scopes never share a cursor.** -/
theorem encode_injective {scope' : CursorScope} {position : scope.Position}
    {position' : scope'.Position} (h : scope.encode position = .ok bytes)
    (h' : scope'.encode position' = .ok bytes) : scope = scope' := by
  obtain ⟨hsize, rest, hrest⟩ := encode_header h
  obtain ⟨hsize', rest', hrest'⟩ := encode_header h'
  have hsizes : scope.size = scope'.size := hsize.symm.trans hsize'
  have hheader := hrest.symm.trans hrest'
  -- The sizes tell the four codecs apart, the header the scopes of one codec.
  cases scope <;> cases scope'
  case creativeList.creativeList libraryId kind libraryId' kind' =>
    have hfields := header_eq hheader rfl
    simp only [header, List.cons.injEq, true_and, and_true] at hfields
    obtain ⟨hmagic, hlibrary, -, hscope⟩ := hfields
    rw [(beBytes_toNat_inj 16).1 hlibrary, kind_injective hmagic hscope]
  case assetList.assetList libraryId libraryId' =>
    have hfields := header_eq hheader rfl
    simp only [header, List.cons.injEq, true_and, and_true] at hfields
    rw [(beBytes_toNat_inj 16).1 hfields]
  case assetInspection.assetInspection libraryId libraryId' =>
    have hfields := header_eq hheader rfl
    simp only [header, List.cons.injEq, true_and, and_true] at hfields
    rw [(beBytes_toNat_inj 16).1 hfields]
  case integrityIssues.integrityIssues libraryId present verificationId libraryId' present'
      verificationId' =>
    have hfields := header_eq hheader rfl
    simp only [header, List.cons.injEq, true_and, and_true] at hfields
    obtain ⟨hlibrary, hreport⟩ := hfields
    cases (beBytes_toNat_inj 16).1 hlibrary
    rw [Id.toBytes_injective hreport]
  all_goals exact absurd hsizes (by simp only [size]; decide)

/-- **The codecs are inverse and scoped.** A position a cursor is made for is
encoded, and its cursor decoded to it; what is decoded is such a position,
and its cursor is the bytes; and a cursor is refused in every other scope. -/
theorem codecs_inverse (scope : CursorScope) :
    (∀ position, scope.Valid position →
      ∃ bytes, scope.encode position = .ok bytes ∧ scope.decode bytes = .ok position) ∧
    (∀ bytes position, scope.decode bytes = .ok position →
      scope.Valid position ∧ scope.encode position = .ok bytes) ∧
    (∀ position bytes, scope.encode position = .ok bytes →
      ∀ other : CursorScope, other ≠ scope → other.decode bytes = .error .validation) := by
  refine ⟨fun position hvalid => decode_encode hvalid,
    fun bytes position h => ⟨decode_valid h, encode_decode h⟩, ?_⟩
  intro position bytes hencode other hother
  cases hdecode : other.decode bytes with
  | error e => rw [onlyFails_decode e hdecode]
  | ok position' => exact absurd (encode_injective (encode_decode hdecode) hencode) hother

end CursorScope

/-- A position at a member of the given ordinal. -/
def memberPosition (ordinal : ℕ) : InspectAssetPosition where
  libraryId := 1
  assetId := .numbered 1
  selectedRevisionId := .numbered 2
  assetRevision := 1
  member := some ⟨.numbered 3, .numbered 4, ordinal⟩
  phase := some .noLocationSeen
  blobRevision := some 1
  lastLocationId := none
  valid := rfl

/-- The last member of the largest revision has a cursor, which another
library and an asset list refuse. -/
theorem memberPosition_last : (CursorScope.assetInspection 1).Valid (memberPosition 4095) ∧
    ∃ bytes, encodeInspectCursor (memberPosition 4095) 1 = .ok bytes ∧
      decodeInspectCursor bytes 1 = .ok (memberPosition 4095) ∧
      decodeInspectCursor bytes 2 = .error .validation ∧
      decodeListCursor bytes 1 = .error .validation := by
  have hvalid : (CursorScope.assetInspection 1).Valid (memberPosition 4095) := by
    refine ⟨rfl, ⟨by decide, ?_, ?_⟩⟩
    · intro revision hrevision
      cases hrevision
      decide
    · intro key hkey
      cases hkey
      exact Nat.le_refl 4095
  obtain ⟨hforth, -, hscoped⟩ := CursorScope.codecs_inverse (.assetInspection 1)
  obtain ⟨bytes, hencode, hdecode⟩ := hforth _ hvalid
  have hother := hscoped _ _ hencode
  refine ⟨hvalid, bytes, hencode, hdecode, hother (.assetInspection 2) ?_,
    hother (.assetList 1) ?_⟩
  · intro h
    injection h with h
    exact absurd h (by decide)
  · intro h
    cases h

/-- **The constructor of a position admits ordinals that its decoder
refuses.** -/
theorem memberPosition_refused :
    InspectAssetPosition.new 1 (.numbered 1) (.numbered 2) 1
        (some ⟨.numbered 3, .numbered 4, 4096⟩) (some .noLocationSeen) (some 1) none =
      .ok (memberPosition 4096) ∧
    ∃ bytes, encodeInspectCursor (memberPosition 4096) 1 = .ok bytes ∧
      decodeInspectCursor bytes 1 = .error .validation := by
  have hfields : (memberPosition 4096).memberFields =
      .ok [(Id.numbered 3 : Id .representation).uuid.toBytes,
        (Id.numbered 4 : Id .resource).uuid.toBytes, beBytes 4 4096, beBytes 4 1, beBytes 8 1,
        locationBytes none] := rfl
  obtain ⟨bytes, hencode⟩ := exists_encodeInspectCursor (memberPosition 4096)
  obtain ⟨-, hlength, hcut, hsum⟩ := (encodeInspectCursor_eq_ok hfields).1 hencode
  simp only [fieldsAt, inspectCursorWidths, inspectCursorFields, inspectCursorHead,
    List.cons_append, List.nil_append, List.cons.injEq, Nat.reduceAdd] at hcut
  have hread (entity : Entity) (id : Id entity) : typedId id.uuid.toBytes = .ok id :=
    typedId_eq_ok.2 rfl
  refine ⟨InspectAssetPosition.new_eq_ok.2 ⟨rfl, rfl, rfl, rfl, rfl, rfl, rfl, rfl⟩, bytes,
    hencode, ?_⟩
  have hphase : ofBeBytes (beBytes 4 1) = 1 := by decide
  have hordinal : ofBeBytes (beBytes 4 4096) = 4096 := by decide
  simp [decodeInspectCursor, decodeInspectMember, hlength, hcut, hsum, hread, hphase, hordinal,
    InspectMemberPhase.ofCode, bind, Except.bind]

end MengXia
