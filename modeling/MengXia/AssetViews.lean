
import MengXia.Ports
/-!
# Asset queries of the ports

What a client asks the store about its assets and what it is shown: the
positions from which a listing goes on, the queries around them, and the
pages. A position and a query hold the checks of their constructors, so
that the store is only ever asked from well-formed ones.
-/

namespace MengXia

/-! ## Listing assets -/

/-- The checks of `ListAssetsPosition::after`. -/
def isListPosition (libraryId : BitVec 128) (snapshotSequence lastExaminedSequence : ℕ) : Bool :=
  libraryId ≠ 0 && snapshotSequence ≠ 0 && snapshotSequence < 2 ^ 63 &&
    lastExaminedSequence ≠ 0 && lastExaminedSequence < snapshotSequence

/-- `ListAssetsPosition`. -/
inductive ListAssetsPosition where
  | first
  | after (libraryId : BitVec 128) (snapshotSequence lastExaminedSequence : ℕ)
      (valid : isListPosition libraryId snapshotSequence lastExaminedSequence = true)
  deriving DecidableEq

/-- `ListAssetsPosition::after`. -/
def ListAssetsPosition.newAfter (libraryId : BitVec 128)
    (snapshotSequence lastExaminedSequence : ℕ) : AssetResult ListAssetsPosition :=
  if h : isListPosition libraryId snapshotSequence lastExaminedSequence = true then
    .ok (.after libraryId snapshotSequence lastExaminedSequence h)
  else .error .validation

/-- `ListAssetsQuery`. -/
structure ListAssetsQuery where
  pageSize : ℕ
  position : ListAssetsPosition
  bounded : 1 ≤ pageSize ∧ pageSize ≤ 64

/-- `AssetSummaryView`. -/
structure AssetSummaryView where
  assetId : Id .asset
  kind : AssetKind
  lifecycle : AssetLifecycle
  revision : RevisionNo
  createdAt : Timestamp
  updatedAt : Timestamp
  creationCommitSequence : ℕ
  deriving DecidableEq

/-- `AssetPage`. -/
structure AssetPage where
  snapshotSequence : ℕ
  assets : List AssetSummaryView
  next : Option ListAssetsPosition
  deriving DecidableEq

/-- `AssetPage::__from_store`. -/
def AssetPage.fromStore (page : AssetPage) : AssetResult AssetPage :=
  if 64 < page.assets.length ∨
      page.assets.any (fun asset => page.snapshotSequence < asset.creationCommitSequence) then
    .error .storageCorruption
  else .ok page

/-! ## Inspecting an asset -/

/-- `InspectMemberPhase`. -/
inductive InspectMemberPhase where
  | noLocationSeen
  | locationSeen
  | requiredCustodySeen
  deriving DecidableEq

/-- The key of a member: its representation, resource and ordinal. -/
structure MemberKey where
  representationId : Id .representation
  resourceId : Id .resource
  ordinal : ℕ
  deriving DecidableEq

/-- A location has been seen exactly in the phases after the first. -/
def InspectMemberPhase.admits : InspectMemberPhase → Option (Id .location) → Bool
  | .noLocationSeen, location => location.isNone
  | .locationSeen, location => location.isSome
  | .requiredCustodySeen, location => location.isSome

/-- The checks of `InspectAssetPosition::new`: before the first member, or at
a member. -/
def isInspectPosition (libraryId : BitVec 128) (assetRevision : RevisionNo)
    (member : Option MemberKey) (phase : Option InspectMemberPhase)
    (blobRevision : Option RevisionNo) (lastLocationId : Option (Id .location)) : Bool :=
  libraryId ≠ 0 && assetRevision ≠ 0 &&
    (member.isNone && phase.isNone && blobRevision.isNone && lastLocationId.isNone ||
      member.isSome && blobRevision.any (· ≠ 0) && phase.any (·.admits lastLocationId))

/-- `InspectAssetPosition`. -/
structure InspectAssetPosition where
  libraryId : BitVec 128
  assetId : Id .asset
  selectedRevisionId : Id .assetRevision
  assetRevision : RevisionNo
  member : Option MemberKey
  phase : Option InspectMemberPhase
  blobRevision : Option RevisionNo
  lastLocationId : Option (Id .location)
  valid : isInspectPosition libraryId assetRevision member phase blobRevision lastLocationId = true
  deriving DecidableEq

/-- `InspectAssetPosition::new`. -/
def InspectAssetPosition.new (libraryId : BitVec 128) (assetId : Id .asset)
    (selectedRevisionId : Id .assetRevision) (assetRevision : RevisionNo)
    (member : Option MemberKey) (phase : Option InspectMemberPhase)
    (blobRevision : Option RevisionNo) (lastLocationId : Option (Id .location)) :
    AssetResult InspectAssetPosition :=
  if h : isInspectPosition libraryId assetRevision member phase blobRevision
      lastLocationId = true then
    .ok ⟨libraryId, assetId, selectedRevisionId, assetRevision, member, phase, blobRevision,
      lastLocationId, h⟩
  else .error .validation

/-- `InspectAssetStart`. -/
inductive InspectAssetStart where
  | first
  | continue_ (position : InspectAssetPosition)
  deriving DecidableEq

/-- `InspectAssetQuery`, with the checks of its constructor. -/
structure InspectAssetQuery where
  assetId : Id .asset
  selectedRevisionId : Option (Id .assetRevision)
  pageSize : ℕ
  start : InspectAssetStart
  bounded : 1 ≤ pageSize ∧ pageSize ≤ 64
  agrees : ∀ position, start = .continue_ position → position.assetId = assetId ∧
    ∀ revision ∈ selectedRevisionId, revision = position.selectedRevisionId

/-- `AssetLocationView`. -/
structure AssetLocationView where
  locationId : Id .location
  lifecycle : LocationLifecycle
  custody : LocationCustody
  durability : LocationDurability
  deriving DecidableEq

/-- `AssetMemberView`. -/
structure AssetMemberView where
  representationId : Id .representation
  representationPurpose : RepresentationPurpose
  resourceId : Id .resource
  resourceKind : ResourceKind
  memberOrdinal : ℕ
  logicalName : LogicalName
  blobDigest : Digest
  byteLength : ℕ
  mediaType : Option MediaType
  location : Option AssetLocationView
  deriving DecidableEq

/-- `AssetMemberPage`. -/
structure AssetMemberPage where
  asset : AssetSummaryView
  selectedRevisionId : Id .assetRevision
  revisionSequence : ℕ
  contentKind : ContentKind
  custody : RevisionCustody
  parentRevisionIds : List (Id .assetRevision)
  members : List AssetMemberView
  next : Option InspectAssetPosition
  deriving DecidableEq

/-- `AssetMemberPage::__from_store`. -/
def AssetMemberPage.fromStore (page : AssetMemberPage) : AssetResult AssetMemberPage :=
  if page.revisionSequence = 0 ∨ 64 < page.parentRevisionIds.length ∨ 64 < page.members.length then
    .error .storageCorruption
  else .ok page

end MengXia
