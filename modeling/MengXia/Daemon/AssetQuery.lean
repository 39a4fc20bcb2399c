
import MengXia.AssetService
import MengXia.Daemon.CreativeQuery
/-!
# Serving asset queries

How the daemon answers `ListAssets` and `InspectAsset`. Neither answer is
bounded before it is written, other than those of the later operations.
-/

namespace MengXia

open Common

/-! ## Messages -/

namespace CoreProto

/-- `AssetSummary`. -/
structure AssetSummary where
  assetId : Text
  kind : Text
  lifecycle : AssetLifecycleValue
  revision : ℕ
  createdAtSeconds : ℤ
  createdAtNanos : ℕ
  creationCommitSequence : ℕ
  updatedAtSeconds : Option ℤ
  updatedAtNanos : Option ℕ
  deriving DecidableEq

/-- `ListAssetsResult`. -/
structure ListAssetsResult where
  snapshotCommitSequence : ℕ
  assets : List AssetSummary
  nextCursor : Option Bytes
  deriving DecidableEq

/-- `RevisionCustodyValue`, and `LocationCustodyValue` of the same values. -/
inductive CustodyValue where
  | unspecified
  | managed
  | unmanaged
  deriving DecidableEq

/-- `LocationLifecycleValue`. -/
inductive LocationLifecycleValue where
  | unspecified
  | available
  | corrupt
  | missing
  | removed
  deriving DecidableEq

/-- `LocationDurabilityValue`. -/
inductive LocationDurabilityValue where
  | unspecified
  | durable
  | unknown
  deriving DecidableEq

/-- `AssetMemberView`. -/
structure AssetMemberView where
  representationId : Text
  representationPurpose : Text
  resourceId : Text
  resourceKind : Text
  memberOrdinal : ℕ
  logicalName : Text
  blobSha256 : Bytes
  byteLength : ℕ
  mediaType : Option Text
  locationId : Option Text
  locationLifecycle : LocationLifecycleValue
  locationCustody : CustodyValue
  locationDurability : LocationDurabilityValue
  deriving DecidableEq

/-- `InspectAssetResult`. -/
structure InspectAssetResult where
  asset : AssetSummary
  assetRevisionId : Text
  revisionSequence : ℕ
  contentKind : Text
  custody : CustodyValue
  parentRevisionIds : List Text
  members : List AssetMemberView
  nextCursor : Option Bytes
  deriving DecidableEq

/-- The `CoreResponse`s that answer an asset query. -/
inductive AssetQueryResponse where
  | error (envelope : ErrorEnvelope)
  | listAssets (result : ListAssetsResult)
  | inspectAsset (result : InspectAssetResult)
  deriving DecidableEq

end CoreProto

namespace Daemon

/-! ## Response functions -/

/-- `TASK_009_PROTOCOL_MINOR`. -/
def task009ProtocolMinor : ℕ := 3

/-- `asset_summary_response`: older clients are not told when an asset was
updated. -/
def assetSummaryResponse (summary : AssetSummaryView) (protocolMinor : ℕ) :
    CoreProto.AssetSummary where
  assetId := summary.assetId.toText
  kind := summary.kind.text
  lifecycle := match summary.lifecycle with
    | .active => .active
    | .retired => .retired
  revision := summary.revision
  createdAtSeconds := summary.createdAt.seconds
  createdAtNanos := summary.createdAt.nanos
  creationCommitSequence := summary.creationCommitSequence
  updatedAtSeconds :=
    if task009ProtocolMinor ≤ protocolMinor then some summary.updatedAt.seconds else none
  updatedAtNanos :=
    if task009ProtocolMinor ≤ protocolMinor then some summary.updatedAt.nanos else none

/-- `revision_custody_response`. -/
def revisionCustodyResponse : RevisionCustody → CoreProto.CustodyValue
  | .managed => .managed
  | .unmanaged => .unmanaged

/-- `location_lifecycle_response`. -/
def locationLifecycleResponse : LocationLifecycle → CoreProto.LocationLifecycleValue
  | .available => .available
  | .corrupt => .corrupt
  | .missing => .missing
  | .removed => .removed

/-- `location_custody_response`. -/
def locationCustodyResponse : LocationCustody → CoreProto.CustodyValue
  | .managed => .managed
  | .unmanaged => .unmanaged

/-- `location_durability_response`. -/
def locationDurabilityResponse : LocationDurability → CoreProto.LocationDurabilityValue
  | .durable => .durable
  | .unknown => .unknown

/-- `asset_member_response`. -/
def assetMemberResponse (member : AssetMemberView) : CoreProto.AssetMemberView where
  representationId := member.representationId.toText
  representationPurpose := member.representationPurpose.text
  resourceId := member.resourceId.toText
  resourceKind := member.resourceKind.text
  memberOrdinal := member.memberOrdinal
  logicalName := member.logicalName.text
  blobSha256 := member.blobDigest.toBytes
  byteLength := member.byteLength
  mediaType := member.mediaType.map MediaType.text
  locationId := member.location.map fun location => location.locationId.toText
  locationLifecycle := member.location.elim .unspecified fun location =>
    locationLifecycleResponse location.lifecycle
  locationCustody := member.location.elim .unspecified fun location =>
    locationCustodyResponse location.custody
  locationDurability := member.location.elim .unspecified fun location =>
    locationDurabilityResponse location.durability

/-- The response of `serve_list_assets` to a page. -/
def listAssetsResult (answer : ListAssetsResponse) (protocolMinor : ℕ) :
    CoreProto.ListAssetsResult where
  snapshotCommitSequence := answer.page.snapshotSequence
  assets := answer.page.assets.map fun summary => assetSummaryResponse summary protocolMinor
  nextCursor := answer.nextCursor

/-- The response of `serve_inspect_asset` to a page. -/
def inspectAssetResult (answer : InspectAssetResponse) (protocolMinor : ℕ) :
    CoreProto.InspectAssetResult where
  asset := assetSummaryResponse answer.page.asset protocolMinor
  assetRevisionId := answer.page.selectedRevisionId.toText
  revisionSequence := answer.page.revisionSequence
  contentKind := answer.page.contentKind.text
  custody := revisionCustodyResponse answer.page.custody
  parentRevisionIds := answer.page.parentRevisionIds.map Id.toText
  members := answer.page.members.map assetMemberResponse
  nextCursor := answer.nextCursor

/-! ## Requests -/

/-- `ListAssetsRequest`. -/
structure ListAssetsRequest where
  pageSize : ℕ
  cursor : Bytes
  operationTimeoutMs : ℕ
  deriving DecidableEq

/-- `InspectAssetRequest`. -/
structure InspectAssetRequest where
  assetId : Text
  assetRevisionId : Option Text
  pageSize : ℕ
  cursor : Bytes
  operationTimeoutMs : ℕ
  deriving DecidableEq

/-- `MAX_QUERY_OPERATION_TIMEOUT`, in milliseconds. -/
def maxQueryOperationTimeout : ℕ := 86400000

/-- `decode_query_timeout`. -/
def decodeQueryTimeout (milliseconds : ℕ) : Except ErrorCode ℕ :=
  decodeBoundedOperationTimeout milliseconds maxQueryOperationTimeout

/-- The decoding of `serve_inspect_asset`. -/
def decodeInspectAsset (request : InspectAssetRequest) :
    Except ErrorCode (Id .asset × Option (Id .assetRevision)) := do
  let _ ← decodeQueryTimeout request.operationTimeoutMs
  let assetId ← parseCanonicalId request.assetId
  let assetRevisionId ← request.assetRevisionId.mapM parseCanonicalId
  pure (assetId, assetRevisionId)

/-! ## Handlers -/

/-- The end of `serve_list_assets` and of `serve_inspect_asset`: the response
they hand to `write_core_response` and the code they return with afterwards,
if any. -/
def serveAssetQueryResult {α : Type} (render : α → CoreProto.AssetQueryResponse)
    (correlation : Uuid) (result : AssetResult α) :
    Except ErrorCode (CoreProto.AssetQueryResponse × Option ErrorCode) :=
  match result with
  | .ok answer => .ok (render answer, none)
  | .error error => do
    let envelope ← queryErrorEnvelope error correlation.toText
    pure (.error envelope, queryFatalCode error)

/-- `write_query_validation_error`. -/
def writeQueryValidationError (code : ErrorCode) (correlation : Uuid) :
    Except ErrorCode (CoreProto.AssetQueryResponse × Option ErrorCode) := do
  let envelope ← operationErrorResponse code .none correlation.toText
  pure (.error envelope, none)

/-- `serve_list_assets`. -/
def serveListAssets (libraryId : BitVec 128) (t : Store.Tables) (correlation : Uuid)
    (protocolMinor : ℕ) (interruption : Option AssetStoreError) (request : ListAssetsRequest) :
    Except ErrorCode (CoreProto.AssetQueryResponse × Option ErrorCode) :=
  match decodeQueryTimeout request.operationTimeoutMs with
  | .error code => writeQueryValidationError code correlation
  | .ok _ =>
    serveAssetQueryResult (fun answer => .listAssets (listAssetsResult answer protocolMinor))
      correlation (interruption.elim (AssetQueryService.listAssets libraryId t request.pageSize
        (requestCursor request.cursor)) Except.error)

/-- `serve_inspect_asset`. -/
def serveInspectAsset (libraryId : BitVec 128) (t : Store.Tables) (correlation : Uuid)
    (protocolMinor : ℕ) (interruption : Option AssetStoreError) (request : InspectAssetRequest) :
    Except ErrorCode (CoreProto.AssetQueryResponse × Option ErrorCode) :=
  match decodeInspectAsset request with
  | .error code => writeQueryValidationError code correlation
  | .ok (assetId, assetRevisionId) =>
    serveAssetQueryResult (fun answer => .inspectAsset (inspectAssetResult answer protocolMinor))
      correlation (interruption.elim (AssetQueryService.inspectAsset libraryId t assetId
        assetRevisionId request.pageSize (requestCursor request.cursor)) Except.error)

end Daemon

end MengXia
