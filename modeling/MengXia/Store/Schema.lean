import MengXia.Ports
import MengXia.Common.Rows
/-!
# Schema of the library database

One row type per table of the two library migrations, with typed columns,
and the record of all tables. Columns that only repeat another column (the
SHA-256 of a payload, a constant schema version, the fixed principal kind)
are not kept; the rest stands under the column's name.
-/

namespace MengXia.Store

/-! ## Enumerated columns -/

/-- `commands.state`. -/
inductive CommandState where
  | claimed
  | completed
  | terminalRejected
  | recoveryRequired
  deriving DecidableEq

/-- `domain_events.event_type`. -/
inductive EventType where
  | assetRegistered
  | assetRevisionCreated
  | assetRetired
  | assetRestored
  | blobLocationRecorded
  | projectCreated
  | projectSpecRevised
  | subjectCreated
  | workCreated
  | workRevised
  | takeCreated
  | takeShortlisted
  | takeSelected
  | takeApproved
  | takeRejected
  | takeSuperseded
  | takeReopened
  deriving DecidableEq

/-- `provenance_events.event_type`. -/
inductive ProvenanceType where
  | assetIngestedCopy
  | assetRevisionDerived
  deriving DecidableEq

/-- The kinds of objects that events are about and relationships link. -/
inductive NodeKind where
  | asset
  | assetRevision
  | blob
  | project
  | projectSpecRevision
  | subject
  | workItem
  | workRevision
  | take
  deriving DecidableEq

/-- `domain_events.aggregate_id`: 16 bytes, or 32 for a blob. -/
inductive AggregateId where
  | uuid (id : Uuid)
  | digest (digest : Digest)
  deriving DecidableEq

/-! ## Rows -/

structure CommandRow where
  commandId : Id .command
  operationId : Operation
  principalUid : UInt32
  canonicalRequestDigest : Digest
  storeRuntimeId : Id .runtime
  state : CommandState
  resultKind : Option ResultKind
  resultId : Option Uuid
  resultLocationId : Option (Id .location)
  resultPayload : Option VersionedResultPayload
  safeErrorCode : Option ErrorCode
  createdAt : Timestamp
  updatedAt : Timestamp
  deriving DecidableEq

/-- The table check of `commands`: which columns are null in which state. -/
def CommandRow.shapeOk (r : CommandRow) : Bool :=
  match r.state with
  | .claimed =>
    r.resultKind.isNone && r.resultId.isNone && r.resultLocationId.isNone &&
      r.resultPayload.isNone && r.safeErrorCode.isNone
  | .completed =>
    r.safeErrorCode.isNone &&
      match r.resultKind with
      | none => false
      | some .asset =>
        r.resultId.isSome && r.resultLocationId.isSome && r.resultPayload.isNone
      | some .assetRevision | some .location =>
        r.resultId.isSome && r.resultLocationId.isNone && r.resultPayload.isNone
      | some _ => r.resultLocationId.isNone && r.resultPayload.isSome
  | .terminalRejected | .recoveryRequired =>
    r.resultKind.isNone && r.resultId.isNone && r.resultLocationId.isNone &&
      r.resultPayload.isNone && r.safeErrorCode.isSome

structure AssetRow where
  assetId : Id .asset
  kind : AssetKind
  lifecycle : AssetLifecycle
  revision : RevisionNo
  createdAt : Timestamp
  createdByUid : UInt32
  updatedAt : Option Timestamp
  deriving DecidableEq

structure AssetRevisionRow where
  assetRevisionId : Id .assetRevision
  assetId : Id .asset
  sequence : ℕ
  contentKind : ContentKind
  custody : RevisionCustody
  createdAt : Timestamp
  createdByUid : UInt32
  deriving DecidableEq

structure ParentRow where
  assetId : Id .asset
  childRevisionId : Id .assetRevision
  ordinal : ℕ
  parentRevisionId : Id .assetRevision
  deriving DecidableEq

structure RepresentationRow where
  representationId : Id .representation
  assetRevisionId : Id .assetRevision
  purpose : RepresentationPurpose
  deriving DecidableEq

structure ResourceRow where
  resourceId : Id .resource
  representationId : Id .representation
  kind : ResourceKind
  deriving DecidableEq

structure BlobRow where
  digest : Digest
  byteLength : ℕ
  mediaType : Option MediaType
  lifecycle : BlobLifecycle
  revision : RevisionNo
  verifiedAt : Timestamp
  deriving DecidableEq

structure MemberRow where
  resourceId : Id .resource
  ordinal : ℕ
  logicalName : LogicalName
  blobDigest : Digest
  deriving DecidableEq

/-- A `locations` row. `backendId` and `locator` hold the digest their
text spells, see `backendText` and `locatorText`. -/
structure LocationRow where
  locationId : Id .location
  blobDigest : Digest
  backendId : Digest
  locator : Digest
  custody : LocationCustody
  durability : LocationDurability
  lifecycle : LocationLifecycle
  revision : RevisionNo
  verifiedAt : Timestamp
  deriving DecidableEq

/-- `custody='MANAGED' AND durability='DURABLE' AND lifecycle='AVAILABLE'`. -/
def LocationRow.isManagedCopy (r : LocationRow) : Bool :=
  r.custody = .managed && r.durability = .durable && r.lifecycle = .available

structure ProvenanceRow where
  provenanceEventId : Id .provenanceEvent
  commandId : Id .command
  eventType : ProvenanceType
  assetRevisionId : Id .assetRevision
  blobDigest : Option Digest
  verification : ProvenanceVerification
  occurredAt : Timestamp
  recordedAt : Timestamp
  deriving DecidableEq

structure EventRow where
  domainEventId : Id .domainEvent
  commitSequence : ℕ
  commandId : Id .command
  eventType : EventType
  aggregateKind : NodeKind
  aggregateId : AggregateId
  aggregateRevision : Option RevisionNo
  eventPayload : Option Bytes
  occurredAt : Timestamp
  deriving DecidableEq

structure ProjectRow where
  projectId : Id .project
  name : ProjectName
  currentSpecRevisionId : Id .projectSpecRevision
  revision : RevisionNo
  creationCommitSequence : ℕ
  createdByCommandId : Id .command
  createdAt : Timestamp
  updatedAt : Timestamp
  deriving DecidableEq

structure SpecRevisionRow where
  projectSpecRevisionId : Id .projectSpecRevision
  projectId : Id .project
  sequence : ℕ
  resolution : Option Resolution
  frameRate : Option PositiveRatio
  aspectRatio : Option PositiveRatio
  colorPolicyJson : Bytes
  audioPolicyJson : Bytes
  qualityPolicyJson : Bytes
  privacyPolicyJson : Bytes
  policyDigest : Digest
  createdByCommandId : Id .command
  createdAt : Timestamp
  deriving DecidableEq

/-- The four policy documents of a specification row. -/
def SpecRevisionRow.policies (r : SpecRevisionRow) : List Bytes :=
  [r.colorPolicyJson, r.audioPolicyJson, r.qualityPolicyJson, r.privacyPolicyJson]

structure SubjectRow where
  subjectId : Id .subject
  kind : SubjectKind
  canonicalName : SubjectName
  revision : RevisionNo
  creationCommitSequence : ℕ
  createdByCommandId : Id .command
  createdAt : Timestamp
  deriving DecidableEq

structure WorkItemRow where
  workItemId : Id .workItem
  projectId : Id .project
  kind : WorkKind
  code : WorkCode
  currentWorkRevisionId : Id .workRevision
  revision : RevisionNo
  creationCommitSequence : ℕ
  createdByCommandId : Id .command
  createdAt : Timestamp
  updatedAt : Timestamp
  deriving DecidableEq

structure WorkRevisionRow where
  workRevisionId : Id .workRevision
  workItemId : Id .workItem
  sequence : ℕ
  specificationJson : Bytes
  specificationDigest : Digest
  createdByCommandId : Id .command
  createdAt : Timestamp
  deriving DecidableEq

structure TakeRow where
  takeId : Id .take
  workRevisionId : Id .workRevision
  ordinal : ℕ
  state : TakeState
  primaryAssetId : Id .asset
  revision : RevisionNo
  creationCommitSequence : ℕ
  createdByCommandId : Id .command
  createdAt : Timestamp
  updatedAt : Timestamp
  deriving DecidableEq

structure RelationshipRow where
  relationshipId : Id .relationship
  relationshipKind : RelationshipKind
  sourceKind : NodeKind
  sourceId : Uuid
  targetKind : NodeKind
  targetId : Uuid
  createdByCommandId : Id .command
  createdAt : Timestamp
  deriving DecidableEq

/-- The columns of the `UNIQUE` constraint of `relationships`. -/
def RelationshipRow.edge (r : RelationshipRow) :
    RelationshipKind × NodeKind × Uuid × NodeKind × Uuid :=
  (r.relationshipKind, r.sourceKind, r.sourceId, r.targetKind, r.targetId)

/-- The rows of a partial unique index on take edges of one kind. -/
def RelationshipRow.isTakeEdge (kind : RelationshipKind) (r : RelationshipRow) : Bool :=
  r.relationshipKind = kind && r.sourceKind = .take

/-! ## Tables -/

/-- All tables of the library, with `event_commit_sequence` as the number
it holds. -/
structure Tables where
  lastSequence : ℕ
  commands : List CommandRow
  assets : List AssetRow
  assetRevisions : List AssetRevisionRow
  parents : List ParentRow
  representations : List RepresentationRow
  resources : List ResourceRow
  blobs : List BlobRow
  members : List MemberRow
  locations : List LocationRow
  provenanceEvents : List ProvenanceRow
  domainEvents : List EventRow
  projects : List ProjectRow
  specRevisions : List SpecRevisionRow
  subjects : List SubjectRow
  workItems : List WorkItemRow
  workRevisions : List WorkRevisionRow
  takes : List TakeRow
  relationships : List RelationshipRow
  deriving DecidableEq

/-- A migrated library before its first command. -/
def Tables.empty : Tables where
  lastSequence := 0
  commands := []
  assets := []
  assetRevisions := []
  parents := []
  representations := []
  resources := []
  blobs := []
  members := []
  locations := []
  provenanceEvents := []
  domainEvents := []
  projects := []
  specRevisions := []
  subjects := []
  workItems := []
  workRevisions := []
  takes := []
  relationships := []

end MengXia.Store
