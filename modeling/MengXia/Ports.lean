
import MengXia.Domain
/-!
# Ports: commands, results and store errors

The requests the store accepts, with the condition each constructor
checks as a field, and the outcomes it returns. A value source is read
by draw index: the `i`-th call of `next_uuid_v7` within one command.
-/

namespace MengXia

/-- `AssetStoreError`. -/
inductive AssetStoreError where
  | validation
  | notFound
  | conflict
  | invalidTransition
  | revisionExhausted
  | idGenerationUnavailable
  | storageBusy
  | storageIo
  | storageCorruption
  | storageConfiguration
  | backpressure
  | operationCancelled
  | deadlineExceeded
  | shuttingDown
  | internal
  deriving DecidableEq

/-- What a port answers. -/
abbrev AssetResult : Type → Type :=
  Except AssetStoreError

/-- `StoreError` of the store crate. -/
inductive StoreError where
  | configuration
  | idGenerationUnavailable
  | busy
  | io
  | corruption
  | conflict
  | backpressure
  | internal
  | shuttingDown
  deriving DecidableEq

/-- `AssetStoreError::error_code`. -/
def AssetStoreError.errorCode : AssetStoreError → ErrorCode
  | .validation => .validationError
  | .notFound => .notFound
  | .conflict => .conflict
  | .invalidTransition => .invalidTransition
  | .revisionExhausted => .revisionExhausted
  | .idGenerationUnavailable => .idGenerationUnavailable
  | .storageBusy => .storageBusy
  | .storageIo => .storageIoError
  | .shuttingDown => .storageIoError
  | .storageCorruption => .storageCorruption
  | .storageConfiguration => .storageConfigurationError
  | .backpressure => .backpressure
  | .operationCancelled => .operationCancelled
  | .deadlineExceeded => .deadlineExceeded
  | .internal => .internalError

/-! ## Bindings -/

/-- The operations that bind a command, by the constants of `OperationId`. -/
inductive Operation where
  | assetIngest
  | assetRevisionCreate
  | blobLocationRecord
  | assetMaterialize
  | assetRetire
  | assetRestore
  | projectCreate
  | projectSpecRevise
  | subjectCreate
  | workCreate
  | workRevise
  | takeCreate
  | takeTransition
  | takeReopen
  deriving DecidableEq

/-- `CommandBinding`. -/
structure CommandBinding where
  commandId : Id .command
  operationId : Operation
  canonicalRequestDigest : Digest
  deriving DecidableEq

/-- `PureCommandValueSource`. -/
structure ValueSource where
  nextUuid : ℕ → AssetResult (BitVec 128)
  now : AssetResult Timestamp
  checkpoint : AssetResult Unit

/-- `generated_id`: draw `i` of the source, as an identifier. -/
def ValueSource.generatedId {entity : Entity} (source : ValueSource) (i : ℕ) :
    AssetResult (Id entity) :=
  match source.nextUuid i with
  | .error e => .error e
  | .ok bits =>
    match Id.fromBits bits with
    | some id => .ok id
    | none => .error .idGenerationUnavailable

/-! ## Managed blobs -/

/-- `lowercase_hex` of a digest. -/
def lowercaseHex (d : Digest) : Text :=
  (Common.digits 16 64 d.key).map Common.hexDigit

/-- `DurableBlob`: the digest and length of stored content and the digest
of the backend instance that holds it. -/
structure DurableBlob where
  digest : Digest
  byteLength : ℕ
  backend : Digest
  lengthBounded : byteLength < 2 ^ 64
  deriving DecidableEq

/-- The text of `DurableLocationDescriptor::backend_id`. -/
def backendText (backend : Digest) : Text :=
  "mengxia.local-cas.v1/".toList ++ lowercaseHex backend

/-- The text of `DurableLocationDescriptor::locator`. -/
def locatorText (digest : Digest) : Text :=
  let hex := lowercaseHex digest
  "sha256-v1/".toList ++ hex.take 2 ++ ['/'] ++ (hex.drop 2).take 2 ++ ['/'] ++ hex ++
    ".blob".toList

/-! ## Asset commands -/

/-- `ExternalIngestClaim`. -/
structure ExternalIngestClaim where
  binding : CommandBinding
  claimedAt : Timestamp
  operation : binding.operationId = .assetIngest

/-- `ManagedRegistrationPlan`. -/
structure ManagedRegistrationPlan where
  assetId : Id .asset
  assetKind : AssetKind
  assetRevisionId : Id .assetRevision
  contentKind : ContentKind
  representationId : Id .representation
  representationPurpose : RepresentationPurpose
  resourceId : Id .resource
  resourceKind : ResourceKind
  logicalName : LogicalName
  mediaType : Option MediaType
  candidateLocationId : Id .location

/-- `ExternalIngestCompletion`, whose seven object ids are distinct. -/
structure ExternalIngestCompletion where
  binding : CommandBinding
  durableBlob : DurableBlob
  plan : ManagedRegistrationPlan
  domainEventId : Id .domainEvent
  provenanceEventId : Id .provenanceEvent
  completedAt : Timestamp
  operation : binding.operationId = .assetIngest
  pairwiseUnique : [plan.assetId.uuid, plan.assetRevisionId.uuid, plan.representationId.uuid,
    plan.resourceId.uuid, plan.candidateLocationId.uuid, domainEventId.uuid,
    provenanceEventId.uuid].Nodup

/-- `ExternalDisposition`, which `MaterializationDisposition` repeats. -/
inductive Disposition where
  | terminalRejected (code : ErrorCode)
  | recoveryRequired (code : ErrorCode)
  deriving DecidableEq

/-- `is_external_terminal_code`, the list of `ExternalIngestDisposition::new`. -/
def isExternalTerminalCode : ErrorCode → Bool
  | .validationError | .sourceModifiedDuringIngest | .storageIoError | .storageCorruption
  | .storageConfigurationError | .backpressure | .internalError | .idGenerationUnavailable
  | .deadlineExceeded | .operationCancelled => true
  | _ => false

/-- `is_external_recovery_code`. -/
def isExternalRecoveryCode : ErrorCode → Bool
  | .storageConfigurationError | .storageIoError | .idGenerationUnavailable
  | .internalError => true
  | _ => false

/-- `is_materialization_terminal_code`. -/
def isMaterializationTerminalCode : ErrorCode → Bool
  | .validationError | .conflict | .storageIoError | .storageCorruption
  | .storageConfigurationError | .backpressure | .internalError | .idGenerationUnavailable
  | .deadlineExceeded | .operationCancelled => true
  | _ => false

/-- `is_materialization_recovery_code`. -/
def isMaterializationRecoveryCode : ErrorCode → Bool
  | .storageConfigurationError | .storageIoError | .idGenerationUnavailable
  | .internalError => true
  | _ => false

/-- `is_pure_rejection_code`. -/
def isPureRejectionCode : ErrorCode → Bool
  | .notFound | .conflict | .invalidTransition | .revisionExhausted => true
  | _ => false

/-- The check of `ExternalIngestDisposition::new`. -/
def Disposition.isExternal : Disposition → Bool
  | .terminalRejected code => isExternalTerminalCode code
  | .recoveryRequired code => isExternalRecoveryCode code

/-- The check of `MaterializationFinish::new`. -/
def Disposition.isMaterialization : Disposition → Bool
  | .terminalRejected code => isMaterializationTerminalCode code
  | .recoveryRequired code => isMaterializationRecoveryCode code

/-- `ExternalIngestDisposition`. -/
structure ExternalIngestDisposition where
  binding : CommandBinding
  disposition : Disposition
  observedAt : Timestamp
  operation : binding.operationId = .assetIngest
  accepted : disposition.isExternal = true

/-- `CreateAssetRevisionCommand`. -/
structure CreateAssetRevisionCommand where
  binding : CommandBinding
  revision : NewAssetRevision
  domainEventId : Id .domainEvent
  provenanceEventId : Id .provenanceEvent
  operationAt : Timestamp
  operation : binding.operationId = .assetRevisionCreate

/-- `AssetRevisionResourceInput`; its members are `AssetRevisionMemberInput`s,
which have the fields of a `RevisionMember`. -/
structure AssetRevisionResourceInput where
  kind : ResourceKind
  members : List RevisionMember
  nonempty : members ≠ []
  bounded : members.length ≤ 4096

/-- `AssetRevisionRepresentationInput`. -/
structure AssetRevisionRepresentationInput where
  purpose : RepresentationPurpose
  resources : List AssetRevisionResourceInput
  nonempty : resources ≠ []
  bounded : resources.length ≤ 64

/-- `DeferredCreateAssetRevisionCommand`. -/
structure DeferredCreateAssetRevisionCommand where
  binding : CommandBinding
  assetId : Id .asset
  expectedRevision : RevisionNo
  parentRevisionIds : List (Id .assetRevision)
  contentKind : ContentKind
  representations : List AssetRevisionRepresentationInput
  values : ValueSource
  operation : binding.operationId = .assetRevisionCreate
  parentsNonempty : parentRevisionIds ≠ []
  parentsBounded : parentRevisionIds.length ≤ 64
  representationsNonempty : representations ≠ []
  representationsBounded : representations.length ≤ 64
  parentsDistinct : parentRevisionIds.Nodup

/-- `RecordManagedLocationCommand`. -/
structure RecordManagedLocationCommand where
  binding : CommandBinding
  durableBlob : DurableBlob
  candidateLocationId : Id .location
  expectedRevision : RevisionNo
  domainEventId : Id .domainEvent
  operationAt : Timestamp
  operation : binding.operationId = .blobLocationRecord

/-- The operation a lifecycle command must bind. -/
def lifecycleOperation : AssetLifecycle → Operation
  | .retired => .assetRetire
  | .active => .assetRestore

/-- `AssetLifecycleCommand`. -/
structure AssetLifecycleCommand where
  binding : CommandBinding
  assetId : Id .asset
  expectedRevision : RevisionNo
  target : AssetLifecycle
  domainEventId : Id .domainEvent
  operationAt : Timestamp
  operation : binding.operationId = lifecycleOperation target

/-- `DeferredAssetLifecycleCommand`. -/
structure DeferredAssetLifecycleCommand where
  binding : CommandBinding
  assetId : Id .asset
  expectedRevision : RevisionNo
  target : AssetLifecycle
  values : ValueSource
  operation : binding.operationId = lifecycleOperation target

/-! ## Creative commands -/

structure CreateProjectCommand where
  binding : CommandBinding
  name : ProjectName
  specification : ProjectSpecification
  values : ValueSource
  operation : binding.operationId = .projectCreate

structure ReviseProjectSpecCommand where
  binding : CommandBinding
  projectId : Id .project
  expectedRevision : RevisionNo
  specification : ProjectSpecification
  values : ValueSource
  operation : binding.operationId = .projectSpecRevise

structure CreateSubjectCommand where
  binding : CommandBinding
  kind : SubjectKind
  name : SubjectName
  values : ValueSource
  operation : binding.operationId = .subjectCreate

structure CreateWorkCommand where
  binding : CommandBinding
  projectId : Id .project
  kind : WorkKind
  code : WorkCode
  specification : WorkSpecification
  values : ValueSource
  operation : binding.operationId = .workCreate

structure ReviseWorkCommand where
  binding : CommandBinding
  projectId : Id .project
  workItemId : Id .workItem
  expectedRevision : RevisionNo
  specification : WorkSpecification
  values : ValueSource
  operation : binding.operationId = .workRevise

structure CreateTakeCommand where
  binding : CommandBinding
  projectId : Id .project
  workItemId : Id .workItem
  workRevisionId : Id .workRevision
  primaryAssetId : Id .asset
  values : ValueSource
  operation : binding.operationId = .takeCreate

/-- The shape rule of `TransitionTakeCommand::new`. -/
def transitionShape (transition : TakeTransition) (hasReason hasRelated : Bool) : Bool :=
  match transition with
  | .shortlist | .approve => !hasReason && !hasRelated
  | .reject => hasReason && !hasRelated
  | .select => !hasReason
  | .supersede => !hasReason && hasRelated

/-- `TransitionTakeCommand`. -/
structure TransitionTakeCommand where
  binding : CommandBinding
  projectId : Id .project
  workItemId : Id .workItem
  workRevisionId : Id .workRevision
  takeId : Id .take
  expectedRevision : RevisionNo
  transition : TakeTransition
  reason : Option TakeReason
  relatedTake : Option (Id .take × RevisionNo)
  values : ValueSource
  operation : binding.operationId = .takeTransition
  shape : transitionShape transition reason.isSome relatedTake.isSome = true

structure ReopenTakeCommand where
  binding : CommandBinding
  projectId : Id .project
  workItemId : Id .workItem
  workRevisionId : Id .workRevision
  terminalTakeId : Id .take
  expectedTerminalRevision : RevisionNo
  newPrimaryAssetId : Id .asset
  values : ValueSource
  operation : binding.operationId = .takeReopen

/-! ## Results -/

/-- The values of the column `result_kind`. -/
inductive ResultKind where
  | asset
  | assetRevision
  | location
  | project
  | projectSpecRevision
  | subject
  | workItem
  | workRevision
  | take
  | assetLifecycle
  deriving DecidableEq

/-- `VersionedResultPayload`. -/
inductive VersionedResultPayload where
  | project (specRevisionId : Id .projectSpecRevision) (revision sequence : ℕ)
  | projectSpecRevision (projectId : Id .project) (revision sequence : ℕ)
  | subject (revision : ℕ)
  | workItem (workRevisionId : Id .workRevision) (revision sequence : ℕ)
  | workRevision (workItemId : Id .workItem) (revision sequence : ℕ)
  | take (revision ordinal : ℕ) (state : TakeState) (primaryAssetId : Id .asset)
      (relatedTakeId : Option (Id .take))
  | assetLifecycle (revision : ℕ) (lifecycle : AssetLifecycle)
  deriving DecidableEq

/-- `VersionedResultPayload::result_kind`. -/
def VersionedResultPayload.resultKind : VersionedResultPayload → ResultKind
  | .project .. => .project
  | .projectSpecRevision .. => .projectSpecRevision
  | .subject .. => .subject
  | .workItem .. => .workItem
  | .workRevision .. => .workRevision
  | .take .. => .take
  | .assetLifecycle .. => .assetLifecycle

/-- `CommandResult`. -/
inductive CommandResult where
  | managedRegistration (assetId : Id .asset) (assetRevisionId : Id .assetRevision)
      (representationId : Id .representation) (resourceId : Id .resource)
      (locationId : Id .location) (blobDigest : Digest)
  | assetRevision (assetId : Id .asset) (assetRevisionId : Id .assetRevision)
      (resultingRevision : RevisionNo) (occurredAt : Timestamp)
  | location (digest : Digest) (locationId : Id .location) (resultingRevision : RevisionNo)
  | versioned (primaryId : Uuid) (payload : VersionedResultPayload) (occurredAt : Timestamp)
  deriving DecidableEq

/-- `MutationOutcome`. -/
inductive MutationOutcome where
  | applied (result : CommandResult)
  | replay (result : CommandResult)
  | terminalRejected (code : ErrorCode)
  | recoveryRequired (code : ErrorCode)
  deriving DecidableEq

/-- `ExternalClaimOutcome`. -/
inductive ExternalClaimOutcome where
  | claimed
  | inProgress
  | replay (result : CommandResult)
  | terminalRejected (code : ErrorCode)
  | recoveryRequired (code : ErrorCode)
  deriving DecidableEq

/-- `ExternalDispositionOutcome`. -/
inductive ExternalDispositionOutcome where
  | stored
  | replay (code : ErrorCode)
  deriving DecidableEq

/-! ## Materialization -/

/-- `MaterializationCommandBinding`: the command and the member it selects. -/
structure MaterializationCommandBinding where
  binding : CommandBinding
  assetId : Id .asset
  assetRevisionId : Id .assetRevision
  representationId : Id .representation
  resourceId : Id .resource
  memberOrdinal : ℕ
  operation : binding.operationId = .assetMaterialize
  ordinalBounded : memberOrdinal ≤ 4095

/-- `MaterializationTransition`. -/
structure MaterializationTransition where
  command : MaterializationCommandBinding
  at_ : Timestamp

/-- `MaterializationFinish`. -/
structure MaterializationFinish where
  transition : MaterializationTransition
  disposition : Disposition
  accepted : disposition.isMaterialization = true

/-- `MaterializationResult`. -/
structure MaterializationResult where
  commandId : Id .command
  assetRevisionId : Id .assetRevision
  representationId : Id .representation
  resourceId : Id .resource
  memberOrdinal : ℕ
  blobDigest : Digest
  byteLength : ℕ
  deriving DecidableEq

/-- `MaterializationObservation`. -/
inductive MaterializationObservation where
  | absent
  | inProgress
  | recoveryCandidate (code : Option ErrorCode)
  | replay (result : MaterializationResult)
  | terminalRejected (code : ErrorCode)
  deriving DecidableEq

/-! ## Start-up classification -/

/-- `StartupMutationState`. -/
inductive StartupMutationState where
  | claimed
  | recoveryRequired
  deriving DecidableEq

/-- `StartupMutationPageRequest`; the boundary is the largest command id
when the classification began. -/
structure StartupMutationPageRequest where
  boundary : Option (Id .command)
  state : StartupMutationState
  afterCommandId : Option (Id .command)
  classifiedAt : Timestamp

/-- `StartupMutationPage`. -/
structure StartupMutationPage where
  lastCommandId : Option (Id .command)
  recoveryRequiredCount : ℕ
  complete : Bool
  deriving DecidableEq

end MengXia
