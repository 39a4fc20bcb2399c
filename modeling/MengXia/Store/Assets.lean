
import MengXia.Store.Ledger
/-!
# Asset mutations

The ingest, revision, lifecycle and location commands of the asset
repository, statement by statement.
-/

namespace MengXia.Store

open Common

/-! ## External ingest -/

/-- `external_existing`. -/
def externalExisting (context : StoreContext) (binding : CommandBinding) (row : CommandRow)
    (at_ : Timestamp) : Tx ExternalClaimOutcome := do
  if bindingMatches row binding context.ownerUid then
    let row ← Txn.lift (validateCommandRow row)
    match row.state with
    | .claimed =>
      if row.storeRuntimeId = context.runtimeId then pure .inProgress
      else
        let _ ← updateCommands
          (fun r => r.commandId = binding.commandId && r.state = .claimed)
          (fun r => { r with
            state := .recoveryRequired
            safeErrorCode := some .storageConfigurationError
            updatedAt := at_ })
          fun _ => rfl
        pure (.recoveryRequired .storageConfigurationError)
    | .completed =>
      let d ← Txn.read
      let result ← Txn.lift (replayExternalResult d row)
      pure (.replay result)
    | .terminalRejected =>
      let code ← Txn.lift (parseSafeCode row)
      pure (.terminalRejected code)
    | .recoveryRequired =>
      let code ← Txn.lift (parseSafeCode row)
      pure (.recoveryRequired code)
  else Txn.fail .conflict

/-- `claim_external`. -/
def claimExternal (context : StoreContext) (request : ExternalIngestClaim) :
    Tx ExternalClaimOutcome := do
  let d ← Txn.read
  match readCommand d request.binding with
  | none =>
    insertClaim context request.binding request.claimedAt
    commit
    pure .claimed
  | some row =>
    let outcome ← externalExisting context request.binding row request.claimedAt
    commit
    pure outcome

/-- `validate_descriptor`. -/
@[irreducible] def validateDescriptor (value : Text) (maximum : ℕ) : AssetResult Unit :=
  if value.isEmpty || maximum < value.byteLength || value.any isControl then .error .validation
  else .ok ()

/-- The row of a blob first stored by an ingest. -/
def newBlobRow (blob : DurableBlob) (mediaType : Option MediaType) (at_ : Timestamp) :
    BlobRow where
  digest := blob.digest
  byteLength := blob.byteLength
  mediaType := mediaType
  lifecycle := .available
  revision := 1
  verifiedAt := at_

/-- The row of a managed location. -/
def newLocationRow (blob : DurableBlob) (locationId : Id .location) (at_ : Timestamp) :
    LocationRow where
  locationId := locationId
  blobDigest := blob.digest
  backendId := blob.backend
  locator := blob.digest
  custody := .managed
  durability := .durable
  lifecycle := .available
  revision := 1
  verifiedAt := at_

/-- The location stored at the address of a durable blob. -/
def locationAt (t : Tables) (blob : DurableBlob) : Option LocationRow :=
  t.locations.find? fun l => l.backendId = blob.backend && l.locator = blob.digest

/-- Whether a stored location row is the managed copy a blob expects there. -/
def isExpectedLocation (blob : DurableBlob) (l : LocationRow) : Bool :=
  l.revision = 1 && l.blobDigest = blob.digest && l.isManagedCopy

/-- The blob half of `persist_blob_and_location`. -/
def persistBlob (blob : DurableBlob) (mediaType : Option MediaType) (at_ : Timestamp) :
    Tx Unit := do
  let d ← Txn.read
  match d.blobs.find? fun b => b.digest = blob.digest with
  | some row =>
    if row.revision = 0 ∨ row.byteLength ≠ blob.byteLength ∨ row.mediaType ≠ mediaType ∨
        row.lifecycle ≠ .available then
      Txn.fail .storageCorruption
    else pure ()
  | none =>
    -- `i64::try_from` of the length
    if blob.byteLength < 2 ^ 63 then insertBlob (newBlobRow blob mediaType at_)
    else Txn.fail .validation

/-- The location half of `persist_blob_and_location`. -/
def persistLocation (blob : DurableBlob) (candidate : Id .location) (at_ : Timestamp) :
    Tx (Id .location) := do
  let d ← Txn.read
  match locationAt d blob with
  | some row =>
    if isExpectedLocation blob row then pure row.locationId
    else Txn.fail .storageCorruption
  | none =>
    insertLocation (newLocationRow blob candidate at_)
    pure candidate

/-- `persist_blob_and_location`. -/
def persistBlobAndLocation (blob : DurableBlob) (candidate : Id .location)
    (mediaType : Option MediaType) (at_ : Timestamp) : Tx (Id .location) := do
  persistBlob blob mediaType at_
  persistLocation blob candidate at_

section Registration

variable (context : StoreContext) (request : ExternalIngestCompletion)

/-- The rows of `insert_registration_graph`. -/
def registeredAsset : AssetRow where
  assetId := request.plan.assetId
  kind := request.plan.assetKind
  lifecycle := .active
  revision := 1
  createdAt := request.completedAt
  createdByUid := context.ownerUid
  updatedAt := none

def registeredRevision : AssetRevisionRow where
  assetRevisionId := request.plan.assetRevisionId
  assetId := request.plan.assetId
  sequence := 1
  contentKind := request.plan.contentKind
  custody := .managed
  createdAt := request.completedAt
  createdByUid := context.ownerUid

def registeredRepresentation : RepresentationRow where
  representationId := request.plan.representationId
  assetRevisionId := request.plan.assetRevisionId
  purpose := request.plan.representationPurpose

def registeredResource : ResourceRow where
  resourceId := request.plan.resourceId
  representationId := request.plan.representationId
  kind := request.plan.resourceKind

def registeredMember : MemberRow where
  resourceId := request.plan.resourceId
  ordinal := 0
  logicalName := request.plan.logicalName
  blobDigest := request.durableBlob.digest

/-- `insert_registration_graph`. -/
def insertRegistrationGraph : Tx Unit := do
  insertAsset (registeredAsset context request)
  insertAssetRevision (registeredRevision context request)
  insertRepresentation (registeredRepresentation request)
  insertResource (registeredResource request)
  insertMember (registeredMember request)

/-- The rows of `insert_registration_events`. -/
def registeredEvent (sequence : ℕ) : EventRow where
  domainEventId := request.domainEventId
  commitSequence := sequence
  commandId := request.binding.commandId
  eventType := .assetRegistered
  aggregateKind := .asset
  aggregateId := .uuid request.plan.assetId.uuid
  aggregateRevision := some 1
  eventPayload := none
  occurredAt := request.completedAt

def registeredProvenance : ProvenanceRow where
  provenanceEventId := request.provenanceEventId
  commandId := request.binding.commandId
  eventType := .assetIngestedCopy
  assetRevisionId := request.plan.assetRevisionId
  blobDigest := some request.durableBlob.digest
  verification := .verified
  occurredAt := request.completedAt
  recordedAt := request.completedAt

/-- The tables with the graph of a new asset. -/
abbrev registeredGraph (t : Tables) : Tables :=
  { t with
    assets := t.assets ++ [registeredAsset context request]
    assetRevisions := t.assetRevisions ++ [registeredRevision context request]
    representations := t.representations ++ [registeredRepresentation request]
    resources := t.resources ++ [registeredResource request]
    members := t.members ++ [registeredMember request] }

/-- The tables with the graph, the event and the provenance of a new asset. -/
abbrev registeredTables (t : Tables) : Tables :=
  { registeredGraph context request t with
    lastSequence := t.lastSequence + 1
    domainEvents := t.domainEvents ++ [registeredEvent request (t.lastSequence + 1)]
    provenanceEvents := t.provenanceEvents ++ [registeredProvenance request] }

/-- The row of an ingest whose asset is registered. -/
abbrev registeredCommand (location : Id .location) (r : CommandRow) : CommandRow :=
  r.complete .asset request.plan.assetId.uuid (some location) none request.completedAt

/-- The writes of `complete_external_inner` after its claim checks. The
graph check of `register_managed` repeats part of `pairwiseUnique`. -/
def registerManaged : Tx MutationOutcome := do
  let location ← persistBlobAndLocation request.durableBlob request.plan.candidateLocationId
    request.plan.mediaType request.completedAt
  insertRegistrationGraph context request
  match ← allocateEventSequences 1 with
  | none => Txn.fail .revisionExhausted
  | some sequence =>
    insertEvent (registeredEvent request sequence)
    insertProvenance (registeredProvenance request)
    completeCommand request.binding .asset request.plan.assetId.uuid (some location) none
      request.completedAt replayExternalResult

/-- `complete_external`. -/
def completeExternal : Tx MutationOutcome := do
  Txn.lift (validateDescriptor (backendText request.durableBlob.backend) 255)
  Txn.lift (validateDescriptor (locatorText request.durableBlob.digest) 1024)
  let d ← Txn.read
  let row ← Txn.lift (boundRow d context request.binding)
  match row.state with
  | .completed =>
    let result ← Txn.lift (replayExternalResult d row)
    pure (.replay result)
  | .recoveryRequired =>
    let code ← Txn.lift (parseSafeCode row)
    pure (.recoveryRequired code)
  | .claimed =>
    if row.storeRuntimeId = context.runtimeId then registerManaged context request
    else Txn.fail .conflict
  | .terminalRejected => Txn.fail .conflict

end Registration

/-- The state and code a disposition stores. -/
def Disposition.stored : Disposition → CommandState × ErrorCode
  | .terminalRejected code => (.terminalRejected, code)
  | .recoveryRequired code => (.recoveryRequired, code)

/-- The columns `finish_external` and `finish_materialization` set. -/
def CommandRow.dispose (disposition : Disposition) (at_ : Timestamp) (r : CommandRow) :
    CommandRow :=
  { r with
    state := (Disposition.stored disposition).1
    safeErrorCode := some (Disposition.stored disposition).2
    updatedAt := at_ }

/-- How `finish_external` and `finish_materialization` answer for a row that
is not the claim of their process: with the disposition, if it is there. -/
def repeatDisposition (row : CommandRow) (disposition : Disposition) :
    Tx ExternalDispositionOutcome :=
  if row.state = (Disposition.stored disposition).1 then do
    let code ← Txn.lift (parseSafeCode row)
    if code = (Disposition.stored disposition).2 then
      commit
      pure (.replay code)
    else Txn.fail .conflict
  else Txn.fail .conflict

/-- `finish_external`. -/
def finishExternal (context : StoreContext) (request : ExternalIngestDisposition) :
    Tx ExternalDispositionOutcome := do
  let d ← Txn.read
  let row ← Txn.lift (boundRow d context request.binding)
  if row.state = .claimed ∧ row.storeRuntimeId = context.runtimeId then
    let _ ← updateCommands
      (fun r => r.commandId = request.binding.commandId && r.state = .claimed)
      (CommandRow.dispose request.disposition request.observedAt) fun _ => rfl
    commit
    pure .stored
  else repeatDisposition row request.disposition

/-! ## Asset revisions -/

/-- `max(sequence)` over the revisions of an asset. -/
def maxRevisionSequence (t : Tables) (assetId : Id .asset) : Option ℕ :=
  ((t.assetRevisions.filter fun r => r.assetId = assetId).map AssetRevisionRow.sequence).max?

/-- The verdict of one member check of `create_revision_inner`. -/
inductive MemberVerdict where
  | managed
  | missing
  | corrupt
  deriving DecidableEq

/-- Whether a member's blob is stored under managed custody. -/
def memberVerdict (t : Tables) (digest : Digest) : MemberVerdict :=
  let blobs := t.blobs.countP fun b => b.digest = digest
  let managed := t.blobs.countP fun b => b.digest = digest && b.lifecycle = .available &&
    t.locations.any fun l => l.blobDigest = b.digest && l.isManagedCopy
  if blobs = 0 then .missing
  else if blobs ≠ 1 ∨ managed ≠ 1 then .corrupt
  else .managed

/-- The member loop of `create_revision_inner`: the first member that is
not under managed custody decides. -/
def membersVerdict (t : Tables) : List RevisionMember → MemberVerdict
  | [] => .managed
  | member :: members =>
    match memberVerdict t member.blobDigest with
    | .managed => membersVerdict t members
    | verdict => verdict

section Revision

variable (context : StoreContext) (request : CreateAssetRevisionCommand)

def revisionParentRow (ordinal : ℕ) (parent : Id .assetRevision) : ParentRow where
  assetId := request.revision.assetId
  childRevisionId := request.revision.revisionId
  ordinal := ordinal
  parentRevisionId := parent

def revisionRow (sequence : ℕ) : AssetRevisionRow where
  assetRevisionId := request.revision.revisionId
  assetId := request.revision.assetId
  sequence := sequence
  contentKind := request.revision.contentKind
  custody := .managed
  createdAt := request.operationAt
  createdByUid := context.ownerUid

def revisionRepresentationRow (representation : RevisionRepresentation) : RepresentationRow where
  representationId := representation.id
  assetRevisionId := request.revision.revisionId
  purpose := representation.purpose

def revisionResourceRow (representation : RevisionRepresentation) (resource : RevisionResource) :
    ResourceRow where
  resourceId := resource.id
  representationId := representation.id
  kind := resource.kind

def revisionMemberRow (resource : RevisionResource) (ordinal : ℕ) (member : RevisionMember) :
    MemberRow where
  resourceId := resource.id
  ordinal := ordinal
  logicalName := member.logicalName
  blobDigest := member.blobDigest

/-- The rows of a list with their positions, as `iter().enumerate()` gives them. -/
def enumerated {α β : Type} (row : ℕ → α → β) (items : List α) : List β :=
  items.zipIdx.map fun (item, i) => row i item

/-- The parents of a revision, the resources of a representation, and the
members of a resource and of a representation, as rows. -/
abbrev parentRows : List ParentRow :=
  enumerated (revisionParentRow request) request.revision.parentRevisionIds

@[inherit_doc parentRows]
abbrev resourceRows (representation : RevisionRepresentation) : List ResourceRow :=
  representation.resources.map (revisionResourceRow representation)

@[inherit_doc parentRows]
abbrev memberRows (resource : RevisionResource) : List MemberRow :=
  enumerated (revisionMemberRow resource) resource.members

@[inherit_doc parentRows]
abbrev representationMembers (representation : RevisionRepresentation) : List MemberRow :=
  representation.resources.flatMap memberRows

/-- The nested insert loops of `create_revision_inner`. -/
def insertRevisionGraph : Tx Unit :=
  Txn.forEach request.revision.representations fun representation => do
    insertRepresentation (revisionRepresentationRow request representation)
    Txn.forEach representation.resources fun resource => do
      insertResource (revisionResourceRow representation resource)
      Txn.forEach (memberRows resource) insertMember

def revisionCreatedEvent (sequence : ℕ) : EventRow where
  domainEventId := request.domainEventId
  commitSequence := sequence
  commandId := request.binding.commandId
  eventType := .assetRevisionCreated
  aggregateKind := .assetRevision
  aggregateId := .uuid request.revision.revisionId.uuid
  aggregateRevision := some request.revision.resultingRevision
  eventPayload := none
  occurredAt := request.operationAt

def revisionDerivedProvenance : ProvenanceRow where
  provenanceEventId := request.provenanceEventId
  commandId := request.binding.commandId
  eventType := .assetRevisionDerived
  assetRevisionId := request.revision.revisionId
  blobDigest := none
  verification := .verified
  occurredAt := request.operationAt
  recordedAt := request.operationAt

/-- The writes of `create_revision_inner` once its checks have passed. -/
def writeRevision (expected sequence : ℕ) : Tx MutationOutcome := do
  let changed ← updateAssets
    (fun r => r.assetId = request.revision.assetId && r.revision = expected)
    (fun r => { r with
      revision := request.revision.resultingRevision
      updatedAt := some request.operationAt })
    fun _ => rfl
  if changed ≠ 1 then Txn.fail .storageCorruption
  else
    let d ← Txn.read
    -- the subquery `max(sequence)+1`, null when the asset has no revision
    match maxRevisionSequence d request.revision.assetId with
    | none => Txn.fail .internal
    | some maximum =>
      insertAssetRevision (revisionRow context request (maximum + 1))
      Txn.forEach (parentRows request) insertParent
      insertRevisionGraph request
      insertEvent (revisionCreatedEvent request sequence)
      insertProvenance (revisionDerivedProvenance request)
      completeCommand request.binding .assetRevision request.revision.revisionId.uuid none none
        request.operationAt fun t row =>
          match replayResult t row with
          | .ok (.assetRevision a b c e) => .ok (.assetRevision a b c e)
          | .ok _ => .error .storageCorruption
          | .error e => .error e

/-- `create_revision`, after the command has been found new. -/
def createRevisionNew : Tx MutationOutcome := do
  insertClaim context request.binding request.operationAt
  let reject (code : ErrorCode) := commitRejection request.binding code request.operationAt
  let d ← Txn.read
  match d.assets.find? fun a => a.assetId = request.revision.assetId && a.lifecycle = .active with
  | none => reject .notFound
  | some asset =>
    let expected := request.revision.resultingRevision - 1
    match maxRevisionSequence d request.revision.assetId with
    | none => Txn.fail .storageCorruption
    | some maximum =>
      if maximum ≠ asset.revision then Txn.fail .storageCorruption
      else if asset.revision ≠ expected then reject .conflict
      else if 2 ^ 32 - 1 ≤ expected then reject .revisionExhausted
      else if request.revision.parentRevisionIds.any fun parent =>
          d.assetRevisions.countP (fun r =>
            r.assetId = request.revision.assetId && r.assetRevisionId = parent) ≠ 1 then
        reject .conflict
      else
        match membersVerdict d (revisionMembers request.revision.representations) with
        | .missing => reject .notFound
        | .corrupt => Txn.fail .storageCorruption
        | .managed =>
          match ← allocateEventSequences 1 with
          | none => reject .revisionExhausted
          | some sequence => writeRevision context request expected sequence

/-- `create_revision`. -/
def createRevision : Tx MutationOutcome :=
  unlessKnown context request.binding .assetRevision (createRevisionNew context request)

end Revision

/-- The resources of one representation, with ids from draw `i` on. -/
def sampleResources (source : ValueSource) :
    ℕ → List AssetRevisionResourceInput → AssetResult (List RevisionResource)
  | _, [] => .ok []
  | i, input :: inputs => do
    let id ← source.generatedId i
    match RevisionResource.new id input.kind input.members with
    | .error _ => .error .validation
    | .ok resource =>
      let rest ← sampleResources source (i + 1) inputs
      pure (resource :: rest)

/-- The representations of a deferred revision, with ids from draw `i` on:
one for the representation, then one for each of its resources. -/
def sampleRepresentations (source : ValueSource) :
    ℕ → List AssetRevisionRepresentationInput →
      AssetResult (List RevisionRepresentation)
  | _, [] => .ok []
  | i, input :: inputs => do
    let id ← source.generatedId i
    let resources ← sampleResources source (i + 1) input.resources
    match RevisionRepresentation.new id input.purpose resources with
    | .error _ => .error .validation
    | .ok representation =>
      let rest ← sampleRepresentations source (i + 1 + input.resources.length) inputs
      pure (representation :: rest)

/-- The ids drawn for representations and resources, in drawing order. -/
def representationUuids (representations : List RevisionRepresentation) : List Uuid :=
  representations.flatMap fun representation =>
    representation.id.uuid :: representation.resources.map fun resource => resource.id.uuid

/-- What `create_revision_deferred` draws before it decides. -/
structure RevisionDraw where
  revisionId : Id .assetRevision
  eventId : Id .domainEvent
  provenanceId : Id .provenanceEvent
  representations : List RevisionRepresentation
  at_ : Timestamp

/-- The drawing phase of `create_revision_deferred`. -/
def drawRevision (request : DeferredCreateAssetRevisionCommand) :
    AssetResult RevisionDraw := do
  let revisionId ← request.values.generatedId 0
  let eventId ← request.values.generatedId 1
  let provenanceId ← request.values.generatedId 2
  let representations ← sampleRepresentations request.values 3 request.representations
  let generated := [request.assetId.uuid, revisionId.uuid, eventId.uuid, provenanceId.uuid] ++
    representationUuids representations ++ request.parentRevisionIds.map Id.uuid
  if generated.Nodup then
    let at_ ← request.values.now
    request.values.checkpoint
    pure ⟨revisionId, eventId, provenanceId, representations, at_⟩
  else .error .idGenerationUnavailable

/-- `create_revision_deferred`, after the command has been found new. -/
def createRevisionDeferredNew (context : StoreContext)
    (request : DeferredCreateAssetRevisionCommand) : Tx MutationOutcome := do
  let d ← Txn.read
  let draw ← Txn.lift (drawRevision request)
  let reject (code : ErrorCode) : Tx MutationOutcome := do
    insertClaim context request.binding draw.at_
    commitRejection request.binding code draw.at_
  match d.assets.find? fun a => a.assetId = request.assetId with
  | none => reject .notFound
  | some a =>
    let record : AssetRecord := ⟨request.assetId, a.kind, a.lifecycle, a.revision, a.createdAt⟩
    match record.createRevision
      ⟨request.expectedRevision, draw.revisionId, request.parentRevisionIds,
        request.contentKind, draw.representations, draw.at_⟩ with
    | .ok revision =>
      createRevision context
        ⟨request.binding, revision, draw.eventId, draw.provenanceId, draw.at_, request.operation⟩
    | .error .conflict => reject .conflict
    | .error .revisionExhausted => reject .revisionExhausted
    | .error _ => Txn.fail .validation

/-- `create_revision_deferred`. -/
def createRevisionDeferred (context : StoreContext)
    (request : DeferredCreateAssetRevisionCommand) : Tx MutationOutcome :=
  unlessKnown context request.binding .assetRevision (createRevisionDeferredNew context request)

/-! ## Lifecycle -/

/-- The lifecycle moves an asset admits. -/
def lifecycleMove : AssetLifecycle → AssetLifecycle → Bool
  | .active, .retired => true
  | .retired, .active => true
  | _, _ => false

def lifecycleEventRow (request : AssetLifecycleCommand) (next sequence : ℕ) : EventRow where
  domainEventId := request.domainEventId
  commitSequence := sequence
  commandId := request.binding.commandId
  eventType := lifecycleEvent request.target
  aggregateKind := .asset
  aggregateId := .uuid request.assetId.uuid
  aggregateRevision := some next
  eventPayload := none
  occurredAt := request.operationAt

/-- `change_asset_lifecycle`, after the command has been found new. -/
def changeAssetLifecycleNew (context : StoreContext) (request : AssetLifecycleCommand) :
    Tx MutationOutcome := do
  insertClaim context request.binding request.operationAt
  let reject (code : ErrorCode) := commitRejection request.binding code request.operationAt
  let d ← Txn.read
  match d.assets.find? fun a => a.assetId = request.assetId with
  | none => reject .notFound
  | some a =>
    if a.revision ≠ request.expectedRevision then reject .conflict
    else if lifecycleMove a.lifecycle request.target = false then reject .invalidTransition
    else
      match checkedNext a.revision with
      | none => reject .revisionExhausted
      | some next =>
        match ← allocateEventSequences 1 with
        | none => reject .revisionExhausted
        | some sequence =>
          let changed ← updateAssets
            (fun r => r.assetId = request.assetId && r.revision = a.revision)
            (fun r => { r with
              lifecycle := request.target
              revision := next
              updatedAt := some request.operationAt })
            fun _ => rfl
          if changed ≠ 1 then Txn.fail .storageCorruption
          else
            insertEvent (lifecycleEventRow request next sequence)
            completeCommand request.binding .assetLifecycle request.assetId.uuid none
              (some (.assetLifecycle next request.target)) request.operationAt replayResult

/-- `change_asset_lifecycle`. -/
def changeAssetLifecycle (context : StoreContext) (request : AssetLifecycleCommand) :
    Tx MutationOutcome :=
  unlessKnown context request.binding .assetLifecycle (changeAssetLifecycleNew context request)

/-- `change_asset_lifecycle_deferred`. -/
def changeAssetLifecycleDeferred (context : StoreContext)
    (request : DeferredAssetLifecycleCommand) : Tx MutationOutcome :=
  unlessKnown context request.binding .assetLifecycle do
    let eventId ← Txn.lift (request.values.generatedId 0)
    let at_ ← Txn.lift request.values.now
    Txn.lift request.values.checkpoint
    changeAssetLifecycle context
      ⟨request.binding, request.assetId, request.expectedRevision, request.target, eventId, at_,
        request.operation⟩

/-! ## Locations -/

def locationRecordedEvent (request : RecordManagedLocationCommand) (next sequence : ℕ) :
    EventRow where
  domainEventId := request.domainEventId
  commitSequence := sequence
  commandId := request.binding.commandId
  eventType := .blobLocationRecorded
  aggregateKind := .blob
  aggregateId := .digest request.durableBlob.digest
  aggregateRevision := some next
  eventPayload := none
  occurredAt := request.operationAt

/-- The writes of `record_location_inner` once its checks have passed. -/
def writeLocation (request : RecordManagedLocationCommand) (next sequence : ℕ) :
    Tx MutationOutcome := do
  insertLocation
    (newLocationRow request.durableBlob request.candidateLocationId request.operationAt)
  updateBlobs (fun b => b.digest = request.durableBlob.digest)
    (fun b => { b with revision := next, verifiedAt := request.operationAt })
    (fun _ => rfl) fun _ => rfl
  insertEvent (locationRecordedEvent request next sequence)
  completeCommand request.binding .location request.candidateLocationId.uuid none none
    request.operationAt fun t row =>
      match replayResult t row with
      | .ok (.location a b c) => .ok (.location a b c)
      | .ok _ => .error .storageCorruption
      | .error e => .error e

/-- `record_location`, after the command has been found new. -/
def recordLocationNew (context : StoreContext) (request : RecordManagedLocationCommand) :
    Tx MutationOutcome := do
  insertClaim context request.binding request.operationAt
  let reject (code : ErrorCode) := commitRejection request.binding code request.operationAt
  let d ← Txn.read
  match d.blobs.find? fun b => b.digest = request.durableBlob.digest with
  | none => reject .notFound
  | some current =>
    if current.revision = 0 ∨ current.lifecycle ≠ .available ∨
        current.byteLength ≠ request.durableBlob.byteLength then
      Txn.fail .storageCorruption
    else if current.revision ≠ request.expectedRevision then reject .conflict
    else
      match checkedNext request.expectedRevision with
      | none => reject .revisionExhausted
      | some next =>
        match locationAt d request.durableBlob with
        | some row =>
          if isExpectedLocation request.durableBlob row then reject .conflict
          else Txn.fail .storageCorruption
        | none =>
          match ← allocateEventSequences 1 with
          | none => reject .revisionExhausted
          | some sequence => writeLocation request next sequence

/-- `record_location`. -/
def recordLocation (context : StoreContext) (request : RecordManagedLocationCommand) :
    Tx MutationOutcome := do
  Txn.lift (validateDescriptor (backendText request.durableBlob.backend) 255)
  Txn.lift (validateDescriptor (locatorText request.durableBlob.digest) 1024)
  unlessKnown context request.binding .location (recordLocationNew context request)

end MengXia.Store
