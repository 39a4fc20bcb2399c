
import MengXia.Common.Versions
import MengXia.Store.Statements
/-!
# The command ledger

How a command row is read, validated and replayed. `replayResult` rebuilds
the result of a completed command from the tables and refuses a ledger that
disagrees with them.
-/

namespace MengXia.Store

open Common Txn

variable {kind : ResultKind} {t : Tables}

/-- `OpenedLibraryMetadata` and the identity of the running process. -/
structure StoreContext where
  ownerUid : UInt32
  runtimeId : Id .runtime
  deriving DecidableEq

/-! ## Reading and validating rows -/

/-- `read_command`. -/
def readCommand (t : Tables) (binding : CommandBinding) : Option CommandRow :=
  t.commands.find? fun r => r.commandId = binding.commandId

/-- `binding_matches`. -/
def bindingMatches (r : CommandRow) (binding : CommandBinding) (ownerUid : UInt32) : Bool :=
  r.commandId = binding.commandId && r.operationId = binding.operationId &&
    r.principalUid = ownerUid && r.canonicalRequestDigest = binding.canonicalRequestDigest

/-- The kind of result each operation completes with. -/
def resultKindOf : Operation → ResultKind
  | .assetIngest => .asset
  | .assetRevisionCreate => .assetRevision
  | .blobLocationRecord => .location
  | .assetMaterialize => .assetRevision
  | .assetRetire | .assetRestore => .assetLifecycle
  | .projectCreate => .project
  | .projectSpecRevise => .projectSpecRevision
  | .subjectCreate => .subject
  | .workCreate => .workItem
  | .workRevise => .workRevision
  | .takeCreate | .takeTransition | .takeReopen => .take

/-- The operations whose claim outlives a transaction. -/
def isExternal : Operation → Bool
  | .assetIngest | .assetMaterialize => true
  | _ => false

/-- The terminal codes each operation may store. -/
def isTerminalCodeOf : Operation → ErrorCode → Bool
  | .assetIngest => isExternalTerminalCode
  | .assetMaterialize => isMaterializationTerminalCode
  | _ => isPureRejectionCode

/-- The recovery codes each operation may store. -/
def isRecoveryCodeOf : Operation → ErrorCode → Bool
  | .assetIngest => isExternalRecoveryCode
  | .assetMaterialize => isMaterializationRecoveryCode
  | _ => fun _ => false

/-- The dispositions each operation may store. -/
def Disposition.isOf (operation : Operation) : Disposition → Bool
  | .terminalRejected code => isTerminalCodeOf operation code
  | .recoveryRequired code => isRecoveryCodeOf operation code

/-- Every external command may be left for recovery. -/
theorem isOf_classified {operation : Operation} (h : isExternal operation = true) :
    Disposition.isOf operation (.recoveryRequired .storageConfigurationError) = true := by
  cases operation <;> first | rfl | cases h

/-- `validate_known_command_matrix`. -/
def knownCommandMatrix (r : CommandRow) : Bool :=
  match r.state with
  | .claimed => isExternal r.operationId
  | .completed => r.resultKind = some (resultKindOf r.operationId)
  | .terminalRejected => r.safeErrorCode.any (isTerminalCodeOf r.operationId)
  | .recoveryRequired => r.safeErrorCode.any (isRecoveryCodeOf r.operationId)

/-- The state checks of `validate_command_row_ref`; what it checks of the
stored bytes holds of the typed columns. -/
def resultColumnsValid (r : CommandRow) : Bool :=
  match r.state with
  | .claimed =>
    r.resultKind.isNone && r.resultId.isNone && r.resultLocationId.isNone &&
      r.resultPayload.isNone && r.safeErrorCode.isNone
  | .completed =>
    r.safeErrorCode.isNone &&
      match r.resultKind, r.resultPayload with
      | some .asset, none => r.resultId.isSome && r.resultLocationId.isSome
      | some .assetRevision, none => r.resultLocationId.isNone && r.resultId.isSome
      | some .location, none => r.resultLocationId.isNone && r.resultId.isSome
      | some kind, some payload =>
        r.resultLocationId.isNone && r.resultId.isSome && payload.resultKind = kind
      | _, _ => false
  | .terminalRejected | .recoveryRequired =>
    r.resultKind.isNone && r.resultId.isNone && r.resultLocationId.isNone &&
      r.resultPayload.isNone && r.safeErrorCode.isSome

/-- `validate_command_row`. -/
def validateCommandRow (r : CommandRow) : AssetResult CommandRow :=
  if resultColumnsValid r && knownCommandMatrix r then .ok r else .error .storageCorruption

/-- The row of a command id that is to be stored, when it binds this request:
the opening that the store's transactions write out. -/
def boundRow (t : Tables) (context : StoreContext) (binding : CommandBinding) :
    AssetResult CommandRow :=
  match readCommand t binding with
  | none => .error .conflict
  | some row =>
    if bindingMatches row binding context.ownerUid then validateCommandRow row
    else .error .conflict

/-- `parse_safe_code`. -/
def parseSafeCode (r : CommandRow) : AssetResult ErrorCode :=
  okOr .storageCorruption r.safeErrorCode

/-! ## Replaying results -/

/-- The number of events of a command with the given type and aggregate. -/
def eventCount (t : Tables) (commandId : Id .command) (eventType : EventType)
    (kind : NodeKind) (id : AggregateId) : ℕ :=
  t.domainEvents.countP fun e =>
    e.commandId = commandId && e.eventType = eventType && e.aggregateKind = kind &&
      e.aggregateId = id

/-- The same count, of the events at one aggregate revision. -/
def eventCountAt (t : Tables) (commandId : Id .command) (eventType : EventType)
    (kind : NodeKind) (id : AggregateId) (revision : RevisionNo) : ℕ :=
  t.domainEvents.countP fun e =>
    e.commandId = commandId && e.eventType = eventType && e.aggregateKind = kind &&
      e.aggregateId = id && e.aggregateRevision = some revision

/-- The event a lifecycle operation records. -/
def lifecycleEvent : AssetLifecycle → EventType
  | .retired => .assetRetired
  | .active => .assetRestored

/-- The lifecycle branch of `replay_result`. -/
def replayLifecycle (t : Tables) (r : CommandRow) (eventType : EventType) (resultId : Uuid) :
    AssetResult CommandResult :=
  match r.resultPayload with
  | some (.assetLifecycle revision lifecycle) =>
    match t.assets.find? fun a => a.assetId.uuid = resultId with
    | none => .error .storageCorruption
    | some a =>
      let events := t.domainEvents.countP fun e =>
        e.commandId = r.commandId && e.eventType = eventType && e.aggregateKind = .asset &&
          e.aggregateId = .uuid a.assetId.uuid && e.aggregateRevision = some revision &&
          e.eventPayload.isNone
      if a.revision < revision ∨ events ≠ 1 then .error .storageCorruption
      else .ok (.versioned resultId (.assetLifecycle revision lifecycle) r.updatedAt)
  | _ => .error .storageCorruption

/-- The joined row of the `ASSET` branch of `replay_result`. -/
def registrationRows (t : Tables) (commandId : Id .command) (assetId : Uuid)
    (locationId : Id .location) : List CommandResult :=
  select (fun a => a.assetId.uuid = assetId) t.assets fun a =>
  select (fun ar => ar.assetId = a.assetId && ar.sequence = 1) t.assetRevisions fun ar =>
  select (fun rp => rp.assetRevisionId = ar.assetRevisionId &&
    t.representations.countP (fun x => x.assetRevisionId = ar.assetRevisionId) = 1)
    t.representations fun rp =>
  select (fun rs => rs.representationId = rp.representationId &&
    t.resources.countP (fun x => x.representationId = rp.representationId) = 1)
    t.resources fun rs =>
  select (fun rm => rm.resourceId = rs.resourceId && rm.ordinal = 0 &&
    t.members.countP (fun x => x.resourceId = rs.resourceId) = 1) t.members fun rm =>
  select (fun l => l.locationId = locationId && l.blobDigest = rm.blobDigest &&
    l.isManagedCopy && l.revision = 1) t.locations fun l =>
  if eventCount t commandId .assetRegistered .asset (.uuid a.assetId.uuid) = 1 ∧
      t.provenanceEvents.countP (fun p => p.commandId = commandId &&
        p.eventType = .assetIngestedCopy && p.assetRevisionId = ar.assetRevisionId &&
        p.blobDigest = some rm.blobDigest) = 1 then
    [.managedRegistration a.assetId ar.assetRevisionId rp.representationId rs.resourceId
      l.locationId rm.blobDigest]
  else []

/-- The rows that pass a check, each with the only event of the command about it. -/
def rowsWithEvent {α : Type} (t : Tables) (commandId : Id .command) (eventType : EventType)
    (kind : NodeKind) (id : α → AggregateId) (p : α → Bool) (rows : List α) :
    List (α × EventRow) :=
  select (fun x => p x && eventCount t commandId eventType kind (id x) = 1) rows fun x =>
  select (fun e => e.commandId = commandId && e.eventType = eventType &&
    e.aggregateKind = kind && e.aggregateId = id x) t.domainEvents fun e => [(x, e)]

/-- The joined row of the `ASSET_REVISION` branch of `replay_result`. -/
def revisionRows (t : Tables) (commandId : Id .command) (revisionId : Uuid) :
    List (AssetRevisionRow × EventRow) :=
  rowsWithEvent t commandId .assetRevisionCreated .assetRevision
    (fun ar => .uuid ar.assetRevisionId.uuid) (fun ar => ar.assetRevisionId.uuid = revisionId)
    t.assetRevisions

/-- The joined row of the `LOCATION` branch of `replay_result`. -/
def locationRows (t : Tables) (commandId : Id .command) (locationId : Uuid) :
    List (LocationRow × EventRow) :=
  rowsWithEvent t commandId .blobLocationRecorded .blob (fun l => .digest l.blobDigest)
    (fun l => l.locationId.uuid = locationId && l.isManagedCopy) t.locations

/-- The event whose presence `replay_creative_result` requires of a take command. -/
def takeReplayEvent (operation : Operation) (state : TakeState) : Option EventType :=
  match operation, state with
  | .takeCreate, _ => some .takeCreated
  | .takeReopen, _ => some .takeReopened
  | .takeTransition, .shortlisted => some .takeShortlisted
  | .takeTransition, .selected => some .takeSelected
  | .takeTransition, .approved => some .takeApproved
  | .takeTransition, .rejected => some .takeRejected
  | .takeTransition, .superseded => some .takeSuperseded
  | _, _ => none

/-- The number of take edges a command recorded between two takes. -/
def takeEdgeCount (t : Tables) (commandId : Id .command) (kind : RelationshipKind)
    (source target : Uuid) : ℕ :=
  t.relationships.countP fun x =>
    x.createdByCommandId = commandId && x.relationshipKind = kind && x.sourceKind = .take &&
      x.sourceId = source && x.targetKind = .take && x.targetId = target

/-- The relationship check of the take branch: whether the edge that the
result names, if it names one, is recorded. -/
def takeEdgeRecorded (t : Tables) (r : CommandRow) (primary : Uuid) (state : TakeState)
    (related : Option (Id .take)) : Bool :=
  match r.operationId, related, state with
  | .takeCreate, none, _ => true
  | .takeTransition, none, _ => true
  | .takeReopen, some x, _ => takeEdgeCount t r.commandId .takeReopens primary x.uuid = 1
  | .takeTransition, some x, .selected =>
    takeEdgeCount t r.commandId .takeSupersedes primary x.uuid = 1
  | .takeTransition, some x, .superseded =>
    takeEdgeCount t r.commandId .takeSupersedes x.uuid primary = 1
  | _, _, _ => false

/-- The columns of projects and of their specifications. -/
def projectVersions :
    Versioning ProjectRow SpecRevisionRow (Id .project) (Id .projectSpecRevision) where
  id := ProjectRow.projectId
  revision := ProjectRow.revision
  current := ProjectRow.currentSpecRevisionId
  owner := SpecRevisionRow.projectId
  sequence := SpecRevisionRow.sequence
  version := SpecRevisionRow.projectSpecRevisionId

/-- The columns of work items and of their revisions. -/
def workVersions : Versioning WorkItemRow WorkRevisionRow (Id .workItem) (Id .workRevision) where
  id := WorkItemRow.workItemId
  revision := WorkItemRow.revision
  current := WorkItemRow.currentWorkRevisionId
  owner := WorkRevisionRow.workItemId
  sequence := WorkRevisionRow.sequence
  version := WorkRevisionRow.workRevisionId

section Versions

variable {α β : Type} {entity version : Entity}
  (V : Versioning α β (Id entity) (Id version)) (items : List α) (rows : List β) (primary : Uuid)

/-- The check of a created item: the item joined with the version it was
created with. -/
def createdRecorded (first : Id version) (revision sequence : ℕ) (events : Uuid → ℕ) : Bool :=
  (select (fun x => (V.id x).uuid = primary) items fun x =>
    select (fun y => V.owner y = V.id x && V.version y = first) rows fun y => [(x, y)]).head?.any
      fun (x, y) => revision ≤ V.revision x && V.sequence y = sequence && events (V.id x).uuid = 1

/-- The check of a new version: the version joined with its item. -/
def revisedRecorded (owner : Id entity) (revision sequence events : ℕ) : Bool :=
  (select (fun y => (V.version y).uuid = primary && V.owner y = owner) rows fun y =>
    select (fun x => V.id x = V.owner y) items fun x => [(y, x)]).head?.any
      fun (y, x) => revision ≤ V.revision x && V.sequence y = sequence && events = 1

end Versions

/-- The table checks of `replay_creative_result`, by kind of payload. -/
def creativeResultRecorded (t : Tables) (r : CommandRow) (primary : Uuid) :
    VersionedResultPayload → Bool
  | .project spec revision sequence =>
    createdRecorded projectVersions t.projects t.specRevisions primary spec revision sequence
      fun id => eventCountAt t r.commandId .projectCreated .project (.uuid id) revision
  | .projectSpecRevision project revision sequence =>
    revisedRecorded projectVersions t.projects t.specRevisions primary project revision sequence
      (eventCountAt t r.commandId .projectSpecRevised .projectSpecRevision (.uuid primary)
        revision)
  | .subject revision =>
    (t.subjects.find? fun s => s.subjectId.uuid = primary).any fun s =>
      s.revision = revision &&
        eventCountAt t r.commandId .subjectCreated .subject (.uuid s.subjectId.uuid)
          s.revision = 1
  | .workItem workRevision revision sequence =>
    createdRecorded workVersions t.workItems t.workRevisions primary workRevision revision
      sequence fun id => eventCountAt t r.commandId .workCreated .workItem (.uuid id) revision
  | .workRevision workItem revision sequence =>
    revisedRecorded workVersions t.workItems t.workRevisions primary workItem revision sequence
      (eventCountAt t r.commandId .workRevised .workRevision (.uuid primary) revision)
  | .take revision ordinal state asset related =>
    (takeReplayEvent r.operationId state).any fun event =>
      ((t.takes.find? fun x => x.takeId.uuid = primary).any fun x =>
        x.ordinal = ordinal && x.primaryAssetId = asset && revision ≤ x.revision &&
          eventCountAt t r.commandId event .take (.uuid x.takeId.uuid) revision = 1) &&
        takeEdgeRecorded t r primary state related
  | .assetLifecycle _ _ => false

/-- The revision a versioned result reports. -/
def VersionedResultPayload.revision : VersionedResultPayload → RevisionNo
  | .project _ revision _ => revision
  | .projectSpecRevision _ revision _ => revision
  | .subject revision => revision
  | .workItem _ revision _ => revision
  | .workRevision _ revision _ => revision
  | .take revision _ _ _ _ => revision
  | .assetLifecycle revision _ => revision

/-- `replay_creative_result`. -/
def replayCreativeResult (t : Tables) (r : CommandRow) : AssetResult CommandResult :=
  match r.resultId, r.resultKind, r.resultPayload with
  | some primary, some kind, some payload =>
    -- `VersionedResultPayload::decode` reads the payload under the stored kind
    if payload.resultKind = kind ∧ creativeResultRecorded t r primary payload = true ∧
        VersionedResultPayload.revision payload ≠ 0 then
      .ok (.versioned primary payload r.updatedAt)
    else .error .storageCorruption
  | _, _, _ => .error .storageCorruption

/-- The branches of `replay_result` for results held in columns. -/
def replayByKind (t : Tables) (r : CommandRow) (resultId : Uuid) : AssetResult CommandResult :=
  match r.resultKind, r.resultLocationId with
  | some .asset, some locationId =>
    okOr .storageCorruption (registrationRows t r.commandId resultId locationId).head?
  | some .assetRevision, _ => do
    let (ar, e) ← okOr .storageCorruption (revisionRows t r.commandId resultId).head?
    let revision ← okOr .internal e.aggregateRevision
    return .assetRevision ar.assetId ar.assetRevisionId revision e.occurredAt
  | some .location, _ => do
    let (l, e) ← okOr .storageCorruption (locationRows t r.commandId resultId).head?
    let revision ← okOr .internal e.aggregateRevision
    return .location l.blobDigest l.locationId revision
  | _, _ => .error .storageCorruption

/-- The operations whose results `replay_creative_result` reads. -/
def isCreative : Operation → Bool
  | .projectCreate | .projectSpecRevise | .subjectCreate | .workCreate | .workRevise
  | .takeCreate | .takeTransition | .takeReopen => true
  | _ => false

/-- `replay_result`. -/
def replayResult (t : Tables) (r : CommandRow) : AssetResult CommandResult :=
  if isCreative r.operationId then replayCreativeResult t r
  else
    match r.resultId with
    | none => .error .storageCorruption
    | some resultId =>
      match r.operationId with
      | .assetRetire => replayLifecycle t r .assetRetired resultId
      | .assetRestore => replayLifecycle t r .assetRestored resultId
      | _ => replayByKind t r resultId

/-- `replay_external_result`. -/
def replayExternalResult (t : Tables) (r : CommandRow) : AssetResult CommandResult :=
  match replayResult t r with
  | .ok (.managedRegistration a b c e f g) => .ok (.managedRegistration a b c e f g)
  | .ok _ => .error .storageCorruption
  | .error e => .error e

/-- `replay_pure`. -/
def replayPure (t : Tables) (r : CommandRow) (expectedKind : ResultKind) :
    AssetResult MutationOutcome :=
  match r.state with
  | .completed =>
    if r.resultKind = some expectedKind then do
      let result ← replayResult t r
      pure (.replay result)
    else .error .storageCorruption
  | .terminalRejected => do
    let code ← parseSafeCode r
    pure (.terminalRejected code)
  | .claimed | .recoveryRequired => .error .storageCorruption

/-- `replay_existing`, which the asset commands write out: nothing for a
command id that is not yet in the ledger. -/
def replayExisting (t : Tables) (context : StoreContext) (binding : CommandBinding)
    (expectedKind : ResultKind) : AssetResult (Option MutationOutcome) :=
  match readCommand t binding with
  | none => .ok none
  | some _ => do
    let row ← boundRow t context binding
    let outcome ← replayPure t row expectedKind
    pure (some outcome)

/-- The opening of every pure command: a known command id is replayed, and
only an unknown one is executed. -/
def unlessKnown (context : StoreContext) (binding : CommandBinding) (kind : ResultKind)
    (execute : Tx MutationOutcome) : Tx MutationOutcome := do
  let d ← Txn.read
  match ← Txn.lift (replayExisting d context binding kind) with
  | some outcome => pure outcome
  | none => execute

/-! ## Writing rows -/

/-- The row `insert_claim` writes. -/
def claimRow (context : StoreContext) (binding : CommandBinding) (at_ : Timestamp) :
    CommandRow where
  commandId := binding.commandId
  operationId := binding.operationId
  principalUid := context.ownerUid
  canonicalRequestDigest := binding.canonicalRequestDigest
  storeRuntimeId := context.runtimeId
  state := .claimed
  resultKind := none
  resultId := none
  resultLocationId := none
  resultPayload := none
  safeErrorCode := none
  createdAt := at_
  updatedAt := at_

/-- `insert_claim`. -/
def insertClaim (context : StoreContext) (binding : CommandBinding) (at_ : Timestamp) :
    Tx Unit :=
  insertCommand (claimRow context binding at_)

/-- The columns `commit_rejection` sets. -/
def CommandRow.reject (code : ErrorCode) (at_ : Timestamp) (r : CommandRow) : CommandRow :=
  { r with state := .terminalRejected, safeErrorCode := some code, updatedAt := at_ }

/-- `commit_rejection`. -/
def commitRejection (binding : CommandBinding) (code : ErrorCode) (at_ : Timestamp) :
    Tx MutationOutcome := do
  let _ ← updateCommands (fun r => r.commandId = binding.commandId) (CommandRow.reject code at_)
    fun _ => rfl
  commit
  pure (.terminalRejected code)

/-- The columns a completing statement sets. -/
def CommandRow.complete (kind : ResultKind) (id : Uuid) (location : Option (Id .location))
    (payload : Option VersionedResultPayload) (at_ : Timestamp) (r : CommandRow) : CommandRow :=
  { r with
    state := .completed
    resultKind := some kind
    resultId := some id
    resultLocationId := location
    resultPayload := payload
    updatedAt := at_ }

/-- Complete a claimed row and read the result back, the common end of all
mutations: the row is completed, reread, validated and replayed. -/
def completeCommand (binding : CommandBinding) (kind : ResultKind) (id : Uuid)
    (location : Option (Id .location)) (payload : Option VersionedResultPayload)
    (at_ : Timestamp) (replay : Tables → CommandRow → AssetResult CommandResult) :
    Tx MutationOutcome := do
  let changed ← updateCommands
    (fun r => r.commandId = binding.commandId && r.state = .claimed)
    (CommandRow.complete kind id location payload at_) fun _ => rfl
  if changed ≠ 1 then Txn.fail .storageCorruption
  else
    let d ← Txn.read
    match readCommand d binding with
    | none => Txn.fail .storageCorruption
    | some row =>
      let row ← Txn.lift (validateCommandRow row)
      let result ← Txn.lift (replay d row)
      commit
      pure (.applied result)

/-- `complete_versioned`. -/
def completeVersioned (binding : CommandBinding) (primaryId : Uuid)
    (payload : VersionedResultPayload) (at_ : Timestamp) : Tx MutationOutcome :=
  completeCommand binding payload.resultKind primaryId none (some payload) at_
    replayCreativeResult

/-! ## Rules -/

/-- A command id that the ledger does not hold. -/
def FreshCommand (t : Tables) (id : Id .command) : Prop :=
  ∀ r ∈ t.commands, r.commandId ≠ id

theorem readCommand_eq_none {binding : CommandBinding} :
    readCommand t binding = none ↔ FreshCommand t binding.commandId := by
  unfold readCommand FreshCommand
  rw [List.find?_eq_none]
  simp

theorem readCommand_eq_some {binding : CommandBinding} {r : CommandRow}
    (h : readCommand t binding = some r) : r ∈ t.commands ∧ r.commandId = binding.commandId :=
  ⟨List.mem_of_find?_eq_some h, by simpa using List.find?_some h⟩

theorem validateCommandRow_eq_ok {r r' : CommandRow} :
    validateCommandRow r = .ok r' ↔
      resultColumnsValid r = true ∧ knownCommandMatrix r = true ∧ r' = r := by
  unfold validateCommandRow
  rw [requirement_eq_ok, Bool.and_eq_true, Except.ok.injEq, and_assoc, @eq_comm _ r]

/-- The row of a command, as a process finds it under its binding. -/
structure Bound (t : Tables) (binding : CommandBinding) (uid : UInt32) (row : CommandRow) :
    Prop where
  mem : row ∈ t.commands
  binds : bindingMatches row binding uid = true

namespace Bound

variable {binding : CommandBinding} {uid : UInt32} {row : CommandRow}

theorem id (h : Bound t binding uid row) : row.commandId = binding.commandId := by
  have hbinds := h.binds
  simp only [bindingMatches, Bool.and_eq_true, decide_eq_true_eq] at hbinds
  exact hbinds.1.1.1

theorem operation (h : Bound t binding uid row) : row.operationId = binding.operationId := by
  have hbinds := h.binds
  simp only [bindingMatches, Bool.and_eq_true, decide_eq_true_eq] at hbinds
  exact hbinds.1.1.2

end Bound

theorem boundRow_eq_ok {context : StoreContext} {binding : CommandBinding} {row : CommandRow}
    (h : boundRow t context binding = .ok row) :
    Bound t binding context.ownerUid row ∧ knownCommandMatrix row = true := by
  unfold boundRow at h
  split at h
  · cases h
  · rename_i hread
    obtain ⟨hmatch, h⟩ := requirement_eq_ok.1 h
    obtain ⟨-, hmatrix, rfl⟩ := validateCommandRow_eq_ok.1 h
    exact ⟨⟨(readCommand_eq_some hread).1, hmatch⟩, hmatrix⟩

/-- **Only an unknown command id is executed.** -/
theorem replayExisting_eq_none {context : StoreContext} {binding : CommandBinding}
    (h : replayExisting t context binding kind = .ok none) :
    FreshCommand t binding.commandId := by
  unfold replayExisting at h
  split at h
  · exact readCommand_eq_none.1 ‹_›
  · obtain ⟨_, -, h⟩ := exceptBind_eq_ok.1 h
    obtain ⟨_, -, h⟩ := exceptBind_eq_ok.1 h
    cases h

/-- A known command id is answered from its row. -/
theorem replayExisting_eq_some {context : StoreContext} {binding : CommandBinding}
    {outcome : MutationOutcome} (h : replayExisting t context binding kind = .ok (some outcome)) :
    ∃ row, Bound t binding context.ownerUid row ∧ knownCommandMatrix row = true ∧
      replayPure t row kind = .ok outcome := by
  unfold replayExisting at h
  split at h
  · cases h
  · obtain ⟨row, hrow, h⟩ := exceptBind_eq_ok.1 h
    obtain ⟨_, houtcome, h⟩ := exceptBind_eq_ok.1 h
    cases h
    exact ⟨row, (boundRow_eq_ok hrow).1, (boundRow_eq_ok hrow).2, houtcome⟩

theorem replayExisting_of_fresh {binding : CommandBinding} (h : FreshCommand t binding.commandId)
    (context : StoreContext) (kind : ResultKind) :
    replayExisting t context binding kind = .ok none := by
  unfold replayExisting
  rw [readCommand_eq_none.2 h]

section Rules

variable {context : StoreContext} {binding : CommandBinding} {at_ : Timestamp} {d : Database}

variable {Q : MutationOutcome → Database → Prop} {E : AssetStoreError → Prop}
  {commands : List CommandRow} {execute : Tx MutationOutcome} {id : Uuid}
  {payload : Option VersionedResultPayload}
  {replay : Tables → CommandRow → AssetResult CommandResult}

/-- The opening of a pure command lets a fresh command id through. -/
theorem wp_unlessKnown (hfresh : FreshCommand d binding.commandId)
    (h : wp execute Q E d) :
    wp (unlessKnown context binding kind execute) Q E d := by
  unfold unlessKnown
  simp only [wp_bind, wp_read, wp_lift, replayExisting_of_fresh hfresh,
    Except.ok.injEq, reduceCtorEq, false_implies, implies_true, and_true]
  rintro _ rfl
  exact h

/-- A known command id is answered by the replay alone. -/
theorem run_unlessKnown {outcome : MutationOutcome}
    (h : replayExisting d context binding kind = .ok (some outcome)) :
    (unlessKnown context binding kind execute).run d = (.ok outcome, d) := by
  simp [unlessKnown, Txn.run, bind_apply, Txn.read, Txn.lift, h, Except.map, pure]

theorem run_unlessKnown_error {e : AssetStoreError}
    (h : replayExisting d context binding kind = .error e) :
    (unlessKnown context binding kind execute).run d = (.error e, d) := by
  simp [unlessKnown, Txn.run, bind_apply, Txn.read, Txn.lift, h, Except.map]

/-- `insert_claim` fails only on a command id that is taken. -/
theorem wp_insertClaim {Q : Unit → Database → Prop} (h : FreshCommand d binding.commandId)
    (hQ : ∀ d' : Database, d'.toTables =
      { d.toTables with commands := d.commands ++ [claimRow context binding at_] } → Q () d') :
    wp (insertClaim context binding at_) Q E d := by
  unfold insertClaim insertCommand
  rw [wp_write]
  refine ⟨fun _ => hQ _ rfl, fun hn => absurd ?_ hn⟩
  exact ⟨h, rfl, fun k hk => by cases hk⟩

/-- The rule for an `UPDATE commands`, as the statement that follows sees it. -/
theorem wp_updateCommands {p : CommandRow → Bool} {f : CommandRow → CommandRow}
    {hf : ∀ r, (f r).commandId = r.commandId} {Q : ℕ → Database → Prop}
    (hguard : (∀ r ∈ d.commands, p r = true → (f r).shapeOk = true ∧
      ∀ k ∈ (f r).resultLocationId, ∃ x ∈ d.locations, x.locationId = k) ∨ E .internal)
    (hQ : ∀ d' : Database,
      d'.toTables = { d.toTables with commands := updateWhere p f d.commands } →
        Q (d.commands.countP p) d') :
    wp (updateCommands p f hf) Q E d := by
  unfold updateCommands
  simp only [wp_bind, wp_read, wp_write, wp_pure]
  refine ⟨fun _ => hQ _ rfl, fun hn => ?_⟩
  exact hguard.resolve_left hn

theorem updateWhere_claim {r : CommandRow} {p : CommandRow → Bool} {f : CommandRow → CommandRow}
    (hfresh : ∀ x ∈ commands, p x = false) (hp : p r = true) :
    updateWhere p f (commands ++ [r]) = commands ++ [f r] := by
  rw [updateWhere_append, updateWhere_eq_self hfresh, updateWhere_singleton, if_pos hp]

/-- **A rejection leaves one new row.** In a transaction that has stored
its claim last, `commit_rejection` turns that claim into the rejection. -/
theorem wp_commitRejection {code : ErrorCode}
    (hd : d.commands = commands ++ [claimRow context binding at_])
    (hfresh : ∀ r ∈ commands, r.commandId ≠ binding.commandId)
    (hE : DeferredKeys d ∨ E .internal)
    (hQ : ∀ d' : Database, d'.toTables = { d.toTables with
      commands := commands ++ [(claimRow context binding at_).reject code at_] } →
        Q (.terminalRejected code) d') :
    wp (commitRejection binding code at_) Q E d := by
  have hself : ∀ x ∈ commands, decide (x.commandId = binding.commandId) = false := by
    intro x hx
    simpa using hfresh x hx
  unfold commitRejection
  rw [wp_bind]
  refine wp_updateCommands (Or.inl ?_) fun d' hd' => ?_
  · intro r hr hp
    rw [hd] at hr
    rcases List.mem_append.1 hr with hr | hr
    · exact absurd hp (by simpa using hfresh r hr)
    · rw [List.mem_singleton.1 hr]
      exact ⟨rfl, fun k hk => by cases hk⟩
  · rw [hd, updateWhere_claim hself (by simp [claimRow])] at hd'
    simp only [wp_bind, wp_commit, wp_pure]
    refine ⟨fun _ => hQ d' hd', fun hn => ?_⟩
    refine hE.resolve_left fun h => hn ?_
    rw [hd']
    exact { h with }

/-- The row of a command is found by its id. -/
theorem readCommand_of_mem {row : CommandRow} (hrow : row ∈ d.commands)
    (hid : row.commandId = binding.commandId) : readCommand d binding = some row := by
  unfold readCommand
  rw [← hid]
  exact d.consistent.commandKeys.find?_eq hrow

theorem Bound.read {uid : UInt32} {row : CommandRow} (h : Bound d binding uid row) :
    readCommand d binding = some row :=
  readCommand_of_mem h.mem h.id

/-- **The common end of all mutations.** The claimed row is completed and
the result is what `replay` reads back. -/
theorem wp_completeCommand {location : Option (Id .location)} (row : CommandRow)
    (hrow : row ∈ d.commands) (hid : row.commandId = binding.commandId)
    (hstate : row.state = .claimed)
    (hQ : ∀ (d' : Database) (result : CommandResult), d'.toTables = { d.toTables with
        commands := updateWhere (fun r => r.commandId = binding.commandId && r.state = .claimed)
          (CommandRow.complete kind id location payload at_) d.commands } →
      DeferredKeys d' →
      replay d' (row.complete kind id location payload at_) = .ok result →
        Q (.applied result) d')
    (hE : (∀ e, E e) ∨
      ((row.complete kind id location payload at_).shapeOk = true ∧
      (∀ k ∈ location, ∃ x ∈ d.locations, x.locationId = k) ∧
      validateCommandRow (row.complete kind id location payload at_) =
        .ok (row.complete kind id location payload at_) ∧
      DeferredKeys d ∧
      ∀ t : Tables, t = { d.toTables with
          commands := updateWhere (fun r => r.commandId = binding.commandId && r.state = .claimed)
            (CommandRow.complete kind id location payload at_) d.commands } →
        ∃ result, replay t (row.complete kind id location payload at_) = .ok result)) :
    wp (completeCommand binding kind id location payload at_ replay) Q E d := by
  have honly : ∀ r ∈ d.commands,
      (decide (r.commandId = binding.commandId) && decide (r.state = .claimed)) = true →
        r = row := by
    intro r hr hp
    simp only [Bool.and_eq_true, decide_eq_true_eq] at hp
    exact d.consistent.commandKeys.eq_of_mem hr hrow (hp.1.trans hid.symm)
  have hone : d.commands.countP
      (fun r => decide (r.commandId = binding.commandId) && decide (r.state = .claimed)) = 1 :=
    d.consistent.commandKeys.countP_eq_one hrow (by simp [hid, hstate])
      fun r hr hp => by rw [honly r hr hp]
  unfold completeCommand
  rw [wp_bind]
  refine wp_updateCommands ?_ fun d' hd' => ?_
  · rcases hE with hE | ⟨hshape, hloc, -⟩
    · exact Or.inr (hE _)
    · refine Or.inl fun r hr hp => ?_
      rw [honly r hr hp]
      exact ⟨hshape, hloc⟩
  · have hmem : row.complete kind id location payload at_ ∈ d'.commands := by
      rw [hd']
      exact mem_updateWhere.2 ⟨row, hrow, by simp [hid, hstate]⟩
    simp only [hone, ne_eq, not_true_eq_false, if_false, wp_bind, wp_read]
    rw [readCommand_of_mem hmem hid]
    simp only [wp_bind, wp_lift, wp_commit, wp_pure]
    refine ⟨fun r hr => ⟨fun result hres => ⟨fun hkeys => ?_, fun hkeys => ?_⟩, fun e he => ?_⟩,
      fun e he => ?_⟩
    · rw [(validateCommandRow_eq_ok.1 hr).2.2] at hres
      exact hQ d' result hd' hkeys hres
    · rcases hE with hE | ⟨-, -, -, hdef, -⟩
      · exact hE _
      · refine absurd ?_ hkeys
        rw [hd']
        exact { hdef with }
    · rcases hE with hE | ⟨-, -, -, -, hrep⟩
      · exact hE _
      · obtain ⟨result, hres⟩ := hrep _ hd'
        rw [(validateCommandRow_eq_ok.1 hr).2.2, hres] at he
        cases he
    · rcases hE with hE | ⟨-, -, hval, -⟩
      · exact hE _
      · rw [hval] at he
        cases he

/-- Of the rows only a claim that was stored last is completed. -/
theorem updateWhere_complete {location : Option (Id .location)}
    (hd : d.commands = commands ++ [claimRow context binding at_])
    (hfresh : ∀ r ∈ commands, r.commandId ≠ binding.commandId) :
    updateWhere (fun r => decide (r.commandId = binding.commandId) && decide (r.state = .claimed))
      (CommandRow.complete kind id location payload at_) d.commands = commands ++
        [(claimRow context binding at_).complete kind id location payload at_] := by
  rw [hd, updateWhere_claim _ (by simp [claimRow])]
  intro x hx
  simp [hfresh x hx]

/-- The same end for a claim that was stored last, when nothing stops it. -/
theorem wp_completeClaim {location : Option (Id .location)} {result : CommandResult}
    (hd : d.commands = commands ++ [claimRow context binding at_])
    (hfresh : ∀ r ∈ commands, r.commandId ≠ binding.commandId)
    (hshape : ((claimRow context binding at_).complete kind id location payload at_).shapeOk = true)
    (hlocation : ∀ k ∈ location, ∃ x ∈ d.locations, x.locationId = k)
    (hvalid : validateCommandRow ((claimRow context binding at_).complete kind id location payload
      at_) = .ok ((claimRow context binding at_).complete kind id location payload at_))
    (hkeys : DeferredKeys d)
    (hreplay : replay { d.toTables with
        commands := commands ++
          [(claimRow context binding at_).complete kind id location payload at_] }
      ((claimRow context binding at_).complete kind id location payload at_) = .ok result)
    (hQ : ∀ d' : Database, d'.toTables = { d.toTables with
        commands := commands ++
          [(claimRow context binding at_).complete kind id location payload at_] } →
      Q (.applied result) d') :
    wp (completeCommand binding kind id location payload at_ replay) Q E d := by
  refine wp_completeCommand (claimRow context binding at_) (by rw [hd]; simp) rfl rfl
    (fun d' result' hd' _ hres => ?_)
    (Or.inr ⟨hshape, hlocation, hvalid, hkeys, fun t ht => ⟨result, ?_⟩⟩)
  · rw [updateWhere_complete hd hfresh] at hd'
    rw [hd', hreplay, Except.ok.injEq] at hres
    exact hres ▸ hQ d' hd'
  · rw [ht, updateWhere_complete hd hfresh]
    exact hreplay

/-- The end of a command whose claim was stored last. -/
theorem post_completeClaim {location : Option (Id .location)}
    (hd : d.commands = commands ++ [claimRow context binding at_])
    (hfresh : ∀ r ∈ commands, r.commandId ≠ binding.commandId)
    (hQ : ∀ (d' : Database) (result : CommandResult), d'.toTables = { d.toTables with
        commands := commands ++
          [(claimRow context binding at_).complete kind id location payload at_] } →
      DeferredKeys d' →
      replay d' ((claimRow context binding at_).complete kind id location payload at_) =
        .ok result → Q (.applied result) d') :
    post (completeCommand binding kind id location payload at_ replay) Q d := by
  refine wp_completeCommand (claimRow context binding at_) (by rw [hd]; simp) rfl rfl
    (fun d' result hd' hkeys hres => hQ d' result ?_ hkeys hres) (Or.inl fun _ => trivial)
  rw [hd', updateWhere_complete hd hfresh]

end Rules

end MengXia.Store
