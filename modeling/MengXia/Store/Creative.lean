
import MengXia.Store.Ledger
/-!
# Creative mutations

The project, subject, work and take commands of the creative repository,
statement by statement. Every command draws its ids before it reads the
tables, and stores its claim before it decides.
-/

namespace MengXia.Store

open Common

/-- `distinct`. -/
def distinct (ids : List Uuid) : AssetResult Unit :=
  if ids.Nodup then .ok () else .error .idGenerationUnavailable

/-- `insert_domain_event` and `insert_payload_event` write this row. -/
def domainEventRow (eventId : Id .domainEvent) (sequence : ℕ) (binding : CommandBinding)
    (eventType : EventType) (kind : NodeKind) (aggregateId : Uuid) (revision : RevisionNo)
    (payload : Option Bytes) (at_ : Timestamp) : EventRow where
  domainEventId := eventId
  commitSequence := sequence
  commandId := binding.commandId
  eventType := eventType
  aggregateKind := kind
  aggregateId := .uuid aggregateId
  aggregateRevision := some revision
  eventPayload := payload
  occurredAt := at_

/-- `insert_domain_event`. -/
def insertDomainEvent (eventId : Id .domainEvent) (sequence : ℕ) (binding : CommandBinding)
    (eventType : EventType) (kind : NodeKind) (aggregateId : Uuid) (revision : RevisionNo)
    (at_ : Timestamp) : Tx Unit :=
  insertEvent (domainEventRow eventId sequence binding eventType kind aggregateId revision none
    at_)

/-! ## Projects -/

/-- The row `insert_project_specification` writes. -/
def specRevisionRow (specId : Id .projectSpecRevision) (projectId : Id .project) (sequence : ℕ)
    (commandId : Id .command) (at_ : Timestamp) (specification : ProjectSpecification) :
    SpecRevisionRow where
  projectSpecRevisionId := specId
  projectId := projectId
  sequence := sequence
  resolution := specification.resolution
  frameRate := specification.frameRate
  aspectRatio := specification.aspectRatio
  colorPolicyJson := specification.colorPolicy.bytes
  audioPolicyJson := specification.audioPolicy.bytes
  qualityPolicyJson := specification.qualityPolicy.bytes
  privacyPolicyJson := specification.privacyPolicy.bytes
  policyDigest := specification.policyDigest
  createdByCommandId := commandId
  createdAt := at_

def newProjectRow (projectId : Id .project) (specId : Id .projectSpecRevision)
    (request : CreateProjectCommand) (sequence : ℕ) (at_ : Timestamp) : ProjectRow where
  projectId := projectId
  name := request.name
  currentSpecRevisionId := specId
  revision := 1
  creationCommitSequence := sequence
  createdByCommandId := request.binding.commandId
  createdAt := at_
  updatedAt := at_

/-- What `create_project` draws. -/
def drawProject (source : ValueSource) : AssetResult
    (Id .project × Id .projectSpecRevision × Id .domainEvent × Timestamp) := do
  let projectId ← source.generatedId 0
  let specId ← source.generatedId 1
  let eventId ← source.generatedId 2
  distinct [projectId.uuid, specId.uuid, eventId.uuid]
  let at_ ← source.now
  source.checkpoint
  pure (projectId, specId, eventId, at_)

/-- `create_project`. -/
def createProject (context : StoreContext) (request : CreateProjectCommand) :
    Tx MutationOutcome :=
  unlessKnown context request.binding .project do
    let (projectId, specId, eventId, at_) ← Txn.lift (drawProject request.values)
    insertClaim context request.binding at_
    match ← allocateEventSequences 1 with
    | none => commitRejection request.binding .revisionExhausted at_
    | some sequence =>
      insertDomainEvent eventId sequence request.binding .projectCreated .project projectId.uuid
        1 at_
      insertProject (newProjectRow projectId specId request sequence at_)
      insertSpecRevision (specRevisionRow specId projectId 1 request.binding.commandId at_
        request.specification)
      completeVersioned request.binding projectId.uuid (.project specId 1 1) at_

/-- What `revise_project_spec` draws. -/
def drawProjectSpec (source : ValueSource) : AssetResult
    (Id .projectSpecRevision × Id .domainEvent × Timestamp) := do
  let specId ← source.generatedId 0
  let eventId ← source.generatedId 1
  distinct [specId.uuid, eventId.uuid]
  let at_ ← source.now
  source.checkpoint
  pure (specId, eventId, at_)

/-- The checks of a new revision: the item it names, as it is stored, with
the revision number it gets. -/
def nextRevision {α : Type} (item : Option α) (revision : α → RevisionNo)
    (expected : RevisionNo) (references : Bool) : Except ErrorCode (α × RevisionNo) :=
  match item with
  | none => .error .notFound
  | some x =>
    if revision x ≠ expected then .error .conflict
    else if references = false then .error .notFound
    else
      match checkedNext (revision x) with
      | none => .error .revisionExhausted
      | some next =>
        -- `u32::try_from`
        if 2 ^ 32 ≤ next then .error .revisionExhausted else .ok (x, next)

/-- `revise_project_spec`, after the command has been found new. -/
def reviseProjectSpecNew (context : StoreContext) (request : ReviseProjectSpecCommand) :
    Tx MutationOutcome := do
  let (specId, eventId, at_) ← Txn.lift (drawProjectSpec request.values)
  insertClaim context request.binding at_
  let reject (code : ErrorCode) := commitRejection request.binding code at_
  let d ← Txn.read
  match nextRevision (d.projects.find? fun p => p.projectId = request.projectId)
    ProjectRow.revision request.expectedRevision true with
  | .error code => reject code
  | .ok (p, next) =>
    insertSpecRevision (specRevisionRow specId request.projectId next
      request.binding.commandId at_ request.specification)
    match ← allocateEventSequences 1 with
    | none => reject .revisionExhausted
    | some sequence =>
      let changed ← updateProjects
        (fun r => r.projectId = request.projectId && r.revision = p.revision) specId next at_
      if changed ≠ 1 then Txn.fail .storageCorruption
      else
        insertDomainEvent eventId sequence request.binding .projectSpecRevised
          .projectSpecRevision specId.uuid next at_
        completeVersioned request.binding specId.uuid
          (.projectSpecRevision request.projectId next next) at_

/-- `revise_project_spec`. -/
def reviseProjectSpec (context : StoreContext) (request : ReviseProjectSpecCommand) :
    Tx MutationOutcome :=
  unlessKnown context request.binding .projectSpecRevision (reviseProjectSpecNew context request)

/-! ## Subjects -/

def newSubjectRow (subjectId : Id .subject) (request : CreateSubjectCommand) (sequence : ℕ)
    (at_ : Timestamp) : SubjectRow where
  subjectId := subjectId
  kind := request.kind
  canonicalName := request.name
  revision := 1
  creationCommitSequence := sequence
  createdByCommandId := request.binding.commandId
  createdAt := at_

/-- What `create_subject` draws. -/
def drawSubject (source : ValueSource) : AssetResult
    (Id .subject × Id .domainEvent × Timestamp) := do
  let subjectId ← source.generatedId 0
  let eventId ← source.generatedId 1
  distinct [subjectId.uuid, eventId.uuid]
  let at_ ← source.now
  source.checkpoint
  pure (subjectId, eventId, at_)

/-- `create_subject`. -/
def createSubject (context : StoreContext) (request : CreateSubjectCommand) :
    Tx MutationOutcome :=
  unlessKnown context request.binding .subject do
    let (subjectId, eventId, at_) ← Txn.lift (drawSubject request.values)
    insertClaim context request.binding at_
    match ← allocateEventSequences 1 with
    | none => commitRejection request.binding .revisionExhausted at_
    | some sequence =>
      insertDomainEvent eventId sequence request.binding .subjectCreated .subject subjectId.uuid
        1 at_
      insertSubject (newSubjectRow subjectId request sequence at_)
      completeVersioned request.binding subjectId.uuid (.subject 1) at_

/-! ## Work -/

/-- `validate_work_references`. -/
def validateWorkReferences (t : Tables) (specification : WorkSpecification) : Bool :=
  specification.subjectIds.all (fun id => t.subjects.any fun s => s.subjectId = id) &&
    specification.assetIds.all fun id => t.assets.any fun a => a.assetId = id

def workRevisionRow (revisionId : Id .workRevision) (workItemId : Id .workItem) (sequence : ℕ)
    (binding : CommandBinding) (at_ : Timestamp) (specification : WorkSpecification) :
    WorkRevisionRow where
  workRevisionId := revisionId
  workItemId := workItemId
  sequence := sequence
  specificationJson := specification.json.bytes
  specificationDigest := specification.json.digest
  createdByCommandId := binding.commandId
  createdAt := at_

/-- The edge of a work revision to one of its subjects or assets. -/
def workEdgeRow (revisionId : Id .workRevision) (binding : CommandBinding) (at_ : Timestamp)
    (kind : RelationshipKind) (targetKind : NodeKind) (target : Uuid)
    (relationshipId : Id .relationship) : RelationshipRow where
  relationshipId := relationshipId
  relationshipKind := kind
  sourceKind := .workRevision
  sourceId := revisionId.uuid
  targetKind := targetKind
  targetId := target
  createdByCommandId := binding.commandId
  createdAt := at_

/-- The edges of a work revision in insertion order, subjects first, each
waiting for its relationship id. -/
def workEdges (revisionId : Id .workRevision) (binding : CommandBinding) (at_ : Timestamp)
    (specification : WorkSpecification) : List (Id .relationship → RelationshipRow) :=
  specification.subjectIds.map (fun id =>
      workEdgeRow revisionId binding at_ .workSubject .subject id.uuid) ++
    specification.assetIds.map fun id =>
      workEdgeRow revisionId binding at_ .workAsset .asset id.uuid

/-- The edges of a work revision, with their ids. -/
def workEdgeRows (revisionId : Id .workRevision) (binding : CommandBinding) (at_ : Timestamp)
    (specification : WorkSpecification) (relationshipIds : List (Id .relationship)) :
    List RelationshipRow :=
  ((workEdges revisionId binding at_ specification).zip relationshipIds).map
    fun edge => edge.1 edge.2

/-- What the edges of a work revision have in common. -/
theorem mem_workEdges {revisionId : Id .workRevision} {binding : CommandBinding}
    {at_ : Timestamp} {specification : WorkSpecification} {ids : List (Id .relationship)}
    {x : RelationshipRow} (h : x ∈ workEdgeRows revisionId binding at_ specification ids) :
    x.createdByCommandId = binding.commandId ∧ x.sourceKind = .workRevision ∧
      x.relationshipKind ≠ .takeReopens := by
  obtain ⟨⟨edge, id⟩, hpair, rfl⟩ := List.mem_map.1 h
  rcases List.mem_append.1 (List.of_mem_zip hpair).1 with hedge | hedge
  all_goals
    obtain ⟨_, -, rfl⟩ := List.mem_map.1 hedge
    exact ⟨rfl, rfl, fun h => by cases h⟩

/-- `insert_work_revision`: the relationship ids are consumed in order and
their number must be the number of edges. -/
def insertWorkRevision (revisionId : Id .workRevision) (workItemId : Id .workItem)
    (sequence : ℕ) (binding : CommandBinding) (at_ : Timestamp)
    (specification : WorkSpecification) (relationshipIds : List (Id .relationship)) :
    Tx Unit := do
  insertWorkRevisionRow (workRevisionRow revisionId workItemId sequence binding at_ specification)
  if (workEdges revisionId binding at_ specification).length = relationshipIds.length then
    Txn.forEach (workEdgeRows revisionId binding at_ specification relationshipIds)
      insertRelationshipRow
  else Txn.fail .internal

/-- `n` relationship ids from draw `i` on. -/
def drawRelationships (source : ValueSource) :
    ℕ → ℕ → AssetResult (List (Id .relationship))
  | _, 0 => .ok []
  | i, n + 1 => do
    let id ← source.generatedId i
    let rest ← drawRelationships source (i + 1) n
    pure (id :: rest)

/-- What `create_work` draws, `sample_work_ids` included. -/
def drawWork (source : ValueSource) (relationshipCount : ℕ) : AssetResult
    (Id .workItem × Id .workRevision × Id .domainEvent × List (Id .relationship) × Timestamp) := do
  let workId ← source.generatedId 0
  let revisionId ← source.generatedId 1
  let eventId ← source.generatedId 2
  let relationshipIds ← drawRelationships source 3 relationshipCount
  distinct ([workId.uuid, revisionId.uuid, eventId.uuid] ++ relationshipIds.map Id.uuid)
  let at_ ← source.now
  source.checkpoint
  pure (workId, revisionId, eventId, relationshipIds, at_)

def newWorkItemRow (workId : Id .workItem) (revisionId : Id .workRevision)
    (request : CreateWorkCommand) (sequence : ℕ) (at_ : Timestamp) : WorkItemRow where
  workItemId := workId
  projectId := request.projectId
  kind := request.kind
  code := request.code
  currentWorkRevisionId := revisionId
  revision := 1
  creationCommitSequence := sequence
  createdByCommandId := request.binding.commandId
  createdAt := at_
  updatedAt := at_

/-- `create_work`, after the command has been found new. -/
def createWorkNew (context : StoreContext) (request : CreateWorkCommand) :
    Tx MutationOutcome := do
  let (workId, revisionId, eventId, relationshipIds, at_) ← Txn.lift (drawWork request.values
    (request.specification.subjectIds.length + request.specification.assetIds.length))
  insertClaim context request.binding at_
  let reject (code : ErrorCode) := commitRejection request.binding code at_
  let d ← Txn.read
  if !(d.projects.any fun p => p.projectId = request.projectId) ||
      !validateWorkReferences d request.specification then
    reject .notFound
  else if d.workItems.any fun w =>
      w.projectId = request.projectId && w.kind = request.kind && w.code = request.code then
    reject .conflict
  else
    match ← allocateEventSequences 1 with
    | none => reject .revisionExhausted
    | some sequence =>
      insertDomainEvent eventId sequence request.binding .workCreated .workItem workId.uuid 1 at_
      insertWorkItem (newWorkItemRow workId revisionId request sequence at_)
      insertWorkRevision revisionId workId 1 request.binding at_ request.specification
        relationshipIds
      completeVersioned request.binding workId.uuid (.workItem revisionId 1 1) at_

/-- `create_work`. -/
def createWork (context : StoreContext) (request : CreateWorkCommand) : Tx MutationOutcome :=
  unlessKnown context request.binding .workItem (createWorkNew context request)

/-- What `revise_work` draws. -/
def drawWorkRevision (source : ValueSource) (relationshipCount : ℕ) : AssetResult
    (Id .workRevision × Id .domainEvent × List (Id .relationship) × Timestamp) := do
  let revisionId ← source.generatedId 0
  let eventId ← source.generatedId 1
  let relationshipIds ← drawRelationships source 2 relationshipCount
  distinct ([revisionId.uuid, eventId.uuid] ++ relationshipIds.map Id.uuid)
  let at_ ← source.now
  source.checkpoint
  pure (revisionId, eventId, relationshipIds, at_)

/-- `revise_work`, after the command has been found new. -/
def reviseWorkNew (context : StoreContext) (request : ReviseWorkCommand) :
    Tx MutationOutcome := do
  let (revisionId, eventId, relationshipIds, at_) ← Txn.lift (drawWorkRevision request.values
    (request.specification.subjectIds.length + request.specification.assetIds.length))
  insertClaim context request.binding at_
  let reject (code : ErrorCode) := commitRejection request.binding code at_
  let d ← Txn.read
  match nextRevision (d.workItems.find? fun w =>
      w.workItemId = request.workItemId && w.projectId = request.projectId)
    WorkItemRow.revision request.expectedRevision
    (validateWorkReferences d request.specification) with
  | .error code => reject code
  | .ok (w, next) =>
    insertWorkRevision revisionId request.workItemId next request.binding at_
      request.specification relationshipIds
    let changed ← updateWorkItems
      (fun r => r.workItemId = request.workItemId && r.projectId = request.projectId &&
        r.revision = w.revision)
      revisionId next at_
    if changed ≠ 1 then Txn.fail .storageCorruption
    else
      match ← allocateEventSequences 1 with
      | none => reject .revisionExhausted
      | some sequence =>
        insertDomainEvent eventId sequence request.binding .workRevised .workRevision
          revisionId.uuid next at_
        completeVersioned request.binding revisionId.uuid
          (.workRevision request.workItemId next next) at_

/-- `revise_work`. -/
def reviseWork (context : StoreContext) (request : ReviseWorkCommand) : Tx MutationOutcome :=
  unlessKnown context request.binding .workRevision (reviseWorkNew context request)

end MengXia.Store
