import MengXia.Store.Takes
import MengXia.Store.Materialize
/-!
# What a store call can change

`Change allowed t t'` holds when one committed transaction of the store turns the
tables `t` into `t'`. There is one constructor for each kind of change,
with the rows it writes and what its transaction had read; a command that
fails, replays or only observes changes nothing. Every invariant of the
store is derived from this relation.
-/

namespace MengXia.Store

open Common

/-! ## Calls -/

/-- The commands that end in one transaction. -/
inductive PureCall where
  | createRevision (request : CreateAssetRevisionCommand)
  | createRevisionDeferred (request : DeferredCreateAssetRevisionCommand)
  | changeAssetLifecycle (request : AssetLifecycleCommand)
  | changeAssetLifecycleDeferred (request : DeferredAssetLifecycleCommand)
  | recordLocation (request : RecordManagedLocationCommand)
  | createProject (request : CreateProjectCommand)
  | reviseProjectSpec (request : ReviseProjectSpecCommand)
  | createSubject (request : CreateSubjectCommand)
  | createWork (request : CreateWorkCommand)
  | reviseWork (request : ReviseWorkCommand)
  | createTake (request : CreateTakeCommand)
  | transitionTake (request : TransitionTakeCommand)
  | reopenTake (request : ReopenTakeCommand)

namespace PureCall

/-- The transaction of a pure command, with its answer. -/
def mutate (context : StoreContext) : PureCall → Tx MutationOutcome
  | .createRevision request => Store.createRevision context request
  | .createRevisionDeferred request => Store.createRevisionDeferred context request
  | .changeAssetLifecycle request => Store.changeAssetLifecycle context request
  | .changeAssetLifecycleDeferred request => Store.changeAssetLifecycleDeferred context request
  | .recordLocation request => Store.recordLocation context request
  | .createProject request => Store.createProject context request
  | .reviseProjectSpec request => Store.reviseProjectSpec context request
  | .createSubject request => Store.createSubject context request
  | .createWork request => Store.createWork context request
  | .reviseWork request => Store.reviseWork context request
  | .createTake request => Store.createTake context request
  | .transitionTake request => Store.transitionTake context request
  | .reopenTake request => Store.reopenTake context request

def binding : PureCall → CommandBinding
  | .createRevision request => request.binding
  | .createRevisionDeferred request => request.binding
  | .changeAssetLifecycle request => request.binding
  | .changeAssetLifecycleDeferred request => request.binding
  | .recordLocation request => request.binding
  | .createProject request => request.binding
  | .reviseProjectSpec request => request.binding
  | .createSubject request => request.binding
  | .createWork request => request.binding
  | .reviseWork request => request.binding
  | .createTake request => request.binding
  | .transitionTake request => request.binding
  | .reopenTake request => request.binding

end PureCall

/-- The transactions of the store, with their requests. -/
inductive Call where
  | execute (command : PureCall)
  | claimExternal (request : ExternalIngestClaim)
  | completeExternal (request : ExternalIngestCompletion)
  | finishExternal (request : ExternalIngestDisposition)
  | observeMaterialization (command : MaterializationCommandBinding)
  | claimNewMaterialization (transition : MaterializationTransition)
  | reacquireMaterialization (transition : MaterializationTransition)
      (expected : Option ErrorCode)
  | completeMaterialization (transition : MaterializationTransition)
  | finishMaterialization (request : MaterializationFinish)
  | classifyStartupMutationPage (request : StartupMutationPageRequest)

/-- The transaction of a call, without its answer. -/
def Call.exec (context : StoreContext) : Call → Tx Unit
  | .execute command => (command.mutate context).void
  | .claimExternal request => (Store.claimExternal context request).void
  | .completeExternal request => (Store.completeExternal context request).void
  | .finishExternal request => (Store.finishExternal context request).void
  | .observeMaterialization command => (Store.observeMaterialization context command).void
  | .claimNewMaterialization transition => Store.claimNewMaterialization context transition
  | .reacquireMaterialization transition expected =>
    Store.reacquireMaterialization context transition expected
  | .completeMaterialization transition => (Store.completeMaterialization context transition).void
  | .finishMaterialization request => (Store.finishMaterialization context request).void
  | .classifyStartupMutationPage request =>
    (Store.classifyStartupMutationPage context request).void

/-! ## Moves of external commands -/

/-- How the row of an ingest or materialize command moves when nothing
else is written. -/
inductive ExternalMove (r : CommandRow) : CommandRow → Prop where
  /-- The claim ends in a stored disposition. -/
  | disposed (disposition : Disposition) (at_ : Timestamp) (claimed : r.state = .claimed)
      (accepted : Disposition.isOf r.operationId disposition = true) :
      ExternalMove r (r.dispose disposition at_)
  /-- A later process takes over a materialize command. -/
  | reacquired (runtime : Id .runtime) (at_ : Timestamp)
      (operation : r.operationId = .assetMaterialize)
      (state : r.state = .recoveryRequired ∨
        r.state = .claimed ∧ r.storeRuntimeId ≠ runtime) :
      ExternalMove r (r.reacquire runtime at_)
  /-- A materialize command completes. -/
  | materialized (revisionId : Id .assetRevision) (at_ : Timestamp)
      (operation : r.operationId = .assetMaterialize) (claimed : r.state = .claimed) :
      ExternalMove r (r.complete .assetRevision revisionId.uuid none none at_)

/-! ## Stored content -/

/-- What `persist_blob_and_location` leaves: the blob table, the location
table and the location that holds the content. -/
structure Persisted (t : Tables) (blob : DurableBlob) (candidate : Id .location)
    (mediaType : Option MediaType) (at_ : Timestamp) (blobs : List BlobRow)
    (locations : List LocationRow) (location : Id .location) : Prop where
  blobs : (∃ b ∈ t.blobs, b.digest = blob.digest ∧ b.byteLength = blob.byteLength ∧
        b.mediaType = mediaType ∧ b.lifecycle = .available ∧ blobs = t.blobs) ∨
      (∀ b ∈ t.blobs, b.digest ≠ blob.digest) ∧
        blobs = t.blobs ++ [newBlobRow blob mediaType at_]
  locations : (∃ l ∈ t.locations, l.backendId = blob.backend ∧ l.locator = blob.digest ∧
        isExpectedLocation blob l = true ∧ location = l.locationId ∧ locations = t.locations) ∨
      locationAt t blob = none ∧ location = candidate ∧
        locations = t.locations ++ [newLocationRow blob candidate at_]

/-! ## Changes -/

/-- The tables with the row and the event that a command ends with. -/
abbrev Tables.concluded (t : Tables) (row : CommandRow) (event : EventRow) : Tables :=
  { t with
    lastSequence := t.lastSequence + 1
    commands := t.commands ++ [row]
    domainEvents := t.domainEvents ++ [event] }

/-- The tables with one more project. -/
abbrev Tables.withProject (t : Tables) (context : StoreContext) (request : CreateProjectCommand)
    (projectId : Id .project) (specId : Id .projectSpecRevision) (eventId : Id .domainEvent)
    (at_ : Timestamp) : Tables :=
  { t.concluded
      ((claimRow context request.binding at_).complete .project projectId.uuid none
        (some (.project specId 1 1)) at_)
      (domainEventRow eventId (t.lastSequence + 1) request.binding .projectCreated .project
        projectId.uuid 1 none at_) with
    projects := t.projects ++ [newProjectRow projectId specId request (t.lastSequence + 1) at_]
    specRevisions := t.specRevisions ++ [specRevisionRow specId projectId 1
      request.binding.commandId at_ request.specification] }

/-- One committed change of the store; a creative one comes from a call
that `allowed` admits. -/
inductive Change (allowed : Call → Prop) (t : Tables) : Tables → Prop where
  /-- An external command is claimed. -/
  | claimed (context : StoreContext) (binding : CommandBinding) (at_ : Timestamp)
      (fresh : FreshCommand t binding.commandId)
      (external : isExternal binding.operationId = true) :
      Change allowed t { t with commands := t.commands ++ [claimRow context binding at_] }
  /-- An external command moves. -/
  | moved (r r' : CommandRow) (mem : r ∈ t.commands) (external : isExternal r.operationId = true)
      (move : ExternalMove r r') :
      Change allowed t { t with
        commands := updateWhere (fun x => x.commandId = r.commandId) (fun _ => r') t.commands }
  /-- A pure command is rejected and leaves only its own row. -/
  | rejected (context : StoreContext) (binding : CommandBinding) (code : ErrorCode)
      (at_ : Timestamp) (fresh : FreshCommand t binding.commandId)
      (pure : isExternal binding.operationId = false) (known : isPureRejectionCode code = true) :
      Change allowed t { t with
        commands := t.commands ++ [(claimRow context binding at_).reject code at_] }
  /-- An ingest registers an asset. -/
  | registered (context : StoreContext) (request : ExternalIngestCompletion)
      (blobs : List BlobRow) (locations : List LocationRow) (location : Id .location)
      (r : CommandRow) (mem : r ∈ t.commands) (id : r.commandId = request.binding.commandId)
      (operation : r.operationId = .assetIngest) (claimed : r.state = .claimed)
      (persisted : Persisted t request.durableBlob request.plan.candidateLocationId
        request.plan.mediaType request.completedAt blobs locations location) :
      Change allowed t { registeredTables context request t with
        commands := updateWhere (fun x => x.commandId = r.commandId)
          (fun _ => registeredCommand request location r) t.commands
        blobs := blobs
        locations := locations }
  /-- A revision is added to an active asset. -/
  | revisionCreated (context : StoreContext) (request : CreateAssetRevisionCommand)
      (asset : AssetRow) (fresh : FreshCommand t request.binding.commandId)
      (mem : asset ∈ t.assets) (id : asset.assetId = request.revision.assetId)
      (active : asset.lifecycle = .active)
      (maximum : maxRevisionSequence t request.revision.assetId = some asset.revision)
      (next : request.revision.resultingRevision = asset.revision + 1)
      (room : asset.revision < 2 ^ 32 - 1)
      (parents : ∀ parent ∈ request.revision.parentRevisionIds, ∃ x ∈ t.assetRevisions,
        x.assetId = request.revision.assetId ∧ x.assetRevisionId = parent)
      (members : membersVerdict t (revisionMembers request.revision.representations) =
        .managed) :
      Change allowed t { t.concluded
          ((claimRow context request.binding request.operationAt).complete .assetRevision
            request.revision.revisionId.uuid none none request.operationAt)
          (revisionCreatedEvent request (t.lastSequence + 1)) with
        assets := updateWhere (fun r => r.assetId = request.revision.assetId)
          (fun r => { r with
            revision := asset.revision + 1, updatedAt := some request.operationAt }) t.assets
        assetRevisions := t.assetRevisions ++ [revisionRow context request (asset.revision + 1)]
        parents := t.parents ++ parentRows request
        representations := t.representations ++
          request.revision.representations.map (revisionRepresentationRow request)
        resources := t.resources ++ request.revision.representations.flatMap resourceRows
        members := t.members ++ request.revision.representations.flatMap representationMembers
        provenanceEvents := t.provenanceEvents ++ [revisionDerivedProvenance request] }
  /-- An asset is retired or restored. -/
  | lifecycleChanged (context : StoreContext) (request : AssetLifecycleCommand)
      (asset : AssetRow) (fresh : FreshCommand t request.binding.commandId)
      (mem : asset ∈ t.assets) (id : asset.assetId = request.assetId)
      (move : lifecycleMove asset.lifecycle request.target = true)
      (room : asset.revision + 1 < 2 ^ 64) :
      Change allowed t { t.concluded
          ((claimRow context request.binding request.operationAt).complete .assetLifecycle
            request.assetId.uuid none (some (.assetLifecycle (asset.revision + 1) request.target))
            request.operationAt)
          (lifecycleEventRow request (asset.revision + 1) (t.lastSequence + 1)) with
        assets := updateWhere (fun r => r.assetId = request.assetId)
          (fun r => { r with
            lifecycle := request.target
            revision := asset.revision + 1
            updatedAt := some request.operationAt }) t.assets }
  /-- A location is recorded for a stored blob. -/
  | locationRecorded (context : StoreContext) (request : RecordManagedLocationCommand)
      (blob : BlobRow) (fresh : FreshCommand t request.binding.commandId)
      (mem : blob ∈ t.blobs) (id : blob.digest = request.durableBlob.digest)
      (available : blob.lifecycle = .available)
      (length : blob.byteLength = request.durableBlob.byteLength)
      (absent : locationAt t request.durableBlob = none)
      (room : blob.revision + 1 < 2 ^ 64) :
      Change allowed t { t.concluded
          ((claimRow context request.binding request.operationAt).complete .location
            request.candidateLocationId.uuid none none request.operationAt)
          (locationRecordedEvent request (blob.revision + 1) (t.lastSequence + 1)) with
        blobs := updateWhere (fun b => b.digest = request.durableBlob.digest)
          (fun b => { b with
            revision := blob.revision + 1, verifiedAt := request.operationAt }) t.blobs
        locations := t.locations ++
          [newLocationRow request.durableBlob request.candidateLocationId request.operationAt] }
  /-- A project is created with its first specification. -/
  | projectCreated (context : StoreContext) (request : CreateProjectCommand)
      (projectId : Id .project) (specId : Id .projectSpecRevision) (eventId : Id .domainEvent)
      (at_ : Timestamp) (call : allowed (.execute (.createProject request)))
      (fresh : FreshCommand t request.binding.commandId) :
      Change allowed t (t.withProject context request projectId specId eventId at_)
  /-- A project gets a new specification. -/
  | projectRevised (context : StoreContext) (request : ReviseProjectSpecCommand)
      (project : ProjectRow) (specId : Id .projectSpecRevision) (eventId : Id .domainEvent)
      (at_ : Timestamp) (call : allowed (.execute (.reviseProjectSpec request)))
      (fresh : FreshCommand t request.binding.commandId)
      (mem : project ∈ t.projects) (id : project.projectId = request.projectId)
      (room : project.revision + 1 < 2 ^ 32) :
      Change allowed t { t.concluded
          ((claimRow context request.binding at_).complete .projectSpecRevision specId.uuid none
            (some
              (.projectSpecRevision request.projectId (project.revision + 1)
                (project.revision + 1))) at_)
          (domainEventRow eventId (t.lastSequence + 1) request.binding .projectSpecRevised
            .projectSpecRevision specId.uuid (project.revision + 1) none at_) with
        projects := updateWhere (fun r => r.projectId = request.projectId)
          (fun r => { r with
            currentSpecRevisionId := specId
            revision := project.revision + 1
            updatedAt := at_ }) t.projects
        specRevisions := t.specRevisions ++ [specRevisionRow specId request.projectId
          (project.revision + 1) request.binding.commandId at_ request.specification] }
  /-- A project revision is rejected for want of an event number after its
  specification row was written, and the row is committed with it. -/
  | projectRevisionLeft (context : StoreContext) (request : ReviseProjectSpecCommand)
      (project : ProjectRow) (specId : Id .projectSpecRevision) (at_ : Timestamp)
      (call : allowed (.execute (.reviseProjectSpec request)))
      (fresh : FreshCommand t request.binding.commandId)
      (mem : project ∈ t.projects) (id : project.projectId = request.projectId)
      (room : project.revision + 1 < 2 ^ 32) (exhausted : ¬ SequencesLeft t 1) :
      Change allowed t { t with
        commands := t.commands ++
          [(claimRow context request.binding at_).reject .revisionExhausted at_]
        specRevisions := t.specRevisions ++ [specRevisionRow specId request.projectId
          (project.revision + 1) request.binding.commandId at_ request.specification] }
  /-- A subject is created. -/
  | subjectCreated (context : StoreContext) (request : CreateSubjectCommand)
      (subjectId : Id .subject) (eventId : Id .domainEvent) (at_ : Timestamp)
      (call : allowed (.execute (.createSubject request)))
      (fresh : FreshCommand t request.binding.commandId) :
      Change allowed t { t.concluded
          ((claimRow context request.binding at_).complete .subject subjectId.uuid none
            (some (.subject 1)) at_)
          (domainEventRow eventId (t.lastSequence + 1) request.binding .subjectCreated .subject
            subjectId.uuid 1 none at_) with
        subjects := t.subjects ++ [newSubjectRow subjectId request (t.lastSequence + 1) at_] }
  /-- A work item is created with its first revision. -/
  | workCreated (context : StoreContext) (request : CreateWorkCommand) (workId : Id .workItem)
      (revisionId : Id .workRevision) (eventId : Id .domainEvent)
      (relationshipIds : List (Id .relationship)) (at_ : Timestamp)
      (call : allowed (.execute (.createWork request)))
      (fresh : FreshCommand t request.binding.commandId)
      (references : validateWorkReferences t request.specification = true)
      (edges : (workEdges revisionId request.binding at_ request.specification).length =
        relationshipIds.length) :
      Change allowed t { t.concluded
          ((claimRow context request.binding at_).complete .workItem workId.uuid none
            (some (.workItem revisionId 1 1)) at_)
          (domainEventRow eventId (t.lastSequence + 1) request.binding .workCreated .workItem
            workId.uuid 1 none at_) with
        workItems := t.workItems ++
          [newWorkItemRow workId revisionId request (t.lastSequence + 1) at_]
        workRevisions := t.workRevisions ++
          [workRevisionRow revisionId workId 1 request.binding at_ request.specification]
        relationships := t.relationships ++ workEdgeRows revisionId request.binding at_
          request.specification relationshipIds }
  /-- A work item gets a new revision. -/
  | workRevised (context : StoreContext) (request : ReviseWorkCommand) (work : WorkItemRow)
      (revisionId : Id .workRevision) (eventId : Id .domainEvent)
      (relationshipIds : List (Id .relationship)) (at_ : Timestamp)
      (call : allowed (.execute (.reviseWork request)))
      (fresh : FreshCommand t request.binding.commandId)
      (mem : work ∈ t.workItems) (id : work.workItemId = request.workItemId)
      (references : validateWorkReferences t request.specification = true)
      (edges : (workEdges revisionId request.binding at_ request.specification).length =
        relationshipIds.length)
      (room : work.revision + 1 < 2 ^ 32) :
      Change allowed t { t.concluded
          ((claimRow context request.binding at_).complete .workRevision revisionId.uuid none
            (some (.workRevision request.workItemId (work.revision + 1) (work.revision + 1))) at_)
          (domainEventRow eventId (t.lastSequence + 1) request.binding .workRevised .workRevision
            revisionId.uuid (work.revision + 1) none at_) with
        workItems := updateWhere (fun r => r.workItemId = request.workItemId)
          (fun r => { r with
            currentWorkRevisionId := revisionId
            revision := work.revision + 1
            updatedAt := at_ }) t.workItems
        workRevisions := t.workRevisions ++ [workRevisionRow revisionId request.workItemId
          (work.revision + 1) request.binding at_ request.specification]
        relationships := t.relationships ++ workEdgeRows revisionId request.binding at_
          request.specification relationshipIds }
  /-- A work revision is rejected for want of an event number after its
  rows were written, and they are committed with it. -/
  | workRevisionLeft (context : StoreContext) (request : ReviseWorkCommand) (work : WorkItemRow)
      (revisionId : Id .workRevision) (relationshipIds : List (Id .relationship))
      (at_ : Timestamp) (call : allowed (.execute (.reviseWork request)))
      (fresh : FreshCommand t request.binding.commandId)
      (mem : work ∈ t.workItems) (id : work.workItemId = request.workItemId)
      (references : validateWorkReferences t request.specification = true)
      (edges : (workEdges revisionId request.binding at_ request.specification).length =
        relationshipIds.length)
      (room : work.revision + 1 < 2 ^ 32) (exhausted : ¬ SequencesLeft t 1) :
      Change allowed t { t with
        commands := t.commands ++
          [(claimRow context request.binding at_).reject .revisionExhausted at_]
        workItems := updateWhere (fun r => r.workItemId = request.workItemId)
          (fun r => { r with
            currentWorkRevisionId := revisionId
            revision := work.revision + 1
            updatedAt := at_ }) t.workItems
        workRevisions := t.workRevisions ++ [workRevisionRow revisionId request.workItemId
          (work.revision + 1) request.binding at_ request.specification]
        relationships := t.relationships ++ workEdgeRows revisionId request.binding at_
          request.specification relationshipIds }
  /-- A take is created. -/
  | takeCreated (context : StoreContext) (request : CreateTakeCommand) (takeId : Id .take)
      (eventId : Id .domainEvent) (at_ : Timestamp) (ordinal : ℕ)
      (call : allowed (.execute (.createTake request)))
      (fresh : FreshCommand t request.binding.commandId)
      (place : takeContextExists t request.projectId request.workItemId
        request.workRevisionId = true)
      (next : nextTakeOrdinal t request.workRevisionId = some ordinal) :
      Change allowed t { t.concluded
          ((claimRow context request.binding at_).complete .take takeId.uuid none
            (some (.take 1 ordinal .candidate request.primaryAssetId none)) at_)
          (domainEventRow eventId (t.lastSequence + 1) request.binding .takeCreated .take
            takeId.uuid 1 none at_) with
        takes := t.takes ++ [newTakeRow takeId request.workRevisionId ordinal
          request.primaryAssetId (t.lastSequence + 1) request.binding at_] }
  /-- A take moves without another take. -/
  | takeMoved (context : StoreContext) (request : TransitionTakeCommand) (take : TakeRow)
      (target : TakeState) (draw : TransitionDraw) (payload : Option Bytes)
      (call : allowed (.execute (.transitionTake request)))
      (fresh : FreshCommand t request.binding.commandId)
      (mem : take ∈ t.takes) (id : take.takeId = request.takeId)
      (transition : take.state.transition request.transition = .ok target)
      (alone : involvement t request = .ok .alone) (room : take.revision + 1 < 2 ^ 64) :
      Change allowed t { t.concluded
          ((claimRow context request.binding draw.at_).complete .take request.takeId.uuid none
            (some (.take (take.revision + 1) take.ordinal target take.primaryAssetId none))
            draw.at_)
          (domainEventRow draw.firstEvent (t.lastSequence + 1) request.binding
            (transitionEvent request.transition) .take request.takeId.uuid (take.revision + 1)
            payload draw.at_) with
        takes := updateWhere (fun r => r.takeId = request.takeId)
          (TakeRow.move target (take.revision + 1) draw.at_) t.takes }
  /-- A take is selected in place of the selected one. -/
  | takeReplaced (context : StoreContext) (request : TransitionTakeCommand)
      (take selected : TakeRow) (draw : TransitionDraw) (payload payload' : Option Bytes)
      (call : allowed (.execute (.transitionTake request)))
      (fresh : FreshCommand t request.binding.commandId)
      (mem : take ∈ t.takes) (id : take.takeId = request.takeId)
      (selects : request.transition = .select)
      (transition : take.state.transition .select = .ok .selected)
      (place : take.workRevisionId = request.workRevisionId)
      (other : selected ∈ t.takes) (otherState : selected.state = .selected)
      (otherPlace : selected.workRevisionId = request.workRevisionId)
      (distinct : selected.takeId ≠ request.takeId)
      (room : take.revision + 1 < 2 ^ 64) (otherRoom : selected.revision + 1 < 2 ^ 64) :
      Change allowed t { t with
        lastSequence := t.lastSequence + 2
        commands := t.commands ++ [(claimRow context request.binding draw.at_).complete .take
          request.takeId.uuid none (some (.take (take.revision + 1) take.ordinal .selected
            take.primaryAssetId (some selected.takeId))) draw.at_]
        domainEvents := t.domainEvents ++
          [domainEventRow draw.firstEvent (t.lastSequence + 1) request.binding .takeSuperseded
            .take selected.takeId.uuid (selected.revision + 1) payload draw.at_,
          domainEventRow draw.secondEvent (t.lastSequence + 2) request.binding .takeSelected
            .take request.takeId.uuid (take.revision + 1) payload' draw.at_]
        takes := updateWhere (fun r => r.takeId = request.takeId)
          (TakeRow.move .selected (take.revision + 1) draw.at_)
          (updateWhere (fun r => r.takeId = selected.takeId)
            (TakeRow.move .superseded (selected.revision + 1) draw.at_) t.takes)
        relationships := t.relationships ++ [takeEdgeRow draw.relationshipId .takeSupersedes
          request.takeId selected.takeId request.binding draw.at_] }
  /-- A take is superseded by another one. -/
  | takeSuperseded (context : StoreContext) (request : TransitionTakeCommand)
      (take replacement : TakeRow) (draw : TransitionDraw) (payload : Option Bytes)
      (call : allowed (.execute (.transitionTake request)))
      (fresh : FreshCommand t request.binding.commandId)
      (mem : take ∈ t.takes) (id : take.takeId = request.takeId)
      (supersedes : request.transition = .supersede)
      (transition : take.state.transition .supersede = .ok .superseded)
      (place : take.workRevisionId = request.workRevisionId)
      (other : replacement ∈ t.takes)
      (otherPlace : replacement.workRevisionId = request.workRevisionId)
      (distinct : replacement.takeId ≠ request.takeId) (room : take.revision + 1 < 2 ^ 64)
      (related : ∃ revision, request.relatedTake = some (replacement.takeId, revision)) :
      Change allowed t { t.concluded
          ((claimRow context request.binding draw.at_).complete .take request.takeId.uuid none
            (some
              (.take (take.revision + 1) take.ordinal .superseded take.primaryAssetId
                (some replacement.takeId))) draw.at_)
          (domainEventRow draw.firstEvent (t.lastSequence + 1) request.binding .takeSuperseded .take
            request.takeId.uuid (take.revision + 1) payload draw.at_) with
        takes := updateWhere (fun r => r.takeId = request.takeId)
          (TakeRow.move .superseded (take.revision + 1) draw.at_) t.takes
        relationships := t.relationships ++ [takeEdgeRow draw.relationshipId .takeSupersedes
          replacement.takeId request.takeId request.binding draw.at_] }
  /-- A terminal take is reopened as a new one. -/
  | takeReopened (context : StoreContext) (request : ReopenTakeCommand) (terminal : TakeRow)
      (takeId : Id .take) (eventId : Id .domainEvent) (relationshipId : Id .relationship)
      (at_ : Timestamp) (ordinal : ℕ) (payload : Option Bytes)
      (call : allowed (.execute (.reopenTake request)))
      (fresh : FreshCommand t request.binding.commandId)
      (mem : terminal ∈ t.takes) (id : terminal.takeId = request.terminalTakeId)
      (terminalState : terminal.state.isTerminal = true)
      (place : terminal.workRevisionId = request.workRevisionId)
      (asset : terminal.primaryAssetId ≠ request.newPrimaryAssetId)
      (next : nextTakeOrdinal t request.workRevisionId = some ordinal) :
      Change allowed t { t.concluded
          ((claimRow context request.binding at_).complete .take takeId.uuid none
            (some
              (.take 1 ordinal .candidate request.newPrimaryAssetId (some request.terminalTakeId)))
            at_)
          (domainEventRow eventId (t.lastSequence + 1) request.binding .takeReopened .take
            takeId.uuid 1 payload at_) with
        takes := t.takes ++ [newTakeRow takeId request.workRevisionId ordinal
          request.newPrimaryAssetId (t.lastSequence + 1) request.binding at_]
        relationships := t.relationships ++ [takeEdgeRow relationshipId .takeReopens takeId
          request.terminalTakeId request.binding at_] }

end MengXia.Store
