import MengXia.Store.Schema
import MengXia.Common.Txn
/-!
# Constraints of the schema

`Consistent` collects the primary keys, unique indexes, checks and
immediate foreign keys of the library schema. A `Database` is a set of
tables with a proof of it, so that no statement of the store can leave a
constraint broken. Foreign keys declared `DEFERRABLE INITIALLY DEFERRED`
are checked when a transaction commits (`DeferredKeys`).
-/

namespace MengXia.Store

open Common Txn

/-- The foreign keys that SQLite checks statement by statement. -/
@[mk_iff]
structure ImmediateKeys (t : Tables) : Prop where
  -- commands
  commandLocations :
    RefersOpt CommandRow.resultLocationId t.commands LocationRow.locationId t.locations
  -- assets and their revisions
  revisionAssets : Refers AssetRevisionRow.assetId t.assetRevisions AssetRow.assetId t.assets
  parentChildren : Refers (fun r => (r.assetId, r.childRevisionId)) t.parents
    (fun r => (r.assetId, r.assetRevisionId)) t.assetRevisions
  parentParents : Refers (fun r => (r.assetId, r.parentRevisionId)) t.parents
    (fun r => (r.assetId, r.assetRevisionId)) t.assetRevisions
  representationRevisions : Refers RepresentationRow.assetRevisionId t.representations
    AssetRevisionRow.assetRevisionId t.assetRevisions
  resourceRepresentations : Refers ResourceRow.representationId t.resources
    RepresentationRow.representationId t.representations
  -- blobs, members and locations
  memberResources : Refers MemberRow.resourceId t.members ResourceRow.resourceId t.resources
  memberBlobs : Refers MemberRow.blobDigest t.members BlobRow.digest t.blobs
  locationBlobs : Refers LocationRow.blobDigest t.locations BlobRow.digest t.blobs
  -- ledgers
  provenanceCommands :
    Refers ProvenanceRow.commandId t.provenanceEvents CommandRow.commandId t.commands
  provenanceRevisions : Refers ProvenanceRow.assetRevisionId t.provenanceEvents
    AssetRevisionRow.assetRevisionId t.assetRevisions
  provenanceBlobs : RefersOpt ProvenanceRow.blobDigest t.provenanceEvents BlobRow.digest t.blobs
  eventCommands : Refers EventRow.commandId t.domainEvents CommandRow.commandId t.commands
  -- projects and subjects
  projectEvents : Refers ProjectRow.creationCommitSequence t.projects
    EventRow.commitSequence t.domainEvents
  projectCommands : Refers ProjectRow.createdByCommandId t.projects
    CommandRow.commandId t.commands
  specCommands : Refers SpecRevisionRow.createdByCommandId t.specRevisions
    CommandRow.commandId t.commands
  subjectEvents : Refers SubjectRow.creationCommitSequence t.subjects
    EventRow.commitSequence t.domainEvents
  subjectCommands : Refers SubjectRow.createdByCommandId t.subjects
    CommandRow.commandId t.commands
  -- work
  workProjects : Refers WorkItemRow.projectId t.workItems ProjectRow.projectId t.projects
  workEvents : Refers WorkItemRow.creationCommitSequence t.workItems
    EventRow.commitSequence t.domainEvents
  workCommands : Refers WorkItemRow.createdByCommandId t.workItems
    CommandRow.commandId t.commands
  workRevisionCommands : Refers WorkRevisionRow.createdByCommandId t.workRevisions
    CommandRow.commandId t.commands
  -- takes and relationships
  takeWorkRevisions : Refers TakeRow.workRevisionId t.takes
    WorkRevisionRow.workRevisionId t.workRevisions
  takeAssets : Refers TakeRow.primaryAssetId t.takes AssetRow.assetId t.assets
  takeEvents : Refers TakeRow.creationCommitSequence t.takes
    EventRow.commitSequence t.domainEvents
  takeCommands : Refers TakeRow.createdByCommandId t.takes CommandRow.commandId t.commands
  relationshipCommands : Refers RelationshipRow.createdByCommandId t.relationships
    CommandRow.commandId t.commands

instance (t : Tables) : Decidable (ImmediateKeys t) :=
  decidable_of_iff' _ (immediateKeys_iff t)

/-- Every constraint that SQLite checks statement by statement. -/
structure Consistent (t : Tables) : Prop extends ImmediateKeys t where
  sequenceBound : t.lastSequence < 2 ^ 63
  -- commands
  commandKeys : Distinct CommandRow.commandId t.commands
  commandShapes : ∀ r ∈ t.commands, r.shapeOk = true
  -- assets and their revisions
  assetKeys : Distinct AssetRow.assetId t.assets
  revisionKeys : Distinct AssetRevisionRow.assetRevisionId t.assetRevisions
  revisionSequences : Distinct (fun r => (r.assetId, r.sequence)) t.assetRevisions
  revisionBounds : ∀ r ∈ t.assetRevisions, 1 ≤ r.sequence ∧ r.sequence < 2 ^ 32
  parentKeys : Distinct (fun r => (r.childRevisionId, r.ordinal)) t.parents
  parentEdges : Distinct (fun r => (r.childRevisionId, r.parentRevisionId)) t.parents
  parentChecks : ∀ r ∈ t.parents, r.ordinal ≤ 63 ∧ r.childRevisionId ≠ r.parentRevisionId
  representationKeys : Distinct RepresentationRow.representationId t.representations
  resourceKeys : Distinct ResourceRow.resourceId t.resources
  -- blobs, members and locations
  blobKeys : Distinct BlobRow.digest t.blobs
  blobLengths : ∀ r ∈ t.blobs, r.byteLength ≤ 2 ^ 40
  memberKeys : Distinct (fun r => (r.resourceId, r.ordinal)) t.members
  memberOrdinals : ∀ r ∈ t.members, r.ordinal ≤ 4095
  locationKeys : Distinct LocationRow.locationId t.locations
  locationAddresses : Distinct (fun r => (r.backendId, r.locator)) t.locations
  -- ledgers
  provenanceKeys : Distinct ProvenanceRow.provenanceEventId t.provenanceEvents
  eventKeys : Distinct EventRow.domainEventId t.domainEvents
  eventSequences : Distinct EventRow.commitSequence t.domainEvents
  eventBounds : ∀ r ∈ t.domainEvents, 1 ≤ r.commitSequence ∧ r.commitSequence < 2 ^ 63
  eventPayloads : ∀ r ∈ t.domainEvents, ∀ p ∈ r.eventPayload, 1 ≤ p.length ∧ p.length ≤ 2048
  -- projects and subjects
  projectKeys : Distinct ProjectRow.projectId t.projects
  projectCreations : Distinct ProjectRow.creationCommitSequence t.projects
  specKeys : Distinct SpecRevisionRow.projectSpecRevisionId t.specRevisions
  specSequences : Distinct (fun r => (r.projectId, r.sequence)) t.specRevisions
  specBounds : ∀ r ∈ t.specRevisions, 1 ≤ r.sequence ∧ r.sequence < 2 ^ 32
  specPolicies : ∀ r ∈ t.specRevisions, ∀ p ∈ r.policies, 2 ≤ p.length ∧ p.length ≤ 65536
  subjectKeys : Distinct SubjectRow.subjectId t.subjects
  subjectCreations : Distinct SubjectRow.creationCommitSequence t.subjects
  -- work
  workKeys : Distinct WorkItemRow.workItemId t.workItems
  workCodes : Distinct (fun r => (r.projectId, r.kind, r.code)) t.workItems
  workCreations : Distinct WorkItemRow.creationCommitSequence t.workItems
  workRevisionKeys : Distinct WorkRevisionRow.workRevisionId t.workRevisions
  workRevisionSequences : Distinct (fun r => (r.workItemId, r.sequence)) t.workRevisions
  workRevisionBounds : ∀ r ∈ t.workRevisions, 1 ≤ r.sequence ∧ r.sequence < 2 ^ 32
  workRevisionSizes : ∀ r ∈ t.workRevisions,
    2 ≤ r.specificationJson.length ∧ r.specificationJson.length ≤ 262144
  -- takes and relationships
  takeKeys : Distinct TakeRow.takeId t.takes
  takeOrdinals : Distinct (fun r => (r.workRevisionId, r.ordinal)) t.takes
  takeBounds : ∀ r ∈ t.takes, 1 ≤ r.ordinal ∧ r.ordinal < 2 ^ 32
  takeCreations : Distinct TakeRow.creationCommitSequence t.takes
  takeOneSelected : Distinct TakeRow.workRevisionId (t.takes.filter (·.state = .selected))
  relationshipKeys : Distinct RelationshipRow.relationshipId t.relationships
  relationshipEdges : Distinct RelationshipRow.edge t.relationships
  relationshipEnds : ∀ r ∈ t.relationships,
    r.sourceId ≠ r.targetId ∨ r.sourceKind ≠ r.targetKind
  relationshipReopens : Distinct RelationshipRow.sourceId
    (t.relationships.filter (·.isTakeEdge .takeReopens))
  relationshipSupersedes : Distinct RelationshipRow.sourceId
    (t.relationships.filter (·.isTakeEdge .takeSupersedes))

/-- The foreign keys a transaction may break until it commits. -/
@[mk_iff]
structure DeferredKeys (t : Tables) : Prop where
  currentSpecs : Refers (fun r => (r.projectId, r.currentSpecRevisionId)) t.projects
    (fun r => (r.projectId, r.projectSpecRevisionId)) t.specRevisions
  specProjects : Refers SpecRevisionRow.projectId t.specRevisions ProjectRow.projectId t.projects
  currentWorkRevisions : Refers (fun r => (r.workItemId, r.currentWorkRevisionId)) t.workItems
    (fun r => (r.workItemId, r.workRevisionId)) t.workRevisions
  workRevisionItems : Refers WorkRevisionRow.workItemId t.workRevisions
    WorkItemRow.workItemId t.workItems

instance (t : Tables) : Decidable (DeferredKeys t) :=
  decidable_of_iff' _ (deferredKeys_iff t)

/-- Tables that satisfy every immediate constraint. -/
structure Database extends Tables where
  consistent : Consistent toTables

/-- A database stands for its tables. -/
instance : Coe Database Tables :=
  ⟨Database.toTables⟩

/-- The empty library. -/
def Database.empty : Database where
  toTables := Tables.empty
  consistent := by
    have hkeys : ImmediateKeys Tables.empty := by
      constructor <;> (intro r hr; cases hr)
    constructor <;> first | exact hkeys | exact Distinct.nil _ | (intro r hr; cases hr) | decide

/-! ## Transactions -/

/-- A store transaction. -/
abbrev Tx (α : Type) : Type := Txn Database AssetStoreError α

/-- One writing statement: it applies `change` when the constraint it
would touch holds, and fails as `map_sqlite_error` maps a violation. -/
def write (guard : Tables → Prop) [DecidablePred guard] (change : Tables → Tables)
    (keep : ∀ t, Consistent t → guard t → Consistent (change t)) : Tx Unit :=
  fun d =>
    if h : guard d.toTables then .ok ((), ⟨change d.toTables, keep _ d.consistent h⟩)
    else .error .internal

/-- `Transaction::commit`: the deferred foreign keys are checked here. -/
def commit : Tx Unit :=
  fun d => if DeferredKeys d.toTables then .ok ((), d) else .error .internal

section Rules

variable {guard : Tables → Prop} {_ : DecidablePred guard} {change : Tables → Tables}
  {keep : ∀ t, Consistent t → guard t → Consistent (change t)}
  {Q : Unit → Database → Prop} {E : AssetStoreError → Prop} {d : Database}

/-- The rule for one statement. -/
@[simp] theorem wp_write : wp (write guard change keep) Q E d ↔
    (∀ h : guard d.toTables, Q () ⟨change d.toTables, keep _ d.consistent h⟩) ∧
      (¬ guard d.toTables → E .internal) := by
  unfold wp write
  by_cases h : guard d.toTables
  · simp [h]
  · simp [h]

/-- The rule for one statement, with the state after it as a new one. -/
theorem wp_write_of (hE : guard d.toTables ∨ E .internal)
    (hQ : ∀ d' : Database, d'.toTables = change d.toTables → guard d.toTables → Q () d') :
    wp (write guard change keep) Q E d := by
  rw [wp_write]
  exact ⟨fun h => hQ _ rfl h, fun hn => hE.resolve_left hn⟩

theorem post_write
    (hQ : ∀ d' : Database, d'.toTables = change d.toTables → guard d.toTables → Q () d') :
    post (write guard change keep) Q d :=
  wp_write_of (Or.inr trivial) hQ

theorem post_commit (hQ : DeferredKeys d.toTables → Q () d) : post commit Q d := by
  unfold post wp commit
  by_cases h : DeferredKeys d.toTables
  · simpa [h] using hQ h
  · simp [h]

@[simp] theorem wp_commit : wp commit Q E d ↔
    (DeferredKeys d.toTables → Q () d) ∧ (¬ DeferredKeys d.toTables → E .internal) := by
  unfold wp commit
  by_cases h : DeferredKeys d.toTables
  · simp [h]
  · simp [h]

end Rules

end MengXia.Store
