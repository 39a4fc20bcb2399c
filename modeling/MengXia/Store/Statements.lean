import MengXia.Store.Constraints
/-!
# Statements of the store

The `INSERT` and `UPDATE` statements of the repositories. Each comes with
the part of the schema it can violate (`Fits` for a new row) and with the
proof that it keeps `Consistent` when it does not.
-/

namespace MengXia.Store

open Common Txn

/-! ## The command ledger -/

/-- What the schema asks of a row that is inserted. -/
abbrev CommandRow.Fits (r : CommandRow) (t : Tables) : Prop :=
  (∀ x ∈ t.commands, x.commandId ≠ r.commandId) ∧ r.shapeOk = true ∧
    ∀ k ∈ r.resultLocationId, ∃ x ∈ t.locations, x.locationId = k

theorem Consistent.insertCommand {r : CommandRow} {t : Tables} (h : Consistent t)
    (hr : r.Fits t) : Consistent { t with commands := t.commands ++ [r] } :=
  { h with
    commandKeys := h.commandKeys.append hr.1
    commandShapes := forall_mem_append_singleton h.commandShapes hr.2.1
    commandLocations := h.commandLocations.append_source hr.2.2
    provenanceCommands := h.provenanceCommands.append_target r
    eventCommands := h.eventCommands.append_target r
    projectCommands := h.projectCommands.append_target r
    specCommands := h.specCommands.append_target r
    subjectCommands := h.subjectCommands.append_target r
    workCommands := h.workCommands.append_target r
    workRevisionCommands := h.workRevisionCommands.append_target r
    takeCommands := h.takeCommands.append_target r
    relationshipCommands := h.relationshipCommands.append_target r }

def insertCommand (r : CommandRow) : Tx Unit :=
  write r.Fits (fun t => { t with commands := t.commands ++ [r] }) fun _ h hr => h.insertCommand hr

/-- `UPDATE commands SET f WHERE p`, with the number of rows it changed. -/
def updateCommands (p : CommandRow → Bool) (f : CommandRow → CommandRow)
    (hf : ∀ r, (f r).commandId = r.commandId) : Tx ℕ := do
  let d ← Txn.read
  write (fun t => ∀ r ∈ t.commands, p r = true →
      (f r).shapeOk = true ∧ ∀ k ∈ (f r).resultLocationId, ∃ x ∈ t.locations, x.locationId = k)
    (fun t => { t with commands := updateWhere p f t.commands })
    fun _ h hr =>
      { h with
        commandKeys := h.commandKeys.updateWhere hf
        commandShapes := forall_mem_updateWhere h.commandShapes fun r hm hp => (hr r hm hp).1
        commandLocations :=
          forall_mem_updateWhere h.commandLocations fun r hm hp => (hr r hm hp).2
        provenanceCommands := h.provenanceCommands.update_target hf
        eventCommands := h.eventCommands.update_target hf
        projectCommands := h.projectCommands.update_target hf
        specCommands := h.specCommands.update_target hf
        subjectCommands := h.subjectCommands.update_target hf
        workCommands := h.workCommands.update_target hf
        workRevisionCommands := h.workRevisionCommands.update_target hf
        takeCommands := h.takeCommands.update_target hf
        relationshipCommands := h.relationshipCommands.update_target hf }
  pure (d.commands.countP p)

/-! ## Events -/

/-- `allocate_event_sequences`: the first of `count` new sequence numbers,
or nothing when they would pass the largest `i64`. -/
def allocateEventSequences (count : ℕ) : Tx (Option ℕ) := do
  let d ← Txn.read
  if 1 ≤ count ∧ count ≤ 64 ∧ d.lastSequence ≤ 2 ^ 63 - 1 - count then
    write (fun t => t.lastSequence + count < 2 ^ 63)
      (fun t => { t with lastSequence := t.lastSequence + count })
      fun _ h hr => { h with sequenceBound := hr }
    pure (some (d.lastSequence + 1))
  else
    pure none

/-- The sequence numbers that are left. -/
abbrev SequencesLeft (t : Tables) (count : ℕ) : Prop :=
  t.lastSequence + count < 2 ^ 63

section Allocation

variable {count : ℕ} {d : Database} {Q : Option ℕ → Database → Prop} {E : AssetStoreError → Prop}

/-- **Allocation never fails**: it advances the counter, or reports that
too few numbers are left. -/
theorem wp_allocateEventSequences (hcount : 1 ≤ count ∧ count ≤ 64)
    (hsome : ∀ d' : Database, SequencesLeft d count → d'.toTables =
      { d.toTables with lastSequence := d.lastSequence + count } →
        Q (some (d.lastSequence + 1)) d')
    (hnone : ¬ SequencesLeft d count → Q none d) :
    wp (allocateEventSequences count) Q E d := by
  have hleft : (1 ≤ count ∧ count ≤ 64 ∧ d.lastSequence ≤ 2 ^ 63 - 1 - count) ↔
      SequencesLeft d count := by
    unfold SequencesLeft
    omega
  unfold allocateEventSequences
  simp only [wp_bind, wp_read, wp_ite, wp_pure, hleft]
  exact ⟨fun h => wp_write_of (Or.inl h) fun d' hd' _ => hsome d' h hd', hnone⟩

end Allocation

@[inherit_doc CommandRow.Fits]
abbrev EventRow.Fits (r : EventRow) (t : Tables) : Prop :=
  (∀ x ∈ t.domainEvents, x.domainEventId ≠ r.domainEventId) ∧
    (∀ x ∈ t.domainEvents, x.commitSequence ≠ r.commitSequence) ∧
    (1 ≤ r.commitSequence ∧ r.commitSequence < 2 ^ 63) ∧
    (∀ p ∈ r.eventPayload, 1 ≤ p.length ∧ p.length ≤ 2048) ∧
    ∃ x ∈ t.commands, x.commandId = r.commandId

def insertEvent (r : EventRow) : Tx Unit :=
  write r.Fits (fun t => { t with domainEvents := t.domainEvents ++ [r] }) fun _ h hr =>
    { h with
      eventKeys := h.eventKeys.append hr.1
      eventSequences := h.eventSequences.append hr.2.1
      eventBounds := forall_mem_append_singleton h.eventBounds hr.2.2.1
      eventPayloads := forall_mem_append_singleton h.eventPayloads hr.2.2.2.1
      eventCommands := h.eventCommands.append_source hr.2.2.2.2
      projectEvents := h.projectEvents.append_target r
      subjectEvents := h.subjectEvents.append_target r
      workEvents := h.workEvents.append_target r
      takeEvents := h.takeEvents.append_target r }

@[inherit_doc CommandRow.Fits]
abbrev ProvenanceRow.Fits (r : ProvenanceRow) (t : Tables) : Prop :=
  (∀ x ∈ t.provenanceEvents, x.provenanceEventId ≠ r.provenanceEventId) ∧
    (∃ x ∈ t.commands, x.commandId = r.commandId) ∧
    (∃ x ∈ t.assetRevisions, x.assetRevisionId = r.assetRevisionId) ∧
    ∀ k ∈ r.blobDigest, ∃ x ∈ t.blobs, x.digest = k

def insertProvenance (r : ProvenanceRow) : Tx Unit :=
  write r.Fits (fun t => { t with provenanceEvents := t.provenanceEvents ++ [r] }) fun _ h hr =>
    { h with
      provenanceKeys := h.provenanceKeys.append hr.1
      provenanceCommands := h.provenanceCommands.append_source hr.2.1
      provenanceRevisions := h.provenanceRevisions.append_source hr.2.2.1
      provenanceBlobs := h.provenanceBlobs.append_source hr.2.2.2 }

/-! ## The asset graph -/

@[inherit_doc CommandRow.Fits]
abbrev AssetRow.Fits (r : AssetRow) (t : Tables) : Prop :=
  ∀ x ∈ t.assets, x.assetId ≠ r.assetId

def insertAsset (r : AssetRow) : Tx Unit :=
  write r.Fits (fun t => { t with assets := t.assets ++ [r] }) fun _ h hr =>
    { h with
      assetKeys := h.assetKeys.append hr
      revisionAssets := h.revisionAssets.append_target r
      takeAssets := h.takeAssets.append_target r }

/-- `UPDATE assets SET f WHERE p`, with the number of rows it changed. -/
def updateAssets (p : AssetRow → Bool) (f : AssetRow → AssetRow)
    (hf : ∀ r, (f r).assetId = r.assetId) : Tx ℕ := do
  let d ← Txn.read
  write (fun _ => True) (fun t => { t with assets := updateWhere p f t.assets }) fun _ h _ =>
    { h with
      assetKeys := h.assetKeys.updateWhere hf
      revisionAssets := h.revisionAssets.update_target hf
      takeAssets := h.takeAssets.update_target hf }
  pure (d.assets.countP p)

@[inherit_doc CommandRow.Fits]
abbrev AssetRevisionRow.Fits (r : AssetRevisionRow) (t : Tables) : Prop :=
  (∀ x ∈ t.assetRevisions, x.assetRevisionId ≠ r.assetRevisionId) ∧
    (∀ x ∈ t.assetRevisions, (x.assetId, x.sequence) ≠ (r.assetId, r.sequence)) ∧
    (1 ≤ r.sequence ∧ r.sequence < 2 ^ 32) ∧ ∃ x ∈ t.assets, x.assetId = r.assetId

def insertAssetRevision (r : AssetRevisionRow) : Tx Unit :=
  write r.Fits (fun t => { t with assetRevisions := t.assetRevisions ++ [r] }) fun _ h hr =>
    { h with
      revisionKeys := h.revisionKeys.append hr.1
      revisionSequences := h.revisionSequences.append hr.2.1
      revisionBounds := forall_mem_append_singleton h.revisionBounds hr.2.2.1
      revisionAssets := h.revisionAssets.append_source hr.2.2.2
      parentChildren := h.parentChildren.append_target r
      parentParents := h.parentParents.append_target r
      representationRevisions := h.representationRevisions.append_target r
      provenanceRevisions := h.provenanceRevisions.append_target r }

@[inherit_doc CommandRow.Fits]
abbrev ParentRow.Fits (r : ParentRow) (t : Tables) : Prop :=
  (∀ x ∈ t.parents, (x.childRevisionId, x.ordinal) ≠ (r.childRevisionId, r.ordinal)) ∧
    (∀ x ∈ t.parents,
      (x.childRevisionId, x.parentRevisionId) ≠ (r.childRevisionId, r.parentRevisionId)) ∧
    (r.ordinal ≤ 63 ∧ r.childRevisionId ≠ r.parentRevisionId) ∧
    (∃ x ∈ t.assetRevisions, (x.assetId, x.assetRevisionId) = (r.assetId, r.childRevisionId)) ∧
    ∃ x ∈ t.assetRevisions, (x.assetId, x.assetRevisionId) = (r.assetId, r.parentRevisionId)

def insertParent (r : ParentRow) : Tx Unit :=
  write r.Fits (fun t => { t with parents := t.parents ++ [r] }) fun _ h hr =>
    { h with
      parentKeys := h.parentKeys.append hr.1
      parentEdges := h.parentEdges.append hr.2.1
      parentChecks := forall_mem_append_singleton h.parentChecks hr.2.2.1
      parentChildren := h.parentChildren.append_source hr.2.2.2.1
      parentParents := h.parentParents.append_source hr.2.2.2.2 }

@[inherit_doc CommandRow.Fits]
abbrev RepresentationRow.Fits (r : RepresentationRow) (t : Tables) : Prop :=
  (∀ x ∈ t.representations, x.representationId ≠ r.representationId) ∧
    ∃ x ∈ t.assetRevisions, x.assetRevisionId = r.assetRevisionId

def insertRepresentation (r : RepresentationRow) : Tx Unit :=
  write r.Fits (fun t => { t with representations := t.representations ++ [r] }) fun _ h hr =>
    { h with
      representationKeys := h.representationKeys.append hr.1
      representationRevisions := h.representationRevisions.append_source hr.2
      resourceRepresentations := h.resourceRepresentations.append_target r }

@[inherit_doc CommandRow.Fits]
abbrev ResourceRow.Fits (r : ResourceRow) (t : Tables) : Prop :=
  (∀ x ∈ t.resources, x.resourceId ≠ r.resourceId) ∧
    ∃ x ∈ t.representations, x.representationId = r.representationId

def insertResource (r : ResourceRow) : Tx Unit :=
  write r.Fits (fun t => { t with resources := t.resources ++ [r] }) fun _ h hr =>
    { h with
      resourceKeys := h.resourceKeys.append hr.1
      resourceRepresentations := h.resourceRepresentations.append_source hr.2
      memberResources := h.memberResources.append_target r }

@[inherit_doc CommandRow.Fits]
abbrev MemberRow.Fits (r : MemberRow) (t : Tables) : Prop :=
  (∀ x ∈ t.members, (x.resourceId, x.ordinal) ≠ (r.resourceId, r.ordinal)) ∧
    r.ordinal ≤ 4095 ∧ (∃ x ∈ t.resources, x.resourceId = r.resourceId) ∧
    ∃ x ∈ t.blobs, x.digest = r.blobDigest

def insertMember (r : MemberRow) : Tx Unit :=
  write r.Fits (fun t => { t with members := t.members ++ [r] }) fun _ h hr =>
    { h with
      memberKeys := h.memberKeys.append hr.1
      memberOrdinals := forall_mem_append_singleton h.memberOrdinals hr.2.1
      memberResources := h.memberResources.append_source hr.2.2.1
      memberBlobs := h.memberBlobs.append_source hr.2.2.2 }

/-! ## Blobs and locations -/

@[inherit_doc CommandRow.Fits]
abbrev BlobRow.Fits (r : BlobRow) (t : Tables) : Prop :=
  (∀ x ∈ t.blobs, x.digest ≠ r.digest) ∧ r.byteLength ≤ 2 ^ 40

def insertBlob (r : BlobRow) : Tx Unit :=
  write r.Fits (fun t => { t with blobs := t.blobs ++ [r] }) fun _ h hr =>
    { h with
      blobKeys := h.blobKeys.append hr.1
      blobLengths := forall_mem_append_singleton h.blobLengths hr.2
      memberBlobs := h.memberBlobs.append_target r
      locationBlobs := h.locationBlobs.append_target r
      provenanceBlobs := h.provenanceBlobs.append_target r }

/-- `UPDATE blobs SET f WHERE p`. -/
def updateBlobs (p : BlobRow → Bool) (f : BlobRow → BlobRow)
    (hf : ∀ r, (f r).digest = r.digest) (hl : ∀ r, (f r).byteLength = r.byteLength) : Tx Unit :=
  write (fun _ => True) (fun t => { t with blobs := updateWhere p f t.blobs }) fun _ h _ =>
    { h with
      blobKeys := h.blobKeys.updateWhere hf
      blobLengths := forall_mem_updateWhere h.blobLengths fun r hm _ => by
        rw [hl]
        exact h.blobLengths r hm
      memberBlobs := h.memberBlobs.update_target hf
      locationBlobs := h.locationBlobs.update_target hf
      provenanceBlobs := h.provenanceBlobs.update_target hf }

@[inherit_doc CommandRow.Fits]
abbrev LocationRow.Fits (r : LocationRow) (t : Tables) : Prop :=
  (∀ x ∈ t.locations, x.locationId ≠ r.locationId) ∧
    (∀ x ∈ t.locations, (x.backendId, x.locator) ≠ (r.backendId, r.locator)) ∧
    ∃ x ∈ t.blobs, x.digest = r.blobDigest

def insertLocation (r : LocationRow) : Tx Unit :=
  write r.Fits (fun t => { t with locations := t.locations ++ [r] }) fun _ h hr =>
    { h with
      commandLocations := h.commandLocations.append_target r
      locationKeys := h.locationKeys.append hr.1
      locationAddresses := h.locationAddresses.append hr.2.1
      locationBlobs := h.locationBlobs.append_source hr.2.2 }

/-! ## Projects and subjects -/

@[inherit_doc CommandRow.Fits]
abbrev ProjectRow.Fits (r : ProjectRow) (t : Tables) : Prop :=
  (∀ x ∈ t.projects, x.projectId ≠ r.projectId) ∧
    (∀ x ∈ t.projects, x.creationCommitSequence ≠ r.creationCommitSequence) ∧
    (∃ x ∈ t.domainEvents, x.commitSequence = r.creationCommitSequence) ∧
    ∃ x ∈ t.commands, x.commandId = r.createdByCommandId

def insertProject (r : ProjectRow) : Tx Unit :=
  write r.Fits (fun t => { t with projects := t.projects ++ [r] }) fun _ h hr =>
    { h with
      projectKeys := h.projectKeys.append hr.1
      projectCreations := h.projectCreations.append hr.2.1
      projectEvents := h.projectEvents.append_source hr.2.2.1
      projectCommands := h.projectCommands.append_source hr.2.2.2
      workProjects := h.workProjects.append_target r }

/-- `UPDATE projects`: moves the current pointer of the rows that meet `p`. -/
def updateProjects (p : ProjectRow → Bool) (current : Id .projectSpecRevision)
    (revision : RevisionNo) (at_ : Timestamp) : Tx ℕ := do
  let d ← Txn.read
  write (fun _ => True)
    (fun t => { t with
      projects := updateWhere p (fun r =>
        { r with currentSpecRevisionId := current, revision := revision, updatedAt := at_ })
        t.projects })
    fun _ h _ =>
      { h with
        projectKeys := h.projectKeys.updateWhere fun _ => rfl
        projectCreations := h.projectCreations.updateWhere fun _ => rfl
        projectEvents := h.projectEvents.update_source fun _ => rfl
        projectCommands := h.projectCommands.update_source fun _ => rfl
        workProjects := h.workProjects.update_target fun _ => rfl }
  pure (d.projects.countP p)

@[inherit_doc CommandRow.Fits]
abbrev SpecRevisionRow.Fits (r : SpecRevisionRow) (t : Tables) : Prop :=
  (∀ x ∈ t.specRevisions, x.projectSpecRevisionId ≠ r.projectSpecRevisionId) ∧
    (∀ x ∈ t.specRevisions, (x.projectId, x.sequence) ≠ (r.projectId, r.sequence)) ∧
    (1 ≤ r.sequence ∧ r.sequence < 2 ^ 32) ∧
    (∀ p ∈ r.policies, 2 ≤ p.length ∧ p.length ≤ 65536) ∧
    ∃ x ∈ t.commands, x.commandId = r.createdByCommandId

def insertSpecRevision (r : SpecRevisionRow) : Tx Unit :=
  write r.Fits (fun t => { t with specRevisions := t.specRevisions ++ [r] }) fun _ h hr =>
    { h with
      specKeys := h.specKeys.append hr.1
      specSequences := h.specSequences.append hr.2.1
      specBounds := forall_mem_append_singleton h.specBounds hr.2.2.1
      specPolicies := forall_mem_append_singleton h.specPolicies hr.2.2.2.1
      specCommands := h.specCommands.append_source hr.2.2.2.2 }

@[inherit_doc CommandRow.Fits]
abbrev SubjectRow.Fits (r : SubjectRow) (t : Tables) : Prop :=
  (∀ x ∈ t.subjects, x.subjectId ≠ r.subjectId) ∧
    (∀ x ∈ t.subjects, x.creationCommitSequence ≠ r.creationCommitSequence) ∧
    (∃ x ∈ t.domainEvents, x.commitSequence = r.creationCommitSequence) ∧
    ∃ x ∈ t.commands, x.commandId = r.createdByCommandId

def insertSubject (r : SubjectRow) : Tx Unit :=
  write r.Fits (fun t => { t with subjects := t.subjects ++ [r] }) fun _ h hr =>
    { h with
      subjectKeys := h.subjectKeys.append hr.1
      subjectCreations := h.subjectCreations.append hr.2.1
      subjectEvents := h.subjectEvents.append_source hr.2.2.1
      subjectCommands := h.subjectCommands.append_source hr.2.2.2 }

/-! ## Work -/

@[inherit_doc CommandRow.Fits]
abbrev WorkItemRow.Fits (r : WorkItemRow) (t : Tables) : Prop :=
  (∀ x ∈ t.workItems, x.workItemId ≠ r.workItemId) ∧
    (∀ x ∈ t.workItems, (x.projectId, x.kind, x.code) ≠ (r.projectId, r.kind, r.code)) ∧
    (∀ x ∈ t.workItems, x.creationCommitSequence ≠ r.creationCommitSequence) ∧
    (∃ x ∈ t.projects, x.projectId = r.projectId) ∧
    (∃ x ∈ t.domainEvents, x.commitSequence = r.creationCommitSequence) ∧
    ∃ x ∈ t.commands, x.commandId = r.createdByCommandId

def insertWorkItem (r : WorkItemRow) : Tx Unit :=
  write r.Fits (fun t => { t with workItems := t.workItems ++ [r] }) fun _ h hr =>
    { h with
      workKeys := h.workKeys.append hr.1
      workCodes := h.workCodes.append hr.2.1
      workCreations := h.workCreations.append hr.2.2.1
      workProjects := h.workProjects.append_source hr.2.2.2.1
      workEvents := h.workEvents.append_source hr.2.2.2.2.1
      workCommands := h.workCommands.append_source hr.2.2.2.2.2 }

/-- `UPDATE work_items`: moves the current pointer of the rows that meet `p`. -/
def updateWorkItems (p : WorkItemRow → Bool) (current : Id .workRevision)
    (revision : RevisionNo) (at_ : Timestamp) : Tx ℕ := do
  let d ← Txn.read
  write (fun _ => True)
    (fun t => { t with
      workItems := updateWhere p (fun r =>
        { r with currentWorkRevisionId := current, revision := revision, updatedAt := at_ })
        t.workItems })
    fun _ h _ =>
      { h with
        workKeys := h.workKeys.updateWhere fun _ => rfl
        workCodes := h.workCodes.updateWhere fun _ => rfl
        workCreations := h.workCreations.updateWhere fun _ => rfl
        workProjects := h.workProjects.update_source fun _ => rfl
        workEvents := h.workEvents.update_source fun _ => rfl
        workCommands := h.workCommands.update_source fun _ => rfl }
  pure (d.workItems.countP p)

@[inherit_doc CommandRow.Fits]
abbrev WorkRevisionRow.Fits (r : WorkRevisionRow) (t : Tables) : Prop :=
  (∀ x ∈ t.workRevisions, x.workRevisionId ≠ r.workRevisionId) ∧
    (∀ x ∈ t.workRevisions, (x.workItemId, x.sequence) ≠ (r.workItemId, r.sequence)) ∧
    (1 ≤ r.sequence ∧ r.sequence < 2 ^ 32) ∧
    (2 ≤ r.specificationJson.length ∧ r.specificationJson.length ≤ 262144) ∧
    ∃ x ∈ t.commands, x.commandId = r.createdByCommandId

def insertWorkRevisionRow (r : WorkRevisionRow) : Tx Unit :=
  write r.Fits (fun t => { t with workRevisions := t.workRevisions ++ [r] }) fun _ h hr =>
    { h with
      workRevisionKeys := h.workRevisionKeys.append hr.1
      workRevisionSequences := h.workRevisionSequences.append hr.2.1
      workRevisionBounds := forall_mem_append_singleton h.workRevisionBounds hr.2.2.1
      workRevisionSizes := forall_mem_append_singleton h.workRevisionSizes hr.2.2.2.1
      workRevisionCommands := h.workRevisionCommands.append_source hr.2.2.2.2
      takeWorkRevisions := h.takeWorkRevisions.append_target r }

/-! ## Takes and relationships -/

/-- The condition of the index `takes_one_selected_idx`. -/
abbrev OneSelected (takes : List TakeRow) : Prop :=
  Distinct TakeRow.workRevisionId (takes.filter (·.state = .selected))

@[inherit_doc CommandRow.Fits]
abbrev TakeRow.Fits (r : TakeRow) (t : Tables) : Prop :=
  (∀ x ∈ t.takes, x.takeId ≠ r.takeId) ∧
    (∀ x ∈ t.takes, (x.workRevisionId, x.ordinal) ≠ (r.workRevisionId, r.ordinal)) ∧
    (1 ≤ r.ordinal ∧ r.ordinal < 2 ^ 32) ∧
    (∀ x ∈ t.takes, x.creationCommitSequence ≠ r.creationCommitSequence) ∧
    OneSelected (t.takes ++ [r]) ∧
    (∃ x ∈ t.workRevisions, x.workRevisionId = r.workRevisionId) ∧
    (∃ x ∈ t.assets, x.assetId = r.primaryAssetId) ∧
    (∃ x ∈ t.domainEvents, x.commitSequence = r.creationCommitSequence) ∧
    ∃ x ∈ t.commands, x.commandId = r.createdByCommandId

def insertTakeRow (r : TakeRow) : Tx Unit :=
  write r.Fits (fun t => { t with takes := t.takes ++ [r] }) fun _ h hr =>
    { h with
      takeKeys := h.takeKeys.append hr.1
      takeOrdinals := h.takeOrdinals.append hr.2.1
      takeBounds := forall_mem_append_singleton h.takeBounds hr.2.2.1
      takeCreations := h.takeCreations.append hr.2.2.2.1
      takeOneSelected := hr.2.2.2.2.1
      takeWorkRevisions := h.takeWorkRevisions.append_source hr.2.2.2.2.2.1
      takeAssets := h.takeAssets.append_source hr.2.2.2.2.2.2.1
      takeEvents := h.takeEvents.append_source hr.2.2.2.2.2.2.2.1
      takeCommands := h.takeCommands.append_source hr.2.2.2.2.2.2.2.2 }

/-- The columns an `UPDATE takes` sets. -/
def TakeRow.move (state : TakeState) (revision : RevisionNo) (at_ : Timestamp) (r : TakeRow) :
    TakeRow :=
  { r with state := state, revision := revision, updatedAt := at_ }

/-- `UPDATE takes SET state, revision, updated_at WHERE p`. -/
def updateTakes (p : TakeRow → Bool) (state : TakeState) (revision : RevisionNo)
    (at_ : Timestamp) : Tx ℕ := do
  let d ← Txn.read
  write (fun t => OneSelected (updateWhere p (TakeRow.move state revision at_) t.takes))
    (fun t => { t with takes := updateWhere p (TakeRow.move state revision at_) t.takes })
    fun _ h hr =>
      { h with
        takeKeys := h.takeKeys.updateWhere fun _ => rfl
        takeOrdinals := h.takeOrdinals.updateWhere fun _ => rfl
        takeBounds := forall_mem_updateWhere h.takeBounds fun r hm _ => h.takeBounds r hm
        takeCreations := h.takeCreations.updateWhere fun _ => rfl
        takeOneSelected := hr
        takeWorkRevisions := h.takeWorkRevisions.update_source fun _ => rfl
        takeAssets := h.takeAssets.update_source fun _ => rfl
        takeEvents := h.takeEvents.update_source fun _ => rfl
        takeCommands := h.takeCommands.update_source fun _ => rfl }
  pure (d.takes.countP p)

@[inherit_doc CommandRow.Fits]
abbrev RelationshipRow.Fits (r : RelationshipRow) (t : Tables) : Prop :=
  (∀ x ∈ t.relationships, x.relationshipId ≠ r.relationshipId) ∧
    (∀ x ∈ t.relationships, x.edge ≠ r.edge) ∧
    (r.sourceId ≠ r.targetId ∨ r.sourceKind ≠ r.targetKind) ∧
    Distinct RelationshipRow.sourceId
      ((t.relationships ++ [r]).filter (·.isTakeEdge .takeReopens)) ∧
    Distinct RelationshipRow.sourceId
      ((t.relationships ++ [r]).filter (·.isTakeEdge .takeSupersedes)) ∧
    ∃ x ∈ t.commands, x.commandId = r.createdByCommandId

def insertRelationshipRow (r : RelationshipRow) : Tx Unit :=
  write r.Fits (fun t => { t with relationships := t.relationships ++ [r] }) fun _ h hr =>
    { h with
      relationshipKeys := h.relationshipKeys.append hr.1
      relationshipEdges := h.relationshipEdges.append hr.2.1
      relationshipEnds := forall_mem_append_singleton h.relationshipEnds hr.2.2.1
      relationshipReopens := hr.2.2.2.1
      relationshipSupersedes := hr.2.2.2.2.1
      relationshipCommands := h.relationshipCommands.append_source hr.2.2.2.2.2 }

end MengXia.Store
