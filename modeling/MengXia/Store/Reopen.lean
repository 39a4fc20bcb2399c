
import MengXia.Store.Documents
import MengXia.Store.Edges
/-!
# Reopening a library

`verify_current_data_integrity` of `migration.rs`, with
`verify_persisted_creative_state` of `creative_query.rs`: what a store
checks of the data it finds before it opens a library. A library that only
the store itself wrote passes, as long as no revision found the event
numbers spent.
-/

namespace MengXia.Store

open Common

/-! ## Columns -/

/-- `id` and `Id::from_bytes` on a stored identifier. -/
def readsId {entity : Entity} (id : Id entity) : Bool :=
  isUuidV7 id.uuid.bits

/-- `timestamp` on a stored time. -/
def readsTimestamp (time : Timestamp) : Bool :=
  isTimestamp time.seconds time.nanos

/-- `Resolution::new` on the stored columns. -/
def readsResolution (resolution : Option Resolution) : Bool :=
  resolution.all fun r =>
    r.width < 2 ^ 16 && r.height < 2 ^ 16 && r.width ≠ 0 && r.height ≠ 0

/-- `PositiveRatio::new` on the stored columns. -/
def readsRatio (ratio : Option PositiveRatio) : Bool :=
  ratio.all fun r => r.numerator < 2 ^ 32 && r.denominator < 2 ^ 32 && r.numerator ≠ 0 &&
    r.denominator ≠ 0 && Nat.gcd r.numerator r.denominator = 1

/-- A `u32` column that counts from 1. -/
def readsOrdinal (n : ℕ) : Bool :=
  n < 2 ^ 32 && n ≠ 0

@[simp] theorem readsId_eq {entity : Entity} (id : Id entity) : readsId id = true :=
  id.uuid.isV7

@[simp] theorem readsTimestamp_eq (time : Timestamp) : readsTimestamp time = true :=
  time.valid

@[simp] theorem readsResolution_eq (resolution : Option Resolution) :
    readsResolution resolution = true := by
  cases resolution with
  | none => rfl
  | some r =>
    obtain ⟨hwidth, hheight⟩ := r.positive
    obtain ⟨hwidth', hheight'⟩ := r.bounded
    simpa [readsResolution, hwidth.ne', hheight.ne'] using And.intro hwidth' hheight'

@[simp] theorem readsRatio_eq (ratio : Option PositiveRatio) : readsRatio ratio = true := by
  cases ratio with
  | none => rfl
  | some r =>
    obtain ⟨hnumerator, hdenominator⟩ := r.positive
    obtain ⟨hnumerator', hdenominator'⟩ := r.bounded
    simpa [readsRatio, hnumerator.ne', hdenominator.ne', r.coprime] using
      And.intro hnumerator' hdenominator'

theorem readsOrdinal_of_bounds {n : ℕ} (h : 1 ≤ n ∧ n < 2 ^ 32) : readsOrdinal n = true := by
  simp only [readsOrdinal, Bool.and_eq_true, decide_eq_true_eq]
  exact ⟨h.2, Nat.ne_of_gt h.1⟩

/-- A check of the verifier. -/
def require (holds : Bool) : AssetResult Unit :=
  if holds then .ok () else .error .storageCorruption

theorem require_eq_ok {holds : Bool} (h : holds = true) : require holds = .ok () := by
  rw [h]
  rfl

/-! ## Rows -/

section Rows

variable {N : Type} [DecidableEq N] (numbers : JsonNumbers N)

/-- The checks on a row of `project_spec_revisions`. -/
def verifySpecRevision (r : SpecRevisionRow) : AssetResult Unit := do
  require (readsId r.projectSpecRevisionId && readsId r.projectId && readsOrdinal r.sequence)
  require (readsResolution r.resolution && readsRatio r.frameRate && readsRatio r.aspectRatio)
  -- `validate_project_policies`
  let _ ← CreativeQuery.projectSpecification numbers r
  require (readsId r.createdByCommandId && readsTimestamp r.createdAt)

/-- The checks on a row of `projects` joined with its current specification. -/
def verifyProject (r : ProjectRow × SpecRevisionRow) : AssetResult Unit :=
  require (readsId r.1.projectId && validateText 255 r.1.name.text &&
    readsId r.1.currentSpecRevisionId && r.2.sequence < 2 ^ 32 && r.1.revision ≠ 0 &&
    r.1.revision = r.2.sequence && 0 < r.1.creationCommitSequence &&
    readsTimestamp r.1.createdAt && readsTimestamp r.1.updatedAt &&
    readsId r.1.createdByCommandId)

/-- The checks on a row of `work_revisions`. -/
def verifyWorkRevision (r : WorkRevisionRow) : AssetResult Unit := do
  require (readsId r.workRevisionId && readsId r.workItemId && readsOrdinal r.sequence)
  match numbers.parseWorkSpecification r.specificationJson with
  | .error _ => .error .storageCorruption
  | .ok parsed =>
    require (parsed.bytes = r.specificationJson && parsed.digest = r.specificationDigest)
    require (readsId r.createdByCommandId && readsTimestamp r.createdAt)

/-- The checks on a row of `work_items` joined with its current revision. -/
def verifyWorkItem (r : WorkItemRow × WorkRevisionRow) : AssetResult Unit :=
  require (readsId r.1.workItemId && readsId r.1.projectId && validateText 64 r.1.code.text &&
    readsId r.1.currentWorkRevisionId && r.2.sequence < 2 ^ 32 && r.1.revision ≠ 0 &&
    r.1.revision = r.2.sequence && 0 < r.1.creationCommitSequence &&
    readsTimestamp r.1.createdAt && readsTimestamp r.1.updatedAt &&
    readsId r.1.createdByCommandId)

/-- The checks on a row of `subjects`. -/
def verifySubject (r : SubjectRow) : AssetResult Unit :=
  require (readsId r.subjectId && isToken r.kind.text && validateText 255 r.canonicalName.text &&
    r.revision ≠ 0 && 0 < r.creationCommitSequence && readsId r.createdByCommandId &&
    readsTimestamp r.createdAt)

/-- The checks on a row of `takes`. -/
def verifyTake (r : TakeRow) : AssetResult Unit :=
  require (readsId r.takeId && readsId r.workRevisionId && readsOrdinal r.ordinal &&
    readsId r.primaryAssetId && r.revision ≠ 0 && 0 < r.creationCommitSequence &&
    readsId r.createdByCommandId && readsTimestamp r.createdAt && readsTimestamp r.updatedAt)

/-- The rows of `work_items` with their current revisions. -/
def currentWorkRows (t : Tables) : List (WorkItemRow × WorkRevisionRow) :=
  workVersions.currentRows (fun _ => true) t.workItems t.workRevisions

/-- `GROUP BY owner HAVING min <> 1 OR count <> max`. -/
def groupBroken {α κ : Type} [DecidableEq κ] (owner : α → κ) (sequence : α → ℕ) (rows : List α) :
    Bool :=
  rows.any fun r =>
    let group := (rows.filter fun x => owner x = owner r).map sequence
    group.min? ≠ some 1 || group.max? ≠ some group.length

/-- The `bad_sequence` query. -/
def badSequence (t : Tables) : Bool :=
  groupBroken SpecRevisionRow.projectId SpecRevisionRow.sequence t.specRevisions ||
    groupBroken WorkRevisionRow.workItemId WorkRevisionRow.sequence t.workRevisions ||
    groupBroken TakeRow.workRevisionId TakeRow.ordinal t.takes

/-- The first half of the `bad_relationship` query: the ends of an edge. -/
def edgeStands (t : Tables) (r : RelationshipRow) : Bool :=
  match r.relationshipKind with
  | .workSubject =>
    r.sourceKind = .workRevision && r.targetKind = .subject &&
      t.workRevisions.any (fun x => x.workRevisionId.uuid = r.sourceId) &&
      t.subjects.any fun s => s.subjectId.uuid = r.targetId
  | .workAsset =>
    r.sourceKind = .workRevision && r.targetKind = .asset &&
      t.workRevisions.any (fun x => x.workRevisionId.uuid = r.sourceId) &&
      t.assets.any fun a => a.assetId.uuid = r.targetId
  | .takeReopens | .takeSupersedes =>
    r.sourceKind = .take && r.targetKind = .take &&
      t.takes.any fun source => source.takeId.uuid = r.sourceId &&
        t.takes.any fun target => target.takeId.uuid = r.targetId &&
          target.workRevisionId = source.workRevisionId && target.state.isTerminal

/-- The second half: too many edges of one kind that leave one row. -/
def edgesCrowded (t : Tables) (r : RelationshipRow) : Bool :=
  let count := t.relationships.countP fun x => x.sourceKind = r.sourceKind &&
    x.sourceId = r.sourceId && x.relationshipKind = r.relationshipKind
  match r.relationshipKind with
  | .workSubject | .workAsset => 64 < count
  | .takeReopens | .takeSupersedes => 1 < count

/-- The `bad_relationship` query. -/
def badRelationship (t : Tables) : Bool :=
  t.relationships.any fun r => !edgeStands t r || edgesCrowded t r

/-- `verify_persisted_creative_state`. -/
def verifyPersistedCreativeState (t : Tables) : AssetResult Unit := do
  t.specRevisions.forM (verifySpecRevision numbers)
  (CreativeQuery.projectRows t).forM verifyProject
  t.workRevisions.forM (verifyWorkRevision numbers)
  (currentWorkRows t).forM verifyWorkItem
  t.subjects.forM verifySubject
  t.takes.forM verifyTake
  require (!(badSequence t || badRelationship t))

end Rows

/-! ## The whole library -/

/-- `PRAGMA foreign_key_check` finds nothing. -/
def foreignKeysHold (t : Tables) : Bool :=
  decide (ImmediateKeys t ∧ DeferredKeys t)

/-- `is_current_operation`. -/
def isCurrentOperation : Operation → Bool
  | .assetIngest | .assetRevisionCreate | .blobLocationRecord | .assetMaterialize | .assetRetire
  | .assetRestore | .projectCreate | .projectSpecRevise | .subjectCreate | .workCreate
  | .workRevise | .takeCreate | .takeTransition | .takeReopen => true

/-- The checks on a row of `commands`. -/
def verifyCommand (t : Tables) (r : CommandRow) : AssetResult Unit := do
  let row ← validateCommandRow r
  require (isCurrentOperation row.operationId)
  if row.state = .completed ∧ row.operationId ≠ .assetMaterialize then
    let _ ← replayResult t row
    pure ()
  else pure ()

/-- Whether an id is that of a command that is not completed. -/
def isOpenCommand (t : Tables) (id : Id .command) : Bool :=
  t.commands.any fun c => c.commandId = id && c.state ≠ .completed

/-- `map_err(|_| StoreError::Corruption)`. -/
def orCorruption (x : AssetResult Unit) : Except StoreError Unit :=
  x.mapError fun _ => .corruption

/-- `verify_current_data_integrity`. -/
def verifyCurrentDataIntegrity {N : Type} [DecidableEq N] (numbers : JsonNumbers N) (t : Tables) :
    Except StoreError Unit := do
  orCorruption (require (foreignKeysHold t))
  orCorruption (require
    (t.lastSequence = (t.domainEvents.map EventRow.commitSequence).foldl max 0))
  orCorruption (verifyPersistedCreativeState numbers t)
  orCorruption (t.commands.forM (verifyCommand t))
  orCorruption (require (!((t.domainEvents.map EventRow.commandId).any (isOpenCommand t) ||
    (creatorIds t).any (isOpenCommand t))))

/-! ## Groups and edges -/

theorem min?_range_succ (n : ℕ) : ((List.range (n + 1)).map (· + 1)).min? = some 1 := by
  rw [List.min?_eq_some_iff]
  refine ⟨List.mem_map.2 ⟨0, List.mem_range.2 (Nat.succ_pos n), rfl⟩, fun b hb => ?_⟩
  obtain ⟨k, -, rfl⟩ := List.mem_map.1 hb
  omega

theorem max?_range_succ (n : ℕ) : ((List.range (n + 1)).map (· + 1)).max? = some (n + 1) := by
  rw [List.max?_eq_some_iff]
  refine ⟨List.mem_map.2 ⟨n, List.mem_range.2 (Nat.lt_succ_self n), rfl⟩, fun b hb => ?_⟩
  obtain ⟨k, hk, rfl⟩ := List.mem_map.1 hb
  have := List.mem_range.1 hk
  omega

/-- Groups that count from 1 are not broken. -/
theorem groupBroken_eq_false {α κ : Type} [DecidableEq κ] {owner : α → κ} {sequence : α → ℕ}
    {rows : List α} (h : ∀ r ∈ rows, ∃ n, (rows.filter fun x => owner x = owner r).map sequence =
      (List.range n).map (· + 1)) : groupBroken owner sequence rows = false := by
  refine List.any_eq_false.2 fun r hr => ?_
  obtain ⟨n, hn⟩ := h r hr
  -- The group holds the row itself, so it is not empty.
  have hmem : sequence r ∈ (rows.filter fun x => owner x = owner r).map sequence :=
    List.mem_map_of_mem (List.mem_filter.2 ⟨hr, by simp⟩)
  rw [hn] at hmem ⊢
  cases n with
  | zero => cases hmem
  | succ n => simp [min?_range_succ, max?_range_succ]

theorem badSequence_eq_false {t : Tables} (hrevisions : RevisionsNumbered t)
    (hkeys : DeferredKeys t) (htakes : TakeOrdinals t.takes) : badSequence t = false := by
  have hspecs : groupBroken SpecRevisionRow.projectId SpecRevisionRow.sequence t.specRevisions =
      false := by
    refine groupBroken_eq_false fun r hr => ?_
    obtain ⟨p, hp, hid⟩ := hkeys.specProjects r hr
    refine ⟨p.revision, ?_⟩
    rw [← hid]
    exact hrevisions.projects.sequences p hp
  have hwork : groupBroken WorkRevisionRow.workItemId WorkRevisionRow.sequence t.workRevisions =
      false := by
    refine groupBroken_eq_false fun r hr => ?_
    obtain ⟨w, hw, hid⟩ := hkeys.workRevisionItems r hr
    refine ⟨w.revision, ?_⟩
    rw [← hid]
    exact hrevisions.works.sequences w hw
  unfold badSequence
  rw [hspecs, hwork, groupBroken_eq_false fun r _ => htakes r.workRevisionId]
  rfl

theorem edgeStands_of {t : Tables} {r : RelationshipRow} (h : r.Stands t) :
    edgeStands t r = true := by
  cases h with
  | subject kind sourceKind targetKind source target
  | asset kind sourceKind targetKind source target =>
    simp only [edgeStands, kind, Bool.and_eq_true, decide_eq_true_eq, List.any_eq_true]
    exact ⟨⟨⟨sourceKind, targetKind⟩, source⟩, target⟩
  | take kind sourceKind targetKind source sourceId target targetId place terminal =>
    rcases kind with kind | kind
    all_goals
      simp only [edgeStands, kind, Bool.and_eq_true, decide_eq_true_eq, List.any_eq_true]
      exact ⟨⟨sourceKind, targetKind⟩, _, source, sourceId, _, target, ⟨targetId, place⟩,
        terminal⟩

/-- At most one edge of a take, of the kind that an index keeps unique. -/
theorem countP_takeEdge_le_one {rows : List RelationshipRow} {kind : RelationshipKind}
    (h : Distinct RelationshipRow.sourceId (rows.filter (·.isTakeEdge kind))) (source : Uuid) :
    rows.countP (fun x => x.sourceKind = .take && x.sourceId = source &&
      x.relationshipKind = kind) ≤ 1 := by
  have hone := h.countP_le_one source
  rw [List.countP_filter] at hone
  refine (List.countP_mono_left fun r _ hr => ?_).trans hone
  simp only [Bool.and_eq_true, decide_eq_true_eq] at hr
  simp [RelationshipRow.isTakeEdge, hr.1.1, hr.1.2, hr.2]

theorem edgesCrowded_eq_false {d : Database} (hedges : EdgesStand d)
    {r : RelationshipRow} (hr : r ∈ d.relationships) : edgesCrowded d r = false := by
  unfold edgesCrowded
  cases hedges.stands r hr with
  | subject kind sourceKind =>
    simp only [kind, sourceKind, decide_eq_false_iff_not, not_lt]
    exact hedges.bounded r.sourceId .workSubject
  | asset kind sourceKind =>
    simp only [kind, sourceKind, decide_eq_false_iff_not, not_lt]
    exact hedges.bounded r.sourceId .workAsset
  | take kind sourceKind =>
    rcases kind with kind | kind
    · simp only [kind, sourceKind, decide_eq_false_iff_not, not_lt]
      exact countP_takeEdge_le_one d.consistent.relationshipReopens r.sourceId
    · simp only [kind, sourceKind, decide_eq_false_iff_not, not_lt]
      exact countP_takeEdge_le_one d.consistent.relationshipSupersedes r.sourceId

theorem badRelationship_eq_false {d : Database} (hedges : EdgesStand d) :
    badRelationship d.toTables = false := by
  refine List.any_eq_false.2 fun r hr => ?_
  simp [edgeStands_of (hedges.stands r hr), edgesCrowded_eq_false hedges hr]

/-! ## The checks pass -/

section Passes

variable {N : Type} [DecidableEq N] {numbers : JsonNumbers N} {d : Database}

theorem verifySpecRevision_ok {r : SpecRevisionRow} (hbounds : 1 ≤ r.sequence ∧ r.sequence < 2 ^ 32)
    {specification : ProjectSpecification}
    (hdocuments : CreativeQuery.projectSpecification numbers r = .ok specification) :
    verifySpecRevision numbers r = .ok () := by
  simp [verifySpecRevision, require, readsOrdinal_of_bounds hbounds, hdocuments, bind, Except.bind]

theorem verifyWorkRevision_ok {r : WorkRevisionRow}
    (hbounds : 1 ≤ r.sequence ∧ r.sequence < 2 ^ 32) {json : CanonicalJson}
    (hdocument : CreativeQuery.storedSpecification numbers r = .ok json) :
    verifyWorkRevision numbers r = .ok () := by
  unfold CreativeQuery.storedSpecification at hdocument
  obtain ⟨-, hdocument⟩ := refusal_eq_ok.1 hdocument
  split at hdocument
  · cases hdocument
  · rename_i parsed hparsed
    obtain ⟨hstored, hdocument⟩ := refusal_eq_ok.1 hdocument
    rw [not_or, not_not, not_not] at hstored
    simp [verifyWorkRevision, require, readsOrdinal_of_bounds hbounds, hparsed, hstored.1,
      hstored.2, bind, Except.bind]

/-- A creation number is that of an event, so it is positive. -/
theorem creation_pos {α : Type} {creation : α → ℕ} {rows : List α}
    (h : Refers creation rows EventRow.commitSequence d.domainEvents) {r : α} (hr : r ∈ rows) :
    0 < creation r := by
  obtain ⟨e, he, hsequence⟩ := h r hr
  rw [← hsequence]
  exact (d.consistent.eventBounds e he).1

theorem verifyProject_ok (h : RevisionsNumbered d) {r : ProjectRow × SpecRevisionRow}
    (hr : r ∈ CreativeQuery.projectRows d) : verifyProject r = .ok () := by
  have hrevision : r.1.revision = r.2.sequence :=
    h.projects.revision_eq d.consistent.specKeys hr
  obtain ⟨⟨hp, -⟩, hs, -⟩ := Versioning.mem_currentRows.1 hr
  have hbounds := d.consistent.specBounds r.2 hs
  refine require_eq_ok ?_
  simp only [readsId_eq, readsTimestamp_eq, r.1.name.valid, hrevision,
    creation_pos d.consistent.projectEvents hp, hbounds.2, Nat.ne_of_gt hbounds.1, Bool.and_self,
    decide_true, ne_eq, not_false_eq_true]

theorem verifyWorkItem_ok (h : RevisionsNumbered d) {r : WorkItemRow × WorkRevisionRow}
    (hr : r ∈ currentWorkRows d) : verifyWorkItem r = .ok () := by
  have hrevision : r.1.revision = r.2.sequence :=
    h.works.revision_eq d.consistent.workRevisionKeys hr
  obtain ⟨⟨hw, -⟩, hx, -⟩ := Versioning.mem_currentRows.1 hr
  have hbounds := d.consistent.workRevisionBounds r.2 hx
  refine require_eq_ok ?_
  simp only [readsId_eq, readsTimestamp_eq, r.1.code.valid, hrevision,
    creation_pos d.consistent.workEvents hw, hbounds.2, Nat.ne_of_gt hbounds.1, Bool.and_self,
    decide_true, ne_eq, not_false_eq_true]

theorem verifySubject_ok {r : SubjectRow} (hr : r ∈ d.subjects) (hrevision : r.revision = 1) :
    verifySubject r = .ok () := by
  refine require_eq_ok ?_
  simp only [readsId_eq, readsTimestamp_eq, r.kind.valid, r.canonicalName.valid, hrevision,
    creation_pos d.consistent.subjectEvents hr, Bool.and_self, decide_true, ne_eq,
    not_false_eq_true, one_ne_zero]

theorem verifyTake_ok {r : TakeRow} (hr : r ∈ d.takes) (hrevision : r.revision ≠ 0) :
    verifyTake r = .ok () := by
  refine require_eq_ok ?_
  simp only [readsId_eq, readsTimestamp_eq,
    readsOrdinal_of_bounds (d.consistent.takeBounds r hr), hrevision,
    creation_pos d.consistent.takeEvents hr, Bool.and_self, decide_true, ne_eq,
    not_false_eq_true]

/-- **The persisted creative state passes.** -/
theorem Supplied.persistedCreativeState (h : Supplied (Call.Parsed numbers) d) :
    verifyPersistedCreativeState numbers d.toTables = .ok () := by
  have hreachable := h.reachable
  have hspecs : d.specRevisions.forM (verifySpecRevision numbers) = .ok () := by
    refine exceptForM_eq_ok fun r hr => ?_
    obtain ⟨specification, hspecification⟩ := hreachable.documents.specs r hr
    exact verifySpecRevision_ok (d.consistent.specBounds r hr) hspecification
  have hprojects : (CreativeQuery.projectRows d).forM verifyProject = .ok () :=
    exceptForM_eq_ok fun r hr => verifyProject_ok h.revisionsNumbered hr
  have hrevisions : d.workRevisions.forM (verifyWorkRevision numbers) = .ok () := by
    refine exceptForM_eq_ok fun r hr => ?_
    obtain ⟨json, hjson⟩ := hreachable.documents.work r hr
    exact verifyWorkRevision_ok (d.consistent.workRevisionBounds r hr) hjson
  have hwork : (currentWorkRows d).forM verifyWorkItem = .ok () :=
    exceptForM_eq_ok fun r hr => verifyWorkItem_ok h.revisionsNumbered hr
  have hsubjects : d.subjects.forM verifySubject = .ok () :=
    exceptForM_eq_ok fun r hr => verifySubject_ok hr (hreachable.subjectsFirst r hr)
  have htakes : d.takes.forM verifyTake = .ok () := by
    refine exceptForM_eq_ok fun r hr => verifyTake_ok hr ?_
    rw [hreachable.takesInOrder.counters.counters r hr, Nat.add_comm]
    exact Nat.succ_ne_zero _
  have hsequences := badSequence_eq_false h.revisionsNumbered hreachable.deferredKeys
    hreachable.takesInOrder.ordinals
  have hedges := badRelationship_eq_false hreachable.edgesStand
  unfold verifyPersistedCreativeState
  rw [hspecs, hprojects, hrevisions, hwork, hsubjects, htakes, hsequences, hedges]
  rfl

theorem foreignKeysHold_eq (hkeys : DeferredKeys d) : foreignKeysHold d.toTables = true :=
  decide_eq_true ⟨d.consistent.toImmediateKeys, hkeys⟩

theorem verifyCommand_ok (hvalid : LedgerValid d) (hresults : ResultsReplay d)
    {r : CommandRow} (hr : r ∈ d.commands) : verifyCommand d r = .ok () := by
  have hcurrent : isCurrentOperation r.operationId = true := by
    cases r.operationId <;> rfl
  unfold verifyCommand
  rw [(hvalid r hr).validate]
  by_cases hdone : r.state = .completed ∧ r.operationId ≠ .assetMaterialize
  · obtain ⟨result, hresult⟩ := hresults r hr hdone.1 hdone.2
    simp only [bind, Except.bind, hcurrent, require_eq_ok, if_pos hdone, hresult]
    rfl
  · simp only [bind, Except.bind, hcurrent, require_eq_ok, if_neg hdone]
    rfl

/-- A completed command is not open. -/
theorem isOpenCommand_eq_false {id : Id .command} (h : CompletedIn d id) :
    isOpenCommand d id = false := by
  obtain ⟨c, hc, rfl, hstate⟩ := h
  refine List.any_eq_false.2 fun x hx => ?_
  simp only [Bool.and_eq_true, decide_eq_true_eq, not_and, not_not]
  intro hid
  rw [d.consistent.commandKeys.eq_of_mem hx hc hid]
  exact hstate

/-- The allocator stands at the largest event number. -/
theorem lastSequence_eq_max (h : EventsNumbered d) :
    d.lastSequence = (d.domainEvents.map EventRow.commitSequence).foldl max 0 := by
  rw [h, foldl_max_range]

end Passes

/-- **A library that only the store wrote can be reopened.** Along every run
of the command services in which no revision finds the event numbers spent,
the checks a store makes before it opens a library pass. -/
theorem supplied_library_reopens {N : Type} [DecidableEq N] {numbers : JsonNumbers N}
    {d : Database} (h : Supplied (Call.Parsed numbers) d) :
    verifyCurrentDataIntegrity numbers d.toTables = .ok () ∧
      verifyPersistedCreativeState numbers d.toTables = .ok () := by
  have hreachable := h.reachable
  have hstate := h.persistedCreativeState
  refine ⟨?_, hstate⟩
  have hcommands : d.commands.forM (verifyCommand d.toTables) = .ok () :=
    exceptForM_eq_ok fun r hr => verifyCommand_ok hreachable.ledgerValid hreachable.resultsReplay hr
  have hevents : (d.domainEvents.map EventRow.commandId).any (isOpenCommand d) = false := by
    refine List.any_eq_false.2 fun id hid => ?_
    obtain ⟨e, he, rfl⟩ := List.mem_map.1 hid
    rw [isOpenCommand_eq_false (hreachable.origins.settled e he)]
    exact Bool.false_ne_true
  have hcreators : (creatorIds d.toTables).any (isOpenCommand d.toTables) = false := by
    refine List.any_eq_false.2 fun id hid => ?_
    rw [isOpenCommand_eq_false (h.creatorsCompleted id hid)]
    exact Bool.false_ne_true
  have hallocator := lastSequence_eq_max hreachable.eventsNumbered
  unfold verifyCurrentDataIntegrity
  rw [foreignKeysHold_eq hreachable.deferredKeys, decide_eq_true hallocator, hstate, hcommands,
    hevents, hcreators]
  rfl

/-- Calls that add no revision stay supplied. -/
theorem supplied_afterCalls {allowed : Call → Prop} {d : Database} (hd : Supplied allowed d)
    {calls : List Call} (h : ∀ call ∈ calls, allowed call ∧ ¬ call.Revises) :
    Supplied allowed (afterCalls d calls) :=
  afterCalls_keeps hd fun call hcall _ hd =>
    .step firstProcess call hd (h call hcall).1 fun hrevises => absurd hrevises (h call hcall).2

/-- A library with a project, a work item and three takes, one of them
superseded, can be reopened. -/
theorem oneSuperseded_reopens : Supplied (Call.Parsed .verbatim) oneSuperseded ∧
    oneSuperseded.takes.length = 3 ∧ oneSuperseded.relationships.length = 1 ∧
    verifyCurrentDataIntegrity .verbatim oneSuperseded.toTables = .ok () := by
  have hproject : (ProjectSpecification.plain).Parsed .verbatim :=
    ⟨[0x7b, 0x7d], [0x7b, 0x7d], [0x7b, 0x7d], [0x7b, 0x7d], by decide +kernel⟩
  have hwork : (WorkSpecification.plain).Parsed .verbatim := ⟨[0x7b, 0x7d], by decide +kernel⟩
  have hasset : Supplied (Call.Parsed .verbatim) oneAsset :=
    supplied_afterCalls .empty (by simp [Call.Parsed, Call.Revises])
  have htakes : Supplied (Call.Parsed .verbatim) threeTakes :=
    supplied_afterCalls hasset (by
      simpa [Call.Parsed, Call.Revises] using ⟨hproject, hwork⟩)
  have hsupplied : Supplied (Call.Parsed .verbatim) oneSuperseded :=
    supplied_afterCalls htakes (by simp [Call.Parsed, Call.Revises])
  exact ⟨hsupplied, by decide +kernel, by decide +kernel, (supplied_library_reopens hsupplied).1⟩

end MengXia.Store
