
import MengXia.Common.Paging
import MengXia.CreativeJson
import MengXia.CreativeViews
import MengXia.Store.Takes
/-!
# Creative queries

`creative_query.rs`: the listings of projects, subjects, work and takes. All
four read the rows between the last key shown and an endpoint fixed by the
first page, and check what they show: a stored document has to be the
canonical form of itself, with the digest that is stored beside it.
-/

namespace MengXia

variable {json : CanonicalJson}

/-- `validate_relationship_set`. -/
def validateRelationshipSet {entity : Entity} (values : List (Id entity)) (maximum : ℕ) :
    Except CreativeError (List (Id entity)) :=
  if values.Nodup ∧ values.length ≤ maximum then .ok (Common.sortedBy Id.key values)
  else .error .invalidValue

theorem validateRelationshipSet_eq_ok {entity : Entity} {values set : List (Id entity)}
    {maximum : ℕ} (h : validateRelationshipSet values maximum = .ok set) :
    (set.map Id.key).Pairwise (· < ·) ∧ set.length ≤ maximum := by
  unfold validateRelationshipSet at h
  split at h
  · rename_i hvalues
    cases h
    have hkeys : Common.Distinct Id.key values := hvalues.1.map Id.key_injective
    refine ⟨List.pairwise_map.2 (Common.sortedBy_pairwise hkeys), ?_⟩
    unfold Common.sortedBy
    rw [List.length_insertionSort]
    exact hvalues.2
  · cases h

/-- `WorkSpecification::new`. -/
def WorkSpecification.new (json : CanonicalJson) (subjectIds : List (Id .subject))
    (assetIds : List (Id .asset)) : Except CreativeError WorkSpecification :=
  match hsubjects : validateRelationshipSet subjectIds 64,
    hassets : validateRelationshipSet assetIds 64 with
  | .ok subjects, .ok assets =>
    .ok
      { json := json
        subjectIds := subjects
        assetIds := assets
        subjectsSorted := (validateRelationshipSet_eq_ok hsubjects).1
        assetsSorted := (validateRelationshipSet_eq_ok hassets).1
        subjectsBounded := (validateRelationshipSet_eq_ok hsubjects).2
        assetsBounded := (validateRelationshipSet_eq_ok hassets).2 }
  | _, _ => .error .invalidValue

theorem WorkSpecification.new_eq_ok {subjectIds : List (Id .subject)} {assetIds : List (Id .asset)}
    {specification : WorkSpecification}
    (h : WorkSpecification.new json subjectIds assetIds = .ok specification) :
    specification.json = json ∧ specification.subjectIds.length = subjectIds.length ∧
      specification.assetIds.length = assetIds.length := by
  have hlength {entity : Entity} {values set : List (Id entity)}
      (h : validateRelationshipSet values 64 = .ok set) : set.length = values.length := by
    unfold validateRelationshipSet at h
    split at h
    · cases h
      rw [Common.sortedBy, List.length_insertionSort]
    · cases h
  unfold WorkSpecification.new at h
  split at h
  · rename_i hsubjects hassets
    cases h
    exact ⟨rfl, hlength hsubjects, hlength hassets⟩
  · cases h

namespace Store

namespace CreativeQuery

open Common

/-! ## Pages -/

/-- `list_bounds`: the endpoint of the listing and the last key shown. -/
def listBounds (libraryId : BitVec 128) (position : CreativeListPosition) (largest : ℕ) :
    AssetResult (ℕ × ℕ) :=
  match position with
  | .first => .ok (largest, 0)
  | .after cursorLibrary snapshotEndpoint lastKey _ =>
    if cursorLibrary ≠ libraryId ∨ snapshotEndpoint ≤ lastKey then .error .validation
    else .ok (snapshotEndpoint, lastKey)

/-- `require_snapshot_endpoint`. -/
def requireSnapshotEndpoint (position : CreativeListPosition) (exists_ : Bool) :
    AssetResult Unit :=
  match position with
  | .first => .ok ()
  | .after .. => if exists_ then .ok () else .error .storageCorruption

/-- The rows that one page reads: those between the last key and the
endpoint, and one more than the page holds. -/
def collect {α : Type} (key : α → ℕ) (rows : List α) (after endpoint pageSize : ℕ) : List α :=
  ((rowsAfter key (some after) rows).filter fun r => key r ≤ endpoint).take (pageSize + 1)

/-- The position from which the next page goes on. -/
def nextPosition (libraryId : BitVec 128) (endpoint : ℕ) (last : Option ℕ) :
    AssetResult CreativeListPosition :=
  match last with
  | none => .error .internal
  | some key => CreativeListPosition.newAfter libraryId endpoint key

/-- What the four listings share. `keys` are those the endpoint is taken
from, and `rows` the joined rows to show. -/
def listPage {α β : Type} (libraryId : BitVec 128) (request : CreativeListQuery) (keys : List ℕ)
    (key : α → ℕ) (rows : List α) (view : α → AssetResult β) :
    AssetResult (CreativePage β) := do
  let (endpoint, after) ← listBounds libraryId request.position (keys.foldl max 0)
  requireSnapshotEndpoint request.position (keys.contains endpoint)
  let collected := collect key rows after endpoint request.pageSize
  if request.pageSize < collected.length then
    let items ← collected.dropLast.mapM view
    let next ← nextPosition libraryId endpoint (collected.dropLast.getLast?.map key)
    pure ⟨endpoint, items, some next⟩
  else
    let items ← collected.mapM view
    pure ⟨endpoint, items, none⟩

/-- What a page shows: the rows that `collect` reads, up to the size of the
page, and the position of the last of them when there are more. -/
structure Shows {α β : Type} (libraryId : BitVec 128) (key : α → ℕ) (rows : List α)
    (view : α → AssetResult β) (after pageSize : ℕ) (page : CreativePage β) : Prop where
  items : List.Forall₂ (fun r item => view r = .ok item)
    ((collect key rows after page.snapshotEndpoint pageSize).take pageSize) page.items
  last : (collect key rows after page.snapshotEndpoint pageSize).length ≤ pageSize →
    page.next = none
  more : pageSize < (collect key rows after page.snapshotEndpoint pageSize).length →
    ∃ r valid, ((collect key rows after page.snapshotEndpoint pageSize).take pageSize).getLast? =
      some r ∧ page.next = some (.after libraryId page.snapshotEndpoint (key r) valid)

theorem length_collect_le {α : Type} (key : α → ℕ) (rows : List α) (after endpoint pageSize : ℕ) :
    (collect key rows after endpoint pageSize).length ≤ pageSize + 1 := by
  unfold collect
  rw [List.length_take]
  exact Nat.min_le_left _ _

theorem mem_collect {α : Type} {key : α → ℕ} {rows : List α} {after endpoint pageSize : ℕ} {r : α}
    (h : r ∈ collect key rows after endpoint pageSize) : r ∈ rows :=
  (mem_rowsAfter.1 (List.mem_of_mem_filter (List.mem_of_mem_take h))).1

theorem nextPosition_eq_ok {libraryId : BitVec 128} {endpoint : ℕ} {last : Option ℕ}
    {next : CreativeListPosition} (h : nextPosition libraryId endpoint last = .ok next) :
    ∃ key valid, last = some key ∧ next = .after libraryId endpoint key valid := by
  unfold nextPosition CreativeListPosition.newAfter at h
  cases last with
  | none => cases h
  | some key =>
    simp only at h
    split at h
    · rename_i hvalid
      cases h
      exact ⟨key, hvalid, rfl, rfl⟩
    · cases h

/-- **A page that is answered shows its rows.** -/
theorem listPage_eq_ok {α β : Type} {libraryId : BitVec 128} {request : CreativeListQuery}
    {keys : List ℕ} {key : α → ℕ} {rows : List α} {view : α → AssetResult β}
    {page : CreativePage β} (h : listPage libraryId request keys key rows view = .ok page) :
    ∃ after, listBounds libraryId request.position (keys.foldl max 0) =
        .ok (page.snapshotEndpoint, after) ∧
      requireSnapshotEndpoint request.position (keys.contains page.snapshotEndpoint) = .ok () ∧
      Shows libraryId key rows view after request.pageSize page := by
  unfold listPage at h
  obtain ⟨⟨endpoint, after⟩, hbounds, h⟩ := exceptBind_eq_ok.1 h
  obtain ⟨_, hendpoint, h⟩ := exceptBind_eq_ok.1 h
  simp only at h hendpoint
  split at h
  · rename_i hmore
    have hlength := length_collect_le key rows after endpoint request.pageSize
    have hdrop : (collect key rows after endpoint request.pageSize).dropLast =
        (collect key rows after endpoint request.pageSize).take request.pageSize := by
      rw [List.dropLast_eq_take]
      congr 1
      omega
    rw [hdrop] at h
    obtain ⟨items, hitems, h⟩ := exceptBind_eq_ok.1 h
    obtain ⟨next, hnext, h⟩ := exceptBind_eq_ok.1 h
    cases h
    refine ⟨after, hbounds, hendpoint, forall₂_of_exceptMapM hitems,
      fun hle => absurd hmore (Nat.not_lt.2 hle), fun _ => ?_⟩
    obtain ⟨k, hvalid, hlast, rfl⟩ := nextPosition_eq_ok hnext
    obtain ⟨r, hr, rfl⟩ := Option.map_eq_some_iff.1 hlast
    exact ⟨r, hvalid, hr, rfl⟩
  · rename_i hfew
    obtain ⟨items, hitems, h⟩ := exceptBind_eq_ok.1 h
    cases h
    refine ⟨after, hbounds, hendpoint, ?_, fun _ => rfl, fun hmore => absurd hmore hfew⟩
    rw [List.take_of_length_le (Nat.not_lt.1 hfew)]
    exact forall₂_of_exceptMapM hitems

namespace Shows

variable {α β : Type} {libraryId : BitVec 128} {key : α → ℕ} {rows : List α}
  {view : α → AssetResult β} {after pageSize : ℕ} {page : CreativePage β}

theorem length_le (h : Shows libraryId key rows view after pageSize page) :
    page.items.length ≤ pageSize := by
  rw [← h.items.length_eq, List.length_take]
  exact Nat.min_le_left _ _

/-- Every item is the view of a row. -/
theorem exists_row (h : Shows libraryId key rows view after pageSize page) {item : β}
    (hitem : item ∈ page.items) : ∃ r ∈ rows, view r = .ok item := by
  obtain ⟨r, hr, hview⟩ := exists_of_forall₂ h.items hitem
  exact ⟨r, mem_collect (List.mem_of_mem_take hr), hview⟩

end Shows

section Documents

variable {N : Type} [DecidableEq N] (numbers : JsonNumbers N)

/-! ## Projects -/

/-- One policy of `validate_project_policies`. -/
def storedPolicy (bytes : Bytes) : AssetResult CanonicalJson :=
  match numbers.parseProjectPolicy bytes with
  | .error _ => .error .storageCorruption
  | .ok parsed => if parsed.bytes ≠ bytes then .error .storageCorruption else .ok parsed

/-- `project_specification`, with `validate_project_policies`. -/
def projectSpecification (r : SpecRevisionRow) : AssetResult ProjectSpecification := do
  let color ← storedPolicy numbers r.colorPolicyJson
  let audio ← storedPolicy numbers r.audioPolicyJson
  let quality ← storedPolicy numbers r.qualityPolicyJson
  let privacy ← storedPolicy numbers r.privacyPolicyJson
  if policyDigest [color.bytes, audio.bytes, quality.bytes, privacy.bytes] ≠ r.policyDigest then
    .error .storageCorruption
  else
    pure
      { resolution := r.resolution
        frameRate := r.frameRate
        aspectRatio := r.aspectRatio
        colorPolicy := color
        audioPolicy := audio
        qualityPolicy := quality
        privacyPolicy := privacy
        policyDigest := r.policyDigest }

/-- The rows of `projects` with their current specifications. -/
def projectRows (t : Tables) : List (ProjectRow × SpecRevisionRow) :=
  projectVersions.currentRows (fun _ => true) t.projects t.specRevisions

def projectView (r : ProjectRow × SpecRevisionRow) : AssetResult ProjectView := do
  let specification ← projectSpecification numbers r.2
  pure
    { projectId := r.1.projectId
      name := r.1.name
      revision := r.1.revision
      createdAt := r.1.createdAt
      updatedAt := r.1.updatedAt
      creationCommitSequence := r.1.creationCommitSequence
      specRevisionId := r.2.projectSpecRevisionId
      specSequence := r.2.sequence
      specification := specification }

theorem storedPolicy_eq_ok {numbers : JsonNumbers N} {bytes : Bytes}
    (h : storedPolicy numbers bytes = .ok json) : json.bytes = bytes := by
  unfold storedPolicy at h
  split at h
  · cases h
  · obtain ⟨hbytes, h⟩ := refusal_eq_ok.1 h
    cases h
    exact not_not.1 hbytes

/-- A specification holds what its row does. -/
theorem projectSpecification_eq_ok {numbers : JsonNumbers N} {r : SpecRevisionRow}
    {specification : ProjectSpecification}
    (h : projectSpecification numbers r = .ok specification) :
    specification.policies.map CanonicalJson.bytes = r.policies ∧
      specification.resolution = r.resolution ∧ specification.frameRate = r.frameRate ∧
      specification.aspectRatio = r.aspectRatio := by
  obtain ⟨color, hcolor, h⟩ := exceptBind_eq_ok.1 h
  obtain ⟨audio, haudio, h⟩ := exceptBind_eq_ok.1 h
  obtain ⟨quality, hquality, h⟩ := exceptBind_eq_ok.1 h
  obtain ⟨privacy, hprivacy, h⟩ := exceptBind_eq_ok.1 h
  obtain ⟨-, h⟩ := refusal_eq_ok.1 h
  cases h
  simp only [SpecRevisionRow.policies, List.map_cons, List.map_nil, storedPolicy_eq_ok hcolor,
    storedPolicy_eq_ok haudio, storedPolicy_eq_ok hquality, storedPolicy_eq_ok hprivacy, and_self]

/-- `list_projects`. -/
def listProjects (libraryId : BitVec 128) (t : Tables) (request : CreativeListQuery) :
    AssetResult (CreativePage ProjectView) :=
  listPage libraryId request (t.projects.map ProjectRow.creationCommitSequence)
    (fun r => r.1.creationCommitSequence) (projectRows t) (projectView numbers)

/-! ## Subjects -/

def subjectView (r : SubjectRow) : SubjectView where
  subjectId := r.subjectId
  kind := r.kind
  name := r.canonicalName
  revision := r.revision
  createdAt := r.createdAt
  creationCommitSequence := r.creationCommitSequence

/-- `list_subjects`. -/
def listSubjects (libraryId : BitVec 128) (t : Tables) (request : CreativeListQuery) :
    AssetResult (CreativePage SubjectView) :=
  listPage libraryId request (t.subjects.map SubjectRow.creationCommitSequence)
    SubjectRow.creationCommitSequence t.subjects fun r => .ok (subjectView r)

/-! ## Work -/

/-- The edges `relationship_targets` asks for. -/
def isWorkEdge (source : Id .workRevision) (kind : RelationshipKind) (targetKind : NodeKind)
    (r : RelationshipRow) : Bool :=
  r.sourceKind = .workRevision && r.sourceId = source.uuid && r.relationshipKind = kind &&
    r.targetKind = targetKind

/-- `relationship_targets`. -/
def relationshipTargets {entity : Entity} (t : Tables) (source : Id .workRevision)
    (kind : RelationshipKind) (targetKind : NodeKind) (maximum : ℕ) :
    AssetResult (List (Id entity)) :=
  let rows := (sortedBy (fun r => r.targetId.key)
    (t.relationships.filter (isWorkEdge source kind targetKind))).take (maximum + 1)
  if maximum < rows.length then .error .storageCorruption
  else .ok (rows.map fun r => ⟨r.targetId⟩)

/-- The checks of `list_work` on a stored specification. -/
def storedSpecification (r : WorkRevisionRow) : AssetResult CanonicalJson :=
  if (⟨sha256 r.specificationJson⟩ : Digest) ≠ r.specificationDigest then
    .error .storageCorruption
  else
    match numbers.parseWorkSpecification r.specificationJson with
    | .error _ => .error .storageCorruption
    | .ok json =>
      if json.bytes ≠ r.specificationJson ∨ json.digest ≠ r.specificationDigest then
        .error .storageCorruption
      else .ok json

/-- The rows of `work_items` of a project with their current revisions. -/
def workRows (t : Tables) (projectId : Id .project) : List (WorkItemRow × WorkRevisionRow) :=
  workVersions.currentRows (fun w => w.projectId = projectId) t.workItems t.workRevisions

def workView (t : Tables) (projectId : Id .project) (r : WorkItemRow × WorkRevisionRow) :
    AssetResult WorkView := do
  let subjects ← relationshipTargets t r.2.workRevisionId .workSubject .subject 64
  let assets ← relationshipTargets t r.2.workRevisionId .workAsset .asset 64
  let json ← storedSpecification numbers r.2
  match WorkSpecification.new json subjects assets with
  | .error _ => .error .storageCorruption
  | .ok specification =>
    pure
      { workItemId := r.1.workItemId
        projectId := projectId
        kind := r.1.kind
        code := r.1.code
        revision := r.1.revision
        createdAt := r.1.createdAt
        updatedAt := r.1.updatedAt
        creationCommitSequence := r.1.creationCommitSequence
        workRevisionId := r.2.workRevisionId
        workRevisionSequence := r.2.sequence
        specification := specification }

theorem storedSpecification_eq_ok {numbers : JsonNumbers N} {r : WorkRevisionRow}
    (h : storedSpecification numbers r = .ok json) :
    json.bytes = r.specificationJson := by
  unfold storedSpecification at h
  obtain ⟨-, h⟩ := refusal_eq_ok.1 h
  split at h
  · cases h
  · obtain ⟨hbytes, h⟩ := refusal_eq_ok.1 h
    cases h
    exact not_not.1 (not_or.1 hbytes).1

/-- A view of work holds the document of its revision row. -/
theorem workView_eq_ok {numbers : JsonNumbers N} {t : Tables} {projectId : Id .project}
    {r : WorkItemRow × WorkRevisionRow} {view : WorkView}
    (h : workView numbers t projectId r = .ok view) :
    view.specification.json.bytes = r.2.specificationJson := by
  unfold workView at h
  obtain ⟨subjects, -, h⟩ := exceptBind_eq_ok.1 h
  obtain ⟨assets, -, h⟩ := exceptBind_eq_ok.1 h
  obtain ⟨json, hjson, h⟩ := exceptBind_eq_ok.1 h
  split at h
  · cases h
  · rename_i specification hspecification
    cases h
    rw [(WorkSpecification.new_eq_ok hspecification).1]
    exact storedSpecification_eq_ok hjson

/-- `list_work`. -/
def listWork (libraryId : BitVec 128) (t : Tables) (projectId : Id .project)
    (request : CreativeListQuery) : AssetResult (CreativePage WorkView) :=
  if !t.projects.any fun p => p.projectId = projectId then .error .notFound
  else
    listPage libraryId request
      ((t.workItems.filter fun w => w.projectId = projectId).map
        WorkItemRow.creationCommitSequence)
      (fun r => r.1.creationCommitSequence) (workRows t projectId) (workView numbers t projectId)

end Documents

/-! ## Takes -/

/-- The order of the texts `TAKE_REOPENS` and `TAKE_SUPERSEDES`, and of the
targets for each of them. -/
def edgeOrder (r : RelationshipRow) : ℕ :=
  (if r.relationshipKind = .takeReopens then 0 else 2 ^ 128) + r.targetId.key

/-- The edges of a take that `list_takes` shows. -/
def isShownEdge (takeId : Id .take) (r : RelationshipRow) : Bool :=
  r.sourceKind = .take && r.sourceId = takeId.uuid &&
    (r.relationshipKind = .takeReopens || r.relationshipKind = .takeSupersedes)

/-- The relationships of one row of `list_takes`. -/
def takeRelationships (t : Tables) (takeId : Id .take) :
    AssetResult (List TakeRelationshipView) :=
  let rels := (sortedBy edgeOrder (t.relationships.filter (isShownEdge takeId))).take 3
  if 2 < rels.length then .error .storageCorruption
  else .ok (rels.map fun r => ⟨r.relationshipId, r.relationshipKind, ⟨r.targetId⟩⟩)

def takeView (t : Tables) (workRevisionId : Id .workRevision) (r : TakeRow) :
    AssetResult TakeView := do
  let relationships ← takeRelationships t r.takeId
  pure
    { takeId := r.takeId
      workRevisionId := workRevisionId
      ordinal := r.ordinal
      state := r.state
      primaryAssetId := r.primaryAssetId
      revision := r.revision
      createdAt := r.createdAt
      updatedAt := r.updatedAt
      outgoingRelationships := relationships }

theorem takeView_eq_ok {t : Tables} {workRevisionId : Id .workRevision} {r : TakeRow}
    {view : TakeView} (h : takeView t workRevisionId r = .ok view) :
    view.outgoingRelationships.length ≤ 2 := by
  unfold takeView takeRelationships at h
  obtain ⟨relationships, hrels, h⟩ := exceptBind_eq_ok.1 h
  cases h
  simp only at hrels
  obtain ⟨hlength, hrels⟩ := refusal_eq_ok.1 hrels
  cases hrels
  rw [List.length_map]
  exact Nat.not_lt.1 hlength

/-- `list_takes`. -/
def listTakes (libraryId : BitVec 128) (t : Tables) (projectId : Id .project)
    (workItemId : Id .workItem) (workRevisionId : Id .workRevision)
    (request : CreativeListQuery) : AssetResult (CreativePage TakeView) :=
  if !takeContextExists t projectId workItemId workRevisionId then .error .notFound
  else
    let takes := t.takes.filter fun r => r.workRevisionId = workRevisionId
    listPage libraryId request (takes.map TakeRow.ordinal) TakeRow.ordinal takes
      (takeView t workRevisionId)

end CreativeQuery

end Store

end MengXia
