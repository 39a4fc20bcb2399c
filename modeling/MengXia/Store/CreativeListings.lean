import MengXia.Store.CreativePages
import MengXia.Store.ProjectProgress
/-!
# The four creative listings

The listings of projects, subjects, work and takes page exactly: in every
reachable library their rows are their entries and can be shown, and later
calls keep the entries.
-/

namespace MengXia.Store

namespace CreativeQuery

open Common

variable {N : Type} [DecidableEq N] (numbers : JsonNumbers N)

/-! ## The listings -/

def projectListing : Listing (ProjectRow × SpecRevisionRow) ProjectView where
  kind := .projects
  found _ := true
  entries t := t.projects.map ProjectRow.entry
  rows := projectRows
  entry r := r.1.entry
  view _ := projectView numbers

def workListing (projectId : Id .project) : Listing (WorkItemRow × WorkRevisionRow) WorkView where
  kind := .work projectId
  found t := t.projects.any fun p => p.projectId = projectId
  entries t := workEntries t projectId
  rows t := workRows t projectId
  entry r := r.1.entry
  view t := workView numbers t projectId

section Services

variable (libraryId : BitVec 128) (projectId : Id .project) (workItemId : Id .workItem)
  (workRevisionId : Id .workRevision) (t : Tables) (pageSize : ℕ) (cursor : Option Bytes)

/-- A service whose port is that of a listing asks the listing. -/
theorem Listing.ask_eq {α β : Type} (L : Listing α β)
    {port : CreativeListQuery → AssetResult (CreativePage β)}
    (hport : ∀ request, port request = L.port libraryId t request) :
    CreativeQueryService.list libraryId L.kind pageSize cursor port =
      L.ask libraryId t pageSize cursor := by
  rw [funext hport]
  rfl

theorem listProjects_eq : CreativeQueryService.listProjects numbers libraryId =
    (projectListing numbers).ask libraryId := by
  funext t pageSize cursor
  refine (projectListing numbers).ask_eq libraryId t pageSize cursor fun request => ?_
  unfold CreativeQuery.listProjects Listing.port projectListing
  rw [List.map_map]
  rfl

theorem listWork_eq :
    CreativeQueryService.listWork numbers libraryId t projectId pageSize cursor =
      (workListing numbers projectId).ask libraryId t pageSize cursor := by
  refine (workListing numbers projectId).ask_eq libraryId t pageSize cursor fun request => ?_
  unfold CreativeQuery.listWork Listing.port workListing workEntries
  rw [List.map_map]
  rfl

end Services

/-! ## What can be shown -/

theorem WorkSpecification.exists_new (json : CanonicalJson) {subjectIds : List (Id .subject)}
    {assetIds : List (Id .asset)} (hsubjects : subjectIds.Nodup ∧ subjectIds.length ≤ 64)
    (hassets : assetIds.Nodup ∧ assetIds.length ≤ 64) :
    ∃ specification, WorkSpecification.new json subjectIds assetIds = .ok specification := by
  have hsubjects' : validateRelationshipSet subjectIds 64 = .ok _ := if_pos hsubjects
  have hassets' : validateRelationshipSet assetIds 64 = .ok _ := if_pos hassets
  unfold WorkSpecification.new
  split
  · exact ⟨_, rfl⟩
  · rename_i h
    exact absurd hassets' (h _ _ hsubjects')

/-- **The targets of a work revision** are read, each once. -/
theorem exists_relationshipTargets (entity : Entity) {d : Database} (hedges : EdgesStand d)
    (source : Id .workRevision) (kind : RelationshipKind) (targetKind : NodeKind) :
    ∃ ids : List (Id entity), relationshipTargets d source kind targetKind 64 = .ok ids ∧
      ids.Nodup ∧ ids.length ≤ 64 := by
  have hcount : (d.relationships.filter (isWorkEdge source kind targetKind)).length ≤ 64 := by
    rw [← List.countP_eq_length_filter]
    refine Nat.le_trans (List.countP_mono_left fun r _ hr => ?_) (hedges.bounded source.uuid kind)
    simp only [isWorkEdge, Bool.and_eq_true, decide_eq_true_eq] at hr
    simp [isWorkEdgeOf, hr]
  -- Edges of one kind from one source to one kind of target differ in their targets.
  have htargets : Distinct RelationshipRow.targetId
      (d.relationships.filter (isWorkEdge source kind targetKind)) := by
    have hdistinct := d.consistent.relationshipEdges.filter (isWorkEdge source kind targetKind)
    unfold Distinct at hdistinct ⊢
    rw [List.nodup_map_iff_inj_on (List.Nodup.of_map _ hdistinct)]
    intro r hr r' hr' heq
    refine List.inj_on_of_nodup_map hdistinct hr hr' ?_
    have hedge := (List.mem_filter.1 hr).2
    have hedge' := (List.mem_filter.1 hr').2
    simp only [isWorkEdge, Bool.and_eq_true, decide_eq_true_eq] at hedge hedge'
    simp [RelationshipRow.edge, hedge, hedge', heq]
  have hlength : (sortedBy (fun r => r.targetId.key)
      (d.relationships.filter (isWorkEdge source kind targetKind))).length ≤ 64 := by
    rw [sortedBy, List.length_insertionSort]
    exact hcount
  have hall : (sortedBy (fun r => r.targetId.key)
      (d.relationships.filter (isWorkEdge source kind targetKind))).take 65 =
        sortedBy (fun r => r.targetId.key)
          (d.relationships.filter (isWorkEdge source kind targetKind)) :=
    List.take_of_length_le (Nat.le_succ_of_le hlength)
  refine ⟨(sortedBy (fun r => r.targetId.key) (d.relationships.filter
    (isWorkEdge source kind targetKind))).map fun r => ⟨r.targetId⟩, ?_, ?_, ?_⟩
  · unfold relationshipTargets
    simp only [hall, if_neg (Nat.not_lt.2 hlength)]
  · have hperm := List.perm_insertionSort
      (fun r r' : RelationshipRow => r.targetId.key ≤ r'.targetId.key)
      (d.relationships.filter (isWorkEdge source kind targetKind))
    have hids : ((d.relationships.filter (isWorkEdge source kind targetKind)).map fun r =>
        (⟨r.targetId⟩ : Id entity)).Nodup := by
      have hmap := htargets.map (f := (Id.mk : Uuid → Id entity)) fun u v h => congrArg Id.uuid h
      rwa [List.map_map] at hmap
    exact (hperm.map _).nodup_iff.2 hids
  · rw [List.length_map]
    exact hlength

variable {numbers} {allowed : Call → Prop}

/-- A creation is an event, so its number is a valid key. -/
theorem creation_bounds {α : Type} {d : Database} {rows : List α} {key : α → ℕ}
    (hevents : Refers key rows EventRow.commitSequence d.domainEvents) {r : α} (hr : r ∈ rows) :
    1 ≤ key r ∧ key r < 2 ^ 63 := by
  obtain ⟨e, he, heq⟩ := hevents r hr
  rw [← heq]
  exact d.consistent.eventBounds e he

theorem projectListing_sound {d : Database} (hd : Reachable (Call.Parsed numbers) d) :
    (projectListing numbers).Sound d where
  complete e := by
    have hmem := Versioning.mem_map_currentRows (V := projectVersions) (p := fun _ => true)
      (c := e) ProjectRow.entry hd.deferredKeys.currentSpecs
    rwa [List.filter_true] at hmem
  distinct := Versioning.distinct_currentRows d.consistent.projectCreations d.consistent.specKeys
  keys := by
    unfold Distinct projectListing
    rw [List.map_map]
    exact d.consistent.projectCreations
  bounds e he := by
    obtain ⟨p, hp, rfl⟩ := List.mem_map.1 he
    exact creation_bounds d.consistent.projectEvents hp
  shown r hr := by
    obtain ⟨specification, hspec⟩ :=
      hd.documents.specs r.2 (Versioning.mem_currentRows.1 hr).2.1
    exact ⟨_, exceptBind_eq_ok.2 ⟨specification, hspec, rfl⟩⟩

theorem workListing_sound (projectId : Id .project) {d : Database}
    (hd : Reachable (Call.Parsed numbers) d) :
    (workListing numbers projectId).Sound d where
  complete _ :=
    Versioning.mem_map_currentRows WorkItemRow.entry hd.deferredKeys.currentWorkRevisions
  distinct :=
    Versioning.distinct_currentRows d.consistent.workCreations d.consistent.workRevisionKeys
  keys := by
    unfold Distinct workListing workEntries
    rw [List.map_map]
    exact d.consistent.workCreations.filter _
  bounds e he := by
    obtain ⟨w, hw, rfl⟩ := List.mem_map.1 he
    exact creation_bounds d.consistent.workEvents (List.mem_of_mem_filter hw)
  shown r hr := by
    obtain ⟨subjects, hsubjects, hsubjectSet⟩ := exists_relationshipTargets .subject
      hd.edgesStand r.2.workRevisionId .workSubject .subject
    obtain ⟨assets, hassets, hassetSet⟩ := exists_relationshipTargets .asset
      hd.edgesStand r.2.workRevisionId .workAsset .asset
    obtain ⟨json, hjson⟩ := hd.documents.work r.2 (Versioning.mem_currentRows.1 hr).2.1
    obtain ⟨specification, hspec⟩ := WorkSpecification.exists_new json hsubjectSet hassetSet
    simp only [workListing, workView, hsubjects, hassets, hjson, hspec, bind, Except.bind]
    exact ⟨_, rfl⟩

end CreativeQuery

end MengXia.Store
