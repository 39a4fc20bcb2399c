import MengXia.Store.TakeHistory
/-!
# The edges of the creative graph

A relationship leads from a work revision to a subject or an asset, or from
a take to a terminal take of the same work revision. In every reachable
library both ends of every edge are stored, and a work revision has at most
64 edges of each kind.
-/

namespace MengXia.Store

open Common

variable {allowed : Call → Prop}

/-! ## Edges that stand -/

/-- Both ends of an edge are stored rows of the kinds it names. -/
inductive RelationshipRow.Stands (t : Tables) (r : RelationshipRow) : Prop where
  | subject (kind : r.relationshipKind = .workSubject) (sourceKind : r.sourceKind = .workRevision)
      (targetKind : r.targetKind = .subject)
      (source : ∃ x ∈ t.workRevisions, x.workRevisionId.uuid = r.sourceId)
      (target : ∃ s ∈ t.subjects, s.subjectId.uuid = r.targetId)
  | asset (kind : r.relationshipKind = .workAsset) (sourceKind : r.sourceKind = .workRevision)
      (targetKind : r.targetKind = .asset)
      (source : ∃ x ∈ t.workRevisions, x.workRevisionId.uuid = r.sourceId)
      (target : ∃ a ∈ t.assets, a.assetId.uuid = r.targetId)
  | take (kind : r.relationshipKind = .takeReopens ∨ r.relationshipKind = .takeSupersedes)
      (sourceKind : r.sourceKind = .take) (targetKind : r.targetKind = .take) {x y : TakeRow}
      (source : x ∈ t.takes) (sourceId : x.takeId.uuid = r.sourceId)
      (target : y ∈ t.takes) (targetId : y.takeId.uuid = r.targetId)
      (place : y.workRevisionId = x.workRevisionId) (terminal : y.state.isTerminal = true)

/-- An edge that stands once stands in every later state. -/
theorem RelationshipRow.Stands.grows {t t' : Tables} {r : RelationshipRow} (h : r.Stands t)
    (hgrows : Grows t t') : r.Stands t' := by
  cases h with
  | subject kind sourceKind targetKind source target =>
    obtain ⟨x, hx, hsource⟩ := source
    obtain ⟨s, hs, htarget⟩ := target
    exact .subject kind sourceKind targetKind ⟨x, hgrows.workRevisions.subset hx, hsource⟩
      ⟨s, hgrows.subjects.subset hs, htarget⟩
  | asset kind sourceKind targetKind source target =>
    obtain ⟨x, hx, hsource⟩ := source
    obtain ⟨a, ha, htarget⟩ := target
    obtain ⟨a', ha', hnext⟩ := hgrows.assets a ha
    exact .asset kind sourceKind targetKind ⟨x, hgrows.workRevisions.subset hx, hsource⟩
      ⟨a', ha', by rw [hnext.id]; exact htarget⟩
  | take kind sourceKind targetKind source sourceId target targetId place terminal =>
    obtain ⟨x', hx', hx⟩ := hgrows.takes _ source
    obtain ⟨y', hy', hy⟩ := hgrows.takes _ target
    -- A terminal take does not move.
    obtain rfl := hy.terminal terminal
    exact .take kind sourceKind targetKind hx' (by rw [hx.id]; exact sourceId) hy' targetId
      (by rw [hx.place]; exact place) terminal

/-- The edges of one kind that leave one work revision. -/
def isWorkEdgeOf (source : Uuid) (kind : RelationshipKind) (r : RelationshipRow) : Bool :=
  r.sourceKind = .workRevision && r.sourceId = source && r.relationshipKind = kind

/-- Every edge stands, and no work revision has too many. -/
structure EdgesStand (t : Tables) : Prop where
  stands : ∀ r ∈ t.relationships, r.Stands t
  bounded : ∀ source kind, t.relationships.countP (isWorkEdgeOf source kind) ≤ 64

/-- A work edge leaves a stored work revision. -/
theorem EdgesStand.source {t : Tables} (h : EdgesStand t) {r : RelationshipRow}
    (hr : r ∈ t.relationships) (hkind : r.sourceKind = .workRevision) :
    ∃ x ∈ t.workRevisions, x.workRevisionId.uuid = r.sourceId := by
  cases h.stands r hr with
  | subject _ _ _ source _ => exact source
  | asset _ _ _ source _ => exact source
  | take _ sourceKind => rw [hkind] at sourceKind; cases sourceKind

/-! ## Changes -/

/-- Tables that grow without new edges. -/
theorem EdgesStand.keep {t t' : Tables} (h : EdgesStand t) (hgrows : Grows t t')
    (hsame : t'.relationships = t.relationships) : EdgesStand t' := by
  refine ⟨fun r hr => ?_, fun source kind => ?_⟩
  · rw [hsame] at hr
    exact (h.stands r hr).grows hgrows
  · rw [hsame]
    exact h.bounded source kind

/-- One more edge between takes. -/
theorem EdgesStand.takeEdge {t t' : Tables} (h : EdgesStand t) (hgrows : Grows t t')
    {e : RelationshipRow} (hadded : t'.relationships = t.relationships ++ [e])
    (hkind : e.sourceKind = .take) (hstands : e.Stands t') : EdgesStand t' := by
  refine ⟨?_, fun source kind => ?_⟩
  · rw [hadded]
    exact forall_mem_append_singleton (fun r hr => (h.stands r hr).grows hgrows) hstands
  · rw [hadded, countP_append_of_not fun r hr => ?_]
    · exact h.bounded source kind
    · rw [List.mem_singleton.1 hr]
      simp [isWorkEdgeOf, hkind]

/-- The edges of a work revision in two parts. -/
theorem exists_workEdges_parts {revisionId : Id .workRevision} {binding : CommandBinding}
    {at_ : Timestamp} {specification : WorkSpecification} {ids : List (Id .relationship)}
    (hlength : (workEdges revisionId binding at_ specification).length = ids.length) :
    ∃ subjects assets,
      workEdgeRows revisionId binding at_ specification ids = subjects ++ assets ∧
      (subjects.length ≤ 64 ∧ ∀ r ∈ subjects, ∃ subject ∈ specification.subjectIds, ∃ id,
        r = workEdgeRow revisionId binding at_ .workSubject .subject subject.uuid id) ∧
      assets.length ≤ 64 ∧ ∀ r ∈ assets, ∃ asset ∈ specification.assetIds, ∃ id,
        r = workEdgeRow revisionId binding at_ .workAsset .asset asset.uuid id := by
  unfold workEdgeRows workEdges at *
  rw [List.length_append, List.length_map, List.length_map] at hlength
  refine ⟨((specification.subjectIds.map fun id =>
      workEdgeRow revisionId binding at_ .workSubject .subject id.uuid).zip
        (ids.take specification.subjectIds.length)).map fun edge => edge.1 edge.2,
    ((specification.assetIds.map fun id =>
      workEdgeRow revisionId binding at_ .workAsset .asset id.uuid).zip
        (ids.drop specification.subjectIds.length)).map fun edge => edge.1 edge.2,
    ?_, ⟨?_, fun r hr => ?_⟩, ?_, fun r hr => ?_⟩
  · rw [← List.map_append, ← List.zip_append, List.take_append_drop]
    rw [List.length_map, List.length_take]
    omega
  · have hbound := specification.subjectsBounded
    simp only [List.length_map, List.length_zip, List.length_take]
    omega
  · obtain ⟨⟨edge, id⟩, hpair, rfl⟩ := List.mem_map.1 hr
    obtain ⟨subject, hsubject, rfl⟩ := List.mem_map.1 (List.of_mem_zip hpair).1
    exact ⟨subject, hsubject, id, rfl⟩
  · have hbound := specification.assetsBounded
    simp only [List.length_map, List.length_zip, List.length_drop]
    omega
  · obtain ⟨⟨edge, id⟩, hpair, rfl⟩ := List.mem_map.1 hr
    obtain ⟨asset, hasset, rfl⟩ := List.mem_map.1 (List.of_mem_zip hpair).1
    exact ⟨asset, hasset, id, rfl⟩

/-- The edges of a new work revision. -/
theorem EdgesStand.workEdges {t t' : Tables} (h : EdgesStand t) (hgrows : Grows t t')
    {revisionId : Id .workRevision} {binding : CommandBinding} {at_ : Timestamp}
    {specification : WorkSpecification} {ids : List (Id .relationship)}
    (hreferences : validateWorkReferences t specification = true)
    (hlength : (Store.workEdges revisionId binding at_ specification).length = ids.length)
    (hadded : t'.relationships = t.relationships ++
      workEdgeRows revisionId binding at_ specification ids)
    (hrevision : ∃ x ∈ t'.workRevisions, x.workRevisionId = revisionId)
    (hnew : ∀ x ∈ t.workRevisions, x.workRevisionId ≠ revisionId) : EdgesStand t' := by
  obtain ⟨subjects, assets, hparts, ⟨hsubjects, hsubject⟩, hassets, hasset⟩ :=
    exists_workEdges_parts hlength
  obtain ⟨x, hx, hxid⟩ := hrevision
  have hsource : ∃ x ∈ t'.workRevisions, x.workRevisionId.uuid = revisionId.uuid :=
    ⟨x, hx, by rw [hxid]⟩
  unfold validateWorkReferences at hreferences
  simp only [Bool.and_eq_true, List.all_eq_true, List.any_eq_true, decide_eq_true_eq]
    at hreferences
  rw [hparts] at hadded
  refine ⟨fun r hr => ?_, fun source kind => ?_⟩
  · rw [hadded] at hr
    rcases List.mem_append.1 hr with hr | hr
    · exact (h.stands r hr).grows hgrows
    · rcases List.mem_append.1 hr with hr | hr
      · obtain ⟨subject, hmem, id, rfl⟩ := hsubject r hr
        obtain ⟨s, hs, hsid⟩ := hreferences.1 subject hmem
        exact .subject rfl rfl rfl hsource ⟨s, hgrows.subjects.subset hs, by rw [hsid]; rfl⟩
      · obtain ⟨asset, hmem, id, rfl⟩ := hasset r hr
        obtain ⟨a, ha, haid⟩ := hreferences.2 asset hmem
        obtain ⟨a', ha', hnext⟩ := hgrows.assets a ha
        exact .asset rfl rfl rfl hsource ⟨a', ha', by rw [hnext.id, haid]; rfl⟩
  · rw [hadded, List.countP_append, List.countP_append]
    by_cases hid : source = revisionId.uuid
    · -- The new revision has no edges yet, and each part holds one kind only.
      have hold : t.relationships.countP (isWorkEdgeOf source kind) = 0 := by
        rw [List.countP_eq_zero]
        intro r hr hedge
        simp only [isWorkEdgeOf, Bool.and_eq_true, decide_eq_true_eq] at hedge
        obtain ⟨y, hy, hyid⟩ := h.source hr hedge.1.1
        exact hnew y hy (Id.uuid_injective ((hyid.trans hedge.1.2).trans hid))
      have hle : ∀ rows : List RelationshipRow,
          rows.countP (isWorkEdgeOf source kind) ≤ rows.length := fun rows =>
        List.countP_le_length
      by_cases hkind : kind = .workSubject
      · have hnone : assets.countP (isWorkEdgeOf source kind) = 0 := by
          rw [List.countP_eq_zero]
          intro r hr
          obtain ⟨_, -, _, rfl⟩ := hasset r hr
          simp [isWorkEdgeOf, workEdgeRow, hkind]
        have := hle subjects
        omega
      · have hnone : subjects.countP (isWorkEdgeOf source kind) = 0 := by
          rw [List.countP_eq_zero]
          intro r hr
          obtain ⟨_, -, _, rfl⟩ := hsubject r hr
          simp [isWorkEdgeOf, workEdgeRow, Ne.symm hkind]
        have := hle assets
        omega
    · have hnone : ∀ rows : List RelationshipRow, (∀ r ∈ rows, r.sourceId = revisionId.uuid) →
          rows.countP (isWorkEdgeOf source kind) = 0 := by
        intro rows hrows
        rw [List.countP_eq_zero]
        intro r hr
        simpa [isWorkEdgeOf, hrows r hr] using fun _ heq => absurd heq.symm hid
      have hold := h.bounded source kind
      have hsub := hnone subjects fun r hr => by
        obtain ⟨_, -, _, rfl⟩ := hsubject r hr
        rfl
      have hass := hnone assets fun r hr => by
        obtain ⟨_, -, _, rfl⟩ := hasset r hr
        rfl
      omega

/-- **Every change keeps the edges standing.** -/
theorem EdgesStand.change {d d' : Database} (h : EdgesStand d)
    (hchange : Change allowed d d') : EdgesStand d' := by
  have hgrows := hchange.grows
  have hrevisions := d'.consistent.workRevisionKeys
  generalize ht : d'.toTables = t' at hchange hgrows
  rw [ht] at hrevisions
  cases hchange with
  | claimed | moved | rejected | registered | revisionCreated | lifecycleChanged
  | locationRecorded | projectCreated | projectRevised | projectRevisionLeft | subjectCreated
  | takeCreated | takeMoved => exact h.keep hgrows rfl
  | workCreated _ _ _ _ _ _ _ _ _ references edges
  | workRevised _ _ _ _ _ _ _ _ _ _ _ references edges
  | workRevisionLeft _ _ _ _ _ _ _ _ _ _ references edges =>
    exact h.workEdges hgrows references edges rfl ⟨_, List.mem_concat_self, rfl⟩
      (distinct_append_singleton.1 hrevisions).2
  | takeReplaced context request take selected draw payload payload' call fresh mem id selects
      transition place other otherState otherPlace distinct =>
    refine h.takeEdge hgrows rfl rfl ?_
    have htake : take ∈ updateWhere (fun r => r.takeId = selected.takeId)
        (TakeRow.move .superseded (selected.revision + 1) draw.at_) d.takes :=
      mem_updateWhere_of_not mem (by simpa [id] using distinct.symm)
    have hselected : selected.move .superseded (selected.revision + 1) draw.at_ ∈
        updateWhere (fun r => r.takeId = selected.takeId)
          (TakeRow.move .superseded (selected.revision + 1) draw.at_) d.takes :=
      mem_updateWhere_of other (decide_eq_true rfl)
    exact .take (Or.inr rfl) rfl rfl (mem_updateWhere_of htake (decide_eq_true id))
      (congrArg Id.uuid id) (mem_updateWhere_of_not hselected (decide_eq_false distinct)) rfl
      (otherPlace.trans place.symm) rfl
  | takeSuperseded context request take replacement draw payload call fresh mem id supersedes
      transition place other otherPlace distinct =>
    refine h.takeEdge hgrows rfl rfl ?_
    exact .take (Or.inr rfl) rfl rfl
      (mem_updateWhere_of_not other (decide_eq_false distinct)) rfl
      (mem_updateWhere_of mem (decide_eq_true id)) (congrArg Id.uuid id)
      (place.trans otherPlace.symm) rfl
  | takeReopened context request terminal takeId eventId relationshipId at_ ordinal payload call
      fresh mem id terminalState place =>
    refine h.takeEdge hgrows rfl rfl ?_
    exact .take (Or.inl rfl) rfl rfl List.mem_concat_self rfl (List.mem_append_left _ mem)
      (congrArg Id.uuid id) place terminalState

/-- **The edges of a reachable library stand.** -/
theorem Reachable.edgesStand {d : Database} (h : Reachable allowed d) : EdgesStand d :=
  h.induct (P := EdgesStand) ⟨fun r hr => (by cases hr), fun _ _ => Nat.zero_le _⟩
    fun _ _ ih hchange => ih.change hchange

/-- **A stored edge stands in every later state**, and no work revision ever
has more than 64 edges of a kind. -/
theorem edges_stand_later {d d' : Database} (h : Reachable allowed d)
    (hlater : Later allowed d d') :
    (∀ r ∈ d.relationships, r ∈ d'.relationships ∧ r.Stands d'.toTables) ∧
    ∀ source kind, d'.relationships.countP (isWorkEdgeOf source kind) ≤ 64 :=
  ⟨fun r hr => ⟨hlater.grows.relationships.subset hr,
    (h.edgesStand.stands r hr).grows hlater.grows⟩, (hlater.reachable h).edgesStand.bounded⟩

/-- The edge of a first supersession. -/
theorem supersession_edge_stands : oneSuperseded.relationships.length = 1 ∧
    ∀ r ∈ oneSuperseded.relationships, r.Stands oneSuperseded.toTables := by
  refine ⟨by decide +kernel, fun r hr => ?_⟩
  exact ((edges_stand_later reachable_oneSuperseded .refl).1 r hr).2

end MengXia.Store
