import MengXia.Store.Custody
/-!
# When a revision is applied

The total counterpart of the step lemmas for `create_revision`: from a
ready request every statement of the transaction fits the schema, and the
result read back is the revision that was asked for. What is left to
decide is the comparison of the asset's counter with its largest revision
sequence, and that one fails as soon as the asset was retired or restored.
-/

namespace MengXia.Store

open Common Txn

/-- Rows whose key tells their position are distinct. -/
theorem distinct_enumerated {α β γ : Type} {row : ℕ → α → β} {key : β → γ} {items : List α}
    (h : ∀ i j a b, key (row i a) = key (row j b) → i = j) :
    Distinct key (enumerated row items) := by
  unfold Distinct enumerated
  rw [List.map_map]
  have hnodup : (items.zipIdx.map Prod.snd).Nodup := by
    rw [List.zipIdx_map_snd]
    exact List.nodup_range'
  refine List.Nodup.map_on ?_ (List.Nodup.of_map _ hnodup)
  rintro ⟨a, i⟩ ha ⟨b, j⟩ hb hab
  obtain rfl := h i j a b hab
  have ha := List.mem_zipIdx_iff_getElem?.1 ha
  have hb := List.mem_zipIdx_iff_getElem?.1 hb
  simp only at ha hb
  rw [ha] at hb
  rw [Option.some_inj.1 hb]

/-! ## Ready requests -/

/-- What `create_revision` asks of the tables, apart from the asset's
counter: fresh identifiers, stored parents, managed content and an event
number. -/
structure RevisionFits (t : Tables) (request : CreateAssetRevisionCommand) : Prop where
  command : FreshCommand t request.binding.commandId
  revision : ∀ x ∈ t.assetRevisions, x.assetRevisionId ≠ request.revision.revisionId
  event : ∀ x ∈ t.domainEvents, x.domainEventId ≠ request.domainEventId
  provenance : ∀ x ∈ t.provenanceEvents, x.provenanceEventId ≠ request.provenanceEventId
  representations : ∀ rp ∈ request.revision.representations, ∀ x ∈ t.representations,
    x.representationId ≠ rp.id
  resources : ∀ id ∈ resourceIds request.revision.representations, ∀ x ∈ t.resources,
    x.resourceId ≠ id
  parents : ∀ parent ∈ request.revision.parentRevisionIds, ∃ x ∈ t.assetRevisions,
    x.assetId = request.revision.assetId ∧ x.assetRevisionId = parent
  members : ∀ m ∈ revisionMembers request.revision.representations, ∃ b ∈ t.blobs,
    b.digest = m.blobDigest ∧ b.lifecycle = .available ∧
      ∃ l ∈ t.locations, l.blobDigest = b.digest ∧ l.isManagedCopy = true
  sequences : SequencesLeft t 1

namespace RevisionFits

variable {d : Database} {request : CreateAssetRevisionCommand}

/-- Managed content passes the member check. -/
theorem verdict (h : RevisionFits d request) :
    membersVerdict d (revisionMembers request.revision.representations) = .managed := by
  have hmembers := h.members
  generalize revisionMembers request.revision.representations = members at hmembers
  induction members with
  | nil => rfl
  | cons m ms ih =>
    obtain ⟨b, hb, hdigest, havailable, l, hl, hlb, hcopy⟩ := hmembers m List.mem_cons_self
    have hone : d.blobs.countP (fun x => decide (x.digest = m.blobDigest)) = 1 :=
      d.consistent.blobKeys.countP_eq_one hb (by simpa using hdigest)
        fun r _ hr => by rw [hdigest]; simpa using hr
    have hmanaged : d.blobs.countP (fun x => decide (x.digest = m.blobDigest) &&
        decide (x.lifecycle = .available) && d.locations.any fun l =>
          decide (l.blobDigest = x.digest) && l.isManagedCopy) = 1 := by
      refine d.consistent.blobKeys.countP_eq_one hb ?_ fun r _ hr => ?_
      · simp only [hdigest, havailable, decide_true, Bool.true_and, List.any_eq_true,
          Bool.and_eq_true, decide_eq_true_eq]
        exact ⟨l, hl, hlb.trans hdigest, hcopy⟩
      · simp only [Bool.and_eq_true, decide_eq_true_eq] at hr
        rw [hr.1.1, hdigest]
    have hm : memberVerdict d m.blobDigest = .managed := by
      unfold memberVerdict
      rw [hone, hmanaged]
      rfl
    rw [membersVerdict, hm]
    exact ih fun m' hm' => hmembers m' (List.mem_cons_of_mem m hm')

/-- Every parent is counted once. -/
theorem parents_counted (h : RevisionFits d request) :
    (request.revision.parentRevisionIds.any fun parent => decide
      (d.assetRevisions.countP (fun r => decide (r.assetId = request.revision.assetId) &&
        decide (r.assetRevisionId = parent)) ≠ 1)) = false := by
  refine List.any_eq_false.2 fun parent hparent => ?_
  obtain ⟨x, hx, hasset, hid⟩ := h.parents parent hparent
  have hone := d.consistent.revisionKeys.countP_eq_one hx
    (p := fun r => decide (r.assetId = request.revision.assetId) &&
      decide (r.assetRevisionId = parent)) (by simp [hasset, hid])
    fun r _ hr => by
      simp only [Bool.and_eq_true, decide_eq_true_eq] at hr
      rw [hr.2, hid]
  simp [hone]

/-- The edges to the parents are new. -/
theorem parent_edges (h : RevisionFits d request) {β : Type} (column : ParentRow → β)
    (hdistinct : Distinct (fun r => (r.childRevisionId, column r)) (parentRows request))
    (hold : Distinct (fun r => (r.childRevisionId, column r)) d.parents) :
    Distinct (fun r => (r.childRevisionId, column r)) (d.parents ++ parentRows request) := by
  refine distinct_append.2 ⟨hold, hdistinct, fun x hx y hy hkey => ?_⟩
  obtain ⟨i, parent, -, -, rfl⟩ := mem_enumerated hy
  obtain ⟨r, hr, hchild⟩ := d.consistent.parentChildren x hx
  have hchild : r.assetRevisionId = x.childRevisionId := (Prod.ext_iff.1 hchild).2
  exact h.revision r hr (hchild.trans (Prod.ext_iff.1 hkey).1)

theorem representations_distinct (h : RevisionFits d request) :
    Distinct RepresentationRow.representationId (d.representations ++
      request.revision.representations.map (revisionRepresentationRow request)) := by
  refine distinct_append.2 ⟨d.consistent.representationKeys, ?_, fun x hx y hy => ?_⟩
  · unfold Distinct
    rw [List.map_map]
    exact request.revision.graph.representationsDistinct
  · obtain ⟨rp, hrp, rfl⟩ := List.mem_map.1 hy
    exact h.representations rp hrp x hx

theorem resources_distinct (h : RevisionFits d request) :
    Distinct ResourceRow.resourceId
      (d.resources ++ request.revision.representations.flatMap resourceRows) := by
  have hids : (request.revision.representations.flatMap resourceRows).map
      ResourceRow.resourceId = resourceIds request.revision.representations := by
    rw [List.map_flatMap]
    unfold resourceIds
    simp only [List.map_map]
    rfl
  refine distinct_append.2 ⟨d.consistent.resourceKeys, ?_, fun x hx y hy => ?_⟩
  · unfold Distinct
    rw [hids]
    exact request.revision.graph.resourcesDistinct
  · exact h.resources _ (hids ▸ List.mem_map_of_mem hy) x hx

end RevisionFits

/-- The members of resources with distinct ids are distinct by resource and
position. -/
theorem distinct_memberRows {resources : List RevisionResource}
    (h : (resources.map RevisionResource.id).Nodup) :
    Distinct (fun r : MemberRow => (r.resourceId, r.ordinal)) (resources.flatMap memberRows) := by
  induction resources with
  | nil => exact Distinct.nil _
  | cons rs rest ih =>
    rw [List.map_cons, List.nodup_cons] at h
    rw [List.flatMap_cons]
    refine distinct_append.2 ⟨?_, ih h.2, fun x hx y hy hkey => ?_⟩
    · exact distinct_enumerated fun i j a b hij => (Prod.ext_iff.1 hij).2
    · obtain ⟨i, m, -, -, rfl⟩ := mem_enumerated hx
      obtain ⟨rs', hrs', hy⟩ := List.mem_flatMap.1 hy
      obtain ⟨j, m', -, -, rfl⟩ := mem_enumerated hy
      have hid : rs.id = rs'.id := (Prod.ext_iff.1 hkey).1
      exact h.1 (hid ▸ List.mem_map_of_mem hrs')

theorem RevisionFits.members_distinct {d : Database} {request : CreateAssetRevisionCommand}
    (h : RevisionFits d request) :
    Distinct (fun r => (r.resourceId, r.ordinal))
      (d.members ++ request.revision.representations.flatMap representationMembers) := by
  have hflat : request.revision.representations.flatMap representationMembers =
      (request.revision.representations.flatMap RevisionRepresentation.resources).flatMap
        memberRows := List.flatMap_assoc.symm
  have hids : (request.revision.representations.flatMap RevisionRepresentation.resources).map
      RevisionResource.id = resourceIds request.revision.representations := by
    rw [List.map_flatMap]
    rfl
  rw [hflat]
  refine distinct_append.2 ⟨d.consistent.memberKeys, ?_, fun x hx y hy hkey => ?_⟩
  · refine distinct_memberRows ?_
    rw [hids]
    exact request.revision.graph.resourcesDistinct
  · obtain ⟨rs, hrs, hy⟩ := List.mem_flatMap.1 hy
    obtain ⟨i, m, -, -, rfl⟩ := mem_enumerated hy
    obtain ⟨z, hz, hzx⟩ := d.consistent.memberResources x hx
    refine h.resources rs.id (hids ▸ List.mem_map_of_mem hrs) z hz (hzx.trans ?_)
    exact (Prod.ext_iff.1 hkey).1

/-- The result of a revision is read back from the last revision and event. -/
theorem revisionRows_concat {t : Tables} {revisions : List AssetRevisionRow}
    {events : List EventRow} {commandId : Id .command} {ar : AssetRevisionRow} {e : EventRow}
    (hrevisions : t.assetRevisions = revisions ++ [ar]) (hevents : t.domainEvents = events ++ [e])
    (hfresh : ∀ x ∈ revisions, x.assetRevisionId ≠ ar.assetRevisionId)
    (hnoEvent : ∀ x ∈ events, x.commandId ≠ commandId) (hcommand : e.commandId = commandId)
    (htype : e.eventType = .assetRevisionCreated) (hkind : e.aggregateKind = .assetRevision)
    (hid : e.aggregateId = .uuid ar.assetRevisionId.uuid) :
    revisionRows t commandId ar.assetRevisionId.uuid = [(ar, e)] := by
  have hcount : eventCount t commandId .assetRevisionCreated .assetRevision
      (.uuid ar.assetRevisionId.uuid) = 1 := by
    unfold eventCount
    rw [hevents]
    exact countP_concat (fun x hx => by simp [hnoEvent x hx])
      (by simp [hcommand, htype, hkind, hid])
  unfold revisionRows rowsWithEvent
  rw [hrevisions, select_concat (fun x hx => ?_) (by simp [hcount]), hevents]
  · exact select_concat (fun x hx => by simp [hnoEvent x hx])
      (by simp [hcommand, htype, hkind, hid])
  · rw [Bool.and_eq_false_iff, decide_eq_false_iff_not]
    exact .inl fun h => hfresh x hx (Id.uuid_injective h)

theorem le_maxRevisionSequence {t : Tables} {assetId : Id .asset} {m : ℕ}
    (h : maxRevisionSequence t assetId = some m) {r : AssetRevisionRow}
    (hr : r ∈ t.assetRevisions) (hid : r.assetId = assetId) : r.sequence ≤ m :=
  (List.max?_eq_some_iff.1 h).2 _
    (List.mem_map_of_mem (List.mem_filter.2 ⟨hr, by simpa using hid⟩))

/-- Distinct parents give distinct edges. -/
theorem distinct_parentRows (request : CreateAssetRevisionCommand) :
    Distinct (fun r : ParentRow => (r.childRevisionId, r.parentRevisionId))
      (parentRows request) := by
  have hids : (parentRows request).map ParentRow.parentRevisionId =
      request.revision.parentRevisionIds := by
    unfold parentRows enumerated
    rw [List.map_map]
    exact List.zipIdx_map_fst 0 _
  have hnodup := request.revision.graph.parentsDistinct
  rw [← hids] at hnodup
  refine List.Nodup.of_map Prod.snd ?_
  rw [List.map_map]
  exact hnodup

section Apply

variable {d : Database} (context : StoreContext) {request : CreateAssetRevisionCommand}
variable {asset : AssetRow} {E : AssetStoreError → Prop}

/-- The writes of a ready revision, after its claim and its event number. -/
theorem wp_writeRevision {d2 : Database} (hfits : RevisionFits d request)
    (hkeys : DeferredKeys d) (hevents : EventsNumbered d)
    (hasset : asset ∈ d.assets) (hid : asset.assetId = request.revision.assetId)
    (hroom : asset.revision < 2 ^ 32 - 1)
    (hnext : request.revision.resultingRevision = asset.revision + 1)
    (hmax : maxRevisionSequence d request.revision.assetId = some asset.revision)
    (h2 : d2.toTables = { d.toTables with
      commands := d.commands ++ [claimRow context request.binding request.operationAt]
      lastSequence := d.lastSequence + 1 }) :
    wp (writeRevision context request asset.revision (d.lastSequence + 1))
      (fun outcome _ => outcome = .applied (.assetRevision asset.assetId
        request.revision.revisionId (asset.revision + 1) request.operationAt)) E d2 := by
  have hnoEvent : ∀ e ∈ d.domainEvents, e.commandId ≠ request.binding.commandId :=
    fun e he => d.consistent.eventCommands.ne_of_fresh hfits.command he
  unfold writeRevision
  rw [wp_bind]
  refine wp_updateAssets (by rw [h2]; exact hasset) hid (by simp +contextual)
    (by simp [hid]) fun d3 h3 => ?_
  have hmax3 : maxRevisionSequence d3 request.revision.assetId =
      some asset.revision := by
    rw [h3, h2]
    exact hmax
  rw [if_neg (by simp), wp_bind, wp_read, hmax3]
  simp only [wp_bind]
  refine wp_write_of (Or.inl ?_) fun d4 h4 _ => ?_
  · rw [h3, h2]
    refine ⟨hfits.revision, fun x hx hkey => ?_, ⟨Nat.succ_pos _, ?_⟩, ?_⟩
    · have hle := le_maxRevisionSequence hmax hx (Prod.ext_iff.1 hkey).1
      have heq : x.sequence = asset.revision + 1 := (Prod.ext_iff.1 hkey).2
      exact Nat.not_succ_le_self _ (heq ▸ hle)
    · show asset.revision + 1 < 2 ^ 32
      exact Nat.add_lt_of_lt_sub hroom
    · exact ⟨_, mem_updateWhere.2 ⟨asset, hasset, rfl⟩, by simp [hid, revisionRow]⟩
  refine wp_insertParents (Or.inl ⟨?_, ?_, fun r hr => ?_⟩) fun d5 h5 => ?_
  · rw [h4, h3, h2]
    exact hfits.parent_edges ParentRow.ordinal
      (distinct_enumerated fun i j a b hij => (Prod.ext_iff.1 hij).2) d.consistent.parentKeys
  · rw [h4, h3, h2]
    exact hfits.parent_edges ParentRow.parentRevisionId
      (distinct_parentRows request) d.consistent.parentEdges
  · obtain ⟨i, parent, hparent, hi, rfl⟩ := mem_enumerated hr
    obtain ⟨x, hx, hxa, hxp⟩ := hfits.parents parent hparent
    rw [h4, h3, h2]
    refine ⟨⟨?_, fun h => ?_⟩, ⟨_, List.mem_concat_self, rfl⟩,
      ⟨x, List.mem_append_left _ hx, by rw [hxa, hxp]; rfl⟩⟩
    · have := request.revision.graph.parentsBounded
      exact Nat.le_of_lt_succ (Nat.lt_of_lt_of_le hi this)
    · have h : request.revision.revisionId = parent := h
      exact request.revision.graph.notOwnParent (h ▸ hparent)
  refine wp_insertRevisionGraph (Or.inl ⟨?_, ?_, ?_, ?_, ?_⟩) fun d6 h6 => ?_
  · rw [h5, h4, h3, h2]
    exact hfits.representations_distinct
  · rw [h5, h4, h3, h2]
    exact hfits.resources_distinct
  · rw [h5, h4, h3, h2]
    exact hfits.members_distinct
  · rw [h5, h4]
    exact ⟨_, List.mem_concat_self, rfl⟩
  · intro rp hrp rs hrs m hm
    have hmem : m ∈ revisionMembers request.revision.representations :=
      List.mem_flatMap.2 ⟨rp, hrp, List.mem_flatMap.2 ⟨rs, hrs, hm⟩⟩
    obtain ⟨b, hb, hdigest, -⟩ := hfits.members m hmem
    rw [h5, h4, h3, h2]
    exact ⟨b, hb, hdigest⟩
  refine wp_write_of (Or.inl ?_) fun d7 h7 _ => ?_
  · simp only [h6, h5, h4, h3, h2]
    refine ⟨hfits.event, fun x hx hseq => ?_, ⟨Nat.succ_pos _, hfits.sequences⟩,
      (fun p hp => by cases hp), ⟨_, List.mem_concat_self, rfl⟩⟩
    have hle := hevents.le hx
    rw [hseq] at hle
    exact Nat.not_succ_le_self _ hle
  refine wp_write_of (Or.inl ?_) fun d8 h8 _ => ?_
  · simp only [h7, h6, h5, h4, h3, h2]
    exact ⟨hfits.provenance, ⟨_, List.mem_concat_self, rfl⟩, ⟨_, List.mem_concat_self, rfl⟩,
      (fun k hk => by cases hk)⟩
  have hcommands : d8.commands =
      d.commands ++ [claimRow context request.binding request.operationAt] := by
    simp only [h8, h7, h6, h5, h4, h3, h2]
  refine wp_completeClaim hcommands hfits.command rfl (fun k hk => by cases hk) ?_ ?_ ?_
    fun _ _ => rfl
  · exact (valid_complete (by rw [request.operation]; rfl) (Or.inl rfl)).validate
  · simp only [h8, h7, h6, h5, h4, h3, h2]
    exact { hkeys with }
  · have hrows : ∀ t : Tables, t.assetRevisions = d8.assetRevisions →
        t.domainEvents = d8.domainEvents →
        revisionRows t request.binding.commandId request.revision.revisionId.uuid =
          [(revisionRow context request (asset.revision + 1),
            revisionCreatedEvent request (d.lastSequence + 1))] := by
      intro t hrevisions hdomain
      simp only [h8, h7, h6, h5, h4, h3, h2] at hrevisions hdomain
      exact revisionRows_concat hrevisions hdomain hfits.revision hnoEvent rfl rfl rfl rfl
    simp [replayResult, replayByKind, isCreative, CommandRow.complete, claimRow,
      request.operation, hrows, revisionCreatedEvent, revisionRow, hid, hnext, okOr, bind,
      Except.bind, pure, Except.pure]

/-- The checks of `create_revision` that a ready request passes, up to the
comparison of the asset's counter with its largest revision sequence. -/
theorem wp_createRevision (hfits : RevisionFits d request)
    (hkeys : DeferredKeys d) (hevents : EventsNumbered d)
    (hasset : asset ∈ d.assets) (hid : asset.assetId = request.revision.assetId)
    (hactive : asset.lifecycle = .active) (hroom : asset.revision < 2 ^ 32 - 1)
    (hnext : request.revision.resultingRevision = asset.revision + 1) {m : ℕ}
    (hmax : maxRevisionSequence d asset.assetId = some m) :
    wp (createRevision context request)
      (fun outcome _ => m = asset.revision ∧ outcome = .applied (.assetRevision asset.assetId
        request.revision.revisionId (asset.revision + 1) request.operationAt))
      (fun e => m ≠ asset.revision ∧ e = .storageCorruption) d := by
  have hexpected : request.revision.resultingRevision - 1 = asset.revision := by
    rw [hnext]
    exact Nat.add_sub_cancel _ _
  have hfind : d.assets.find? (fun a => decide (a.assetId = request.revision.assetId) &&
      decide (a.lifecycle = .active)) = some asset :=
    d.consistent.assetKeys.find?_of hasset (by simp [hid, hactive]) fun a ha => by
      simp only [Bool.and_eq_true, decide_eq_true_eq] at ha
      exact ha.1.trans hid.symm
  rw [hid] at hmax
  refine wp_unlessKnown hfits.command ?_
  unfold createRevisionNew
  simp only [wp_bind]
  refine wp_insertClaim hfits.command fun d1 h1 => ?_
  have hfind1 : d1.assets.find? (fun a => decide (a.assetId = request.revision.assetId) &&
      decide (a.lifecycle = .active)) = some asset := by rw [h1]; exact hfind
  have hmax1 : maxRevisionSequence d1 request.revision.assetId = some m := by
    rw [h1]
    exact hmax
  have hverdict1 : membersVerdict d1 (revisionMembers request.revision.representations) =
      .managed :=
    (membersVerdict_congr (by rw [h1]) (by rw [h1])).trans hfits.verdict
  rw [wp_read, hfind1]
  simp only [hmax1, hexpected, ne_eq, not_true_eq_false, if_false, hverdict1, wp_ite,
    wp_fail, and_true]
  refine ⟨fun h => h, fun hm => ⟨fun h => absurd hroom (Nat.not_lt.2 h), fun _ =>
    ⟨fun h => ?_, fun _ => ?_⟩⟩⟩
  · rw [h1] at h
    exact absurd h (by simpa using hfits.parents_counted)
  · obtain rfl := Decidable.not_not.1 hm
    rw [wp_bind]
    refine wp_allocateEventSequences (by decide) (fun d2 _ h2 => ?_)
      fun h => absurd (by rw [h1]; exact hfits.sequences) h
    have hlast : d1.lastSequence = d.lastSequence := by rw [h1]
    rw [hlast]
    refine wp_mono (wp_writeRevision context hfits hkeys hevents hasset hid hroom hnext hmax
      (by rw [h2, h1])) (fun _ _ h => ⟨rfl, h⟩) fun _ h => h

end Apply

/-! ## Drawing the identifiers -/

/-- The members an input asks for. -/
def inputMembers (inputs : List AssetRevisionRepresentationInput) : List RevisionMember :=
  inputs.flatMap fun input => input.resources.flatMap AssetRevisionResourceInput.members

theorem sampleResources_members {source : ValueSource} {i : ℕ}
    {inputs : List AssetRevisionResourceInput} {resources : List RevisionResource}
    (h : sampleResources source i inputs = .ok resources) :
    resources.flatMap RevisionResource.members =
      inputs.flatMap AssetRevisionResourceInput.members := by
  induction inputs generalizing i resources with
  | nil =>
    cases h
    rfl
  | cons input inputs ih =>
    obtain ⟨id, -, h⟩ := exceptBind_eq_ok.1 h
    have hnew : RevisionResource.new id input.kind input.members =
        .ok ⟨id, input.kind, input.members, input.nonempty, input.bounded⟩ :=
      dif_pos ⟨input.nonempty, input.bounded⟩
    simp only [hnew] at h
    obtain ⟨rest, hrest, h⟩ := exceptBind_eq_ok.1 h
    cases h
    rw [List.flatMap_cons, List.flatMap_cons, ih hrest]

/-- The drawn representations have the purposes and members of the input. -/
theorem sampleRepresentations_spec {source : ValueSource} {i : ℕ}
    {inputs : List AssetRevisionRepresentationInput}
    {representations : List RevisionRepresentation}
    (h : sampleRepresentations source i inputs = .ok representations) :
    representations.length = inputs.length ∧
      revisionMembers representations = inputMembers inputs := by
  induction inputs generalizing i representations with
  | nil =>
    cases h
    exact ⟨rfl, rfl⟩
  | cons input inputs ih =>
    obtain ⟨id, -, h⟩ := exceptBind_eq_ok.1 h
    obtain ⟨resources, hresources, h⟩ := exceptBind_eq_ok.1 h
    unfold RevisionRepresentation.new at h
    split_ifs at h with hnew
    obtain ⟨rest, hrest, h⟩ := exceptBind_eq_ok.1 h
    cases h
    obtain ⟨hlength, hmembers⟩ := ih hrest
    have hone := sampleResources_members hresources
    unfold revisionMembers inputMembers at hmembers ⊢
    simp only [List.length_cons, List.flatMap_cons, hone, hlength, hmembers, and_self]

theorem representations_sublist (representations : List RevisionRepresentation) :
    (representations.map fun rp => rp.id.uuid).Sublist (representationUuids representations) := by
  unfold representationUuids
  induction representations with
  | nil => exact List.Sublist.refl _
  | cons rp rest ih =>
    rw [List.map_cons, List.flatMap_cons, List.cons_append]
    exact (ih.trans (List.sublist_append_right _ _)).cons_cons _

theorem resources_sublist (representations : List RevisionRepresentation) :
    ((resourceIds representations).map Id.uuid).Sublist (representationUuids representations) := by
  unfold representationUuids resourceIds
  induction representations with
  | nil => exact List.Sublist.refl _
  | cons rp rest ih =>
    rw [List.flatMap_cons, List.flatMap_cons, List.map_append, List.map_map, List.cons_append]
    exact ((List.Sublist.refl _).append ih).cons _

/-- **What is drawn is a revision graph.** Distinct identifiers leave
nothing for the graph checks of `create_revision` to refuse. -/
theorem drawRevision_graph {request : DeferredCreateAssetRevisionCommand} {draw : RevisionDraw}
    (h : drawRevision request = .ok draw) :
    IsRevisionGraph draw.revisionId request.parentRevisionIds draw.representations ∧
      revisionMembers draw.representations = inputMembers request.representations := by
  obtain ⟨revisionId, -, h⟩ := exceptBind_eq_ok.1 h
  obtain ⟨eventId, -, h⟩ := exceptBind_eq_ok.1 h
  obtain ⟨provenanceId, -, h⟩ := exceptBind_eq_ok.1 h
  obtain ⟨representations, hdrawn, h⟩ := exceptBind_eq_ok.1 h
  simp only at h
  split_ifs at h with hnodup
  obtain ⟨at_, -, h⟩ := exceptBind_eq_ok.1 h
  obtain ⟨_, -, h⟩ := exceptBind_eq_ok.1 h
  cases h
  obtain ⟨hlength, hmembers⟩ := sampleRepresentations_spec hdrawn
  rw [List.append_assoc, List.nodup_append'] at hnodup
  obtain ⟨-, hdrawnNodup, hapart⟩ := hnodup
  have hreps := (List.nodup_append'.1 hdrawnNodup).1
  refine ⟨⟨request.parentsNonempty, request.parentsBounded, fun hnil => ?_, ?_, fun hself => ?_,
    request.parentsDistinct, ?_, ?_⟩, hmembers⟩
  · have hnil : representations = [] := hnil
    rw [hnil] at hlength
    exact request.representationsNonempty (List.length_eq_zero_iff.1 hlength.symm)
  · exact hlength ▸ request.representationsBounded
  · exact hapart (by simp : revisionId.uuid ∈ _)
      (List.mem_append_right _ (List.mem_map_of_mem hself))
  · refine List.Nodup.of_map Id.uuid ?_
    rw [List.map_map]
    exact hreps.sublist (representations_sublist representations)
  · exact List.Nodup.of_map Id.uuid (hreps.sublist (resources_sublist representations))

/-! ## The deferred command -/

/-- A `create_revision_deferred` request that should be applied: a fresh
command for an active asset at its current revision, fresh distinct
identifiers, stored parents, managed content and an event number. -/
structure RevisionReady (t : Tables) (request : DeferredCreateAssetRevisionCommand)
    (asset : AssetRow) (draw : RevisionDraw) : Prop where
  command : FreshCommand t request.binding.commandId
  stored : asset ∈ t.assets
  identity : request.assetId = asset.assetId
  active : asset.lifecycle = .active
  room : asset.revision < 2 ^ 32 - 1
  expected : request.expectedRevision = asset.revision
  drawn : drawRevision request = .ok draw
  revision : ∀ x ∈ t.assetRevisions, x.assetRevisionId ≠ draw.revisionId
  event : ∀ x ∈ t.domainEvents, x.domainEventId ≠ draw.eventId
  provenance : ∀ x ∈ t.provenanceEvents, x.provenanceEventId ≠ draw.provenanceId
  representations : ∀ rp ∈ draw.representations, ∀ x ∈ t.representations,
    x.representationId ≠ rp.id
  resources : ∀ id ∈ resourceIds draw.representations, ∀ x ∈ t.resources, x.resourceId ≠ id
  parents : ∀ parent ∈ request.parentRevisionIds, ∃ x ∈ t.assetRevisions,
    x.assetId = asset.assetId ∧ x.assetRevisionId = parent
  members : ∀ m ∈ inputMembers request.representations, ∃ b ∈ t.blobs,
    b.digest = m.blobDigest ∧ b.lifecycle = .available ∧
      ∃ l ∈ t.locations, l.blobDigest = b.digest ∧ l.isManagedCopy = true
  sequences : SequencesLeft t 1

/-- What the deferred command makes of a ready request: the revision the
asset record accepts. -/
theorem wp_createRevisionDeferred {d : Database} (context : StoreContext)
    {request : DeferredCreateAssetRevisionCommand} {asset : AssetRow} {draw : RevisionDraw}
    (h : RevisionReady d request asset draw) (hkeys : DeferredKeys d)
    (hevents : EventsNumbered d) {m : ℕ}
    (hmax : maxRevisionSequence d asset.assetId = some m) :
    wp (createRevisionDeferred context request)
      (fun outcome _ => m = asset.revision ∧ outcome = .applied (.assetRevision asset.assetId
        draw.revisionId (asset.revision + 1) draw.at_))
      (fun e => m ≠ asset.revision ∧ e = .storageCorruption) d := by
  obtain ⟨hgraph, hmembers⟩ := drawRevision_graph h.drawn
  have hsuccessor : asset.revision + 1 < 2 ^ 64 :=
    Nat.lt_trans (Nat.add_lt_of_lt_sub h.room) (by decide)
  have hfind : d.assets.find? (fun a => decide (a.assetId = request.assetId)) = some asset := by
    rw [h.identity]
    exact d.consistent.assetKeys.find?_eq h.stored
  refine wp_unlessKnown h.command ?_
  unfold createRevisionDeferredNew
  simp only [wp_bind, wp_read, wp_lift, h.drawn, Except.ok.injEq, reduceCtorEq,
    false_implies, implies_true, and_true]
  rintro _ rfl
  rw [hfind]
  simp only [AssetRecord.createRevision, h.active, h.expected, ne_eq, not_true_eq_false, or_self,
    if_false, dif_pos hgraph, dif_pos hsuccessor]
  refine wp_createRevision context ?_ hkeys hevents h.stored h.identity.symm h.active h.room rfl
    hmax
  exact { h with
    parents := fun parent hparent => h.identity ▸ h.parents parent hparent
    members := fun m hm => h.members m (hmembers ▸ hm) }

/-- The asset of `oneAsset`, and what a first revision of it draws. -/
def ingestedAsset (revision : RevisionNo) (updatedAt : Option Timestamp) : AssetRow :=
  ⟨.numbered 101, .plain, .active, revision, .epoch, 1000, updatedAt⟩

def numberedDraw : RevisionDraw where
  revisionId := .numbered 201
  eventId := .numbered 202
  provenanceId := .numbered 203
  representations := [⟨.numbered 204, .plain,
    [⟨.numbered 205, .plain, [⟨.plain, ⟨1⟩⟩], by simp, by simp⟩], by simp, by simp, by simp⟩]
  at_ := .epoch

def secondRevision (expected : RevisionNo) : DeferredCreateAssetRevisionCommand :=
  .numbered 200 (.numbered 101) expected (.numbered 102) ⟨1⟩

theorem oneAsset_ready :
    RevisionReady oneAsset (secondRevision 1) (ingestedAsset 1 none) numberedDraw where
  command := by unfold FreshCommand; decide +kernel
  stored := by decide +kernel
  identity := rfl
  active := rfl
  room := by decide
  expected := rfl
  drawn := rfl
  revision := by decide +kernel
  event := by decide +kernel
  provenance := by decide +kernel
  representations := by decide +kernel
  resources := by decide +kernel
  parents := by decide +kernel
  members := by decide +kernel
  sequences := by decide +kernel

/-- **A ready revision is applied exactly when its asset has never changed
its lifecycle**, and is answered by `StorageCorruption` otherwise. A
retirement and the restoring after it both advance the counter of the asset
without a revision row, so that from then on the counter and the largest
sequence disagree. -/
theorem ready_revision_applied_iff {allowed : Call → Prop} {d : Database}
    (hd : Reachable allowed d) (context : StoreContext)
    (request : DeferredCreateAssetRevisionCommand) (asset : AssetRow) (draw : RevisionDraw)
    (h : RevisionReady d.toTables request asset draw) :
    (((createRevisionDeferred context request).run d).1 =
        .ok (.applied (.assetRevision asset.assetId draw.revisionId (asset.revision + 1)
          draw.at_)) ↔
      lifecycleChanges d.domainEvents asset.assetId = 0) ∧
    (((createRevisionDeferred context request).run d).1 = .error .storageCorruption ↔
      lifecycleChanges d.domainEvents asset.assetId ≠ 0) := by
  obtain ⟨m, hmax, hcounter⟩ := hd.assetCounters.counters asset h.stored
  have hzero : m = asset.revision ↔ lifecycleChanges d.domainEvents asset.assetId = 0 := by
    rw [hcounter]
    exact Nat.left_eq_add
  rcases wp_run (wp_createRevisionDeferred context h hd.deferredKeys hd.eventsNumbered hmax)
    with ⟨outcome, hrun, hm, rfl⟩ | ⟨e, hrun, ⟨hm, rfl⟩, -⟩
  · simp [hrun, hzero.1 hm]
  · simpa [hrun] using fun h0 => hm (hzero.2 h0)

/-- The first revision of an ingested asset is applied. -/
theorem first_revision_applied : Reachable (fun _ => True) oneAsset ∧
    ((createRevisionDeferred firstProcess (secondRevision 1)).run oneAsset).1 =
      .ok (.applied (.assetRevision (.numbered 101) (.numbered 201) 2 .epoch)) :=
  ⟨reachable_oneAsset, ((ready_revision_applied_iff reachable_oneAsset firstProcess
    (secondRevision 1) (ingestedAsset 1 none) numberedDraw oneAsset_ready).1).2 (by decide +kernel)⟩

/-- The library after the asset was retired and restored. -/
def restoredAsset : Database :=
  afterCalls oneAsset
    [.execute (.changeAssetLifecycleDeferred (.numbered 110 (.numbered 101) 1 .retired)),
    .execute (.changeAssetLifecycleDeferred (.numbered 120 (.numbered 101) 2 .active))]

/-- **A restored asset cannot be revised again**: the request is ready, and
the answer is the corruption that stops the store. -/
theorem restored_asset_revision_corrupt : Reachable (fun _ => True) restoredAsset ∧
    RevisionReady restoredAsset.toTables (secondRevision 3) (ingestedAsset 3 (some .epoch))
      numberedDraw ∧
    ((createRevisionDeferred firstProcess (secondRevision 3)).run restoredAsset).1 =
      .error .storageCorruption := by
  refine ⟨reachable_afterCalls reachable_oneAsset fun _ _ => trivial,
    ⟨?_, ?_, rfl, rfl, ?_, rfl, rfl, ?_, ?_, ?_, ?_, ?_, ?_, ?_, ?_⟩, ?_⟩
  · unfold FreshCommand
    decide +kernel
  all_goals decide +kernel

end MengXia.Store
