import MengXia.Store.Steps
/-!
# Steps of the asset commands

The step lemmas of `MengXia.Store.Steps` for the asset commands.
-/

namespace MengXia.Store

open Common Txn

variable {allowed : Call → Prop}

/-! ## Asset commands -/

/-- An update of one asset, known to be stored. -/
theorem wp_updateAssets {d : Database} {asset : AssetRow} {id : Id .asset}
    {p : AssetRow → Bool} {f : AssetRow → AssetRow} {hf : ∀ r, (f r).assetId = r.assetId}
    {Q : ℕ → Database → Prop} {E : AssetStoreError → Prop}
    (hmem : asset ∈ d.assets) (hid : asset.assetId = id) (hp : ∀ r, p r = true → r.assetId = id)
    (hpx : p asset = true)
    (hQ : ∀ d' : Database, d'.toTables = { d.toTables with
        assets := updateWhere (fun r => r.assetId = id) f d.assets } → Q 1 d') :
    wp (updateAssets p f hf) Q E d := by
  unfold updateAssets
  simp only [wp_bind, wp_read, wp_pure]
  refine wp_write_of (Or.inl trivial) fun d' hd' _ => ?_
  rw [d.consistent.assetKeys.updateWhere_key hmem hid hp hpx rfl] at hd'
  rw [d.consistent.assetKeys.countP_eq_one hmem hpx fun r _ hr => (hp r hr).trans hid.symm]
  exact hQ d' hd'

theorem post_changeAssetLifecycle (context : StoreContext) (request : AssetLifecycleCommand)
    (d : Database) :
    post (changeAssetLifecycle context request)
      (PureStep allowed context request.binding False d) d := by
  have hpure : isExternal request.binding.operationId = false := by
    rw [request.operation]
    cases request.target <;> rfl
  refine post_unlessKnown hpure fun hfresh => ?_
  unfold changeAssetLifecycleNew
  simp only [post_bind]
  refine wp_insertClaim hfresh fun d1 h1 => ?_
  rw [post_read]
  cases hfind : d1.assets.find? fun a => a.assetId = request.assetId with
  | none => exact post_reject hpure hfresh h1 rfl
  | some asset =>
    have hmem : asset ∈ d1.assets := List.mem_of_find?_eq_some hfind
    have hid : asset.assetId = request.assetId := by simpa using List.find?_some hfind
    simp only [post_ite]
    refine ⟨fun _ => post_reject hpure hfresh h1 rfl, fun _ =>
      ⟨fun _ => post_reject hpure hfresh h1 rfl, fun hmove => ?_⟩⟩
    cases hnext : checkedNext asset.revision with
    | none => exact post_reject hpure hfresh h1 rfl
    | some next =>
      obtain ⟨hroom, rfl⟩ := checkedNext_eq_some.1 hnext
      rw [post_bind]
      refine wp_allocateEventSequences (by decide) (fun d2 _ h2 => ?_)
        fun _ => post_reject hpure hfresh h1 rfl
      rw [post_bind]
      refine wp_updateAssets (by rw [h2]; exact hmem) hid (by simp +contextual) (by simp [hid])
        fun d3 h3 => ?_
      rw [if_neg (by simp), post_bind]
      refine post_write fun d4 h4 _ => ?_
      refine post_completeClaim (by rw [h4, h3, h2, h1]) hfresh fun d5 result h5 _ hres => ?_
      refine PureStep.completed hfresh ?_ (by rw [h5]) hres
      rw [h1] at hmem
      have : Change allowed d _ :=
        Change.lifecycleChanged context request asset hfresh hmem hid
        (by simpa using hmove) hroom
      simpa only [h5, h4, h3, h2, h1] using this

theorem post_changeAssetLifecycleDeferred (context : StoreContext)
    (request : DeferredAssetLifecycleCommand) (d : Database) :
    post (changeAssetLifecycleDeferred context request)
      (PureStep allowed context request.binding False d) d := by
  have hpure : isExternal request.binding.operationId = false := by
    rw [request.operation]
    cases request.target <;> rfl
  refine post_unlessKnown hpure fun _ => ?_
  simp only [post_bind, post_lift]
  intro eventId _ at_ _ _ _
  exact post_changeAssetLifecycle context _ d

theorem post_recordLocation (context : StoreContext) (request : RecordManagedLocationCommand)
    (d : Database) :
    post (recordLocation context request) (PureStep allowed context request.binding False d) d := by
  have hpure : isExternal request.binding.operationId = false := by rw [request.operation]; rfl
  unfold recordLocation
  simp only [post_bind, post_lift]
  intro _ _ _ _
  refine post_unlessKnown hpure fun hfresh => ?_
  unfold recordLocationNew
  simp only [post_bind]
  refine wp_insertClaim hfresh fun d1 h1 => ?_
  rw [post_read]
  cases hfind : d1.blobs.find? fun b => b.digest = request.durableBlob.digest with
  | none => exact post_reject hpure hfresh h1 rfl
  | some blob =>
    have hmem : blob ∈ d1.blobs := List.mem_of_find?_eq_some hfind
    have hid : blob.digest = request.durableBlob.digest := by simpa using List.find?_some hfind
    simp only [post_ite]
    refine ⟨fun _ => trivial, fun hstored =>
      ⟨fun _ => post_reject hpure hfresh h1 rfl, fun hrevision => ?_⟩⟩
    simp only [ne_eq, not_or, Decidable.not_not] at hstored hrevision
    cases hnext : checkedNext request.expectedRevision with
    | none => exact post_reject hpure hfresh h1 rfl
    | some next =>
      obtain ⟨hroom, rfl⟩ := checkedNext_eq_some.1 hnext
      cases hat : locationAt d1 request.durableBlob with
      | some row =>
        simp only [post_ite]
        exact ⟨fun _ => post_reject hpure hfresh h1 rfl, fun _ => trivial⟩
      | none =>
        rw [post_bind]
        refine wp_allocateEventSequences (by decide) (fun d2 _ h2 => ?_)
          fun _ => post_reject hpure hfresh h1 rfl
        unfold writeLocation insertLocation updateBlobs insertEvent
        simp only [post_bind]
        refine post_write fun d3 h3 _ => ?_
        refine post_write fun d4 h4 _ => ?_
        refine post_write fun d5 h5 _ => ?_
        refine post_completeClaim (by rw [h5, h4, h3, h2, h1]) hfresh fun d6 result h6 _ hres => ?_
        refine PureStep.completed hfresh ?_ (by rw [h6]) ?_
        · rw [h1] at hmem hat
          have : Change allowed d _ :=
            Change.locationRecorded context request blob hfresh hmem hid hstored.2.1
            hstored.2.2 hat (hrevision ▸ hroom)
          simpa only [h6, h5, h4, h3, h2, h1, hrevision] using this
        · split at hres <;> cases hres
          assumption

/-! ## Asset revisions -/

section Graph

variable {d : Database} {Q : Unit → Database → Prop} {E : AssetStoreError → Prop}

/-- Parents are inserted when the edges are new and both ends are revisions
of the asset. -/
theorem wp_insertParents {rows : List ParentRow}
    (hfits : Distinct (fun r => (r.childRevisionId, r.ordinal)) (d.parents ++ rows) ∧
      Distinct (fun r => (r.childRevisionId, r.parentRevisionId)) (d.parents ++ rows) ∧
      (∀ r ∈ rows, (r.ordinal ≤ 63 ∧ r.childRevisionId ≠ r.parentRevisionId) ∧
        (∃ x ∈ d.assetRevisions, (x.assetId, x.assetRevisionId) = (r.assetId, r.childRevisionId)) ∧
        ∃ x ∈ d.assetRevisions, (x.assetId, x.assetRevisionId) = (r.assetId, r.parentRevisionId))
      ∨ E .internal)
    (hQ : ∀ d' : Database, d'.toTables = { d.toTables with parents := d.parents ++ rows } →
      Q () d') :
    wp (forEach rows insertParent) Q E d := by
  refine wp_mono (wp_forEach
    (fun done t => t.toTables = { d.toTables with parents := d.parents ++ done })
    (by simp) fun done row rest hsplit t ht => ?_) (fun _ d' hd' => hQ d' hd') fun _ h => h
  refine wp_write_of (hfits.imp_left ?_) fun d' hd' _ => ?_
  · rintro ⟨hkeys, hedges, hrows⟩
    rw [hsplit, ← List.append_assoc] at hkeys hedges
    rw [ht]
    exact ⟨hkeys.ne_of_split, hedges.ne_of_split, hrows row (by simp [hsplit])⟩
  · simp only [hd', ht, List.append_assoc]

theorem wp_insertMembers {rows : List MemberRow}
    (hfits : Distinct (fun r => (r.resourceId, r.ordinal)) (d.members ++ rows) ∧
      (∀ r ∈ rows, r.ordinal ≤ 4095 ∧ (∃ x ∈ d.resources, x.resourceId = r.resourceId) ∧
        ∃ x ∈ d.blobs, x.digest = r.blobDigest) ∨ E .internal)
    (hQ : ∀ d' : Database, d'.toTables = { d.toTables with members := d.members ++ rows } →
      Q () d') :
    wp (forEach rows insertMember) Q E d := by
  refine wp_mono (wp_forEach
    (fun done t => t.toTables = { d.toTables with members := d.members ++ done })
    (by simp) fun done row rest hsplit t ht => ?_) (fun _ d' hd' => hQ d' hd') fun _ h => h
  refine wp_write_of (hfits.imp_left ?_) fun d' hd' _ => ?_
  · rintro ⟨hkeys, hrows⟩
    rw [hsplit, ← List.append_assoc] at hkeys
    rw [ht]
    exact ⟨hkeys.ne_of_split, hrows row (by simp [hsplit])⟩
  · simp only [hd', ht, List.append_assoc]

theorem mem_enumerated {α β : Type} {row : ℕ → α → β} {items : List α} {r : β}
    (h : r ∈ enumerated row items) : ∃ i, ∃ item ∈ items, i < items.length ∧ r = row i item := by
  obtain ⟨⟨item, i⟩, hmem, rfl⟩ := List.mem_map.1 h
  have hget := List.mem_zipIdx_iff_getElem?.1 hmem
  exact ⟨i, item, List.mem_of_getElem? hget, (List.getElem?_eq_some_iff.1 hget).1, rfl⟩

/-- The resources of one representation are inserted with their members. -/
theorem wp_insertResources {rp : RevisionRepresentation}
    (hfits : Distinct ResourceRow.resourceId
        (d.resources ++ resourceRows rp) ∧
      Distinct (fun r => (r.resourceId, r.ordinal)) (d.members ++ representationMembers rp) ∧
      (∃ x ∈ d.representations, x.representationId = rp.id) ∧
      (∀ rs ∈ rp.resources, ∀ m ∈ rs.members, ∃ b ∈ d.blobs, b.digest = m.blobDigest) ∨
      E .internal)
    (hQ : ∀ d' : Database, d'.toTables = { d.toTables with
        resources := d.resources ++ resourceRows rp
        members := d.members ++ representationMembers rp } → Q () d') :
    wp (forEach rp.resources fun resource => do
      insertResource (revisionResourceRow rp resource)
      forEach (memberRows resource) insertMember) Q E d := by
  refine wp_mono (wp_forEach
    (fun done t => t.toTables = { d.toTables with
      resources := d.resources ++ done.map (revisionResourceRow rp)
      members := d.members ++ done.flatMap memberRows })
    (by simp) fun done rs rest hsplit t ht => ?_) (fun _ d' hd' => hQ d' hd') fun _ h => h
  rw [resourceRows, representationMembers, hsplit] at hfits
  rw [wp_bind]
  refine wp_write_of (hfits.imp_left ?_) fun d1 h1 _ =>
    wp_insertMembers (hfits.imp_left ?_) fun d2 h2 => ?_
  · rintro ⟨hresources, -, hrepresentation, -⟩
    rw [ht]
    rw [List.map_append, List.map_cons, ← List.append_assoc] at hresources
    exact ⟨hresources.ne_of_split, hrepresentation⟩
  · rintro ⟨-, hmembers, -, hblobs⟩
    rw [List.flatMap_append, List.flatMap_cons, ← List.append_assoc, ← List.append_assoc]
      at hmembers
    rw [h1, ht]
    refine ⟨(distinct_append.1 hmembers).1, fun r hr => ?_⟩
    obtain ⟨i, m, hm, hi, rfl⟩ := mem_enumerated hr
    exact ⟨Nat.le_of_lt_succ (Nat.lt_of_lt_of_le hi rs.bounded), ⟨_, List.mem_concat_self, rfl⟩,
      hblobs rs (by simp) m hm⟩
  · simp only [h2, h1, ht, List.append_assoc, List.map_append, List.map_cons, List.map_nil,
      List.flatMap_append, List.flatMap_cons, List.flatMap_nil, List.append_nil]

/-- The whole graph of a revision is inserted. -/
theorem wp_insertRevisionGraph {request : CreateAssetRevisionCommand}
    (hfits : Distinct RepresentationRow.representationId (d.representations ++
        request.revision.representations.map (revisionRepresentationRow request)) ∧
      Distinct ResourceRow.resourceId (d.resources ++
        request.revision.representations.flatMap resourceRows) ∧
      Distinct (fun r => (r.resourceId, r.ordinal)) (d.members ++
        request.revision.representations.flatMap representationMembers) ∧
      (∃ x ∈ d.assetRevisions, x.assetRevisionId = request.revision.revisionId) ∧
      (∀ rp ∈ request.revision.representations, ∀ rs ∈ rp.resources, ∀ m ∈ rs.members,
        ∃ b ∈ d.blobs, b.digest = m.blobDigest) ∨ E .internal)
    (hQ : ∀ d' : Database, d'.toTables = { d.toTables with
        representations := d.representations ++
          request.revision.representations.map (revisionRepresentationRow request)
        resources := d.resources ++ request.revision.representations.flatMap resourceRows
        members := d.members ++
          request.revision.representations.flatMap representationMembers } → Q () d') :
    wp (insertRevisionGraph request) Q E d := by
  refine wp_mono (wp_forEach
    (fun done t => t.toTables = { d.toTables with
      representations := d.representations ++ done.map (revisionRepresentationRow request)
      resources := d.resources ++ done.flatMap resourceRows
      members := d.members ++ done.flatMap representationMembers })
    (by simp) fun done rp rest hsplit t ht => ?_) (fun _ d' hd' => hQ d' hd') fun _ h => h
  rw [hsplit] at hfits
  rw [wp_bind]
  refine wp_write_of (hfits.imp_left ?_) fun d1 h1 _ =>
    wp_insertResources (hfits.imp_left ?_) fun d2 h2 => ?_
  · rintro ⟨hrepresentations, -, -, hrevision, -⟩
    rw [ht]
    rw [List.map_append, List.map_cons, ← List.append_assoc] at hrepresentations
    exact ⟨hrepresentations.ne_of_split, hrevision⟩
  · rintro ⟨-, hresources, hmembers, -, hblobs⟩
    rw [List.flatMap_append, List.flatMap_cons, ← List.append_assoc, ← List.append_assoc]
      at hresources hmembers
    rw [h1, ht]
    exact ⟨(distinct_append.1 hresources).1, (distinct_append.1 hmembers).1,
      ⟨_, List.mem_concat_self, rfl⟩, hblobs rp (by simp)⟩
  · simp only [h2, h1, ht, List.append_assoc, List.map_append, List.map_cons, List.map_nil,
      List.flatMap_append, List.flatMap_cons, List.flatMap_nil, List.append_nil]

end Graph

/-- The member check reads blobs and locations only. -/
theorem membersVerdict_congr {t t' : Tables} (hblobs : t.blobs = t'.blobs)
    (hlocations : t.locations = t'.locations) {members : List RevisionMember} :
    membersVerdict t members = membersVerdict t' members := by
  induction members with
  | nil => rfl
  | cons member members ih => simp only [membersVerdict, memberVerdict, hblobs, hlocations, ih]

theorem post_createRevision (context : StoreContext) (request : CreateAssetRevisionCommand)
    (d : Database) :
    post (createRevision context request) (PureStep allowed context request.binding False d) d := by
  have hpure : isExternal request.binding.operationId = false := by rw [request.operation]; rfl
  refine post_unlessKnown hpure fun hfresh => ?_
  unfold createRevisionNew
  simp only [post_bind]
  refine wp_insertClaim hfresh fun d1 h1 => ?_
  rw [post_read]
  cases hfind : d1.assets.find? fun a =>
      decide (a.assetId = request.revision.assetId) && decide (a.lifecycle = .active) with
  | none => exact post_reject hpure hfresh h1 rfl
  | some asset =>
    have hmem : asset ∈ d1.assets := List.mem_of_find?_eq_some hfind
    obtain ⟨hid, hactive⟩ : asset.assetId = request.revision.assetId ∧
        asset.lifecycle = .active := by simpa using List.find?_some hfind
    cases hmax : maxRevisionSequence d1 request.revision.assetId with
    | none => trivial
    | some maximum =>
      simp only [post_ite]
      refine ⟨fun _ => trivial, fun hmaximum =>
        ⟨fun _ => post_reject hpure hfresh h1 rfl, fun hexpected =>
        ⟨fun _ => post_reject hpure hfresh h1 rfl, fun hroom =>
        ⟨fun _ => post_reject hpure hfresh h1 rfl, fun hparents => ?_⟩⟩⟩⟩
      simp only [ne_eq, Decidable.not_not] at hmaximum hexpected
      subst hmaximum
      cases hmembers : membersVerdict d1
          (revisionMembers request.revision.representations) with
      | missing => exact post_reject hpure hfresh h1 rfl
      | corrupt => trivial
      | managed =>
        rw [post_bind]
        refine wp_allocateEventSequences (by decide) (fun d2 _ h2 => ?_)
          fun _ => post_reject hpure hfresh h1 rfl
        have hnext : request.revision.resultingRevision = asset.revision + 1 := by
          rw [hexpected]
          exact (Nat.sub_add_cancel request.revision.successor.1).symm
        unfold writeRevision
        rw [post_bind]
        refine wp_updateAssets (by rw [h2]; exact hmem) hid (by simp +contextual)
          (by simp [hid, hexpected]) fun d3 h3 => ?_
        have hmax3 : maxRevisionSequence d3 request.revision.assetId =
            some asset.revision := by
          rw [h3, h2]
          exact hmax
        rw [if_neg (by simp), post_bind, post_read, hmax3]
        simp only [post_bind]
        refine post_write fun d4 h4 _ => ?_
        refine wp_insertParents (Or.inr trivial) fun d5 h5 => ?_
        refine wp_insertRevisionGraph (Or.inr trivial) fun d6 h6 => ?_
        refine post_write fun d7 h7 _ => ?_
        refine post_write fun d8 h8 _ => ?_
        have hcommands : d8.commands =
            d.commands ++ [claimRow context request.binding request.operationAt] := by
          simp only [h8, h7, h6, h5, h4, h3, h2, h1]
        refine post_completeClaim hcommands hfresh fun d9 result h9 _ hres => ?_
        refine PureStep.completed hfresh ?_ (by rw [h9]) ?_
        · have hpar : ∀ parent ∈ request.revision.parentRevisionIds, ∃ x ∈ d.assetRevisions,
              x.assetId = request.revision.assetId ∧ x.assetRevisionId = parent := by
            intro parent hparent
            rw [h1] at hparents
            have hone := List.any_eq_false.1 (Bool.not_eq_true _ ▸ hparents) parent hparent
            have : 0 < d.assetRevisions.countP fun r =>
                decide (r.assetId = request.revision.assetId) &&
                  decide (r.assetRevisionId = parent) := by
              simp only [ne_eq, decide_not, Bool.not_eq_true, Bool.not_eq_false',
                decide_eq_true_eq] at hone
              omega
            obtain ⟨x, hx, hp⟩ := List.countP_pos_iff.1 this
            exact ⟨x, hx, by simpa using hp⟩
          have hroom : asset.revision < 2 ^ 32 - 1 := by
            rw [hexpected]
            exact Nat.not_le.1 hroom
          have hmembers : membersVerdict d
              (revisionMembers request.revision.representations) = .managed := by
            rw [← hmembers]
            exact membersVerdict_congr (by rw [h1]) (by rw [h1])
          rw [h1] at hmem hmax
          have : Change allowed d _ :=
            Change.revisionCreated context request asset hfresh hmem hid hactive hmax hnext
            hroom hpar hmembers
          simpa only [h9, h8, h7, h6, h5, h4, h3, h2, h1, hnext] using this
        · split at hres <;> cases hres
          assumption

theorem post_createRevisionDeferred (context : StoreContext)
    (request : DeferredCreateAssetRevisionCommand) (d : Database) :
    post (createRevisionDeferred context request)
      (PureStep allowed context request.binding False d) d := by
  have hpure : isExternal request.binding.operationId = false := by rw [request.operation]; rfl
  refine post_unlessKnown hpure fun hfresh => ?_
  have hreject : ∀ code at_, isPureRejectionCode code = true →
      post (insertClaim context request.binding at_)
        (fun _ => post (commitRejection request.binding code at_)
          (PureStep allowed context request.binding False d)) d :=
    fun code at_ hcode => wp_insertClaim hfresh fun d1 h1 => post_reject hpure hfresh h1 hcode
  unfold createRevisionDeferredNew
  simp only [post_bind, post_read, post_lift]
  intro draw _
  split
  · simpa only [post_bind] using hreject .notFound draw.at_ rfl
  · split
    · exact post_createRevision context _ d
    · simpa only [post_bind] using hreject .conflict draw.at_ rfl
    · simpa only [post_bind] using hreject .revisionExhausted draw.at_ rfl
    · trivial

end MengXia.Store
