import MengXia.Store.Run
/-!
# Invariants of the store

What every reachable database satisfies beyond the constraints of the
schema: events are numbered without gaps, the deferred foreign keys hold,
and the revision counter of an asset counts its revision rows and its
lifecycle changes together.
-/

namespace MengXia.Store

open Common

variable {allowed : Call → Prop}

variable {t t' : Tables} {d : Database}

/-! ## Event numbers -/

/-- The events carry the numbers from 1 to the allocator, in order. -/
def EventsNumbered (t : Tables) : Prop :=
  t.domainEvents.map EventRow.commitSequence = (List.range t.lastSequence).map (· + 1)

theorem EventsNumbered.append (h : EventsNumbered t) {e : EventRow}
    (he : e.commitSequence = t.lastSequence + 1) :
    (t.domainEvents ++ [e]).map EventRow.commitSequence =
      (List.range (t.lastSequence + 1)).map (· + 1) := by
  rw [List.map_append, h, List.range_succ, List.map_append, List.map_singleton,
    List.map_singleton, he]

theorem EventsNumbered.change (h : EventsNumbered t) (hchange : Change allowed t t') :
    EventsNumbered t' := by
  cases hchange with
  | claimed | moved | rejected | projectRevisionLeft | workRevisionLeft => exact h
  | takeReplaced =>
    unfold EventsNumbered at h ⊢
    rw [List.map_append, h, List.range_succ, List.range_succ, List.map_append, List.map_append,
      List.append_assoc]
    rfl
  | registered | revisionCreated | lifecycleChanged | locationRecorded | projectCreated
  | projectRevised | subjectCreated | workCreated | workRevised | takeCreated | takeMoved
  | takeSuperseded | takeReopened => exact h.append rfl

/-- **Events are numbered without gaps** in every reachable database. -/
theorem Reachable.eventsNumbered (h : Reachable allowed d) :
    EventsNumbered d :=
  h.induct (P := EventsNumbered) rfl fun _ _ h hchange => h.change hchange

theorem EventsNumbered.le (h : EventsNumbered t) {e : EventRow} (he : e ∈ t.domainEvents) :
    e.commitSequence ≤ t.lastSequence := by
  have hmem : e.commitSequence ∈ (List.range t.lastSequence).map (· + 1) :=
    h ▸ List.mem_map_of_mem he
  obtain ⟨i, hi, hie⟩ := List.mem_map.1 hmem
  rw [← hie]
  exact List.mem_range.1 hi

/-! ## Deferred foreign keys -/

theorem DeferredKeys.change (h : DeferredKeys t) (hchange : Change allowed t t') :
    DeferredKeys t' := by
  cases hchange with
  | claimed | moved | rejected | registered | revisionCreated | lifecycleChanged
  | locationRecorded | subjectCreated | takeCreated | takeMoved | takeReplaced | takeSuperseded
  | takeReopened => exact { h with }
  | projectCreated =>
    refine ⟨?_, ?_, h.3, h.4⟩
    · exact (h.1.append_target _).append_source ⟨_, List.mem_concat_self, rfl⟩
    · exact (h.2.append_target _).append_source ⟨_, List.mem_concat_self, rfl⟩
  | projectRevised context request project specId eventId at_ call fresh mem id room =>
    refine ⟨?_, ?_, h.3, h.4⟩
    · refine forall_mem_updateWhere (h.1.append_target _) fun r hr hp => ?_
      refine ⟨_, List.mem_concat_self, ?_⟩
      have hid : r.projectId = request.projectId := by simpa using hp
      simp [specRevisionRow, hid]
    · exact (h.2.append_source ⟨project, mem, id⟩).update_target fun _ => rfl
  | projectRevisionLeft context request project specId at_ call fresh mem id =>
    exact ⟨h.1.append_target _, h.2.append_source ⟨project, mem, id⟩, h.3, h.4⟩
  | workCreated =>
    refine ⟨h.1, h.2, ?_, ?_⟩
    · exact (h.3.append_target _).append_source ⟨_, List.mem_concat_self, rfl⟩
    · exact (h.4.append_target _).append_source ⟨_, List.mem_concat_self, rfl⟩
  | workRevised context request work revisionId eventId relationshipIds at_ call fresh mem id
  | workRevisionLeft context request work revisionId relationshipIds at_ call fresh mem id =>
    refine ⟨h.1, h.2, ?_, ?_⟩
    · refine forall_mem_updateWhere (h.3.append_target _) fun r hr hp => ?_
      refine ⟨_, List.mem_concat_self, ?_⟩
      have hid : r.workItemId = request.workItemId := by simpa using hp
      simp [workRevisionRow, hid]
    · exact (h.4.append_source ⟨work, mem, id⟩).update_target fun _ => rfl

/-- **The deferred keys hold between transactions.** -/
theorem Reachable.deferredKeys (h : Reachable allowed d) :
    DeferredKeys d := by
  refine h.induct (P := DeferredKeys) ⟨?_, ?_, ?_, ?_⟩ fun _ _ h hchange => h.change hchange
  all_goals exact fun r hr => by cases hr

/-! ## Revision counters of assets -/

/-- Whether an event retires or restores an asset. -/
def EventRow.isLifecycle (e : EventRow) : Bool :=
  e.eventType = .assetRetired || e.eventType = .assetRestored

/-- The number of lifecycle changes recorded for an asset. -/
def lifecycleChanges (events : List EventRow) (assetId : Id .asset) : ℕ :=
  events.countP fun e => e.isLifecycle && e.aggregateId = .uuid assetId.uuid

theorem lifecycleChanges_append_of_not {events added : List EventRow}
    (h : ∀ e ∈ added, e.isLifecycle = false) (assetId : Id .asset) :
    lifecycleChanges (events ++ added) assetId = lifecycleChanges events assetId := by
  unfold lifecycleChanges
  rw [List.countP_append, Nat.add_eq_left, List.countP_eq_zero]
  intro e he
  simp [h e he]

/-- `max(sequence)` over the revisions of an asset, after one more row. -/
theorem maxRevisionSequence_append {assetId : Id .asset} {m : ℕ}
    (h : maxRevisionSequence t assetId = some m) (r : AssetRevisionRow) :
    maxRevisionSequence { t with assetRevisions := t.assetRevisions ++ [r] } assetId =
      some (if r.assetId = assetId then max m r.sequence else m) := by
  unfold maxRevisionSequence at h ⊢
  rw [List.filter_append, List.map_append]
  by_cases hr : r.assetId = assetId
  · simp only [hr, decide_true, List.filter_cons_of_pos, List.filter_nil, List.map_singleton,
      if_true, max?_concat h]
  · simpa [hr] using h

theorem maxRevisionSequence_of_none {assetId : Id .asset}
    (h : ∀ r ∈ t.assetRevisions, r.assetId ≠ assetId) {r : AssetRevisionRow}
    (hr : r.assetId = assetId) :
    maxRevisionSequence { t with assetRevisions := t.assetRevisions ++ [r] } assetId =
      some r.sequence := by
  unfold maxRevisionSequence
  rw [List.filter_append, List.filter_eq_nil_iff.2 fun x hx => by simpa using h x hx]
  simp [hr]

/-- The counter of an asset counts its revision rows, of which the last has
the largest sequence, and its lifecycle changes. -/
structure AssetCounters (t : Tables) : Prop where
  lifecycleAssets : ∀ e ∈ t.domainEvents, e.isLifecycle = true →
    ∃ a ∈ t.assets, e.aggregateId = .uuid a.assetId.uuid
  counters : ∀ a ∈ t.assets, ∃ m, maxRevisionSequence t a.assetId = some m ∧
    a.revision = m + lifecycleChanges t.domainEvents a.assetId

/-- Events of other kinds leave the counters alone. -/
theorem AssetCounters.frame (h : AssetCounters t) {added : List EventRow}
    (hassets : t'.assets = t.assets) (hrevisions : t'.assetRevisions = t.assetRevisions)
    (hevents : t'.domainEvents = t.domainEvents ++ added)
    (hadded : ∀ e ∈ added, e.isLifecycle = false) : AssetCounters t' := by
  refine ⟨fun e he hlife => ?_, fun a ha => ?_⟩
  · rw [hevents] at he
    rcases List.mem_append.1 he with he | he
    · rw [hassets]
      exact h.lifecycleAssets e he hlife
    · rw [hadded e he] at hlife
      cases hlife
  · rw [hassets] at ha
    obtain ⟨m, hm, hrevision⟩ := h.counters a ha
    refine ⟨m, ?_, ?_⟩
    · unfold maxRevisionSequence at hm ⊢
      rw [hrevisions]
      exact hm
    · rw [hevents, lifecycleChanges_append_of_not hadded, hrevision]

theorem AssetCounters.registered {d' : Database} (h : AssetCounters d)
    {context : StoreContext} {request : ExternalIngestCompletion}
    (hassets : d'.assets = d.assets ++ [registeredAsset context request])
    (hrevisions : d'.assetRevisions = d.assetRevisions ++ [registeredRevision context request])
    (hevents : d'.domainEvents = d.domainEvents ++ [registeredEvent request (d.lastSequence + 1)]) :
    AssetCounters d' := by
  have hfresh : ∀ a ∈ d.assets, a.assetId ≠ request.plan.assetId := by
    have hkeys := d'.consistent.assetKeys
    rw [hassets] at hkeys
    exact (distinct_append_singleton.1 hkeys).2
  have hnot : ∀ e ∈ [registeredEvent request (d.lastSequence + 1)], e.isLifecycle = false := by
    intro e he
    rw [List.mem_singleton.1 he]
    rfl
  have hmax : ∀ assetId, maxRevisionSequence d' assetId = maxRevisionSequence
      { d.toTables with
        assetRevisions := d.assetRevisions ++ [registeredRevision context request] } assetId := by
    intro assetId
    unfold maxRevisionSequence
    rw [hrevisions]
  refine ⟨fun e he hlife => ?_, fun a ha => ?_⟩
  · rw [hevents] at he
    rcases List.mem_append.1 he with he | he
    · obtain ⟨a, ha, hid⟩ := h.lifecycleAssets e he hlife
      exact ⟨a, hassets ▸ List.mem_append_left _ ha, hid⟩
    · rw [hnot e he] at hlife
      cases hlife
  · rw [hmax, hevents, lifecycleChanges_append_of_not hnot]
    rw [hassets] at ha
    rcases List.mem_append.1 ha with ha | ha
    · obtain ⟨m, hm, hrevision⟩ := h.counters a ha
      refine ⟨m, ?_, hrevision⟩
      rw [maxRevisionSequence_append hm, if_neg]
      exact fun hid => hfresh a ha hid.symm
    · rw [List.mem_singleton.1 ha]
      refine ⟨1, maxRevisionSequence_of_none (fun r hr hid => ?_) rfl, ?_⟩
      · obtain ⟨a', ha', hid'⟩ := d.consistent.revisionAssets r hr
        exact hfresh a' ha' (hid'.trans hid)
      · have hzero : lifecycleChanges d.domainEvents request.plan.assetId = 0 := by
          refine List.countP_eq_zero.2 fun e he hp => ?_
          rw [Bool.and_eq_true, decide_eq_true_eq] at hp
          obtain ⟨a', ha', hid'⟩ := h.lifecycleAssets e he hp.1
          rw [hp.2, AggregateId.uuid.injEq] at hid'
          exact hfresh a' ha' (Id.uuid_injective hid').symm
        exact (Nat.add_eq_left.2 hzero).symm

theorem AssetCounters.revisionCreated (h : AssetCounters t) {context : StoreContext}
    {request : CreateAssetRevisionCommand} {asset : AssetRow} (mem : asset ∈ t.assets)
    (id : asset.assetId = request.revision.assetId)
    (maximum : maxRevisionSequence t request.revision.assetId = some asset.revision)
    (hassets : t'.assets = updateWhere (fun r => r.assetId = request.revision.assetId)
      (fun r => { r with
        revision := asset.revision + 1, updatedAt := some request.operationAt }) t.assets)
    (hrevisions : t'.assetRevisions =
      t.assetRevisions ++ [revisionRow context request (asset.revision + 1)])
    (hevents : t'.domainEvents =
      t.domainEvents ++ [revisionCreatedEvent request (t.lastSequence + 1)]) :
    AssetCounters t' := by
  have hnot : ∀ e ∈ [revisionCreatedEvent request (t.lastSequence + 1)],
      e.isLifecycle = false := by
    intro e he
    rw [List.mem_singleton.1 he]
    rfl
  have hmax : ∀ assetId, maxRevisionSequence t' assetId = maxRevisionSequence
      { t with assetRevisions :=
          t.assetRevisions ++ [revisionRow context request (asset.revision + 1)] } assetId := by
    intro assetId
    unfold maxRevisionSequence
    rw [hrevisions]
  refine ⟨fun e he hlife => ?_, fun a ha => ?_⟩
  · rw [hevents] at he
    rcases List.mem_append.1 he with he | he
    · obtain ⟨a, ha, hid⟩ := h.lifecycleAssets e he hlife
      rw [hassets]
      refine ⟨_, mem_updateWhere.2 ⟨a, ha, rfl⟩, ?_⟩
      split <;> exact hid
    · rw [hnot e he] at hlife
      cases hlife
  · rw [hmax, hevents, lifecycleChanges_append_of_not hnot]
    rw [hassets] at ha
    rcases mem_updateWhere_iff.1 ha with ⟨x, hx, hid, rfl⟩ | ⟨ha, hid⟩
    · rw [decide_eq_true_eq] at hid
      obtain ⟨m, hm, hrevision⟩ := h.counters asset mem
      rw [id, maximum, Option.some_inj] at hm
      rw [id, ← hm] at hrevision
      refine ⟨asset.revision + 1, ?_, ?_⟩
      · rw [hid, maxRevisionSequence_append maximum]
        exact congrArg some (Nat.max_eq_right (Nat.le_succ _) ▸ if_pos rfl)
      · rw [hid, Nat.add_eq_left.1 hrevision.symm]
    · rw [decide_eq_false_iff_not] at hid
      obtain ⟨m, hm, hrevision⟩ := h.counters a ha
      refine ⟨m, ?_, hrevision⟩
      rw [maxRevisionSequence_append hm, if_neg]
      exact fun h => hid h.symm

theorem AssetCounters.lifecycleChanged (h : AssetCounters t) {request : AssetLifecycleCommand}
    {asset : AssetRow} (mem : asset ∈ t.assets) (id : asset.assetId = request.assetId)
    (hassets : t'.assets = updateWhere (fun r => r.assetId = request.assetId)
      (fun r => { r with
        lifecycle := request.target
        revision := asset.revision + 1
        updatedAt := some request.operationAt }) t.assets)
    (hrevisions : t'.assetRevisions = t.assetRevisions)
    (hevents : t'.domainEvents = t.domainEvents ++
      [lifecycleEventRow request (asset.revision + 1) (t.lastSequence + 1)]) :
    AssetCounters t' := by
  have hlifecycle :
      (lifecycleEventRow request (asset.revision + 1) (t.lastSequence + 1)).isLifecycle = true := by
    cases htarget : request.target <;>
      simp [EventRow.isLifecycle, lifecycleEventRow, lifecycleEvent, htarget]
  have hcount : ∀ assetId, lifecycleChanges t'.domainEvents assetId =
      lifecycleChanges t.domainEvents assetId + if assetId = request.assetId then 1 else 0 := by
    intro assetId
    rw [hevents]
    unfold lifecycleChanges
    rw [List.countP_append, List.countP_singleton, hlifecycle]
    congr 1
    by_cases hid : assetId = request.assetId
    · simp [hid, lifecycleEventRow]
    · have : request.assetId.uuid ≠ assetId.uuid := fun h => hid (Id.uuid_injective h).symm
      simp [hid, this, lifecycleEventRow]
  have hmax : ∀ assetId, maxRevisionSequence t' assetId = maxRevisionSequence t assetId := by
    intro assetId
    unfold maxRevisionSequence
    rw [hrevisions]
  refine ⟨fun e he hlife => ?_, fun a ha => ?_⟩
  · rw [hassets]
    rw [hevents] at he
    rcases List.mem_append.1 he with he | he
    · obtain ⟨a, ha, hid⟩ := h.lifecycleAssets e he hlife
      refine ⟨_, mem_updateWhere.2 ⟨a, ha, rfl⟩, ?_⟩
      split <;> exact hid
    · rw [List.mem_singleton.1 he]
      refine ⟨_, mem_updateWhere.2 ⟨asset, mem, if_pos (by simpa using id)⟩, ?_⟩
      exact congrArg (fun id : Id .asset => AggregateId.uuid id.uuid) id.symm
  · rw [hmax, hcount]
    rw [hassets] at ha
    rcases mem_updateWhere_iff.1 ha with ⟨x, hx, hid, rfl⟩ | ⟨ha, hid⟩
    · rw [decide_eq_true_eq] at hid
      obtain ⟨m, hm, hrevision⟩ := h.counters asset mem
      rw [id] at hm hrevision
      refine ⟨m, hid ▸ hm, ?_⟩
      rw [hid, if_pos rfl, ← Nat.add_assoc, ← hrevision]
    · rw [decide_eq_false_iff_not] at hid
      obtain ⟨m, hm, hrevision⟩ := h.counters a ha
      exact ⟨m, hm, by rw [if_neg hid, Nat.add_zero, hrevision]⟩

/-- **The revision counter of every asset** is its largest revision
sequence plus the number of its lifecycle changes. -/
theorem Reachable.assetCounters (h : Reachable allowed d) :
    AssetCounters d := by
  refine h.induct (P := AssetCounters) ⟨fun e he => (by cases he), fun a ha => (by cases ha)⟩
    fun d d' h hchange => ?_
  generalize ht : d'.toTables = t' at hchange
  cases hchange with
  | claimed | moved | rejected | projectRevisionLeft | workRevisionLeft =>
    exact h.frame rfl rfl (List.append_nil _).symm fun e he => by cases he
  | registered =>
    rw [← ht]
    exact h.registered (by rw [ht]) (by rw [ht]) (by rw [ht])
  | revisionCreated context request asset fresh mem id active maximum =>
    exact h.revisionCreated mem id maximum rfl rfl rfl
  | lifecycleChanged context request asset fresh mem id =>
    exact h.lifecycleChanged mem id rfl rfl rfl
  | locationRecorded | projectCreated | projectRevised | subjectCreated | workCreated
  | workRevised | takeCreated | takeSuperseded | takeReopened =>
    refine h.frame rfl rfl rfl fun e he => ?_
    rw [List.mem_singleton.1 he]
    rfl
  | takeMoved context request =>
    refine h.frame rfl rfl rfl fun e he => ?_
    rw [List.mem_singleton.1 he]
    cases request.transition <;> rfl
  | takeReplaced =>
    refine h.frame rfl rfl rfl fun e he => ?_
    rcases List.mem_cons.1 he with rfl | he
    · rfl
    · rw [List.mem_singleton.1 he]
      rfl

end MengXia.Store
