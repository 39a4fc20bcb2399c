import MengXia.Store.History
/-!
# Results that stay

The result of a completed command is not stored; `replayResult` rebuilds
it from the tables whenever the command comes back. What it reads stays
while the tables grow: no later call adds an event, an edge or a provenance
record to an ended command, the rows it joins are still there under their
keys, and the counters it compares only move forward.
-/

namespace MengXia.Store

open Common

variable {result : CommandResult}

/-! ## What later calls leave to an ended command -/

namespace Grows

variable {t t' : Tables} {r : CommandRow}

theorem count_events (h : Grows t t') (hr : r ∈ t.commands) (hended : r.Ended)
    {p : EventRow → Bool} (hp : ∀ e, p e = true → e.commandId = r.commandId) :
    t'.domainEvents.countP p = t.domainEvents.countP p :=
  h.domainEvents.countP_eq fun e he =>
    Bool.eq_false_iff.2 fun hpe => he.2 r hr hended (hp e hpe).symm

theorem eventCount_eq (h : Grows t t') (hr : r ∈ t.commands) (hended : r.Ended)
    (eventType : EventType) (kind : NodeKind) (id : AggregateId) :
    eventCount t' r.commandId eventType kind id = eventCount t r.commandId eventType kind id :=
  h.count_events hr hended (by simp +contextual)

theorem eventCountAt_eq (h : Grows t t') (hr : r ∈ t.commands) (hended : r.Ended)
    (eventType : EventType) (kind : NodeKind) (id : AggregateId) (revision : RevisionNo) :
    eventCountAt t' r.commandId eventType kind id revision =
      eventCountAt t r.commandId eventType kind id revision :=
  h.count_events hr hended (by simp +contextual)

theorem takeEdgeCount_eq (h : Grows t t') (hr : r ∈ t.commands) (hended : r.Ended)
    (kind : RelationshipKind) (source target : Uuid) :
    takeEdgeCount t' r.commandId kind source target =
      takeEdgeCount t r.commandId kind source target := by
  refine h.relationships.countP_eq fun x hx => Bool.eq_false_iff.2 fun hpx => ?_
  simp only [Bool.and_eq_true, decide_eq_true_eq] at hpx
  exact hx r hr hended hpx.1.1.1.1.1.symm

theorem takeEdgeRecorded_eq (h : Grows t t') (hr : r ∈ t.commands) (hended : r.Ended)
    (primary : Uuid) (state : TakeState) (related : Option (Id .take)) :
    takeEdgeRecorded t' r primary state related = takeEdgeRecorded t r primary state related := by
  unfold takeEdgeRecorded
  simp only [h.takeEdgeCount_eq hr hended]

theorem provenance_eq (h : Grows t t') (hr : r ∈ t.commands) (hended : r.Ended)
    {p : ProvenanceRow → Bool} (hp : ∀ x, p x = true → x.commandId = r.commandId) :
    t'.provenanceEvents.countP p = t.provenanceEvents.countP p :=
  h.provenanceEvents.countP_eq fun x hx =>
    Bool.eq_false_iff.2 fun hpx => hx r hr hended (hp x hpx).symm

end Grows

/-! ## Creative results -/

variable {d d' : Database} {r : CommandRow}

section Versions

variable {α β : Type} {entity version : Entity} {V : Versioning α β (Id entity) (Id version)}
  {items items' : List α} {rows rows' : List β} {primary : Uuid} {revision sequence : ℕ}

/-- Items stay under their keys and move forward, and their versions stay. -/
structure VersionsStay (V : Versioning α β (Id entity) (Id version)) (items items' : List α)
    (rows rows' : List β) : Prop where
  ids : Distinct V.id items'
  versions : Distinct V.version rows'
  items : ∀ x ∈ items, ∃ x' ∈ items', V.id x' = V.id x ∧ V.revision x ≤ V.revision x'
  rows : ∀ y ∈ rows, y ∈ rows'

variable (h : VersionsStay V items items' rows rows')

include h

/-- **A created item stays recorded**, with the version it was created with. -/
theorem VersionsStay.created {first : Id version} {events : Uuid → ℕ}
    (hrecorded : createdRecorded V items rows primary first revision sequence events) :
    createdRecorded V items' rows' primary first revision sequence events := by
  obtain ⟨x, hx, hid, y, hy, hkeys, hvalues⟩ := exists_of_any_head?_join hrecorded
  obtain ⟨x', hx', hid', hrevision⟩ := h.items x hx
  simp only [Bool.and_eq_true, decide_eq_true_eq] at hid hkeys hvalues
  refine any_head?_join hx' (by simp [hid', hid]) (fun z hz hzid => ?_) (h.rows y hy)
    (by simp [hid', hkeys]) (fun u hu hukeys => ?_) ?_
  · refine h.ids.eq_of_mem hz hx' (Id.uuid_injective ?_)
    rw [hid', hid]
    exact of_decide_eq_true hzid
  · simp only [Bool.and_eq_true, decide_eq_true_eq] at hukeys
    exact h.versions.eq_of_mem hu (h.rows y hy) (hukeys.2.trans hkeys.2.symm)
  · simp only [Bool.and_eq_true, decide_eq_true_eq, hid']
    exact ⟨⟨hvalues.1.1.trans hrevision, hvalues.1.2⟩, hvalues.2⟩

/-- **A version stays recorded**, with its item. -/
theorem VersionsStay.revised {owner : Id entity} {events : ℕ}
    (hrecorded : revisedRecorded V items rows primary owner revision sequence events) :
    revisedRecorded V items' rows' primary owner revision sequence events := by
  obtain ⟨y, hy, hkeys, x, hx, hid, hvalues⟩ := exists_of_any_head?_join hrecorded
  obtain ⟨x', hx', hid', hrevision⟩ := h.items x hx
  simp only [Bool.and_eq_true, decide_eq_true_eq] at hid hkeys hvalues
  refine any_head?_join (h.rows y hy) (by simp [hkeys]) (fun u hu hukeys => ?_) hx'
    (by simp [hid', hid]) (fun z hz hzid => ?_) ?_
  · simp only [Bool.and_eq_true, decide_eq_true_eq] at hukeys
    exact h.versions.eq_of_mem hu (h.rows y hy) (Id.uuid_injective (hukeys.1.trans hkeys.1.symm))
  · refine h.ids.eq_of_mem hz hx' ?_
    rw [hid', hid]
    exact of_decide_eq_true hzid
  · simp only [Bool.and_eq_true, decide_eq_true_eq]
    exact ⟨⟨hvalues.1.1.trans hrevision, hvalues.1.2⟩, hvalues.2⟩

end Versions

section Creative

variable (h : Grows d d') (hr : r ∈ d.commands) (hended : r.Ended)

include h in
theorem projects_stay :
    VersionsStay projectVersions d.projects d'.projects d.specRevisions d'.specRevisions where
  ids := d'.consistent.projectKeys
  versions := d'.consistent.specKeys
  items x hx := by
    obtain ⟨x', hx', hnext⟩ := h.projects x hx
    exact ⟨x', hx', hnext.id, hnext.revision⟩
  rows _ hy := h.specRevisions.subset hy

include h in
theorem works_stay :
    VersionsStay workVersions d.workItems d'.workItems d.workRevisions d'.workRevisions where
  ids := d'.consistent.workKeys
  versions := d'.consistent.workRevisionKeys
  items x hx := by
    obtain ⟨x', hx', hnext⟩ := h.workItems x hx
    exact ⟨x', hx', hnext.id, hnext.revision⟩
  rows _ hy := h.workRevisions.subset hy

include h hr hended

variable {primary : Uuid} {revision : RevisionNo}

theorem subject_stays
    (hrecorded : creativeResultRecorded d r primary (.subject revision)) :
    creativeResultRecorded d' r primary (.subject revision) := by
  obtain ⟨s, hfind, hvalues⟩ := (Option.any_eq_true _ _).1 hrecorded
  have hmem := h.subjects.subset (List.mem_of_find?_eq_some hfind)
  have hid : s.subjectId.uuid = primary := by simpa using List.find?_some hfind
  have hfind' : d'.subjects.find? (fun s => s.subjectId.uuid = primary) = some s :=
    d'.consistent.subjectKeys.find?_of hmem (by simp [hid]) fun x hx =>
      Id.uuid_injective ((of_decide_eq_true hx).trans hid.symm)
  simp only [creativeResultRecorded, hfind', Option.any_some, h.eventCountAt_eq hr hended]
  exact hvalues

theorem take_stays {ordinal : ℕ} {state : TakeState} {asset : Id .asset}
    {related : Option (Id .take)}
    (hrecorded : creativeResultRecorded d r primary
      (.take revision ordinal state asset related)) :
    creativeResultRecorded d' r primary (.take revision ordinal state asset related) := by
  obtain ⟨event, hevent, htake⟩ := (Option.any_eq_true _ _).1 hrecorded
  rw [Bool.and_eq_true] at htake
  obtain ⟨x, hfind, hvalues⟩ := (Option.any_eq_true _ _).1 htake.1
  obtain ⟨x', hx', hnext⟩ := h.takes x (List.mem_of_find?_eq_some hfind)
  have hid : x.takeId.uuid = primary := by simpa using List.find?_some hfind
  have hfind' : d'.takes.find? (fun x => x.takeId.uuid = primary) = some x' :=
    d'.consistent.takeKeys.find?_of hx' (by simp [hnext.id, hid]) fun y hy =>
      Id.uuid_injective ((of_decide_eq_true hy).trans (by rw [hnext.id, hid]))
  simp only [Bool.and_eq_true, decide_eq_true_eq] at hvalues
  simp only [creativeResultRecorded, hevent, hfind', Option.any_some, hnext.ordinal, hnext.asset,
    hnext.id, h.eventCountAt_eq hr hended, h.takeEdgeRecorded_eq hr hended, Bool.and_eq_true,
    decide_eq_true_eq]
  exact ⟨⟨⟨hvalues.1.1, hvalues.1.2.trans hnext.revision⟩, hvalues.2⟩, htake.2⟩

theorem creativeResultRecorded_stays {payload : VersionedResultPayload}
    (hrecorded : creativeResultRecorded d r primary payload) :
    creativeResultRecorded d' r primary payload := by
  cases payload with
  | project =>
    simp only [creativeResultRecorded, h.eventCountAt_eq hr hended] at hrecorded ⊢
    exact (projects_stay h).created hrecorded
  | projectSpecRevision =>
    simp only [creativeResultRecorded, h.eventCountAt_eq hr hended] at hrecorded ⊢
    exact (projects_stay h).revised hrecorded
  | subject => exact subject_stays h hr hended hrecorded
  | workItem =>
    simp only [creativeResultRecorded, h.eventCountAt_eq hr hended] at hrecorded ⊢
    exact (works_stay h).created hrecorded
  | workRevision =>
    simp only [creativeResultRecorded, h.eventCountAt_eq hr hended] at hrecorded ⊢
    exact (works_stay h).revised hrecorded
  | take => exact take_stays h hr hended hrecorded
  | assetLifecycle => cases hrecorded

theorem replayCreativeResult_stays (hresult : replayCreativeResult d r = .ok result) :
    replayCreativeResult d' r = .ok result := by
  unfold replayCreativeResult at hresult ⊢
  split at hresult
  · obtain ⟨hcondition, hresult⟩ := requirement_eq_ok.1 hresult
    rw [if_pos ⟨hcondition.1, creativeResultRecorded_stays h hr hended hcondition.2.1,
      hcondition.2.2⟩]
    exact hresult
  · cases hresult

end Creative

/-! ## Asset results -/

/-- The rows an ingest registered, as its replay joins them. -/
structure Registration (t : Tables) (commandId : Id .command) (assetId : Uuid)
    (locationId : Id .location) (a : AssetRow) (ar : AssetRevisionRow) (rp : RepresentationRow)
    (rs : ResourceRow) (rm : MemberRow) (l : LocationRow) : Prop where
  asset : a ∈ t.assets
  assetId : a.assetId.uuid = assetId
  revision : ar ∈ t.assetRevisions
  first : ar.assetId = a.assetId ∧ ar.sequence = 1
  representation : rp ∈ t.representations
  ofRevision : rp.assetRevisionId = ar.assetRevisionId
  oneRepresentation : t.representations.countP (fun x => x.assetRevisionId = ar.assetRevisionId) = 1
  resource : rs ∈ t.resources
  ofRepresentation : rs.representationId = rp.representationId
  oneResource : t.resources.countP (fun x => x.representationId = rp.representationId) = 1
  member : rm ∈ t.members
  ofResource : rm.resourceId = rs.resourceId
  ordinal : rm.ordinal = 0
  oneMember : t.members.countP (fun x => x.resourceId = rs.resourceId) = 1
  location : l ∈ t.locations
  locationId : l.locationId = locationId
  blob : l.blobDigest = rm.blobDigest
  managed : l.isManagedCopy = true ∧ l.revision = 1
  event : eventCount t commandId .assetRegistered .asset (.uuid a.assetId.uuid) = 1
  provenance : t.provenanceEvents.countP (fun p => p.commandId = commandId &&
    p.eventType = .assetIngestedCopy && p.assetRevisionId = ar.assetRevisionId &&
    p.blobDigest = some rm.blobDigest) = 1

theorem mem_registrationRows {t : Tables} {commandId : Id .command} {assetId : Uuid}
    {locationId : Id .location} :
    result ∈ registrationRows t commandId assetId locationId ↔
      ∃ a ar rp rs rm l, Registration t commandId assetId locationId a ar rp rs rm l ∧
        result = .managedRegistration a.assetId ar.assetRevisionId rp.representationId
          rs.resourceId l.locationId rm.blobDigest := by
  simp only [registrationRows, mem_select, Bool.and_eq_true, decide_eq_true_eq]
  constructor
  · rintro ⟨a, ha, hid, ar, har, hfirst, rp, hrp, ⟨hof, hone⟩, rs, hrs, ⟨hof', hone'⟩, rm, hrm,
      ⟨⟨hof'', hordinal⟩, hone''⟩, l, hl, ⟨⟨⟨hlid, hblob⟩, hmanaged⟩, hrevision⟩, hresult⟩
    split at hresult
    · rename_i hcounts
      exact ⟨a, ar, rp, rs, rm, l, ⟨ha, hid, har, hfirst, hrp, hof, hone, hrs, hof', hone', hrm,
        hof'', hordinal, hone'', hl, hlid, hblob, ⟨hmanaged, hrevision⟩, hcounts.1, hcounts.2⟩,
        List.mem_singleton.1 hresult⟩
    · cases hresult
  · rintro ⟨a, ar, rp, rs, rm, l, h, rfl⟩
    refine ⟨a, h.asset, h.assetId, ar, h.revision, h.first, rp, h.representation,
      ⟨h.ofRevision, h.oneRepresentation⟩, rs, h.resource, ⟨h.ofRepresentation, h.oneResource⟩,
      rm, h.member, ⟨⟨h.ofResource, h.ordinal⟩, h.oneMember⟩, l, h.location,
      ⟨⟨⟨h.locationId, h.blob⟩, h.managed.1⟩, h.managed.2⟩, ?_⟩
    rw [if_pos ⟨h.event, h.provenance⟩]
    exact List.mem_singleton.2 rfl

/-- **A registration is read off one row of each table.** -/
theorem registrationRows_unique {commandId : Id .command} {assetId : Uuid}
    {locationId : Id .location} {x y : CommandResult}
    (hx : x ∈ registrationRows d commandId assetId locationId)
    (hy : y ∈ registrationRows d commandId assetId locationId) : x = y := by
  obtain ⟨a, ar, rp, rs, rm, l, h, rfl⟩ := mem_registrationRows.1 hx
  obtain ⟨a', ar', rp', rs', rm', l', h', rfl⟩ := mem_registrationRows.1 hy
  obtain rfl : a = a' := d.consistent.assetKeys.eq_of_mem h.asset h'.asset
    (Id.uuid_injective (h.assetId.trans h'.assetId.symm))
  obtain rfl : ar = ar' := d.consistent.revisionSequences.eq_of_mem h.revision h'.revision
    (Prod.ext (h.first.1.trans h'.first.1.symm) (h.first.2.trans h'.first.2.symm))
  obtain rfl : rp = rp' := eq_of_countP_eq_one h.oneRepresentation h.representation
    (decide_eq_true h.ofRevision) h'.representation (decide_eq_true h'.ofRevision)
  obtain rfl : rs = rs' := eq_of_countP_eq_one h.oneResource h.resource
    (decide_eq_true h.ofRepresentation) h'.resource (decide_eq_true h'.ofRepresentation)
  obtain rfl : rm = rm' := eq_of_countP_eq_one h.oneMember h.member
    (decide_eq_true h.ofResource) h'.member (decide_eq_true h'.ofResource)
  rw [h.locationId, h'.locationId]

section Assets

variable (h : Grows d d') (hr : r ∈ d.commands) (hended : r.Ended)

include h hr hended

theorem registrationRows_stay {assetId : Uuid} {locationId : Id .location}
    (hresult : (registrationRows d r.commandId assetId locationId).head? = some result) :
    (registrationRows d' r.commandId assetId locationId).head? = some result := by
  obtain ⟨a, ar, rp, rs, rm, l, hrows, rfl⟩ :=
    mem_registrationRows.1 (List.mem_of_mem_head? hresult)
  obtain ⟨a', ha', hnext⟩ := h.assets a hrows.asset
  have hmem : CommandResult.managedRegistration a.assetId ar.assetRevisionId rp.representationId
      rs.resourceId l.locationId rm.blobDigest ∈
        registrationRows d' r.commandId assetId locationId := by
    refine mem_registrationRows.2 ⟨a', ar, rp, rs, rm, l, { hrows with
      asset := ha'
      assetId := by rw [hnext.id, hrows.assetId]
      revision := h.assetRevisions.subset hrows.revision
      first := by rw [hnext.id]; exact hrows.first
      representation := h.representations.subset hrows.representation
      oneRepresentation := ?_
      resource := h.resources.subset hrows.resource
      oneResource := ?_
      member := h.members.subset hrows.member
      oneMember := ?_
      location := h.locations.subset hrows.location
      event := by rw [hnext.id, h.eventCount_eq hr hended, hrows.event]
      provenance := ?_ }, by rw [hnext.id]⟩
    · rw [h.representations.countP_eq fun x hx => by simp [(hx ar hrows.revision).symm]]
      exact hrows.oneRepresentation
    · rw [h.resources.countP_eq fun x hx => by simp [(hx rp hrows.representation).symm]]
      exact hrows.oneResource
    · rw [h.members.countP_eq fun x hx => by simp [(hx rs hrows.resource).symm]]
      exact hrows.oneMember
    · rw [h.provenance_eq hr hended (by simp +contextual)]
      exact hrows.provenance
  exact head?_eq_of_forall hmem fun y hy => registrationRows_unique hy hmem

/-- **A row stays with the only event of its command.** -/
theorem rowsWithEvent_stay {α : Type} {rows rows' : List α} {eventType : EventType}
    {kind : NodeKind} {id : α → AggregateId} {p : α → Bool} {x : α × EventRow}
    (hrows : ∀ y ∈ rows, y ∈ rows')
    (hone : ∀ y ∈ rows', ∀ z ∈ rows', p y = true → p z = true → y = z)
    (hx : (rowsWithEvent d r.commandId eventType kind id p rows).head? = some x) :
    (rowsWithEvent d' r.commandId eventType kind id p rows').head? = some x := by
  have hmem := List.mem_of_mem_head? hx
  simp only [rowsWithEvent, mem_select, List.mem_singleton, Bool.and_eq_true,
    decide_eq_true_eq] at hmem
  obtain ⟨y, hy, ⟨hp, hcount⟩, e, he, hevent, rfl⟩ := hmem
  have hcount' : eventCount d' r.commandId eventType kind (id y) = 1 := by
    rw [h.eventCount_eq hr hended, hcount]
  refine head?_eq_of_forall ?_ fun z hz => ?_
  · simp only [rowsWithEvent, mem_select, List.mem_singleton, Bool.and_eq_true, decide_eq_true_eq]
    exact ⟨y, hrows y hy, ⟨hp, hcount'⟩, e, h.domainEvents.subset he, hevent, rfl⟩
  · simp only [rowsWithEvent, mem_select, List.mem_singleton, Bool.and_eq_true,
      decide_eq_true_eq] at hz
    obtain ⟨y', hy', ⟨hp', -⟩, e', he', hevent', rfl⟩ := hz
    obtain rfl := hone y' hy' y (hrows y hy) hp' hp
    obtain rfl : e' = e := eq_of_countP_eq_one hcount' he' (by simp [hevent'])
      (h.domainEvents.subset he) (by simp [hevent])
    rfl

theorem replayLifecycle_stays {eventType : EventType} {resultId : Uuid}
    (hresult : replayLifecycle d r eventType resultId = .ok result) :
    replayLifecycle d' r eventType resultId = .ok result := by
  unfold replayLifecycle at hresult ⊢
  split at hresult
  · rename_i revision lifecycle hpayload
    split at hresult
    · cases hresult
    · rename_i a hfind
      obtain ⟨a', ha', hnext⟩ := h.assets a (List.mem_of_find?_eq_some hfind)
      have hid : a.assetId.uuid = resultId := by simpa using List.find?_some hfind
      have hfind' : d'.assets.find? (fun a => a.assetId.uuid = resultId) = some a' :=
        d'.consistent.assetKeys.find?_of ha' (by simp [hnext.id, hid]) fun y hy =>
          Id.uuid_injective ((of_decide_eq_true hy).trans (by rw [hnext.id, hid]))
      simp only [hfind', hnext.id] at hresult ⊢
      rw [h.count_events hr hended (by simp +contextual)]
      obtain ⟨hcondition, hresult⟩ := refusal_eq_ok.1 hresult
      rw [not_or] at hcondition
      rw [if_neg (not_or.2 ⟨fun hlt => hcondition.1 (hnext.revision.trans_lt hlt),
        hcondition.2⟩)]
      exact hresult
  · cases hresult

theorem replayByKind_stays {resultId : Uuid}
    (hresult : replayByKind d r resultId = .ok result) :
    replayByKind d' r resultId = .ok result := by
  unfold replayByKind at hresult ⊢
  split at hresult
  · exact okOr_eq_ok.2 (registrationRows_stay h hr hended (okOr_eq_ok.1 hresult))
  · obtain ⟨x, hx, hresult⟩ := exceptBind_eq_ok.1 hresult
    refine exceptBind_eq_ok.2 ⟨x, okOr_eq_ok.2 (rowsWithEvent_stay h hr hended
      (fun _ => h.assetRevisions.subset) (fun y hy z hz hpy hpz => ?_) (okOr_eq_ok.1 hx)), hresult⟩
    exact d'.consistent.revisionKeys.eq_of_mem hy hz
      (Id.uuid_injective ((of_decide_eq_true hpy).trans (of_decide_eq_true hpz).symm))
  · obtain ⟨x, hx, hresult⟩ := exceptBind_eq_ok.1 hresult
    refine exceptBind_eq_ok.2 ⟨x, okOr_eq_ok.2 (rowsWithEvent_stay h hr hended
      (fun _ => h.locations.subset) (fun y hy z hz hpy hpz => ?_) (okOr_eq_ok.1 hx)), hresult⟩
    simp only [Bool.and_eq_true, decide_eq_true_eq] at hpy hpz
    exact d'.consistent.locationKeys.eq_of_mem hy hz
      (Id.uuid_injective (hpy.1.trans hpz.1.symm))
  · cases hresult

/-- **The result of an ended command stays.** -/
theorem replayResult_stays (hresult : replayResult d r = .ok result) :
    replayResult d' r = .ok result := by
  unfold replayResult at hresult ⊢
  by_cases hcreative : isCreative r.operationId = true
  · rw [if_pos hcreative] at hresult ⊢
    exact replayCreativeResult_stays h hr hended hresult
  · rw [if_neg hcreative] at hresult ⊢
    split at hresult
    · cases hresult
    · split at hresult
      · exact replayLifecycle_stays h hr hended hresult
      · exact replayLifecycle_stays h hr hended hresult
      · exact replayByKind_stays h hr hended hresult

theorem replayExternalResult_stays (hresult : replayExternalResult d r = .ok result) :
    replayExternalResult d' r = .ok result := by
  unfold replayExternalResult at hresult ⊢
  cases hreplay : replayResult d r with
  | error e => rw [hreplay] at hresult; cases hresult
  | ok stored =>
    rw [hreplay] at hresult
    rw [replayResult_stays h hr hended hreplay]
    exact hresult

end Assets

/-! ## Materializations -/

/-- **The member a materialization named stays**, with its content. -/
theorem materializedMembers_stay {command : MaterializationCommandBinding}
    (h : Grows d d') {x : Digest × ℕ}
    (hx : (materializedMembers d command).head? = some x) :
    (materializedMembers d' command).head? = some x := by
  have hmem := List.mem_of_mem_head? hx
  simp only [materializedMembers, mem_select, List.mem_singleton, Bool.and_eq_true,
    decide_eq_true_eq] at hmem
  obtain ⟨a, ha, hid, ar, har, hrevision, rp, hrp, hrepresentation, rs, hrs, hresource, rm, hrm,
    hmember, b, hb, hblob, rfl⟩ := hmem
  obtain ⟨a', ha', hnext⟩ := h.assets a ha
  obtain ⟨b', hb', hnext'⟩ := h.blobs b hb
  refine head?_eq_of_forall ?_ fun y hy => ?_
  · simp only [materializedMembers, mem_select, List.mem_singleton, Bool.and_eq_true,
      decide_eq_true_eq]
    refine ⟨a', ha', by rw [hnext.id, hid], ar, h.assetRevisions.subset har,
      by rw [hnext.id]; exact hrevision, rp, h.representations.subset hrp, hrepresentation, rs,
      h.resources.subset hrs, hresource, rm, h.members.subset hrm, hmember, b', hb', ?_, ?_⟩
    · rw [hnext'.digest, hnext'.lifecycle]
      exact hblob
    · rw [hnext'.length]
  · simp only [materializedMembers, mem_select, List.mem_singleton, Bool.and_eq_true,
      decide_eq_true_eq] at hy
    obtain ⟨_, -, -, _, -, -, _, -, -, rs', -, hresource', rm', hrm', hmember', c, hc, hcontent,
      rfl⟩ := hy
    obtain rfl : rm' = rm := by
      refine d'.consistent.memberKeys.eq_of_mem hrm' (h.members.subset hrm) (Prod.ext ?_ ?_)
      · exact hmember'.1.trans (hresource'.2.trans (hmember.1.trans hresource.2).symm)
      · exact hmember'.2.trans hmember.2.symm
    obtain rfl : c = b' := by
      refine d'.consistent.blobKeys.eq_of_mem hc hb' ?_
      rw [hcontent.1, hnext'.digest, hblob.1]
    rw [hnext'.length]

theorem replayMaterialization_stays {command : MaterializationCommandBinding}
    {result : MaterializationResult} (h : Grows d d')
    (hresult : replayMaterialization d r command = .ok result) :
    replayMaterialization d' r command = .ok result := by
  unfold replayMaterialization at hresult ⊢
  obtain ⟨hrow, hresult⟩ := requirement_eq_ok.1 hresult
  rw [if_pos hrow]
  cases hmember : (materializedMembers d command).head? with
  | none => rw [hmember] at hresult; cases hresult
  | some x =>
    rw [hmember] at hresult
    rw [materializedMembers_stay h hmember]
    exact hresult

end MengXia.Store
