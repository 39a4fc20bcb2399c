import MengXia.Store.AssetQuery
import MengXia.Store.History
/-!
# The graphs of asset revisions

What the queries rely on and the commands of the store keep: a revision has
one to 64 representations, each of them one to 64 resources, each of these
at least one member, numbered from zero; every blob has a location; and
every asset was registered by one event of one completed ingest. The rows
below a revision, once written, are never added to (`Grows`).
-/

namespace MengXia.Store

open Common

variable {allowed : Call → Prop}

variable {d d' : Database} {α : Type}

/-! ## The graph of a revision -/

/-- The number of rows an owner may have. -/
def OneTo64 {α : Type} (rows : List α) : Prop :=
  1 ≤ rows.length ∧ rows.length ≤ 64

/-- Rows numbered from zero, as they were written. -/
def NumberedFromZero {α : Type} (ordinal : α → ℕ) (rows : List α) : Prop :=
  rows.map ordinal = List.range rows.length

def IsMemberList (rows : List MemberRow) : Prop :=
  rows ≠ [] ∧ NumberedFromZero MemberRow.ordinal rows

def IsParentList (rows : List ParentRow) : Prop :=
  rows.length ≤ 64 ∧ NumberedFromZero ParentRow.ordinal rows

/-- The rows below every revision. -/
structure AssetGraph (t : Tables) : Prop where
  managed : ∀ ar ∈ t.assetRevisions, ar.custody = .managed
  representations : ∀ ar ∈ t.assetRevisions,
    OneTo64 (t.representations.filter fun r => r.assetRevisionId = ar.assetRevisionId)
  resources : ∀ rp ∈ t.representations,
    OneTo64 (t.resources.filter fun r => r.representationId = rp.representationId)
  members : ∀ rs ∈ t.resources,
    IsMemberList (t.members.filter fun r => r.resourceId = rs.resourceId)
  parents : ∀ ar ∈ t.assetRevisions,
    IsParentList (t.parents.filter fun r => r.childRevisionId = ar.assetRevisionId)

theorem numberedFromZero_enumerated {β : Type} {row : ℕ → α → β} {ordinal : β → ℕ}
    (hrow : ∀ i a, ordinal (row i a) = i) (items : List α) :
    NumberedFromZero ordinal (enumerated row items) := by
  unfold NumberedFromZero enumerated
  rw [List.map_map]
  refine List.ext_getElem (by simp) fun i hi hi' => ?_
  simp [hrow]

theorem parents_refer (d : Database) : Refers ParentRow.childRevisionId d.parents
    AssetRevisionRow.assetRevisionId d.assetRevisions := by
  intro p hp
  obtain ⟨ar, har, hkey⟩ := d.consistent.parentChildren p hp
  exact ⟨ar, har, congrArg Prod.snd hkey⟩

theorem oneTo64_singleton {x : α} : OneTo64 [x] :=
  ⟨le_rfl, (by decide : 1 ≤ 64)⟩

theorem oneTo64_map {β : Type} {f : α → β} {items : List α} (hne : items ≠ [])
    (hle : items.length ≤ 64) : OneTo64 (items.map f) := by
  unfold OneTo64
  rw [List.length_map]
  exact ⟨List.length_pos_of_ne_nil hne, hle⟩

section Revision

variable {revisionId : Id .assetRevision} {parents : List (Id .assetRevision)}
  {representations : List RevisionRepresentation}
  (hgraph : IsRevisionGraph revisionId parents representations) {rp : RevisionRepresentation}
  (hrp : rp ∈ representations)

include hgraph hrp

/-- The resource rows of one representation among those of its revision. -/
theorem revisionResources_of :
    (representations.flatMap resourceRows).filter
      (fun r => decide (r.representationId = rp.id)) = resourceRows rp := by
  refine filter_flatMap_owner hgraph.representationsDistinct (fun o _ r hr => ?_) hrp
  obtain ⟨rs, -, rfl⟩ := List.mem_map.1 hr
  rfl

/-- The member rows of one resource among those of its revision. -/
theorem revisionMembers_of {rs : RevisionResource} (hrs : rs ∈ rp.resources) :
    (representations.flatMap representationMembers).filter
      (fun r => decide (r.resourceId = rs.id)) = memberRows rs := by
  have hdistinct : Distinct RevisionResource.id
      (representations.flatMap RevisionRepresentation.resources) := by
    unfold Distinct
    rw [List.map_flatMap]
    exact hgraph.resourcesDistinct
  rw [← List.flatMap_assoc]
  refine filter_flatMap_owner hdistinct (fun o _ r hr => ?_)
    (List.mem_flatMap.2 ⟨rp, hrp, hrs⟩)
  obtain ⟨_, -, rfl⟩ := List.mem_map.1 hr
  rfl

end Revision

theorem AssetGraph.change (h : AssetGraph d)
    (hchange : Change allowed d d') : AssetGraph d' := by
  have hrevisions := d'.consistent.revisionKeys
  have hrepresentations := d'.consistent.representationKeys
  have hresources := d'.consistent.resourceKeys
  generalize d'.toTables = t' at hchange hrevisions hrepresentations hresources
  cases hchange with
  | registered context request blobs locations location r mem id operation claimed persisted =>
    refine ⟨forall_mem_append_singleton h.managed rfl, ?_, ?_, ?_, ?_⟩
    · exact forall_owner_concat h.representations d.consistent.representationRevisions hrevisions
        rfl oneTo64_singleton
    · exact forall_owner_concat h.resources d.consistent.resourceRepresentations hrepresentations
        rfl oneTo64_singleton
    · exact forall_owner_concat h.members d.consistent.memberResources hresources rfl
        ⟨List.cons_ne_nil _ _, rfl⟩
    · have hall := forall_owner_append h.parents (parents_refer d) hrevisions
        (fun _ hr => absurd hr List.not_mem_nil) fun _ _ => ⟨Nat.zero_le 64, rfl⟩
      rwa [List.append_nil] at hall
  | revisionCreated context request asset fresh mem id active maximum next room parents members =>
    have hgraph := request.revision.graph
    refine ⟨forall_mem_append_singleton h.managed rfl, ?_, ?_, ?_, ?_⟩
    · refine forall_owner_append h.representations d.consistent.representationRevisions hrevisions
        (fun r hr => ?_) fun ar har => ?_
      · obtain ⟨rp, -, rfl⟩ := List.mem_map.1 hr
        exact ⟨_, List.mem_singleton_self _, rfl⟩
      · rw [List.mem_singleton.1 har, List.filter_eq_self.2 fun r hr => ?_]
        · exact oneTo64_map hgraph.representationsNonempty hgraph.representationsBounded
        · obtain ⟨rp, -, rfl⟩ := List.mem_map.1 hr
          simp [revisionRepresentationRow, revisionRow]
    · refine forall_owner_append h.resources d.consistent.resourceRepresentations hrepresentations
        (fun r hr => ?_) fun row hrow => ?_
      · obtain ⟨rp, hrp, hr⟩ := List.mem_flatMap.1 hr
        obtain ⟨rs, -, rfl⟩ := List.mem_map.1 hr
        exact ⟨_, List.mem_map_of_mem hrp, rfl⟩
      · obtain ⟨rp, hrp, rfl⟩ := List.mem_map.1 hrow
        refine (congrArg OneTo64 (revisionResources_of hgraph hrp)).mpr ?_
        exact oneTo64_map rp.nonempty rp.bounded
    · refine forall_owner_append h.members d.consistent.memberResources hresources
        (fun r hr => ?_) fun row hrow => ?_
      · obtain ⟨rp, hrp, hr⟩ := List.mem_flatMap.1 hr
        obtain ⟨rs, hrs, hr⟩ := List.mem_flatMap.1 hr
        obtain ⟨_, -, rfl⟩ := List.mem_map.1 hr
        exact ⟨_, List.mem_flatMap.2 ⟨rp, hrp, List.mem_map_of_mem hrs⟩, rfl⟩
      · obtain ⟨rp, hrp, hrow⟩ := List.mem_flatMap.1 hrow
        obtain ⟨rs, hrs, rfl⟩ := List.mem_map.1 hrow
        refine (congrArg IsMemberList (revisionMembers_of hgraph hrp hrs)).mpr ?_
        refine ⟨fun hnil => rs.nonempty ?_, numberedFromZero_enumerated (fun _ _ => rfl) _⟩
        simpa [enumerated] using hnil
    · refine forall_owner_append h.parents (parents_refer d) hrevisions (fun r hr => ?_)
        fun ar har => ?_
      · obtain ⟨_, -, rfl⟩ := List.mem_map.1 hr
        exact ⟨_, List.mem_singleton_self _, rfl⟩
      · rw [List.mem_singleton.1 har, List.filter_eq_self.2 fun r hr => ?_]
        · refine ⟨?_, numberedFromZero_enumerated (fun _ _ => rfl) _⟩
          simpa [enumerated] using hgraph.parentsBounded
        · obtain ⟨_, -, rfl⟩ := List.mem_map.1 hr
          simp [revisionParentRow, revisionRow]
  | _ => exact { h with }

/-- **Every revision has the graph it was created with.** -/
theorem Reachable.assetGraph (h : Reachable allowed d) : AssetGraph d :=
  h.induct (P := AssetGraph) (by constructor <;> exact fun _ h => by cases h)
    fun _ _ h hchange => h.change hchange

/-! ## Stored content -/

/-- Every blob has a location. -/
def BlobsStored (t : Tables) : Prop :=
  Refers BlobRow.digest t.blobs LocationRow.blobDigest t.locations

theorem BlobsStored.change (h : BlobsStored d) (hcustody : Custody d)
    (hchange : Change allowed d d') :
    BlobsStored d' := by
  generalize d'.toTables = t' at hchange
  cases hchange with
  | registered context request blobs locations location r mem id operation claimed persisted =>
    have hold : ∀ l ∈ d.locations, l ∈ locations := by
      intro l hl
      rcases persisted.locations with ⟨-, -, -, -, -, -, rfl⟩ | ⟨-, -, rfl⟩
      · exact hl
      · exact List.mem_append_left _ hl
    have hnew : ∃ l ∈ locations, l.blobDigest = request.durableBlob.digest := by
      rcases persisted.locations with ⟨l, hl, -, hlocator, -, -, rfl⟩ | ⟨-, -, rfl⟩
      · exact ⟨l, hl, (hcustody.locations l hl).2.2 ▸ hlocator⟩
      · exact ⟨_, List.mem_append_right _ (List.mem_singleton_self _), rfl⟩
    intro b hb
    rcases persisted.blobs with ⟨-, -, -, -, -, -, rfl⟩ | ⟨-, rfl⟩
    · obtain ⟨l, hl, hdigest⟩ := h b hb
      exact ⟨l, hold l hl, hdigest⟩
    · rcases List.mem_append.1 hb with hb | hb
      · obtain ⟨l, hl, hdigest⟩ := h b hb
        exact ⟨l, hold l hl, hdigest⟩
      · rw [List.mem_singleton.1 hb]
        exact hnew
  | locationRecorded context request blob fresh mem id available =>
    intro b hb
    obtain ⟨b₀, hb₀, rfl⟩ := mem_updateWhere.1 hb
    obtain ⟨l, hl, hdigest⟩ := h b₀ hb₀
    refine ⟨l, List.mem_append_left _ hl, hdigest.trans ?_⟩
    split <;> rfl
  | _ => exact h

theorem Reachable.blobsStored (h : Reachable allowed d) :
    BlobsStored d := by
  have hboth := h.induct (P := fun t => Custody t ∧ BlobsStored t)
    ⟨⟨fun _ hb => (by cases hb), fun _ hl => by cases hl⟩, fun _ hb => by cases hb⟩
    fun _ _ h hchange => ⟨h.1.change hchange, h.2.change h.1 hchange⟩
  exact hboth.2

/-! ## Registered assets -/

/-- An event that registers an asset, as `read_registered_asset` finds it. -/
structure RegistrationOf (t : Tables) (e : EventRow) (a : AssetRow) : Prop where
  kind : e.aggregateKind = .asset
  id : e.aggregateId = .uuid a.assetId.uuid
  revision : e.aggregateRevision = some 1
  created : a.createdAt = e.occurredAt
  command : ∃ c ∈ t.commands, AssetQuery.isRegisteringCommand e.commandId a.assetId.uuid c = true

/-- Every asset was registered by one event of one completed ingest. -/
structure AssetRegistry (t : Tables) : Prop where
  events : ∀ e ∈ t.domainEvents, e.isRegistration = true → ∃ a ∈ t.assets, RegistrationOf t e a
  once : Distinct EventRow.aggregateId (t.domainEvents.filter (·.isRegistration))
  assets : ∀ a ∈ t.assets, 1 ≤ a.revision ∧
    ∃ e ∈ t.domainEvents, e.isRegistration = true ∧ e.aggregateId = .uuid a.assetId.uuid

theorem isRegisteringCommand_row {commandId : Id .command} {asset : Uuid} {c : CommandRow}
    (h : AssetQuery.isRegisteringCommand commandId asset c = true) :
    c.commandId = commandId ∧ c.state = .completed ∧ c.resultId = some asset := by
  unfold AssetQuery.isRegisteringCommand at h
  simp only [Bool.and_eq_true, decide_eq_true_eq] at h
  exact ⟨h.1.1.1.1.1.1, h.1.1.1.1.2, h.1.1.2⟩

/-- Other events, and updates of assets, leave the registrations alone. -/
theorem AssetRegistry.frame {t t' : Tables} (h : AssetRegistry t) {added : List EventRow}
    (hevents : t'.domainEvents = t.domainEvents ++ added)
    (hnone : ∀ e ∈ added, e.isRegistration = false)
    (hcommands : ∀ c ∈ t.commands, c.state = .completed → c ∈ t'.commands) {f : AssetRow → AssetRow}
    (hassets : t'.assets = t.assets.map f)
    (hf : ∀ a ∈ t.assets, (f a).assetId = a.assetId ∧ (f a).createdAt = a.createdAt ∧
      1 ≤ (f a).revision) : AssetRegistry t' := by
  have hfilter : t'.domainEvents.filter (·.isRegistration) =
      t.domainEvents.filter (·.isRegistration) := by
    have hadded : added.filter (·.isRegistration) = [] :=
      List.filter_eq_nil_iff.2 fun e he => by simp [hnone e he]
    rw [hevents, List.filter_append, hadded, List.append_nil]
  refine ⟨fun e he hreg => ?_, hfilter ▸ h.once, fun a' ha' => ?_⟩
  · have hold : e ∈ t.domainEvents := by
      have : e ∈ t'.domainEvents.filter (·.isRegistration) := List.mem_filter.2 ⟨he, hreg⟩
      rw [hfilter] at this
      exact (List.mem_filter.1 this).1
    obtain ⟨a, ha, hregistered⟩ := h.events e hold hreg
    obtain ⟨hid, hcreated, -⟩ := hf a ha
    obtain ⟨c, hc, hcommand⟩ := hregistered.command
    exact ⟨f a, hassets ▸ List.mem_map_of_mem ha, hregistered.kind, hid ▸ hregistered.id,
      hregistered.revision, hcreated.trans hregistered.created, c,
      hcommands c hc (isRegisteringCommand_row hcommand).2.1, hid ▸ hcommand⟩
  · rw [hassets] at ha'
    obtain ⟨a, ha, rfl⟩ := List.mem_map.1 ha'
    obtain ⟨hid, -, hrevision⟩ := hf a ha
    obtain ⟨-, e, he, hreg, haggregate⟩ := h.assets a ha
    exact ⟨hrevision, e, hevents ▸ List.mem_append_left _ he, hreg, hid ▸ haggregate⟩

/-- A claimed command has no error yet. -/
theorem claimed_safeErrorCode (d : Database) {r : CommandRow} (hr : r ∈ d.commands)
    (hclaimed : r.state = .claimed) : r.safeErrorCode = none := by
  have hshape := d.consistent.commandShapes r hr
  unfold CommandRow.shapeOk at hshape
  simp only [hclaimed, Bool.and_eq_true, Option.isNone_iff_eq_none] at hshape
  exact hshape.2

/-- A completed ingest registers its asset. -/
theorem AssetRegistry.registered (h : AssetRegistry d) {context : StoreContext}
    {request : ExternalIngestCompletion} {r : CommandRow} {location : Id .location} {n : ℕ}
    (mem : r ∈ d.commands) (id : r.commandId = request.binding.commandId)
    (operation : r.operationId = .assetIngest) (claimed : r.state = .claimed)
    (hassets : d'.assets = d.assets ++ [registeredAsset context request])
    (hevents : d'.domainEvents = d.domainEvents ++ [registeredEvent request n])
    (hcommands : d'.commands = updateWhere (fun x => x.commandId = r.commandId)
      (fun _ => registeredCommand request location r) d.commands) : AssetRegistry d' := by
  have hfresh : ∀ a ∈ d.assets, a.assetId ≠ request.plan.assetId := by
    have hkeys := d'.consistent.assetKeys
    rw [hassets] at hkeys
    exact (distinct_append_singleton.1 hkeys).2
  have hnot : r.state ≠ .completed := by simp [claimed]
  refine ⟨fun e he hreg => ?_, ?_, fun a ha => ?_⟩
  · rw [hevents] at he
    rcases List.mem_append.1 he with he | he
    · obtain ⟨a, ha, hregistered⟩ := h.events e he hreg
      obtain ⟨c, hc, hcommand⟩ := hregistered.command
      refine ⟨a, hassets ▸ List.mem_append_left _ ha, hregistered.kind, hregistered.id,
        hregistered.revision, hregistered.created, c, ?_, hcommand⟩
      rw [hcommands]
      exact mem_updateWhere_completed d.consistent.commandKeys mem hc
        (isRegisteringCommand_row hcommand).2.1 hnot
    · rw [List.mem_singleton.1 he]
      refine ⟨_, hassets ▸ List.mem_append_right _ (List.mem_singleton_self _), rfl, rfl, rfl, rfl,
        registeredCommand request location r, ?_, ?_⟩
      · rw [hcommands]
        exact mem_updateWhere.2 ⟨r, mem, by simp⟩
      · have hcode := claimed_safeErrorCode d mem claimed
        simp [AssetQuery.isRegisteringCommand, CommandRow.complete, registeredEvent,
          registeredAsset, id, operation, hcode]
  · rw [hevents, List.filter_append, List.filter_cons_of_pos (by rfl), List.filter_nil]
    refine h.once.append fun e he hid => ?_
    obtain ⟨he, hreg⟩ := List.mem_filter.1 he
    obtain ⟨a, ha, hregistered⟩ := h.events e he hreg
    have huuid : AggregateId.uuid a.assetId.uuid = .uuid request.plan.assetId.uuid :=
      hregistered.id.symm.trans hid
    exact hfresh a ha (Id.uuid_injective (AggregateId.uuid.inj huuid))
  · rw [hassets] at ha
    rw [hevents]
    rcases List.mem_append.1 ha with ha | ha
    · obtain ⟨hrevision, e, he, hreg, haggregate⟩ := h.assets a ha
      exact ⟨hrevision, e, List.mem_append_left _ he, hreg, haggregate⟩
    · rw [List.mem_singleton.1 ha]
      exact ⟨le_rfl, _, List.mem_append_right _ (List.mem_singleton_self _), rfl, rfl⟩

theorem AssetRegistry.change (h : AssetRegistry d)
    (hchange : Change allowed d d') : AssetRegistry d' := by
  have hsame : ∀ a ∈ d.assets, a.assetId = a.assetId ∧ a.createdAt = a.createdAt ∧
      1 ≤ a.revision := fun a ha => ⟨rfl, rfl, (h.assets a ha).1⟩
  generalize ht : d'.toTables = t' at hchange
  cases hchange with
  | claimed | rejected | projectRevisionLeft | workRevisionLeft =>
    exact h.frame (List.append_nil _).symm (by simp) (fun c hc _ => List.mem_append_left _ hc)
      (List.map_id _).symm hsame
  | moved r r' mem external move =>
    exact h.frame (List.append_nil _).symm (by simp) (fun c hc hstate =>
      mem_updateWhere_completed d.consistent.commandKeys mem hc hstate move.not_completed)
      (List.map_id _).symm hsame
  | registered context request blobs locations location r mem id operation claimed persisted =>
    rw [← ht]
    exact h.registered mem id operation claimed (by rw [ht]) (by rw [ht]) (by rw [ht])
  | revisionCreated =>
    refine h.frame rfl (fun e he => ?_) (fun c hc _ => List.mem_append_left _ hc) rfl
      fun a ha => ?_
    · rw [List.mem_singleton.1 he]
      rfl
    · split
      · exact ⟨rfl, rfl, Nat.succ_pos _⟩
      · exact hsame a ha
  | lifecycleChanged context request =>
    refine h.frame rfl (fun e he => ?_) (fun c hc _ => List.mem_append_left _ hc) rfl
      fun a ha => ?_
    · rw [List.mem_singleton.1 he]
      unfold EventRow.isRegistration lifecycleEventRow lifecycleEvent
      cases request.target <;> rfl
    · split
      · exact ⟨rfl, rfl, Nat.succ_pos _⟩
      · exact hsame a ha
  | takeMoved context request =>
    refine h.frame rfl (fun e he => ?_) (fun c hc _ => List.mem_append_left _ hc)
      (List.map_id _).symm hsame
    rw [List.mem_singleton.1 he]
    unfold EventRow.isRegistration domainEventRow transitionEvent
    cases request.transition <;> rfl
  | takeReplaced =>
    refine h.frame rfl (fun e he => ?_) (fun c hc _ => List.mem_append_left _ hc)
      (List.map_id _).symm hsame
    rcases List.mem_pair.1 he with rfl | rfl <;> rfl
  | locationRecorded | projectCreated | projectRevised | subjectCreated | workCreated
  | workRevised | takeCreated | takeSuperseded | takeReopened =>
    refine h.frame rfl (fun e he => ?_) (fun c hc _ => List.mem_append_left _ hc)
      (List.map_id _).symm hsame
    rw [List.mem_singleton.1 he]
    rfl

/-- **Every asset was registered once.** -/
theorem Reachable.assetRegistry (h : Reachable allowed d) :
    AssetRegistry d :=
  h.induct (P := AssetRegistry)
    ⟨fun _ he => (by cases he), Distinct.nil _, fun _ ha => by cases ha⟩
    fun _ _ h hchange => h.change hchange

/-- **Every completed ingest is registered once**, for its row names the asset. -/
theorem Reachable.registrations (h : Reachable allowed d) : Registrations d := by
  have hregistry := h.assetRegistry
  have hrow : ∀ e ∈ d.domainEvents, e.isRegistration = true → e.aggregateKind = .asset ∧
      ∃ c ∈ d.commands, c.commandId = e.commandId ∧ c.state = .completed ∧
        ∃ id, c.resultId = some id ∧ e.aggregateId = .uuid id := by
    intro e he hreg
    obtain ⟨a, -, ha⟩ := hregistry.events e he hreg
    obtain ⟨c, hc, hcommand⟩ := ha.command
    obtain ⟨hid, hstate, hasset⟩ := isRegisteringCommand_row hcommand
    exact ⟨ha.kind, c, hc, hid, hstate, _, hasset, ha.id⟩
  refine ⟨List.Nodup.map_on (fun e he e' he' hsame => ?_) hregistry.once.of_map,
    fun e he hreg => ?_⟩
  · obtain ⟨-, c, hc, hid, -, id, hasset, haggregate⟩ :=
      hrow e (List.mem_filter.1 he).1 (List.mem_filter.1 he).2
    obtain ⟨-, c', hc', hid', -, id', hasset', haggregate'⟩ :=
      hrow e' (List.mem_filter.1 he').1 (List.mem_filter.1 he').2
    obtain rfl := d.consistent.commandKeys.eq_of_mem hc hc' (hid.trans (hsame.trans hid'.symm))
    obtain rfl := Option.some_inj.1 (hasset.symm.trans hasset')
    exact hregistry.once.eq_of_mem he he' (haggregate.trans haggregate'.symm)
  · obtain ⟨hkind, c, hc, hid, hstate, -⟩ := hrow e he hreg
    exact ⟨hkind, c, hc, hid, hstate⟩

end MengXia.Store
