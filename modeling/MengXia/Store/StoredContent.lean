import MengXia.Store.LocationHistory
import MengXia.Store.Idempotence
import MengXia.Store.ScanHistory
/-!
# Content that is already stored

Blob and location rows are shared by all assets of one content. An ingest
plan of the application carries no media type, so no blob of a reachable
library has one (`PlainBlobs`). A claimed ingest of content that is already
stored at its address then passes every check on the stored rows: it is
completed exactly when the identifiers of its plan are new and an event
number is left, and it leaves both tables as they are.
-/

namespace MengXia.Store

open Common Txn

variable {allowed : Call → Prop}

variable {d' : Database} {t : Tables}

/-! ## Blobs without media types -/

/-- The calls of the ingest service: its plans carry no media type. -/
def Call.Plain : Call → Prop
  | .completeExternal request => request.plan.mediaType = none
  | _ => True

/-- No blob has a media type. -/
def PlainBlobs (t : Tables) : Prop :=
  ∀ b ∈ t.blobs, b.mediaType = none

/-- A change that adds a row to the ledger is no registration, so it keeps
the media types. -/
theorem PlainBlobs.change {d : Database} {row : CommandRow} (h : PlainBlobs d)
    (hchange : Change allowed d d')
    (hcommands : d'.commands = d.commands ++ [row]) : PlainBlobs d' := by
  generalize d'.toTables = t' at hchange hcommands
  cases hchange with
  | registered =>
    have hlength := congrArg List.length hcommands
    simp [updateWhere] at hlength
  | locationRecorded context request blob fresh mem id available =>
    intro b hb
    obtain ⟨b₀, hb₀, rfl⟩ := mem_updateWhere.1 hb
    have hplain := h b₀ hb₀
    split
    · exact hplain
    · exact hplain
  | _ => exact h

theorem PlainBlobs.persisted {blob : DurableBlob} {candidate location : Id .location}
    {at_ : Timestamp} {blobs : List BlobRow} {locations : List LocationRow} (h : PlainBlobs t)
    (hpersisted : Persisted t blob candidate none at_ blobs locations location) :
    ∀ b ∈ blobs, b.mediaType = none := by
  rcases hpersisted.blobs with ⟨-, -, -, -, -, -, rfl⟩ | ⟨-, rfl⟩
  · exact h
  · exact forall_mem_append_singleton h rfl

/-- **One call of the service adds no media type.** -/
theorem Call.plainBlobs {call : Call} (hcall : call.Plain) (context : StoreContext)
    {d : Database} (h : PlainBlobs d) :
    PlainBlobs ((call.exec context).run d).2.toTables := by
  refine call.run_cases context d h ?_ ?_ fun d' hledger => ?_
  · intro pure outcome row d' _ hstep hcommands _
    rcases hstep.tables with hsame | hchange
    · rw [hsame]
      exact h
    · exact h.change hchange hcommands
  · rintro request row d' result blobs locations location rfl - hregisters
    have hpersisted := hregisters.persisted
    rw [show request.plan.mediaType = none from hcall] at hpersisted
    rw [hregisters.tables]
    exact h.persisted hpersisted
  · rw [hledger.tables]
    exact h

/-- **No blob of a library of the service has a media type.** -/
theorem Reachable.plainBlobs {d : Database} (h : Reachable Call.Plain d) :
    PlainBlobs d := by
  induction h with
  | empty => exact fun _ hb => by cases hb
  | step context call _ admitted ih => exact call.plainBlobs admitted context ih

/-! ## Completing an ingest of stored content -/

/-- Content with its blob row and the location row at its address. -/
structure StoredAs (t : Tables) (blob : DurableBlob) (b : BlobRow) (l : LocationRow) : Prop where
  blobMem : b ∈ t.blobs
  digest : b.digest = blob.digest
  byteLength : b.byteLength = blob.byteLength
  locationMem : l ∈ t.locations
  backend : l.backendId = blob.backend
  locator : l.locator = blob.digest

/-- The identifiers of the graph of a new asset are new. -/
structure GraphFits (t : Tables) (request : ExternalIngestCompletion) : Prop where
  asset : ∀ x ∈ t.assets, x.assetId ≠ request.plan.assetId
  revision : ∀ x ∈ t.assetRevisions, x.assetRevisionId ≠ request.plan.assetRevisionId
  representation : ∀ x ∈ t.representations, x.representationId ≠ request.plan.representationId
  resource : ∀ x ∈ t.resources, x.resourceId ≠ request.plan.resourceId

/-- The identifiers a completion stores rows under are new. The candidate
location is not among them: it is dropped for the stored one. -/
structure PlanFits (t : Tables) (request : ExternalIngestCompletion) : Prop extends
    GraphFits t request where
  event : ∀ x ∈ t.domainEvents, x.domainEventId ≠ request.domainEventId
  provenance : ∀ x ∈ t.provenanceEvents, x.provenanceEventId ≠ request.provenanceEventId

/-- A completion of a claimed ingest can register its asset. -/
def Registrable (t : Tables) (request : ExternalIngestCompletion) : Prop :=
  PlanFits t request ∧ SequencesLeft t 1

/-- The result of a completion that reuses a location. -/
def registeredAt (request : ExternalIngestCompletion) (l : LocationRow) : CommandResult :=
  .managedRegistration request.plan.assetId request.plan.assetRevisionId
    request.plan.representationId request.plan.resourceId l.locationId request.durableBlob.digest

/-- A failure that says nothing about the stored content. -/
def isPlanFailure (e : AssetStoreError) : Prop :=
  e = .internal ∨ e = .revisionExhausted

section Stored

variable {d : Database} {context : StoreContext} {request : ExternalIngestCompletion}
  {row : CommandRow} {b : BlobRow} {l : LocationRow}

variable {E : AssetStoreError → Prop}

/-- The stored location is the managed copy the content expects. -/
theorem StoredAs.expected (h : StoredAs d request.durableBlob b l)
    (hcustody : Custody d) : isExpectedLocation request.durableBlob l = true := by
  obtain ⟨hmanaged, hrevision, hlocator⟩ := hcustody.locations l h.locationMem
  simp [isExpectedLocation, hrevision, hmanaged, ← hlocator, h.locator]

/-- **Stored content is found and not written again.** -/
theorem wp_persist_stored (h : StoredAs d request.durableBlob b l)
    (hcustody : Custody d) (hplain : PlainBlobs d) {candidate : Id .location}
    {at_ : Timestamp} {Q : Id .location → Database → Prop} (hQ : Q l.locationId d) :
    wp (persistBlobAndLocation request.durableBlob candidate none at_) Q E d := by
  have hblob : d.blobs.find? (fun x => x.digest = request.durableBlob.digest) = some b := by
    rw [← h.digest]
    exact d.consistent.blobKeys.find?_eq h.blobMem
  have hlocation : locationAt d request.durableBlob = some l := by
    unfold locationAt
    have hkeys := d.consistent.locationAddresses.find?_eq h.locationMem
    simpa [h.backend, h.locator] using hkeys
  obtain ⟨havailable, hrevision⟩ := hcustody.blobs b h.blobMem
  have hgood : ¬ (b.revision = 0 ∨ b.byteLength ≠ request.durableBlob.byteLength ∨
      b.mediaType ≠ none ∨ b.lifecycle ≠ .available) := by
    simpa [h.byteLength, hplain b h.blobMem, havailable] using Nat.ne_of_gt hrevision
  unfold persistBlobAndLocation persistBlob persistLocation
  simp only [wp_bind, wp_read, hblob, if_neg hgood, wp_pure, hlocation,
    h.expected hcustody, if_true]
  exact hQ

/-- The rows a completion registers, as they are replayed from a location. -/
abbrev RegisteredRows (context : StoreContext) (request : ExternalIngestCompletion)
    (l : LocationRow) (t : Tables) : Prop :=
  Registration t request.binding.commandId request.plan.assetId.uuid l.locationId
    (registeredAsset context request) (registeredRevision context request)
    (registeredRepresentation request) (registeredResource request) (registeredMember request) l

/-- **A registration is read back from its new rows** and the location it
reuses. -/
theorem registration_reads_back (hfits : PlanFits d request)
    (hstored : StoredAs d request.durableBlob b l) (hcustody : Custody d)
    (hevents : ∀ e ∈ d.domainEvents, e.commandId ≠ request.binding.commandId)
    (ht : t = { registeredTables context request d.toTables with commands := t.commands }) :
    RegisteredRows context request l t := by
  obtain ⟨hmanaged, hrevision, hlocator⟩ := hcustody.locations l hstored.locationMem
  rw [ht]
  exact
    { asset := List.mem_concat_self
      assetId := rfl
      revision := List.mem_concat_self
      first := ⟨rfl, rfl⟩
      representation := List.mem_concat_self
      ofRevision := rfl
      oneRepresentation := countP_concat (fun x hx => decide_eq_false
        (d.consistent.representationRevisions.ne_of_fresh hfits.revision hx)) (decide_eq_true rfl)
      resource := List.mem_concat_self
      ofRepresentation := rfl
      oneResource := countP_concat (fun x hx => decide_eq_false
        (d.consistent.resourceRepresentations.ne_of_fresh hfits.representation hx))
        (decide_eq_true rfl)
      member := List.mem_concat_self
      ofResource := rfl
      ordinal := rfl
      oneMember := countP_concat (fun x hx => decide_eq_false
        (d.consistent.memberResources.ne_of_fresh hfits.resource hx)) (decide_eq_true rfl)
      location := hstored.locationMem
      locationId := rfl
      blob := hlocator.symm.trans hstored.locator
      managed := ⟨hmanaged, hrevision⟩
      event := countP_concat (fun e he => by simp [hevents e he])
        (by simp [registeredEvent, registeredAsset])
      provenance := countP_concat (fun p hp => by
        simp [registeredRevision,
          d.consistent.provenanceRevisions.ne_of_fresh hfits.revision hp])
        (by simp [registeredProvenance, registeredRevision, registeredMember]) }

theorem replayExternalResult_registered (hop : row.operationId = .assetIngest)
    (hid : row.commandId = request.binding.commandId)
    (ht : t = { d'.toTables with commands := t.commands })
    (h : RegisteredRows context request l d') :
    replayExternalResult t (registeredCommand request l.locationId row) =
      .ok (registeredAt request l) := by
  have hsame : registrationRows t request.binding.commandId request.plan.assetId.uuid
      l.locationId = registrationRows d' request.binding.commandId
        request.plan.assetId.uuid l.locationId := by
    rw [ht]
    rfl
  have hmem : registeredAt request l ∈ registrationRows d' request.binding.commandId
      request.plan.assetId.uuid l.locationId :=
    mem_registrationRows.2 ⟨_, _, _, _, _, _, h, rfl⟩
  have hhead := head?_eq_of_forall hmem fun y hy => registrationRows_unique hy hmem
  simp only [replayExternalResult, replayResult, replayByKind, CommandRow.complete, hop, isCreative,
    hid, hsame, hhead, Bool.false_eq_true, if_false]
  rfl

/-- The last write of a registration completes the row of the ingest. -/
theorem wp_completeRegistered (hd : Reachable allowed d)
    (hbound : Bound d request.binding context.ownerUid row)
    (hclaimed : row.state = .claimed) (hstored : StoredAs d request.durableBlob b l)
    (hfits : PlanFits d request)
    (hd' : d'.toTables = registeredTables context request d)
    {Q : MutationOutcome → Database → Prop}
    (hQ : ∀ d'' : Database, d''.blobs = d.blobs → d''.locations = d.locations →
      Q (.applied (registeredAt request l)) d'') :
    wp (completeCommand request.binding .asset request.plan.assetId.uuid (some l.locationId)
      none request.completedAt replayExternalResult) Q E d' := by
  have hop : row.operationId = .assetIngest :=
    hbound.operation.trans request.operation
  have hvalid := hd.ledgerValid row hbound.mem
  -- no event of a claimed command is stored
  have hevents : ∀ e ∈ d.domainEvents, e.commandId ≠ request.binding.commandId := by
    intro e he heq
    obtain ⟨c, hc, hid, hstate⟩ := hd.origins.settled e he
    have : c = row := d.consistent.commandKeys.eq_of_mem hc hbound.mem
      (hid.trans (heq.trans hbound.id.symm))
    rw [this, hclaimed] at hstate
    cases hstate
  have hreads : RegisteredRows context request l d' :=
    registration_reads_back hfits hstored hd.custody hevents (by rw [hd'])
  refine wp_completeCommand row (by rw [hd']; exact hbound.mem) hbound.id hclaimed
    (fun d'' result hd'' _ hresult => ?_) (Or.inr ⟨?_, ?_, ?_, ?_,
      fun t ht => ⟨registeredAt request l, ?_⟩⟩)
  · rw [replayExternalResult_registered hop hbound.id (by rw [hd'']) hreads] at hresult
    cases hresult
    exact hQ d'' (by rw [hd'', hd']) (by rw [hd'', hd'])
  · simp [CommandRow.shapeOk, CommandRow.complete, hvalid.noCode hclaimed]
  · intro k hk
    obtain rfl := Option.some_inj.1 (Option.mem_def.1 hk)
    rw [hd']
    exact ⟨l, hstored.locationMem, rfl⟩
  · exact (hvalid.ingested hclaimed hop _ _ _).validate
  · rw [hd']
    have hkeys := hd.deferredKeys
    exact { hkeys with }
  · exact replayExternalResult_registered hop hbound.id (by rw [ht]) hreads

/-- The graph of a new asset fits exactly when its identifiers are new. -/
theorem wp_insertRegistrationGraph (hblob : ∃ x ∈ d.blobs, x.digest = request.durableBlob.digest)
    {Q : Unit → Database → Prop} (hE : ¬ GraphFits d request → E .internal)
    (hQ : ∀ d' : Database, GraphFits d request →
      d'.toTables = registeredGraph context request d → Q () d') :
    wp (insertRegistrationGraph context request) Q E d := by
  have hguard : ∀ {p : Prop}, (GraphFits d request → p) → p ∨ E .internal := by
    intro p hp
    by_cases h : GraphFits d request
    · exact Or.inl (hp h)
    · exact Or.inr (hE h)
  unfold insertRegistrationGraph
  simp only [wp_bind]
  refine wp_write_of (hguard fun h => h.asset) fun d1 h1 hasset => ?_
  refine wp_write_of (hguard fun h => ?_) fun d2 h2 hrevision => ?_
  · rw [h1]
    refine ⟨h.revision, fun x hx heq => ?_, ⟨le_rfl, Nat.one_lt_two_pow (by decide)⟩, _,
      List.mem_concat_self, rfl⟩
    exact d.consistent.revisionAssets.ne_of_fresh h.asset hx (Prod.ext_iff.1 heq).1
  refine wp_write_of (hguard fun h => ?_) fun d3 h3 hrepresentation => ?_
  · rw [h2, h1]
    exact ⟨h.representation, _, List.mem_concat_self, rfl⟩
  refine wp_write_of (hguard fun h => ?_) fun d4 h4 hresource => ?_
  · rw [h3, h2, h1]
    exact ⟨h.resource, _, List.mem_concat_self, rfl⟩
  refine wp_write_of (hguard fun h => ?_) fun d5 h5 _ => ?_
  · rw [h4, h3, h2, h1]
    refine ⟨fun x hx heq => ?_, Nat.zero_le _, ⟨_, List.mem_concat_self, rfl⟩, hblob⟩
    exact d.consistent.memberResources.ne_of_fresh h.resource hx (Prod.ext_iff.1 heq).1
  refine hQ d5 ⟨hasset, ?_, ?_, ?_⟩ ?_
  · have := hrevision.1
    rwa [h1] at this
  · have := hrepresentation.1
    rwa [h2, h1] at this
  · have := hresource.1
    rwa [h3, h2, h1] at this
  · rw [h5, h4, h3, h2, h1]

/-- **The writes of a completion of stored content** fit the schema exactly
when the plan does and an event number is left. -/
theorem wp_registerManaged_stored (hd : Reachable allowed d) (hplain : PlainBlobs d)
    (hmedia : request.plan.mediaType = none)
    (hbound : Bound d request.binding context.ownerUid row)
    (hclaimed : row.state = .claimed) (hstored : StoredAs d request.durableBlob b l) :
    wp (registerManaged context request)
      (fun outcome d' => Registrable d request ∧
        outcome = .applied (registeredAt request l) ∧ d'.blobs = d.blobs ∧
          d'.locations = d.locations)
      (fun e => ¬ Registrable d request ∧ isPlanFailure e) d := by
  have hguard : ∀ {p : Prop}, (Registrable d request → p) →
      p ∨ ¬ Registrable d request ∧ isPlanFailure .internal := by
    intro p hp
    by_cases h : Registrable d request
    · exact Or.inl (hp h)
    · exact Or.inr ⟨h, Or.inl rfl⟩
  unfold registerManaged
  rw [wp_bind, hmedia]
  refine wp_persist_stored hstored hd.custody hplain ?_
  rw [wp_bind]
  refine wp_insertRegistrationGraph ⟨b, hstored.blobMem, hstored.digest⟩
    (fun hn => ⟨fun h => hn h.1.toGraphFits, Or.inl rfl⟩) fun d1 hgraph h1 => ?_
  have hlast : d1.lastSequence = d.lastSequence := by rw [h1]
  rw [wp_bind]
  refine wp_allocateEventSequences (by decide) (fun d2 hleft h2 => ?_) fun hnone => ?_
  · rw [SequencesLeft, hlast] at hleft
    rw [h1] at h2
    simp only [wp_bind, hlast]
    refine wp_write_of (hguard fun h => ?_) fun d3 h3 hevent => ?_
    · rw [h2]
      refine ⟨h.1.event, fun x hx => ?_, ⟨Nat.le_add_left _ _, hleft⟩, fun p hp => (by cases hp),
        row, hbound.mem, hbound.id⟩
      exact Nat.ne_of_lt (Nat.lt_succ_of_le (hd.eventsNumbered.le hx))
    refine wp_write_of (hguard fun h => ?_) fun d4 h4 hprovenance => ?_
    · rw [h3, h2]
      refine ⟨h.1.provenance, ⟨row, hbound.mem, hbound.id⟩, ⟨_, List.mem_concat_self, rfl⟩,
        fun k hk => ?_⟩
      obtain rfl := Option.some_inj.1 (Option.mem_def.1 hk)
      exact ⟨b, hstored.blobMem, hstored.digest⟩
    have hfits : PlanFits d request := by
      refine ⟨hgraph, ?_, ?_⟩
      · have := hevent.1
        rwa [h2] at this
      · have := hprovenance.1
        rwa [h3, h2] at this
    exact wp_completeRegistered hd hbound hclaimed hstored hfits (by rw [h4, h3, h2])
      fun d'' hblobs hlocations => ⟨⟨hfits, hleft⟩, rfl, hblobs, hlocations⟩
  · refine ⟨fun h => hnone ?_, Or.inr rfl⟩
    rw [SequencesLeft, hlast]
    exact h.2

/-- **A claimed ingest of stored content is completed** exactly when the
plan fits and an event number is left. -/
theorem wp_completeExternal_stored (hd : Reachable allowed d) (hplain : PlainBlobs d)
    (hmedia : request.plan.mediaType = none)
    (hbound : Bound d request.binding context.ownerUid row)
    (hclaimed : row.state = .claimed) (howner : row.storeRuntimeId = context.runtimeId)
    (hstored : StoredAs d request.durableBlob b l) :
    wp (completeExternal context request)
      (fun outcome d' => Registrable d request ∧
        outcome = .applied (registeredAt request l) ∧ d'.blobs = d.blobs ∧
          d'.locations = d.locations)
      (fun e => ¬ Registrable d request ∧ isPlanFailure e) d := by
  have hregister := wp_registerManaged_stored hd hplain hmedia hbound hclaimed hstored
  simp [completeExternal, validateDescriptor_backendText, validateDescriptor_locatorText,
    boundRow_of_bound hbound hd.ledgerValid, hclaimed, howner, hregister]

/-! ## The custody of a library -/

/-- What completing an ingest of stored content comes to. -/
structure CompletesStored (context : StoreContext) (request : ExternalIngestCompletion)
    (l : LocationRow) (d : Database) : Prop where
  succeeds : Registrable d request →
    ((completeExternal context request).run d).1 = .ok (.applied (registeredAt request l))
  refuses : ¬ Registrable d request →
    ∃ e, ((completeExternal context request).run d).1 = .error e ∧ isPlanFailure e
  neverCorrupt : ((completeExternal context request).run d).1 ≠ .error .storageCorruption
  blobs : ((completeExternal context request).run d).2.blobs = d.blobs
  locations : ((completeExternal context request).run d).2.locations = d.locations

theorem completesStored (hd : Reachable Call.Plain d) (hmedia : request.plan.mediaType = none)
    (hbound : Bound d request.binding context.ownerUid row)
    (hclaimed : row.state = .claimed) (howner : row.storeRuntimeId = context.runtimeId)
    (hstored : StoredAs d request.durableBlob b l) :
    CompletesStored context request l d := by
  rcases wp_run (wp_completeExternal_stored hd hd.plainBlobs hmedia hbound hclaimed howner
    hstored) with ⟨outcome, hok, hregistrable, rfl, hblobs, hlocations⟩ |
      ⟨e, herror, ⟨hnot, hfailure⟩, hstate⟩
  · refine ⟨fun _ => hok, fun hn => absurd hregistrable hn, ?_, hblobs, hlocations⟩
    rw [hok]
    exact fun h => by cases h
  · refine ⟨fun h => absurd h hnot, fun _ => ⟨e, herror, hfailure⟩, ?_, ?_, ?_⟩
    · rw [herror]
      rcases hfailure with rfl | rfl
      · exact fun h => by cases h
      · exact fun h => by cases h
    · rw [hstate]
    · rw [hstate]

/-- A blob with a location under managed custody. -/
def HasManagedCopy (t : Tables) (digest : Digest) : Prop :=
  ∃ l ∈ t.locations, l.blobDigest = digest ∧ l.custody = .managed ∧ l.durability = .durable ∧
    l.lifecycle = .available

theorem Reachable.hasManagedCopy (hd : Reachable allowed d) (hb : b ∈ d.blobs) :
    HasManagedCopy d b.digest := by
  obtain ⟨l, hl, hdigest⟩ := hd.blobsStored b hb
  have hmanaged := (hd.custody.locations l hl).1
  simp only [LocationRow.isManagedCopy, Bool.and_eq_true, decide_eq_true_eq] at hmanaged
  exact ⟨l, hl, hdigest, hmanaged.1.1, hmanaged.1.2, hmanaged.2⟩

end Stored

/-- **Content is stored once and reused.** In a library of the ingest
service no address is used twice, the blob of every member has a managed
copy, and a claimed ingest of content that is already stored at its address
is completed with the rows that are there, exactly when the identifiers of
its plan are new and an event number is left. -/
theorem stored_content_reused {d : Database} (hd : Reachable Call.Plain d) :
    Distinct (fun l => (l.backendId, l.locator)) d.locations ∧
    (∀ m ∈ d.members, ∃ b ∈ d.blobs, b.digest = m.blobDigest ∧
      HasManagedCopy d.toTables b.digest) ∧
    ∀ (context : StoreContext) (request : ExternalIngestCompletion) (row : CommandRow)
      (b : BlobRow) (l : LocationRow), request.plan.mediaType = none →
      Bound d.toTables request.binding context.ownerUid row → row.state = .claimed →
      row.storeRuntimeId = context.runtimeId → StoredAs d.toTables request.durableBlob b l →
        CompletesStored context request l d := by
  refine ⟨d.consistent.locationAddresses, fun m hm => ?_, fun context request row b l hmedia hbound
    hclaimed howner hstored => completesStored hd hmedia hbound hclaimed howner hstored⟩
  obtain ⟨b, hb, hdigest⟩ := d.consistent.memberBlobs m hm
  exact ⟨b, hb, hdigest, hd.hasManagedCopy hb⟩

/-! ## One content twice -/

theorem ingest200_ids : 200 + 8 ≤ 2 ^ 62 := by decide

theorem ingest100_ids : 100 + 8 ≤ 2 ^ 62 := by decide

/-- The library of one asset with a second ingest claimed. -/
def claimedTwice : Database :=
  afterCalls oneAsset [.claimExternal (.numbered 200)]

/-- The row of the second claim. -/
def secondClaim : CommandRow :=
  claimRow firstProcess (.numbered .assetIngest 200) .epoch

/-- The completion of the second claim. -/
def secondCompletion : ExternalIngestCompletion :=
  .numbered 200 (.numbered 1) ingest200_ids

/-- The completion of the second claim with the plan of the first ingest. -/
def repeatedPlan : ExternalIngestCompletion :=
  { ExternalIngestCompletion.numbered 100 (.numbered 1) ingest100_ids with
    binding := .numbered .assetIngest 200
    operation := rfl }

theorem claimedTwice_reachable : Reachable Call.Plain claimedTwice :=
  reachable_afterCalls (reachable_afterCalls .empty (by
    simp [Call.Plain, ExternalIngestCompletion.numbered])) (by simp [Call.Plain])

/-- The row of the second claim and the rows of the first content. -/
structure SecondClaim (request : ExternalIngestCompletion) : Prop where
  media : request.plan.mediaType = none
  bound : Bound claimedTwice request.binding firstProcess.ownerUid secondClaim
  stored : StoredAs claimedTwice request.durableBlob
    (newBlobRow (.numbered 1) none .epoch) (newLocationRow (.numbered 1) (.numbered 105) .epoch)

theorem secondClaim_completion : SecondClaim secondCompletion := by
  refine ⟨rfl, ⟨by decide +kernel, by decide +kernel⟩, ?_⟩
  exact ⟨by decide +kernel, rfl, rfl, by decide +kernel, rfl, rfl⟩

theorem secondClaim_repeatedPlan : SecondClaim repeatedPlan := by
  refine ⟨rfl, ⟨by decide +kernel, by decide +kernel⟩, ?_⟩
  exact ⟨by decide +kernel, rfl, rfl, by decide +kernel, rfl, rfl⟩

/-- The second ingest of the content of `oneAsset` reuses its location. -/
theorem second_ingest_reuses : Reachable Call.Plain claimedTwice ∧
    SecondClaim secondCompletion ∧
    ((completeExternal firstProcess secondCompletion).run claimedTwice).1 = .ok (.applied
      (registeredAt secondCompletion (newLocationRow (.numbered 1) (.numbered 105) .epoch))) := by
  have h := secondClaim_completion
  refine ⟨claimedTwice_reachable, h, ?_⟩
  refine ((stored_content_reused claimedTwice_reachable).2.2 firstProcess secondCompletion
    secondClaim _ _ h.media h.bound rfl rfl h.stored).succeeds ⟨⟨⟨?_, ?_, ?_, ?_⟩, ?_, ?_⟩, ?_⟩
  all_goals decide +kernel

/-- **A plan whose identifiers are taken fails**: completing the second
ingest with the plan of the first one is refused by the schema. -/
theorem repeated_plan_refused : Reachable Call.Plain claimedTwice ∧ SecondClaim repeatedPlan ∧
    secondClaim.state = .claimed ∧ secondClaim.storeRuntimeId = firstProcess.runtimeId ∧
    ((completeExternal firstProcess repeatedPlan).run claimedTwice).1 = .error .internal := by
  refine ⟨claimedTwice_reachable, secondClaim_repeatedPlan, rfl, rfl, ?_⟩
  decide +kernel

end MengXia.Store
