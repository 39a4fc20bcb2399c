import MengXia.Store.Verification
/-!
# Scans of a library in use

A verification captures a snapshot and then reads page after page while
commands go on. What a page may list is fixed by the snapshot: the events
up to it, and the commands they settled, stay as they are, so the pages
never miss or repeat a location. The listing joins a location to a command
by the column that only an ingest fills; a location that was recorded by
`blob.location.record.v1` and never ingested is therefore not listed.
-/

namespace MengXia.Store

open Common

variable {allowed : Call → Prop}

/-! ## Where locations come from -/

/-- A completed command that stored the location or found it stored. -/
def CommandRow.Names (c : CommandRow) (l : LocationRow) : Prop :=
  c.operationId = .assetIngest ∧ c.resultLocationId = some l.locationId ∨
    c.operationId = .blobLocationRecord ∧ c.resultId = some l.locationId.uuid

/-- The location was created with an event numbered up to `n`. Of the
commands that name a location the one that created it comes first, so it is
enough that one of them has such an event. -/
def CreatedWithin (t : Tables) (n : ℕ) (l : LocationRow) : Prop :=
  ∃ c ∈ t.commands, c.state = .completed ∧ c.Names l ∧
    ∃ e ∈ t.domainEvents, e.commandId = c.commandId ∧ e.commitSequence ≤ n

/-- A completed ingest ended at the location. -/
def Ingested (t : Tables) (l : LocationRow) : Prop :=
  ∃ c ∈ t.commands, c.state = .completed ∧ c.operationId = .assetIngest ∧
    c.resultLocationId = some l.locationId

/-- How locations, the commands that name them and their events belong
together. -/
structure Origins (t : Tables) : Prop where
  settled : ∀ e ∈ t.domainEvents, ∃ c ∈ t.commands, c.commandId = e.commandId ∧
    c.state = .completed
  registered : ∀ c ∈ t.commands, c.state = .completed → c.operationId = .assetIngest →
    ∃ e ∈ t.domainEvents, e.commandId = c.commandId ∧ e.isRegistration = true
  recorded : ∀ c ∈ t.commands, c.state = .completed → c.operationId = .blobLocationRecord →
    (∃ l ∈ t.locations, c.resultId = some l.locationId.uuid) ∧
      ∃ e ∈ t.domainEvents, e.commandId = c.commandId
  created : ∀ l ∈ t.locations, ∃ c ∈ t.commands, c.state = .completed ∧ c.Names l

/-- What a change has to add to the origins it finds: its events are those
of a completed command, and so are its new completed rows. -/
theorem Origins.extend {t t' : Tables} (h : Origins t) (hgrows : Grows t t')
    (hevents : ∀ e ∈ t'.domainEvents, e ∉ t.domainEvents → ∃ c ∈ t'.commands,
      c.commandId = e.commandId ∧ c.state = .completed)
    (hcommands : ∀ c ∈ t'.commands, c ∉ t.commands → c.state = .completed →
      (c.operationId = .assetIngest →
        ∃ e ∈ t'.domainEvents, e.commandId = c.commandId ∧ e.isRegistration = true) ∧
      (c.operationId = .blobLocationRecord →
        (∃ l ∈ t'.locations, c.resultId = some l.locationId.uuid) ∧
          ∃ e ∈ t'.domainEvents, e.commandId = c.commandId))
    (hlocations : ∀ l ∈ t'.locations, l ∉ t.locations →
      ∃ c ∈ t'.commands, c.state = .completed ∧ c.Names l) : Origins t' := by
  refine ⟨fun e he => ?_, fun c hc hstate hop => ?_, fun c hc hstate hop => ?_, fun l hl => ?_⟩
  · by_cases hold : e ∈ t.domainEvents
    · obtain ⟨c, hc, hid, hstate⟩ := h.settled e hold
      exact ⟨c, hgrows.commands.ended c hc (Or.inl hstate), hid, hstate⟩
    · exact hevents e he hold
  · by_cases hold : c ∈ t.commands
    · obtain ⟨e, he, hevent⟩ := h.registered c hold hstate hop
      exact ⟨e, hgrows.domainEvents.subset he, hevent⟩
    · exact (hcommands c hc hold hstate).1 hop
  · by_cases hold : c ∈ t.commands
    · obtain ⟨⟨l, hl, hlid⟩, e, he, hevent⟩ := h.recorded c hold hstate hop
      exact ⟨⟨l, hgrows.locations.subset hl, hlid⟩, e, hgrows.domainEvents.subset he, hevent⟩
    · exact (hcommands c hc hold hstate).2 hop
  · by_cases hold : l ∈ t.locations
    · obtain ⟨c, hc, hstate, hnames⟩ := h.created l hold
      exact ⟨c, hgrows.commands.ended c hc (Or.inl hstate), hstate, hnames⟩
    · exact hlocations l hl hold

theorem eq_of_mem_append {α : Type} {rows added : List α} {x : α} (h : x ∈ rows ++ added)
    (hold : x ∉ rows) : x ∈ added :=
  (List.mem_append.1 h).resolve_left hold

/-- A command that has nothing to do with locations. -/
theorem Origins.append {t t' : Tables} (h : Origins t) (hgrows : Grows t t') {row : CommandRow}
    {events : List EventRow} (hcommands : t'.commands = t.commands ++ [row])
    (hevents : t'.domainEvents = t.domainEvents ++ events)
    (hlocations : t'.locations = t.locations)
    (hrow : ∀ e ∈ events, row.commandId = e.commandId ∧ row.state = .completed)
    (hop : row.state = .completed →
      row.operationId ≠ .assetIngest ∧ row.operationId ≠ .blobLocationRecord) : Origins t' := by
  refine h.extend hgrows (fun e he hold => ?_) (fun c hc hold hstate => ?_) fun l hl hold => ?_
  · rw [hevents] at he
    obtain ⟨hid, hstate⟩ := hrow e (eq_of_mem_append he hold)
    exact ⟨row, by rw [hcommands]; exact List.mem_concat_self, hid, hstate⟩
  · rw [hcommands] at hc
    obtain rfl := List.mem_singleton.1 (eq_of_mem_append hc hold)
    exact ⟨fun h => absurd h (hop hstate).1, fun h => absurd h (hop hstate).2⟩
  · exact absurd (hlocations ▸ hl) hold

theorem lifecycleOperation_ne (target : AssetLifecycle) :
    lifecycleOperation target ≠ .assetIngest ∧
      lifecycleOperation target ≠ .blobLocationRecord := by
  cases target <;> decide

theorem Origins.change {d d' : Database} (h : Origins d)
    (hchange : Change allowed d d') : Origins d' := by
  have hgrows := hchange.grows
  generalize d'.toTables = t' at hchange hgrows
  cases hchange with
  | claimed | rejected | projectRevisionLeft | workRevisionLeft =>
    exact h.append hgrows rfl (List.append_nil _).symm rfl (fun e he => by cases he)
      fun hstate => by cases hstate
  | moved r r' mem external move =>
    refine h.extend hgrows (fun e he hold => absurd he hold) (fun c hc hold hstate => ?_)
      fun l hl hold => absurd hl hold
    rcases mem_updateWhere_iff.1 hc with ⟨x, -, -, rfl⟩ | ⟨hc, -⟩
    · cases move with
      | disposed disposition => cases disposition <;> cases hstate
      | reacquired => cases hstate
      | materialized revisionId at_ operation =>
        refine ⟨fun h => ?_, fun h => ?_⟩
        · exact absurd (operation.symm.trans h) (by decide)
        · exact absurd (operation.symm.trans h) (by decide)
    · exact absurd hc hold
  | registered context request blobs locations location r mem id operation claimed persisted =>
    have hrow : registeredCommand request location r ∈
        updateWhere (fun x => decide (x.commandId = r.commandId))
          (fun _ => registeredCommand request location r) d.commands :=
      mem_updateWhere.2 ⟨r, mem, by simp⟩
    refine h.extend hgrows (fun e he hold => ?_) (fun c hc hold hstate => ?_) fun l hl hold => ?_
    · rw [List.mem_singleton.1 (eq_of_mem_append he hold)]
      exact ⟨_, hrow, id, rfl⟩
    · rcases mem_updateWhere_iff.1 hc with ⟨x, -, -, rfl⟩ | ⟨hc, -⟩
      · refine ⟨fun _ => ⟨_, List.mem_concat_self, id.symm, rfl⟩, fun h => ?_⟩
        exact absurd (operation.symm.trans h) (by decide)
      · exact absurd hc hold
    · rcases persisted.locations with ⟨_, -, -, -, -, -, rfl⟩ | ⟨-, rfl, rfl⟩
      · exact absurd hl hold
      · rw [List.mem_singleton.1 (eq_of_mem_append hl hold)]
        exact ⟨_, hrow, rfl, Or.inl ⟨operation, rfl⟩⟩
  | locationRecorded context request =>
    refine h.extend hgrows (fun e he hold => ?_) (fun c hc hold hstate => ?_) fun l hl hold => ?_
    · rw [List.mem_singleton.1 (eq_of_mem_append he hold)]
      exact ⟨_, List.mem_concat_self, rfl, rfl⟩
    · obtain rfl := List.mem_singleton.1 (eq_of_mem_append hc hold)
      refine ⟨fun h => ?_, fun _ => ⟨⟨_, List.mem_concat_self, rfl⟩, _, List.mem_concat_self, rfl⟩⟩
      exact absurd (request.operation.symm.trans h) (by decide)
    · rw [List.mem_singleton.1 (eq_of_mem_append hl hold)]
      exact ⟨_, List.mem_concat_self, rfl, Or.inr ⟨request.operation, rfl⟩⟩
  | lifecycleChanged context request =>
    refine h.append hgrows rfl rfl rfl (fun e he => ?_) fun _ => ?_
    · rw [List.mem_singleton.1 he]
      exact ⟨rfl, rfl⟩
    · have hne := lifecycleOperation_ne request.target
      exact ⟨fun h => hne.1 (request.operation.symm.trans h),
        fun h => hne.2 (request.operation.symm.trans h)⟩
  | takeReplaced context request =>
    refine h.append hgrows rfl rfl rfl (fun e he => ?_) fun _ => ?_
    · rcases List.mem_pair.1 he with rfl | rfl <;> exact ⟨rfl, rfl⟩
    · exact ⟨fun h => absurd (request.operation.symm.trans h) (by decide),
        fun h => absurd (request.operation.symm.trans h) (by decide)⟩
  | revisionCreated context request | projectCreated context request
  | projectRevised context request | subjectCreated context request
  | workCreated context request | workRevised context request | takeCreated context request
  | takeMoved context request | takeSuperseded context request | takeReopened context request =>
    refine h.append hgrows rfl rfl rfl (fun e he => ?_) fun _ => ?_
    · rw [List.mem_singleton.1 he]
      exact ⟨rfl, rfl⟩
    · exact ⟨fun h => absurd (request.operation.symm.trans h) (by decide),
        fun h => absurd (request.operation.symm.trans h) (by decide)⟩

theorem Reachable.origins {d : Database} (h : Reachable allowed d) : Origins d :=
  h.induct (P := Origins) ⟨fun _ he => (by cases he), fun _ hc => (by cases hc),
    fun _ hc => (by cases hc), fun _ hl => by cases hl⟩ fun _ _ h hchange => h.change hchange

/-! ## What a snapshot fixes -/

section Snapshot

variable {d d' : Database}

theorem Reachable.sequence_le (h : Reachable allowed d) {e : EventRow} (he : e ∈ d.domainEvents) :
    e.commitSequence ≤ d.lastSequence := by
  have hmem : e.commitSequence ∈ d.domainEvents.map EventRow.commitSequence :=
    List.mem_map_of_mem he
  have hnumbered : d.domainEvents.map EventRow.commitSequence =
    (List.range d.lastSequence).map (· + 1) := h.eventsNumbered
  rw [hnumbered] at hmem
  obtain ⟨i, hi, hnumber⟩ := List.mem_map.1 hmem
  have hlt := List.mem_range.1 hi
  omega

/-- A command with an event within the snapshot was settled by then. -/
theorem Reachable.settled_before (h : Reachable allowed d) (hgrows : Grows d d')
    {c : CommandRow} (hc : c ∈ d'.commands) {e : EventRow} (he : e ∈ d'.domainEvents)
    (hid : e.commandId = c.commandId) (hle : e.commitSequence ≤ d.lastSequence) :
    c ∈ d.commands ∧ e ∈ d.domainEvents := by
  rcases hgrows.domainEvents.old_or_new he with hold | hnew
  · obtain ⟨c0, hc0, hid0, hstate⟩ := h.origins.settled e hold
    have hstays := hgrows.commands.ended c0 hc0 (Or.inl hstate)
    rw [← d'.consistent.commandKeys.eq_of_mem hstays hc (hid0.trans hid)]
    exact ⟨hc0, hold⟩
  · exact absurd hle (Nat.not_le.2 hnew.1)

/-- **The locations created within a snapshot** are those that were there
when it was captured. -/
theorem createdWithin_iff (h : Reachable allowed d) (hgrows : Grows d d')
    {l : LocationRow} (hl : l ∈ d'.locations) :
    CreatedWithin d' d.lastSequence l ↔ l ∈ d.locations := by
  constructor
  · rintro ⟨c, hc, hstate, hnames, e, he, hid, hle⟩
    obtain ⟨hc, -⟩ := h.settled_before hgrows hc he hid hle
    have hfound : ∃ l0 ∈ d.locations, l0.locationId = l.locationId := by
      rcases hnames with ⟨-, hlocation⟩ | ⟨hop, hresult⟩
      · exact d.consistent.commandLocations c hc l.locationId hlocation
      · obtain ⟨⟨l0, hl0, hresult0⟩, -⟩ := h.origins.recorded c hc hstate hop
        exact ⟨l0, hl0, Id.uuid_injective (Option.some.inj (hresult0.symm.trans hresult))⟩
    obtain ⟨l0, hl0, hlid⟩ := hfound
    rwa [← d'.consistent.locationKeys.eq_of_mem (hgrows.locations.subset hl0) hl hlid]
  · intro hold
    obtain ⟨c, hc, hstate, hnames⟩ := h.origins.created l hold
    obtain ⟨e, he, hid⟩ : ∃ e ∈ d.domainEvents, e.commandId = c.commandId := by
      rcases hnames with ⟨hop, -⟩ | ⟨hop, -⟩
      · obtain ⟨e, he, hid, -⟩ := h.origins.registered c hc hstate hop
        exact ⟨e, he, hid⟩
      · exact (h.origins.recorded c hc hstate hop).2
    exact ⟨c, hgrows.commands.ended c hc (Or.inl hstate), hstate, hnames, e,
      hgrows.domainEvents.subset he, hid, h.sequence_le he⟩

/-- **A scan lists the locations that ingests had ended at** when its
snapshot was captured. -/
theorem locationEvents_ne_nil_iff (h : Reachable allowed d) (h' : LedgerValid d')
    (hgrows : Grows d d') {l : LocationRow} (hl : l ∈ d'.locations) :
    locationEvents d' d.lastSequence l.locationId ≠ [] ↔
      l ∈ d.locations ∧ Ingested d l := by
  constructor
  · intro hne
    obtain ⟨⟨c, e⟩, hjoined⟩ := List.exists_mem_of_ne_nil _ hne
    obtain ⟨hc, hlocation, hstate, he, hregisters⟩ := mem_locationEvents.1 hjoined
    obtain ⟨hwithin, -, hid⟩ := registeredWithin_of_joined h' hjoined
    have hle : e.commitSequence ≤ d.lastSequence := by
      simp only [registersLocation, Bool.and_eq_true, decide_eq_true_eq] at hregisters
      exact hregisters.1.2
    have hnames : c.Names l := Or.inl ⟨hwithin.operation, hlocation⟩
    refine ⟨(createdWithin_iff h hgrows hl).1 ⟨c, hc, hstate, hnames, e, he, hid, hle⟩, ?_⟩
    exact ⟨c, (h.settled_before hgrows hc he hid hle).1, hstate, hwithin.operation, hlocation⟩
  · rintro ⟨-, c, hc, hstate, hop, hlocation⟩
    obtain ⟨e, he, hid, hregistration⟩ := h.origins.registered c hc hstate hop
    have hkind := (h.registrations.completed e he hregistration).1
    have htype : e.eventType = .assetRegistered := by
      simpa [EventRow.isRegistration] using hregistration
    refine List.ne_nil_of_mem (a := (c, e)) (mem_locationEvents.2
      ⟨hgrows.commands.ended c hc (Or.inl hstate), hlocation, hstate,
        hgrows.domainEvents.subset he, ?_⟩)
    simp [registersLocation, hid, h.sequence_le he, hop, htype, hkind]

end Snapshot

/-! ## Scans between commands -/

/-- The UUID a finding names. -/
def findingUuid (finding : IntegrityFinding) : Option Uuid :=
  match finding.objectId with
  | some (.uuid id) => some id
  | _ => none

/-- The locations a page reports, as findings or as candidates. -/
def listedLocations (page : VerificationStorePage) : List Uuid :=
  page.findings.filterMap findingUuid ++
    page.candidates.map fun candidate => candidate.locationId.uuid

/-- Each row of a page is reported once. -/
theorem listed_perm (t : Tables) (sequence : ℕ) (rows : List (LocationRow × BlobRow))
    (next : VerificationScanPosition) :
    (listedLocations
      ⟨(rows.map (custodyVerdict t sequence)).filterMap LocationVerdict.finding?,
        (rows.map (custodyVerdict t sequence)).filterMap LocationVerdict.candidate?, next⟩).Perm
      (rows.map fun row => row.1.locationId.uuid) := by
  unfold listedLocations
  induction rows with
  | nil => exact .refl _
  | cons row rows ih =>
    by_cases hone : (locationEvents t sequence row.1.locationId).length = 1
    · simp only [List.map_cons, custodyVerdict, hone, if_true, List.filterMap_cons,
        LocationVerdict.finding?, LocationVerdict.candidate?]
      exact List.perm_middle.trans (ih.cons _)
    · simp only [List.map_cons, custodyVerdict, hone, if_false, List.filterMap_cons,
        LocationVerdict.finding?, LocationVerdict.candidate?, findingUuid, graphFinding,
        List.cons_append]
      exact ih.cons _

/-! ## The locations of a snapshot -/

section Listing

variable {d d' : Database}

/-- The ids a scan lists, as they stand when its snapshot is captured. -/
def snapshotIds (t : Tables) : List (Id .location) :=
  (verifiedLocations t t.lastSequence).map fun row => row.1.locationId

theorem snapshotIds_distinct (d : Database) : Distinct Id.key (snapshotIds d) := by
  have h := verifiedLocations_distinct d d.lastSequence
  unfold Distinct snapshotIds at *
  rwa [List.map_map]

/-- The locations that a later page may list are those of the snapshot. -/
theorem mem_snapshotIds (h : Reachable allowed d) (h' : LedgerValid d')
    (hgrows : Grows d d') {id : Id .location} :
    (∃ row ∈ verifiedLocations d' d.lastSequence, row.1.locationId = id) ↔
      ∃ l ∈ d.locations, l.locationId = id ∧ Ingested d l := by
  constructor
  · rintro ⟨row, hrow, hid⟩
    obtain ⟨hl, -, -, hne⟩ := mem_verifiedLocations.1 hrow
    obtain ⟨hold, hingested⟩ := (locationEvents_ne_nil_iff h h' hgrows hl).1 hne
    exact ⟨row.1, hold, hid, hingested⟩
  · rintro ⟨l, hl, hid, hingested⟩
    have hl' := hgrows.locations.subset hl
    obtain ⟨b, hb, hdigest⟩ := d'.consistent.locationBlobs l hl'
    refine ⟨(l, b), mem_verifiedLocations.2 ⟨hl', hb, hdigest, ?_⟩, hid⟩
    exact (locationEvents_ne_nil_iff h h' hgrows hl').2 ⟨hl, hingested⟩

theorem mem_snapshotIds_self (h : Reachable allowed d) {id : Id .location} :
    id ∈ snapshotIds d ↔ ∃ l ∈ d.locations, l.locationId = id ∧ Ingested d l := by
  rw [← mem_snapshotIds h h.ledgerValid (Grows.refl _)]
  exact List.mem_map

/-- **Every later page lists the next ids of the snapshot.** -/
theorem scanLocations_later (h : Reachable allowed d) (h' : Reachable allowed d')
    (hgrows : Grows d d') (start : Option (Id .location)) :
    ∃ first, scanLocations d' d.lastSequence start = .ok first ∧
      (listedLocations first).Perm (((rowsAfter Id.key (start.map Id.key)
        (snapshotIds d)).take storeScanPageMax).filterMap (some ∘ Id.uuid)) ∧
      first.next = if storeScanPageMax <
          (rowsAfter Id.key (start.map Id.key) (snapshotIds d)).length then
          .managedLocationsAfter (((rowsAfter Id.key (start.map Id.key)
            (snapshotIds d)).take storeScanPageMax).getLast?.map id)
        else .complete := by
  have hids : (locationsFrom d' d.lastSequence start).map (fun row => row.1.locationId) =
      rowsAfter Id.key (start.map Id.key) (snapshotIds d) := by
    refine map_rowsAfter_eq (fun _ _ => rfl) (verifiedLocations_distinct d' d.lastSequence)
      (snapshotIds_distinct d) fun id => ?_
    rw [mem_snapshotIds_self h, mem_snapshotIds h h'.ledgerValid hgrows]
  refine ⟨_, scanLocations_eq h'.custody d.lastSequence start, ?_, ?_⟩
  · rw [← hids, ← List.map_take, List.filterMap_eq_map, List.map_map]
    exact listed_perm _ _ _ _
  · rw [← hids, List.length_map, ← List.map_take, List.getLast?_map, Option.map_id, id]

end Listing

/-- **What a scan in a library in use lists.** Its snapshot is captured in
`d`, and page `i` is read from `states i`, any calls having come between.
The scan ends, lists no location twice, and none that was created after the
snapshot. It lists every location created within the snapshot exactly when
each of them is the location of some completed ingest. -/
theorem scan_lists_created_iff {d : Database} (h : Reachable (fun _ => True) d)
    (libraryId : BitVec 128) (runtimeId : Id .runtime) {snapshot : VerificationSnapshot}
    (hsnapshot : captureSnapshot libraryId d.toTables = .ok snapshot) (states : ℕ → Database)
    (hstart : Later (fun _ => True) d (states 0))
    (hnext : ∀ i, Later (fun _ => True) (states i) (states (i + 1))) :
    ∃ pages n, (∀ fuel, n < fuel → scanSteps (fun i =>
        scanVerificationPage libraryId runtimeId (states i).toTables snapshot) fuel 0
        (.managedLocationsAfter none) = some (.ok pages)) ∧
      (pages.flatMap listedLocations).Nodup ∧
      (∀ i, ∀ l ∈ (states i).locations, l.locationId.uuid ∈ pages.flatMap listedLocations →
        CreatedWithin (states i).toTables snapshot.commitSequence l) ∧
      ((∀ i, ∀ l ∈ (states i).locations,
          CreatedWithin (states i).toTables snapshot.commitSequence l →
            l.locationId.uuid ∈ pages.flatMap listedLocations) ↔
        ∀ l ∈ d.locations, Ingested d.toTables l) := by
  obtain ⟨hlibrary, hsequence⟩ : snapshot.libraryId = libraryId ∧
      snapshot.commitSequence = d.lastSequence := by
    unfold captureSnapshot at hsnapshot
    obtain ⟨-, hsnapshot⟩ := refusal_eq_ok.1 hsnapshot
    obtain ⟨-, hsnapshot⟩ := refusal_eq_ok.1 hsnapshot
    split at hsnapshot
    · cases hsnapshot
      exact ⟨rfl, rfl⟩
    · cases hsnapshot
  -- every state of the scan is later than the one the snapshot was captured in
  have hstates : ∀ i, Reachable (fun _ => True) (states i) ∧
      Grows d.toTables (states i).toTables := by
    intro i
    induction i with
    | zero => exact ⟨hstart.reachable h, hstart.grows⟩
    | succ i ih => exact ⟨(hnext i).reachable ih.1, ih.2.trans (hnext i).grows⟩
  have hpage : ∀ i start, scanVerificationPage libraryId runtimeId (states i).toTables snapshot
      (.managedLocationsAfter start) = scanLocations (states i).toTables d.lastSequence start := by
    intro i start
    unfold scanVerificationPage
    rw [if_neg (not_not.2 hlibrary), hsequence]
  obtain ⟨pages, hpages, hlisted⟩ := scanSteps_phase listedLocations (some ∘ Id.uuid) (by decide)
    (fun start => (page_cases (snapshotIds_distinct d) (by decide)).imp And.left And.right)
    (fun i start => (hpage i start).symm ▸
      scanLocations_later h (hstates i).1 (hstates i).2 start)
    (fun a b h => VerificationScanPosition.managedLocationsAfter.inj h) (fun _ => by simp)
    (fun _ => by simp) (Or.inl ⟨rfl, rfl⟩) (m := 0) _ 0 none le_rfl
  rw [List.append_nil, List.filterMap_eq_map] at hlisted
  have hmem : ∀ l ∈ d.locations, l.locationId.uuid ∈ pages.flatMap listedLocations ↔
      Ingested d.toTables l := by
    intro l hl
    rw [hlisted.mem_iff, List.mem_map]
    constructor
    · rintro ⟨id, hid, huuid⟩
      obtain ⟨l0, hl0, hlid, hingested⟩ :=
        (mem_snapshotIds_self h).1 (mem_rowsAfter_none.1 hid)
      have hsame : l0 = l := d.consistent.locationKeys.eq_of_mem hl0 hl
        (hlid.trans (Id.uuid_injective huuid))
      rwa [← hsame]
    · intro hingested
      exact ⟨l.locationId, mem_rowsAfter_none.2
        ((mem_snapshotIds_self h).2 ⟨l, hl, rfl, hingested⟩), rfl⟩
  refine ⟨pages, _, hpages, ?_, fun i l hl hin => ?_, fun hall l hl => ?_,
    fun hall i l hl hcreated =>
    ?_⟩
  · rw [hlisted.nodup_iff]
    refine List.Nodup.map Id.uuid_injective (List.Nodup.of_map Id.key ?_)
    exact List.pairwise_map.2 ((rowsAfter_pairwise (snapshotIds_distinct d)).imp fun h => h.ne)
  · rw [hsequence, createdWithin_iff h (hstates i).2 hl]
    rw [hlisted.mem_iff, List.mem_map] at hin
    obtain ⟨id, hid, huuid⟩ := hin
    obtain ⟨l0, hl0, hlid, -⟩ := (mem_snapshotIds_self h).1 (mem_rowsAfter_none.1 hid)
    have hsame : l0 = l := (states i).consistent.locationKeys.eq_of_mem
      ((hstates i).2.locations.subset hl0) hl (hlid.trans (Id.uuid_injective huuid))
    rwa [← hsame]
  · have hl0 := (hstates 0).2.locations.subset hl
    rw [← hmem l hl]
    refine hall 0 l hl0 ?_
    rw [hsequence, createdWithin_iff h (hstates 0).2 hl0]
    exact hl
  · rw [hsequence, createdWithin_iff h (hstates i).2 hl] at hcreated
    exact (hmem l hcreated).2 (hall l hcreated)

/-- The location of `oneAsset` is listed. -/
theorem ingested_location_listed : ∃ pages n,
    (∀ fuel, n < fuel → scanSteps (fun _ => scanVerificationPage 1 (.numbered 0) oneAsset.toTables
      (numberedSnapshot 1 (by decide))) fuel 0 (.managedLocationsAfter none) =
        some (.ok pages)) ∧
    ∀ l ∈ oneAsset.locations, l.locationId.uuid ∈ pages.flatMap listedLocations := by
  have hingested : ∀ l ∈ oneAsset.locations, Ingested oneAsset.toTables l := by
    unfold Ingested
    decide +kernel
  have hcreated : ∀ l ∈ oneAsset.locations, CreatedWithin oneAsset.toTables 1 l := by
    unfold CreatedWithin CommandRow.Names
    decide +kernel
  have hsnapshot : captureSnapshot 1 oneAsset.toTables = .ok (numberedSnapshot 1 (by decide)) := by
    decide +kernel
  obtain ⟨pages, n, hscan, -, -, hlists⟩ := scan_lists_created_iff reachable_oneAsset 1
    (.numbered 0) hsnapshot (fun _ => oneAsset) .refl fun _ => .refl
  exact ⟨pages, n, hscan, fun l hl => hlists.2 hingested 0 l hl (hcreated l hl)⟩

/-- The library of one asset, whose content was then recorded at a second
backend as well. -/
def twoCopies : Database :=
  afterCalls oneAsset [.execute (.recordLocation (.numbered 200 (.numbered 1) 1))]

/-- **A recorded location is not verified**: the scan of a snapshot that
covers its creation ends without it. -/
theorem recorded_location_unlisted : Reachable (fun _ => True) twoCopies ∧
    captureSnapshot 1 twoCopies.toTables = .ok (numberedSnapshot 2 (by decide)) ∧
    (∃ l ∈ twoCopies.locations, l.locationId = .numbered 201 ∧ l.isManagedCopy = true ∧
      CreatedWithin twoCopies.toTables 2 l) ∧
    ∃ pages, scanSteps (fun _ => scanVerificationPage 1 (.numbered 0) twoCopies.toTables
        (numberedSnapshot 2 (by decide))) 2 0 (.managedLocationsAfter none) = some (.ok pages) ∧
      pages.flatMap listedLocations = [.numbered 105] := by
  refine ⟨reachable_afterCalls reachable_oneAsset fun _ _ => trivial, by decide +kernel, ?_, ?_⟩
  · unfold CreatedWithin CommandRow.Names
    decide +kernel
  · refine ⟨[⟨[], [⟨⟨1⟩, 1, 2, .numbered 105, 1, ⟨0⟩, ⟨1⟩⟩], .complete⟩], ?_, ?_⟩
    all_goals decide +kernel

/-- **Every event and every location goes back to a completed command**, and
every completed ingest has exactly one registration. -/
theorem history_has_origins {allowed : Call → Prop} {d : Database} (h : Reachable allowed d) :
    (∀ e ∈ d.domainEvents, ∃ c ∈ d.commands, c.commandId = e.commandId ∧ c.state = .completed) ∧
    (∀ l ∈ d.locations, ∃ c ∈ d.commands, c.state = .completed ∧ c.Names l) ∧
    ∀ c ∈ d.commands, c.state = .completed → c.operationId = .assetIngest →
      ∃! e, e ∈ d.domainEvents.filter (·.isRegistration) ∧ e.commandId = c.commandId := by
  refine ⟨h.origins.settled, h.origins.created, fun c hc hstate hingest => ?_⟩
  obtain ⟨e, he, hid, hreg⟩ := h.origins.registered c hc hstate hingest
  have hmem := List.mem_filter.2 ⟨he, hreg⟩
  exact ⟨e, ⟨hmem, hid⟩, fun e' he' =>
    h.registrations.distinct.eq_of_mem he'.1 hmem (he'.2.trans hid.symm)⟩

theorem two_copies_have_origins : Reachable (fun _ => True) twoCopies ∧
    ∀ l ∈ twoCopies.locations, ∃ c ∈ twoCopies.commands, c.state = .completed ∧ c.Names l := by
  have hreachable : Reachable (fun _ => True) twoCopies :=
    reachable_afterCalls reachable_oneAsset fun _ _ => trivial
  exact ⟨hreachable, (history_has_origins hreachable).2.1⟩

end MengXia.Store
