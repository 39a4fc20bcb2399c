
import MengXia.Integrity
import MengXia.Store.AssetGraph
/-!
# The verification scan

`scan_verification_page` reads the ledger and then the managed locations
in pages of 256. Every location is listed with the number of completed
commands that registered it, and one that does not have exactly one such
command is declared inconsistent. The scan is modelled under a control
that never stops it.
-/

namespace MengXia.Store

open Common

/-- `STORE_SCAN_PAGE_MAX`. -/
def storeScanPageMax : ℕ := 256

/-! ## The snapshot -/

/-- `capture_snapshot`, after the file checks: the foreign keys hold and
the largest event number is the allocator's. -/
def captureSnapshot (libraryId : BitVec 128) (t : Tables) :
    AssetResult VerificationSnapshot :=
  if ¬ DeferredKeys t then .error .storageCorruption
  else if ((t.domainEvents.map EventRow.commitSequence).max?).getD 0 ≠ t.lastSequence then
    .error .storageCorruption
  else if h : libraryId ≠ 0 ∧ t.lastSequence < 2 ^ 63 then
    .ok ⟨libraryId, t.lastSequence, h.1, h.2⟩
  else .error .storageCorruption

/-! ## Commands -/

/-- `graph_finding` for an object with a UUID. -/
def graphFinding (objectKind : IntegrityObjectKind) (id : Uuid)
    (h : objectKind.admits (some (.uuid id)) = true) : IntegrityFinding where
  kind := .eventOrGraphInconsistent
  severity := .fatalLocal
  objectKind := objectKind
  objectId := some (.uuid id)
  remediation := .none
  expected := rfl
  admitted := h

/-- The finding for a command that waits for recovery. -/
def recoveryFinding (r : CommandRow) : IntegrityFinding :=
  if r.operationId = .assetMaterialize then
    ⟨.materializationRecoveryRequired, .operatorAction, .materialization,
      some (.uuid r.commandId.uuid), .operatorConfiguration, rfl, rfl⟩
  else
    ⟨.commandRecoveryRequired, .operatorAction, .command, some (.uuid r.commandId.uuid),
      .operatorOrRuntimeAction, rfl, rfl⟩

/-- The finding of `scan_commands` for one row; every stored operation is
a current one. -/
def commandFinding (runtimeId : Id .runtime) (r : CommandRow) : Option IntegrityFinding :=
  match r.state with
  | .claimed =>
    if isExternal r.operationId = true ∧ r.storeRuntimeId ≠ runtimeId then some (recoveryFinding r)
    else none
  | .recoveryRequired =>
    if isExternal r.operationId = true ∧ r.safeErrorCode.isSome = true then
      some (recoveryFinding r)
    else some (graphFinding .command r.commandId.uuid rfl)
  | .completed | .terminalRejected => none

/-- The rows of `scan_commands`, before the limit. -/
def commandsFrom (t : Tables) (after : Option (Id .command)) : List CommandRow :=
  rowsAfter (fun r => r.commandId.key) (after.map Id.key) t.commands

/-- `scan_commands`: 257 rows are read and validated, and 256 reported. -/
def scanCommands (t : Tables) (runtimeId : Id .runtime) (after : Option (Id .command)) :
    AssetResult VerificationStorePage := do
  let rows ← ((commandsFrom t after).take (storeScanPageMax + 1)).mapM validateCommandRow
  let page := rows.take storeScanPageMax
  VerificationStorePage.fromStore {
    findings := page.filterMap (commandFinding runtimeId)
    candidates := []
    next := if storeScanPageMax < rows.length then
        .commandsAfter (page.getLast?.map CommandRow.commandId)
      else .managedLocationsAfter none }

/-! ## Locations -/

/-- The join condition of `scan_locations`: a completed command and the
event that registers or records its location, within the snapshot. -/
def registersLocation (snapshot : ℕ) (c : CommandRow) (e : EventRow) : Bool :=
  e.commandId = c.commandId && e.commitSequence ≤ snapshot &&
    ((c.operationId = .assetIngest && e.eventType = .assetRegistered &&
        e.aggregateKind = .asset) ||
      (c.operationId = .blobLocationRecord && e.eventType = .blobLocationRecorded &&
        e.aggregateKind = .blob))

/-- The commands and events joined to a location. -/
def locationEvents (t : Tables) (snapshot : ℕ) (locationId : Id .location) :
    List (CommandRow × EventRow) :=
  select (fun c => c.resultLocationId = some locationId && c.state = .completed) t.commands
    fun c => select (registersLocation snapshot c) t.domainEvents fun e => [(c, e)]

/-- The locations with a registering event, joined with their blobs. -/
def verifiedLocations (t : Tables) (snapshot : ℕ) : List (LocationRow × BlobRow) :=
  select (fun l => !(locationEvents t snapshot l.locationId).isEmpty) t.locations fun l =>
    select (fun b => b.digest = l.blobDigest) t.blobs fun b => [(l, b)]

/-- What `scan_locations` makes of one row. -/
inductive LocationVerdict where
  | inconsistent (finding : IntegrityFinding)
  | candidate (candidate : BlobCandidate)
  deriving DecidableEq

def LocationVerdict.finding? : LocationVerdict → Option IntegrityFinding
  | .inconsistent finding => some finding
  | .candidate _ => none

def LocationVerdict.candidate? : LocationVerdict → Option BlobCandidate
  | .inconsistent _ => none
  | .candidate found => some found

/-- The body of the loop of `scan_locations`. -/
def locationVerdict (t : Tables) (snapshot : ℕ) (row : LocationRow × BlobRow) :
    AssetResult LocationVerdict :=
  let (l, b) := row
  if l.revision = 0 ∨ 2 ^ 40 < b.byteLength ∨ b.revision = 0 then .error .storageCorruption
  else if l.isManagedCopy = true ∧ b.lifecycle = .available ∧
      (locationEvents t snapshot l.locationId).length = 1 then do
    let candidate ← BlobCandidate.fromStore
      ⟨l.blobDigest, b.byteLength, b.revision, l.locationId, l.revision, l.backendId, l.locator⟩
    pure (.candidate candidate)
  else .ok (.inconsistent (graphFinding .location l.locationId.uuid rfl))

/-- The rows of `scan_locations`, before the limit. -/
def locationsFrom (t : Tables) (snapshot : ℕ) (after : Option (Id .location)) :
    List (LocationRow × BlobRow) :=
  rowsAfter (fun row => row.1.locationId.key) (after.map Id.key) (verifiedLocations t snapshot)

/-- `scan_locations`. -/
def scanLocations (t : Tables) (snapshot : ℕ) (after : Option (Id .location)) :
    AssetResult VerificationStorePage := do
  let rows := (locationsFrom t snapshot after).take (storeScanPageMax + 1)
  let page := rows.take storeScanPageMax
  let verdicts ← page.mapM (locationVerdict t snapshot)
  VerificationStorePage.fromStore {
    findings := verdicts.filterMap LocationVerdict.finding?
    candidates := verdicts.filterMap LocationVerdict.candidate?
    next := if storeScanPageMax < rows.length then
        .managedLocationsAfter (page.getLast?.map fun row => row.1.locationId)
      else .complete }

/-! ## The scan -/

/-- `scan_verification_page`. -/
def scanVerificationPage (libraryId : BitVec 128) (runtimeId : Id .runtime) (t : Tables)
    (snapshot : VerificationSnapshot) (position : VerificationScanPosition) :
    AssetResult VerificationStorePage :=
  if snapshot.libraryId ≠ libraryId then .error .validation
  else
    match position with
    | .commandsAfter after => scanCommands t runtimeId after
    | .managedLocationsAfter after => scanLocations t snapshot.commitSequence after
    | .complete => VerificationStorePage.fromStore ⟨[], [], .complete⟩

/-- The loop of `verify_controlled` over the pages of a scan, where `page i`
reads the `i`-th of them, since the library may change between two; nothing
when the fuel runs out. -/
def scanSteps
    (page : ℕ → VerificationScanPosition → AssetResult VerificationStorePage) :
    ℕ → ℕ → VerificationScanPosition →
      Option (AssetResult (List VerificationStorePage))
  | 0, _, _ => none
  | fuel + 1, step, position =>
    match page step position with
    | .error e => some (.error e)
    | .ok first =>
      if first.next = .complete then some (.ok [first])
      else if first.next = position then some (.error .internal)
      else (scanSteps page fuel (step + 1) first.next).map fun rest => rest.map (first :: ·)

/-- The loop over a library that stays as it is. -/
def scanPages (page : VerificationScanPosition → AssetResult VerificationStorePage)
    (fuel : ℕ) (position : VerificationScanPosition) :
    Option (AssetResult (List VerificationStorePage)) :=
  scanSteps (fun _ => page) fuel 0 position

/-! ## What one page holds -/

theorem take_take_succ {α : Type} (limit : ℕ) (rows : List α) :
    (rows.take (limit + 1)).take limit = rows.take limit := by
  rw [List.take_take, Nat.min_eq_left (Nat.le_succ limit)]

theorem lt_length_take_succ {α : Type} (limit : ℕ) (rows : List α) :
    (limit < (rows.take (limit + 1)).length) = (limit < rows.length) := by
  rw [List.length_take]
  exact propext ⟨fun h => by omega, fun h => by omega⟩

section Pages

variable {d : Database} {allowed : Call → Prop}

/-- **No command of a reachable ledger is inconsistent.** -/
theorem commandFinding_kind {r : CommandRow} (h : r.Valid) {runtimeId : Id .runtime}
    {finding : IntegrityFinding} (hfinding : commandFinding runtimeId r = some finding) :
    finding.kind ≠ .eventOrGraphInconsistent := by
  have hrecovery : (recoveryFinding r).kind ≠ .eventOrGraphInconsistent := by
    unfold recoveryFinding
    split <;> simp
  unfold commandFinding at hfinding
  cases hs : r.state with
  | claimed =>
    simp only [hs] at hfinding
    obtain ⟨-, hfinding⟩ := Option.ite_none_right_eq_some.1 hfinding
    rw [← Option.some_inj.1 hfinding]
    exact hrecovery
  | recoveryRequired =>
    have hmatrix := h.2
    simp only [knownCommandMatrix, hs, Option.any_eq_true] at hmatrix
    obtain ⟨code, hcode, -⟩ := hmatrix
    simp only [hs, h.isExternal (Or.inr hs), hcode, Option.isSome_some, and_self, if_true]
      at hfinding
    rw [← Option.some_inj.1 hfinding]
    exact hrecovery
  | completed | terminalRejected => simp [hs] at hfinding

theorem fromStore_eq_ok {page : VerificationStorePage} (hfindings : page.findings.length ≤ 256)
    (hcandidates : page.candidates.length ≤ 256) : page.fromStore = .ok page := by
  unfold VerificationStorePage.fromStore
  rw [if_neg (not_or.2 ⟨Nat.not_lt.2 hfindings, Nat.not_lt.2 hcandidates⟩)]

theorem length_filterMap_take_le {α β : Type} (f : α → Option β) (rows : List α) :
    ((rows.take storeScanPageMax).filterMap f).length ≤ 256 :=
  (List.length_filterMap_le _ _).trans (List.length_take_le _ _)

/-- A page of commands. -/
theorem scanCommands_eq (hvalid : LedgerValid d) (runtimeId : Id .runtime)
    (after : Option (Id .command)) :
    scanCommands d runtimeId after = .ok {
      findings := ((commandsFrom d after).take storeScanPageMax).filterMap
        (commandFinding runtimeId)
      candidates := []
      next := if storeScanPageMax < (commandsFrom d after).length then
          .commandsAfter (((commandsFrom d after).take storeScanPageMax).getLast?.map
            CommandRow.commandId)
        else .managedLocationsAfter none } := by
  have hmap : ((commandsFrom d after).take (storeScanPageMax + 1)).mapM
      validateCommandRow =
      .ok (((commandsFrom d after).take (storeScanPageMax + 1)).map fun r => r) :=
    exceptMapM_eq_ok fun r hr =>
      (hvalid r (mem_rowsAfter.1 (List.mem_of_mem_take hr)).1).validate
  unfold scanCommands
  rw [hmap, List.map_id']
  show VerificationStorePage.fromStore _ = _
  simp only [take_take_succ, lt_length_take_succ]
  exact fromStore_eq_ok (length_filterMap_take_le _ _) (by simp)

/-- The candidate of a row. -/
def rowCandidate (row : LocationRow × BlobRow) : BlobCandidate :=
  ⟨row.1.blobDigest, row.2.byteLength, row.2.revision, row.1.locationId, row.1.revision,
    row.1.backendId, row.1.locator⟩

/-- The verdict on a row in custody: by the number of its registrations. -/
def custodyVerdict (t : Tables) (snapshot : ℕ) (row : LocationRow × BlobRow) : LocationVerdict :=
  if (locationEvents t snapshot row.1.locationId).length = 1 then .candidate (rowCandidate row)
  else .inconsistent (graphFinding .location row.1.locationId.uuid rfl)

theorem mem_verifiedLocations {t : Tables} {snapshot : ℕ} {row : LocationRow × BlobRow} :
    row ∈ verifiedLocations t snapshot ↔ row.1 ∈ t.locations ∧ row.2 ∈ t.blobs ∧
      row.2.digest = row.1.blobDigest ∧ locationEvents t snapshot row.1.locationId ≠ [] := by
  unfold verifiedLocations
  simp only [mem_select, List.mem_singleton, Bool.not_eq_true', List.isEmpty_eq_false_iff,
    decide_eq_true_eq]
  constructor
  · rintro ⟨l, hl, hevents, b, hb, hdigest, rfl⟩
    exact ⟨hl, hb, hdigest, hevents⟩
  · rintro ⟨hl, hb, hdigest, hevents⟩
    exact ⟨row.1, hl, hevents, row.2, hb, hdigest, rfl⟩

/-- **In custody only the number of registrations can be wrong.** -/
theorem locationVerdict_eq (hcustody : Custody d) {snapshot : ℕ}
    {row : LocationRow × BlobRow} (hrow : row ∈ verifiedLocations d snapshot) :
    locationVerdict d snapshot row = .ok (custodyVerdict d snapshot row) := by
  obtain ⟨hl, hb, -, -⟩ := mem_verifiedLocations.1 hrow
  obtain ⟨hmanaged, hrevision, -⟩ := hcustody.locations _ hl
  obtain ⟨havailable, hpositive⟩ := hcustody.blobs _ hb
  have hlength := d.consistent.blobLengths _ hb
  have hblob : row.2.revision ≠ 0 := Nat.ne_of_gt hpositive
  have hlocation : row.1.revision ≠ 0 := by rw [hrevision]; decide
  have hstore : (rowCandidate row).fromStore = .ok (rowCandidate row) := by
    unfold BlobCandidate.fromStore
    rw [if_neg]
    simp [rowCandidate, hblob, hlocation, isStoredText_backendText, isStoredText_locatorText]
  unfold locationVerdict custodyVerdict
  simp only [hlocation, hblob, Nat.not_lt.2 hlength, or_self, if_false, hmanaged, havailable,
    true_and]
  split
  · exact congrArg (· >>= fun found => pure (LocationVerdict.candidate found)) hstore
  · rfl

/-- A page of locations. -/
theorem scanLocations_eq (hcustody : Custody d) (snapshot : ℕ)
    (after : Option (Id .location)) :
    scanLocations d snapshot after = .ok {
      findings := (((locationsFrom d snapshot after).take storeScanPageMax).map
        (custodyVerdict d snapshot)).filterMap LocationVerdict.finding?
      candidates := (((locationsFrom d snapshot after).take storeScanPageMax).map
        (custodyVerdict d snapshot)).filterMap LocationVerdict.candidate?
      next := if storeScanPageMax < (locationsFrom d snapshot after).length then
          .managedLocationsAfter (((locationsFrom d snapshot after).take
            storeScanPageMax).getLast?.map fun row => row.1.locationId)
        else .complete } := by
  have hmap : ((locationsFrom d snapshot after).take storeScanPageMax).mapM
      (locationVerdict d snapshot) =
      .ok (((locationsFrom d snapshot after).take storeScanPageMax).map
        (custodyVerdict d snapshot)) :=
    exceptMapM_eq_ok fun row hrow =>
      locationVerdict_eq hcustody (mem_rowsAfter.1 (List.mem_of_mem_take hrow)).1
  unfold scanLocations
  simp only [take_take_succ, lt_length_take_succ]
  rw [hmap]
  refine fromStore_eq_ok ?_ ?_
  all_goals
    simp only [List.filterMap_map]
    exact length_filterMap_take_le _ _

theorem verifiedLocations_distinct (d : Database) (snapshot : ℕ) :
    Distinct (fun row : LocationRow × BlobRow => row.1.locationId.key)
      (verifiedLocations d snapshot) := by
  have hkeys : Distinct (fun l : LocationRow => l.locationId.key) d.locations := by
    have h := List.Nodup.map Id.key_injective d.consistent.locationKeys
    rwa [List.map_map] at h
  refine hkeys.select (fun l _ row hrow => ?_) fun l _ _ => ?_
  · obtain ⟨b, -, -, hrow⟩ := mem_select.1 hrow
    rw [List.mem_singleton.1 hrow]
  · have hone := d.consistent.blobKeys.countP_le_one l.blobDigest
    simpa [select, List.countP_eq_length_filter, List.length_flatMap] using hone

end Pages

/-! ## Whole scans -/

section Phase

variable {α β τ : Type} {rest : Option τ → List α} {token : α → τ}
variable {page : ℕ → VerificationScanPosition → AssetResult VerificationStorePage}
variable {position : Option τ → VerificationScanPosition} {exit : VerificationScanPosition}
variable {limit : ℕ} (report : VerificationStorePage → List β) (value : α → Option β)

/-- **One phase of a scan.** If every page reports on the next rows, whatever
the step, and passes on either the token of its last row or the exit, the
phase reports on all the rows that are left and goes on from the exit. -/
theorem scanSteps_phase (hlimit : 0 < limit)
    (hrest : ∀ start, (rest start).length ≤ limit ∨ ∃ last,
      ((rest start).take limit).getLast? = some last ∧
        rest start = (rest start).take limit ++ rest (some (token last)))
    (hpage : ∀ step start, ∃ first, page step (position start) = .ok first ∧
      (report first).Perm (((rest start).take limit).filterMap value) ∧
      first.next = if limit < (rest start).length then
          position (((rest start).take limit).getLast?.map token) else exit)
    (hposition : Function.Injective position) (hopen : ∀ start, position start ≠ .complete)
    (hexit : ∀ start, exit ≠ position start) {reported : List β} {m : ℕ}
    (htail : exit = .complete ∧ reported = [] ∨ exit ≠ .complete ∧ ∀ step, ∃ tail,
      (∀ fuel, m < fuel → scanSteps page fuel step exit = some (.ok tail)) ∧
        (tail.flatMap report).Perm reported)
    (n step : ℕ) (start : Option τ) (hn : (rest start).length ≤ n) :
    ∃ pages, (∀ fuel, n + m + 1 < fuel →
        scanSteps page fuel step (position start) = some (.ok pages)) ∧
      (pages.flatMap report).Perm ((rest start).filterMap value ++ reported) := by
  induction n using Nat.strong_induction_on generalizing step start with
  | _ n ih =>
    obtain ⟨first, hfirst, hreport, hnext⟩ := hpage step start
    by_cases hmore : limit < (rest start).length
    · obtain ⟨last, hlast, hsplit⟩ := (hrest start).resolve_left (Nat.not_le.2 hmore)
      rw [if_pos hmore, hlast, Option.map_some] at hnext
      have hlength := congrArg List.length hsplit
      rw [List.length_append, List.length_take, Nat.min_eq_left hmore.le] at hlength
      obtain ⟨pages, hpages, hall⟩ := ih (n - 1) (by omega) (step + 1) (some (token last))
        (by omega)
      have hmoves : position (some (token last)) ≠ position start := by
        intro h
        rw [hposition h] at hlength
        omega
      refine ⟨first :: pages, fun fuel hfuel => ?_, ?_⟩
      · obtain ⟨fuel, rfl⟩ := Nat.exists_eq_succ_of_ne_zero (Nat.ne_zero_of_lt hfuel)
        simp only [scanSteps, hfirst, hnext]
        rw [if_neg (hopen _), if_neg hmoves, hpages fuel (by omega)]
        rfl
      · rw [List.flatMap_cons, hsplit, List.filterMap_append, List.append_assoc]
        exact hreport.append hall
    · rw [if_neg hmore] at hnext
      rw [List.take_of_length_le (Nat.not_lt.1 hmore)] at hreport
      rcases htail with ⟨hcomplete, rfl⟩ | ⟨hcomplete, htail⟩
      · refine ⟨[first], fun fuel hfuel => ?_, by simpa using hreport⟩
        obtain ⟨fuel, rfl⟩ := Nat.exists_eq_succ_of_ne_zero (Nat.ne_zero_of_lt hfuel)
        simp only [scanSteps, hfirst, hnext, if_pos hcomplete]
      · obtain ⟨tail, htail, hreported⟩ := htail (step + 1)
        refine ⟨first :: tail, fun fuel hfuel => ?_, hreport.append hreported⟩
        obtain ⟨fuel, rfl⟩ := Nat.exists_eq_succ_of_ne_zero (Nat.ne_zero_of_lt hfuel)
        simp only [scanSteps, hfirst, hnext]
        rw [if_neg hcomplete, if_neg (hexit start), htail fuel (by omega)]
        rfl

end Phase

section Scan

variable {d : Database} {libraryId : BitVec 128} {snapshot : VerificationSnapshot}

theorem commandKey_distinct (d : Database) :
    Distinct (fun r : CommandRow => r.commandId.key) d.commands := by
  have h := List.Nodup.map Id.key_injective d.consistent.commandKeys
  rwa [List.map_map] at h

/-- **A whole scan** of a library whose rows are valid and in custody ends,
and reports on every command and every registered location once. -/
theorem scanPages_findings (hlibrary : snapshot.libraryId = libraryId)
    (hvalid : LedgerValid d) (hcustody : Custody d) (runtimeId : Id .runtime) :
    ∃ pages n, (∀ fuel, n < fuel → scanPages
        (scanVerificationPage libraryId runtimeId d snapshot) fuel
        (.commandsAfter none) = some (.ok pages)) ∧
      (pages.flatMap VerificationStorePage.findings).Perm
        ((commandsFrom d none).filterMap (commandFinding runtimeId) ++
        (locationsFrom d snapshot.commitSequence none).filterMap fun row =>
          (custodyVerdict d snapshot.commitSequence row).finding?) := by
  have hlocations : ∀ after, scanVerificationPage libraryId runtimeId d snapshot
      (.managedLocationsAfter after) =
        scanLocations d snapshot.commitSequence after := by
    intro after
    unfold scanVerificationPage
    rw [if_neg (not_not.2 hlibrary)]
  have hcommands : ∀ after, scanVerificationPage libraryId runtimeId d snapshot
      (.commandsAfter after) = scanCommands d runtimeId after := by
    intro after
    unfold scanVerificationPage
    rw [if_neg (not_not.2 hlibrary)]
  have htail := fun step => scanSteps_phase VerificationStorePage.findings
    (fun row => (custodyVerdict d snapshot.commitSequence row).finding?) (by decide)
    (fun _ => (page_cases (verifiedLocations_distinct d _) (by decide)).imp And.left And.right)
    (fun _ start => ⟨_, (hlocations start).trans (scanLocations_eq hcustody _ start),
      .of_eq List.filterMap_map, rfl⟩)
    (fun a b h => VerificationScanPosition.managedLocationsAfter.inj h) (fun _ => by simp)
    (fun _ => by simp) (Or.inl ⟨rfl, rfl⟩) (m := 0) _ step none le_rfl
  simp only [List.append_nil] at htail
  obtain ⟨pages, hpages, hall⟩ := scanSteps_phase VerificationStorePage.findings
    (commandFinding runtimeId) (by decide)
    (fun _ => (page_cases (commandKey_distinct d) (by decide)).imp And.left And.right)
    (fun _ start => ⟨_, (hcommands start).trans (scanCommands_eq hvalid runtimeId start), .refl _,
      rfl⟩)
    (fun a b h => VerificationScanPosition.commandsAfter.inj h) (fun _ => by simp)
    (fun _ => by simp) (Or.inr ⟨by simp, htail⟩) _ 0 none le_rfl
  exact ⟨pages, _, hpages, hall⟩

end Scan

/-! ## Shared locations -/

/-- A completed ingest whose registration lies within the snapshot. -/
structure RegisteredWithin (t : Tables) (sequence : ℕ) (c : CommandRow) : Prop where
  stored : c ∈ t.commands
  operation : c.operationId = .assetIngest
  completed : c.state = .completed
  event : ∃ e ∈ t.domainEvents, e.commandId = c.commandId ∧ e.isRegistration = true ∧
    e.commitSequence ≤ sequence

/-- No two ingests that the snapshot covers ended at one location, as two
ingests of the same content do. -/
def LocationsUnshared (t : Tables) (sequence : ℕ) : Prop :=
  ∀ c c', RegisteredWithin t sequence c → RegisteredWithin t sequence c' →
    c.resultLocationId = c'.resultLocationId → c = c'

theorem mem_locationEvents {t : Tables} {sequence : ℕ} {id : Id .location} {c : CommandRow}
    {e : EventRow} : (c, e) ∈ locationEvents t sequence id ↔ c ∈ t.commands ∧
      c.resultLocationId = some id ∧ c.state = .completed ∧ e ∈ t.domainEvents ∧
        registersLocation sequence c e = true := by
  unfold locationEvents
  simp only [mem_select, List.mem_singleton, Bool.and_eq_true, decide_eq_true_eq, Prod.mk.injEq]
  constructor
  · rintro ⟨c', hc, ⟨hlocation, hstate⟩, e', he, hregisters, rfl, rfl⟩
    exact ⟨hc, hlocation, hstate, he, hregisters⟩
  · rintro ⟨hc, hlocation, hstate, he, hregisters⟩
    exact ⟨c, hc, ⟨hlocation, hstate⟩, e, he, hregisters, rfl, rfl⟩

section Shared

variable {d : Database} {sequence : ℕ} {id : Id .location} {c : CommandRow}

/-- Only ingests name a location as their result. -/
theorem CommandRow.Valid.operation_of_location (h : c.Valid) (hstate : c.state = .completed)
    (hlocation : c.resultLocationId = some id) : c.operationId = .assetIngest := by
  obtain ⟨hcolumns, hmatrix⟩ := h
  simp only [knownCommandMatrix, hstate, decide_eq_true_eq] at hmatrix
  simp only [resultColumnsValid, hstate, hmatrix, hlocation, Bool.and_eq_true] at hcolumns
  cases hop : c.operationId <;> rw [hop] at hcolumns <;>
    cases hpayload : c.resultPayload <;> simp_all [resultKindOf]

theorem RegisteredWithin.location (h : RegisteredWithin d sequence c)
    (hvalid : LedgerValid d) : ∃ l ∈ d.locations, c.resultLocationId =
      some l.locationId := by
  have hmatrix := (hvalid c h.stored).2
  simp only [knownCommandMatrix, h.completed, h.operation, decide_eq_true_eq] at hmatrix
  have hshape := d.consistent.commandShapes c h.stored
  simp only [CommandRow.shapeOk, h.completed, hmatrix, resultKindOf, Bool.and_eq_true] at hshape
  obtain ⟨k, hk⟩ := Option.isSome_iff_exists.1 hshape.2.1.2
  obtain ⟨l, hl, hlk⟩ := d.consistent.commandLocations c h.stored k hk
  exact ⟨l, hl, by rw [hk, hlk]⟩

/-- An ingest is joined to its location by its registration. -/
theorem RegisteredWithin.joined (h : RegisteredWithin d sequence c)
    (hregistrations : Registrations d) (hlocation : c.resultLocationId = some id) :
    ∃ e, (c, e) ∈ locationEvents d sequence id := by
  obtain ⟨e, he, hcommand, hregistration, hle⟩ := h.event
  have hkind := (hregistrations.completed e he hregistration).1
  have htype : e.eventType = .assetRegistered := by
    simpa [EventRow.isRegistration] using hregistration
  refine ⟨e, mem_locationEvents.2 ⟨h.stored, hlocation, h.completed, he, ?_⟩⟩
  simp [registersLocation, hcommand, hle, h.operation, htype, hkind]

/-- And what is joined to a location is an ingest with its registration. -/
theorem registeredWithin_of_joined (hvalid : LedgerValid d) {e : EventRow}
    (h : (c, e) ∈ locationEvents d sequence id) :
    RegisteredWithin d sequence c ∧ e.isRegistration = true ∧
      e.commandId = c.commandId := by
  obtain ⟨hc, hlocation, hstate, he, hregisters⟩ := mem_locationEvents.1 h
  have hoperation := (hvalid c hc).operation_of_location hstate hlocation
  simp only [registersLocation, hoperation, Bool.and_eq_true, decide_eq_true_eq, decide_true,
    Bool.true_and, Bool.or_eq_true, reduceCtorEq, decide_false, Bool.false_and,
    or_false] at hregisters
  obtain ⟨⟨hcommand, hle⟩, htype, -⟩ := hregisters
  have hregistration : e.isRegistration = true := by simp [EventRow.isRegistration, htype]
  exact ⟨⟨hc, hoperation, hstate, e, he, hcommand, hregistration, hle⟩, hregistration, hcommand⟩

/-- Each command is joined to a location once. -/
theorem locationEvents_distinct (hvalid : LedgerValid d)
    (hregistrations : Registrations d) :
    Distinct (fun row : CommandRow × EventRow => row.1.commandId)
      (locationEvents d sequence id) := by
  refine d.consistent.commandKeys.select (fun c _ row hrow => ?_) fun c hc hselected => ?_
  · obtain ⟨e, -, -, hrow⟩ := mem_select.1 hrow
    rw [List.mem_singleton.1 hrow]
  · simp only [Bool.and_eq_true, decide_eq_true_eq] at hselected
    have hone := hregistrations.distinct.countP_le_one c.commandId
    refine Nat.le_trans ?_ hone
    have hlength : (select (registersLocation sequence c) d.domainEvents fun e => [(c, e)]).length =
        d.domainEvents.countP (registersLocation sequence c) := by
      simp [select, List.countP_eq_length_filter, List.length_flatMap]
    rw [hlength, List.countP_filter]
    refine List.countP_mono_left fun e he hregisters => ?_
    have hjoined := registeredWithin_of_joined hvalid
      (mem_locationEvents.2 ⟨hc, hselected.1, hselected.2, he, hregisters⟩)
    simp [hjoined.2]

/-- **A location is joined more than once exactly when ingests share it.** -/
theorem locationsUnshared_iff (hvalid : LedgerValid d)
    (hregistrations : Registrations d) :
    (∀ row ∈ verifiedLocations d sequence,
      (locationEvents d sequence row.1.locationId).length = 1) ↔
      LocationsUnshared d sequence := by
  constructor
  · intro hone c c' hc hc' hsame
    obtain ⟨l, hl, hlocation⟩ := hc.location hvalid
    obtain ⟨b, hb, hdigest⟩ := d.consistent.locationBlobs l hl
    obtain ⟨e, he⟩ := hc.joined hregistrations hlocation
    obtain ⟨e', he'⟩ := hc'.joined hregistrations (hsame ▸ hlocation)
    have hlength := hone (l, b)
      (mem_verifiedLocations.2 ⟨hl, hb, hdigest, List.ne_nil_of_mem he⟩)
    obtain ⟨row, hrow⟩ := List.length_eq_one_iff.1 hlength
    rw [hrow, List.mem_singleton] at he he'
    exact (Prod.ext_iff.1 (he.trans he'.symm)).1
  · intro hunshared row hrow
    obtain ⟨-, -, -, hne⟩ := mem_verifiedLocations.1 hrow
    refine Nat.le_antisymm ?_ (List.length_pos_iff.2 hne)
    refine (locationEvents_distinct hvalid hregistrations).length_le_one
      fun x hx y hy => congrArg CommandRow.commandId ?_
    refine hunshared x.1 y.1 (registeredWithin_of_joined hvalid hx).1
      (registeredWithin_of_joined hvalid hy).1 ?_
    exact (mem_locationEvents.1 hx).2.1.trans (mem_locationEvents.1 hy).2.1.symm

end Shared

/-- **Verification is free of fatal findings exactly when no location is
shared.** The scan of a reachable library always ends; it declares the
library inconsistent as soon as two ingests within the snapshot ended at
one location, although the store itself reuses the location of content
that it already holds. -/
theorem scan_fatal_free_iff {allowed : Call → Prop} {d : Database} (hd : Reachable allowed d)
    (libraryId : BitVec 128) (runtimeId : Id .runtime) (snapshot : VerificationSnapshot)
    (hlibrary : snapshot.libraryId = libraryId) :
    ∃ pages n, (∀ fuel, n < fuel → scanPages
        (scanVerificationPage libraryId runtimeId d.toTables snapshot) fuel
        (.commandsAfter none) = some (.ok pages)) ∧
      ((∀ page ∈ pages, ∀ finding ∈ page.findings, finding.kind ≠ .eventOrGraphInconsistent) ↔
        LocationsUnshared d.toTables snapshot.commitSequence) := by
  obtain ⟨pages, n, hscan, hfindings⟩ :=
    scanPages_findings hlibrary hd.ledgerValid hd.custody runtimeId
  refine ⟨pages, n, hscan, ?_⟩
  have hall : (∀ page ∈ pages, ∀ finding ∈ page.findings,
      finding.kind ≠ .eventOrGraphInconsistent) ↔
      ∀ finding ∈ pages.flatMap VerificationStorePage.findings,
        finding.kind ≠ .eventOrGraphInconsistent := by
    simp only [List.mem_flatMap]
    exact ⟨fun h f ⟨p, hp, hf⟩ => h p hp f hf, fun h p hp f hf => h f ⟨p, hp, hf⟩⟩
  simp only [hall, hfindings.mem_iff]
  rw [← locationsUnshared_iff hd.ledgerValid hd.registrations]
  constructor
  · intro hfree row hrow
    by_contra hcount
    refine hfree (graphFinding .location row.1.locationId.uuid rfl)
      (List.mem_append_right _ (List.mem_filterMap.2 ⟨row, mem_rowsAfter_none.2 hrow, ?_⟩)) rfl
    simp [custodyVerdict, hcount, LocationVerdict.finding?]
  · intro hone finding hfinding
    rcases List.mem_append.1 hfinding with hcommand | hlocation
    · obtain ⟨r, hr, hr'⟩ := List.mem_filterMap.1 hcommand
      exact commandFinding_kind (hd.ledgerValid r (mem_rowsAfter_none.1 hr)) hr'
    · obtain ⟨row, hrow, hrow'⟩ := List.mem_filterMap.1 hlocation
      simp [custodyVerdict, hone row (mem_rowsAfter_none.1 hrow), LocationVerdict.finding?] at hrow'

/-- A snapshot of library 1. -/
def numberedSnapshot (sequence : ℕ) (h : sequence < 2 ^ 63) : VerificationSnapshot :=
  ⟨1, sequence, by decide, h⟩

/-- One ingest is verified without a fatal finding. -/
theorem one_ingest_verified : ∃ pages n,
    (∀ fuel, n < fuel → scanPages (scanVerificationPage 1 (.numbered 0) oneAsset.toTables
      (numberedSnapshot 1 (by decide))) fuel (.commandsAfter none) = some (.ok pages)) ∧
    ∀ page ∈ pages, ∀ finding ∈ page.findings, finding.kind ≠ .eventOrGraphInconsistent := by
  obtain ⟨pages, n, hscan, hfree⟩ :=
    scan_fatal_free_iff reachable_oneAsset 1 (.numbered 0) (numberedSnapshot 1 (by decide)) rfl
  refine ⟨pages, n, hscan, hfree.2 fun c c' hc hc' _ => ?_⟩
  have hone : ∀ x ∈ oneAsset.commands, ∀ y ∈ oneAsset.commands, x = y := by decide +kernel
  exact hone c hc.stored c' hc'.stored

/-- The library after two ingests of the same content. -/
def twoIngests : Database :=
  afterCalls oneAsset [.claimExternal (.numbered 200),
    .completeExternal (.numbered 200 (.numbered 1) (by decide))]

/-- **Two ingests of the same content make a library fatal**: the location
they share is reported as an inconsistency of the graph. -/
theorem duplicate_ingest_fatal : Reachable (fun _ => True) twoIngests ∧
    captureSnapshot 1 twoIngests.toTables = .ok (numberedSnapshot 2 (by decide)) ∧
    scanPages (scanVerificationPage 1 (.numbered 0) twoIngests.toTables
        (numberedSnapshot 2 (by decide))) 3 (.commandsAfter none) =
      some (.ok [⟨[], [], .managedLocationsAfter none⟩,
        ⟨[graphFinding .location (Uuid.numbered 105) rfl], [], .complete⟩]) := by
  refine ⟨reachable_afterCalls reachable_oneAsset fun _ _ => trivial, ?_, ?_⟩
  all_goals decide +kernel

end MengXia.Store
