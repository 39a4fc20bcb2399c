import MengXia.Store.Invariants
/-!
# Invariants of the ledger and of custody

Every stored command row passes the checks that are made when it is read
back; every blob and every location stays an available managed copy; and
each completed ingest has exactly one registration event.
-/

namespace MengXia.Store

open Common

variable {allowed : Call → Prop}

variable {r r' : CommandRow} {d : Database} {t t' : Tables}

/-! ## Command rows -/

/-- What `validate_command_row` checks. -/
def CommandRow.Valid (r : CommandRow) : Prop :=
  resultColumnsValid r = true ∧ knownCommandMatrix r = true

theorem CommandRow.Valid.validate (h : r.Valid) :
    validateCommandRow r = .ok r :=
  validateCommandRow_eq_ok.2 ⟨h.1, h.2, rfl⟩

/-- The columns of a valid row that holds no result. -/
theorem CommandRow.Valid.noResult (h : r.Valid) (hstate : r.state ≠ .completed) :
    r.resultKind = none ∧ r.resultId = none ∧ r.resultLocationId = none ∧
      r.resultPayload = none := by
  have hcolumns := h.1
  unfold resultColumnsValid at hcolumns
  cases hs : r.state with
  | completed => exact absurd hs hstate
  | claimed | terminalRejected | recoveryRequired =>
    simp only [hs, Bool.and_eq_true, Option.isNone_iff_eq_none] at hcolumns
    exact ⟨hcolumns.1.1.1.1, hcolumns.1.1.1.2, hcolumns.1.1.2, hcolumns.1.2⟩

/-- A claimed row has no error. -/
theorem CommandRow.Valid.noCode (h : r.Valid) (hclaimed : r.state = .claimed) :
    r.safeErrorCode = none := by
  have hcolumns := h.1
  simp only [resultColumnsValid, hclaimed, Bool.and_eq_true, Option.isNone_iff_eq_none] at hcolumns
  exact hcolumns.2

/-- Only external commands wait for their end. -/
theorem CommandRow.Valid.isExternal (h : r.Valid)
    (hstate : r.state = .claimed ∨ r.state = .recoveryRequired) :
    isExternal r.operationId = true := by
  obtain ⟨-, hmatrix⟩ := h
  rcases hstate with hstate | hstate
  · simpa only [knownCommandMatrix, hstate] using hmatrix
  · simp only [knownCommandMatrix, hstate, Option.any_eq_true] at hmatrix
    obtain ⟨code, -, hcode⟩ := hmatrix
    cases hop : r.operationId <;> rw [hop] at hcode <;> first | rfl | cases hcode

/-- The row an ingest completes with. -/
theorem CommandRow.Valid.ingested (h : r.Valid) (hclaimed : r.state = .claimed)
    (hoperation : r.operationId = .assetIngest) (id : Uuid) (location : Id .location)
    (at_ : Timestamp) : (r.complete .asset id (some location) none at_).Valid := by
  simp [CommandRow.Valid, resultColumnsValid, knownCommandMatrix, CommandRow.complete, hoperation,
    resultKindOf, h.noCode hclaimed]

/-- A move of an external command keeps its row valid. -/
theorem ExternalMove.valid (hmove : ExternalMove r r') (h : r.Valid)
    (hexternal : isExternal r.operationId = true) : r'.Valid := by
  cases hmove with
  | disposed disposition at_ claimed accepted =>
    obtain ⟨hkind, hid, hlocation, hpayload⟩ := h.noResult (by simp [claimed])
    cases disposition <;> rw [Disposition.isOf] at accepted <;>
      simp [CommandRow.Valid, resultColumnsValid, knownCommandMatrix, CommandRow.dispose,
        Disposition.stored, hkind, hid, hlocation, hpayload, accepted]
  | reacquired runtime at_ operation state =>
    obtain ⟨hkind, hid, hlocation, hpayload⟩ := h.noResult (by
      rcases state with state | ⟨state, -⟩ <;> simp [state])
    simp [CommandRow.Valid, resultColumnsValid, knownCommandMatrix, CommandRow.reacquire,
      hkind, hid, hlocation, hpayload, hexternal]
  | materialized revisionId at_ operation claimed =>
    simp [CommandRow.Valid, resultColumnsValid, knownCommandMatrix, CommandRow.complete,
      operation, resultKindOf, h.noCode claimed]

/-- The row a pure command completes with. -/
theorem valid_complete {context : StoreContext} {binding : CommandBinding} {at_ : Timestamp}
    {kind : ResultKind} {id : Uuid} {payload : Option VersionedResultPayload}
    (hkind : resultKindOf binding.operationId = kind)
    (hpayload : match payload with
      | none => kind = .assetRevision ∨ kind = .location
      | some p => p.resultKind = kind) :
    ((claimRow context binding at_).complete kind id none payload at_).Valid := by
  cases payload with
  | none =>
    rcases hpayload with rfl | rfl <;>
      simp [CommandRow.Valid, resultColumnsValid, knownCommandMatrix, CommandRow.complete,
        claimRow, hkind]
  | some p =>
    simp [CommandRow.Valid, resultColumnsValid, knownCommandMatrix, CommandRow.complete,
      claimRow, hkind, hpayload]

/-- The row a pure command is rejected with. -/
theorem valid_reject {context : StoreContext} {binding : CommandBinding} {at_ : Timestamp}
    {code : ErrorCode} (hpure : isExternal binding.operationId = false)
    (hcode : isPureRejectionCode code = true) :
    ((claimRow context binding at_).reject code at_).Valid := by
  simp [CommandRow.Valid, resultColumnsValid, knownCommandMatrix, CommandRow.reject, claimRow,
    isTerminalCodeOf_pure hpure, hcode]

/-- Every stored row is valid. -/
def LedgerValid (t : Tables) : Prop :=
  ∀ r ∈ t.commands, r.Valid

section Known

variable {context : StoreContext} {binding : CommandBinding} {row : CommandRow} {kind : ResultKind}

theorem boundRow_of_bound (h : Bound d binding context.ownerUid row)
    (hvalid : LedgerValid d) : boundRow d context binding = .ok row := by
  simp only [boundRow, h.read, h.binds, if_true, (hvalid row h.mem).validate]

theorem replayExisting_of_bound {outcome : MutationOutcome}
    (h : Bound d binding context.ownerUid row) (hvalid : LedgerValid d)
    (houtcome : replayPure d row kind = .ok outcome) :
    replayExisting d context binding kind = .ok (some outcome) := by
  simp only [replayExisting, h.read]
  exact exceptBind_eq_ok.2 ⟨row, boundRow_of_bound h hvalid,
    exceptBind_eq_ok.2 ⟨outcome, houtcome, rfl⟩⟩

theorem replayPure_applied {result : CommandResult} (hvalid : row.Valid)
    (hstate : row.state = .completed) (hresult : replayResult t row = .ok result) :
    replayPure t row (resultKindOf row.operationId) = .ok (.replay result) := by
  have hkind := hvalid.2
  simp only [knownCommandMatrix, hstate, decide_eq_true_eq] at hkind
  simp only [replayPure, hstate, hkind, if_true, hresult]
  rfl

theorem boundRow_conflict (hread : readCommand t binding = some row)
    (hmatch : bindingMatches row binding context.ownerUid = false) :
    boundRow t context binding = .error .conflict := by
  simp [boundRow, hread, hmatch]

theorem replayExisting_conflict (hread : readCommand t binding = some row)
    (hmatch : bindingMatches row binding context.ownerUid = false) :
    replayExisting t context binding kind = .error .conflict := by
  simp only [replayExisting, hread, boundRow_conflict hread hmatch]
  rfl

end Known

theorem LedgerValid.change (h : LedgerValid t) (hchange : Change allowed t t') :
    LedgerValid t' := by
  cases hchange with
  | claimed context binding at_ fresh external =>
    refine forall_mem_append_singleton h ?_
    simp [CommandRow.Valid, resultColumnsValid, knownCommandMatrix, claimRow, external]
  | moved r r' mem external move =>
    exact forall_mem_updateWhere h fun _ _ _ => move.valid (h r mem) external
  | rejected context binding code at_ fresh pure known =>
    exact forall_mem_append_singleton h (valid_reject pure known)
  | registered context request blobs locations location r mem id operation claimed persisted =>
    exact forall_mem_updateWhere h fun _ _ _ => (h r mem).ingested claimed operation _ _ _
  | revisionCreated context request =>
    exact forall_mem_append_singleton h (valid_complete (by rw [request.operation]; rfl)
      (Or.inl rfl))
  | lifecycleChanged context request =>
    refine forall_mem_append_singleton h (valid_complete ?_ rfl)
    rw [request.operation]
    cases request.target <;> rfl
  | locationRecorded context request =>
    exact forall_mem_append_singleton h (valid_complete (by rw [request.operation]; rfl)
      (Or.inr rfl))
  | projectRevisionLeft context request | workRevisionLeft context request =>
    exact forall_mem_append_singleton h (valid_reject (by rw [request.operation]; rfl) rfl)
  | projectCreated context request | projectRevised context request
  | subjectCreated context request | workCreated context request | workRevised context request
  | takeCreated context request | takeMoved context request | takeReplaced context request
  | takeSuperseded context request | takeReopened context request =>
    exact forall_mem_append_singleton h (valid_complete (by rw [request.operation]; rfl) rfl)

/-- **Every row of a reachable ledger is valid.** -/
theorem Reachable.ledgerValid (h : Reachable allowed d) :
    LedgerValid d :=
  h.induct (P := LedgerValid) (fun _ hr => by cases hr) fun _ _ h hchange => h.change hchange

/-! ## Blobs and locations -/

/-- Blobs stay available and every location is a managed copy of its blob. -/
structure Custody (t : Tables) : Prop where
  blobs : ∀ b ∈ t.blobs, b.lifecycle = .available ∧ 1 ≤ b.revision
  locations : ∀ l ∈ t.locations, l.isManagedCopy = true ∧ l.revision = 1 ∧
    l.locator = l.blobDigest

theorem Custody.change (h : Custody t) (hchange : Change allowed t t') :
    Custody t' := by
  cases hchange with
  | registered context request blobs locations location r mem id operation claimed persisted =>
    refine ⟨?_, ?_⟩
    · rcases persisted.blobs with ⟨-, -, -, -, -, -, hblobs⟩ | ⟨-, hblobs⟩
      · exact hblobs ▸ h.blobs
      · exact hblobs ▸ forall_mem_append_singleton h.blobs ⟨rfl, le_rfl⟩
    · rcases persisted.locations with ⟨-, -, -, -, -, -, hlocations⟩ | ⟨-, -, hlocations⟩
      · exact hlocations ▸ h.locations
      · exact hlocations ▸ forall_mem_append_singleton h.locations ⟨rfl, rfl, rfl⟩
  | locationRecorded context request blob fresh mem id available =>
    refine ⟨forall_mem_updateWhere h.blobs fun b hb _ => ⟨(h.blobs b hb).1, ?_⟩,
      forall_mem_append_singleton h.locations ⟨rfl, rfl, rfl⟩⟩
    exact Nat.succ_pos _
  | _ => exact ⟨h.blobs, h.locations⟩

/-- **Custody is never given up** by the commands of the store. -/
theorem Reachable.custody (h : Reachable allowed d) : Custody d :=
  h.induct (P := Custody) ⟨fun _ hb => (by cases hb), fun _ hl => by cases hl⟩
    fun _ _ h hchange => h.change hchange

/-! ## Registrations -/

/-- The events that register an asset. -/
def EventRow.isRegistration (e : EventRow) : Bool :=
  e.eventType = .assetRegistered

/-- Each registration is the one event of its own completed ingest. -/
structure Registrations (t : Tables) : Prop where
  distinct : Distinct EventRow.commandId (t.domainEvents.filter (·.isRegistration))
  completed : ∀ e ∈ t.domainEvents, e.isRegistration = true → e.aggregateKind = .asset ∧
    ∃ c ∈ t.commands, c.commandId = e.commandId ∧ c.state = .completed

/-- A completed row is not the one that a move of another row replaces. -/
theorem mem_updateWhere_completed {commands : List CommandRow} {c : CommandRow}
    (hkeys : Distinct CommandRow.commandId commands) (hr : r ∈ commands) (hc : c ∈ commands)
    (hstate : c.state = .completed) (hmoves : r.state ≠ .completed) :
    c ∈ updateWhere (fun x => x.commandId = r.commandId) (fun _ => r') commands := by
  refine mem_updateWhere.2 ⟨c, hc, ?_⟩
  rw [if_neg]
  intro hid
  rw [hkeys.eq_of_mem hc hr (by simpa using hid)] at hstate
  exact hmoves hstate

theorem ExternalMove.not_completed (h : ExternalMove r r') :
    r.state ≠ .completed := by
  cases h with
  | disposed _ _ claimed | materialized _ _ _ claimed => simp [claimed]
  | reacquired _ _ _ state => rcases state with state | ⟨state, -⟩ <;> simp [state]

end MengXia.Store
