
import MengXia.Store.Assets
/-!
# Materialization claims and start-up classification

The durable side of a materialize command: it is claimed, reacquired by a
later process, completed or disposed of. At start-up every claim an earlier
process left is turned into a required recovery, page by page.
-/

namespace MengXia.Store

open Common

/-! ## Materialization commands -/

/-- The joined member of `replay_materialization`. -/
def materializedMembers (t : Tables) (command : MaterializationCommandBinding) :
    List (Digest × ℕ) :=
  select (fun a => a.assetId = command.assetId) t.assets fun a =>
  select (fun ar => ar.assetId = a.assetId && ar.assetRevisionId = command.assetRevisionId)
    t.assetRevisions fun ar =>
  select (fun rp => rp.assetRevisionId = ar.assetRevisionId &&
    rp.representationId = command.representationId) t.representations fun rp =>
  select (fun rs => rs.representationId = rp.representationId &&
    rs.resourceId = command.resourceId) t.resources fun rs =>
  select (fun rm => rm.resourceId = rs.resourceId && rm.ordinal = command.memberOrdinal)
    t.members fun rm =>
  select (fun b => b.digest = rm.blobDigest && b.lifecycle = .available) t.blobs fun b =>
    [(rm.blobDigest, b.byteLength)]

/-- `replay_materialization`. -/
def replayMaterialization (t : Tables) (row : CommandRow)
    (command : MaterializationCommandBinding) : AssetResult MaterializationResult :=
  if row.operationId = .assetMaterialize ∧ row.state = .completed ∧
      row.resultKind = some .assetRevision ∧
      row.resultId = some command.assetRevisionId.uuid ∧ row.resultLocationId = none then
    match (materializedMembers t command).head? with
    | none => .error .storageCorruption
    | some (digest, length) =>
      if 2 ^ 40 < length then .error .storageCorruption
      else .ok ⟨command.binding.commandId, command.assetRevisionId, command.representationId,
        command.resourceId, command.memberOrdinal, digest, length⟩
  else .error .storageCorruption

/-- `observe_materialization`. -/
def observeMaterialization (context : StoreContext) (command : MaterializationCommandBinding) :
    Tx MaterializationObservation := do
  let d ← Txn.read
  match readCommand d command.binding with
  | none => pure .absent
  | some _ =>
    let row ← Txn.lift (boundRow d context command.binding)
    match row.state with
    | .claimed =>
      if row.storeRuntimeId = context.runtimeId then pure .inProgress
      else pure (.recoveryCandidate none)
    | .recoveryRequired =>
      let code ← Txn.lift (parseSafeCode row)
      pure (.recoveryCandidate (some code))
    | .completed =>
      let result ← Txn.lift (replayMaterialization d row command)
      pure (.replay result)
    | .terminalRejected =>
      let code ← Txn.lift (parseSafeCode row)
      pure (.terminalRejected code)

/-- `claim_new_materialization`. -/
def claimNewMaterialization (context : StoreContext) (transition : MaterializationTransition) :
    Tx Unit := do
  let d ← Txn.read
  match readCommand d transition.command.binding with
  | some _ => Txn.fail .conflict
  | none =>
    insertClaim context transition.command.binding transition.at_
    commit

/-- The columns `reacquire_materialization` sets. -/
def CommandRow.reacquire (runtime : Id .runtime) (at_ : Timestamp) (r : CommandRow) :
    CommandRow :=
  { r with storeRuntimeId := runtime, state := .claimed, safeErrorCode := none, updatedAt := at_ }

/-- Whether the stored row is the recovery candidate the caller observed. -/
def isReacquirable (context : StoreContext) (row : CommandRow) : Option ErrorCode → Bool
  | none => row.state = .claimed && row.storeRuntimeId ≠ context.runtimeId
  | some code => row.state = .recoveryRequired && isMaterializationRecoveryCode code &&
    row.safeErrorCode = some code

/-- `reacquire_materialization`. -/
def reacquireMaterialization (context : StoreContext) (transition : MaterializationTransition)
    (expected : Option ErrorCode) : Tx Unit := do
  let d ← Txn.read
  let row ← Txn.lift (boundRow d context transition.command.binding)
  if isReacquirable context row expected then
    let changed ← updateCommands
      (fun r => r.commandId = transition.command.binding.commandId && r.state = row.state &&
        r.storeRuntimeId = row.storeRuntimeId && r.safeErrorCode = expected)
      (CommandRow.reacquire context.runtimeId transition.at_) fun _ => rfl
    if changed ≠ 1 then Txn.fail .conflict else commit
  else Txn.fail .conflict

/-- `complete_materialization`. -/
def completeMaterialization (context : StoreContext) (transition : MaterializationTransition) :
    Tx MaterializationResult := do
  let d ← Txn.read
  let binding := transition.command.binding
  let row ← Txn.lift (boundRow d context binding)
  if row.state = .claimed ∧ row.storeRuntimeId = context.runtimeId then
    let changed ← updateCommands
      (fun r => r.commandId = binding.commandId && r.state = .claimed &&
        r.storeRuntimeId = context.runtimeId)
      (CommandRow.complete .assetRevision transition.command.assetRevisionId.uuid none none
        transition.at_) fun _ => rfl
    if changed ≠ 1 then Txn.fail .storageCorruption
    else
      let d ← Txn.read
      match readCommand d binding with
      | none => Txn.fail .storageCorruption
      | some row =>
        let completed ← Txn.lift (validateCommandRow row)
        let result ← Txn.lift (replayMaterialization d completed transition.command)
        commit
        pure result
  else Txn.fail .conflict

/-- `finish_materialization`. -/
def finishMaterialization (context : StoreContext) (request : MaterializationFinish) :
    Tx ExternalDispositionOutcome := do
  let d ← Txn.read
  let binding := request.transition.command.binding
  let row ← Txn.lift (boundRow d context binding)
  if row.state = .claimed ∧ row.storeRuntimeId = context.runtimeId then
    let changed ← updateCommands
      (fun r => r.commandId = binding.commandId && r.state = .claimed &&
        r.storeRuntimeId = context.runtimeId)
      (CommandRow.dispose request.disposition request.transition.at_) fun _ => rfl
    if changed ≠ 1 then Txn.fail .storageCorruption
    else
      commit
      pure .stored
  else repeatDisposition row request.disposition

/-! ## Start-up classification -/

/-- `capture_startup_mutation_boundary`: the largest command id. -/
def startupBoundary (t : Tables) : Option (Id .command) :=
  t.commands.foldl (fun best r =>
    match best with
    | none => some r.commandId
    | some id => if id.key < r.commandId.key then some r.commandId else some id) none

/-- The column value a classification page selects. -/
def StartupMutationState.column : StartupMutationState → CommandState
  | .claimed => .claimed
  | .recoveryRequired => .recoveryRequired

/-- The page query: at most 256 rows of one state up to the boundary and
after the cursor, by command id. -/
def startupRows (t : Tables) (request : StartupMutationPageRequest) (boundary : Id .command) :
    List CommandRow :=
  ((t.commands.filter fun r =>
      r.state = StartupMutationState.column request.state && r.commandId.key ≤ boundary.key &&
        request.afterCommandId.all fun after => after.key < r.commandId.key).mergeSort
    fun a b => a.commandId.key ≤ b.commandId.key).take 256

/-- One row of a classification page. -/
def classifyRow (context : StoreContext) (request : StartupMutationPageRequest)
    (raw : CommandRow) : Tx Unit := do
  let row ← Txn.lift (validateCommandRow raw)
  if row.principalUid ≠ context.ownerUid ∨ isExternal row.operationId = false then
    Txn.fail .storageCorruption
  else
    match request.state with
    | .recoveryRequired => pure ()
    | .claimed =>
      if row.storeRuntimeId = context.runtimeId then Txn.fail .storageCorruption
      else
        let changed ← updateCommands
          (fun r => r.commandId = row.commandId && r.state = .claimed &&
            r.storeRuntimeId = row.storeRuntimeId)
          (fun r => { r with
            state := .recoveryRequired
            safeErrorCode := some .storageConfigurationError
            updatedAt := request.classifiedAt })
          fun _ => rfl
        if changed ≠ 1 then Txn.fail .storageCorruption else pure ()

/-- `StartupMutationPage::__from_store`. -/
def startupPage (page : StartupMutationPage) : AssetResult StartupMutationPage :=
  if (!page.complete && page.lastCommandId.isNone) ||
      (page.recoveryRequiredCount ≠ 0 && page.lastCommandId.isNone) ||
      256 < page.recoveryRequiredCount then
    .error .storageCorruption
  else .ok page

/-- `classify_startup_mutation_page`, with a control that never stops it. -/
def classifyStartupMutationPage (context : StoreContext)
    (request : StartupMutationPageRequest) : Tx StartupMutationPage := do
  match request.boundary with
  | none =>
    if request.afterCommandId.isSome then Txn.fail .validation
    else Txn.lift (startupPage ⟨none, 0, true⟩)
  | some boundary =>
    if request.afterCommandId.any fun after => boundary.key < after.key then
      Txn.fail .validation
    else
      let d ← Txn.read
      let rows := startupRows d request boundary
      Txn.forEach rows (classifyRow context request)
      commit
      let last := rows.getLast?.map CommandRow.commandId
      let count := if request.state = .recoveryRequired then rows.length else 0
      Txn.lift (startupPage ⟨last, count, rows.length < 256 || last = some boundary⟩)

end MengXia.Store
