import MengXia.CoreProto
import MengXia.Store.Run
/-!
# Responses to metadata mutations

How the daemon turns the outcome of a metadata mutation into a response.
A handler that returns an error instead of a response ends its session
with it, and the accept loop then stops the whole daemon.
-/

namespace MengXia.Daemon

open Common Txn Store

/-! ## Response functions -/

/-- `take_state_response`. -/
def takeStateResponse : TakeState → TakeStateValue
  | .candidate => .candidate
  | .shortlisted => .shortlisted
  | .selected => .selected
  | .approved => .approved
  | .rejected => .rejected
  | .superseded => .superseded

def assetLifecycleResponse : AssetLifecycle → AssetLifecycleValue
  | .active => .active
  | .retired => .retired

/-- The retry action both response functions choose for a rejection. -/
def rejectionRetry (code : ErrorCode) : RetryAction :=
  if code = .conflict then .freshCommand else .none

/-- The rejection branch both response functions have. -/
def rejectionResponse (code : ErrorCode) (correlationId : Text) :
    Except ErrorCode MutationResponse :=
  (operationErrorResponse code (rejectionRetry code) correlationId).map .error

/-- The success branch of `asset_metadata_mutation_response`. -/
def assetMetadataSuccess (commandId : Id .command) (target : Option AssetLifecycle)
    (result : CommandResult) (replayed : Bool) : Except ErrorCode MutationResponse :=
  match target, result with
  | none, .assetRevision assetId revisionId revision at_ =>
    .ok (.createAssetRevision
      ⟨commandId.toText, assetId.toText, revisionId.toText, revision, at_.seconds, at_.nanos,
        replayed⟩)
  | some expected, .versioned primaryId (.assetLifecycle revision lifecycle) at_ =>
    if lifecycle ≠ expected then .error .internalError
    else
      let value : AssetLifecycleMutationResult :=
        ⟨commandId.toText, primaryId.toText, revision, assetLifecycleResponse lifecycle,
          at_.seconds, at_.nanos, replayed⟩
      .ok (if lifecycle = .retired then .retireAsset value else .restoreAsset value)
  | _, _ => .error .internalError

/-- `asset_metadata_mutation_response`. -/
def assetMetadataMutationResponse (commandId : Id .command) (target : Option AssetLifecycle)
    (outcome : MutationOutcome) (correlationId : Text) : Except ErrorCode MutationResponse :=
  match outcome with
  | .applied result => assetMetadataSuccess commandId target result false
  | .replay result => assetMetadataSuccess commandId target result true
  | .terminalRejected code => rejectionResponse code correlationId
  | .recoveryRequired _ => .error .storageCorruption

/-- `CreativeMutationKind`. -/
inductive CreativeMutationKind where
  | createProject
  | reviseProject
  | createSubject
  | createWork
  | reviseWork
  | createTake
  | transitionTake
  | reopenTake
  deriving DecidableEq

/-- The message of a take mutation. -/
def takeMutationResult (commandId : Id .command) (primaryId : Uuid) (revision ordinal : ℕ)
    (state : TakeState) (primaryAssetId : Id .asset) (relatedTakeId : Option (Id .take))
    (at_ : Timestamp) (replayed : Bool) : TakeMutationResult where
  commandId := commandId.toText
  takeId := primaryId.toText
  ordinal := ordinal
  state := takeStateResponse state
  primaryAssetId := primaryAssetId.toText
  takeRevision := revision
  relatedTakeId := relatedTakeId.map Id.toText
  updatedAtSeconds := at_.seconds
  updatedAtNanos := at_.nanos
  replayed := replayed

/-- The success branch of `creative_mutation_response`. -/
def creativeSuccess (commandId : Id .command) (kind : CreativeMutationKind)
    (result : CommandResult) (replayed : Bool) : Except ErrorCode MutationResponse :=
  match result with
  | .versioned primaryId payload at_ =>
    match kind, payload with
    | .createProject, .project specRevisionId revision sequence =>
      .ok (.createProject ⟨commandId.toText, primaryId.toText, specRevisionId.toText, revision,
        sequence, at_.seconds, at_.nanos, replayed⟩)
    | .reviseProject, .projectSpecRevision projectId revision sequence =>
      .ok (.reviseProjectSpec ⟨commandId.toText, projectId.toText, primaryId.toText, revision,
        sequence, at_.seconds, at_.nanos, replayed⟩)
    | .createSubject, .subject revision =>
      .ok (.createSubject ⟨commandId.toText, primaryId.toText, revision, at_.seconds, at_.nanos,
        replayed⟩)
    | .createWork, .workItem workRevisionId revision sequence =>
      .ok (.createWorkItem ⟨commandId.toText, primaryId.toText, workRevisionId.toText, revision,
        sequence, at_.seconds, at_.nanos, replayed⟩)
    | .reviseWork, .workRevision workItemId revision sequence =>
      .ok (.reviseWork ⟨commandId.toText, workItemId.toText, primaryId.toText, revision,
        sequence, at_.seconds, at_.nanos, replayed⟩)
    | .createTake, .take revision ordinal state primaryAssetId relatedTakeId =>
      .ok (.createTake (takeMutationResult commandId primaryId revision ordinal state
        primaryAssetId relatedTakeId at_ replayed))
    | .transitionTake, .take revision ordinal state primaryAssetId relatedTakeId =>
      .ok (.transitionTake (takeMutationResult commandId primaryId revision ordinal state
        primaryAssetId relatedTakeId at_ replayed))
    | .reopenTake, .take revision ordinal state primaryAssetId relatedTakeId =>
      .ok (.reopenTake (takeMutationResult commandId primaryId revision ordinal state
        primaryAssetId relatedTakeId at_ replayed))
    | _, _ => .error .internalError
  | _ => .error .internalError

/-- `creative_mutation_response`. -/
def creativeMutationResponse (commandId : Id .command) (kind : CreativeMutationKind)
    (outcome : MutationOutcome) (correlationId : Text) : Except ErrorCode MutationResponse :=
  match outcome with
  | .applied result => creativeSuccess commandId kind result false
  | .replay result => creativeSuccess commandId kind result true
  | .terminalRejected code => rejectionResponse code correlationId
  | .recoveryRequired _ => .error .storageCorruption

/-! ## Metadata mutations -/

/-- The requests of the two mutation handlers, as they reach the store. -/
inductive MetadataMutation where
  | createAssetRevision (request : DeferredCreateAssetRevisionCommand)
  | changeLifecycle (request : DeferredAssetLifecycleCommand)
  | createProject (request : CreateProjectCommand)
  | reviseProject (request : ReviseProjectSpecCommand)
  | createSubject (request : CreateSubjectCommand)
  | createWork (request : CreateWorkCommand)
  | reviseWork (request : ReviseWorkCommand)
  | createTake (request : CreateTakeCommand)
  | transitionTake (request : TransitionTakeCommand)
  | reopenTake (request : ReopenTakeCommand)

namespace MetadataMutation

/-- The command of the store that a mutation is. -/
def command : MetadataMutation → PureCall
  | .createAssetRevision request => .createRevisionDeferred request
  | .changeLifecycle request => .changeAssetLifecycleDeferred request
  | .createProject request => .createProject request
  | .reviseProject request => .reviseProjectSpec request
  | .createSubject request => .createSubject request
  | .createWork request => .createWork request
  | .reviseWork request => .reviseWork request
  | .createTake request => .createTake request
  | .transitionTake request => .transitionTake request
  | .reopenTake request => .reopenTake request

/-- The store transaction of a mutation. -/
def execute (context : StoreContext) (mutation : MetadataMutation) : Tx MutationOutcome :=
  mutation.command.mutate context

/-- The response function of its handler. -/
def respond (outcome : MutationOutcome) (correlationId : Text) :
    MetadataMutation → Except ErrorCode MutationResponse
  | .createAssetRevision request =>
    assetMetadataMutationResponse request.binding.commandId none outcome correlationId
  | .changeLifecycle request =>
    assetMetadataMutationResponse request.binding.commandId (some request.target) outcome
      correlationId
  | .createProject request =>
    creativeMutationResponse request.binding.commandId .createProject outcome correlationId
  | .reviseProject request =>
    creativeMutationResponse request.binding.commandId .reviseProject outcome correlationId
  | .createSubject request =>
    creativeMutationResponse request.binding.commandId .createSubject outcome correlationId
  | .createWork request =>
    creativeMutationResponse request.binding.commandId .createWork outcome correlationId
  | .reviseWork request =>
    creativeMutationResponse request.binding.commandId .reviseWork outcome correlationId
  | .createTake request =>
    creativeMutationResponse request.binding.commandId .createTake outcome correlationId
  | .transitionTake request =>
    creativeMutationResponse request.binding.commandId .transitionTake outcome correlationId
  | .reopenTake request =>
    creativeMutationResponse request.binding.commandId .reopenTake outcome correlationId

/-- **Every mutation of the handlers is a pure command.** -/
theorem post_execute (context : StoreContext) (mutation : MetadataMutation) (d : Database) :
    post (mutation.execute context) (PureOutcome (fun _ => True) d) d :=
  post_mono (mutation.command.post_mutate context d trivial) fun _ _ h => h.toPureOutcome

theorem respond_rejected (mutation : MetadataMutation) (code : ErrorCode)
    (correlationId : Text) :
    mutation.respond (.terminalRejected code) correlationId =
      rejectionResponse code correlationId := by
  cases mutation <;> rfl

end MetadataMutation

/-! ## Rejections -/

/-- Of the codes a pure command is rejected with, only `NotFound` has a
response. -/
theorem rejectionResponse_error {code : ErrorCode} (hcode : isPureRejectionCode code = true)
    (hne : code ≠ .notFound) (correlationId : Text) :
    rejectionResponse code correlationId = .error .internalError := by
  cases code <;> first | rfl | exact absurd rfl hne | cases hcode

/-- **A rejected mutation is answered exactly when its code is
`NotFound`.** Every other rejection, fresh or replayed, ends the session
with `InternalError`, which stops the daemon. -/
theorem rejected_answered_iff (d : Database) (context : StoreContext)
    (mutation : MetadataMutation) (correlationId : Text) {code : ErrorCode}
    (h : ((mutation.execute context).run d).1 = .ok (.terminalRejected code)) :
    isPureRejectionCode code = true ∧
      ((∃ envelope, mutation.respond (.terminalRejected code) correlationId =
        .ok (.error envelope) ∧ envelope.code = code) ↔ code = .notFound) ∧
      (code ≠ .notFound →
        mutation.respond (.terminalRejected code) correlationId = .error .internalError) := by
  have hcode := (post_answer (mutation.post_execute context d) h).code code rfl
  rw [mutation.respond_rejected]
  by_cases hfound : code = .notFound
  · subst hfound
    exact ⟨hcode, iff_of_true ⟨_, rfl, rfl⟩ rfl, fun hne => absurd rfl hne⟩
  · have herror := rejectionResponse_error hcode hfound correlationId
    refine ⟨hcode, iff_of_false ?_ hfound, fun _ => herror⟩
    rintro ⟨envelope, henvelope, -⟩
    rw [herror] at henvelope
    cases henvelope

/-- A revision of the project with number 11, against revision 2. -/
def staleRevision : MetadataMutation :=
  .reviseProject (.numbered 20 (.numbered 11) 2)

/-- In an empty library there is no such project, and the client is told. -/
theorem missing_project_answered :
    ((staleRevision.execute firstProcess).run Database.empty).1 =
      .ok (.terminalRejected .notFound) ∧
    ∃ envelope, staleRevision.respond (.terminalRejected .notFound) [] =
      .ok (.error envelope) ∧ envelope.code = .notFound := by
  have h : ((staleRevision.execute firstProcess).run Database.empty).1 =
      .ok (.terminalRejected .notFound) := by decide +kernel
  exact ⟨h, (rejected_answered_iff Database.empty firstProcess staleRevision [] h).2.1.2 rfl⟩

/-- **A stale revision stops the daemon**: the store rejects it with
`Conflict`, and the response function has no response for that. -/
theorem stale_revision_unanswered : Reachable (fun _ => True) onlyProject ∧
    ((staleRevision.execute firstProcess).run onlyProject).1 =
      .ok (.terminalRejected .conflict) ∧
    staleRevision.respond (.terminalRejected .conflict) [] = .error .internalError :=
  ⟨.step firstProcess _ .empty trivial, by decide +kernel, rfl⟩

end MengXia.Daemon
