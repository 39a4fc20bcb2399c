
import MengXia.Daemon.AssetQuery
/-!
# Which store errors stop the daemon

A handler that returns an error ends its session with it, and the accept
loop then stops the daemon. `query_fatal_code` says which errors of the
store are to do so; four of the handlers follow it, and the one for creative
mutations does not ask it.
-/

namespace MengXia.Daemon

open Common Store

/-! ## Handlers of mutations -/

/-- `bound_task_009_response`, of the answer to a mutation. -/
def boundMutationResponse (response : MutationResponse) (correlationId : Text) :
    Except ErrorCode MutationResponse :=
  if CoreProto.mutationEncodedLen response ≤ maxResponseBytes then .ok response
  else (operationErrorResponse .validationError .none correlationId).map .error

/-- `serve_asset_metadata_mutation`, from the result of the store call on:
the response it hands to `write_core_response` and the code it returns with
afterwards, if any. -/
def serveAssetMetadataMutation (mutation : MetadataMutation) (correlation : Uuid)
    (result : AssetResult MutationOutcome) :
    Except ErrorCode (MutationResponse × Option ErrorCode) :=
  match result with
  | .ok outcome => do
    let response ← mutation.respond outcome correlation.toText
    let response ← boundMutationResponse response correlation.toText
    pure (response, none)
  | .error error => do
    let envelope ← queryErrorEnvelope error correlation.toText
    let response ← boundMutationResponse (.error envelope) correlation.toText
    pure (response, queryFatalCode error)

/-- `serve_creative_mutation`, from the result of the store call on. Once a
response is made, it always returns `Ok`. -/
def serveCreativeMutation (mutation : MetadataMutation) (correlation : Uuid)
    (result : AssetResult MutationOutcome) :
    Except ErrorCode (MutationResponse × Option ErrorCode) := do
  let response ← match result with
    | .ok outcome => mutation.respond outcome correlation.toText
    | .error error => do
      let envelope ← queryErrorEnvelope error correlation.toText
      pure (.error envelope)
  let response ← boundMutationResponse response correlation.toText
  pure (response, none)

/-- The mutations that `serve_creative_mutation` serves. -/
def MetadataMutation.isCreative : MetadataMutation → Bool
  | .createAssetRevision _ | .changeLifecycle _ => false
  | _ => true

/-- The handler of a mutation. -/
def serveMutation (mutation : MetadataMutation) (correlation : Uuid)
    (result : AssetResult MutationOutcome) :
    Except ErrorCode (MutationResponse × Option ErrorCode) :=
  if mutation.isCreative then serveCreativeMutation mutation correlation result
  else serveAssetMetadataMutation mutation correlation result

/-! ## What a request ends as -/

/-- The queries and mutations the daemon serves. A mutation stands for a
request that was decoded; one that was not never reaches the store. -/
inductive ServedRequest where
  | listAssets (request : ListAssetsRequest)
  | inspectAsset (request : InspectAssetRequest)
  | creativeQuery (request : CreativeListRequest)
  | mutation (mutation : MetadataMutation)

/-- What the handler of a request ends as: the error the client is told of,
if any, and what the handler returns. -/
structure Ending where
  told : Option ErrorEnvelope
  returned : Except ErrorCode Unit

/-- `fatal.map_or(Ok(()), Err)`, after the response was written. -/
def Ending.of {ρ : Type} (envelope : ρ → Option ErrorEnvelope) :
    Except ErrorCode (ρ × Option ErrorCode) → Ending
  | .error code => ⟨none, .error code⟩
  | .ok (response, fatal) => ⟨envelope response, fatal.elim (.ok ()) .error⟩

def assetQueryEnvelope : CoreProto.AssetQueryResponse → Option ErrorEnvelope
  | .error envelope => some envelope
  | _ => none

theorem assetQueryEnvelope_error (e : ErrorEnvelope) : assetQueryEnvelope (.error e) = some e := rfl

def creativeListEnvelope : CoreProto.CreativeListResponse → Option ErrorEnvelope
  | .error envelope => some envelope
  | _ => none

theorem creativeListEnvelope_error (e : ErrorEnvelope) :
    creativeListEnvelope (.error e) = some e := rfl

def mutationEnvelope : MutationResponse → Option ErrorEnvelope
  | .error envelope => some envelope
  | _ => none

theorem mutationEnvelope_error (e : ErrorEnvelope) : mutationEnvelope (.error e) = some e := rfl

/-- What a handler is served in: the library and its state, the process, the
connection, and the error with which the wait or the store's runtime ends the
store call, if one does. -/
structure Serving where
  libraryId : BitVec 128
  database : Database
  context : StoreContext
  maximumTimeout : ℕ
  correlation : Uuid
  protocolMinor : ℕ
  interruption : Option AssetStoreError

/-- The error of a result. -/
def failure {ε α : Type} : Except ε α → Option ε
  | .error e => some e
  | .ok _ => none

namespace Serving

variable {N : Type} [DecidableEq N] (numbers : JsonNumbers N) (s : Serving)

/-- What a store call returns, unless it is interrupted. -/
def storeResult {α : Type} (result : AssetResult α) : AssetResult α :=
  s.interruption.elim result Except.error

/-- The error that the store call of a request returns, if the request gets
to its store call and that fails. -/
def storeError : ServedRequest → Option AssetStoreError
  | .listAssets request =>
    match decodeQueryTimeout request.operationTimeoutMs with
    | .error _ => none
    | .ok _ => failure (s.storeResult (AssetQueryService.listAssets s.libraryId
        s.database.toTables request.pageSize (requestCursor request.cursor)))
  | .inspectAsset request =>
    match decodeInspectAsset request with
    | .error _ => none
    | .ok (assetId, assetRevisionId) => failure (s.storeResult (AssetQueryService.inspectAsset
        s.libraryId s.database.toTables assetId assetRevisionId request.pageSize
        (requestCursor request.cursor)))
  | .creativeQuery request =>
    match decodeCreativeList s.maximumTimeout request with
    | .error _ => none
    | .ok query => failure (s.storeResult
        (answerCreativeList numbers s.libraryId s.database.toTables query))
  | .mutation mutation =>
    failure (s.storeResult ((mutation.execute s.context).run s.database).1)

/-- Serving a request. -/
def serve : ServedRequest → Ending
  | .listAssets request => .of assetQueryEnvelope (serveListAssets s.libraryId s.database.toTables
      s.correlation s.protocolMinor s.interruption request)
  | .inspectAsset request => .of assetQueryEnvelope (serveInspectAsset s.libraryId
      s.database.toTables s.correlation s.protocolMinor s.interruption request)
  | .creativeQuery request => .of creativeListEnvelope (serveCreativeQuery numbers s.libraryId
      s.database.toTables s.maximumTimeout s.correlation s.interruption request)
  | .mutation mutation => .of mutationEnvelope (serveMutation mutation s.correlation
      (s.storeResult ((mutation.execute s.context).run s.database).1))

end Serving

/-! ## The classification -/

/-- The errors that are to stop the daemon. -/
def stoppingErrors : List AssetStoreError :=
  [.storageIo, .storageCorruption, .internal]

/-- The errors that are to be told to the client. -/
def answeredErrors : List AssetStoreError :=
  [.validation, .notFound, .conflict, .storageBusy, .storageConfiguration, .backpressure,
    .operationCancelled, .deadlineExceeded, .idGenerationUnavailable]

/-- **A request ends as its store error asks**: with the error's code, which
stops the daemon, or with an answer of that code. -/
structure Ending.Follows (ending : Ending) (error : AssetStoreError) : Prop where
  stops : error ∈ stoppingErrors → ending.returned = .error error.errorCode
  answers : error ∈ answeredErrors → ending.returned = .ok () ∧
    ∃ envelope, ending.told = some envelope ∧ envelope.code = error.errorCode

/-- A failed store call as four of the handlers end it. -/
def classified {ρ : Type} (wrap : ErrorEnvelope → ρ) (correlation : Uuid)
    (error : AssetStoreError) : Except ErrorCode (ρ × Option ErrorCode) := do
  let envelope ← queryErrorEnvelope error correlation.toText
  pure (wrap envelope, queryFatalCode error)

/-- A failed store call as the handler of creative mutations ends it. -/
def answeredOnly {ρ : Type} (wrap : ErrorEnvelope → ρ) (correlation : Uuid)
    (error : AssetStoreError) : Except ErrorCode (ρ × Option ErrorCode) := do
  let envelope ← queryErrorEnvelope error correlation.toText
  pure (wrap envelope, none)

section Endings

variable {ρ : Type} {envelope : ρ → Option ErrorEnvelope} {wrap : ErrorEnvelope → ρ}

/-- **Asking `query_fatal_code` follows the classification.** -/
theorem follows_classified (hwrap : ∀ e, envelope (wrap e) = some e) (correlation : Uuid)
    (error : AssetStoreError) :
    (Ending.of envelope (classified wrap correlation error)).Follows error := by
  have htold : ∀ told, (Ending.of envelope (.ok (wrap told, none))).told = some told := hwrap
  cases error
  case storageIo | storageCorruption | internal =>
    exact ⟨fun _ => rfl, fun h => absurd h (by decide)⟩
  case invalidTransition | revisionExhausted | shuttingDown =>
    exact ⟨fun h => absurd h (by decide), fun h => absurd h (by decide)⟩
  all_goals exact ⟨fun h => absurd h (by decide), fun _ => ⟨rfl, _, htold _, rfl⟩⟩

/-- **Not asking it keeps the daemon going** after two of the errors that are
to stop it, and makes no difference otherwise. -/
theorem follows_answeredOnly_iff (hwrap : ∀ e, envelope (wrap e) = some e) (correlation : Uuid)
    (error : AssetStoreError) :
    (Ending.of envelope (answeredOnly wrap correlation error)).Follows error ↔
      ¬ (error = .storageIo ∨ error = .storageCorruption) := by
  have htold : ∀ told, (Ending.of envelope (.ok (wrap told, none))).told = some told := hwrap
  cases error
  case storageIo | storageCorruption =>
    refine iff_of_false (fun h => ?_) (fun h => h (by decide))
    have hreturned := h.stops (by decide)
    cases hreturned
  case internal =>
    exact iff_of_true ⟨fun _ => rfl, fun h => absurd h (by decide)⟩ (by decide)
  case invalidTransition | revisionExhausted | shuttingDown =>
    exact iff_of_true ⟨fun h => absurd h (by decide), fun h => absurd h (by decide)⟩ (by decide)
  all_goals
    exact iff_of_true ⟨fun h => absurd h (by decide), fun _ => ⟨rfl, _, htold _, rfl⟩⟩ (by decide)

end Endings

/-! ## The handlers -/

theorem failure_eq_some {ε α : Type} {result : Except ε α} {e : ε} (h : failure result = some e) :
    result = .error e := by
  cases result with
  | ok a => cases h
  | error e' =>
    cases h
    rfl

theorem boundMutationResponse_error {error : AssetStoreError} {correlation : Uuid}
    {envelope : ErrorEnvelope}
    (h : queryErrorEnvelope error correlation.toText = .ok envelope) :
    boundMutationResponse (.error envelope) correlation.toText = .ok (.error envelope) := by
  have hsame : CoreProto.mutationEncodedLen (.error envelope) =
      (CoreProto.CreativeListResponse.error envelope).encodedLen := rfl
  unfold boundMutationResponse
  rw [hsame, if_pos ((queryErrorEnvelope_encodedLen_le h).trans (by decide))]

theorem serveAssetMetadataMutation_error (mutation : MetadataMutation) (correlation : Uuid)
    (error : AssetStoreError) :
    serveAssetMetadataMutation mutation correlation (.error error) =
      classified .error correlation error := by
  simp only [serveAssetMetadataMutation, classified]
  cases henvelope : queryErrorEnvelope error correlation.toText with
  | error code => simp only [bind, Except.bind]
  | ok envelope => simp only [bind, Except.bind, boundMutationResponse_error henvelope]

theorem serveCreativeMutation_error (mutation : MetadataMutation) (correlation : Uuid)
    (error : AssetStoreError) :
    serveCreativeMutation mutation correlation (.error error) =
      answeredOnly .error correlation error := by
  simp only [serveCreativeMutation, answeredOnly]
  cases henvelope : queryErrorEnvelope error correlation.toText with
  | error code => simp only [bind, Except.bind]
  | ok envelope =>
    simp only [bind, Except.bind, pure, Except.pure, boundMutationResponse_error henvelope]

namespace Serving

variable {N : Type} [DecidableEq N] {numbers : JsonNumbers N} {s : Serving}
  {error : AssetStoreError}

/-- **A failed asset list** ends as classified. -/
theorem serve_listAssets {request : ListAssetsRequest}
    (h : s.storeError numbers (.listAssets request) = some error) :
    s.serve numbers (.listAssets request) =
      .of assetQueryEnvelope (classified .error s.correlation error) := by
  cases hdecode : decodeQueryTimeout request.operationTimeoutMs with
  | error code =>
    simp only [storeError, hdecode] at h
    cases h
  | ok timeout =>
    simp only [storeError, hdecode] at h
    have hresult := failure_eq_some h
    unfold storeResult at hresult
    simp only [serve, serveListAssets, hdecode, hresult]
    rfl

/-- **A failed inspection** ends as classified. -/
theorem serve_inspectAsset {request : InspectAssetRequest}
    (h : s.storeError numbers (.inspectAsset request) = some error) :
    s.serve numbers (.inspectAsset request) =
      .of assetQueryEnvelope (classified .error s.correlation error) := by
  cases hdecode : decodeInspectAsset request with
  | error code =>
    simp only [storeError, hdecode] at h
    cases h
  | ok selected =>
    simp only [storeError, hdecode] at h
    have hresult := failure_eq_some h
    unfold storeResult at hresult
    simp only [serve, serveInspectAsset, hdecode, hresult]
    rfl

/-- **A failed creative query** ends as classified. -/
theorem serve_creativeQuery {request : CreativeListRequest}
    (h : s.storeError numbers (.creativeQuery request) = some error) :
    s.serve numbers (.creativeQuery request) =
      .of creativeListEnvelope (classified .error s.correlation error) := by
  cases hdecode : decodeCreativeList s.maximumTimeout request with
  | error code =>
    simp only [storeError, hdecode] at h
    cases h
  | ok query =>
    simp only [storeError, hdecode] at h
    have hresult := failure_eq_some h
    unfold storeResult at hresult
    simp only [serve, serveCreativeQuery, classified, hdecode, hresult, queryErrorResponse]
    cases henvelope : queryErrorEnvelope error s.correlation.toText with
    | error code => rfl
    | ok envelope =>
      have hbound : boundTask009Response (.error envelope) s.correlation.toText =
          .ok (.error envelope) :=
        if_pos ((queryErrorEnvelope_encodedLen_le henvelope).trans (by decide))
      simp only [bind, Except.bind, pure, Except.pure, hbound]

/-- The requests of `serve_creative_mutation`. -/
def isCreativeMutation : ServedRequest → Bool
  | .mutation mutation => mutation.isCreative
  | _ => false

/-- **Which requests follow the classification.** A request whose store call
fails ends as its error asks, unless it is a creative mutation and the error
one of the two that the handler only answers. -/
theorem serve_follows_iff (request : ServedRequest)
    (h : s.storeError numbers request = some error) :
    (s.serve numbers request).Follows error ↔
      ¬ (isCreativeMutation request = true ∧
        (error = .storageIo ∨ error = .storageCorruption)) := by
  cases request with
  | listAssets request =>
    rw [serve_listAssets h]
    exact iff_of_true (follows_classified assetQueryEnvelope_error _ _) fun hcreative =>
      absurd hcreative.1 Bool.false_ne_true
  | inspectAsset request =>
    rw [serve_inspectAsset h]
    exact iff_of_true (follows_classified assetQueryEnvelope_error _ _) fun hcreative =>
      absurd hcreative.1 Bool.false_ne_true
  | creativeQuery request =>
    rw [serve_creativeQuery h]
    exact iff_of_true (follows_classified creativeListEnvelope_error _ _) fun hcreative =>
      absurd hcreative.1 Bool.false_ne_true
  | mutation mutation =>
    have hresult := failure_eq_some h
    simp only [serve, hresult, serveMutation, isCreativeMutation]
    split
    · rename_i hcreative
      rw [serveCreativeMutation_error, follows_answeredOnly_iff mutationEnvelope_error]
      simp only [hcreative, true_and]
    · rename_i hcreative
      rw [serveAssetMetadataMutation_error]
      exact iff_of_true (follows_classified mutationEnvelope_error _ _) fun h => hcreative h.1

end Serving

/-- An empty library whose store calls end with the given error. -/
def failing (error : AssetStoreError) : Serving where
  libraryId := 1
  database := Database.empty
  context := firstProcess
  maximumTimeout := 1000
  correlation := .numbered 1
  protocolMinor := 3
  interruption := some error

/-- A corrupt store stops the daemon from a query. -/
theorem corrupt_query_stops :
    (failing .storageCorruption).storeError .verbatim (.listAssets ⟨1, [], 100⟩) =
      some .storageCorruption ∧
    ((failing .storageCorruption).serve .verbatim (.listAssets ⟨1, [], 100⟩)).returned =
      .error .storageCorruption := by
  have h : (failing .storageCorruption).storeError .verbatim (.listAssets ⟨1, [], 100⟩) =
      some .storageCorruption := rfl
  have hfollows := (Serving.serve_follows_iff _ h).2 fun hcreative =>
    absurd hcreative.1 Bool.false_ne_true
  exact ⟨h, hfollows.stops (by decide)⟩

/-- **A creative mutation whose store call fails with `StorageIo` is
answered, and the daemon goes on.** -/
theorem failed_mutation_goes_on :
    (failing .storageIo).storeError .verbatim (.mutation (.createProject (.numbered 10))) =
      some .storageIo ∧
    ((failing .storageIo).serve .verbatim (.mutation (.createProject (.numbered 10)))).returned =
      .ok () ∧
    queryFatalCode .storageIo = some .storageIoError :=
  ⟨rfl, rfl, rfl⟩

end MengXia.Daemon
