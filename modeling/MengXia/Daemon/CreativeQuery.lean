
import MengXia.CoreViews
import MengXia.CreativeService
import MengXia.Daemon.Mutation
import MengXia.Framing
/-!
# Serving creative queries

`serve_creative_query`: a list request is decoded, the service is asked and
its page or its error becomes a response, which replaces a page of more
than one mebibyte by an error. The frame that carries the response has a
limit of its own.
-/

namespace MengXia.Daemon

open Common Store

/-! ## Rows -/

/-- `project_response`. -/
def projectResponse (view : ProjectView) : CoreProto.ProjectView where
  projectId := view.projectId.toText
  name := view.name.text
  revision := view.revision
  createdAtSeconds := view.createdAt.seconds
  createdAtNanos := view.createdAt.nanos
  updatedAtSeconds := view.updatedAt.seconds
  updatedAtNanos := view.updatedAt.nanos
  creationCommitSequence := view.creationCommitSequence
  currentSpecification := some
    { projectSpecRevisionId := view.specRevisionId.toText
      sequence := view.specSequence
      resolutionWidth := view.specification.resolution.map Resolution.width
      resolutionHeight := view.specification.resolution.map Resolution.height
      frameRateNumerator := view.specification.frameRate.map PositiveRatio.numerator
      frameRateDenominator := view.specification.frameRate.map PositiveRatio.denominator
      aspectRatioNumerator := view.specification.aspectRatio.map PositiveRatio.numerator
      aspectRatioDenominator := view.specification.aspectRatio.map PositiveRatio.denominator
      policySchemaVersion := 1
      colorPolicyJson := view.specification.colorPolicy.bytes
      audioPolicyJson := view.specification.audioPolicy.bytes
      qualityPolicyJson := view.specification.qualityPolicy.bytes
      privacyPolicyJson := view.specification.privacyPolicy.bytes
      policySha256 := view.specification.policyDigest.toBytes }
  effectiveTrust := .untrusted

/-- `subject_response`. -/
def subjectResponse (view : SubjectView) : CoreProto.SubjectView where
  subjectId := view.subjectId.toText
  kind := view.kind.text
  canonicalName := view.name.text
  revision := view.revision
  createdAtSeconds := view.createdAt.seconds
  createdAtNanos := view.createdAt.nanos
  creationCommitSequence := view.creationCommitSequence

def workKindResponse : WorkKind → CoreProto.WorkKindValue
  | .scene => .scene
  | .shot => .shot

/-- `work_response`. -/
def workResponse (view : WorkView) : CoreProto.WorkView where
  workItemId := view.workItemId.toText
  projectId := view.projectId.toText
  kind := workKindResponse view.kind
  code := view.code.text
  revision := view.revision
  createdAtSeconds := view.createdAt.seconds
  createdAtNanos := view.createdAt.nanos
  updatedAtSeconds := view.updatedAt.seconds
  updatedAtNanos := view.updatedAt.nanos
  creationCommitSequence := view.creationCommitSequence
  currentWorkRevisionId := view.workRevisionId.toText
  currentWorkRevisionSequence := view.workRevisionSequence
  specificationSchemaVersion := 1
  specificationJson := view.specification.json.bytes
  specificationSha256 := view.specification.json.digest.toBytes
  subjectIds := view.specification.subjectIds.map Id.toText
  assetIds := view.specification.assetIds.map Id.toText

/-- The relationships of `take_response`. -/
def takeRelationshipResponse (view : TakeRelationshipView) :
    AssetResult CoreProto.TakeRelationshipView :=
  match view.kind with
  | .takeReopens => .ok ⟨view.relationshipId.toText, .reopens, view.targetTakeId.toText⟩
  | .takeSupersedes => .ok ⟨view.relationshipId.toText, .supersedes, view.targetTakeId.toText⟩
  | _ => .error .storageCorruption

/-- `take_response`. -/
def takeResponse (view : TakeView) : AssetResult CoreProto.TakeView := do
  let relationships ← view.outgoingRelationships.mapM takeRelationshipResponse
  pure
    { takeId := view.takeId.toText
      workRevisionId := view.workRevisionId.toText
      ordinal := view.ordinal
      state := takeStateResponse view.state
      primaryAssetId := view.primaryAssetId.toText
      revision := view.revision
      createdAtSeconds := view.createdAt.seconds
      createdAtNanos := view.createdAt.nanos
      updatedAtSeconds := view.updatedAt.seconds
      updatedAtNanos := view.updatedAt.nanos
      outgoingRelationships := relationships }

/-! ## Requests -/

/-- The four list requests of the protocol. -/
inductive CreativeListRequest where
  | listProjects (pageSize : ℕ) (cursor : Bytes) (operationTimeoutMs : ℕ)
  | listSubjects (pageSize : ℕ) (cursor : Bytes) (operationTimeoutMs : ℕ)
  | listWork (projectId : Text) (pageSize : ℕ) (cursor : Bytes) (operationTimeoutMs : ℕ)
  | listTakes (projectId workItemId workRevisionId : Text) (pageSize : ℕ) (cursor : Bytes)
      (operationTimeoutMs : ℕ)
  deriving DecidableEq

/-- What a list request asks the service for. -/
inductive CreativeList where
  | projects (pageSize : ℕ) (cursor : Option Bytes)
  | subjects (pageSize : ℕ) (cursor : Option Bytes)
  | work (projectId : Id .project) (pageSize : ℕ) (cursor : Option Bytes)
  | takes (projectId : Id .project) (workItemId : Id .workItem)
      (workRevisionId : Id .workRevision) (pageSize : ℕ) (cursor : Option Bytes)
  deriving DecidableEq

/-- `decode_bounded_operation_timeout`, in milliseconds. -/
def decodeBoundedOperationTimeout (milliseconds maximum : ℕ) : Except ErrorCode ℕ :=
  if milliseconds < 100 ∨ maximum < milliseconds then .error .validationError
  else .ok milliseconds

/-- `parse_canonical_id`. -/
def parseCanonicalId {entity : Entity} (value : Text) : Except ErrorCode (Id entity) :=
  match Id.fromText value with
  | none => .error .validationError
  | some id => if id.toText = value then .ok id else .error .validationError

/-- `(!cursor.is_empty()).then_some(cursor)`. -/
def requestCursor (cursor : Bytes) : Option Bytes :=
  if cursor = [] then none else some cursor

/-- `TASK_009_LARGE_ROW_PAGE_MAX`. -/
def largeRowPageMax : ℕ := 3

/-- The decoding of the four branches of `serve_creative_query`. -/
def decodeCreativeList (maximumTimeout : ℕ) : CreativeListRequest → Except ErrorCode CreativeList
  | .listProjects pageSize cursor timeout => do
    let _ ← decodeBoundedOperationTimeout timeout maximumTimeout
    pure (.projects (min pageSize largeRowPageMax) (requestCursor cursor))
  | .listSubjects pageSize cursor timeout => do
    let _ ← decodeBoundedOperationTimeout timeout maximumTimeout
    pure (.subjects pageSize (requestCursor cursor))
  | .listWork projectId pageSize cursor timeout => do
    let _ ← decodeBoundedOperationTimeout timeout maximumTimeout
    let projectId ← parseCanonicalId projectId
    pure (.work projectId (min pageSize largeRowPageMax) (requestCursor cursor))
  | .listTakes projectId workItemId workRevisionId pageSize cursor timeout => do
    let _ ← decodeBoundedOperationTimeout timeout maximumTimeout
    let projectId ← parseCanonicalId projectId
    let workItemId ← parseCanonicalId workItemId
    let workRevisionId ← parseCanonicalId workRevisionId
    pure (.takes projectId workItemId workRevisionId pageSize (requestCursor cursor))

/-! ## Answers -/

section Answers

variable {N : Type} [DecidableEq N] (numbers : JsonNumbers N)

variable {pageSize : ℕ} {cursor : Option Bytes}

/-- The page of a service as a list message. -/
def listResult {α β : Type} (answer : CreativePageResponse α) (rows : List β) :
    CoreProto.ListResult β :=
  ⟨answer.page.snapshotEndpoint, rows, answer.nextCursor⟩

/-- What the service answers, as a response. -/
def answerCreativeList (libraryId : BitVec 128) (t : Tables) :
    CreativeList → AssetResult CoreProto.CreativeListResponse
  | .projects pageSize cursor => do
    let answer ← CreativeQueryService.listProjects numbers libraryId t pageSize cursor
    pure (.listProjects (listResult answer (answer.page.items.map projectResponse)))
  | .subjects pageSize cursor => do
    let answer ← CreativeQueryService.listSubjects libraryId t pageSize cursor
    pure (.listSubjects (listResult answer (answer.page.items.map subjectResponse)))
  | .work projectId pageSize cursor => do
    let answer ← CreativeQueryService.listWork numbers libraryId t projectId pageSize cursor
    pure (.listWork (listResult answer (answer.page.items.map workResponse)))
  | .takes projectId workItemId workRevisionId pageSize cursor => do
    let answer ← CreativeQueryService.listTakes libraryId t projectId workItemId workRevisionId
      pageSize cursor
    let takes ← answer.page.items.mapM takeResponse
    pure (.listTakes (listResult answer takes))

/-- The retry action of `query_error_response`, which some errors lack. -/
def queryRetry : AssetStoreError → Option RetryAction
  | .validation | .notFound | .conflict => some .none
  | .storageBusy => some .sameCommand
  | .backpressure | .operationCancelled | .deadlineExceeded | .storageIo => some .freshCommand
  | .storageCorruption | .storageConfiguration | .idGenerationUnavailable =>
    some .operatorOrRuntimeAction
  | _ => none

/-- `query_error_response`, before it is wrapped into a response. -/
def queryErrorEnvelope (error : AssetStoreError) (correlationId : Text) :
    Except ErrorCode ErrorEnvelope :=
  match queryRetry error with
  | none => .error .internalError
  | some retry => operationErrorResponse error.errorCode retry correlationId

/-- `query_error_response`. -/
def queryErrorResponse (error : AssetStoreError) (correlationId : Text) :
    Except ErrorCode CoreProto.CreativeListResponse := do
  let envelope ← queryErrorEnvelope error correlationId
  pure (.error envelope)

/-- `query_fatal_code`. -/
def queryFatalCode (error : AssetStoreError) : Option ErrorCode :=
  match error with
  | .storageIo | .storageCorruption | .internal => some error.errorCode
  | .idGenerationUnavailable | .validation | .notFound | .conflict | .storageBusy
  | .storageConfiguration | .backpressure | .operationCancelled | .deadlineExceeded
  | .shuttingDown => none
  | _ => some .internalError

/-- `TASK_009_MAX_RESPONSE_BYTES`. -/
def maxResponseBytes : ℕ := 1048576

/-- `bound_task_009_response`. -/
def boundTask009Response (response : CoreProto.CreativeListResponse) (correlationId : Text) :
    Except ErrorCode CoreProto.CreativeListResponse :=
  if response.encodedLen ≤ maxResponseBytes then .ok response
  else (operationErrorResponse .validationError .none correlationId).map .error

/-- `serve_creative_query`: the response it hands to `write_core_response`
and the code it returns with afterwards, if any. `interruption` is the error
with which the wait or the store's runtime ends the query, if one does. -/
def serveCreativeQuery (libraryId : BitVec 128) (t : Tables) (maximumTimeout : ℕ)
    (correlation : Uuid) (interruption : Option AssetStoreError) (request : CreativeListRequest) :
    Except ErrorCode (CoreProto.CreativeListResponse × Option ErrorCode) :=
  match decodeCreativeList maximumTimeout request with
  | .error code => do
    -- `write_query_validation_error`
    let envelope ← operationErrorResponse code .none correlation.toText
    pure (.error envelope, none)
  | .ok query =>
    match interruption.elim (answerCreativeList numbers libraryId t query) Except.error with
    | .ok response => do
      let response ← boundTask009Response response correlation.toText
      pure (response, none)
    | .error error => do
      let response ← queryErrorResponse error correlation.toText
      let response ← boundTask009Response response correlation.toText
      pure (response, queryFatalCode error)

/-! ## Sizes -/

theorem byteLength_text_le {maximum : ℕ} (t : BoundedText maximum) :
    t.text.byteLength ≤ maximum := by
  have hvalid := t.valid
  simp only [validateText, Bool.and_eq_true, decide_eq_true_iff] at hvalid
  exact hvalid.1.1.2

theorem byteLength_token_le (t : Token) : t.text.byteLength ≤ 64 := by
  have hvalid := t.valid
  unfold isToken at hvalid
  split at hvalid
  · cases hvalid
  · simp only [Bool.and_eq_true, decide_eq_true_iff] at hvalid
    exact hvalid.1.1

/-- A project takes at most its four policies and less than a kilobyte. -/
theorem fitsIn_projectResponse {view : ProjectView}
    (h : ∀ p ∈ view.specification.policies, p.bytes.length ≤ 65536) :
    FitsIn 263000 (projectResponse view).fields := by
  simp only [List.forall_mem_cons] at h
  obtain ⟨hcolor, haudio, hquality, hprivacy, -⟩ := h
  have hdigest : view.specification.policyDigest.toBytes.length ≤ 32 :=
    Nat.le_of_eq (Digest.length_toBytes _)
  have hspec := ((((((((((((((fitsIn_id 1 view.specRevisionId).append
    (FitsIn.varint 2 view.specSequence)).append
    (FitsIn.optionalVarint 3 (view.specification.resolution.map Resolution.width))).append
    (FitsIn.optionalVarint 4 (view.specification.resolution.map Resolution.height))).append
    (FitsIn.optionalVarint 5 (view.specification.frameRate.map PositiveRatio.numerator))).append
    (FitsIn.optionalVarint 6 (view.specification.frameRate.map PositiveRatio.denominator))).append
    (FitsIn.optionalVarint 7 (view.specification.aspectRatio.map PositiveRatio.numerator))).append
    (FitsIn.optionalVarint 8
      (view.specification.aspectRatio.map PositiveRatio.denominator))).append
    (FitsIn.varint 9 1)).append (@FitsIn.bytes 10 _ _ hcolor)).append
    (@FitsIn.bytes 11 _ _ haudio)).append (@FitsIn.bytes 12 _ _ hquality)).append
    (@FitsIn.bytes 13 _ _ hprivacy)).append (@FitsIn.bytes 14 _ _ hdigest))
  have hrow := (((((((((fitsIn_id 1 view.projectId).append
    (@fitsIn_text 2 _ _ (byteLength_text_le view.name))).append
    (FitsIn.varint 3 view.revision)).append (FitsIn.int64 4 view.createdAt.seconds)).append
    (FitsIn.varint 5 view.createdAt.nanos)).append
    (FitsIn.int64 6 view.updatedAt.seconds)).append
    (FitsIn.varint 7 view.updatedAt.nanos)).append
    (FitsIn.varint 8 view.creationCommitSequence)).append (@FitsIn.message 9 _ _ hspec)).append
    (FitsIn.varint 10 1)
  exact hrow.mono (by decide)

theorem fitsIn_subjectResponse (view : SubjectView) :
    FitsIn 500 (subjectResponse view).fields := by
  have hrow := ((((((fitsIn_id 1 view.subjectId).append
    (@fitsIn_text 2 _ _ (byteLength_token_le view.kind))).append
    (@fitsIn_text 3 _ _ (byteLength_text_le view.name))).append
    (FitsIn.varint 4 view.revision)).append (FitsIn.int64 5 view.createdAt.seconds)).append
    (FitsIn.varint 6 view.createdAt.nanos)).append (FitsIn.varint 7 view.creationCommitSequence)
  exact hrow.mono (by decide)

/-- At most 64 identifiers. -/
theorem fitsIn_ids {entity : Entity} {number : ℕ} {ids : List (Id entity)}
    (h : ids.length ≤ 64) : FitsIn 3584 (textFields number (ids.map Id.toText)) := by
  have htexts : ∀ t ∈ ids.map Id.toText, Text.byteLength t ≤ 36 := by
    intro t ht
    obtain ⟨id, -, rfl⟩ := List.mem_map.1 ht
    exact Nat.le_of_eq id.byteLength_toText
  have hfits := @fitsIn_texts number 36 (ids.map Id.toText) htexts
  rw [List.length_map] at hfits
  exact hfits.mono (by omega)

/-- Work takes at most its specification and eight kilobytes. -/
theorem fitsIn_workResponse {view : WorkView}
    (hjson : view.specification.json.bytes.length ≤ 262144) :
    FitsIn 270000 (workResponse view).fields := by
  have hdigest : view.specification.json.digest.toBytes.length ≤ 32 :=
    Nat.le_of_eq (Digest.length_toBytes _)
  have hrow := ((((((((((((((((fitsIn_id 1 view.workItemId).append
    (fitsIn_id 2 view.projectId)).append
    (FitsIn.varint 3 (workKindResponse view.kind).number)).append
    (@fitsIn_text 4 _ _ (byteLength_text_le view.code))).append
    (FitsIn.varint 5 view.revision)).append (FitsIn.int64 6 view.createdAt.seconds)).append
    (FitsIn.varint 7 view.createdAt.nanos)).append
    (FitsIn.int64 8 view.updatedAt.seconds)).append
    (FitsIn.varint 9 view.updatedAt.nanos)).append
    (FitsIn.varint 10 view.creationCommitSequence)).append
    (fitsIn_id 11 view.workRevisionId)).append
    (FitsIn.varint 12 view.workRevisionSequence)).append (FitsIn.varint 13 1)).append
    (@FitsIn.bytes 14 _ _ hjson)).append (@FitsIn.bytes 15 _ _ hdigest)).append
    (@fitsIn_ids _ 16 _ view.specification.subjectsBounded)).append
    (@fitsIn_ids _ 17 _ view.specification.assetsBounded)
  exact hrow.mono (by decide)

theorem fitsIn_takeRelationship {view : TakeRelationshipView}
    {message : CoreProto.TakeRelationshipView} (h : takeRelationshipResponse view = .ok message) :
    FitsIn 132 message.fields := by
  have hrow : ∀ kind : CoreProto.TakeRelationshipKindValue, FitsIn 132
      (CoreProto.TakeRelationshipView.fields
        ⟨view.relationshipId.toText, kind, view.targetTakeId.toText⟩) := fun kind =>
    ((fitsIn_id 1 view.relationshipId).append (FitsIn.varint 2 kind.number)).append
      (fitsIn_id 3 view.targetTakeId)
  unfold takeRelationshipResponse at h
  split at h
  · cases h
    exact hrow _
  · cases h
    exact hrow _
  · cases h

/-- A take with its two relationships takes well below a kilobyte. -/
theorem fitsIn_takeResponse {view : TakeView} (hrels : view.outgoingRelationships.length ≤ 2)
    {message : CoreProto.TakeView} (h : takeResponse view = .ok message) :
    FitsIn 700 message.fields := by
  unfold takeResponse at h
  obtain ⟨relationships, hmap, h⟩ := exceptBind_eq_ok.1 h
  cases h
  have hviews := forall₂_of_exceptMapM hmap
  have hedges : FitsIn (relationships.length * 152)
      (relationships.flatMap fun relationship =>
        messageField 11 (CoreProto.TakeRelationshipView.fields relationship)) := by
    refine .repeated fun message hmessage => ?_
    obtain ⟨edge, -, hedge⟩ := exists_of_forall₂ hviews hmessage
    exact .message (fitsIn_takeRelationship hedge)
  have hlength : relationships.length * 152 ≤ 304 := by
    rw [← hviews.length_eq]
    omega
  have hrow := ((((((((((fitsIn_id 1 view.takeId).append (fitsIn_id 2 view.workRevisionId)).append
    (FitsIn.varint 3 view.ordinal)).append
    (FitsIn.varint 4 (CoreProto.takeStateNumber (takeStateResponse view.state)))).append
    (fitsIn_id 5 view.primaryAssetId)).append (FitsIn.varint 6 view.revision)).append
    (FitsIn.int64 7 view.createdAt.seconds)).append
    (FitsIn.varint 8 view.createdAt.nanos)).append
    (FitsIn.int64 9 view.updatedAt.seconds)).append
    (FitsIn.varint 10 view.updatedAt.nanos)).append (hedges.mono hlength)
  exact hrow.mono (by decide)

/-- Every code and every safe message is a short text. -/
theorem byteLength_error_le (code : ErrorCode) : Text.byteLength code.asStr.toList ≤ 32 ∧
    ∀ message ∈ operationSafeMessage code, Text.byteLength message.toList ≤ 64 := by
  cases code <;> exact ⟨by decide, fun message h => by cases h <;> decide⟩

/-- **An error response is small.** -/
theorem errorResponse_encodedLen_le {code : ErrorCode} {retry : RetryAction} {correlation : Uuid}
    {envelope : ErrorEnvelope}
    (h : operationErrorResponse code retry correlation.toText = .ok envelope) :
    (CoreProto.CreativeListResponse.error envelope).encodedLen ≤ 1024 := by
  obtain ⟨hcode, hmessages⟩ := byteLength_error_le code
  have hcorrelation : correlation.toText.utf8.length ≤ 36 := by
    rw [Text.length_utf8]
    exact Nat.le_of_eq (byteLength_bitsText correlation.bits)
  unfold operationErrorResponse at h
  split at h
  · cases h
  · rename_i message hmessage
    have hshort := hmessages message hmessage
    obtain ⟨-, h⟩ := requirement_eq_ok.1 h
    cases h
    have hfields := ((((@fitsIn_text 1 _ _ hcode).append (@fitsIn_text 2 _ _ hshort)).append
      (FitsIn.varint 3 (retry ≠ .none && retry ≠ .operatorOrRuntimeAction).toNat)).append
      (@FitsIn.rawBytes 4 _ _ hcorrelation)).append
      (FitsIn.optionalVarint 6 (some (CoreProto.retryActionNumber retry)))
    exact (@FitsIn.message 15 _ _ hfields).mono (by decide)

/-- The envelope of a query error is small. -/
theorem queryErrorEnvelope_encodedLen_le {error : AssetStoreError} {correlation : Uuid}
    {envelope : ErrorEnvelope}
    (h : queryErrorEnvelope error correlation.toText = .ok envelope) :
    (CoreProto.CreativeListResponse.error envelope).encodedLen ≤ 1024 := by
  unfold queryErrorEnvelope at h
  split at h
  · cases h
  · exact errorResponse_encodedLen_le h

/-- The listings whose rows hold documents. -/
def CreativeList.isLarge : CreativeList → Bool
  | .projects .. | .work .. => true
  | .subjects .. | .takes .. => false

/-- The rows that `decodeCreativeList` lets a page hold. -/
def CreativeList.pageBound : CreativeList → Prop
  | .projects pageSize _ | .work _ pageSize _ => pageSize ≤ 3
  | .subjects .. | .takes .. => True

theorem pageBound_of_decode {maximumTimeout : ℕ} {request : CreativeListRequest}
    {query : CreativeList} (h : decodeCreativeList maximumTimeout request = .ok query) :
    query.pageBound := by
  cases request with
  | listProjects pageSize cursor timeout =>
    obtain ⟨_, -, h⟩ := exceptBind_eq_ok.1 h
    cases h
    exact Nat.min_le_right _ _
  | listSubjects pageSize cursor timeout =>
    obtain ⟨_, -, h⟩ := exceptBind_eq_ok.1 h
    cases h
    trivial
  | listWork projectId pageSize cursor timeout =>
    obtain ⟨_, -, h⟩ := exceptBind_eq_ok.1 h
    obtain ⟨_, -, h⟩ := exceptBind_eq_ok.1 h
    cases h
    exact Nat.min_le_right _ _
  | listTakes projectId workItemId workRevisionId pageSize cursor timeout =>
    obtain ⟨_, -, h⟩ := exceptBind_eq_ok.1 h
    obtain ⟨_, -, h⟩ := exceptBind_eq_ok.1 h
    obtain ⟨_, -, h⟩ := exceptBind_eq_ok.1 h
    obtain ⟨_, -, h⟩ := exceptBind_eq_ok.1 h
    cases h
    trivial

variable {numbers} {libraryId : BitVec 128} {d : Database}

/-! ## Pages -/

section Pages

variable {answer : CreativePageResponse ProjectView} {works : CreativePageResponse WorkView}
  {subjects : CreativePageResponse SubjectView} {takeAnswer : CreativePageResponse TakeView}
  {takes : List CoreProto.TakeView}

/-- A page of rows that fit, in a field of a response. -/
theorem fitsIn_page {ν α : Type} {answer : CreativePageResponse ν} {respond : ν → α}
    {row : α → List RawField} {number count size : ℕ}
    (hcount : answer.page.items.length ≤ count)
    (hrows : ∀ view ∈ answer.page.items, FitsIn size (row (respond view)))
    (hcursor : ∀ bytes ∈ answer.nextCursor, bytes.length = 160) :
    FitsIn (20 + (200 + count * (20 + size))) (messageField number
      ((listResult answer (answer.page.items.map respond)).fields row)) :=
  .message (CoreProto.ListResult.fitsIn (by rwa [← List.length_map] at hcount)
    (List.forall_mem_map.2 hrows) hcursor)

/-- Three projects with their policies are below the response limit. -/
theorem projectsPage_encodedLen_le (hcount : answer.page.items.length ≤ 3)
    (hrows : ∀ view ∈ answer.page.items, ∀ p ∈ view.specification.policies,
      p.bytes.length ≤ 65536)
    (hcursor : ∀ bytes ∈ answer.nextCursor, bytes.length = 160) :
    (CoreProto.CreativeListResponse.listProjects
      (listResult answer (answer.page.items.map projectResponse))).encodedLen ≤
        maxResponseBytes :=
  (fitsIn_page hcount (fun view hview => fitsIn_projectResponse (hrows view hview))
    hcursor).mono (by decide)

/-- Three work items with their specifications are below the response limit. -/
theorem workPage_encodedLen_le (hcount : works.page.items.length ≤ 3)
    (hrows : ∀ view ∈ works.page.items, view.specification.json.bytes.length ≤ 262144)
    (hcursor : ∀ bytes ∈ works.nextCursor, bytes.length = 160) :
    (CoreProto.CreativeListResponse.listWork
      (listResult works (works.page.items.map workResponse))).encodedLen ≤ maxResponseBytes :=
  (fitsIn_page hcount (fun view hview => fitsIn_workResponse (hrows view hview)) hcursor).mono
    (by decide)

/-- A page of subjects is below every frame limit. -/
theorem subjectsPage_encodedLen_le (hcount : subjects.page.items.length ≤ 64)
    (hcursor : ∀ bytes ∈ subjects.nextCursor, bytes.length = 160) :
    (CoreProto.CreativeListResponse.listSubjects
      (listResult subjects (subjects.page.items.map subjectResponse))).encodedLen ≤ 65536 :=
  (fitsIn_page hcount (fun view _ => fitsIn_subjectResponse view) hcursor).mono (by decide)

/-- A page of takes is below every frame limit. -/
theorem takesPage_encodedLen_le (hcount : takeAnswer.page.items.length ≤ 64)
    (hrows : ∀ view ∈ takeAnswer.page.items, view.outgoingRelationships.length ≤ 2)
    (htakes : takeAnswer.page.items.mapM takeResponse = .ok takes)
    (hcursor : ∀ bytes ∈ takeAnswer.nextCursor, bytes.length = 160) :
    (CoreProto.CreativeListResponse.listTakes (listResult takeAnswer takes)).encodedLen ≤
      65536 := by
  have hviews := forall₂_of_exceptMapM htakes
  have hfit : ∀ row ∈ takes, FitsIn 700 (CoreProto.TakeView.fields row) := by
    intro row hrow
    obtain ⟨view, hview, hresponse⟩ := exists_of_forall₂ hviews hrow
    exact fitsIn_takeResponse (hrows view hview) hresponse
  have hfits := @FitsIn.message 30 _ _ (@CoreProto.ListResult.fitsIn _ CoreProto.TakeView.fields
    (listResult takeAnswer takes) 64 700 (by rw [hviews.length_eq] at hcount; exact hcount) hfit
    hcursor)
  exact hfits.mono (by decide)

end Pages

/-- A page of projects is below the response limit. -/
theorem projects_encodedLen_le {answer : CreativePageResponse ProjectView} (hsize : pageSize ≤ 3)
    (h : CreativeQueryService.listProjects numbers libraryId d pageSize cursor =
      .ok answer) :
    (CoreProto.CreativeListResponse.listProjects
      (listResult answer (answer.page.items.map projectResponse))).encodedLen ≤
        maxResponseBytes := by
  obtain ⟨query, rfl, -, hpage, -, hcursor⟩ := CreativeQueryService.list_eq_ok h
  obtain ⟨after, -, -, hshows⟩ := CreativeQuery.listPage_eq_ok hpage
  refine projectsPage_encodedLen_le (Nat.le_trans hshows.length_le hsize) (fun view hview => ?_)
    hcursor
  obtain ⟨r, hr, hr'⟩ := hshows.exists_row hview
  obtain ⟨specification, hspec, hview⟩ := exceptBind_eq_ok.1 hr'
  cases hview
  obtain ⟨p, -, -, hp⟩ := mem_select.1 hr
  obtain ⟨s, hs, -, hrow⟩ := mem_select.1 hp
  have hstored := d.consistent.specPolicies s hs
  rw [List.mem_singleton.1 hrow] at hspec
  rw [← (CreativeQuery.projectSpecification_eq_ok hspec).1] at hstored
  exact fun policy hpolicy => (hstored _ (List.mem_map_of_mem hpolicy)).2

/-- A page of work is below the response limit. -/
theorem work_encodedLen_le {projectId : Id .project} {answer : CreativePageResponse WorkView}
    (hsize : pageSize ≤ 3)
    (h : CreativeQueryService.listWork numbers libraryId d projectId pageSize cursor =
      .ok answer) :
    (CoreProto.CreativeListResponse.listWork
      (listResult answer (answer.page.items.map workResponse))).encodedLen ≤
        maxResponseBytes := by
  obtain ⟨query, rfl, -, hpage, -, hcursor⟩ := CreativeQueryService.list_eq_ok h
  unfold CreativeQuery.listWork at hpage
  obtain ⟨-, hpage⟩ := refusal_eq_ok.1 hpage
  obtain ⟨after, -, -, hshows⟩ := CreativeQuery.listPage_eq_ok hpage
  refine workPage_encodedLen_le (Nat.le_trans hshows.length_le hsize) (fun view hview => ?_)
    hcursor
  obtain ⟨r, hr, hr'⟩ := hshows.exists_row hview
  rw [CreativeQuery.workView_eq_ok hr']
  obtain ⟨w, -, -, hw⟩ := mem_select.1 hr
  obtain ⟨x, hx, -, hrow⟩ := mem_select.1 hw
  rw [List.mem_singleton.1 hrow]
  exact (d.consistent.workRevisionSizes x hx).2

/-- A page of subjects is below every frame limit. -/
theorem subjects_encodedLen_le {answer : CreativePageResponse SubjectView}
    (h : CreativeQueryService.listSubjects libraryId d pageSize cursor = .ok answer) :
    (CoreProto.CreativeListResponse.listSubjects
      (listResult answer (answer.page.items.map subjectResponse))).encodedLen ≤ 65536 := by
  obtain ⟨query, rfl, -, hpage, -, hcursor⟩ := CreativeQueryService.list_eq_ok h
  obtain ⟨after, -, -, hshows⟩ := CreativeQuery.listPage_eq_ok hpage
  exact subjectsPage_encodedLen_le (Nat.le_trans hshows.length_le query.bounded.2) hcursor

/-- A page of takes is below every frame limit. -/
theorem takes_encodedLen_le {projectId : Id .project} {workItemId : Id .workItem}
    {workRevisionId : Id .workRevision} {answer : CreativePageResponse TakeView}
    {takes : List CoreProto.TakeView}
    (h : CreativeQueryService.listTakes libraryId d projectId workItemId workRevisionId
      pageSize cursor = .ok answer) (htakes : answer.page.items.mapM takeResponse = .ok takes) :
    (CoreProto.CreativeListResponse.listTakes (listResult answer takes)).encodedLen ≤ 65536 := by
  obtain ⟨query, rfl, -, hpage, -, hcursor⟩ := CreativeQueryService.list_eq_ok h
  unfold CreativeQuery.listTakes at hpage
  obtain ⟨-, hpage⟩ := refusal_eq_ok.1 hpage
  obtain ⟨after, -, -, hshows⟩ := CreativeQuery.listPage_eq_ok hpage
  refine takesPage_encodedLen_le (Nat.le_trans hshows.length_le query.bounded.2)
    (fun view hview => ?_) htakes hcursor
  obtain ⟨r, -, hr'⟩ := hshows.exists_row hview
  exact CreativeQuery.takeView_eq_ok hr'

/-- **The size of an answer**: a page of documents is below the response
limit, and every other page below the least frame limit. -/
theorem answer_encodedLen_le {query : CreativeList} (hsize : query.pageBound)
    {response : CoreProto.CreativeListResponse}
    (h : answerCreativeList numbers libraryId d query = .ok response) :
    response.encodedLen ≤ maxResponseBytes ∧
      (query.isLarge = false → response.encodedLen ≤ 65536) := by
  have hsmall : 65536 ≤ maxResponseBytes := by decide
  cases query with
  | projects pageSize cursor =>
    obtain ⟨answer, hanswer, h⟩ := exceptBind_eq_ok.1 h
    cases h
    exact ⟨projects_encodedLen_le hsize hanswer, fun hl => by cases hl⟩
  | subjects pageSize cursor =>
    obtain ⟨answer, hanswer, h⟩ := exceptBind_eq_ok.1 h
    cases h
    have hle := subjects_encodedLen_le hanswer
    exact ⟨Nat.le_trans hle hsmall, fun _ => hle⟩
  | work projectId pageSize cursor =>
    obtain ⟨answer, hanswer, h⟩ := exceptBind_eq_ok.1 h
    cases h
    exact ⟨work_encodedLen_le hsize hanswer, fun hl => by cases hl⟩
  | takes projectId workItemId workRevisionId pageSize cursor =>
    obtain ⟨answer, hanswer, h⟩ := exceptBind_eq_ok.1 h
    obtain ⟨takes, htakes, h⟩ := exceptBind_eq_ok.1 h
    cases h
    have hle := takes_encodedLen_le hanswer htakes
    exact ⟨Nat.le_trans hle hsmall, fun _ => hle⟩

end Answers

end MengXia.Daemon
