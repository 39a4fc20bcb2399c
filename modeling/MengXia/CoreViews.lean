import MengXia.Common.Proto
import MengXia.CoreProto
/-!
# The list messages of the core protocol

The rows and pages that answer the four creative listings, with the fields
each message is written as, and how many bytes that takes at most. Together
with the error envelope they are the responses of the creative queries.
-/

namespace MengXia

open Common

/-! ## Texts in messages -/

/-- A `string` field. -/
def textField (number : ℕ) (t : Text) : List RawField :=
  bytesField number t.utf8

/-- A `repeated string` field. -/
def textFields (number : ℕ) (ts : List Text) : List RawField :=
  ts.flatMap fun t => [⟨number, .bytes t.utf8⟩]

theorem length_encode_textField (number : ℕ) (t : Text) :
    (encodeFields (textField number t)).length = bytesSize number t.byteLength := by
  rw [textField, length_encode_bytesField, Text.length_utf8]

theorem fitsIn_text {number size : ℕ} {t : Text} (h : t.byteLength ≤ size) :
    FitsIn (20 + size) (textField number t) :=
  .bytes (by rwa [Text.length_utf8])

theorem fitsIn_texts {number size : ℕ} {ts : List Text} (h : ∀ t ∈ ts, t.byteLength ≤ size) :
    FitsIn (ts.length * (20 + size)) (textFields number ts) := by
  refine .repeated fun t ht => .rawBytes ?_
  rw [Text.length_utf8]
  exact h t ht

theorem Text.byteLength_append (s t : Text) :
    Text.byteLength (s ++ t) = s.byteLength + t.byteLength := by
  simp [Text.byteLength]

theorem utf8Size_hexDigit {n : ℕ} (h : n < 16) : (hexDigit n).utf8Size = 1 := by
  have hall : ∀ n < 16, (hexDigit n).utf8Size = 1 := by decide
  exact hall n h

/-- **An identifier is 36 bytes of text.** -/
theorem byteLength_bitsText (bits : BitVec 128) : (bitsText bits).byteLength = 36 := by
  have hdigits : ∀ c ∈ (digits 16 32 bits.toNat).map hexDigit, c.utf8Size = 1 := by
    intro c hc
    obtain ⟨n, hn, rfl⟩ := List.mem_map.1 hc
    exact utf8Size_hexDigit (lt_of_mem_digits (by decide) hn)
  have hlength : ((digits 16 32 bits.toNat).map hexDigit).length = 32 := by simp
  have hpart : ∀ cs : Text, (∀ c ∈ cs, c ∈ (digits 16 32 bits.toNat).map hexDigit) →
      cs.byteLength = cs.length := by
    intro cs hcs
    have hones : cs.map (fun c => c.utf8Size) = cs.map fun _ => 1 :=
      List.map_congr_left fun c hc => hdigits c (hcs c hc)
    rw [Text.byteLength, hones]
    simp
  have hhyphen : Text.byteLength ['-'] = 1 := by decide
  unfold bitsText hyphenated
  simp only [Text.byteLength_append, hhyphen]
  rw [hpart _ fun c hc => List.mem_of_mem_take hc,
    hpart _ fun c hc => List.mem_of_mem_drop (List.mem_of_mem_take hc),
    hpart _ fun c hc => List.mem_of_mem_drop (List.mem_of_mem_take hc),
    hpart _ fun c hc => List.mem_of_mem_drop (List.mem_of_mem_take hc),
    hpart _ fun c hc => List.mem_of_mem_drop hc]
  simp only [List.length_take, List.length_drop, hlength]
  rfl

theorem Id.byteLength_toText {entity : Entity} (id : Id entity) : id.toText.byteLength = 36 :=
  byteLength_bitsText id.uuid.bits

/-- A list of identifiers takes as many fields. -/
theorem length_encode_ids {entity : Entity} (number : ℕ) (ids : List (Id entity)) :
    (encodeFields (textFields number (ids.map Id.toText))).length =
      ids.length * dataSize number 36 := by
  induction ids with
  | nil => simp [textFields, encodeFields]
  | cons id ids ih =>
    rw [List.map_cons, textFields, List.flatMap_cons, encodeFields_append, List.length_append,
      ← textFields, ih, encodeFields, List.flatMap_singleton, RawField.length_encode_bytes,
      Text.length_utf8, id.byteLength_toText, List.length_cons, Nat.succ_mul, Nat.add_comm]

/-- The field of an identifier. -/
theorem fitsIn_id {entity : Entity} (number : ℕ) (id : Id entity) :
    FitsIn 56 (textField number id.toText) :=
  fitsIn_text (Nat.le_of_eq id.byteLength_toText)

namespace CoreProto

/-! ## Rows -/

/-- `ProjectSpecView`. -/
structure ProjectSpecView where
  projectSpecRevisionId : Text
  sequence : ℕ
  resolutionWidth : Option ℕ
  resolutionHeight : Option ℕ
  frameRateNumerator : Option ℕ
  frameRateDenominator : Option ℕ
  aspectRatioNumerator : Option ℕ
  aspectRatioDenominator : Option ℕ
  policySchemaVersion : ℕ
  colorPolicyJson : Bytes
  audioPolicyJson : Bytes
  qualityPolicyJson : Bytes
  privacyPolicyJson : Bytes
  policySha256 : Bytes
  deriving DecidableEq

def ProjectSpecView.fields (m : ProjectSpecView) : List RawField :=
  textField 1 m.projectSpecRevisionId ++ varintField 2 m.sequence ++
    optionalVarintField 3 m.resolutionWidth ++ optionalVarintField 4 m.resolutionHeight ++
    optionalVarintField 5 m.frameRateNumerator ++ optionalVarintField 6 m.frameRateDenominator ++
    optionalVarintField 7 m.aspectRatioNumerator ++
    optionalVarintField 8 m.aspectRatioDenominator ++ varintField 9 m.policySchemaVersion ++
    bytesField 10 m.colorPolicyJson ++ bytesField 11 m.audioPolicyJson ++
    bytesField 12 m.qualityPolicyJson ++ bytesField 13 m.privacyPolicyJson ++
    bytesField 14 m.policySha256

/-- `ProjectTrustValue`. -/
inductive ProjectTrustValue where
  | unspecified
  | untrusted
  deriving DecidableEq

def ProjectTrustValue.number : ProjectTrustValue → ℕ
  | .unspecified => 0
  | .untrusted => 1

/-- `ProjectView`. -/
structure ProjectView where
  projectId : Text
  name : Text
  revision : ℕ
  createdAtSeconds : ℤ
  createdAtNanos : ℕ
  updatedAtSeconds : ℤ
  updatedAtNanos : ℕ
  creationCommitSequence : ℕ
  currentSpecification : Option ProjectSpecView
  effectiveTrust : ProjectTrustValue
  deriving DecidableEq

def ProjectView.fields (m : ProjectView) : List RawField :=
  textField 1 m.projectId ++ textField 2 m.name ++ varintField 3 m.revision ++
    int64Field 4 m.createdAtSeconds ++ varintField 5 m.createdAtNanos ++
    int64Field 6 m.updatedAtSeconds ++ varintField 7 m.updatedAtNanos ++
    varintField 8 m.creationCommitSequence ++
    m.currentSpecification.toList.flatMap (fun specification =>
      messageField 9 specification.fields) ++
    varintField 10 m.effectiveTrust.number

/-- `SubjectView`. -/
structure SubjectView where
  subjectId : Text
  kind : Text
  canonicalName : Text
  revision : ℕ
  createdAtSeconds : ℤ
  createdAtNanos : ℕ
  creationCommitSequence : ℕ
  deriving DecidableEq

def SubjectView.fields (m : SubjectView) : List RawField :=
  textField 1 m.subjectId ++ textField 2 m.kind ++ textField 3 m.canonicalName ++
    varintField 4 m.revision ++ int64Field 5 m.createdAtSeconds ++
    varintField 6 m.createdAtNanos ++ varintField 7 m.creationCommitSequence

/-- `WorkKindValue`. -/
inductive WorkKindValue where
  | unspecified
  | scene
  | shot
  deriving DecidableEq

def WorkKindValue.number : WorkKindValue → ℕ
  | .unspecified => 0
  | .scene => 1
  | .shot => 2

/-- `WorkView`. -/
structure WorkView where
  workItemId : Text
  projectId : Text
  kind : WorkKindValue
  code : Text
  revision : ℕ
  createdAtSeconds : ℤ
  createdAtNanos : ℕ
  updatedAtSeconds : ℤ
  updatedAtNanos : ℕ
  creationCommitSequence : ℕ
  currentWorkRevisionId : Text
  currentWorkRevisionSequence : ℕ
  specificationSchemaVersion : ℕ
  specificationJson : Bytes
  specificationSha256 : Bytes
  subjectIds : List Text
  assetIds : List Text
  deriving DecidableEq

def WorkView.fields (m : WorkView) : List RawField :=
  textField 1 m.workItemId ++ textField 2 m.projectId ++ varintField 3 m.kind.number ++
    textField 4 m.code ++ varintField 5 m.revision ++ int64Field 6 m.createdAtSeconds ++
    varintField 7 m.createdAtNanos ++ int64Field 8 m.updatedAtSeconds ++
    varintField 9 m.updatedAtNanos ++ varintField 10 m.creationCommitSequence ++
    textField 11 m.currentWorkRevisionId ++ varintField 12 m.currentWorkRevisionSequence ++
    varintField 13 m.specificationSchemaVersion ++ bytesField 14 m.specificationJson ++
    bytesField 15 m.specificationSha256 ++ textFields 16 m.subjectIds ++ textFields 17 m.assetIds

/-- `TakeRelationshipKindValue`. -/
inductive TakeRelationshipKindValue where
  | unspecified
  | reopens
  | supersedes
  deriving DecidableEq

def TakeRelationshipKindValue.number : TakeRelationshipKindValue → ℕ
  | .unspecified => 0
  | .reopens => 1
  | .supersedes => 2

/-- `TakeRelationshipView`. -/
structure TakeRelationshipView where
  relationshipId : Text
  kind : TakeRelationshipKindValue
  targetTakeId : Text
  deriving DecidableEq

def TakeRelationshipView.fields (m : TakeRelationshipView) : List RawField :=
  textField 1 m.relationshipId ++ varintField 2 m.kind.number ++ textField 3 m.targetTakeId

/-- The numbers of `TakeStateValue`. -/
def takeStateNumber : TakeStateValue → ℕ
  | .unspecified => 0
  | .candidate => 1
  | .shortlisted => 2
  | .selected => 3
  | .approved => 4
  | .rejected => 5
  | .superseded => 6

/-- `TakeView`. -/
structure TakeView where
  takeId : Text
  workRevisionId : Text
  ordinal : ℕ
  state : TakeStateValue
  primaryAssetId : Text
  revision : ℕ
  createdAtSeconds : ℤ
  createdAtNanos : ℕ
  updatedAtSeconds : ℤ
  updatedAtNanos : ℕ
  outgoingRelationships : List TakeRelationshipView
  deriving DecidableEq

def TakeView.fields (m : TakeView) : List RawField :=
  textField 1 m.takeId ++ textField 2 m.workRevisionId ++ varintField 3 m.ordinal ++
    varintField 4 (takeStateNumber m.state) ++ textField 5 m.primaryAssetId ++
    varintField 6 m.revision ++ int64Field 7 m.createdAtSeconds ++
    varintField 8 m.createdAtNanos ++ int64Field 9 m.updatedAtSeconds ++
    varintField 10 m.updatedAtNanos ++
    m.outgoingRelationships.flatMap fun relationship => messageField 11 relationship.fields

/-! ## Pages and errors -/

/-- The four list results, which differ in the message of their rows. -/
structure ListResult (α : Type) where
  snapshot : ℕ
  rows : List α
  nextCursor : Option Bytes
  deriving DecidableEq

def ListResult.fields {α : Type} (row : α → List RawField) (m : ListResult α) : List RawField :=
  varintField 1 m.snapshot ++ m.rows.flatMap (fun r => messageField 2 (row r)) ++
    optionalBytesField 3 m.nextCursor

/-- The numbers of `RetryAction`. -/
def retryActionNumber : RetryAction → ℕ
  | .none => 1
  | .sameCommand => 2
  | .freshCommand => 3
  | .sourceStableSameCommand => 4
  | .sourceStableFreshCommand => 5
  | .operatorOrRuntimeAction => 6

/-- The fields of an `ErrorEnvelope`; both optional ones are present. -/
def errorFields (m : ErrorEnvelope) : List RawField :=
  textField 1 m.code.asStr.toList ++ textField 2 m.safeMessage.toList ++
    varintField 3 m.retryable.toNat ++ optionalBytesField 4 (some m.correlationId.utf8) ++
    optionalVarintField 6 (some (retryActionNumber m.retryAction))

/-- The `CoreResponse`s that answer a creative query. -/
inductive CreativeListResponse where
  | error (envelope : ErrorEnvelope)
  | listProjects (result : ListResult ProjectView)
  | listSubjects (result : ListResult SubjectView)
  | listWork (result : ListResult WorkView)
  | listTakes (result : ListResult TakeView)
  deriving DecidableEq

namespace CreativeListResponse

def fields : CreativeListResponse → List RawField
  | .error envelope => messageField 15 (errorFields envelope)
  | .listProjects result => messageField 21 (result.fields ProjectView.fields)
  | .listSubjects result => messageField 23 (result.fields SubjectView.fields)
  | .listWork result => messageField 26 (result.fields WorkView.fields)
  | .listTakes result => messageField 30 (result.fields TakeView.fields)

/-- `encode_to_vec`. -/
def encode (response : CreativeListResponse) : Bytes :=
  encodeFields response.fields

/-- `core_response_encoded_len`. -/
def encodedLen (response : CreativeListResponse) : ℕ :=
  response.encode.length

/-- A response is a field of the `oneof`, so its encoding is not empty. -/
theorem encodedLen_pos (response : CreativeListResponse) : 0 < response.encodedLen := by
  have hmessage : ∀ number fields, 0 < (encodeFields (messageField number fields)).length := by
    intro number fields
    unfold encodeFields messageField
    rw [List.flatMap_singleton]
    exact RawField.length_encode_pos _
  cases response <;> exact hmessage _ _

end CreativeListResponse

/-! ## Mutation results -/

/-- The numbers of `AssetLifecycleValue`. -/
def assetLifecycleNumber : AssetLifecycleValue → ℕ
  | .unspecified => 0
  | .active => 1
  | .retired => 2

def createAssetRevisionFields (m : CreateAssetRevisionResult) : List RawField :=
  textField 1 m.commandId ++ textField 2 m.assetId ++ textField 3 m.assetRevisionId ++
    varintField 4 m.resultingRevision ++ int64Field 5 m.createdAtSeconds ++
    varintField 6 m.createdAtNanos ++ varintField 7 m.replayed.toNat

def assetLifecycleFields (m : AssetLifecycleMutationResult) : List RawField :=
  textField 1 m.commandId ++ textField 2 m.assetId ++ varintField 3 m.resultingRevision ++
    varintField 4 (assetLifecycleNumber m.lifecycle) ++ int64Field 5 m.updatedAtSeconds ++
    varintField 6 m.updatedAtNanos ++ varintField 7 m.replayed.toNat

def projectMutationFields (m : ProjectMutationResult) : List RawField :=
  textField 1 m.commandId ++ textField 2 m.projectId ++ textField 3 m.projectSpecRevisionId ++
    varintField 4 m.projectRevision ++ varintField 5 m.specificationSequence ++
    int64Field 6 m.updatedAtSeconds ++ varintField 7 m.updatedAtNanos ++
    varintField 8 m.replayed.toNat

def subjectMutationFields (m : SubjectMutationResult) : List RawField :=
  textField 1 m.commandId ++ textField 2 m.subjectId ++ varintField 3 m.subjectRevision ++
    int64Field 4 m.createdAtSeconds ++ varintField 5 m.createdAtNanos ++
    varintField 6 m.replayed.toNat

def workMutationFields (m : WorkMutationResult) : List RawField :=
  textField 1 m.commandId ++ textField 2 m.workItemId ++ textField 3 m.workRevisionId ++
    varintField 4 m.workItemRevision ++ varintField 5 m.workRevisionSequence ++
    int64Field 6 m.updatedAtSeconds ++ varintField 7 m.updatedAtNanos ++
    varintField 8 m.replayed.toNat

def takeMutationFields (m : TakeMutationResult) : List RawField :=
  textField 1 m.commandId ++ textField 2 m.takeId ++ varintField 3 m.ordinal ++
    varintField 4 (takeStateNumber m.state) ++ textField 5 m.primaryAssetId ++
    varintField 6 m.takeRevision ++ optionalBytesField 7 (m.relatedTakeId.map Text.utf8) ++
    int64Field 8 m.updatedAtSeconds ++ varintField 9 m.updatedAtNanos ++
    varintField 10 m.replayed.toNat

/-- The fields of a `CoreResponse` that answers a mutation. -/
def mutationFields : MutationResponse → List RawField
  | .error envelope => messageField 15 (errorFields envelope)
  | .createAssetRevision value => messageField 16 (createAssetRevisionFields value)
  | .retireAsset value => messageField 17 (assetLifecycleFields value)
  | .restoreAsset value => messageField 18 (assetLifecycleFields value)
  | .createProject value => messageField 19 (projectMutationFields value)
  | .reviseProjectSpec value => messageField 20 (projectMutationFields value)
  | .createSubject value => messageField 22 (subjectMutationFields value)
  | .createWorkItem value => messageField 24 (workMutationFields value)
  | .reviseWork value => messageField 25 (workMutationFields value)
  | .createTake value => messageField 27 (takeMutationFields value)
  | .transitionTake value => messageField 28 (takeMutationFields value)
  | .reopenTake value => messageField 29 (takeMutationFields value)

/-- `core_response_encoded_len`, of the answer to a mutation. -/
def mutationEncodedLen (response : MutationResponse) : ℕ :=
  (encodeFields (mutationFields response)).length

/-! ## Sizes -/

/-- **The bytes of a page** are those of its rows, its endpoint and its cursor. -/
theorem ListResult.length_encode {α : Type} (row : α → List RawField) (m : ListResult α) :
    (encodeFields (m.fields row)).length = numberSize 1 m.snapshot +
      (m.rows.map fun r => dataSize 2 (encodeFields (row r)).length).sum +
        m.nextCursor.elim 0 fun bytes => dataSize 3 bytes.length := by
  have hrows : (encodeFields (m.rows.flatMap fun r => messageField 2 (row r))).length =
      (m.rows.map fun r => dataSize 2 (encodeFields (row r)).length).sum := by
    induction m.rows with
    | nil => rfl
    | cons r rows ih =>
      rw [List.flatMap_cons, encodeFields_append, List.length_append, length_encode_messageField,
        ih, List.map_cons, List.sum_cons]
  rw [fields, encodeFields_append, encodeFields_append, List.length_append, List.length_append,
    length_encode_varintField, hrows]
  cases m.nextCursor with
  | none => rfl
  | some bytes =>
    simp [encodeFields, optionalBytesField, RawField.length_encode_bytes]

/-- A page fits when its rows do. -/
theorem ListResult.fitsIn {α : Type} {row : α → List RawField} {m : ListResult α} {count size : ℕ}
    (hcount : m.rows.length ≤ count) (hrows : ∀ r ∈ m.rows, FitsIn size (row r))
    (hcursor : ∀ bytes ∈ m.nextCursor, bytes.length = 160) :
    FitsIn (200 + count * (20 + size)) (m.fields row) := by
  have hpage : FitsIn (m.rows.length * (20 + size))
      (m.rows.flatMap fun r => messageField 2 (row r)) :=
    .repeated fun r hr => .message (hrows r hr)
  have hmany : m.rows.length * (20 + size) ≤ count * (20 + size) := Nat.mul_le_mul_right _ hcount
  have hfields := ((FitsIn.varint 1 m.snapshot).append hpage).append
    (@FitsIn.optionalBytes 3 160 m.nextCursor fun b hb => Nat.le_of_eq (hcursor b hb))
  exact hfields.mono (by omega)

end CoreProto

end MengXia
