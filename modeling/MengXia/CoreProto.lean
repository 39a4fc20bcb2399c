import MengXia.Ports
/-!
# The core protocol

The messages the daemon and its client exchange, the text of identifiers
in them, and the error responses both sides agree on. A field of an
enumeration holds one of its values; `unspecified` is the value 0.
-/

namespace MengXia

open Common

/-! ## Identifiers as text -/

/-- The hyphenated form of 32 hexadecimal digits. -/
def hyphenated (hex : Text) : Text :=
  hex.take 8 ++ ['-'] ++ (hex.drop 8).take 4 ++ ['-'] ++ (hex.drop 12).take 4 ++ ['-'] ++
    (hex.drop 16).take 4 ++ ['-'] ++ hex.drop 20

/-- `Id::to_string`, of the sixteen bytes. -/
def bitsText (bits : BitVec 128) : Text :=
  hyphenated ((digits 16 32 bits.toNat).map hexDigit)

/-- `Id::to_string`. -/
def Uuid.toText (u : Uuid) : Text :=
  bitsText u.bits

def Id.toText {entity : Entity} (id : Id entity) : Text :=
  id.uuid.toText

/-- `Id::from_str`: the text has to be the canonical one of what it spells. -/
def Id.fromText {entity : Entity} (value : Text) : Option (Id entity) :=
  match (value.filter (· ≠ '-')).mapM hexValue with
  | none => none
  | some values =>
    let bits := BitVec.ofNat 128 (ofDigits 16 values)
    if bitsText bits = value then Id.fromBits bits else none

/-! ## Values -/

/-- `RetryAction`. -/
inductive RetryAction where
  | none
  | sameCommand
  | freshCommand
  | sourceStableSameCommand
  | sourceStableFreshCommand
  | operatorOrRuntimeAction
  deriving DecidableEq

/-- `AssetLifecycleValue`. -/
inductive AssetLifecycleValue where
  | unspecified
  | active
  | retired
  deriving DecidableEq

/-- `TakeStateValue`. -/
inductive TakeStateValue where
  | unspecified
  | candidate
  | shortlisted
  | selected
  | approved
  | rejected
  | superseded
  deriving DecidableEq

/-! ## Messages -/

/-- `ErrorEnvelope`; `safe_details` is always empty. -/
structure ErrorEnvelope where
  code : ErrorCode
  safeMessage : String
  retryable : Bool
  correlationId : Text
  retryAction : RetryAction
  deriving DecidableEq

/-- `CreateAssetRevisionResult`. -/
structure CreateAssetRevisionResult where
  commandId : Text
  assetId : Text
  assetRevisionId : Text
  resultingRevision : ℕ
  createdAtSeconds : ℤ
  createdAtNanos : ℕ
  replayed : Bool
  deriving DecidableEq

/-- `AssetLifecycleMutationResult`. -/
structure AssetLifecycleMutationResult where
  commandId : Text
  assetId : Text
  resultingRevision : ℕ
  lifecycle : AssetLifecycleValue
  updatedAtSeconds : ℤ
  updatedAtNanos : ℕ
  replayed : Bool
  deriving DecidableEq

/-- `ProjectMutationResult`. -/
structure ProjectMutationResult where
  commandId : Text
  projectId : Text
  projectSpecRevisionId : Text
  projectRevision : ℕ
  specificationSequence : ℕ
  updatedAtSeconds : ℤ
  updatedAtNanos : ℕ
  replayed : Bool
  deriving DecidableEq

/-- `SubjectMutationResult`. -/
structure SubjectMutationResult where
  commandId : Text
  subjectId : Text
  subjectRevision : ℕ
  createdAtSeconds : ℤ
  createdAtNanos : ℕ
  replayed : Bool
  deriving DecidableEq

/-- `WorkMutationResult`. -/
structure WorkMutationResult where
  commandId : Text
  workItemId : Text
  workRevisionId : Text
  workItemRevision : ℕ
  workRevisionSequence : ℕ
  updatedAtSeconds : ℤ
  updatedAtNanos : ℕ
  replayed : Bool
  deriving DecidableEq

/-- `TakeMutationResult`. -/
structure TakeMutationResult where
  commandId : Text
  takeId : Text
  ordinal : ℕ
  state : TakeStateValue
  primaryAssetId : Text
  takeRevision : ℕ
  relatedTakeId : Option Text
  updatedAtSeconds : ℤ
  updatedAtNanos : ℕ
  replayed : Bool
  deriving DecidableEq

/-- The answers of the mutation handlers. -/
inductive MutationResponse where
  | error (envelope : ErrorEnvelope)
  | createAssetRevision (value : CreateAssetRevisionResult)
  | retireAsset (value : AssetLifecycleMutationResult)
  | restoreAsset (value : AssetLifecycleMutationResult)
  | createProject (value : ProjectMutationResult)
  | reviseProjectSpec (value : ProjectMutationResult)
  | createSubject (value : SubjectMutationResult)
  | createWorkItem (value : WorkMutationResult)
  | reviseWork (value : WorkMutationResult)
  | createTake (value : TakeMutationResult)
  | transitionTake (value : TakeMutationResult)
  | reopenTake (value : TakeMutationResult)
  deriving DecidableEq

/-! ## Error responses -/

/-- `operation_safe_message`. -/
def operationSafeMessage : ErrorCode → Option String
  | .validationError => some "request validation failed"
  | .authenticationError => some "client authentication failed"
  | .conflict => some "operation conflicts with durable state"
  | .notFound => some "requested object was not found"
  | .sourceModifiedDuringIngest => some "source changed during ingest"
  | .storageIoError => some "storage operation failed"
  | .storageCorruption => some "storage integrity verification failed"
  | .storageBusy => some "storage is temporarily busy"
  | .storageConfigurationError => some "storage configuration is unsupported or unsafe"
  | .ipcTransportError => some "local IPC transport failed"
  | .protocolVersionUnsupported => some "protocol version is unsupported"
  | .deadlineExceeded => some "operation deadline exceeded"
  | .operationCancelled => some "operation was cancelled"
  | .backpressure => some "operation admission is full"
  | .commandInProgress => some "command is already in progress"
  | .idGenerationUnavailable => some "identifier generation is unavailable"
  | _ => none

/-- `valid_operation_retry_pair`. -/
def validOperationRetryPair (code : ErrorCode) (retry : RetryAction) : Bool :=
  match code with
  | .validationError => retry = .none || retry = .freshCommand
  | .authenticationError | .protocolVersionUnsupported => retry = .operatorOrRuntimeAction
  | .conflict | .notFound => retry = .none
  | .sourceModifiedDuringIngest =>
    retry = .sourceStableSameCommand || retry = .sourceStableFreshCommand
  | .storageIoError =>
    retry = .sameCommand || retry = .freshCommand || retry = .operatorOrRuntimeAction
  | .storageCorruption | .storageConfigurationError | .idGenerationUnavailable =>
    retry = .operatorOrRuntimeAction
  | .ipcTransportError | .storageBusy | .commandInProgress => retry = .sameCommand
  | .deadlineExceeded | .operationCancelled | .backpressure =>
    retry = .sameCommand || retry = .freshCommand
  | _ => false

/-- `operation_error_response`, with its failure mapped to `InternalError`
as every caller does. -/
def operationErrorResponse (code : ErrorCode) (retry : RetryAction) (correlationId : Text) :
    Except ErrorCode ErrorEnvelope :=
  match operationSafeMessage code with
  | none => .error .internalError
  | some message =>
    if validOperationRetryPair code retry then
      .ok ⟨code, message, retry ≠ .none && retry ≠ .operatorOrRuntimeAction, correlationId,
        retry⟩
    else .error .internalError

end MengXia
