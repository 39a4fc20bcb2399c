import MengXia.Common.Program
import MengXia.Ports
/-!
# The holders of admissions

What the holder of an admission to the local blob storage does until it
releases it: `process_ingest` with the calls it makes of its source, its
staging file, its hash worker and the shared counters. Whatever it is
answered, it counts no more bytes than its source declares, accounts at most
once for a staging file that it leaves behind, after the last byte, and
reports the bytes it has counted, unless it ends the runtime.
-/

namespace MengXia.Storage

open Common Program

/-- `BlobStorageError`. -/
inductive BlobStorageError where
  | validation
  | sourceModified
  | io
  | corruption
  | configuration
  | recoveryRequired
  | conflict
  | backpressure
  | entropyUnavailable
  | stagingNamespaceUnavailable
  | cleanupFailed
  | shuttingDown
  | internal
  deriving DecidableEq

/-- `IngestStop`. -/
inductive IngestStop where
  | cancelled
  | deadlineReached

/-- `IngestOutcome`. -/
inductive IngestOutcome where
  | stored (digest : Digest) (byteLength : ℕ)
  | stopped (stop : IngestStop)

/-- `ProcessResult`, without the channel of its reply. -/
structure ProcessResult where
  result : Except BlobStorageError IngestOutcome
  written : ℕ
  fatal : Bool

/-- `WriteAbort`. -/
inductive WriteAbort where
  | stopped (stop : IngestStop)
  | error (error : BlobStorageError) (fatal : Bool)

/-- The calls of an ingest. -/
inductive IngestCall where
  | checkpoint
  | dispatchAdmitted
  | createStaging
  | hashBegin
  | readAt (length offset : ℕ)
  | hashChunk (used : ℕ)
  | checkWriteCapacity
  | writeAt (length offset : ℕ)
  | updateWritten (bytes : ℕ)
  | revalidate
  | hashFinish
  | commitStaging (digest : Digest) (length bufferBytes : ℕ)
  | accountCorruption
  | cleanupStaging
  deriving DecidableEq

/-- What a call returns when it does not fail. -/
@[reducible] def IngestCall.Value : IngestCall → Type
  | .checkpoint => Option IngestStop
  | .readAt .. | .writeAt .. => ℕ
  | .hashFinish => Digest
  | _ => Unit

/-- What a call is answered with. -/
abbrev IngestCall.Answer (op : IngestCall) : Type :=
  Except BlobStorageError op.Value

/-- A program over these calls. -/
abbrev Calls (α : Type) : Type :=
  Program IngestCall IngestCall.Answer α

/-- A part of an ingest, which may end it: with the reason, and the bytes that
have been written. -/
abbrev IngestPart (α : Type) : Type :=
  ExceptT (WriteAbort × ℕ) (Program IngestCall IngestCall.Answer) α

/-- A call whose failure ends the ingest for this reason. -/
def askAs (reason : BlobStorageError → WriteAbort) (written : ℕ) (op : IngestCall) :
    IngestPart op.Value :=
  orFail (fun e => (reason e, written)) (perform op)

/-- A call whose failure ends the ingest. -/
abbrev ask : ℕ → (op : IngestCall) → IngestPart op.Value :=
  askAs fun e => .error e false

/-- A call whose failure ends the runtime as well. -/
abbrev askFatal : ℕ → (op : IngestCall) → IngestPart op.Value :=
  askAs fun _ => .error .internal true

/-- `checkpoint_result`, with the return that follows a stop. -/
def checkpointResult (written : ℕ) : IngestPart Unit := do
  match ← ask written .checkpoint with
  | none => pure ()
  | some stop => throw (.stopped stop, written)

/-- `read_declared_chunk_with`. -/
def readDeclaredChunkWith (length offset : ℕ) : IngestPart { n : ℕ // 0 < n ∧ n ≤ length } := do
  let count : ℕ ← ask offset (.readAt length offset)
  if zero : count = 0 then throw (.error .sourceModified false, offset)
  else if long : length < count then throw (.error .internal false, offset)
  else pure ⟨count, Nat.pos_of_ne_zero zero, Nat.le_of_not_lt long⟩

/-- `eof_probe_with`. -/
def eofProbeWith (declaredLength offset : ℕ) : IngestPart Unit := do
  match ← (ask offset (.readAt 1 declaredLength) : IngestPart ℕ) with
  | 0 => pure ()
  | 1 => throw (.error .sourceModified false, offset)
  | _ => throw (.error .internal false, offset)

/-- `write_chunk_with` for a chunk of this length, once `written` bytes of it
are written: it returns when all are. -/
def writeChunkWith (base length written : ℕ) (within : written ≤ length) :
    IngestPart { n : ℕ // n = length } :=
  if rest : written < length then do
    checkpointResult (base + written)
    ask (base + written) .checkWriteCapacity
    require (base + written < 2 ^ 64) (.error .internal true, base + written)
    let count : ℕ ← ask (base + written) (.writeAt (length - written) (base + written))
    if bad : count = 0 ∨ length - written < count then
      throw (.error .io (length - written < count), base + written)
    else
      askFatal (base + (written + count)) (.updateWritten count)
      writeChunkWith base length (written + count) (by omega)
  else pure ⟨written, by omega⟩
termination_by length - written

/-- The loop of `process_ingest`. -/
def ingestLoop (bufferBytes declaredLength offset : ℕ) : IngestPart ℕ :=
  if offset < declaredLength then do
    checkpointResult offset
    let read ← readDeclaredChunkWith (min (declaredLength - offset) bufferBytes) offset
    askFatal offset (.hashChunk read)
    checkpointResult offset
    let written ← writeChunkWith offset read 0 (Nat.zero_le _)
    checkpointResult (offset + written)
    ingestLoop bufferBytes declaredLength (offset + written)
  else pure offset
termination_by declaredLength - offset
decreasing_by
  have := read.2
  have := written.2
  omega

/-- What `process_ingest` does between creating and committing its staging
file. -/
def ingestSource (bufferBytes : ℕ) (expectedDigest : Option Digest) (declaredLength : ℕ) :
    IngestPart (Digest × ℕ) := do
  checkpointResult 0
  askFatal 0 .hashBegin
  let offset ← ingestLoop bufferBytes declaredLength 0
  eofProbeWith declaredLength offset
  checkpointResult offset
  askAs (fun _ => .error .sourceModified false) offset .revalidate
  checkpointResult offset
  let digest : Digest ← askFatal offset .hashFinish
  require (expectedDigest.all fun expected => expected = digest)
    (.error .corruption false, offset)
  checkpointResult offset
  return (digest, offset)

/-- The result of an ingest that is ended. -/
def WriteAbort.result (written : ℕ) : WriteAbort → ProcessResult
  | .stopped stop => ⟨.ok (.stopped stop), written, false⟩
  | .error e fatal => ⟨Except.error e, written, fatal⟩

/-- `abort` and `abort_stopped` with a staging file. -/
def abort (reason : WriteAbort) (written : ℕ) : Calls ProcessResult := do
  match ← perform .cleanupStaging with
  | .ok _ => return reason.result written
  | .error _ => return ⟨.error .cleanupFailed, written, true⟩

/-- The end of `process_ingest`. -/
def commitIngest (bufferBytes declaredLength : ℕ) (digest : Digest) (offset : ℕ) :
    Calls ProcessResult := do
  match ← perform (.commitStaging digest declaredLength bufferBytes) with
  | .ok _ => return ⟨.ok (.stored digest declaredLength), offset, false⟩
  | .error .corruption =>
    match ← perform .accountCorruption with
    | .ok _ => return ⟨.error .corruption, offset, false⟩
    | .error error => return ⟨.error error, offset, true⟩
  | .error error => abort (.error error false) offset

/-- A part that precedes the staging file: without one there is nothing to
clean up when it ends the ingest. -/
def begun (start : IngestPart Unit) (rest : Calls ProcessResult) : Calls ProcessResult := do
  match ← start.run with
  | .error (reason, written) => return reason.result written
  | .ok _ => rest

/-- `process_ingest`. -/
def processIngest (bufferBytes : ℕ) (expectedDigest : Option Digest) (declaredLength : ℕ) :
    Calls ProcessResult :=
  begun (do checkpointResult 0; ask 0 .createStaging) do
    match ← (ingestSource bufferBytes expectedDigest declaredLength).run with
    | .error (reason, written) => abort reason written
    | .ok (digest, offset) => commitIngest bufferBytes declaredLength digest offset

/-- `LocalBlobStorage::ingest` once it is admitted. -/
def ingest (bufferBytes : ℕ) (expectedDigest : Option Digest) (declaredLength : ℕ) :
    Calls ProcessResult :=
  begun (do checkpointResult 0; askAs (fun e => .error e true) 0 .dispatchAdmitted)
    (processIngest bufferBytes expectedDigest declaredLength)

/-- What the holder of an admission does until it releases it, and what it
reports then. -/
abbrev Holder : Type :=
  Calls (ℕ × Bool)

/-- The holder of an ingest. -/
def ingestHolder (bufferBytes : ℕ) (expectedDigest : Option Digest) (declaredLength : ℕ) :
    Holder := do
  let process ← ingest bufferBytes expectedDigest declaredLength
  return (process.written, process.fatal)

/-- A `MaterializationAdmissionOwner`, which is dropped without a call. -/
def materializationHolder : Holder :=
  pure (0, false)

/-! ## What holders count -/

/-- The bytes a holder has counted as written, and how often it has accounted
for its staging file. -/
structure Progress where
  written : ℕ
  accounted : ℕ

/-- What an answered call counts. -/
def Progress.after (progress : Progress) : (op : IngestCall) → op.Answer → Progress
  | .updateWritten bytes, .ok _ => { progress with written := progress.written + bytes }
  | .accountCorruption, .ok _ => { progress with accounted := progress.accounted + 1 }
  | _, _ => progress

/-- **What a holder may count**: the bytes it declared, and its staging file
once they are all written. -/
structure Progress.Sound (declaredLength : ℕ) (progress : Progress) : Prop where
  within : progress.written ≤ declaredLength
  once : progress.accounted ≤ 1
  complete : progress.accounted = 1 → progress.written = declaredLength

/-- Any answer may be given, and is counted. -/
def counted (op : IngestCall) (choice : (op : IngestCall) → op.Answer) (progress : Progress) :
    op.Answer × Progress :=
  (choice op, progress.after op (choice op))

/-- **A holder counts soundly**, and reports what it has counted unless it ends
the runtime. -/
def Holder.Counts (declaredLength : ℕ) (holder : Holder) (progress : Progress) : Prop :=
  wp counted (Progress.Sound declaredLength)
    (fun report progress => report.2 = false → report.1 = progress.written) holder progress

/-- Whatever a call is answered, the holder goes on counting soundly. -/
theorem Holder.Counts.next {declaredLength : ℕ} {op : IngestCall} {next : op.Answer → Holder}
    {progress : Progress} (h : Holder.Counts declaredLength (.call op next) progress)
    (answer : op.Answer) : (progress.after op answer).Sound declaredLength ∧
      (next answer).Counts declaredLength (progress.after op answer) := by
  -- Every answer is one that may be chosen.
  have hchoice := h (Function.update (fun _ => .error .internal) op answer)
  simp only [counted, Function.update_self] at hchoice
  exact hchoice

/-- Whether a reason ends the runtime. -/
def WriteAbort.fatal : WriteAbort → Bool
  | .stopped _ => false
  | .error _ fatal => fatal

/-- Where an ingest is ended: what it gives as written is what is counted,
unless it ends the runtime. -/
structure Ended (declaredLength : ℕ) (failure : WriteAbort × ℕ) (progress : Progress) : Prop where
  within : progress.written ≤ declaredLength
  accounted : progress.accounted = 0
  reported : failure.1.fatal = false → failure.2 = progress.written

/-- The counters of an ingest that has written `offset` bytes. -/
abbrev upTo (offset : ℕ) : Progress :=
  ⟨offset, 0⟩

/-- **What a part of an ingest counts** that begins after `offset` bytes. -/
abbrev Part {α : Type} (declaredLength offset : ℕ) (part : IngestPart α)
    (Q : α → Progress → Prop) : Prop :=
  wpx counted (Progress.Sound declaredLength) Q (Ended declaredLength) part (upTo offset)

section Parts

variable {bufferBytes declaredLength offset : ℕ} {Q : Unit → Progress → Prop}

theorem upTo_sound (h : offset ≤ declaredLength) : (upTo offset).Sound declaredLength :=
  ⟨h, Nat.zero_le 1, fun h => absurd h Nat.zero_ne_one⟩

theorem upTo_ended (h : offset ≤ declaredLength) (reason : WriteAbort) :
    Ended declaredLength (reason, offset) (upTo offset) :=
  ⟨h, rfl, fun _ => rfl⟩

/-- A call that counts nothing. -/
theorem part_ask {op : IngestCall} {reason : BlobStorageError → WriteAbort}
    {Q : op.Value → Progress → Prop} (h : offset ≤ declaredLength)
    (hop : ∀ answer, (upTo offset).after op answer = upTo offset)
    (hQ : ∀ value, Q value (upTo offset)) :
    Part declaredLength offset (askAs reason offset op) Q := by
  rw [Part, askAs, wpx_orFail, wp_perform]
  intro choice
  simp only [counted, hop]
  refine ⟨upTo_sound h, ?_⟩
  cases choice op with
  | ok value => exact hQ value
  | error e => exact upTo_ended h _

theorem part_checkpointResult (h : offset ≤ declaredLength) (hQ : Q () (upTo offset)) :
    Part declaredLength offset (checkpointResult offset) Q := by
  rw [Part, checkpointResult, wpx_bind]
  refine part_ask h (fun _ => rfl) fun directive => ?_
  cases directive with
  | none => exact hQ
  | some stop => exact upTo_ended h _

/-- A chunk is written and counted byte for byte. -/
theorem part_writeChunkWith {base length written : ℕ} (within : written ≤ length)
    {Q : { n : ℕ // n = length } → Progress → Prop} (h : base + length ≤ declaredLength)
    (hQ : ∀ n, Q n (upTo (base + length))) :
    Part declaredLength (base + written) (writeChunkWith base length written within) Q := by
  fun_induction writeChunkWith base length written within with
  | case1 written within rest ih =>
    have hbase : base + written ≤ declaredLength := by omega
    simp only [wpx_bind]
    refine part_checkpointResult hbase (part_ask hbase (fun _ => rfl) fun _ => ?_)
    refine wpx_require (fun _ => ?_) fun _ => upTo_ended hbase _
    refine part_ask hbase (fun _ => rfl) fun count => ?_
    split
    · exact upTo_ended hbase _
    · next hcount =>
      -- The counter follows the file, or the runtime ends.
      rw [wpx_bind, askFatal, askAs, wpx_orFail]
      refine wp_perform.2 fun choice => ?_
      cases hanswer : choice (.updateWritten count) with
      | ok value =>
        simp only [counted, Progress.after, hanswer]
        rw [Nat.add_assoc]
        exact ⟨upTo_sound (by omega), ih _ hcount⟩
      | error e =>
        simp only [counted, Progress.after, hanswer]
        exact ⟨upTo_sound hbase, hbase, rfl, fun h => by cases h⟩
  | case2 written within rest =>
    obtain rfl : written = length := by omega
    exact hQ _

/-- **The loop of an ingest counts every byte that it has written.** -/
theorem part_ingestLoop {Q : ℕ → Progress → Prop} (h : offset ≤ declaredLength)
    (hQ : Q declaredLength (upTo declaredLength)) :
    Part declaredLength offset (ingestLoop bufferBytes declaredLength offset) Q := by
  fun_induction ingestLoop bufferBytes declaredLength offset with
  | case1 offset hmore ih =>
    simp only [wpx_bind]
    refine part_checkpointResult h ?_
    rw [readDeclaredChunkWith, wpx_bind]
    refine part_ask h (fun _ => rfl) fun count => ?_
    split
    · exact upTo_ended h _
    split
    · exact upTo_ended h _
    · next hzero hlong =>
      refine part_ask h (fun _ => rfl) fun _ => part_checkpointResult h ?_
      have hend : offset + count ≤ declaredLength := by omega
      refine part_writeChunkWith (Nat.zero_le _) hend fun written => ?_
      have hwritten : offset + count = offset + written := by rw [written.2]
      show wpx _ _ _ _ _ (upTo (offset + count))
      rw [hwritten] at hend ⊢
      exact part_checkpointResult hend (ih _ written hend)
  | case2 offset hend =>
    obtain rfl : offset = declaredLength := by omega
    exact hQ

theorem part_ingestSource {expectedDigest : Option Digest} :
    Part declaredLength 0 (ingestSource bufferBytes expectedDigest declaredLength)
      fun source progress => source.2 = declaredLength ∧ progress = upTo declaredLength := by
  have hzero := Nat.zero_le declaredLength
  have hall := Nat.le_refl declaredLength
  simp only [ingestSource, wpx_bind]
  refine part_checkpointResult hzero (part_ask hzero (fun _ => rfl) fun _ => ?_)
  refine part_ingestLoop hzero ?_
  rw [eofProbeWith, wpx_bind]
  refine part_ask hall (fun _ => rfl) fun count => ?_
  split
  · refine part_checkpointResult hall (part_ask hall (fun _ => rfl) fun _ => ?_)
    refine part_checkpointResult hall ?_
    refine part_ask hall (fun _ => rfl) fun digest => ?_
    refine wpx_require (fun _ => ?_) fun _ => upTo_ended hall _
    exact part_checkpointResult hall ⟨rfl, rfl⟩
  · exact upTo_ended hall _
  · exact upTo_ended hall _

/-- A result that reports what is counted, unless it ends the runtime. -/
def ProcessResult.Reports (process : ProcessResult) (progress : Progress) : Prop :=
  process.fatal = false → process.written = progress.written

theorem Ended.reports {reason : WriteAbort} {written : ℕ} {progress : Progress}
    (h : Ended declaredLength (reason, written) progress) :
    (reason.result written).Reports progress := by
  cases reason with
  | stopped stop => exact h.reported
  | error e fatal => exact h.reported

theorem Ended.sound {failure : WriteAbort × ℕ} {progress : Progress}
    (h : Ended declaredLength failure progress) : progress.Sound declaredLength := by
  have hnone := h.accounted
  exact ⟨h.within, by omega, fun hone => by omega⟩

theorem wp_abort {reason : WriteAbort} {written : ℕ} {progress : Progress}
    (h : Ended declaredLength (reason, written) progress) :
    wp counted (Progress.Sound declaredLength) ProcessResult.Reports (abort reason written)
      progress := by
  refine wp_bind.2 (wp_perform.2 fun choice => ⟨h.sound, ?_⟩)
  simp only [counted]
  split
  · exact h.reports
  · exact fun hfatal => by cases hfatal

theorem wp_commitIngest {digest : Digest} :
    wp counted (Progress.Sound declaredLength) ProcessResult.Reports
      (commitIngest bufferBytes declaredLength digest declaredLength) (upTo declaredLength) := by
  have hall := Nat.le_refl declaredLength
  refine wp_bind.2 (wp_perform.2 fun choice => ⟨upTo_sound hall, ?_⟩)
  simp only [counted]
  split
  · exact fun _ => rfl
  · refine wp_bind.2 (wp_perform.2 fun choice => ?_)
    cases hanswer : choice .accountCorruption with
    | ok value =>
      simp only [counted, Progress.after, hanswer]
      exact ⟨⟨hall, Nat.le_refl 1, fun _ => rfl⟩, fun _ => rfl⟩
    | error e =>
      simp only [counted, Progress.after, hanswer]
      exact ⟨upTo_sound hall, fun hfatal => by cases hfatal⟩
  · exact wp_abort (upTo_ended hall _)

/-- The two calls before the staging file count nothing. -/
theorem wp_begun {start : IngestPart Unit} {rest : Calls ProcessResult}
    (hstart : Part declaredLength 0 start fun _ progress => progress = upTo 0)
    (hrest : wp counted (Progress.Sound declaredLength) ProcessResult.Reports rest (upTo 0)) :
    wp counted (Progress.Sound declaredLength) ProcessResult.Reports (begun start rest)
      (upTo 0) := by
  refine wp_bind.2 (wp_mono hstart fun started progress h => ?_)
  cases started with
  | error failure => exact Ended.reports h
  | ok value =>
    obtain rfl : progress = upTo 0 := h
    exact hrest

/-- **An ingest counts what it writes**, whatever it is answered. -/
theorem ingestHolder_counts (bufferBytes : ℕ) (expectedDigest : Option Digest)
    (declaredLength : ℕ) : (ingestHolder bufferBytes expectedDigest declaredLength).Counts
      declaredLength (upTo 0) := by
  have hzero := Nat.zero_le declaredLength
  refine wp_bind.2 (wp_begun ?_ (wp_begun ?_ ?_))
  · rw [Part, wpx_bind]
    exact part_checkpointResult hzero (part_ask hzero (fun _ => rfl) fun _ => rfl)
  · rw [Part, wpx_bind]
    exact part_checkpointResult hzero (part_ask hzero (fun _ => rfl) fun _ => rfl)
  · refine wp_bind.2 (wp_mono part_ingestSource fun source progress h => ?_)
    cases source with
    | error failure => exact wp_abort h
    | ok source =>
      obtain ⟨digest, offset⟩ := source
      obtain ⟨rfl, rfl⟩ : offset = declaredLength ∧ progress = upTo declaredLength := h
      exact wp_commitIngest

/-- A materialization counts nothing. -/
theorem materializationHolder_counts (declaredLength : ℕ) :
    materializationHolder.Counts declaredLength (upTo 0) :=
  fun _ => rfl

end Parts

end MengXia.Storage
