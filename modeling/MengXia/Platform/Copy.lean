import MengXia.Common.Program
import MengXia.Common.Sha256
import MengXia.Types
/-!
# Copies of managed blobs

Before a materialized file is published, the managed blob is copied to a
staging file and read back: `copy_managed_blob_controlled` and the loops under
it, over the calls they make. A read or a write may be short, every call may
fail, and the caller may stop the copy whenever it is asked. A copy that is
reported as verified is the blob all the same.
-/

namespace MengXia.Platform

open Common Common.Program

variable {bufferBytes length : ℕ}

/-! ## Calls -/

/-- `MaterializationDestinationError`. -/
inductive DestinationError where
  | invalidPath
  | conflict
  | unsafeConfiguration
  | sourceCorruption
  | io
  deriving DecidableEq

/-- What `fstat` says of a file. -/
structure FileStat where
  device : ℤ
  inode : ℕ
  size : ℕ
  links : ℕ
  modified : ℤ × ℤ
  changed : ℤ × ℤ
  deriving DecidableEq

/-- The calls on the staging file and its directory, and on the canonical
blob of a digest. An interrupted read or write is repeated below this level. -/
inductive FileCall where
  | parent
  | inspect (length : ℕ)
  | fstat
  | exactName (name : Bytes)
  | pread (length offset : ℕ)
  | pwrite (bytes : Bytes) (offset : ℕ)
  | fullSync
  | openBlob (digest : Digest) (length : ℕ)
  | revalidateBlob (digest : Digest)
  | preadBlob (digest : Digest) (length offset : ℕ)
  | revalidateAuthority

/-- What a call returns that does not fail. -/
@[reducible] def FileCall.Value : FileCall → Type
  | .inspect _ => ℕ × ℕ
  | .fstat => FileStat
  | .pread .. | .preadBlob .. => Bytes
  | .pwrite .. | .openBlob .. => ℕ
  | _ => Unit

/-- The calls of a copy: on files, and of the closure it is given. -/
inductive CopyCall where
  | file (op : FileCall)
  | shouldStop

/-- What a call is answered with. -/
@[reducible] def CopyCall.Answer : CopyCall → Type
  | .file op => Except DestinationError op.Value
  | .shouldStop => Bool

/-- A program over these calls that may fail. -/
abbrev CopyProgram (α : Type) : Type :=
  ExceptT DestinationError (Program CopyCall CopyCall.Answer) α

/-- A call on files, with its failure mapped. -/
def askAs (f : DestinationError → DestinationError) (op : FileCall) : CopyProgram op.Value :=
  orFail f (perform (CopyCall.file op))

/-- A call on files. -/
abbrev ask : (op : FileCall) → CopyProgram op.Value :=
  askAs id

/-- A call on files whose failure is one of I/O. -/
abbrev askIo : (op : FileCall) → CopyProgram op.Value :=
  askAs fun _ => .io

/-- `should_stop`. -/
def shouldStop : CopyProgram Bool :=
  check .ok (perform CopyCall.shouldStop)

/-! ## The functions -/

/-- `write_all_at`. -/
def writeAllAt (bytes : Bytes) (offset : ℕ) : CopyProgram Unit :=
  if bytes = [] then pure ()
  else do
    let written : ℕ ← askIo (.pwrite bytes offset)
    if written = 0 then throw .io
    else if offset + written < 2 ^ 64 then writeAllAt (bytes.drop written) (offset + written)
    else throw .io
termination_by bytes.length
decreasing_by
  rename_i hbytes hwritten _
  have := List.length_pos_iff.2 hbytes
  rw [List.length_drop]
  omega

/-- `file_snapshot`. -/
def fileSnapshot : CopyProgram FileStat := do
  let stat ← askIo .fstat
  require (0 ≤ stat.device) .unsafeConfiguration
  return stat

/-- The loop of `verify_file_content`, with the bytes it has hashed, and of
`validate_exact_record`; they fail differently where the file is too short. -/
def readLoop (short : DestinationError) (bufferBytes length offset : ℕ) (hashed : Bytes) :
    CopyProgram Bytes :=
  if offset < length then do
    let bytes ← askIo (.pread (min (length - offset) bufferBytes) offset)
    if bytes = [] then throw short
    else if offset + bytes.length < 2 ^ 64 then
      readLoop short bufferBytes length (offset + bytes.length) (hashed ++ bytes)
    else throw short
  else pure hashed
termination_by length - offset
decreasing_by
  rename_i hbytes _
  have := List.length_pos_iff.2 hbytes
  omega

/-- `verify_file_content`. -/
def verifyFileContent (expectedDigest : Digest) (expectedLength : UInt64) (bufferBytes : ℕ) :
    CopyProgram Unit := do
  require (1048576 ≤ bufferBytes ∧ bufferBytes ≤ 33554432) .unsafeConfiguration
  let before ← fileSnapshot
  require (before.size = expectedLength.toNat) .sourceCorruption
  let hashed ← readLoop .sourceCorruption bufferBytes expectedLength.toNat 0 []
  let trailing ← askIo (.pread 1 expectedLength.toNat)
  require (trailing = [] ∧ (⟨sha256 hashed⟩ : Digest) = expectedDigest) .sourceCorruption
  let after ← fileSnapshot
  require (after = before) .sourceCorruption

/-- `OpenedMaterializationStaging`. -/
structure OpenedStaging where
  name : Bytes
  device : ℕ
  inode : ℕ
  deriving DecidableEq

/-- `MaterializationCopyOutcome`. -/
inductive CopyOutcome where
  | verified (staging : OpenedStaging) (digest : Digest) (length : UInt64)
  | stopped (staging : OpenedStaging)
  deriving DecidableEq

/-- `revalidate_staging`, in a directory on the device `parentDevice`. -/
def revalidateStaging (parentDevice : ℕ) (staging : OpenedStaging) (expectedLength : ℕ) :
    CopyProgram Unit := do
  ask .parent
  let security ← ask (.inspect expectedLength)
  let stat ← askIo .fstat
  require (security.1 = parentDevice ∧ stat.links = 1) .unsafeConfiguration
  require (security = (staging.device, staging.inode)) .unsafeConfiguration
  ask (.exactName staging.name)

/-- The loop of `copy_managed_blob_controlled`, with the bytes it has hashed;
nothing if it was stopped. -/
def copyLoop (digest : Digest) (bufferBytes length offset : ℕ) (hashed : Bytes) :
    CopyProgram (Option Bytes) :=
  if offset < length then do
    if ← shouldStop then return none
    else
      let bytes ← ask (.preadBlob digest (min (length - offset) bufferBytes) offset)
      if bytes = [] then throw .sourceCorruption
      else
        writeAllAt bytes offset
        if offset + bytes.length < 2 ^ 64 then
          copyLoop digest bufferBytes length (offset + bytes.length) (hashed ++ bytes)
        else throw .sourceCorruption
  else pure (some hashed)
termination_by length - offset
decreasing_by
  rename_i hbytes _
  have := List.length_pos_iff.2 hbytes
  omega

/-- What `copy_managed_blob_controlled` does once all bytes are copied. -/
def verifyCopy (parentDevice : ℕ) (staging : OpenedStaging) (expectedDigest : Digest)
    (expectedLength : UInt64) (bufferBytes : ℕ) (hashed : Bytes) : CopyProgram CopyOutcome := do
  let trailing ← ask (.preadBlob expectedDigest 1 expectedLength.toNat)
  require (trailing = [] ∧ (⟨sha256 hashed⟩ : Digest) = expectedDigest) .sourceCorruption
  ask (.revalidateBlob expectedDigest)
  ask .revalidateAuthority
  askIo .fullSync
  revalidateStaging parentDevice staging expectedLength.toNat
  verifyFileContent expectedDigest expectedLength bufferBytes
  ask .parent
  if ← shouldStop then return .stopped staging
  else return .verified staging expectedDigest expectedLength

/-- `copy_managed_blob_controlled`, for a binding with this digest and length. -/
def copyManagedBlobControlled (parentDevice : ℕ) (staging : OpenedStaging)
    (expectedDigest : Digest) (expectedLength : UInt64) (bufferBytes : ℕ) :
    CopyProgram CopyOutcome := do
  require (1048576 ≤ bufferBytes ∧ bufferBytes ≤ 33554432) .unsafeConfiguration
  revalidateStaging parentDevice staging 0
  if ← shouldStop then return .stopped staging
  else
    let declared ← ask (.openBlob expectedDigest expectedLength.toNat)
    require (declared = expectedLength.toNat) .sourceCorruption
    ask (.revalidateBlob expectedDigest)
    match ← copyLoop expectedDigest bufferBytes expectedLength.toNat 0 [] with
    | none => return .stopped staging
    | some hashed =>
      if ← shouldStop then return .stopped staging
      else verifyCopy parentDevice staging expectedDigest expectedLength bufferBytes hashed

/-! ## Files -/

/-- The staging file, and the canonical blobs under their digests. -/
structure Files where
  staging : Bytes
  canonical : Digest → Bytes

/-- What is chosen at a call: its failure, how much a read or a write
transfers, and what the other calls say. -/
structure Choice where
  error : Option DestinationError
  portion : ℕ
  stat : FileStat
  security : ℕ × ℕ
  declared : ℕ
  stop : Bool

/-- A file after a write at an offset. What lies between its end and the
offset becomes zeros; a write of nothing changes nothing. -/
def overwrite (content bytes : Bytes) (offset : ℕ) : Bytes :=
  if bytes = [] then content
  else (content ++ List.replicate offset 0).take offset ++ bytes ++
    content.drop (offset + bytes.length)

/-- The bytes a read returns: none at the end of the file only. -/
def Choice.read (choice : Choice) (content : Bytes) (length offset : ℕ) : Bytes :=
  (content.drop offset).take (min length (choice.portion + 1))

/-- **What the calls return.** -/
def Files.value (choice : Choice) (s : Files) : (op : FileCall) → op.Value
  | .inspect _ => choice.security
  | .fstat => { choice.stat with size := s.staging.length }
  | .pread length offset => choice.read s.staging length offset
  | .preadBlob digest length offset => choice.read (s.canonical digest) length offset
  | .pwrite bytes _ => (bytes.take choice.portion).length
  | .openBlob .. => choice.declared
  | .parent | .exactName _ | .fullSync | .revalidateBlob _ | .revalidateAuthority => ()

/-- The files after a call that did not fail: a write placed the bytes it
reports. -/
def Files.after (choice : Choice) (s : Files) : FileCall → Files
  | .pwrite bytes offset =>
    { s with staging := overwrite s.staging (bytes.take choice.portion) offset }
  | _ => s

/-- How the calls are answered where `view` says what is chosen. -/
def Files.handle {χ : Type} (view : χ → Choice) :
    (op : CopyCall) → χ → Files → op.Answer × Files
  | .file op, c, s =>
    match (view c).error with
    | some e => (.error e, s)
    | none => (.ok (s.value (view c) op), s.after (view c) op)
  | .shouldStop, c, s => ((view c).stop, s)

variable {χ : Type} {view : χ → Choice} {s : Files} {α : Type}

/-- Whatever is chosen, a result of the program and the files it leaves
satisfy `Q`. -/
abbrev Yields (view : χ → Choice) (Q : α → Files → Prop) (p : CopyProgram α) (s : Files) : Prop :=
  wpx (Files.handle view) (fun _ => True) Q (fun _ _ => True) p s

theorem wpx_file (op : FileCall) {f : DestinationError → DestinationError}
    {Q : op.Value → Files → Prop} {E : DestinationError → Files → Prop}
    (hQ : ∀ c, (view c).error = none → Q (s.value (view c) op) (s.after (view c) op))
    (hE : ∀ c e, (view c).error = some e → E (f e) s) :
    wpx (Files.handle view) (fun _ => True) Q E (askAs f op) s := by
  refine wpx_orFail.2 fun c => ⟨trivial, ?_⟩
  change ends Q (fun e => E (f e)) (Files.handle view (.file op) c s).1
    (Files.handle view (.file op) c s).2
  simp only [Files.handle]
  cases herror : (view c).error with
  | none => exact hQ c herror
  | some e => exact hE c e herror

theorem wpx_requires {p : Prop} [Decidable p] {e : DestinationError} {Q : Unit → Files → Prop}
    {E : DestinationError → Files → Prop} (hQ : p → Q () s) (hE : ¬ p → E e s) :
    wpx (Files.handle view) (fun _ => True) Q E (require p e) s :=
  wpx_require (fun h => hQ (of_decide_eq_true h)) fun h => hE (of_decide_eq_false h)

/-! ## The loops -/

theorem overwrite_overwrite (content a b : Bytes) (offset : ℕ) :
    overwrite (overwrite content a offset) b (offset + a.length) =
      overwrite content (a ++ b) offset := by
  by_cases ha : a = []
  · simp [ha, overwrite]
  by_cases hb : b = []
  · simp [hb, overwrite]
  have hlength : ((content ++ List.replicate offset 0).take offset ++ a).length =
      offset + a.length := by
    simp
  simp only [overwrite, ha, hb, if_false, List.append_eq_nil_iff, and_false]
  rw [List.append_assoc _ (content.drop _), ← hlength, List.take_left, List.drop_append,
    List.drop_drop]
  simp [Nat.add_assoc]

/-- **`write_all_at` places the bytes**, whatever the portions. -/
theorem yields_writeAllAt {bytes : Bytes} {offset : ℕ} {Q : Unit → Files → Prop}
    (hQ : Q () { s with staging := overwrite s.staging bytes offset }) :
    Yields view Q (writeAllAt bytes offset) s := by
  induction hlength : bytes.length using Nat.strong_induction_on generalizing bytes offset s with
  | _ n ih =>
    rw [writeAllAt]
    by_cases hbytes : bytes = []
    · rw [if_pos hbytes]
      simp only [overwrite, if_pos hbytes] at hQ
      exact hQ
    · rw [if_neg hbytes]
      refine wpx_bind.2 (wpx_file (.pwrite bytes offset) (fun c _ => ?_) fun _ _ _ => trivial)
      -- The loop goes on behind the part that was written.
      have hwhole := List.prefix_iff_eq_append.1 (List.take_prefix (view c).portion bytes)
      generalize hpart : bytes.take (view c).portion = part at hwhole
      have hvalue : Files.value (view c) s (.pwrite bytes offset) = part.length := by
        rw [← hpart, Files.value]
      rw [hvalue, Files.after, hpart]
      split_ifs with hwritten
      · trivial
      · refine ih _ ?_ ?_ rfl
        · have hparts := congrArg List.length hwhole
          rw [List.length_append] at hparts
          omega
        · rwa [overwrite_overwrite, hwhole]
      · trivial

/-- A read behind the bytes that were read before. -/
theorem Choice.read_append (choice : Choice) (hashed rest : Bytes) (length : ℕ) :
    choice.read (hashed ++ rest) length hashed.length =
      rest.take (min length (choice.portion + 1)) := by
  rw [Choice.read, List.drop_left]

/-- **The loop of `verify_file_content` returns the first bytes of the file.**
It fails where a call does and on a file that is too short. -/
theorem wpx_readLoop {short : DestinationError} {hashed rest : Bytes} {Q : Bytes → Files → Prop}
    {E : DestinationError → Files → Prop} (hfile : s.staging = hashed ++ rest)
    (hle : hashed.length ≤ length)
    (hQ : ∀ hashed rest, s.staging = hashed ++ rest → hashed.length = length → Q hashed s)
    (hE : ((∀ c, (view c).error = none) → 0 < bufferBytes → length < 2 ^ 64 →
      s.staging.length < length) → ∀ e, E e s) :
    wpx (Files.handle view) (fun _ => True) Q E
      (readLoop short bufferBytes length hashed.length hashed) s := by
  induction hleft : length - hashed.length using Nat.strong_induction_on
    generalizing hashed rest with
  | _ n ih =>
    rw [readLoop]
    split_ifs with hlt
    · refine wpx_bind.2 (wpx_file (.pread _ _) (fun c _ => ?_) fun c e he => ?_)
      · simp only [Files.value, hfile, Choice.read_append, ← List.length_append]
        split_ifs with hempty hfits
        · refine hE (fun _ hbuffer _ => ?_) _
          have hzero := congrArg List.length hempty
          rw [List.length_take, List.length_nil] at hzero
          rw [hfile, List.length_append]
          omega
        · have hpos := List.length_pos_iff.2 hempty
          rw [List.length_take] at hpos
          refine ih _ ?_ (by rw [List.append_assoc, List.take_append_drop, hfile]) ?_ rfl
          all_goals
            rw [List.length_append, List.length_take]
            omega
        · refine hE (fun _ _ hlength => ?_) _
          rw [List.length_append, List.length_take] at hfits
          omega
      · exact hE (fun hnone => by rw [hnone c] at he; cases he) _
    · exact hQ hashed rest hfile (by omega)

/-- The staging file has this length and this digest. -/
def Files.Holds (s : Files) (digest : Digest) (length : UInt64) : Prop :=
  s.staging.length = length.toNat ∧ (⟨sha256 s.staging⟩ : Digest) = digest

/-- No call fails, and what is said of the file stays. -/
def Reliable (view : χ → Choice) : Prop :=
  ∀ c, (view c).error = none ∧ 0 ≤ (view c).stat.device ∧ ∀ c', (view c).stat = (view c').stat

theorem wpx_fileSnapshot {Q : FileStat → Files → Prop} {E : DestinationError → Files → Prop}
    (hQ : ∀ c, Q { (view c).stat with size := s.staging.length } s)
    (hE : ¬ Reliable view → ∀ e, E e s) :
    wpx (Files.handle view) (fun _ => True) Q E fileSnapshot s := by
  refine wpx_bind.2 (wpx_file .fstat (fun c _ => ?_) fun c e he => hE (fun h => ?_) _)
  · exact wpx_bind.2 (wpx_requires (fun _ => hQ c) fun hdevice => hE (fun h => hdevice (h c).2.1) _)
  · rw [(h c).1] at he
    cases he

/-- **`verify_file_content` passes the expected file**, and fails on it only
where a call fails or the buffer has no admitted size. -/
theorem wpx_verifyFileContent {digest : Digest} {length : UInt64} {Q : Unit → Files → Prop}
    {E : DestinationError → Files → Prop} (hQ : s.Holds digest length → Q () s)
    (hE : ¬ (Reliable view ∧ (1048576 ≤ bufferBytes ∧ bufferBytes ≤ 33554432) ∧
      s.Holds digest length) → ∀ e, E e s) :
    wpx (Files.handle view) (fun _ => True) Q E (verifyFileContent digest length bufferBytes)
      s := by
  refine wpx_bind.2 (wpx_requires (fun hbuffer => ?_) fun hbuffer => hE (fun h => hbuffer h.2.1) _)
  refine wpx_bind.2 (wpx_fileSnapshot (fun c => ?_) fun hview => hE fun h => hview h.1)
  refine wpx_bind.2 (wpx_requires (fun hsize : s.staging.length = _ => ?_)
    fun hsize => hE (fun h => hsize h.2.2.1) _)
  refine wpx_bind.2 (wpx_readLoop (List.nil_append s.staging).symm (Nat.zero_le _)
    (fun hashed rest hfile hlength => ?_) fun hshort => hE fun h => ?_)
  · obtain rfl : rest = [] := by
      rw [hfile, List.length_append] at hsize
      exact List.length_eq_zero_iff.1 (by omega)
    rw [List.append_nil] at hfile
    refine wpx_bind.2 (wpx_file _ (fun c' _ => ?_) fun c' e he => hE (fun h => ?_) _)
    · refine wpx_bind.2 (wpx_requires (fun hhash => ?_) fun hhash => hE (fun h => ?_) _)
      · refine wpx_bind.2 (wpx_fileSnapshot (fun c'' => ?_) fun hview => hE fun h => hview h.1)
        refine wpx_requires (fun _ => hQ ⟨hsize, hfile ▸ hhash.2⟩) fun hafter => hE (fun h => ?_) _
        exact hafter (by rw [(h.1 c'').2.2 c]; rfl)
      · refine hhash ⟨?_, hfile ▸ h.2.2.2⟩
        simp [Files.value, Choice.read, hsize]
    · rw [(h.1 c').1] at he
      cases he
  · have := hshort (fun c => (h.1 c).1) (by omega) length.toNat_lt
    omega

theorem yields_revalidateStaging {parentDevice : ℕ} {staging : OpenedStaging}
    {Q : Unit → Files → Prop} (hQ : Q () s) :
    Yields view Q (revalidateStaging parentDevice staging length) s := by
  refine wpx_bind.2 (wpx_file .parent (fun _ _ => ?_) fun _ _ _ => trivial)
  refine wpx_bind.2 (wpx_file (.inspect length) (fun _ _ => ?_) fun _ _ _ => trivial)
  refine wpx_bind.2 (wpx_file .fstat (fun _ _ => ?_) fun _ _ _ => trivial)
  refine wpx_bind.2 (wpx_requires (fun _ => ?_) fun _ => trivial)
  refine wpx_bind.2 (wpx_requires (fun _ => ?_) fun _ => trivial)
  exact wpx_file (.exactName _) (fun _ _ => hQ) fun _ _ _ => trivial

theorem yields_shouldStop {Q : Bool → Files → Prop} (hQ : ∀ stop, Q stop s) :
    Yields view Q shouldStop s :=
  wpx_check.2 fun _ => ⟨trivial, hQ _⟩

/-- **The loop of the copy places what it has hashed**, the first bytes of the
canonical blob. -/
theorem yields_copyLoop {digest : Digest} {hashed rest content : Bytes} {canonical : Digest → Bytes}
    {Q : Option Bytes → Files → Prop} (hblob : canonical digest = hashed ++ rest)
    (hle : hashed.length ≤ length) (hstopped : ∀ s, Q none s)
    (hQ : ∀ hashed rest, canonical digest = hashed ++ rest → hashed.length = length →
      Q (some hashed) ⟨overwrite content hashed 0, canonical⟩) :
    Yields view Q (copyLoop digest bufferBytes length hashed.length hashed)
      ⟨overwrite content hashed 0, canonical⟩ := by
  induction hleft : length - hashed.length using Nat.strong_induction_on
    generalizing hashed rest with
  | _ n ih =>
    rw [copyLoop]
    split_ifs with hlt
    · refine wpx_bind.2 (yields_shouldStop fun stop => ?_)
      cases stop with
      | true => exact hstopped _
      | false =>
        refine wpx_bind.2 (wpx_file (.preadBlob ..) (fun c _ => ?_) fun _ _ _ => trivial)
        simp only [Files.value, Files.after, hblob, Choice.read_append, ← List.length_append]
        split
        · trivial
        · rename_i hempty
          refine wpx_bind.2 (yields_writeAllAt ?_)
          have hplaced := fun part => overwrite_overwrite content hashed part 0
          simp only [Nat.zero_add] at hplaced
          rw [hplaced]
          split_ifs
          · have hpos := List.length_pos_iff.2 hempty
            rw [List.length_take] at hpos
            refine ih _ ?_ (by rw [List.append_assoc, List.take_append_drop, hblob]) ?_ rfl
            all_goals
              rw [List.length_append, List.length_take]
              omega
          · trivial
    · exact hQ hashed rest hblob (by omega)

theorem overwrite_zero_eq {content bytes : Bytes}
    (h : (overwrite content bytes 0).length = bytes.length) :
    overwrite content bytes 0 = bytes := by
  unfold overwrite at h ⊢
  split_ifs at h ⊢ with hbytes
  · rw [hbytes]
    exact List.length_eq_zero_iff.1 (h.trans (by rw [hbytes]; rfl))
  · simpa [Nat.sub_eq_zero_iff_le] using h

/-- **A copy is verified only if it is the blob.** Whatever the portions of
the reads and writes and whenever the caller stops: a verified staging file
is the canonical blob, of the expected length and digest; `write_all_at`
that returns has placed its bytes and changed no others; and
`verify_file_content` passes the expected file alone, which it refuses where
a call fails or the size of the buffer is not admitted. -/
theorem verified_copy_is_blob (view : χ → Choice) (s : Files) :
    (∀ parentDevice staging digest length bufferBytes,
      Yields view (fun outcome s' => ∀ staging' digest' length',
          outcome = .verified staging' digest' length' →
            s'.Holds digest length ∧ s'.staging = s.canonical digest)
        (copyManagedBlobControlled parentDevice staging digest length bufferBytes) s) ∧
      (∀ bytes offset,
        Yields view (fun _ s' => s' = { s with staging := overwrite s.staging bytes offset })
          (writeAllAt bytes offset) s) ∧
      ∀ digest length bufferBytes,
        wpx (Files.handle view) (fun _ => True) (fun _ s' => s' = s ∧ s.Holds digest length)
          (fun _ s' => s' = s ∧ ¬ (Reliable view ∧
            (1048576 ≤ bufferBytes ∧ bufferBytes ≤ 33554432) ∧ s.Holds digest length))
          (verifyFileContent digest length bufferBytes) s := by
  refine ⟨fun parentDevice staging digest length bufferBytes => ?_,
    fun bytes offset => yields_writeAllAt rfl,
    fun digest length bufferBytes => wpx_verifyFileContent (fun h => ⟨rfl, h⟩) fun h _ => ⟨rfl, h⟩⟩
  refine wpx_bind.2 (wpx_requires (fun _ => ?_) fun _ => trivial)
  refine wpx_bind.2 (yields_revalidateStaging (wpx_bind.2 (yields_shouldStop fun stop => ?_)))
  cases stop with
  | true => exact fun _ _ _ h => by cases h
  | false =>
  refine wpx_bind.2 (wpx_file (.openBlob ..) (fun _ _ => ?_) fun _ _ _ => trivial)
  refine wpx_bind.2 (wpx_requires (fun _ => ?_) fun _ => trivial)
  refine wpx_bind.2 (wpx_file (.revalidateBlob _) (fun _ _ => ?_) fun _ _ _ => trivial)
  refine wpx_bind.2 (yields_copyLoop (List.nil_append (s.canonical digest)).symm (Nat.zero_le _)
    (fun _ _ _ _ h => by cases h) fun hashed rest hblob hlength => ?_)
  refine wpx_bind.2 (yields_shouldStop fun stop => ?_)
  cases stop with
  | true => exact fun _ _ _ h => by cases h
  | false =>
  refine wpx_bind.2 (wpx_file (.preadBlob ..) (fun c _ => ?_) fun _ _ _ => trivial)
  refine wpx_bind.2 (wpx_requires (fun htrailing => ?_) fun _ => trivial)
  refine wpx_bind.2 (wpx_file (.revalidateBlob _) (fun _ _ => ?_) fun _ _ _ => trivial)
  refine wpx_bind.2 (wpx_file .revalidateAuthority (fun _ _ => ?_) fun _ _ _ => trivial)
  refine wpx_bind.2 (wpx_file .fullSync (fun _ _ => ?_) fun _ _ _ => trivial)
  refine wpx_bind.2 (yields_revalidateStaging ?_)
  refine wpx_bind.2 (wpx_verifyFileContent (fun hholds => ?_) fun _ _ => trivial)
  refine wpx_bind.2 (wpx_file .parent (fun _ _ => ?_) fun _ _ _ => trivial)
  refine wpx_bind.2 (yields_shouldStop fun stop => ?_)
  cases stop with
  | true => exact fun _ _ _ h => by cases h
  | false =>
  -- The read behind the expected length returned nothing: the whole blob was copied.
  obtain rfl : rest = [] := by
    have hread : Choice.read (view c) (s.canonical digest) 1 length.toNat = [] := htrailing.1
    rw [hblob, ← hlength, Choice.read_append] at hread
    simpa using hread
  rw [List.append_nil] at hblob
  refine fun _ _ _ _ => ⟨hholds, ?_⟩
  rw [hblob]
  exact overwrite_zero_eq (hholds.1.trans hlength.symm)

/-- Two bytes are read and one is written at a time. -/
def shortTransfers : Choice where
  error := none
  portion := 1
  stat := ⟨7, 8, 0, 1, 0, 0⟩
  security := (7, 8)
  declared := 3
  stop := false

/-- A blob of three bytes is copied by short reads and writes, and verified. -/
theorem short_copy_verified :
    let copied := runWith (Files.handle fun _ : Unit => shortTransfers) ()
      (copyManagedBlobControlled 7 ⟨[], 7, 8⟩ ⟨sha256 [1, 2, 3]⟩ 3 1048576).run
      ⟨[], fun _ => [1, 2, 3]⟩
    copied.1 = .ok (.verified ⟨[], 7, 8⟩ ⟨sha256 [1, 2, 3]⟩ 3) ∧ copied.2.staging = [1, 2, 3] := by
  intro copied
  have hrun : copied.1 = .ok (.verified ⟨[], 7, 8⟩ ⟨sha256 [1, 2, 3]⟩ 3) := by decide +kernel
  have hcopy := wp_runWith ((verified_copy_is_blob (fun _ : Unit => shortTransfers)
    ⟨[], fun _ => [1, 2, 3]⟩).1 7 ⟨[], 7, 8⟩ ⟨sha256 [1, 2, 3]⟩ 3 1048576) ()
  change ends _ _ copied.1 copied.2 at hcopy
  rw [hrun] at hcopy
  exact ⟨hrun, (hcopy _ _ _ rfl).2⟩

/-- A file of the expected length and digest that is not passed: a buffer of
no bytes is refused before the file is read. -/
theorem empty_buffer_is_refused : (⟨[], fun _ => []⟩ : Files).Holds ⟨sha256 []⟩ 0 ∧
    (verifyFileContent ⟨sha256 []⟩ 0 0).run = .done (.error .unsafeConfiguration) :=
  ⟨⟨rfl, rfl⟩, rfl⟩

end MengXia.Platform
