import MengXia.Common.Streams
import MengXia.Types
/-!
# The write-ahead log of a staged library

Before a staged library is opened its write-ahead log is read: a header, then
frames of one page each, all under one running checksum. The log says that
the bootstrap transaction was committed once a frame has a commit size. The
file is read in portions; what the log says does not depend on them.
-/

namespace MengXia

open Common Common.Program

/-- `BootstrapWalEvidence`. -/
inductive BootstrapWalEvidence where
  | absentOrUncommitted
  | committed
  | corruptBeforeCommit
  deriving DecidableEq

/-- The one of the `AuthorityError`s that a read of the log gives. -/
inductive AuthorityError where
  | io
  deriving DecidableEq

/-- `ChecksumEndian`. -/
inductive ChecksumEndian where
  | little
  | big
  deriving DecidableEq

/-- `be_u32`. -/
def beU32 (bytes : Bytes) : UInt32 :=
  UInt32.ofNat (ofBeBytes bytes)

/-- `checksum_u32`. -/
def checksumU32 : ChecksumEndian → Bytes → UInt32
  | .little, bytes => UInt32.ofNat (ofBeBytes bytes.reverse)
  | .big, bytes => UInt32.ofNat (ofBeBytes bytes)

/-- The two running sums. -/
abbrev WalChecksum : Type :=
  UInt32 × UInt32

/-- `checksum_bytes`: eight bytes at a time, and what is left over is not
looked at. -/
def checksumBytes (endian : ChecksumEndian) : Bytes → WalChecksum → WalChecksum
  | b0 :: b1 :: b2 :: b3 :: b4 :: b5 :: b6 :: b7 :: rest, sum =>
    let first := sum.1 + checksumU32 endian [b0, b1, b2, b3] + sum.2
    let second := sum.2 + checksumU32 endian [b4, b5, b6, b7] + first
    checksumBytes endian rest (first, second)
  | _, sum => sum

/-- `ReadResult`, with the bytes that were read. -/
inductive ReadResult where
  | complete (bytes : Bytes)
  | cleanEof
  | partialRead
  deriving DecidableEq

/-- `read_exact_or_eof`. -/
def readExactOrEof (length : ℕ) :
    ExceptT AuthorityError (Program StreamCall StreamCall.Answer) ReadResult :=
  check (fun
    | .complete bytes => .ok (.complete bytes)
    | .ended [] => .ok .cleanEof
    | .ended (_ :: _) => .ok .partialRead
    | .failed => .error .io) (fill length)

/-- What the header of a log says about its frames. -/
structure WalSettings where
  endian : ChecksumEndian
  pageSize : ℕ
  salt : UInt32 × UInt32
  checksum : WalChecksum
  deriving DecidableEq

/-- The match on the magic number. -/
def checksumEndian (magic : UInt32) : Option ChecksumEndian :=
  if magic = 0x377f0682 then some .little
  else if magic = 0x377f0683 then some .big
  else none

/-- The checks `inspect_wal` makes of the header. -/
def readHeader (header : Bytes) : Option WalSettings :=
  match checksumEndian (beU32 (slice header 0 4)) with
  | none => none
  | some endian =>
    let pageSize := (beU32 (slice header 8 12)).toNat
    let checksum := checksumBytes endian (header.take 24) (0, 0)
    if beU32 (slice header 4 8) ≠ 3007000 then none
    else if ¬(512 ≤ pageSize ∧ pageSize ≤ 65536) ∨ pageSize ≠ 2 ^ pageSize.log2 then none
    else if checksum ≠ (beU32 (slice header 24 28), beU32 (slice header 28 32)) then none
    else some ⟨endian, pageSize, (beU32 (slice header 16 20), beU32 (slice header 20 24)), checksum⟩

/-- The number of bytes of a frame. -/
def WalSettings.frameLength (wal : WalSettings) : ℕ :=
  24 + wal.pageSize

/-- `page_number`. -/
def pageNumber (frame : Bytes) : UInt32 :=
  beU32 (slice frame 0 4)

/-- The size of the database that a frame commits, or zero. -/
def commitSize (frame : Bytes) : UInt32 :=
  beU32 (slice frame 4 8)

/-- `frame_salt`. -/
def frameSalt (frame : Bytes) : UInt32 × UInt32 :=
  (beU32 (slice frame 8 12), beU32 (slice frame 12 16))

/-- `stored_checksum`. -/
def storedChecksum (frame : Bytes) : WalChecksum :=
  (beU32 (slice frame 16 20), beU32 (slice frame 20 24))

/-- `next_checksum`. -/
def nextChecksum (wal : WalSettings) (sum : WalChecksum) (frame : Bytes) : WalChecksum :=
  checksumBytes wal.endian (frame.drop 24) (checksumBytes wal.endian (frame.take 8) sum)

/-- The condition under which the loop stops at a frame. -/
def frameRefused (wal : WalSettings) (sum : WalChecksum) (frame : Bytes) : Bool :=
  frameSalt frame != wal.salt || pageNumber frame == 0 ||
    nextChecksum wal sum frame != storedChecksum frame

/-- An inspection of a log. -/
abbrev Inspected : Type :=
  ExceptT AuthorityError (Program StreamCall StreamCall.Answer) BootstrapWalEvidence

/-- What `inspect_wal` makes of its reads, of the header and of each frame. -/
def readBlock (length : ℕ) (next : Bytes → Inspected) : Inspected := do
  match ← readExactOrEof length with
  | .cleanEof => pure .absentOrUncommitted
  | .partialRead => pure .corruptBeforeCommit
  | .complete block => next block

/-- The loop of `inspect_wal`, for so many frames more. -/
def inspectFrames (wal : WalSettings) : ℕ → WalChecksum → Inspected
  | 0, _ => pure .corruptBeforeCommit
  | turns + 1, sum => readBlock wal.frameLength fun frame =>
    if frameRefused wal sum frame then pure .corruptBeforeCommit
    else if commitSize frame ≠ 0 then pure .committed
    else inspectFrames wal turns (nextChecksum wal sum frame)

/-- `inspect_wal`. -/
def inspectWal : Inspected :=
  readBlock 32 fun header =>
    match readHeader header with
    | none => pure .corruptBeforeCommit
    | some wal => inspectFrames wal 1024 wal.checksum

/-! ## What a log is -/

/-- A header that is valid and says `wal`. -/
structure HeaderOk (header : Bytes) (wal : WalSettings) : Prop where
  length : header.length = 32
  magic : beU32 (slice header 0 4) = if wal.endian = .little then 0x377f0682 else 0x377f0683
  version : beU32 (slice header 4 8) = 3007000
  pageSize : (beU32 (slice header 8 12)).toNat = wal.pageSize
  bounds : 512 ≤ wal.pageSize ∧ wal.pageSize ≤ 65536
  power : ∃ exponent, wal.pageSize = 2 ^ exponent
  salt : (beU32 (slice header 16 20), beU32 (slice header 20 24)) = wal.salt
  checksum : checksumBytes wal.endian (header.take 24) (0, 0) = wal.checksum
  stored : (beU32 (slice header 24 28), beU32 (slice header 28 32)) = wal.checksum

/-- A frame with the log's salt and the sums that follow from `sum`. -/
structure FrameSealed (wal : WalSettings) (sum : WalChecksum) (frame : Bytes) : Prop where
  length : frame.length = wal.frameLength
  salt : frameSalt frame = wal.salt
  checksum : nextChecksum wal sum frame = storedChecksum frame

/-- A valid frame: it is sealed, and its page has a number. -/
structure FrameOk (wal : WalSettings) (sum : WalChecksum) (frame : Bytes) : Prop extends
    FrameSealed wal sum frame where
  page : pageNumber frame ≠ 0

/-- Valid frames one after the other, under one running checksum. -/
def ChainOk (wal : WalSettings) : WalChecksum → List Bytes → Prop
  | _, [] => True
  | sum, frame :: frames =>
    FrameOk wal sum frame ∧ ChainOk wal (nextChecksum wal sum frame) frames

/-- Frames up to the first that commits, the last of at most so many. -/
structure CommitsAt (wal : WalSettings) (turns : ℕ) (sum : WalChecksum) (frames : List Bytes)
    (last : Bytes) : Prop where
  chain : ChainOk wal sum (frames ++ [last])
  before : ∀ frame ∈ frames, commitSize frame = 0
  commits : commitSize last ≠ 0
  soon : frames.length < turns

/-- Fewer than so many valid frames, none of which commits. -/
structure Uncommitted (wal : WalSettings) (turns : ℕ) (sum : WalChecksum) (frames : List Bytes) :
    Prop where
  chain : ChainOk wal sum frames
  plain : ∀ frame ∈ frames, commitSize frame = 0
  few : frames.length < turns

/-! ## The header -/

theorem checksumEndian_eq_some {magic : UInt32} {endian : ChecksumEndian} :
    checksumEndian magic = some endian ↔
      magic = if endian = .little then 0x377f0682 else 0x377f0683 := by
  unfold checksumEndian
  cases endian with
  | little =>
    split
    · rename_i h
      simp [h]
    · rename_i h
      simp [h]
  | big =>
    split
    · rename_i h
      rw [h]
      decide
    · simp

theorem eq_two_pow_log2_iff {n : ℕ} : n = 2 ^ n.log2 ↔ ∃ exponent, n = 2 ^ exponent := by
  constructor
  · intro h
    exact ⟨n.log2, h⟩
  · rintro ⟨exponent, rfl⟩
    rw [Nat.log2_two_pow]

/-- **The checks of the header.** -/
theorem readHeader_eq_some {header : Bytes} {wal : WalSettings} (hlength : header.length = 32) :
    readHeader header = some wal ↔ HeaderOk header wal := by
  unfold readHeader
  constructor
  · intro h
    split at h
    · cases h
    rename_i endian hendian
    simp only [Option.ite_none_left_eq_some, not_or, not_not, Option.some.injEq] at h
    obtain ⟨hversion, hsize, hsum, rfl⟩ := h
    exact ⟨hlength, checksumEndian_eq_some.1 hendian, hversion, rfl, hsize.1,
      eq_two_pow_log2_iff.1 hsize.2, rfl, rfl, hsum.symm⟩
  · intro h
    have hpower := eq_two_pow_log2_iff.2 h.power
    rw [checksumEndian_eq_some.2 h.magic]
    simp only
    rw [h.pageSize, h.checksum, h.stored, h.salt, if_neg (not_not.2 h.version), if_neg, if_neg]
    · exact fun hne => hne rfl
    · rintro (hbounds | hne)
      · exact hbounds h.bounds
      · exact hne hpower

/-! ## What the loop makes of the bytes -/

/-- What too few bytes for a block amount to, on a file that may fail behind
them. -/
def endVerdict (faulty : Bool) (bytes : Bytes) : Except AuthorityError BootstrapWalEvidence :=
  if faulty then .error .io
  else if bytes = [] then .ok .absentOrUncommitted
  else .ok .corruptBeforeCommit

/-- What the frames in some bytes amount to. -/
def framesVerdict (wal : WalSettings) (faulty : Bool) :
    ℕ → WalChecksum → Bytes → Except AuthorityError BootstrapWalEvidence
  | 0, _, _ => .ok .corruptBeforeCommit
  | turns + 1, sum, bytes =>
    if wal.frameLength ≤ bytes.length then
      if frameRefused wal sum (bytes.take wal.frameLength) then .ok .corruptBeforeCommit
      else if commitSize (bytes.take wal.frameLength) ≠ 0 then .ok .committed
      else framesVerdict wal faulty turns (nextChecksum wal sum (bytes.take wal.frameLength))
        (bytes.drop wal.frameLength)
    else endVerdict faulty bytes

/-- What a log amounts to. -/
def walVerdict (faulty : Bool) (bytes : Bytes) : Except AuthorityError BootstrapWalEvidence :=
  if 32 ≤ bytes.length then
    match readHeader (bytes.take 32) with
    | none => .ok .corruptBeforeCommit
    | some wal => framesVerdict wal faulty 1024 wal.checksum (bytes.drop 32)
  else endVerdict faulty bytes

section Reads

variable {χ : Type} {view : χ → StreamChoice} {I : ByteStream → Prop} {s : ByteStream}

theorem wpx_readExactOrEof {Q : ReadResult → ByteStream → Prop}
    {E : AuthorityError → ByteStream → Prop} {length : ℕ} (hI : ∀ incoming, I { s with incoming })
    (hcomplete : length ≤ s.incoming.length → Q (.complete (s.incoming.take length))
      { s with incoming := s.incoming.drop length })
    (hfailed : s.incoming.length < length → s.faulty = true → E .io { s with incoming := [] })
    (hended : s.incoming.length < length → s.faulty = false →
      Q (if s.incoming = [] then .cleanEof else .partialRead) { s with incoming := [] }) :
    wpx (ByteStream.handle view) I Q E (readExactOrEof length) s := by
  refine wpx_check.2 (wp_fill hI ?_)
  by_cases hle : length ≤ s.incoming.length
  · rw [ByteStream.filled, if_pos hle]
    exact hcomplete hle
  · have hlt : s.incoming.length < length := Nat.lt_of_not_le hle
    rw [ByteStream.filled, if_neg hle]
    cases hfaulty : s.faulty with
    | true =>
      have hfail := hfailed hlt hfaulty
      rw [hfaulty] at hfail
      exact hfail
    | false =>
      have hend := hended hlt hfaulty
      rw [hfaulty] at hend
      cases hincoming : s.incoming with
      | nil | cons byte bytes =>
        rw [hincoming] at hend
        exact hend

/-- **One read under any chunking.** -/
theorem wp_readBlock {length : ℕ} {next : Bytes → Inspected}
    {verdict : Except AuthorityError BootstrapWalEvidence}
    (hnext : wp (ByteStream.handle view) (fun _ => True) (fun result _ => result = verdict)
      (next (s.incoming.take length)).run { s with incoming := s.incoming.drop length }) :
    wp (ByteStream.handle view) (fun _ => True)
      (fun result _ => result =
        if length ≤ s.incoming.length then verdict else endVerdict s.faulty s.incoming)
      (readBlock length next).run s := by
  refine wp_run (wpx_bind.2 (wpx_readExactOrEof (fun _ => trivial) (fun hle => ?_)
    (fun hlt hfaulty => ?_) fun hlt hfaulty => ?_))
  · rw [if_pos hle]
    refine wp_mono hnext fun result t hresult => ?_
    cases result with
    | ok evidence => exact hresult
    | error e => exact hresult
  · rw [if_neg (Nat.not_le.2 hlt), endVerdict, if_pos hfaulty]
  · rw [if_neg (Nat.not_le.2 hlt), endVerdict,
      if_neg (by rw [hfaulty]; exact Bool.noConfusion)]
    by_cases hempty : s.incoming = []
    · rw [if_pos hempty, if_pos hempty]
      rfl
    · rw [if_neg hempty, if_neg hempty]
      rfl

/-- **The loop under any chunking.** -/
theorem wp_inspectFrames {wal : WalSettings} {turns : ℕ} {sum : WalChecksum} :
    wp (ByteStream.handle view) (fun _ => True)
      (fun result _ => result = framesVerdict wal s.faulty turns sum s.incoming)
      (inspectFrames wal turns sum).run s := by
  induction turns generalizing s sum with
  | zero => exact rfl
  | succ turns ih =>
    simp only [framesVerdict, inspectFrames]
    refine wp_readBlock ?_
    split
    · rfl
    · split
      · rfl
      · exact ih (s := { s with incoming := s.incoming.drop wal.frameLength })

/-- **The whole inspection under any chunking.** -/
theorem wp_inspectWal :
    wp (ByteStream.handle view) (fun _ => True)
      (fun result _ => result = walVerdict s.faulty s.incoming) inspectWal.run s := by
  refine wp_readBlock ?_
  cases readHeader (s.incoming.take 32) with
  | none => rfl
  | some wal => exact wp_inspectFrames (s := { s with incoming := s.incoming.drop 32 })

end Reads

/-! ## Frames in bytes -/

section Frames

variable {wal : WalSettings} {faulty : Bool} {turns : ℕ} {sum : WalChecksum}

theorem frameRefused_eq_false_iff {frame : Bytes} (hlength : frame.length = wal.frameLength) :
    frameRefused wal sum frame = false ↔ FrameOk wal sum frame := by
  unfold frameRefused
  rw [Bool.or_eq_false_iff, Bool.or_eq_false_iff, bne_eq_false_iff_eq, beq_eq_false_iff_ne,
    bne_eq_false_iff_eq]
  constructor
  · rintro ⟨⟨hsalt, hpage⟩, hsum⟩
    exact ⟨⟨hlength, hsalt, hsum⟩, hpage⟩
  · intro h
    exact ⟨⟨h.salt, h.page⟩, h.checksum⟩

/-- One turn of the loop, at a whole frame. -/
theorem framesVerdict_append {frame rest : Bytes} (hlength : frame.length = wal.frameLength) :
    framesVerdict wal faulty (turns + 1) sum (frame ++ rest) =
      if frameRefused wal sum frame then .ok .corruptBeforeCommit
      else if commitSize frame ≠ 0 then .ok .committed
      else framesVerdict wal faulty turns (nextChecksum wal sum frame) rest := by
  rw [framesVerdict, ← hlength, List.take_left, List.drop_left, if_pos (by simp)]

/-- The last turn of the loop, at the end of the bytes. -/
theorem framesVerdict_short {bytes : Bytes} (hlength : bytes.length < wal.frameLength) :
    framesVerdict wal faulty (turns + 1) sum bytes = endVerdict faulty bytes := by
  rw [framesVerdict, if_neg (Nat.not_le.2 hlength)]

theorem endVerdict_ok (bytes : Bytes) : ∃ evidence, endVerdict false bytes = .ok evidence := by
  rw [endVerdict, if_neg Bool.false_ne_true]
  split
  · exact ⟨_, rfl⟩
  · exact ⟨_, rfl⟩

/-- Bytes begin with a whole frame, or are too few for one. -/
theorem frame_or_short (wal : WalSettings) (bytes : Bytes) :
    bytes.length < wal.frameLength ∨
      ∃ frame rest, bytes = frame ++ rest ∧ frame.length = wal.frameLength := by
  rcases Nat.lt_or_ge bytes.length wal.frameLength with hlt | hge
  · exact Or.inl hlt
  · refine Or.inr ⟨bytes.take wal.frameLength, bytes.drop wal.frameLength, ?_, ?_⟩
    · exact (List.take_append_drop _ _).symm
    · exact List.length_take_of_le hge

theorem frameLength_pos (wal : WalSettings) : 0 < wal.frameLength := by
  unfold WalSettings.frameLength
  omega

/-- Valid frames that do not commit are passed over. -/
theorem framesVerdict_flatten {frames : List Bytes} {rest : Bytes} (hchain : ChainOk wal sum frames)
    (hplain : ∀ frame ∈ frames, commitSize frame = 0) :
    ∃ sum', (∀ last, ChainOk wal sum (frames ++ [last]) → FrameOk wal sum' last) ∧
      framesVerdict wal faulty (frames.length + turns) sum (frames.flatten ++ rest) =
        framesVerdict wal faulty turns sum' rest := by
  induction frames generalizing sum with
  | nil => exact ⟨sum, fun last h => h.1, by simp⟩
  | cons frame frames ih =>
    obtain ⟨hok, hchain⟩ := hchain
    obtain ⟨hcommit, hplain⟩ := List.forall_mem_cons.1 hplain
    obtain ⟨sum', hlast, hverdict⟩ := ih hchain hplain
    refine ⟨sum', fun last h => hlast last h.2, ?_⟩
    rw [List.length_cons, Nat.add_right_comm, List.flatten_cons, List.append_assoc,
      framesVerdict_append hok.length, (frameRefused_eq_false_iff hok.length).2 hok,
      if_neg Bool.false_ne_true, if_neg (not_not.2 hcommit), hverdict]

theorem ChainOk.of_append {frames frames' : List Bytes} (h : ChainOk wal sum (frames ++ frames')) :
    ChainOk wal sum frames := by
  induction frames generalizing sum with
  | nil => trivial
  | cons frame frames ih => exact ⟨h.1, ih h.2⟩

/-- **What the loop says holds of the frames**: a commit it has found is the
first of a valid chain, and where it finds nothing wrong there is nothing but
such a chain. -/
theorem exists_of_framesVerdict {bytes : Bytes} :
    (framesVerdict wal faulty turns sum bytes = .ok .committed →
      ∃ frames last rest, bytes = frames.flatten ++ (last ++ rest) ∧
        CommitsAt wal turns sum frames last) ∧
    (framesVerdict wal faulty turns sum bytes = .ok .absentOrUncommitted →
      ∃ frames, bytes = frames.flatten ∧ Uncommitted wal turns sum frames) := by
  induction turns generalizing sum bytes with
  | zero => exact ⟨fun h => (by cases h), fun h => (by cases h)⟩
  | succ turns ih =>
    rcases frame_or_short wal bytes with hshort | ⟨frame, rest, rfl, hlength⟩
    · rw [framesVerdict_short hshort, endVerdict]
      cases faulty with
      | true => exact ⟨fun h => (by cases h), fun h => (by cases h)⟩
      | false =>
        by_cases hempty : bytes = []
        · exact ⟨fun h => (by rw [if_pos hempty] at h; cases h), fun _ =>
            ⟨[], hempty, trivial, fun _ h => absurd h List.not_mem_nil, Nat.succ_pos _⟩⟩
        · rw [if_neg hempty]
          exact ⟨fun h => (by cases h), fun h => (by cases h)⟩
    · rw [framesVerdict_append hlength]
      by_cases hrefused : frameRefused wal sum frame = true
      · rw [if_pos hrefused]
        exact ⟨fun h => (by cases h), fun h => (by cases h)⟩
      have hok := (frameRefused_eq_false_iff hlength).1 (Bool.not_eq_true _ ▸ hrefused)
      rw [if_neg hrefused]
      by_cases hcommit : commitSize frame = 0
      · rw [if_neg (not_not.2 hcommit)]
        refine ⟨fun h => ?_, fun h => ?_⟩
        · obtain ⟨frames, last, rest', rfl, hcommits⟩ := ih.1 h
          exact ⟨frame :: frames, last, rest', by simp, ⟨hok, hcommits.chain⟩,
            List.forall_mem_cons.2 ⟨hcommit, hcommits.before⟩, hcommits.commits,
            Nat.succ_lt_succ hcommits.soon⟩
        · obtain ⟨frames, rfl, huncommitted⟩ := ih.2 h
          exact ⟨frame :: frames, List.flatten_cons.symm, ⟨hok, huncommitted.chain⟩,
            List.forall_mem_cons.2 ⟨hcommit, huncommitted.plain⟩,
            Nat.succ_lt_succ huncommitted.few⟩
      · rw [if_pos hcommit]
        exact ⟨fun _ => ⟨[], frame, rest, rfl, ⟨hok, trivial⟩,
          fun _ h => absurd h List.not_mem_nil, hcommit, Nat.succ_pos _⟩, fun h => (by cases h)⟩

/-- The turns that are left after some frames. -/
theorem exists_turns {n : ℕ} (h : n < turns) : ∃ left, turns = n + (left + 1) :=
  ⟨turns - n - 1, by omega⟩

/-- **The loop finds a commit** exactly at the end of valid frames of which
the last is the first that commits. -/
theorem framesVerdict_eq_committed {bytes : Bytes} :
    framesVerdict wal faulty turns sum bytes = .ok .committed ↔
      ∃ frames last rest, bytes = frames.flatten ++ (last ++ rest) ∧
        CommitsAt wal turns sum frames last := by
  refine ⟨exists_of_framesVerdict.1, ?_⟩
  rintro ⟨frames, last, rest, rfl, hcommits⟩
  obtain ⟨left, rfl⟩ := exists_turns hcommits.soon
  obtain ⟨sum', hlast, hverdict⟩ := framesVerdict_flatten hcommits.chain.of_append hcommits.before
  have hok := hlast last hcommits.chain
  rw [hverdict, framesVerdict_append hok.length, (frameRefused_eq_false_iff hok.length).2 hok,
    if_neg Bool.false_ne_true, if_pos hcommits.commits]

/-- **The loop finds nothing wrong and no commit** exactly in fewer valid
frames than it has turns. -/
theorem framesVerdict_eq_uncommitted {bytes : Bytes} :
    framesVerdict wal false turns sum bytes = .ok .absentOrUncommitted ↔
      ∃ frames, bytes = frames.flatten ∧ Uncommitted wal turns sum frames := by
  refine ⟨exists_of_framesVerdict.2, ?_⟩
  rintro ⟨frames, rfl, huncommitted⟩
  obtain ⟨left, rfl⟩ := exists_turns huncommitted.few
  obtain ⟨sum', -, hverdict⟩ := framesVerdict_flatten huncommitted.chain huncommitted.plain
  have hend : ([] : Bytes).length < wal.frameLength := frameLength_pos wal
  rw [← List.append_nil frames.flatten, hverdict, framesVerdict_short hend]
  rfl

/-- A file that does not fail is read to some evidence. -/
theorem framesVerdict_ok {bytes : Bytes} :
    ∃ evidence, framesVerdict wal false turns sum bytes = .ok evidence := by
  induction turns generalizing sum bytes with
  | zero => exact ⟨_, rfl⟩
  | succ turns ih =>
    rcases frame_or_short wal bytes with hshort | ⟨frame, rest, rfl, hlength⟩
    · rw [framesVerdict_short hshort]
      exact endVerdict_ok bytes
    · rw [framesVerdict_append hlength]
      split
      · exact ⟨_, rfl⟩
      · split
        · exact ⟨_, rfl⟩
        · exact ih

end Frames

/-! ## Logs -/

/-- A log that commits: a valid header, then valid frames up to the first that
commits, which is one of the first 1024. -/
def CommittedLog (log : Bytes) : Prop :=
  ∃ header wal frames last, log = header ++ (frames.flatten ++ last) ∧ HeaderOk header wal ∧
    CommitsAt wal 1024 wal.checksum frames last

/-- A log that does not commit: nothing, or a valid header and at most 1023
valid frames that do not commit. -/
def UncommittedLog (log : Bytes) : Prop :=
  log = [] ∨ ∃ header wal frames, log = header ++ frames.flatten ∧ HeaderOk header wal ∧
    Uncommitted wal 1024 wal.checksum frames

theorem walVerdict_append {faulty : Bool} {header rest : Bytes} {wal : WalSettings}
    (h : HeaderOk header wal) :
    walVerdict faulty (header ++ rest) = framesVerdict wal faulty 1024 wal.checksum rest := by
  have htake : (header ++ rest).take 32 = header := by rw [← h.length, List.take_left]
  have hdrop : (header ++ rest).drop 32 = rest := by rw [← h.length, List.drop_left]
  rw [walVerdict, if_pos (by rw [List.length_append, h.length]; omega), htake, hdrop,
    (readHeader_eq_some h.length).2 h]

/-- What there is to say of bytes without a valid header. -/
theorem walVerdict_cases (bytes : Bytes) :
    (∃ header wal rest, bytes = header ++ rest ∧ HeaderOk header wal) ∨
      bytes = [] ∨
      (∀ header wal rest, HeaderOk header wal → bytes ≠ header ++ rest) ∧ bytes ≠ [] ∧
        ∀ evidence, ∀ faulty, walVerdict faulty bytes = .ok evidence →
          evidence = .corruptBeforeCommit := by
  rcases Nat.lt_or_ge bytes.length 32 with hshort | hlong
  · by_cases hempty : bytes = []
    · exact Or.inr (Or.inl hempty)
    · refine Or.inr (Or.inr ⟨fun header wal rest hheader hbytes => ?_, hempty, ?_⟩)
      · rw [hbytes, List.length_append, hheader.length] at hshort
        omega
      · intro evidence faulty h
        rw [walVerdict, if_neg (Nat.not_le.2 hshort), endVerdict, if_neg hempty] at h
        split at h
        · cases h
        · exact (Except.ok.inj h).symm
  · have hlength : (bytes.take 32).length = 32 := List.length_take_of_le hlong
    cases hheader : readHeader (bytes.take 32) with
    | some wal =>
      exact Or.inl ⟨bytes.take 32, wal, bytes.drop 32, (List.take_append_drop _ _).symm,
        (readHeader_eq_some hlength).1 hheader⟩
    | none =>
      refine Or.inr (Or.inr ⟨fun header wal rest hok hbytes => ?_, ?_, ?_⟩)
      · rw [hbytes, ← hok.length, List.take_left, (readHeader_eq_some hok.length).2 hok] at hheader
        cases hheader
      · rintro rfl
        exact absurd hlong (by decide)
      · intro evidence faulty h
        rw [walVerdict, if_pos hlong, hheader] at h
        exact (Except.ok.inj h).symm

/-- **A commit is found** exactly in bytes that begin with a log that commits. -/
theorem walVerdict_eq_committed {faulty : Bool} {bytes : Bytes} :
    walVerdict faulty bytes = .ok .committed ↔
      ∃ log rest, bytes = log ++ rest ∧ CommittedLog log := by
  constructor
  · intro h
    rcases walVerdict_cases bytes with ⟨header, wal, body, rfl, hheader⟩ | rfl | ⟨-, -, hcorrupt⟩
    · rw [walVerdict_append hheader] at h
      obtain ⟨frames, last, rest, rfl, hcommits⟩ := framesVerdict_eq_committed.1 h
      refine ⟨header ++ (frames.flatten ++ last), rest, ?_, header, wal, frames, last, rfl, hheader,
        hcommits⟩
      simp only [List.append_assoc]
    · cases faulty with
      | true => cases h
      | false => cases h
    · have hevidence := hcorrupt _ faulty h
      cases hevidence
  · rintro ⟨log, rest, rfl, header, wal, frames, last, rfl, hheader, hcommits⟩
    rw [List.append_assoc, walVerdict_append hheader]
    refine framesVerdict_eq_committed.2 ⟨frames, last, rest, ?_, hcommits⟩
    rw [List.append_assoc]

/-- **No commit and nothing wrong** is found exactly in a log that does not
commit. -/
theorem walVerdict_eq_uncommitted {bytes : Bytes} :
    walVerdict false bytes = .ok .absentOrUncommitted ↔ UncommittedLog bytes := by
  constructor
  · intro h
    rcases walVerdict_cases bytes with ⟨header, wal, body, rfl, hheader⟩ | rfl | ⟨-, -, hcorrupt⟩
    · rw [walVerdict_append hheader] at h
      obtain ⟨frames, rfl, huncommitted⟩ := framesVerdict_eq_uncommitted.1 h
      exact Or.inr ⟨header, wal, frames, rfl, hheader, huncommitted⟩
    · exact Or.inl rfl
    · have hevidence := hcorrupt _ false h
      cases hevidence
  · rintro (rfl | ⟨header, wal, frames, rfl, hheader, huncommitted⟩)
    · rfl
    · rw [walVerdict_append hheader]
      exact framesVerdict_eq_uncommitted.2 ⟨frames, rfl, huncommitted⟩

theorem walVerdict_ok (bytes : Bytes) : ∃ evidence, walVerdict false bytes = .ok evidence := by
  unfold walVerdict
  split
  · split
    · exact ⟨_, rfl⟩
    · exact framesVerdict_ok
  · exact endVerdict_ok bytes

theorem wp_inspectWal_eq {faulty : Bool} {bytes : Bytes}
    {verdict : Except AuthorityError BootstrapWalEvidence}
    (h : walVerdict faulty bytes = verdict) :
    wp (ByteStream.handle ByteStream.steady) (fun _ => True)
      (fun result _ => result = verdict) inspectWal.run ⟨bytes, faulty, []⟩ := by
  rw [← h]
  exact wp_inspectWal (s := ⟨bytes, faulty, []⟩)

/-- **The inspection classifies every log**, whatever the portions of the
reads: a commit where the bytes begin with a log that commits, no commit where
they are a log that does not, corruption otherwise; and what comes behind the
first frame that commits, be it a failure of the file, makes no difference. -/
theorem inspectWal_classifies (bytes : Bytes) :
    (∃ evidence, wp (ByteStream.handle ByteStream.steady) (fun _ => True)
        (fun result _ => result = .ok evidence) inspectWal.run ⟨bytes, false, []⟩ ∧
      (evidence = .committed ↔ ∃ log rest, bytes = log ++ rest ∧ CommittedLog log) ∧
      (evidence = .absentOrUncommitted ↔ UncommittedLog bytes) ∧
      (evidence = .corruptBeforeCommit ↔
        ¬(∃ log rest, bytes = log ++ rest ∧ CommittedLog log) ∧ ¬UncommittedLog bytes)) ∧
    (CommittedLog bytes → ∀ (rest : Bytes) (faulty : Bool),
      wp (ByteStream.handle ByteStream.steady) (fun _ => True)
        (fun result _ => result = .ok .committed) inspectWal.run ⟨bytes ++ rest, faulty, []⟩) := by
  constructor
  · obtain ⟨evidence, hevidence⟩ := walVerdict_ok bytes
    have hcommitted : evidence = .committed ↔
        ∃ log rest, bytes = log ++ rest ∧ CommittedLog log := by
      rw [← @walVerdict_eq_committed false bytes, hevidence, Except.ok.injEq]
    have huncommitted : evidence = .absentOrUncommitted ↔ UncommittedLog bytes := by
      rw [← walVerdict_eq_uncommitted, hevidence, Except.ok.injEq]
    refine ⟨evidence, wp_inspectWal_eq hevidence, hcommitted, huncommitted, ?_⟩
    rw [← hcommitted, ← huncommitted]
    cases evidence with
    | absentOrUncommitted => simp
    | committed => simp
    | corruptBeforeCommit => simp
  · intro hlog rest faulty
    exact wp_inspectWal_eq (walVerdict_eq_committed.2 ⟨bytes, rest, rfl, hlog⟩)

/-! ## A log -/

/-- A header with little-endian checksums, pages of 512 bytes and the salt 1, 2. -/
def smallHeader : Bytes :=
  let front := beBytes 4 0x377f0682 ++ beBytes 4 3007000 ++ beBytes 4 512 ++ beBytes 4 0 ++
    beBytes 4 1 ++ beBytes 4 2
  let sum := checksumBytes .little front (0, 0)
  front ++ beBytes 4 sum.1.toNat ++ beBytes 4 sum.2.toNat

/-- What `smallHeader` says. -/
def smallSettings : WalSettings :=
  ⟨.little, 512, (1, 2), checksumBytes .little (smallHeader.take 24) (0, 0)⟩

/-- The first frame behind `smallHeader`, with an empty page. -/
def smallFrame (page commit : ℕ) : Bytes :=
  let front := beBytes 4 page ++ beBytes 4 commit
  let sum := checksumBytes .little (List.replicate 512 0)
    (checksumBytes .little front smallSettings.checksum)
  front ++ beBytes 4 1 ++ beBytes 4 2 ++ beBytes 4 sum.1.toNat ++ beBytes 4 sum.2.toNat ++
    List.replicate 512 0

theorem smallHeader_ok : HeaderOk smallHeader smallSettings :=
  (readHeader_eq_some (by decide +kernel)).1 (by decide +kernel)

theorem smallFrame_ok : FrameOk smallSettings smallSettings.checksum (smallFrame 1 1) :=
  (frameRefused_eq_false_iff (by decide +kernel)).1 (by decide +kernel)

/-- A log of one frame that commits, and one byte behind it. -/
theorem smallLog_committed :
    wp (ByteStream.handle ByteStream.steady) (fun _ => True)
      (fun result _ => result = .ok .committed) inspectWal.run
      ⟨smallHeader ++ smallFrame 1 1 ++ [0xff], false, []⟩ :=
  (inspectWal_classifies (smallHeader ++ smallFrame 1 1)).2
    ⟨smallHeader, smallSettings, [], smallFrame 1 1, rfl, smallHeader_ok,
      ⟨smallFrame_ok, trivial⟩, fun _ h => absurd h List.not_mem_nil, by decide +kernel,
      by decide⟩ [0xff] false

/-- **A frame of page zero is refused**, though its salt and its checksum are
right and it has a commit size. -/
theorem zeroPage_commit_refused :
    HeaderOk smallHeader smallSettings ∧
    FrameSealed smallSettings smallSettings.checksum (smallFrame 0 1) ∧
    commitSize (smallFrame 0 1) ≠ 0 ∧
    wp (ByteStream.handle ByteStream.steady) (fun _ => True)
      (fun result _ => result = .ok .corruptBeforeCommit) inspectWal.run
      ⟨smallHeader ++ smallFrame 0 1, false, []⟩ := by
  refine ⟨smallHeader_ok, ⟨by decide +kernel, by decide +kernel, by decide +kernel⟩,
    by decide +kernel, ?_⟩
  have hverdict : walVerdict false (smallHeader ++ smallFrame 0 1) = .ok .corruptBeforeCommit := by
    decide +kernel
  exact wp_inspectWal_eq hverdict

end MengXia
