import MengXia.Common.Streams
import MengXia.Types
/-!
# Frames

A payload on a local stream is preceded by its length in four bytes. The
limit on that length is one of the daemon's settings. What is written frame
by frame is read back frame by frame, whatever the portions of the reads and
writes.
-/

namespace MengXia

open Common Common.Program

variable {payload : Bytes}

/-- `FrameLimit`. -/
structure FrameLimit where
  bytes : ℕ
  range : 65536 ≤ bytes ∧ bytes ≤ 16777216

/-- The least limit a daemon can be configured with. -/
def FrameLimit.least : FrameLimit := ⟨65536, by decide⟩

/-- `FrameError`, but for the error of the limit's constructor. -/
inductive FrameError where
  | invalidLength
  | truncated
  | allocationUnavailable
  | transport
  deriving DecidableEq

/-- `write_frame`: the bytes that reach the stream. -/
def writeFrame (limit : FrameLimit) (payload : Bytes) : Except FrameError Bytes :=
  if payload = [] ∨ limit.bytes < payload.length then .error .invalidLength
  else .ok (beBytes 4 payload.length ++ payload)

/-- **A frame is written exactly when its payload is within the limit.** -/
theorem writeFrame_isOk_iff {limit : FrameLimit} (hne : payload ≠ []) :
    (∃ bytes, writeFrame limit payload = .ok bytes) ↔ payload.length ≤ limit.bytes := by
  unfold writeFrame
  constructor
  · rintro ⟨bytes, h⟩
    split at h
    · cases h
    · rename_i hlimit
      exact Nat.not_lt.1 fun hlt => hlimit (Or.inr hlt)
  · intro hle
    refine ⟨_, if_neg ?_⟩
    rintro (h | h)
    · exact hne h
    · omega

/-! ## Frames on a stream -/

/-- `read_exact`. -/
def readExact (wanted : ℕ) : ExceptT FrameError (Program StreamCall StreamCall.Answer) Bytes :=
  check (fun
    | .complete bytes => .ok bytes
    | .ended _ => .error .truncated
    | .failed => .error .transport) (fill wanted)

/-- `read_frame`. -/
def readFrame (limit : FrameLimit) :
    ExceptT FrameError (Program StreamCall StreamCall.Answer) Bytes := do
  let header ← readExact 4
  let length := ofBeBytes header
  require (!(length = 0 || limit.bytes < length)) .invalidLength
  check (fun granted => if granted then .ok () else .error .allocationUnavailable)
    (perform (StreamCall.reserve length))
  readExact length

/-- The frames of a stream, one after the other. -/
def readFrames (limit : FrameLimit) :
    ℕ → ExceptT FrameError (Program StreamCall StreamCall.Answer) (List Bytes)
  | 0 => pure []
  | count + 1 => do
    let payload ← readFrame limit
    let payloads ← readFrames limit count
    return payload :: payloads

/-- `write_frame`, on a stream that may take less than it is given. -/
def sendFrame (limit : FrameLimit) (payload : Bytes) :
    ExceptT FrameError (Program StreamCall StreamCall.Answer) Unit := do
  require (!(payload = [] || limit.bytes < payload.length)) .invalidLength
  orFail (fun _ => .transport) (drain (beBytes 4 payload.length))
  orFail (fun _ => .transport) (drain payload)
  orFail (fun _ => .transport) (perform StreamCall.flush)

/-- Write the payloads frame by frame. -/
def sendFrames (limit : FrameLimit) :
    List Bytes → ExceptT FrameError (Program StreamCall StreamCall.Answer) Unit
  | [] => pure ()
  | payload :: payloads => do
    sendFrame limit payload
    sendFrames limit payloads

/-- A payload that a frame can hold. -/
def FrameLimit.Holds (limit : FrameLimit) (payload : Bytes) : Prop :=
  1 ≤ payload.length ∧ payload.length ≤ limit.bytes

/-- The bytes of a frame. -/
def frame (payload : Bytes) : Bytes :=
  beBytes 4 payload.length ++ payload

theorem FrameLimit.Holds.announced {limit : FrameLimit} (h : limit.Holds payload) :
    ofBeBytes (beBytes 4 payload.length) = payload.length := by
  have hlimit := limit.range.2
  have hlength := h.2
  exact ofBeBytes_beBytes (by omega)

section Specifications

variable {χ : Type} {view : χ → StreamChoice} {I : ByteStream → Prop} {s : ByteStream}
variable {limit : FrameLimit}

variable {E : FrameError → ByteStream → Prop} {Q : Bytes → ByteStream → Prop}

/-- What a stream that ends too early makes of a read. -/
def shortfall (s : ByteStream) : FrameError :=
  if s.faulty then .transport else .truncated

theorem wpx_readExact {wanted : ℕ} (hI : ∀ incoming, I { s with incoming })
    (hQ : wanted ≤ s.incoming.length →
      Q (s.incoming.take wanted) { s with incoming := s.incoming.drop wanted })
    (hE : s.incoming.length < wanted → E (shortfall s) { s with incoming := [] }) :
    wpx (ByteStream.handle view) I Q E (readExact wanted) s := by
  refine wpx_check.2 (wp_fill hI ?_)
  by_cases hle : wanted ≤ s.incoming.length
  · rw [ByteStream.filled, if_pos hle]
    exact hQ hle
  · have hshort := hE (Nat.lt_of_not_le hle)
    unfold shortfall at hshort
    rw [ByteStream.filled, if_neg hle]
    cases hfaulty : s.faulty with
    | true | false =>
      rw [hfaulty] at hshort
      exact hshort

/-- The first four bytes announce a payload within the limit. -/
def Announces (limit : FrameLimit) (s : ByteStream) : Prop :=
  ofBeBytes (s.incoming.take 4) ≠ 0 ∧ ofBeBytes (s.incoming.take 4) ≤ limit.bytes

/-- **Reading a frame**, on any stream: the cases in the order they are met. -/
theorem wpx_readFrame (hI : ∀ incoming, I { s with incoming })
    (hshort : s.incoming.length < 4 → E (shortfall s) { s with incoming := [] })
    (hinvalid : 4 ≤ s.incoming.length →
      ofBeBytes (s.incoming.take 4) = 0 ∨ limit.bytes < ofBeBytes (s.incoming.take 4) →
      E .invalidLength { s with incoming := s.incoming.drop 4 })
    (hmemory : 4 ≤ s.incoming.length → Announces limit s → (∃ choice, (view choice).fails = true) →
      E .allocationUnavailable { s with incoming := s.incoming.drop 4 })
    (hcut : 4 ≤ s.incoming.length → Announces limit s →
      s.incoming.length < 4 + ofBeBytes (s.incoming.take 4) →
      E (shortfall s) { s with incoming := [] })
    (hQ : ∀ payload rest, s.incoming = frame payload ++ rest → limit.Holds payload →
      Q payload { s with incoming := rest }) :
    wpx (ByteStream.handle view) I Q E (readFrame limit) s := by
  refine wpx_bind.2 (wpx_readExact hI (fun hheader => ?_) hshort)
  refine wpx_bind.2 (wpx_require (fun hvalid => ?_) fun hbad => hinvalid hheader ?_)
  swap
  · simpa [or_iff_not_imp_left] using hbad
  have hbounds : Announces limit s := by simpa [Announces] using hvalid
  refine wpx_bind.2 (wpx_check.2 (wp_perform.2 fun choice => ⟨hI _, ?_⟩))
  cases hfails : (view choice).fails with
  | true =>
    have hanswer : ByteStream.handle view (.reserve (ofBeBytes (s.incoming.take 4))) choice
        { s with incoming := s.incoming.drop 4 } =
          (false, { s with incoming := s.incoming.drop 4 }) := by
      simp only [ByteStream.handle, ByteStream.answer, hfails, Bool.not_true]
    rw [hanswer]
    exact hmemory hheader hbounds ⟨choice, hfails⟩
  | false =>
    have hanswer : ByteStream.handle view (.reserve (ofBeBytes (s.incoming.take 4))) choice
        { s with incoming := s.incoming.drop 4 } =
          (true, { s with incoming := s.incoming.drop 4 }) := by
      simp only [ByteStream.handle, ByteStream.answer, hfails, Bool.not_false]
    rw [hanswer]
    refine wpx_readExact (fun incoming => hI incoming) (fun hfits => ?_) fun hfew => ?_
    · -- The header announces the length of what was read.
      have hlength : ((s.incoming.drop 4).take (ofBeBytes (s.incoming.take 4))).length =
          ofBeBytes (s.incoming.take 4) :=
        (List.length_take ..).trans (Nat.min_eq_left hfits)
      have hheader : beBytes 4 (ofBeBytes (s.incoming.take 4)) = s.incoming.take 4 := by
        have hbytes := beBytes_ofBeBytes (s.incoming.take 4)
        rwa [List.length_take, Nat.min_eq_left hheader] at hbytes
      refine hQ _ _ ?_ ?_
      · rw [frame, hlength, hheader, List.append_assoc, List.take_append_drop,
          List.take_append_drop]
      · unfold FrameLimit.Holds
        rw [hlength]
        exact ⟨Nat.pos_of_ne_zero hbounds.1, hbounds.2⟩
    · refine hcut ‹_› hbounds ?_
      simp only [List.length_drop] at hfew
      omega

theorem wpx_readFrame_frame {rest : Bytes} (hsteady : ∀ choice, (view choice).fails = false)
    (hI : ∀ incoming, I { s with incoming }) (hs : s.incoming = frame payload ++ rest)
    (hholds : limit.Holds payload) (hQ : Q payload { s with incoming := rest }) :
    wpx (ByteStream.handle view) I Q E (readFrame limit) s := by
  have hheader : (frame payload ++ rest).take 4 = beBytes 4 payload.length := by
    rw [frame, List.append_assoc, List.take_left' (length_beBytes ..)]
  have hlength : (frame payload ++ rest).length = 4 + (payload.length + rest.length) := by
    simp [frame]
  have hannounced := hholds.announced
  unfold FrameLimit.Holds at hholds
  refine wpx_readFrame hI ?_ ?_ ?_ ?_ ?_
  · intro hshort
    rw [hs, hlength] at hshort
    omega
  · intro _ hinvalid
    rw [hs, hheader, hannounced] at hinvalid
    omega
  · rintro - - ⟨choice, hfails⟩
    rw [hsteady choice] at hfails
    cases hfails
  · intro _ _ hfew
    rw [hs, hheader, hannounced, hlength] at hfew
    omega
  · intro payload' rest' hs' hholds'
    have hsame : frame payload ++ rest = frame payload' ++ rest' := hs.symm.trans hs'
    have hlengths : payload'.length = payload.length := by
      have hheaders := congrArg (fun bytes => ofBeBytes (bytes.take 4)) hsame
      simp only [hheader, hannounced] at hheaders
      rw [frame, List.append_assoc, List.take_left' (length_beBytes ..), hholds'.announced]
        at hheaders
      exact hheaders.symm
    unfold frame at hsame
    rw [hlengths, List.append_assoc, List.append_assoc] at hsame
    obtain ⟨rfl, rfl⟩ := List.append_inj (List.append_cancel_left hsame) hlengths.symm
    exact hQ

/-- **Frames are read back one after the other.** -/
theorem wpx_readFrames {Q : List Bytes → ByteStream → Prop} {payloads : List Bytes} {rest : Bytes}
    (hsteady : ∀ choice, (view choice).fails = false) (hI : ∀ incoming, I { s with incoming })
    (hs : s.incoming = payloads.flatMap frame ++ rest)
    (hholds : ∀ payload ∈ payloads, limit.Holds payload)
    (hQ : Q payloads { s with incoming := rest }) :
    wpx (ByteStream.handle view) I Q E (readFrames limit payloads.length) s := by
  induction payloads generalizing s Q with
  | nil =>
    have hsame : { s with incoming := rest } = s := by
      rw [List.flatMap_nil, List.nil_append] at hs
      rw [← hs]
    rw [hsame] at hQ
    exact hQ
  | cons payload payloads ih =>
    obtain ⟨hhead, htail⟩ := List.forall_mem_cons.1 hholds
    rw [List.flatMap_cons, List.append_assoc] at hs
    refine wpx_bind.2 (wpx_readFrame_frame hsteady hI hs hhead ?_)
    exact wpx_bind.2 (ih hI rfl htail hQ)

/-- **Writing a frame** puts out its bytes. -/
theorem wpx_sendFrame {Q : Unit → ByteStream → Prop} (hI : ∀ outgoing, I { s with outgoing })
    (hinvalid : ¬limit.Holds payload → E .invalidLength s)
    (hfails : ∀ outgoing, (∃ choice, (view choice).fails = true) → E .transport { s with outgoing })
    (hQ : limit.Holds payload → Q () { s with outgoing := s.outgoing ++ frame payload }) :
    wpx (ByteStream.handle view) I Q E (sendFrame limit payload) s := by
  refine wpx_bind.2 (wpx_require (fun hvalid => ?_) fun hbad => hinvalid ?_)
  swap
  · intro hholds
    unfold FrameLimit.Holds at hholds
    have hcases : payload = [] ∨ limit.bytes < payload.length := by
      simpa [or_iff_not_imp_left] using hbad
    rcases hcases with rfl | hlong
    · exact absurd hholds.1 (by simp)
    · omega
  have hbounds : payload ≠ [] ∧ payload.length ≤ limit.bytes := by simpa using hvalid
  have hholds : limit.Holds payload := ⟨List.length_pos_of_ne_nil hbounds.1, hbounds.2⟩
  refine wpx_bind.2 (wpx_orFail.2 (wp_drain (fun outgoing => hI outgoing) ?_ hfails))
  refine wpx_bind.2 (wpx_orFail.2 (wp_drain (fun outgoing => hI outgoing) ?_ hfails))
  refine wpx_orFail.2 (wp_perform.2 fun choice => ⟨hI _, ?_⟩)
  have hframe := hQ hholds
  rw [frame, ← List.append_assoc] at hframe
  cases hchoice : (view choice).fails with
  | true =>
    have hanswer : ByteStream.handle view .flush choice
        { s with outgoing := s.outgoing ++ beBytes 4 payload.length ++ payload } =
          (.error (), { s with
            outgoing := s.outgoing ++ beBytes 4 payload.length ++ payload }) := by
      simp only [ByteStream.handle, ByteStream.answer, hchoice, if_true]
    rw [hanswer]
    exact hfails _ ⟨choice, hchoice⟩
  | false =>
    have hanswer : ByteStream.handle view .flush choice
        { s with outgoing := s.outgoing ++ beBytes 4 payload.length ++ payload } =
          (.ok (), { s with outgoing := s.outgoing ++ beBytes 4 payload.length ++ payload }) := by
      simp only [ByteStream.handle, ByteStream.answer, hchoice, Bool.false_eq_true, if_false]
    rw [hanswer]
    exact hframe

theorem wpx_sendFrames {Q : Unit → ByteStream → Prop} {payloads : List Bytes}
    (hsteady : ∀ choice, (view choice).fails = false) (hI : ∀ outgoing, I { s with outgoing })
    (hholds : ∀ payload ∈ payloads, limit.Holds payload)
    (hQ : Q () { s with outgoing := s.outgoing ++ payloads.flatMap frame }) :
    wpx (ByteStream.handle view) I Q E (sendFrames limit payloads) s := by
  induction payloads generalizing s with
  | nil =>
    rw [List.flatMap_nil, List.append_nil] at hQ
    exact hQ
  | cons payload payloads ih =>
    obtain ⟨hhead, htail⟩ := List.forall_mem_cons.1 hholds
    refine wpx_bind.2 (wpx_sendFrame hI (fun hnot => absurd hhead hnot) ?_ fun _ => ih ?_ htail ?_)
    · rintro _ ⟨choice, hfails⟩
      rw [hsteady choice] at hfails
      cases hfails
    · exact fun outgoing => hI outgoing
    · rw [List.flatMap_cons, ← List.append_assoc] at hQ
      exact hQ

/-- A frame is read into memory of at most its limit. -/
theorem always_readFrame (limit : FrameLimit) :
    Always (fun call => ∀ bytes, call = StreamCall.reserve bytes → bytes ≤ limit.bytes) anyResult
      (readFrame limit).run := by
  have hread : ∀ wanted, Uses (fun call => ∀ bytes, call = StreamCall.reserve bytes →
      bytes ≤ limit.bytes) anyResult (readExact wanted) := by
    intro wanted
    refine uses_check (always_fillFrom (fun capacity bytes h => ?_) ..)
    cases h
  refine Uses.always (R := anyResult) ((hread 4).bind fun header _ => ?_)
  by_cases hvalid : (!(ofBeBytes header = 0 || limit.bytes < ofBeBytes header)) = true
  · have hbounds : ofBeBytes header ≠ 0 ∧ ofBeBytes header ≤ limit.bytes := by simpa using hvalid
    refine (uses_require ..).bind fun _ _ => (uses_check ?_).bind fun _ _ => hread _
    refine ⟨fun bytes h => ?_, fun _ => trivial⟩
    cases h
    exact hbounds.2
  · have hthrow : (require (!(ofBeBytes header = 0 || limit.bytes < ofBeBytes header))
        FrameError.invalidLength : ExceptT FrameError StreamProgram Unit) =
          throw FrameError.invalidLength := if_neg hvalid
    simp only [hthrow]
    exact uses_throw _

end Specifications

/-- **What reading one frame does to a stream.** -/
structure ReadsFrame (limit : FrameLimit) (s : ByteStream) (result : Except FrameError Bytes)
    (s' : ByteStream) : Prop where
  consumed : ∀ payload, result = .ok payload →
    s.incoming = beBytes 4 payload.length ++ payload ++ s'.incoming ∧ limit.Holds payload
  invalid : 4 ≤ s.incoming.length →
    ofBeBytes (s.incoming.take 4) = 0 ∨ limit.bytes < ofBeBytes (s.incoming.take 4) →
    result = .error .invalidLength
  short : s.incoming.length < 4 → result = .error (shortfall s)
  cut : 4 ≤ s.incoming.length → s.incoming.length < 4 + ofBeBytes (s.incoming.take 4) →
    ∃ error, result = .error error

theorem wp_readFrame_reads {χ : Type} {view : χ → StreamChoice} (limit : FrameLimit)
    (s : ByteStream) : wp (ByteStream.handle view) (fun _ => True) (ReadsFrame limit s)
      (readFrame limit).run s := by
  have hvalid : Announces limit s →
      ¬(ofBeBytes (s.incoming.take 4) = 0 ∨ limit.bytes < ofBeBytes (s.incoming.take 4)) := by
    rintro ⟨hzero, hbound⟩
    omega
  refine wp_run (wpx_readFrame (fun _ => trivial) (fun hshort => ?_) (fun hheader _ => ?_)
    (fun hheader hbounds _ => ?_) (fun hheader hbounds _ => ?_) fun payload rest hs hholds => ?_)
  · exact ⟨fun _ h => (by cases h), fun hheader => absurd hheader (Nat.not_le.2 hshort),
      fun _ => rfl, fun hheader => absurd hheader (Nat.not_le.2 hshort)⟩
  · exact ⟨fun _ h => (by cases h), fun _ _ => rfl,
      fun hshort => absurd hheader (Nat.not_le.2 hshort), fun _ _ => ⟨_, rfl⟩⟩
  · exact ⟨fun _ h => (by cases h), fun _ hinvalid => absurd hinvalid (hvalid hbounds),
      fun hshort => absurd hheader (Nat.not_le.2 hshort), fun _ _ => ⟨_, rfl⟩⟩
  · exact ⟨fun _ h => (by cases h), fun _ hinvalid => absurd hinvalid (hvalid hbounds),
      fun hshort => absurd hheader (Nat.not_le.2 hshort), fun _ _ => ⟨_, rfl⟩⟩
  · have hheader : ofBeBytes (s.incoming.take 4) = payload.length := by
      rw [hs, frame, List.append_assoc, List.take_left' (length_beBytes ..), hholds.announced]
    have hlength : s.incoming.length = 4 + (payload.length + rest.length) := by
      rw [hs]
      simp [frame]
    refine ⟨fun payload' h => ?_, fun _ hinvalid => ?_, fun hshort => ?_, fun _ hcut => ?_⟩
    · cases h
      exact ⟨hs, hholds⟩
    · refine absurd hinvalid (hvalid ?_)
      unfold Announces
      rw [hheader]
      exact ⟨Nat.pos_iff_ne_zero.1 hholds.1, hholds.2⟩
    · omega
    · omega

/-- **Framing is exact.** Payloads within the limit are written as frames and
read back in their order, whatever the portions of the writes and reads; a
frame that is read from any stream takes its four bytes of length and its
payload; a length of zero or above the limit and a stream that ends inside a
frame are refused; and no more memory than the limit is asked for. -/
theorem framing_exact (limit : FrameLimit) :
    (∀ payloads : List Bytes, (∀ payload ∈ payloads, limit.Holds payload) →
      ∀ (before : ByteStream) (rest outgoing : Bytes) (faulty : Bool),
        wpx (ByteStream.handle ByteStream.steady) (fun _ => True)
          (fun _ s => s = { before with outgoing := before.outgoing ++ payloads.flatMap frame })
          (fun _ _ => False) (sendFrames limit payloads) before ∧
        wpx (ByteStream.handle ByteStream.steady) (fun _ => True)
          (fun read s => read = payloads ∧ s = ⟨rest, faulty, outgoing⟩) (fun _ _ => False)
          (readFrames limit payloads.length) ⟨payloads.flatMap frame ++ rest, faulty, outgoing⟩) ∧
    (∀ s : ByteStream, wp (ByteStream.handle fun choice : StreamChoice => choice) (fun _ => True)
      (ReadsFrame limit s) (readFrame limit).run s) ∧
    Always (fun call => ∀ bytes, call = StreamCall.reserve bytes → bytes ≤ limit.bytes) anyResult
      (readFrame limit).run := by
  refine ⟨fun payloads hholds before rest outgoing faulty => ⟨?_, ?_⟩,
    fun s => wp_readFrame_reads limit s, always_readFrame limit⟩
  · exact wpx_sendFrames (fun _ => rfl) (fun _ => trivial) hholds rfl
  · exact wpx_readFrames (fun _ => rfl) (fun _ => trivial) rfl hholds ⟨rfl, rfl⟩

/-- Two payloads on one stream. -/
theorem two_frames_read_back :
    wpx (ByteStream.handle ByteStream.steady) (fun _ => True)
      (fun read s => read = [[1], [2, 3]] ∧ s = ⟨[], false, []⟩) (fun _ _ => False)
      (readFrames .least 2) ⟨[0, 0, 0, 1, 1, 0, 0, 0, 2, 2, 3], false, []⟩ := by
  have hholds : ∀ payload ∈ [[1], [2, 3]], FrameLimit.least.Holds payload := by
    unfold FrameLimit.Holds FrameLimit.least
    decide
  exact ((framing_exact .least).1 [[1], [2, 3]] hholds ⟨[], false, []⟩ [] [] false).2

end MengXia
