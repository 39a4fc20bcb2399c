import MengXia.Common.Program
/-!
# Byte streams

Programs that read from a stream and write to one. A read returns some of the
bytes that have come in, at least one and as many as the environment likes; a
write takes some of the bytes it is given. A loop around a read or a write
makes up for that: what it reads or writes does not depend on the portions.
-/

namespace Common

/-- The calls on a stream, and the reservation of memory for what is read. -/
inductive StreamCall where
  | read (capacity : ℕ)
  | reserve (bytes : ℕ)
  | write (bytes : List UInt8)
  | flush
  | shutdown

/-- What a call is answered with. -/
@[reducible] def StreamCall.Answer : StreamCall → Type
  | .read _ => Except Unit (List UInt8)
  | .reserve _ => Bool
  | .write _ => Except Unit ℕ
  | .flush => Except Unit Unit
  | .shutdown => Except Unit Unit

/-- A program on a stream. -/
abbrev StreamProgram (α : Type) : Type :=
  Program StreamCall StreamCall.Answer α

/-- The two directions of a stream: the bytes that come in before it ends or
fails, and those that went out. -/
structure ByteStream where
  incoming : List UInt8
  faulty : Bool
  outgoing : List UInt8
  deriving DecidableEq

/-- What the environment chooses: the portions, and whether a call fails that
does not read. -/
structure StreamChoice where
  portion : ℕ
  fails : Bool

namespace ByteStream

/-- How much of `length` bytes one call transfers: a part that is not empty. -/
def portion (choice : StreamChoice) (length : ℕ) : ℕ :=
  min length (choice.portion + 1)

/-- **The answers of a stream.** -/
def answer (choice : StreamChoice) (s : ByteStream) : (call : StreamCall) → call.Answer × ByteStream
  | .read capacity =>
    if s.incoming = [] then (if s.faulty then .error () else .ok [], s)
    else
      let count := portion choice (min capacity s.incoming.length)
      (.ok (s.incoming.take count), { s with incoming := s.incoming.drop count })
  | .reserve _ => (!choice.fails, s)
  | .write bytes =>
    if choice.fails then (.error (), s)
    else
      let count := portion choice bytes.length
      (.ok count, { s with outgoing := s.outgoing ++ bytes.take count })
  | .flush => (if choice.fails then .error () else .ok (), s)
  | .shutdown => (if choice.fails then .error () else .ok (), s)

/-- How the calls are answered where `view` says what is chosen. -/
def handle {χ : Type} (view : χ → StreamChoice) :
    (call : StreamCall) → χ → ByteStream → call.Answer × ByteStream :=
  fun call choice s => s.answer (view choice) call

/-- Only the portions are chosen. -/
def steady (portion : ℕ) : StreamChoice :=
  ⟨portion, false⟩

/-- Every transfer moves something. -/
theorem portion_pos {choice : StreamChoice} {length : ℕ} (h : 0 < length) :
    0 < portion choice length := by
  unfold portion
  omega

/-- No transfer moves too much. -/
theorem portion_le (choice : StreamChoice) (length : ℕ) : portion choice length ≤ length :=
  Nat.min_le_left ..

end ByteStream

open Program

/-! ## Reading an exact number of bytes -/

/-- How a loop ends that reads an exact number of bytes. -/
inductive Filled where
  | complete (bytes : List UInt8)
  | ended (bytes : List UInt8)
  | failed
  deriving DecidableEq

/-- Read `wanted` more bytes, at least one with every read. -/
def fillFrom : ℕ → List UInt8 → ℕ → StreamProgram Filled
  | _, soFar, 0 => pure (.complete soFar)
  | 0, _, _ + 1 => pure .failed
  | fuel + 1, soFar, wanted + 1 => do
    let answer ← perform (StreamCall.read (wanted + 1))
    match answer with
    | .error _ => pure .failed
    | .ok [] => pure (.ended soFar)
    | .ok (byte :: bytes) =>
      fillFrom fuel (soFar ++ byte :: bytes) (wanted + 1 - (byte :: bytes).length)

/-- Read exactly so many bytes. -/
def fill (wanted : ℕ) : StreamProgram Filled :=
  fillFrom wanted [] wanted

/-- Write all the bytes, at least one with every write. -/
def drainFrom : ℕ → List UInt8 → StreamProgram (Except Unit Unit)
  | _, [] => pure (.ok ())
  | 0, _ :: _ => pure (.error ())
  | fuel + 1, byte :: bytes => do
    let answer ← perform (StreamCall.write (byte :: bytes))
    match answer with
    | .error _ => pure (.error ())
    -- A write that takes nothing is `WriteZero`.
    | .ok 0 => pure (.error ())
    | .ok (count + 1) => drainFrom fuel ((byte :: bytes).drop (count + 1))

/-- Write all the bytes. -/
def drain (bytes : List UInt8) : StreamProgram (Except Unit Unit) :=
  drainFrom bytes.length bytes

section Specifications

variable {χ : Type} {view : χ → StreamChoice} {I : ByteStream → Prop} {s : ByteStream}

/-- What a read of so many bytes leads to. -/
def ByteStream.filled (s : ByteStream) (wanted : ℕ) : Filled × ByteStream :=
  if wanted ≤ s.incoming.length then
    (.complete (s.incoming.take wanted), { s with incoming := s.incoming.drop wanted })
  else (if s.faulty then .failed else .ended s.incoming, { s with incoming := [] })

/-- Reading goes on until there is enough or the stream ends. -/
theorem wp_fillFrom {Q : Filled → ByteStream → Prop} {fuel wanted : ℕ} {soFar : List UInt8}
    (hfuel : wanted ≤ fuel) (hI : ∀ incoming, I { s with incoming })
    (hcomplete : wanted ≤ s.incoming.length → Q (.complete (soFar ++ s.incoming.take wanted))
      { s with incoming := s.incoming.drop wanted })
    (hshort : s.incoming.length < wanted →
      Q (if s.faulty then .failed else .ended (soFar ++ s.incoming)) { s with incoming := [] }) :
    wp (ByteStream.handle view) I Q (fillFrom fuel soFar wanted) s := by
  induction fuel generalizing s soFar wanted with
  | zero =>
    obtain rfl : wanted = 0 := Nat.le_zero.1 hfuel
    have hall := hcomplete (Nat.zero_le _)
    rw [List.take_zero, List.append_nil] at hall
    exact hall
  | succ fuel ih =>
    cases wanted with
    | zero =>
      have hall := hcomplete (Nat.zero_le _)
      rw [List.take_zero, List.append_nil] at hall
      exact hall
    | succ wanted =>
      refine wp_bind.2 (wp_perform.2 fun choice => ?_)
      by_cases hempty : s.incoming = []
      · have hanswer : ByteStream.handle view (.read (wanted + 1)) choice s =
            (if s.faulty then .error () else .ok [], s) := if_pos hempty
        have hsame : { s with incoming := [] } = s := by rw [← hempty]
        have hend := hshort (by rw [hempty]; exact Nat.succ_pos _)
        rw [hsame, hempty, List.append_nil] at hend
        rw [hanswer]
        refine ⟨hsame ▸ hI [], ?_⟩
        cases hfaulty : s.faulty with
        | true | false =>
          rw [hfaulty] at hend
          exact hend
      · -- Some bytes have come in: the loop goes on behind the portion it gets.
        have hlength : 0 < s.incoming.length := List.length_pos_of_ne_nil hempty
        obtain ⟨count, hcount, hpos, hle, hfits⟩ : ∃ count,
            ByteStream.portion (view choice) (min (wanted + 1) s.incoming.length) = count ∧
              0 < count ∧ count ≤ wanted + 1 ∧ count ≤ s.incoming.length := by
          have hbound := ByteStream.portion_le (view choice) (min (wanted + 1) s.incoming.length)
          exact ⟨_, rfl, ByteStream.portion_pos (by omega), by omega, by omega⟩
        have hanswer : ByteStream.handle view (.read (wanted + 1)) choice s =
            (.ok (s.incoming.take count), { s with incoming := s.incoming.drop count }) := by
          rw [← hcount]
          exact if_neg hempty
        rw [hanswer]
        refine ⟨hI _, ?_⟩
        obtain ⟨byte, bytes, hbytes⟩ :=
          List.exists_cons_of_length_pos (by rw [List.length_take]; omega :
            0 < (s.incoming.take count).length)
        have htaken : (byte :: bytes).length = count := by
          rw [← hbytes, List.length_take]
          omega
        simp only [hbytes]
        rw [htaken, ← hbytes]
        refine ih (by omega) (fun incoming => hI incoming) (fun hmore => ?_) fun hfew => ?_
        · have hall := hcomplete (by simp only [List.length_drop] at hmore; omega)
          have htake : s.incoming.take count ++ (s.incoming.drop count).take (wanted + 1 - count) =
              s.incoming.take (wanted + 1) := by
            rw [← List.take_add]
            congr 1
            omega
          have hdrop : (s.incoming.drop count).drop (wanted + 1 - count) =
              s.incoming.drop (wanted + 1) := by
            rw [List.drop_drop]
            congr 1
            omega
          simp only [List.append_assoc, htake, hdrop]
          exact hall
        · have hall := hshort (by simp only [List.length_drop] at hfew; omega)
          simp only [List.append_assoc, List.take_append_drop]
          exact hall

/-- **A loop that reads an exact number of bytes** gets the next bytes of the
stream, whatever the portions. -/
theorem wp_fill {Q : Filled → ByteStream → Prop} {wanted : ℕ}
    (hI : ∀ incoming, I { s with incoming }) (hQ : Q (s.filled wanted).1 (s.filled wanted).2) :
    wp (ByteStream.handle view) I Q (fill wanted) s := by
  refine wp_fillFrom (Nat.le_refl _) hI (fun hle => ?_) fun hlt => ?_
  · rw [ByteStream.filled, if_pos hle] at hQ
    exact hQ
  · rw [ByteStream.filled, if_neg (by omega)] at hQ
    exact hQ

/-- Writing goes on until everything is out or the stream fails. -/
theorem wp_drainFrom {Q : Except Unit Unit → ByteStream → Prop} {fuel : ℕ} {bytes : List UInt8}
    (hfuel : bytes.length ≤ fuel) (hI : ∀ outgoing, I { s with outgoing })
    (hok : Q (.ok ()) { s with outgoing := s.outgoing ++ bytes })
    (herror : ∀ outgoing, (∃ choice, (view choice).fails = true) →
      Q (.error ()) { s with outgoing }) :
    wp (ByteStream.handle view) I Q (drainFrom fuel bytes) s := by
  induction fuel generalizing s bytes with
  | zero =>
    obtain rfl : bytes = [] := List.length_eq_zero_iff.1 (Nat.le_zero.1 hfuel)
    rw [List.append_nil] at hok
    exact hok
  | succ fuel ih =>
    cases bytes with
    | nil =>
      rw [List.append_nil] at hok
      exact hok
    | cons byte bytes =>
      refine wp_bind.2 (wp_perform.2 fun choice => ?_)
      by_cases hfails : (view choice).fails = true
      · have hanswer : ByteStream.handle view (.write (byte :: bytes)) choice s = (.error (), s) :=
          if_pos hfails
        rw [hanswer]
        exact ⟨hI s.outgoing, herror s.outgoing ⟨choice, hfails⟩⟩
      · have hpos : 0 < ByteStream.portion (view choice) (byte :: bytes).length :=
          ByteStream.portion_pos (Nat.succ_pos _)
        obtain ⟨count, hcount⟩ := Nat.exists_eq_add_one_of_ne_zero (Nat.ne_of_gt hpos)
        have hanswer : ByteStream.handle view (.write (byte :: bytes)) choice s =
            (.ok (count + 1),
              { s with outgoing := s.outgoing ++ (byte :: bytes).take (count + 1) }) := by
          rw [← hcount]
          exact if_neg hfails
        rw [hanswer]
        refine ⟨hI _, ?_⟩
        refine ih (by simp only [List.length_drop, List.length_cons] at hfuel ⊢; omega)
          (fun outgoing => hI outgoing) ?_ fun outgoing => herror outgoing
        simp only [List.append_assoc, List.take_append_drop]
        exact hok

/-- **A loop that writes all the bytes** adds them to what went out. -/
theorem wp_drain {Q : Except Unit Unit → ByteStream → Prop} {bytes : List UInt8}
    (hI : ∀ outgoing, I { s with outgoing })
    (hok : Q (.ok ()) { s with outgoing := s.outgoing ++ bytes })
    (herror : ∀ outgoing, (∃ choice, (view choice).fails = true) →
      Q (.error ()) { s with outgoing }) :
    wp (ByteStream.handle view) I Q (drain bytes) s :=
  wp_drainFrom (Nat.le_refl _) hI hok herror

end Specifications

/-- A loop that reads makes no other calls. -/
theorem always_fillFrom {P : StreamCall → Prop} (hread : ∀ capacity, P (.read capacity))
    (fuel : ℕ) (soFar : List UInt8) (wanted : ℕ) :
    Always P anyResult (fillFrom fuel soFar wanted) := by
  induction fuel generalizing soFar wanted with
  | zero =>
    cases wanted with
    | zero => trivial
    | succ wanted => trivial
  | succ fuel ih =>
    cases wanted with
    | zero => trivial
    | succ wanted =>
      refine always_bind.2 (always_perform.2 ⟨hread _, fun answer => ?_⟩)
      cases answer with
      | error _ => trivial
      | ok bytes =>
        cases bytes with
        | nil => trivial
        | cons byte bytes => exact ih _ _

end Common
