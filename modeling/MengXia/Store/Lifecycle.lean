import MengXia.Common.Totals
import MengXia.Store.Run
/-!
# The runtime of the store

An open library is served by one thread that writes and a few that read.
Callers hand them jobs under one mutex and wait for a receipt; the owner, or
a failure, closes the admission. The runtime is one step function over the
sections that run under the mutex, and a job may end in any result.
-/

namespace MengXia.Store

namespace Lifecycle

open Common

/-- `CommandResult`. -/
abbrev CommandResult := Except StoreError Unit

/-- `AdmissionGate`. -/
inductive AdmissionGate where
  | opened
  | shuttingDown
  | failed
  deriving DecidableEq

/-- `WriterEnvelope` and `ReadEnvelope`. Receipts are numbered as they are
given out. -/
structure Envelope (Job : Type) where
  job : Job
  result : ℕ

/-- Where a thread stands between two sections of its loop. -/
inductive Worker (Job Unsent : Type) where
  /-- Looks for a job; in `wake.wait` it looks again. -/
  | ready
  /-- Executes a job, outside the mutex. -/
  | executing (envelope : Envelope Job)
  /-- Has a result, which the writer has yet to report and a reader to send. -/
  | finished (unsent : Unsent) (result : CommandResult)
  | returned

/-- `ReadSlot`, with its thread. What a read job reads is left open. -/
structure ReadSlot where
  assigned : Option (Envelope Unit)
  running : Bool
  worker : Worker Unit (Envelope Unit)

/-- `LifecycleState`, with the threads, and with the number of receipts given
out, the writes admitted, the writes that ran, and what was sent. -/
structure Runtime where
  gate : AdmissionGate
  writerCapacity : ℕ
  writerQueue : List (Envelope Call)
  writerRunning : Bool
  readSlots : List ReadSlot
  writer : Worker Call Unit
  connection : Database
  issued : ℕ
  admitted : List (Envelope Call)
  ran : List (Envelope Call)
  answers : List (ℕ × CommandResult)

namespace Runtime

/-- `OpenedLibraryOwner::start`. -/
def start (capacity readers : ℕ) (d : Database) : Runtime :=
  ⟨.opened, capacity, [], false, List.replicate readers ⟨none, false, .ready⟩, .ready, d, 0, [], [],
    []⟩

/-- What is sent for drained envelopes. -/
def refusals {Job : Type} (error : StoreError) (envelopes : List (Envelope Job)) :
    List (ℕ × CommandResult) :=
  envelopes.map fun envelope => (envelope.result, .error error)

/-- `fail_locked`. -/
def failLocked (s : Runtime) : Runtime :=
  { s with
    gate := .failed
    writerQueue := []
    readSlots := s.readSlots.map fun slot => { slot with assigned := none }
    answers := s.answers ++ (refusals .internal s.writerQueue ++
      refusals .internal (s.readSlots.filterMap ReadSlot.assigned)) }

/-- `enqueue_writer`. -/
def enqueueWriter (s : Runtime) (job : Call) : Except StoreError ℕ × Runtime :=
  match s.gate with
  | .shuttingDown => (.error .shuttingDown, s)
  | .failed => (.error .internal, s)
  | .opened =>
    if s.writerQueue.length = s.writerCapacity then (.error .backpressure, s)
    else
      (.ok s.issued, { s with
        writerQueue := s.writerQueue ++ [⟨job, s.issued⟩]
        admitted := s.admitted ++ [⟨job, s.issued⟩]
        issued := s.issued + 1 })

/-- `submit_read`. -/
def submitRead (s : Runtime) : Except StoreError ℕ × Runtime :=
  match s.gate with
  | .shuttingDown => (.error .shuttingDown, s)
  | .failed => (.error .internal, s)
  | .opened =>
    match s.readSlots.zipIdx.find? fun slot => slot.1.assigned.isNone && !slot.1.running with
    | none => (.error .backpressure, s)
    | some (slot, i) =>
      (.ok s.issued, { s with
        readSlots := s.readSlots.set i { slot with assigned := some ⟨(), s.issued⟩ }
        issued := s.issued + 1 })

/-- The locked part of `shutdown_inner`. -/
def shutdown (s : Runtime) : Runtime :=
  if s.gate = .opened then
    { s with
      gate := .shuttingDown
      writerQueue := []
      answers := s.answers ++ refusals .shuttingDown s.writerQueue }
  else s

/-- The next section of `writer_worker`. A job that fails or panics may have
committed before. -/
def writerTurn (context : StoreContext) (s : Runtime) (result : CommandResult) (committed : Bool) :
    Runtime :=
  match s.writer with
  | .ready =>
    match s.writerQueue with
    | [] => if s.gate = .opened then s else { s with writer := .returned }
    | envelope :: rest =>
      { s with writerQueue := rest, writerRunning := true, writer := .executing envelope }
  | .executing envelope =>
    { s with
      writer := .finished () result
      connection := if committed then ((envelope.job.exec context).run s.connection).2
        else s.connection
      ran := if committed then s.ran ++ [envelope] else s.ran
      answers := s.answers ++ [(envelope.result, result)] }
  | .finished _ (.error .internal) =>
    { s.failLocked with writerRunning := false, writer := .returned }
  | .finished _ _ => { s with writerRunning := false, writer := .ready }
  | .returned => s

/-- The next section of `read_worker`. -/
def readerTurn (s : Runtime) (i : ℕ) (result : CommandResult) : Runtime :=
  match s.readSlots[i]? with
  | none => s
  | some slot =>
    let write (slot : ReadSlot) : Runtime := { s with readSlots := s.readSlots.set i slot }
    match slot.worker with
    | .ready =>
      match slot.assigned with
      | none => if s.gate = .opened then s else write { slot with worker := .returned }
      | some envelope => write ⟨none, true, .executing envelope⟩
    | .executing envelope =>
      let reported := write { slot with running := false, worker := .finished envelope result }
      if result = .error .internal then reported.failLocked else reported
    | .finished envelope result =>
      { write { slot with worker := if result = .error .internal then .returned else .ready } with
        answers := s.answers ++ [(envelope.result, result)] }
    | .returned => s

end Runtime

/-- What can happen next: a call of a handle, or a turn of a thread with
what the environment makes of it. -/
inductive Action where
  | enqueueWriter (job : Call)
  | submitRead
  | failCurrentRuntime
  | shutdown
  | writer (result : CommandResult) (committed : Bool)
  | reader (i : ℕ) (result : CommandResult)

def Runtime.step (context : StoreContext) (s : Runtime) : Action → Runtime
  | .enqueueWriter job => (s.enqueueWriter job).2
  | .submitRead => s.submitRead.2
  | .failCurrentRuntime => s.failLocked
  | .shutdown => s.shutdown
  | .writer result committed => s.writerTurn context result committed
  | .reader i result => s.readerTurn i result

def Runtime.run (context : StoreContext) (s : Runtime) (actions : List Action) : Runtime :=
  actions.foldl (Runtime.step context) s

/-! ## What every step keeps -/

/-- The writes that ran, one after another. -/
def replay (context : StoreContext) (d : Database) (ran : List (Envelope Call)) : Database :=
  ran.foldl (fun d envelope => ((envelope.job.exec context).run d).2) d

/-- The job a thread executes. -/
def Worker.current {Job Unsent : Type} : Worker Job Unsent → List (Envelope Job)
  | .executing envelope => [envelope]
  | _ => []

/-- The receipts a slot holds. -/
def ReadSlot.held (slot : ReadSlot) : List ℕ :=
  (match slot.worker with
    | .executing envelope | .finished envelope _ => [envelope.result]
    | _ => []) ++ slot.assigned.toList.map Envelope.result

/-- How often a receipt is still to be answered, and how often it was. -/
def Runtime.copies (s : Runtime) (receipt : ℕ) : ℕ × ℕ :=
  (((s.writer.current ++ s.writerQueue).map Envelope.result).count receipt +
    total (fun slot => slot.held.count receipt) s.readSlots,
    (s.answers.map Prod.fst).count receipt)

/-- A slot behind a gate: a thread that has returned has left nothing, and
reports a failure before it sends it. -/
structure ReadSlot.Gated (gate : AdmissionGate) (slot : ReadSlot) : Prop where
  failed : gate = .failed → slot.assigned = none
  returned : slot.worker = .returned → gate ≠ .opened ∧ slot.assigned = none
  reported : ∀ envelope, slot.worker = .finished envelope (.error .internal) → gate = .failed

/-- What the gate means for the queue and the threads. -/
structure Gated (s : Runtime) : Prop where
  capacity : s.writerQueue.length ≤ s.writerCapacity
  closed : s.gate ≠ .opened → s.writerQueue = []
  writer : s.writer = .returned → s.gate ≠ .opened
  slots : ∀ slot ∈ s.readSlots, slot.Gated s.gate

/-- A receipt that was given out is waiting or answered, once, and the
writes ran in the order of their admission. -/
structure Booked (context : StoreContext) (d : Database) (s : Runtime) : Prop where
  once : ∀ receipt,
    (s.copies receipt).1 + (s.copies receipt).2 = (List.range s.issued).count receipt
  connection : s.connection = replay context d s.ran
  order : (s.ran ++ (s.writer.current ++ s.writerQueue)).Sublist s.admitted

structure Sound (context : StoreContext) (d : Database) (s : Runtime) : Prop
  extends Gated s, Booked context d s

variable {s : Runtime} {context : StoreContext} {d : Database} {slot slot' : ReadSlot} {i : ℕ}

theorem gated_failLocked (s : Runtime) : Gated s.failLocked := by
  have hfailed : s.failLocked.gate ≠ .opened := fun h => by cases h
  refine ⟨Nat.zero_le _, fun _ => rfl, fun _ => hfailed, fun slot hslot => ?_⟩
  obtain ⟨slot, -, rfl⟩ := List.mem_map.1 hslot
  exact ⟨fun _ => rfl, fun _ => ⟨hfailed, rfl⟩, fun _ _ => rfl⟩

theorem map_fst_refusals {Job : Type} (error : StoreError) (envelopes : List (Envelope Job)) :
    (Runtime.refusals error envelopes).map Prod.fst = envelopes.map Envelope.result := by
  simp [Runtime.refusals]

/-- Failing drains the queue and the slots into the answers. -/
theorem Booked.failLocked (h : Booked context d s) : Booked context d s.failLocked where
  once receipt := by
    have hslots : total (fun slot => slot.held.count receipt)
          (s.readSlots.map fun slot => { slot with assigned := none }) +
        ((s.readSlots.filterMap ReadSlot.assigned).map Envelope.result).count receipt =
          total (fun slot => slot.held.count receipt) s.readSlots := by
      induction s.readSlots with
      | nil => rfl
      | cons slot slots ih =>
        cases hassigned : slot.assigned <;>
          simp [ReadSlot.held, hassigned, List.count_cons] at ih ⊢ <;> omega
    have honce := h.once receipt
    simp only [Runtime.failLocked, Runtime.copies, List.map_append, map_fst_refusals,
      List.count_append, List.map_nil, List.count_nil] at honce ⊢
    omega
  connection := h.connection
  order := (((List.nil_sublist _).append_left _).append_left _).trans h.order

/-- A slot that holds the same receipts may be written. -/
theorem Booked.setSlot (h : Booked context d s) (hslot : s.readSlots[i]? = some slot)
    (hheld : slot'.held = slot.held) :
    Booked context d { s with readSlots := s.readSlots.set i slot' } :=
  { h with
    once := fun receipt => by
      have honce := h.once receipt
      have hset := total_set (fun slot => slot.held.count receipt) hslot slot'
      simp only [Runtime.copies, hheld] at honce hset ⊢
      omega }

/-- A receipt that is answered is no longer held. -/
theorem Booked.sent (h : Booked context d s) {receipt : ℕ} (result : CommandResult)
    (hslot : s.readSlots[i]? = some slot) (hheld : slot.held = [receipt] ++ slot'.held) :
    Booked context d { s with
      readSlots := s.readSlots.set i slot'
      answers := s.answers ++ [(receipt, result)] } :=
  { h with
    once := fun x => by
      have honce := h.once x
      have hset := total_set (fun slot => slot.held.count x) hslot slot'
      simp only [Runtime.copies, hheld, List.map_append, List.map_singleton, List.count_append]
        at honce hset ⊢
      omega }

theorem Sound.writerTurn (h : Sound context d s) (result : CommandResult) (committed : Bool) :
    Sound context d (s.writerTurn context result committed) := by
  unfold Runtime.writerTurn
  have honce := h.once
  have horder := h.order
  unfold Runtime.copies at honce
  split
  · next hwriter =>
    rw [hwriter] at honce horder
    split
    · split
      · exact h
      · next hgate => exact { h with writer := fun _ => hgate, once := honce, order := horder }
    · next envelope rest hqueue =>
      have hcapacity := h.capacity
      have hclosed := h.closed
      rw [hqueue] at hcapacity hclosed honce horder
      exact { h with
        capacity := Nat.le_of_succ_le hcapacity
        closed := fun hgate => by cases hclosed hgate
        writer := fun hreturned => by cases hreturned
        once := honce
        order := horder }
  · next envelope hwriter =>
    rw [hwriter] at honce horder
    have honce' : ∀ receipt, ((s.writerQueue.map Envelope.result).count receipt +
        total (fun slot => slot.held.count receipt) s.readSlots) +
          ((s.answers ++ [(envelope.result, result)]).map Prod.fst).count receipt =
            (List.range s.issued).count receipt := by
      intro receipt
      have honce := honce receipt
      simp only [Worker.current, List.map_append, List.map_singleton, List.count_append] at honce ⊢
      omega
    cases committed with
    | false =>
      exact { h with
        writer := fun hreturned => by cases hreturned
        once := honce'
        order := ((List.sublist_cons_self envelope _).append_left _).trans horder }
    | true =>
      exact { h with
        writer := fun hreturned => by cases hreturned
        once := honce'
        connection := by simp [replay, h.connection]
        order := by simpa [Worker.current] using horder }
  · next hwriter =>
    have hbooked := h.toBooked.failLocked
    have honce := hbooked.once
    have horder := hbooked.order
    simp only [Runtime.copies, Runtime.failLocked, hwriter] at honce horder
    exact { gated_failLocked s, hbooked with
      writer := fun _ h => by cases h
      once := honce
      order := horder }
  · next hwriter =>
    rw [hwriter] at honce horder
    exact { h with
      writer := fun hreturned => by cases hreturned
      once := honce
      order := horder }
  · exact h

theorem Sound.readerTurn (h : Sound context d s) (i : ℕ) (result : CommandResult) :
    Sound context d (s.readerTurn i result) := by
  simp only [Runtime.readerTurn]
  split
  · exact h
  · next slot hslot =>
    obtain ⟨hfailed, -, hreported⟩ := h.slots slot (List.mem_of_getElem? hslot)
    split
    · next hworker =>
      split
      · next hnone =>
        split
        · exact h
        · next hgate =>
          exact { h.toBooked.setSlot hslot (by rw [ReadSlot.held, ReadSlot.held, hworker]), h with
            slots := forall_mem_set h.slots
              ⟨hfailed, fun _ => ⟨hgate, hnone⟩, fun _ h => by cases h⟩ }
      · next envelope hassigned =>
        exact { h.toBooked.setSlot hslot
            (by rw [ReadSlot.held, ReadSlot.held, hworker, hassigned]; rfl), h with
          slots := forall_mem_set h.slots
            ⟨fun _ => rfl, fun h => (by cases h), fun _ h => by cases h⟩ }
    · next envelope hworker =>
      have hheld : ReadSlot.held ⟨slot.assigned, false, .finished envelope result⟩ = slot.held := by
        rw [ReadSlot.held, ReadSlot.held, hworker]
      have hbooked := h.toBooked.setSlot hslot hheld
      split
      · exact { gated_failLocked _, hbooked.failLocked with }
      · next hfatal =>
        exact { hbooked, h with
          slots := forall_mem_set h.slots ⟨hfailed, fun h => (by cases h),
            fun _ h => absurd (Worker.finished.inj h).2 hfatal⟩ }
    · next envelope result hworker =>
      split
      · next hfatal =>
        have hgate := hreported envelope (hfatal ▸ hworker)
        exact { h.toBooked.sent result hslot (by rw [ReadSlot.held, hworker]; rfl), h with
          slots := forall_mem_set h.slots
            ⟨hfailed, fun _ => ⟨by rw [hgate]; decide, hfailed hgate⟩, fun _ h => by cases h⟩ }
      · exact { h.toBooked.sent result hslot (by rw [ReadSlot.held, hworker]; rfl), h with
          slots := forall_mem_set h.slots
            ⟨hfailed, fun h => (by cases h), fun _ h => by cases h⟩ }
    · exact h

/-- **Every step keeps the gate and the books.** -/
theorem Sound.step (h : Sound context d s) (action : Action) :
    Sound context d (s.step context action) := by
  cases action with
  | enqueueWriter job =>
    simp only [Runtime.step, Runtime.enqueueWriter]
    split
    · exact h
    · exact h
    · next hgate =>
      split
      · exact h
      · next hroom =>
        have hcapacity := h.capacity
        exact { h with
          capacity := by
            simp only [List.length_append, List.length_singleton]
            omega
          closed := absurd hgate
          once := fun receipt => by
            have honce := h.once receipt
            simp only [Runtime.copies, List.map_append, List.map_singleton, List.count_append,
              List.range_succ] at honce ⊢
            omega
          order := by
            rw [← List.append_assoc, ← List.append_assoc, List.append_assoc s.ran]
            exact h.order.append (.refl _) }
  | submitRead =>
    simp only [Runtime.step, Runtime.submitRead]
    split
    · exact h
    · exact h
    · next hgate =>
      split
      · exact h
      · next slot i hfind =>
        have hslot := List.mem_zipIdx_iff_getElem?.1 (List.mem_of_find?_eq_some hfind)
        have hfree : slot.assigned = none ∧ slot.running = false := by
          simpa using List.find?_some hfind
        have hgated := h.slots slot (List.mem_of_getElem? hslot)
        exact { h with
          slots := forall_mem_set h.slots
            ⟨fun hfailed => absurd (hgate.symm.trans hfailed) (by decide),
              fun hreturned => absurd hgate (hgated.returned hreturned).1, hgated.reported⟩
          once := fun receipt => by
            have honce := h.once receipt
            have hset := total_set (fun slot => slot.held.count receipt) hslot
              { slot with assigned := some ⟨(), s.issued⟩ }
            simp only [Runtime.copies, List.range_succ, List.count_append] at honce ⊢
            simp only [ReadSlot.held, hfree.1, Option.toList, List.map_nil, List.map_cons,
              List.count_append, List.count_nil] at honce hset ⊢
            omega }
  | failCurrentRuntime => exact { gated_failLocked s, h.toBooked.failLocked with }
  | shutdown =>
    simp only [Runtime.step, Runtime.shutdown]
    split
    · next hgate =>
      exact { h with
        capacity := Nat.zero_le _
        closed := fun _ => rfl
        writer := fun _ h => by cases h
        slots := fun slot hslot => by
          obtain ⟨-, hreturned, hreported⟩ := h.slots slot hslot
          rw [hgate] at hreturned hreported
          exact ⟨fun h => (by cases h), fun h => absurd rfl (hreturned h).1,
            fun envelope h => by cases hreported envelope h⟩
        once := fun receipt => by
          have honce := h.once receipt
          simp only [Runtime.copies, List.map_append, map_fst_refusals, List.count_append,
            List.map_nil, List.count_nil] at honce ⊢
          omega
        order := (((List.nil_sublist _).append_left _).append_left _).trans h.order }
    · exact h
  | writer result committed => exact h.writerTurn result committed
  | reader i result => exact h.readerTurn i result

/-- **And so does every run**, whatever the order of its steps. -/
theorem sound_run (context : StoreContext) (capacity readers : ℕ) (d : Database)
    (actions : List Action) :
    Sound context d ((Runtime.start capacity readers d).run context actions) := by
  have hstart : Sound context d (.start capacity readers d) :=
    { capacity := Nat.zero_le _
      closed := fun _ => rfl
      writer := fun h => by cases h
      slots := fun slot hslot => by
        rw [List.eq_of_mem_replicate hslot]
        exact ⟨fun _ => rfl, fun h => (by cases h), fun _ h => by cases h⟩
      once := fun receipt => by
        have hslots : total (fun slot : ReadSlot => slot.held.count receipt)
            (List.replicate readers ⟨none, false, .ready⟩) = 0 :=
          total_eq_zero fun slot hslot => by rw [List.eq_of_mem_replicate hslot]; rfl
        simp [Runtime.start, Runtime.copies, Worker.current, hslots]
      connection := rfl
      order := .refl _ }
  generalize Runtime.start capacity readers d = s at hstart
  induction actions generalizing s with
  | nil => exact hstart
  | cons action actions ih => exact ih _ (hstart.step action)

/-- **Every receipt is answered once.** In every state of a runtime a receipt
that was given out is answered or waits for its answer, never both and never
twice; no other receipt is answered; and no request waits for a thread that
has returned. -/
theorem receipts_answered_once (context : StoreContext) (capacity readers : ℕ) (d : Database)
    (actions : List Action) :
    let s := (Runtime.start capacity readers d).run context actions
    (∀ receipt, (s.copies receipt).1 + (s.copies receipt).2 = if receipt < s.issued then 1 else 0) ∧
      s.writerQueue.length ≤ s.writerCapacity ∧
      (s.writer = .returned → s.writerQueue = []) ∧
      ∀ slot ∈ s.readSlots, slot.worker = .returned → slot.assigned = none := by
  intro s
  have h : Sound context d s := sound_run context capacity readers d actions
  refine ⟨fun receipt => ?_, h.capacity, fun hreturned => h.closed (h.writer hreturned),
    fun slot hslot hreturned => ((h.slots slot hslot).returned hreturned).2⟩
  rw [h.once, List.nodup_range.count]
  simp

theorem reachable_replay {allowed : Call → Prop} {ran : List (Envelope Call)}
    (hd : Reachable allowed d) (hran : ∀ envelope ∈ ran, allowed envelope.job) :
    Reachable allowed (replay context d ran) := by
  induction ran generalizing d with
  | nil => exact hd
  | cons envelope ran ih =>
    exact ih (.step context envelope.job hd (hran envelope List.mem_cons_self)) fun e he =>
      hran e (List.mem_cons_of_mem envelope he)

/-- **Writes are serialised.** Whatever the callers and the threads do, the
database is the one that the writes that ran lead to, one after another in
the order of their admission. -/
theorem writes_serialised (context : StoreContext) (capacity readers : ℕ) (d : Database)
    (actions : List Action) :
    let s := (Runtime.start capacity readers d).run context actions
    s.ran.Sublist s.admitted ∧ s.connection = replay context d s.ran ∧
      ∀ allowed, Reachable allowed d → (∀ envelope ∈ s.admitted, allowed envelope.job) →
        Reachable allowed s.connection := by
  intro s
  have h : Sound context d s := sound_run context capacity readers d actions
  have horder := (List.sublist_append_left _ _).trans h.order
  refine ⟨horder, h.connection, fun allowed hd hallowed => ?_⟩
  rw [h.connection]
  exact reachable_replay hd fun envelope hran => hallowed envelope (horder.subset hran)

end Lifecycle

end MengXia.Store
