import MengXia.Common.Totals
import MengXia.Common.Txn
import MengXia.Storage.Ingest
/-!
# Admission to the local blob storage

Ingests and materializations are admitted to the storage before they touch a
file: an admission takes one I/O slot and one hash slot and reserves its
declared bytes. The counters behind it are changed under one mutex, by
admissions, by the calls of their holders, and by releases. Here they are
shown to be exact in whatever order that happens and whatever the other calls
of the holders are answered, until the runtime fails.
-/

namespace MengXia.Storage

open Common

variable {i bytes : ℕ}

/-! ## The mutex and what it guards -/

/-- `RuntimeGate`. -/
inductive RuntimeGate where
  | running
  | closing
  | failed
  deriving DecidableEq

/-- `BlobStorageConfig`; its byte limits are of 64 bits. -/
structure BlobStorageConfig where
  storageIoConcurrency : ℕ
  hashConcurrency : ℕ
  maxConcurrentIngests : ℕ
  streamBufferBytes : ℕ
  maxIngestBytes : ℕ
  maxStagingBytes : ℕ
  minFreeBytes : ℕ
  minFreePercent : ℕ
  stagingBounded : maxStagingBytes < 2 ^ 64

/-- `BlobCapacity`. -/
structure BlobCapacity where
  availableBytes : ℕ
  totalBytes : ℕ

/-- `AdmissionState`. -/
structure AdmissionState where
  gate : RuntimeGate
  activeIngests : ℕ
  ioIdle : List Bool
  hashIdle : List Bool
  observedOrphanBytes : ℕ
  activeWrittenBytes : ℕ
  activeRemainingBytes : ℕ

/-- `Admission`. -/
structure Admission where
  ioIndex : ℕ
  hashIndex : ℕ
  declaredLength : ℕ

/-- `AdmissionPlan`. -/
structure AdmissionPlan where
  ioIndex : ℕ
  hashIndex : ℕ
  nextRemainingBytes : ℕ

/-- `u128::checked_add`. -/
def checkedAdd (a b : ℕ) : Option ℕ :=
  if a + b < 2 ^ 128 then some (a + b) else none

/-- `u128::checked_sub`. -/
def checkedSub (a b : ℕ) : Option ℕ :=
  if b ≤ a then some (a - b) else none

/-- `reserve_bytes`. -/
def reserveBytes (config : BlobStorageConfig) (total : ℕ) : Option ℕ :=
  if total * config.minFreePercent + 99 < 2 ^ 128 then
    some (max ((total * config.minFreePercent + 99) / 100) config.minFreeBytes)
  else none

/-- `plan_admission`. -/
def planAdmission (state : AdmissionState) (config : BlobStorageConfig) (declaredLength : ℕ)
    (capacity : Except BlobStorageError BlobCapacity) : Except BlobStorageError AdmissionPlan :=
  match state.gate with
  | .closing => .error .shuttingDown
  | .failed => .error .internal
  | .running =>
    if config.maxIngestBytes < declaredLength then .error .validation
    else do
      let orphanRequest ← okOr .internal (checkedAdd state.observedOrphanBytes declaredLength)
      if config.maxStagingBytes < orphanRequest then .error .recoveryRequired
      else do
        let ioIndex ← okOr .backpressure (state.ioIdle.findIdx? fun idle => idle)
        let hashIndex ← okOr .backpressure (state.hashIdle.findIdx? fun idle => idle)
        if state.activeIngests = config.maxConcurrentIngests then .error .backpressure
        else do
          let logical ← okOr .internal <|
            (checkedAdd state.observedOrphanBytes state.activeWrittenBytes).bind fun sum =>
              (checkedAdd sum state.activeRemainingBytes).bind fun sum =>
                checkedAdd sum declaredLength
          if config.maxStagingBytes < logical then .error .backpressure
          else do
            let capacity ← capacity
            let required ← okOr .internal <|
              (reserveBytes config capacity.totalBytes).bind fun reserve =>
                (checkedAdd reserve state.activeRemainingBytes).bind fun sum =>
                  checkedAdd sum declaredLength
            if capacity.availableBytes < required then .error .backpressure
            else do
              let nextRemainingBytes ← okOr .internal
                (checkedAdd state.activeRemainingBytes declaredLength)
              return ⟨ioIndex, hashIndex, nextRemainingBytes⟩

/-- What `admit_shared` writes for a plan. -/
def AdmissionState.admitShared (state : AdmissionState) (plan : AdmissionPlan) : AdmissionState :=
  { state with
    activeIngests := state.activeIngests + 1
    ioIdle := state.ioIdle.set plan.ioIndex false
    hashIdle := state.hashIdle.set plan.hashIndex false
    activeRemainingBytes := plan.nextRemainingBytes }

/-- `check_write_capacity`. -/
def checkWriteCapacity (config : BlobStorageConfig) (state : AdmissionState)
    (capacity : Except BlobStorageError BlobCapacity) : Except BlobStorageError Unit :=
  match state.gate with
  | .closing => .error .shuttingDown
  | .failed => .error .internal
  | .running => do
    let capacity ← capacity
    let required ← okOr .internal <| (reserveBytes config capacity.totalBytes).bind fun reserve =>
      checkedAdd reserve state.activeRemainingBytes
    if capacity.availableBytes < required then .error .io else .ok ()

/-- `update_written`. -/
def updateWritten (state : AdmissionState) (bytes : ℕ) :
    Except BlobStorageError Unit × AdmissionState :=
  match checkedSub state.activeRemainingBytes bytes with
  | none => (.error .internal, state)
  | some remaining =>
    match checkedAdd state.activeWrittenBytes bytes with
    | none => (.error .internal, { state with activeRemainingBytes := remaining })
    | some written =>
      (.ok (), { state with activeRemainingBytes := remaining, activeWrittenBytes := written })

/-- The accounting of `process_ingest` for a staging file that is left behind. -/
def accountCorruption (state : AdmissionState) (declaredLength : ℕ) :
    Except BlobStorageError Unit × AdmissionState :=
  match checkedAdd state.observedOrphanBytes declaredLength with
  | none => (.error .internal, state)
  | some orphan => (.ok (), { state with observedOrphanBytes := orphan })

/-- `release_admission_state`. -/
def releaseAdmissionState (state : AdmissionState) (admission : Admission) (written : ℕ)
    (fatal : Bool) : AdmissionState :=
  match (checkedSub admission.declaredLength written).bind
      (checkedSub state.activeRemainingBytes), checkedSub state.activeWrittenBytes written,
      checkedSub state.activeIngests 1 with
  | some remaining, some written, some active =>
    { state with
      activeRemainingBytes := remaining
      activeWrittenBytes := written
      activeIngests := active
      ioIdle := state.ioIdle.set admission.ioIndex true
      hashIdle := state.hashIdle.set admission.hashIndex true
      gate := if fatal then .failed else state.gate }
  | _, _, _ =>
    { state with
      activeIngests := state.activeIngests - 1
      ioIdle := state.ioIdle.set admission.ioIndex true
      hashIdle := state.hashIdle.set admission.hashIndex true
      gate := .failed }

/-! ## The steps of the storage -/

/-- What an admission is for. -/
inductive Purpose where
  | ingest (expectedDigest : Option Digest)
  | materialization

/-- The holder of an admission. -/
def Purpose.holder (config : BlobStorageConfig) (declaredLength : ℕ) : Purpose → Holder
  | .ingest expectedDigest =>
    ingestHolder config.streamBufferBytes expectedDigest declaredLength
  | .materialization => materializationHolder

/-- A live admission, with what its holder has still to do and has counted. -/
structure Job where
  admission : Admission
  rest : Holder
  progress : Progress

/-- The guarded state and the admissions that are held. -/
structure Shared where
  state : AdmissionState
  live : List Job

/-- The atomic steps. A job is named by its place among the live ones. -/
inductive Action where
  | admitShared (declaredLength : ℕ) (purpose : Purpose)
    (capacity : Except BlobStorageError BlobCapacity)
  | call (job : ℕ) (capacity : Except BlobStorageError BlobCapacity)
    (choice : (op : IngestCall) → op.Answer)
  | release (job : ℕ)
  | unwind (job : ℕ)
  | fail
  | shutdown

/-- How a call of a holder is answered: from the guarded state where it takes
the mutex, by `choice` otherwise. -/
def answer (config : BlobStorageConfig) (declaredLength : ℕ)
    (capacity : Except BlobStorageError BlobCapacity) (choice : (op : IngestCall) → op.Answer)
    (state : AdmissionState) : (op : IngestCall) → op.Answer × AdmissionState
  | .checkWriteCapacity => (checkWriteCapacity config state capacity, state)
  | .updateWritten bytes => updateWritten state bytes
  | .accountCorruption => accountCorruption state declaredLength
  | op => (choice op, state)

/-- One step under the mutex. A holder releases its admission when it has
nothing left to do, or in `io_worker` when it unwinds. -/
def Shared.step (config : BlobStorageConfig) (s : Shared) : Action → Shared
  | .admitShared declaredLength purpose capacity =>
    match planAdmission s.state config declaredLength capacity with
    | .error _ => s
    | .ok plan => ⟨s.state.admitShared plan,
        s.live ++ [⟨⟨plan.ioIndex, plan.hashIndex, declaredLength⟩,
          purpose.holder config declaredLength, upTo 0⟩]⟩
  | .call i capacity choice =>
    match s.live[i]? with
    | some ⟨admission, .call op next, progress⟩ =>
      let answered := answer config admission.declaredLength capacity choice s.state op
      ⟨answered.2, s.live.set i ⟨admission, next answered.1, progress.after op answered.1⟩⟩
    | _ => s
  | .release i =>
    match s.live[i]? with
    | some ⟨admission, .done (written, fatal), _⟩ =>
      ⟨releaseAdmissionState s.state admission written fatal, s.live.eraseIdx i⟩
    | _ => s
  | .unwind i =>
    match s.live[i]? with
    | some job => ⟨releaseAdmissionState s.state job.admission 0 true, s.live.eraseIdx i⟩
    | none => s
  | .fail => { s with state := { s.state with gate := .failed } }
  | .shutdown =>
    if s.state.gate = .running then { s with state := { s.state with gate := .closing } } else s

/-- `LocalBlobStorage::start`, when it finds this much in the staging directory. -/
def Shared.start (config : BlobStorageConfig) (orphanBytes : ℕ) : Shared where
  state :=
    { gate := .running
      activeIngests := 0
      ioIdle := List.replicate config.storageIoConcurrency true
      hashIdle := List.replicate config.hashConcurrency true
      observedOrphanBytes := orphanBytes
      activeWrittenBytes := 0
      activeRemainingBytes := 0 }
  live := []

/-- What any interleaving of the steps leads to. -/
inductive Reached (config : BlobStorageConfig) : Shared → Prop where
  | start (orphanBytes : ℕ) (fits : orphanBytes ≤ config.maxStagingBytes) :
      Reached config (.start config orphanBytes)
  | step {s : Shared} (reached : Reached config s) (action : Action) :
      Reached config (s.step config action)

/-! ## What an admission found -/

theorem checkedAdd_eq_some {a b c : ℕ} (h : checkedAdd a b = some c) : c = a + b := by
  unfold checkedAdd at h
  obtain ⟨-, h⟩ := Option.ite_none_right_eq_some.1 h
  exact (Option.some.inj h).symm

theorem checkedSub_of_le {a b : ℕ} (h : b ≤ a) : checkedSub a b = some (a - b) :=
  if_pos h

/-- The slot that is chosen is idle. -/
theorem idle_of_findIdx? {idle : List Bool} {k : ℕ}
    (h : idle.findIdx? (fun idle => idle) = some k) : idle[k]? = some true := by
  obtain ⟨hk, htrue, -⟩ := List.findIdx?_eq_some_iff_getElem.1 h
  rw [List.getElem?_eq_getElem hk, htrue]

/-- The facts behind a plan. -/
structure Planned (state : AdmissionState) (config : BlobStorageConfig) (declaredLength : ℕ)
    (plan : AdmissionPlan) : Prop where
  running : state.gate = .running
  io : state.ioIdle[plan.ioIndex]? = some true
  hash : state.hashIdle[plan.hashIndex]? = some true
  concurrent : state.activeIngests ≠ config.maxConcurrentIngests
  staging : state.observedOrphanBytes + state.activeWrittenBytes + state.activeRemainingBytes +
    declaredLength ≤ config.maxStagingBytes
  remaining : plan.nextRemainingBytes = state.activeRemainingBytes + declaredLength

theorem planAdmission_ok {state : AdmissionState} {config : BlobStorageConfig}
    {declaredLength : ℕ} {capacity : Except BlobStorageError BlobCapacity} {plan : AdmissionPlan}
    (h : planAdmission state config declaredLength capacity = .ok plan) :
    Planned state config declaredLength plan := by
  unfold planAdmission at h
  split at h
  · cases h
  · cases h
  next hgate =>
    obtain ⟨-, h⟩ := refusal_eq_ok.1 h
    obtain ⟨_, -, h⟩ := exceptBind_eq_ok.1 h
    obtain ⟨-, h⟩ := refusal_eq_ok.1 h
    obtain ⟨ioIndex, hio, h⟩ := exceptBind_eq_ok.1 h
    obtain ⟨hashIndex, hhash, h⟩ := exceptBind_eq_ok.1 h
    obtain ⟨hconcurrent, h⟩ := refusal_eq_ok.1 h
    obtain ⟨logical, hlogical, h⟩ := exceptBind_eq_ok.1 h
    obtain ⟨hstaging, h⟩ := refusal_eq_ok.1 h
    obtain ⟨_, -, h⟩ := exceptBind_eq_ok.1 h
    obtain ⟨_, -, h⟩ := exceptBind_eq_ok.1 h
    obtain ⟨-, h⟩ := refusal_eq_ok.1 h
    obtain ⟨remaining, hremaining, h⟩ := exceptBind_eq_ok.1 h
    cases h
    obtain ⟨sum, hsum, hlogical⟩ := Option.bind_eq_some_iff.1 (okOr_eq_ok.1 hlogical)
    obtain ⟨sum', hsum', hlogical⟩ := Option.bind_eq_some_iff.1 hlogical
    have hsum := checkedAdd_eq_some hsum
    have hsum' := checkedAdd_eq_some hsum'
    have hlogical := checkedAdd_eq_some hlogical
    exact ⟨hgate, idle_of_findIdx? (okOr_eq_ok.1 hio), idle_of_findIdx? (okOr_eq_ok.1 hhash),
      hconcurrent, by omega, checkedAdd_eq_some (okOr_eq_ok.1 hremaining)⟩

/-! ## The counters are exact -/

/-- The bytes a job has counted. -/
abbrev Job.written (job : Job) : ℕ :=
  job.progress.written

/-- The bytes a job has declared and not yet counted. -/
abbrev Job.remaining (job : Job) : ℕ :=
  job.admission.declaredLength - job.written

/-- The slots and the bytes are those of the live admissions. -/
structure Counted (config : BlobStorageConfig) (s : Shared) : Prop where
  concurrent : s.live.length ≤ config.maxConcurrentIngests
  io : Held s.state.ioIdle (s.live.map fun job => job.admission.ioIndex)
  hash : Held s.state.hashIdle (s.live.map fun job => job.admission.hashIndex)
  remaining : s.state.activeRemainingBytes = total Job.remaining s.live
  written : s.state.activeWrittenBytes = total Job.written s.live

/-- **The accounting of live admissions is exact.** -/
structure Exact (config : BlobStorageConfig) (s : Shared) : Prop extends Counted config s where
  active : s.state.activeIngests = s.live.length
  staging : (∀ job ∈ s.live, job.progress.accounted = 0) →
    s.state.observedOrphanBytes + s.state.activeWrittenBytes + s.state.activeRemainingBytes ≤
      config.maxStagingBytes

/-- What a job has accounted for twice: as written, and as left behind. -/
def Job.twice (job : Job) : ℕ :=
  job.progress.accounted * job.admission.declaredLength

/-- A job has counted soundly, and goes on to. -/
structure Job.Sound (job : Job) : Prop where
  progress : job.progress.Sound job.admission.declaredLength
  rest : job.rest.Counts job.admission.declaredLength job.progress

/-- What every step keeps, of a runtime that has not failed. -/
structure Accounted (config : BlobStorageConfig) (s : Shared) : Prop
    extends Counted config s where
  reserved : s.state.activeWrittenBytes + s.state.activeRemainingBytes ≤ config.maxStagingBytes
  staging : s.state.observedOrphanBytes + s.state.activeWrittenBytes +
    s.state.activeRemainingBytes ≤ config.maxStagingBytes + total Job.twice s.live
  sound : ∀ job ∈ s.live, job.Sound

/-- The invariant of the storage. -/
structure Invariant (config : BlobStorageConfig) (s : Shared) : Prop where
  active : s.state.activeIngests = s.live.length
  accounted : s.state.gate ≠ .failed → Accounted config s

variable {config : BlobStorageConfig} {s : Shared}

theorem Invariant.exact (h : Invariant config s) (hgate : s.state.gate ≠ .failed) :
    Exact config s := by
  have haccounted := h.accounted hgate
  refine ⟨haccounted.toCounted, h.active, fun hnone => ?_⟩
  have htwice : total Job.twice s.live = 0 :=
    total_eq_zero fun job hjob => by simp [Job.twice, hnone job hjob]
  have hstaging := haccounted.staging
  omega

theorem Invariant.start {orphanBytes : ℕ} (h : orphanBytes ≤ config.maxStagingBytes) :
    Invariant config (.start config orphanBytes) := by
  refine ⟨rfl, fun _ => ⟨⟨Nat.zero_le _, Held.replicate _, Held.replicate _, rfl, rfl⟩,
    Nat.zero_le _, h, ?_⟩⟩
  intro job hjob
  cases hjob

theorem Purpose.holder_counts (purpose : Purpose) (declaredLength : ℕ) :
    (purpose.holder config declaredLength).Counts declaredLength (upTo 0) := by
  cases purpose with
  | ingest expectedDigest => exact ingestHolder_counts _ _ _
  | materialization => exact materializationHolder_counts _

theorem Accounted.admitShared {declaredLength : ℕ} {plan : AdmissionPlan} (h : Accounted config s)
    (purpose : Purpose) (hactive : s.state.activeIngests = s.live.length)
    (hplan : Planned s.state config declaredLength plan) :
    Accounted config ⟨s.state.admitShared plan,
      s.live ++ [⟨⟨plan.ioIndex, plan.hashIndex, declaredLength⟩,
        purpose.holder config declaredLength, upTo 0⟩]⟩ where
  concurrent := by
    have hconcurrent := h.concurrent
    have hroom := hplan.concurrent
    rw [List.length_append, List.length_singleton]
    omega
  io := by
    rw [List.map_append]
    exact h.io.take hplan.io
  hash := by
    rw [List.map_append]
    exact h.hash.take hplan.hash
  remaining := by
    rw [total_append, ← h.remaining]
    exact hplan.remaining
  written := by
    rw [total_append, ← h.written]
    rfl
  reserved := by
    have hstaging := hplan.staging
    have hremaining := hplan.remaining
    simp only [AdmissionState.admitShared]
    omega
  staging := by
    have hstaging := hplan.staging
    have hremaining := hplan.remaining
    simp only [AdmissionState.admitShared]
    omega
  sound := by
    intro job hjob
    rcases List.mem_append.1 hjob with hjob | hjob
    · exact h.sound job hjob
    · rw [List.mem_singleton.1 hjob]
      exact ⟨upTo_sound (Nat.zero_le _), purpose.holder_counts _⟩

/-- A live job is replaced by one that holds the same admission. -/
theorem map_set_of_admission {live : List Job} {job job' : Job} (f : Admission → ℕ)
    (hjob : live[i]? = some job) (h : job'.admission = job.admission) :
    (live.set i job').map (fun job => f job.admission) = live.map fun job => f job.admission := by
  refine List.ext_getElem? fun k => ?_
  simp only [List.getElem?_map, List.getElem?_set]
  split
  · next hk =>
    subst hk
    split
    · rw [hjob, Option.map_some, Option.map_some, h]
    · next hlen => rw [List.getElem?_eq_none (Nat.le_of_not_lt hlen)]
  · rfl

/-- A job goes on under the admission it holds: the counters follow it. -/
theorem Accounted.replace {job job' : Job} {state : AdmissionState} (h : Accounted config s)
    (hjob : s.live[i]? = some job) (hadmission : job'.admission = job.admission)
    (hsound : job'.Sound) (hio : state.ioIdle = s.state.ioIdle)
    (hhash : state.hashIdle = s.state.hashIdle)
    (hremaining : state.activeRemainingBytes + job.remaining =
      s.state.activeRemainingBytes + job'.remaining)
    (hwritten : state.activeWrittenBytes + job.written = s.state.activeWrittenBytes + job'.written)
    (hstaging : state.observedOrphanBytes + state.activeWrittenBytes +
        state.activeRemainingBytes + job.twice ≤ s.state.observedOrphanBytes +
      s.state.activeWrittenBytes + s.state.activeRemainingBytes + job'.twice) :
    Accounted config ⟨state, s.live.set i job'⟩ where
  concurrent := by
    rw [List.length_set]
    exact h.concurrent
  io := by
    rw [map_set_of_admission Admission.ioIndex hjob hadmission, hio]
    exact h.io
  hash := by
    rw [map_set_of_admission Admission.hashIndex hjob hadmission, hhash]
    exact h.hash
  remaining := by
    have htotal := total_set Job.remaining hjob job'
    have hbefore := h.remaining
    simp only at htotal ⊢
    omega
  written := by
    have htotal := total_set Job.written hjob job'
    have hbefore := h.written
    simp only
    omega
  reserved := by
    have hwithin := (h.sound job (List.mem_of_getElem? hjob)).progress.within
    have hwithin' := hsound.progress.within
    have hbefore := h.reserved
    simp only [Job.remaining, Job.written, hadmission] at hremaining hwritten hwithin' ⊢
    omega
  staging := by
    have htotal := total_set Job.twice hjob job'
    have hbefore := h.staging
    simp only
    omega
  sound := forall_mem_set h.sound hsound

/-- A job that is released takes its share of every counter with it. -/
theorem Accounted.release {job : Job} {state : AdmissionState} (h : Accounted config s)
    (hjob : s.live[i]? = some job)
    (hio : state.ioIdle = s.state.ioIdle.set job.admission.ioIndex true)
    (hhash : state.hashIdle = s.state.hashIdle.set job.admission.hashIndex true)
    (horphan : state.observedOrphanBytes = s.state.observedOrphanBytes)
    (hremaining : state.activeRemainingBytes + job.remaining = s.state.activeRemainingBytes)
    (hwritten : state.activeWrittenBytes + job.written = s.state.activeWrittenBytes) :
    Accounted config ⟨state, s.live.eraseIdx i⟩ := by
  have hperm := perm_cons_eraseIdx hjob
  have hsound := h.sound job (List.mem_of_getElem? hjob)
  refine ⟨⟨?_, ?_, ?_, ?_, ?_⟩, ?_, ?_, ?_⟩
  · exact Nat.le_trans (List.length_eraseIdx_le _ _) h.concurrent
  · rw [hio]
    exact (h.io.perm (hperm.map _)).give
  · rw [hhash]
    exact (h.hash.perm (hperm.map _)).give
  · have htotal := total_eraseIdx Job.remaining hjob
    have hbefore := h.remaining
    simp only at htotal ⊢
    omega
  · have htotal := total_eraseIdx Job.written hjob
    have hbefore := h.written
    simp only
    omega
  · have hbefore := h.reserved
    simp only
    omega
  · -- What it had accounted for twice is now accounted for once.
    have htotal := total_eraseIdx Job.twice hjob
    have hbefore := h.staging
    have htwice : job.twice ≤ job.written := by
      unfold Job.twice
      rcases Nat.le_one_iff_eq_zero_or_eq_one.1 hsound.progress.once with hzero | hone
      · rw [hzero, Nat.zero_mul]
        exact Nat.zero_le _
      · rw [hone, Nat.one_mul]
        exact (hsound.progress.complete hone).ge
    simp only
    omega
  · intro other hother
    exact h.sound other (List.mem_of_mem_eraseIdx hother)

/-! ## Steps -/

theorem Invariant.admitShared (h : Invariant config s) (declaredLength : ℕ) (purpose : Purpose)
    (capacity : Except BlobStorageError BlobCapacity) :
    Invariant config (s.step config (.admitShared declaredLength purpose capacity)) := by
  simp only [Shared.step]
  split
  · exact h
  next plan hplan =>
    have hplanned := planAdmission_ok hplan
    have hgate : s.state.gate ≠ .failed := by
      rw [hplanned.running]
      decide
    refine ⟨?_, fun _ => (h.accounted hgate).admitShared purpose h.active hplanned⟩
    rw [List.length_append, ← h.active]
    rfl

/-- Written bytes are counted: the check of `update_written` passes. -/
theorem Accounted.updateWritten {job : Job} (h : Accounted config s) (hjob : s.live[i]? = some job)
    (hwithin : job.written + bytes ≤ job.admission.declaredLength) :
    bytes ≤ s.state.activeRemainingBytes ∧ Storage.updateWritten s.state bytes =
      (.ok (), { s.state with
        activeRemainingBytes := s.state.activeRemainingBytes - bytes
        activeWrittenBytes := s.state.activeWrittenBytes + bytes }) := by
  have hshare : job.admission.declaredLength - job.written ≤ s.state.activeRemainingBytes := by
    rw [h.remaining]
    exact le_total (f := Job.remaining) (List.mem_of_getElem? hjob)
  have hbytes : bytes ≤ s.state.activeRemainingBytes := by omega
  have hbounded : s.state.activeWrittenBytes + bytes < 2 ^ 128 := by
    have hreserved := h.reserved
    have hlimit := config.stagingBounded
    omega
  refine ⟨hbytes, ?_⟩
  unfold Storage.updateWritten
  rw [checkedSub_of_le hbytes]
  simp only [checkedAdd, if_pos hbounded]

section Calls

variable {op : IngestCall} {capacity : Except BlobStorageError BlobCapacity}
  {choice : (op : IngestCall) → op.Answer}

/-- No call of a holder moves the gate or admits. -/
theorem answer_fields {state : AdmissionState} {declaredLength : ℕ} :
    (answer config declaredLength capacity choice state op).2.gate = state.gate ∧
      (answer config declaredLength capacity choice state op).2.activeIngests =
        state.activeIngests := by
  cases op with
  | updateWritten bytes =>
    simp only [answer, updateWritten]
    split
    · exact ⟨rfl, rfl⟩
    · split <;> exact ⟨rfl, rfl⟩
  | accountCorruption =>
    simp only [answer, accountCorruption]
    split <;> exact ⟨rfl, rfl⟩
  | _ => exact ⟨rfl, rfl⟩

/-- **The counters follow a holder through its calls.** -/
theorem Accounted.call {admission : Admission} {next : op.Answer → Holder} {progress : Progress}
    (h : Accounted config s) (hjob : s.live[i]? = some ⟨admission, .call op next, progress⟩) :
    let answered := answer config admission.declaredLength capacity choice s.state op
    Accounted config ⟨answered.2,
      s.live.set i ⟨admission, next answered.1, progress.after op answered.1⟩⟩ := by
  have hnext := (h.sound _ (List.mem_of_getElem? hjob)).rest.next
  have hsound (reply : op.Answer) : Job.Sound ⟨admission, next reply, progress.after op reply⟩ :=
    ⟨(hnext reply).1, (hnext reply).2⟩
  cases op with
  | updateWritten bytes =>
    have hwithin : progress.written + bytes ≤ admission.declaredLength := (hnext (.ok ())).1.within
    obtain ⟨hbytes, hrun⟩ := h.updateWritten hjob hwithin
    simp only [answer, hrun]
    refine h.replace hjob rfl (hsound _) rfl rfl ?_ ?_ ?_
    · simp only [Job.remaining, Job.written, Progress.after]
      omega
    · simp only [Job.written, Progress.after]
      omega
    · simp only [Job.twice, Progress.after]
      omega
  | accountCorruption =>
    simp only [answer, accountCorruption]
    cases horphan : checkedAdd s.state.observedOrphanBytes admission.declaredLength with
    | none => exact h.replace hjob rfl (hsound _) rfl rfl rfl rfl (Nat.le_refl _)
    | some orphan =>
      have horphan := checkedAdd_eq_some horphan
      have honce : progress.accounted + 1 ≤ 1 := (hnext (.ok ())).1.once
      refine h.replace hjob rfl (hsound _) rfl rfl rfl rfl ?_
      simp only [Job.twice, Progress.after, Nat.le_zero.1 (Nat.le_of_add_le_add_right honce)]
      omega
  | _ => exact h.replace hjob rfl (hsound _) rfl rfl rfl rfl (Nat.le_refl _)

theorem Invariant.call (h : Invariant config s) :
    Invariant config (s.step config (.call i capacity choice)) := by
  simp only [Shared.step]
  split
  · next admission op next progress hjob =>
    refine ⟨?_, fun hgate => (h.accounted ?_).call hjob⟩
    · rw [List.length_set]
      exact answer_fields.2.trans h.active
    · rwa [answer_fields.1] at hgate
  · exact h

end Calls

/-- A release that keeps the runtime up takes exactly the share of the job. -/
theorem Accounted.releaseAdmissionState {job : Job} (h : Accounted config s)
    (hactive : s.state.activeIngests = s.live.length) (hjob : s.live[i]? = some job) :
    releaseAdmissionState s.state job.admission job.written false =
      { s.state with
        activeRemainingBytes := s.state.activeRemainingBytes - job.remaining
        activeWrittenBytes := s.state.activeWrittenBytes - job.written
        activeIngests := s.state.activeIngests - 1
        ioIdle := s.state.ioIdle.set job.admission.ioIndex true
        hashIdle := s.state.hashIdle.set job.admission.hashIndex true } ∧
      job.remaining ≤ s.state.activeRemainingBytes ∧ job.written ≤ s.state.activeWrittenBytes := by
  have hmem := List.mem_of_getElem? hjob
  have hremaining : job.remaining ≤ s.state.activeRemainingBytes := by
    rw [h.remaining]
    exact le_total hmem
  have hwritten : job.written ≤ s.state.activeWrittenBytes := by
    rw [h.written]
    exact le_total hmem
  have hone : 1 ≤ s.state.activeIngests := by
    rw [hactive]
    exact List.length_pos_of_mem hmem
  refine ⟨?_, hremaining, hwritten⟩
  unfold Storage.releaseAdmissionState
  rw [checkedSub_of_le (h.sound job hmem).progress.within, Option.bind_some,
    checkedSub_of_le hremaining, checkedSub_of_le hwritten, checkedSub_of_le hone]
  rfl

theorem releaseAdmissionState_activeIngests (state : AdmissionState) (admission : Admission)
    (written : ℕ) (fatal : Bool) :
    (releaseAdmissionState state admission written fatal).activeIngests =
      state.activeIngests - 1 := by
  unfold releaseAdmissionState
  split
  next hactive =>
    unfold checkedSub at hactive
    obtain ⟨-, hactive⟩ := Option.ite_none_right_eq_some.1 hactive
    exact (Option.some.inj hactive).symm
  · rfl

/-- A release never reopens the gate, and a fatal one closes it for good. -/
theorem releaseAdmissionState_gate (state : AdmissionState) (admission : Admission)
    (written : ℕ) (fatal : Bool) (h : fatal = true ∨ state.gate = .failed) :
    (releaseAdmissionState state admission written fatal).gate = .failed := by
  unfold releaseAdmissionState
  split
  · rcases h with rfl | h
    · rfl
    · simp only [h, ite_self]
  · rfl

theorem Invariant.release {written : ℕ} {fatal : Bool} {job : Job} (h : Invariant config s)
    (hjob : s.live[i]? = some job) (hwritten : job.Sound → fatal = false → written = job.written) :
    Invariant config ⟨releaseAdmissionState s.state job.admission written fatal,
      s.live.eraseIdx i⟩ := by
  refine ⟨?_, fun hgate => ?_⟩
  · obtain ⟨hi, -⟩ := List.getElem?_eq_some_iff.1 hjob
    rw [releaseAdmissionState_activeIngests, List.length_eraseIdx_of_lt hi, h.active]
  · -- The runtime is still up, so the release was an orderly one.
    have horderly : ¬(fatal = true ∨ s.state.gate = .failed) := fun hfailed =>
      hgate (releaseAdmissionState_gate s.state job.admission written fatal hfailed)
    have hfatal : fatal = false := by
      cases fatal with
      | true => exact absurd (.inl rfl) horderly
      | false => rfl
    have haccounted := h.accounted fun hfailed => horderly (.inr hfailed)
    obtain ⟨hstate, hremaining, hbytes⟩ := haccounted.releaseAdmissionState h.active hjob
    rw [hwritten (haccounted.sound job (List.mem_of_getElem? hjob)) hfatal, hfatal, hstate]
    refine haccounted.release hjob rfl rfl rfl ?_ ?_
    · simp only
      omega
    · simp only
      omega

/-- **The invariant holds however the steps are interleaved.** -/
theorem Reached.invariant (h : Reached config s) : Invariant config s := by
  induction h with
  | start orphanBytes fits => exact .start fits
  | step reached action ih =>
    cases action with
    | admitShared declaredLength purpose capacity => exact ih.admitShared _ _ _
    | call i capacity choice => exact ih.call
    | release i =>
      simp only [Shared.step]
      split
      · next hjob => exact ih.release hjob fun hsound => hsound.rest
      · exact ih
    | unwind i =>
      simp only [Shared.step]
      split
      · next hjob => exact ih.release hjob fun _ hfatal => by cases hfatal
      · exact ih
    | fail => exact ⟨ih.active, fun hgate => absurd rfl hgate⟩
    | shutdown =>
      simp only [Shared.step]
      split
      next hrunning =>
        refine ⟨ih.active, fun _ => ?_⟩
        have haccounted := ih.accounted (by rw [hrunning]; decide)
        exact { haccounted with }
      · exact ih

theorem Reached.steps (h : Reached config s) (actions : List Action) :
    Reached config (actions.foldl (Shared.step config) s) := by
  induction actions generalizing s with
  | nil => exact h
  | cons action actions ih => exact ih (h.step action)

/-- A failed runtime stays failed. -/
theorem step_failed {s : Shared} (h : s.state.gate = .failed) (action : Action) :
    (s.step config action).state.gate = .failed := by
  cases action with
  | admitShared declaredLength purpose capacity =>
    simp only [Shared.step]
    split
    · exact h
    · exact h
  | call i capacity choice =>
    simp only [Shared.step]
    split
    · exact answer_fields.1.trans h
    · exact h
  | release i =>
    simp only [Shared.step]
    split
    · exact releaseAdmissionState_gate _ _ _ _ (.inr h)
    · exact h
  | unwind i =>
    simp only [Shared.step]
    split
    · exact releaseAdmissionState_gate _ _ _ _ (.inr h)
    · exact h
  | fail => rfl
  | shutdown =>
    simp only [Shared.step]
    split
    · next hrunning =>
      rw [h] at hrunning
      cases hrunning
    · exact h

/-- **Storage admission is accounted for exactly**, in any interleaving: the
number of live admissions always, their slots, their bytes and the staging
limit until the runtime fails, which it does for good. -/
theorem admission_accounting_exact (h : Reached config s) :
    (s.state.gate ≠ .failed → Exact config s) ∧
      s.state.activeIngests = s.live.length ∧
      ∀ action : Action, s.state.gate = .failed →
        (s.step config action).state.gate = .failed :=
  ⟨h.invariant.exact, h.invariant.active, fun action hfailed => step_failed hfailed action⟩

/-- A storage with one slot. -/
def oneSlot : BlobStorageConfig :=
  ⟨1, 1, 1, 2 ^ 20, 100, 100, 0, 0, by decide⟩

/-- Calls that are answered well, with four bytes read or written at a time. -/
def fourBytes : (op : IngestCall) → op.Answer
  | .checkpoint => .ok none
  | .readAt .. | .writeAt .. => .ok 4
  | .dispatchAdmitted | .createStaging | .hashBegin | .hashChunk _ => .ok ()
  | _ => .error .internal

/-- An ingest of ten bytes that has written four of them. -/
def halfway : Shared :=
  (List.replicate 14 (Action.call 0 (.ok ⟨1000, 1000⟩) fourBytes)).foldl (Shared.step oneSlot)
    ((Shared.start oneSlot 3).step oneSlot (.admitShared 10 (.ingest none) (.ok ⟨1000, 1000⟩)))

/-- Halfway through an ingest the counters are exact, and six bytes remain. -/
theorem halfway_exact : Exact oneSlot halfway ∧ halfway.state.activeRemainingBytes = 6 ∧
    halfway.state.activeWrittenBytes = 4 := by
  have hreached : Reached oneSlot halfway :=
    (Reached.step (.start 3 (by decide)) _).steps _
  exact ⟨(admission_accounting_exact hreached).1 (by decide +kernel), by decide +kernel⟩

end MengXia.Storage
