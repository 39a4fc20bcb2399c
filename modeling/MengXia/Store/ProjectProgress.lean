import MengXia.Store.Custody
import MengXia.Store.Outcomes
/-!
# New projects

A new project is created whenever its identifiers are fresh and an event
number is left: the transaction writes the event, the project and its first
specification, and reads its own result back. Libraries of any number of
projects are reached by that.
-/

namespace MengXia

variable {n : ℕ} {entity : Entity} {source : ValueSource}

/-! ## Identifiers -/

/-- An identifier with a number in its random field and its time stamp,
which keeps more numbers apart than `Uuid.numbered`. -/
def Uuid.wide (n : ℕ) : Uuid where
  bits := BitVec.ofNat 128 (n / 2 ^ 62 % 2 ^ 48 * 2 ^ 80 + (7 * 2 ^ 76 + 2 * 2 ^ 62 + n % 2 ^ 62))
  isV7 := by
    have hlow : n % 2 ^ 62 < 2 ^ 62 := Nat.mod_lt _ (by decide)
    have hhigh : n / 2 ^ 62 % 2 ^ 48 < 2 ^ 48 := Nat.mod_lt _ (by decide)
    generalize n / 2 ^ 62 % 2 ^ 48 = high at hhigh
    generalize n % 2 ^ 62 = low at hlow
    have hlt : high * 2 ^ 80 + (7 * 2 ^ 76 + 2 * 2 ^ 62 + low) < 2 ^ 128 := by omega
    have h1 : (high * 2 ^ 80 + (7 * 2 ^ 76 + 2 * 2 ^ 62 + low)) / 2 ^ 76 % 16 = 7 := by omega
    have h2 : (high * 2 ^ 80 + (7 * 2 ^ 76 + 2 * 2 ^ 62 + low)) / 2 ^ 62 % 4 = 2 := by omega
    unfold isUuidV7
    rw [BitVec.toNat_ofNat, Nat.mod_eq_of_lt hlt, h1, h2]
    rfl

theorem Uuid.wide_inj {m : ℕ} (hm : m < 2 ^ 110) (hn : n < 2 ^ 110) (h : Uuid.wide m = Uuid.wide n)
    : m = n := by
  have hbits := congrArg (fun u : Uuid => u.bits.toNat) h
  simp only [Uuid.wide, BitVec.toNat_ofNat] at hbits
  omega

def Id.wide {entity : Entity} (n : ℕ) : Id entity :=
  ⟨Uuid.wide n⟩

theorem Id.wide_inj {m : ℕ} (hm : m < 2 ^ 110) (hn : n < 2 ^ 110)
    (h : (Id.wide m : Id entity) = Id.wide n) : m = n :=
  Uuid.wide_inj hm hn (congrArg Id.uuid h)

/-- A source that counts in wide identifiers. -/
def ValueSource.wide (start : ℕ) : ValueSource where
  nextUuid i := .ok (Uuid.wide (start + i)).bits
  now := .ok .epoch
  checkpoint := .ok ()

theorem ValueSource.generatedId_eq {i : ℕ} {u : Uuid} (h : source.nextUuid i = .ok u.bits) :
    source.generatedId i = .ok (⟨u⟩ : Id entity) := by
  have hread : Id.fromBits u.bits = some (⟨u⟩ : Id entity) := Id.fromBits_eq_some.2 rfl
  simp only [ValueSource.generatedId, h, hread]

@[simp] theorem ValueSource.generatedId_wide (start i : ℕ) :
    (ValueSource.wide start).generatedId i = .ok (Id.wide (start + i) : Id entity) :=
  ValueSource.generatedId_eq rfl

/-- A subject, created by command `n` with identifiers from `n` on. -/
def CreateSubjectCommand.wide (n : ℕ) : CreateSubjectCommand where
  binding := ⟨.wide n, .subjectCreate, ⟨0⟩⟩
  kind := .plain
  name := ⟨['s'], by decide⟩
  values := .wide n
  operation := rfl

/-- A project of a specification, created by command `n` with identifiers
from `n` on. -/
def CreateProjectCommand.wide (n : ℕ) (specification : ProjectSpecification) :
    CreateProjectCommand where
  binding := ⟨.wide n, .projectCreate, ⟨0⟩⟩
  name := (CreateProjectCommand.numbered n).name
  specification := specification
  values := .wide n
  operation := rfl

namespace Store

open Common Txn

variable {projectId : Id .project} {specId : Id .projectSpecRevision} {eventId : Id .domainEvent}
  {at_ : Timestamp} {d : Database}

theorem drawProject_eq (hproject : source.generatedId 0 = .ok projectId)
    (hspec : source.generatedId 1 = .ok specId) (hevent : source.generatedId 2 = .ok eventId)
    (hids : [projectId.uuid, specId.uuid, eventId.uuid].Nodup) (hnow : source.now = .ok at_)
    (hcheckpoint : source.checkpoint = .ok ()) :
    drawProject source = .ok (projectId, specId, eventId, at_) := by
  have hdistinct : distinct [projectId.uuid, specId.uuid, eventId.uuid] = .ok () := if_pos hids
  unfold drawProject
  simp only [hproject, hspec, hevent, hnow, hcheckpoint, hdistinct, bind, Except.bind, pure,
    Except.pure]

theorem drawProject_wide (hn : n + 2 < 2 ^ 110) :
    drawProject (.wide n) = .ok (.wide n, .wide (n + 1), .wide (n + 2), .epoch) := by
  have hne : ∀ {i j : ℕ}, i < j → j ≤ n + 2 → Uuid.wide i ≠ Uuid.wide j := by
    intro i j hlt hle h
    have := Uuid.wide_inj (by omega) (by omega) h
    omega
  refine drawProject_eq (ValueSource.generatedId_wide n 0) (ValueSource.generatedId_wide n 1)
    (ValueSource.generatedId_wide n 2) ?_ rfl rfl
  rw [List.nodup_cons, List.nodup_cons, List.mem_cons, List.mem_singleton, List.mem_singleton,
    not_or]
  exact ⟨⟨hne (by omega) (by omega), hne (by omega) (by omega)⟩, hne (by omega) (by omega),
    List.nodup_singleton _⟩

/-- The result of a project is read back from its row, its first
specification and its event. -/
theorem replayProject {t : Tables} {context : StoreContext} {request : CreateProjectCommand}
    {sequence : ℕ} {projects : List ProjectRow} {specs : List SpecRevisionRow}
    {events : List EventRow}
    (ht : t.projects = projects ++ [newProjectRow projectId specId request sequence at_])
    (hts : t.specRevisions = specs ++ [specRevisionRow specId projectId 1
      request.binding.commandId at_ request.specification])
    (hte : t.domainEvents = events ++ [domainEventRow eventId sequence request.binding
      .projectCreated .project projectId.uuid 1 none at_])
    (hproject : ∀ x ∈ projects, x.projectId ≠ projectId)
    (hspec : ∀ x ∈ specs, x.projectSpecRevisionId ≠ specId)
    (hevent : ∀ e ∈ events, e.commandId ≠ request.binding.commandId) :
    replayCreativeResult t ((claimRow context request.binding at_).complete .project
      projectId.uuid none (some (.project specId 1 1)) at_) =
        .ok (.versioned projectId.uuid (.project specId 1 1) at_) := by
  have hcount : eventCountAt t request.binding.commandId .projectCreated .project
      (.uuid projectId.uuid) 1 = 1 := by
    unfold eventCountAt
    rw [hte]
    refine countP_concat (fun e he => ?_) (by simp [domainEventRow])
    simp [hevent e he]
  have hrecorded : creativeResultRecorded t ((claimRow context request.binding at_).complete
      .project projectId.uuid none (some (.project specId 1 1)) at_) projectId.uuid
        (.project specId 1 1) = true := by
    simp only [creativeResultRecorded, createdRecorded, projectVersions, ht, hts]
    rw [select_concat (fun x hx => ?_) (by simp [newProjectRow]),
      select_concat (fun x hx => ?_) (by simp [newProjectRow, specRevisionRow])]
    · simp [newProjectRow, specRevisionRow, CommandRow.complete, claimRow, hcount]
    · simp [hspec x hx]
    · exact decide_eq_false fun h => hproject x hx (Id.uuid_injective h)
  unfold replayCreativeResult
  exact if_pos ⟨rfl, hrecorded, Nat.one_ne_zero⟩

/-- A request that creates a project: its values are drawn, nothing it names
is stored and an event number is left. -/
structure ProjectFits (t : Tables) (request : CreateProjectCommand) (projectId : Id .project)
    (specId : Id .projectSpecRevision) (eventId : Id .domainEvent) (at_ : Timestamp) : Prop where
  draw : drawProject request.values = .ok (projectId, specId, eventId, at_)
  command : FreshCommand t request.binding.commandId
  project : ∀ x ∈ t.projects, x.projectId ≠ projectId
  spec : ∀ x ∈ t.specRevisions, x.projectSpecRevisionId ≠ specId
  event : ∀ x ∈ t.domainEvents, x.domainEventId ≠ eventId
  policies : ∀ p ∈ (specRevisionRow specId projectId 1 request.binding.commandId at_
    request.specification).policies, 2 ≤ p.length ∧ p.length ≤ 65536
  left : SequencesLeft t 1

/-- **A new project is created** whenever an event number is left. -/
theorem wp_createProject (context : StoreContext) {request : CreateProjectCommand}
    (h : ProjectFits d request projectId specId eventId at_)
    (hnumbered : EventsNumbered d) (hkeys : DeferredKeys d) :
    wp (createProject context request)
      (fun _ d' => d'.toTables = d.withProject context request projectId specId eventId at_)
      (fun _ => False) d := by
  have hsequence : ∀ x ∈ d.domainEvents, x.commitSequence ≠ d.lastSequence + 1 := fun x hx =>
    Nat.ne_of_lt (Nat.lt_succ_of_le (hnumbered.le hx))
  refine wp_unlessKnown h.command ?_
  simp only [wp_bind, wp_lift, h.draw, Except.ok.injEq, reduceCtorEq, false_implies,
    implies_true, and_true]
  rintro _ rfl
  refine wp_insertClaim h.command fun d1 h1 => ?_
  refine wp_allocateEventSequences (by decide) (fun d2 _ h2 => ?_) fun hn => absurd ?_ hn
  · simp only [wp_bind, insertDomainEvent, insertEvent, insertProject, insertSpecRevision]
    rw [h1] at h2
    have hlast : d1.lastSequence = d.lastSequence := by rw [h1]
    refine wp_write_of (Or.inl ?_) fun d3 h3 _ => ?_
    · refine ⟨?_, ?_, ⟨Nat.le_add_left _ _, hlast ▸ h.left⟩, fun p hp => (by cases hp), ?_⟩
      · rw [h2]
        exact h.event
      · rw [h2, hlast]
        exact hsequence
      · rw [h2]
        exact ⟨_, List.mem_concat_self, rfl⟩
    · rw [h2, hlast] at h3
      refine wp_write_of (Or.inl ?_) fun d4 h4 _ => ?_
      · rw [h3, hlast]
        refine ⟨h.project, ?_, ⟨_, List.mem_concat_self, rfl⟩, _, List.mem_concat_self, rfl⟩
        exact fun x hx => d.consistent.projectEvents.ne_of_fresh hsequence hx
      · rw [h3, hlast] at h4
        refine wp_write_of (Or.inl ?_) fun d5 h5 _ => ?_
        · -- The project is new, so no specification of it is stored yet.
          rw [h4]
          refine ⟨h.spec, fun x hx heq => ?_, ⟨Nat.le_refl 1, Nat.one_lt_two_pow (by decide)⟩,
            h.policies, _, List.mem_concat_self, rfl⟩
          obtain ⟨p, hp, hid⟩ := hkeys.specProjects x hx
          exact h.project p hp (hid.trans (Prod.ext_iff.1 heq).1)
        · rw [h4] at h5
          have hclaimed : d5.commands = d.commands ++ [claimRow context request.binding at_] := by
            rw [h5]
          refine wp_completeClaim hclaimed h.command rfl (fun k hk => by cases hk) ?_ ?_
            (replayProject (by rw [h5]) (by rw [h5]) (by rw [h5]) h.project h.spec fun e he =>
              d.consistent.eventCommands.ne_of_fresh h.command he) fun d' hd' => ?_
          · exact (valid_complete (by rw [request.operation]; rfl) rfl).validate
          · rw [h5]
            exact ⟨forall_mem_append_singleton (hkeys.1.append_target _)
              ⟨_, List.mem_concat_self, rfl⟩, forall_mem_append_singleton
              (hkeys.2.append_target _) ⟨_, List.mem_concat_self, rfl⟩, hkeys.3, hkeys.4⟩
          · rw [hd', h5]
            rfl
  · rw [h1]
    exact h.left

/-- **A reachable library with one more project.** -/
theorem Reachable.exists_createProject {allowed : Call → Prop} (hd : Reachable allowed d)
    (context : StoreContext) {request : CreateProjectCommand}
    (hallowed : allowed (.execute (.createProject request)))
    (h : ProjectFits d request projectId specId eventId at_) :
    ∃ d', Reachable allowed d' ∧
      d'.toTables = d.withProject context request projectId specId eventId at_ := by
  obtain ⟨a, d', hrun, hd'⟩ := run_ok_of_wp (wp_createProject context h hd.eventsNumbered
    hd.deferredKeys)
  have hstep := hd.step context (.execute (.createProject request)) hallowed
  rw [Call.exec, run_void, PureCall.mutate, hrun] at hstep
  exact ⟨d', hstep, hd'⟩

/-! ## Any number of projects -/

theorem Id.wide_ne {i j : ℕ} (hij : i < j) (hj : j < 2 ^ 110) :
    (Id.wide i : Id entity) ≠ .wide j :=
  fun h => absurd (Id.wide_inj (hij.trans hj) hj h) (Nat.ne_of_lt hij)

/-- The project `k` of a library of projects, created by the command `3 * k`
with the identifiers from there on. -/
def nthProject (specification : ProjectSpecification) (k : ℕ) : ProjectRow :=
  newProjectRow (.wide (3 * k)) (.wide (3 * k + 1)) (.wide (3 * k) specification) (k + 1) .epoch

/-- Its specification. -/
def nthSpec (specification : ProjectSpecification) (k : ℕ) : SpecRevisionRow :=
  specRevisionRow (.wide (3 * k + 1)) (.wide (3 * k)) 1 (.wide (3 * k)) .epoch specification

/-- A library of `n` projects of one specification. -/
structure HoldsProjects (allowed : Call → Prop) (specification : ProjectSpecification) (n : ℕ)
    (d : Database) : Prop where
  reachable : Reachable allowed d
  sequence : d.lastSequence = n
  commands : ∀ r ∈ d.commands, ∃ k < n, r.commandId = .wide (3 * k)
  events : ∀ r ∈ d.domainEvents, ∃ k < n, r.domainEventId = .wide (3 * k + 2)
  projects : d.projects = (List.range n).map (nthProject specification)
  specs : d.specRevisions = (List.range n).map (nthSpec specification)

variable {allowed : Call → Prop} {specification : ProjectSpecification}

/-- One more project. -/
theorem HoldsProjects.succ (h : HoldsProjects allowed specification n d) (hn : n + 1 < 2 ^ 63)
    (hallowed : ∀ n, allowed (.execute (.createProject (.wide n specification))))
    (hpolicies : ∀ p ∈ specification.policies.map CanonicalJson.bytes,
      2 ≤ p.length ∧ p.length ≤ 65536) :
    ∃ d', HoldsProjects allowed specification (n + 1) d' := by
  have hfits : ProjectFits d (.wide (3 * n) specification) (.wide (3 * n))
      (.wide (3 * n + 1)) (.wide (3 * n + 2)) .epoch := by
    refine ⟨drawProject_wide (by omega), fun r hr => ?_, fun r hr => ?_, fun r hr => ?_,
      fun r hr => ?_, ?_, ?_⟩
    · obtain ⟨k, hk, hid⟩ := h.commands r hr
      rw [hid]
      exact Id.wide_ne (by omega) (by omega)
    · rw [h.projects] at hr
      obtain ⟨k, hk, rfl⟩ := List.mem_map.1 hr
      rw [List.mem_range] at hk
      exact Id.wide_ne (by omega) (by omega)
    · rw [h.specs] at hr
      obtain ⟨k, hk, rfl⟩ := List.mem_map.1 hr
      rw [List.mem_range] at hk
      exact Id.wide_ne (by omega) (by omega)
    · obtain ⟨k, hk, hid⟩ := h.events r hr
      rw [hid]
      exact Id.wide_ne (by omega) (by omega)
    · exact hpolicies
    · rw [SequencesLeft, h.sequence]
      omega
  obtain ⟨d', hreachable, hd'⟩ := h.reachable.exists_createProject firstProcess (hallowed _) hfits
  refine ⟨d', hreachable, ?_, ?_, ?_, ?_, ?_⟩
  · rw [hd', ← h.sequence]
  · rw [hd']
    refine forall_mem_append_singleton (fun r hr => ?_) ⟨n, Nat.lt_succ_self n, rfl⟩
    obtain ⟨k, hk, hid⟩ := h.commands r hr
    exact ⟨k, Nat.lt_succ_of_lt hk, hid⟩
  · rw [hd']
    refine forall_mem_append_singleton (fun r hr => ?_) ⟨n, Nat.lt_succ_self n, rfl⟩
    obtain ⟨k, hk, hid⟩ := h.events r hr
    exact ⟨k, Nat.lt_succ_of_lt hk, hid⟩
  · rw [hd', List.range_succ, List.map_append, ← h.projects, ← h.sequence]
    rfl
  · rw [hd', List.range_succ, List.map_append, ← h.specs]
    rfl

/-- **Libraries of any number of projects are reachable**, as long as the
event numbers last. -/
theorem exists_holdsProjects (hn : n < 2 ^ 63)
    (hallowed : ∀ n, allowed (.execute (.createProject (.wide n specification))))
    (hpolicies : ∀ p ∈ specification.policies.map CanonicalJson.bytes,
      2 ≤ p.length ∧ p.length ≤ 65536) :
    ∃ d, HoldsProjects allowed specification n d := by
  induction n with
  | zero =>
    exact ⟨_, .empty, rfl, fun r hr => (by cases hr), fun r hr => (by cases hr), rfl, rfl⟩
  | succ n ih =>
    obtain ⟨d, hd⟩ := ih (Nat.lt_of_succ_lt hn)
    exact hd.succ hn hallowed hpolicies

end Store

end MengXia
