import MengXia.Store.CreativeQuery
import MengXia.Store.Invariants
/-!
# Stored documents

The calls that the app crate makes carry specifications its own parser
built. In a library that only such calls wrote, every stored document is
its own canonical form with the digest beside it, so the checks of the
queries pass on every row.
-/

namespace MengXia

open Common

variable {N : Type} [DecidableEq N] (numbers : JsonNumbers N)

/-- A specification that `parse_project_specification` built. -/
def ProjectSpecification.Parsed (specification : ProjectSpecification) : Prop :=
  ∃ color audio quality privacy, numbers.parseProjectSpecification specification.resolution
    specification.frameRate specification.aspectRatio color audio quality privacy =
      .ok specification

variable {numbers} in
/-- Its policies are parsed, and its digest is theirs. -/
theorem ProjectSpecification.Parsed.policies {specification : ProjectSpecification}
    (h : specification.Parsed numbers) :
    (∀ json ∈ specification.policies, ∃ input, numbers.parseProjectPolicy input = .ok json) ∧
      specification.policyDigest =
        MengXia.policyDigest (specification.policies.map CanonicalJson.bytes) := by
  obtain ⟨color, audio, quality, privacy, h⟩ := h
  unfold JsonNumbers.parseProjectSpecification at h
  obtain ⟨-, h⟩ := refusal_eq_ok.1 h
  obtain ⟨color, hcolor, h⟩ := exceptBind_eq_ok.1 h
  obtain ⟨audio, haudio, h⟩ := exceptBind_eq_ok.1 h
  obtain ⟨quality, hquality, h⟩ := exceptBind_eq_ok.1 h
  obtain ⟨privacy, hprivacy, h⟩ := exceptBind_eq_ok.1 h
  rw [← Except.ok.inj h]
  simp only [List.forall_mem_cons]
  exact ⟨⟨⟨_, hcolor⟩, ⟨_, haudio⟩, ⟨_, hquality⟩, ⟨_, hprivacy⟩, fun _ h => by cases h⟩, rfl⟩

/-- A specification whose document `parse_work_specification` built. -/
def WorkSpecification.Parsed (specification : WorkSpecification) : Prop :=
  ∃ input, numbers.parseWorkSpecification input = .ok specification.json

namespace Store

/-- The calls that the command services make. -/
def Call.Parsed : Call → Prop
  | .execute (.createProject request) => request.specification.Parsed numbers
  | .execute (.reviseProjectSpec request) => request.specification.Parsed numbers
  | .execute (.createWork request) => request.specification.Parsed numbers
  | .execute (.reviseWork request) => request.specification.Parsed numbers
  | _ => True

namespace CreativeQuery

variable {numbers}

theorem storedPolicy_of_parse {input : Bytes} {json : CanonicalJson}
    (h : numbers.parseProjectPolicy input = .ok json) :
    storedPolicy numbers json.bytes = .ok json := by
  have hstable : numbers.parseProjectPolicy json.bytes = .ok json :=
    JsonNumbers.parseCanonicalObject_stable h
  unfold storedPolicy
  rw [hstable]
  exact if_neg (not_not.2 rfl)

/-- **The row of a parsed specification is read back as it.** -/
theorem projectSpecification_of_parsed {specification : ProjectSpecification}
    (h : specification.Parsed numbers) (specId : Id .projectSpecRevision)
    (projectId : Id .project) (sequence : ℕ) (commandId : Id .command) (at_ : Timestamp) :
    projectSpecification numbers
      (specRevisionRow specId projectId sequence commandId at_ specification) =
        .ok specification := by
  obtain ⟨hparsed, hdigest⟩ := h.policies
  have hstored : ∀ json ∈ specification.policies, storedPolicy numbers json.bytes = .ok json := by
    intro json hjson
    obtain ⟨input, hinput⟩ := hparsed json hjson
    exact storedPolicy_of_parse hinput
  simp only [List.forall_mem_cons] at hstored
  unfold projectSpecification specRevisionRow
  simp only [hstored, bind, Except.bind]
  exact if_neg (not_not.2 hdigest.symm)

/-- The row of a parsed work specification is read back. -/
theorem storedSpecification_of_parsed {specification : WorkSpecification}
    (h : specification.Parsed numbers) (revisionId : Id .workRevision)
    (workItemId : Id .workItem) (sequence : ℕ) (binding : CommandBinding) (at_ : Timestamp) :
    storedSpecification numbers
      (workRevisionRow revisionId workItemId sequence binding at_ specification) =
        .ok specification.json := by
  obtain ⟨input, h⟩ := h
  have hstable : numbers.parseWorkSpecification specification.json.bytes =
      .ok specification.json := JsonNumbers.parseCanonicalObject_stable h
  obtain ⟨value, hvalue⟩ := JsonNumbers.isCanonical_of_parse h
  unfold storedSpecification workRevisionRow
  simp only [← hvalue.digest, hstable, ne_eq, not_true_eq_false, or_self, if_false]

variable (numbers) in
/-- Every stored document passes the checks of the queries. -/
structure DocumentsStored (t : Tables) : Prop where
  specs : ∀ r ∈ t.specRevisions, ∃ specification,
    projectSpecification numbers r = .ok specification
  work : ∀ r ∈ t.workRevisions, ∃ json, storedSpecification numbers r = .ok json

theorem DocumentsStored.change {t t' : Tables} (h : DocumentsStored numbers t)
    (hchange : Change (Call.Parsed numbers) t t') : DocumentsStored numbers t' := by
  -- Only the six changes that add a specification or a work revision write documents.
  cases hchange with
  | projectCreated _ request _ _ _ _ call | projectRevised _ request _ _ _ _ call
  | projectRevisionLeft _ request _ _ _ call =>
    refine ⟨forall_mem_append_singleton h.specs ?_, h.work⟩
    exact ⟨_, projectSpecification_of_parsed call _ _ _ _ _⟩
  | workCreated _ request _ _ _ _ _ call | workRevised _ request _ _ _ _ _ call
  | workRevisionLeft _ request _ _ _ _ call =>
    refine ⟨h.specs, forall_mem_append_singleton h.work ?_⟩
    exact ⟨_, storedSpecification_of_parsed call _ _ _ _ _⟩
  | _ => exact ⟨h.specs, h.work⟩

end CreativeQuery

variable {numbers}

/-- **The documents of a reachable library** pass the checks of the queries. -/
theorem Reachable.documents {d : Database} (h : Reachable (Call.Parsed numbers) d) :
    CreativeQuery.DocumentsStored numbers d :=
  h.induct (P := CreativeQuery.DocumentsStored numbers)
    ⟨fun _ hr => (by cases hr), fun _ hr => (by cases hr)⟩ fun _ _ ih hc => ih.change hc

end Store

end MengXia
