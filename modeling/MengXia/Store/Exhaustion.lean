import MengXia.Store.ProjectProgress
/-!
# A library without event numbers

The allocator hands out the numbers below `2 ^ 63`, one for each project that
is created. Creating projects therefore leads to a library in which no event
number is left, and there a revision of a project is rejected after its
specification row was written.
-/

namespace MengXia

/-- A revision of a project at revision 1, by command `n` with identifiers
from `n` on. -/
def ReviseProjectSpecCommand.wide (n : ℕ) (projectId : Id .project) :
    ReviseProjectSpecCommand where
  binding := ⟨.wide n, .projectSpecRevise, ⟨0⟩⟩
  projectId := projectId
  expectedRevision := 1
  specification := .plain
  values := .wide n
  operation := rfl

namespace Store

open Common Txn

variable {n : ℕ} {source : ValueSource} {specId : Id .projectSpecRevision}
  {eventId : Id .domainEvent} {at_ : Timestamp} {d : Database}

theorem drawProjectSpec_eq (hspec : source.generatedId 0 = .ok specId)
    (hevent : source.generatedId 1 = .ok eventId) (hne : specId.uuid ≠ eventId.uuid)
    (hnow : source.now = .ok at_)
    (hcheckpoint : source.checkpoint = .ok ()) :
    drawProjectSpec source = .ok (specId, eventId, at_) := by
  have hdistinct : distinct [specId.uuid, eventId.uuid] = .ok () := if_pos (by simp [hne])
  unfold drawProjectSpec
  simp only [hspec, hevent, hnow, hcheckpoint, hdistinct, bind, Except.bind, pure, Except.pure]

theorem drawProjectSpec_wide (hn : n + 1 < 2 ^ 110) :
    drawProjectSpec (.wide n) = .ok (.wide n, .wide (n + 1), .epoch) :=
  drawProjectSpec_eq (ValueSource.generatedId_wide n 0) (ValueSource.generatedId_wide n 1)
    (fun h => @Id.wide_ne .take _ _ (Nat.lt_succ_self n) hn (congrArg Id.mk h)) rfl rfl

/-- **A revision that finds no event number** is rejected with
`RevisionExhausted` once its specification row stands. -/
theorem wp_reviseProjectSpec_exhausted (context : StoreContext) (request : ReviseProjectSpecCommand)
    {project : ProjectRow}
    (hdraw : drawProjectSpec request.values = .ok (specId, eventId, at_))
    (hfresh : FreshCommand d request.binding.commandId) (hmem : project ∈ d.projects)
    (hid : project.projectId = request.projectId)
    (hexpected : project.revision = request.expectedRevision)
    (hroom : project.revision + 1 < 2 ^ 32)
    (hspec : ∀ x ∈ d.specRevisions, x.projectSpecRevisionId ≠ specId ∧
      x.sequence ≠ project.revision + 1)
    (hpolicies : ∀ p ∈ (specRevisionRow specId request.projectId (project.revision + 1)
      request.binding.commandId at_ request.specification).policies,
        2 ≤ p.length ∧ p.length ≤ 65536) (hkeys : DeferredKeys d)
    (hleft : ¬ SequencesLeft d 1) :
    wp (reviseProjectSpec context request)
      (fun outcome _ => outcome = .terminalRejected .revisionExhausted) (fun _ => False) d := by
  have hfind : ∀ d1 : Database, d1.projects = d.projects →
      d1.projects.find? (fun p => p.projectId = request.projectId) = some project := by
    intro d1 h1
    rw [h1, ← hid]
    exact d.consistent.projectKeys.find?_eq hmem
  refine wp_unlessKnown hfresh ?_
  unfold reviseProjectSpecNew
  simp only [wp_bind, wp_lift, hdraw, Except.ok.injEq, reduceCtorEq, false_implies,
    implies_true, and_true]
  rintro _ rfl
  refine wp_insertClaim hfresh fun d1 h1 => ?_
  rw [wp_read, nextRevision_eq_ok.2 ⟨hfind d1 (by rw [h1]), hexpected, rfl, hroom, rfl⟩]
  simp only [wp_bind, insertSpecRevision]
  refine wp_write_of (Or.inl ?_) fun d2 h2 _ => ?_
  · rw [h1]
    refine ⟨fun x hx => (hspec x hx).1, fun x hx h => (hspec x hx).2 (Prod.ext_iff.1 h).2,
      ⟨Nat.le_add_left _ _, hroom⟩, hpolicies, _, List.mem_concat_self, rfl⟩
  · rw [h1] at h2
    refine wp_allocateEventSequences (by decide) (fun _ hn _ => absurd ?_ hleft) fun _ => ?_
    · rwa [h2] at hn
    · have hclaimed : d2.commands = d.commands ++ [claimRow context request.binding at_] := by
        rw [h2]
      refine wp_commitRejection hclaimed hfresh (Or.inl ?_) fun _ _ => rfl
      rw [h2]
      exact ⟨hkeys.1.append_target _, hkeys.2.append_source ⟨project, hmem, hid⟩, hkeys.3, hkeys.4⟩

/-- **A rejection that leaves more than its row.** In a reachable library
whose event numbers are used up, a revision of the project is rejected, and
its specification row stays. -/
theorem exhausted_revision_leaves_rows : ∃ (d : Database) (request : ReviseProjectSpecCommand),
    Reachable (fun _ => True) d ∧ FreshCommand d.toTables request.binding.commandId ∧
      (((PureCall.reviseProjectSpec request).mutate firstProcess).run d).1 =
        .ok (.terminalRejected .revisionExhausted) ∧
      ¬ OnlyItsRow d (((PureCall.reviseProjectSpec request).mutate firstProcess).run d).2
        request.binding := by
  obtain ⟨d, hd⟩ := @exists_holdsProjects (2 ^ 63 - 1) (fun _ => True) .plain (by decide)
    (fun _ => trivial) (by decide)
  have hleft : ¬ SequencesLeft d.toTables 1 := by
    unfold SequencesLeft
    rw [hd.sequence]
    decide
  have hfresh : FreshCommand d.toTables (.wide (2 ^ 66)) := by
    intro r hr
    obtain ⟨k, hk, hid⟩ := hd.commands r hr
    rw [hid]
    exact Id.wide_ne (by omega) (by decide)
  have hmem : nthProject .plain 0 ∈ d.projects := by
    rw [hd.projects]
    exact List.mem_map_of_mem (List.mem_range.2 (by decide))
  have hspecs : ∀ x ∈ d.specRevisions, x.projectSpecRevisionId ≠ .wide (2 ^ 66) ∧
      x.sequence ≠ 2 := by
    intro x hx
    rw [hd.specs] at hx
    obtain ⟨k, hk, rfl⟩ := List.mem_map.1 hx
    rw [List.mem_range] at hk
    exact ⟨Id.wide_ne (by omega) (by decide), (by decide : 1 ≠ 2)⟩
  have hrejected := run_ok_of_wp (wp_reviseProjectSpec_exhausted firstProcess
    (.wide (2 ^ 66) (.wide 0)) (drawProjectSpec_wide (by decide)) hfresh hmem rfl rfl (by decide)
    hspecs (by decide) hd.reachable.deferredKeys hleft)
  obtain ⟨outcome, d', hrun, rfl⟩ := hrejected
  refine ⟨d, .wide (2 ^ 66) (.wide 0), hd.reachable, hfresh, congrArg Prod.fst hrun, ?_⟩
  have hlate : ProjectRevisionLate d.toTables (.wide (2 ^ 66) (.wide 0)) :=
    ⟨hleft, _, hmem, rfl, rfl, by decide⟩
  have hstep := @PureCall.step_of_answer
    (.reviseProjectSpec (.wide (2 ^ 66) (.wide 0))) _ _ _ (congrArg Prod.fst hrun)
  rcases hstep.rejected hfresh .revisionExhausted rfl with ⟨hnot, -⟩ | ⟨-, hrows⟩
  · exact absurd hlate hnot
  · exact hrows.not_onlyItsRow _

end Store

end MengXia
