import MengXia.Store.Invariants
/-!
# Outcomes of pure commands

What the answers of pure commands say about the tables: a replay and an
error change nothing, and a rejection leaves the row of its command. The two
revising commands reject once more after they have written, when no event
number is left; what they wrote is then committed with the rejection
(`PureCall.Late`).
-/

namespace MengXia.Store

open Common

/-- The tables of `d'` are those of `d` with one more row in the ledger,
that of the command. -/
def OnlyItsRow (d d' : Database) (binding : CommandBinding) : Prop :=
  ∃ row : CommandRow, row.commandId = binding.commandId ∧
    d'.toTables = { d.toTables with commands := d.commands ++ [row] }

theorem LeftRows.not_onlyItsRow {d d' : Database} (h : LeftRows d d')
    (binding : CommandBinding) : ¬ OnlyItsRow d d' binding := by
  rintro ⟨row, -, htables⟩
  rcases h.rows with hrows | hrows
  · rw [htables] at hrows
    exact Nat.lt_irrefl _ hrows
  · rw [htables] at hrows
    exact Nat.lt_irrefl _ hrows

/-- **A new pure command that is rejected** leaves nothing but its row,
unless it is a revision that passed every check and found no event number
left; then it leaves rows of the refused revision as well. -/
theorem rejection_leaves_only_row_iff (d : Database) (context : StoreContext) (pure : PureCall)
    (hfresh : FreshCommand d.toTables pure.binding.commandId) {code : ErrorCode}
    (hrejected : ((pure.mutate context).run d).1 = .ok (.terminalRejected code)) :
    OnlyItsRow d ((pure.mutate context).run d).2 pure.binding ↔ ¬ pure.Late d.toTables := by
  have hstep := PureCall.step_of_answer hrejected
  rcases hstep.rejected hfresh code rfl with ⟨hlate, htables⟩ | ⟨hlate, hleft⟩
  · refine iff_of_true ?_ hlate
    obtain ⟨row, hcommands, hrow⟩ := hstep.stored hfresh
    rw [hcommands] at htables
    exact ⟨row, hrow.id, htables⟩
  · exact iff_of_false (hleft.not_onlyItsRow _) (not_not.2 hlate)

/-- A revision of a project that does not exist is rejected and leaves its row. -/
theorem missing_project_leaves_only_row :
    (((PureCall.reviseProjectSpec (.numbered 20 (.numbered 11) 2)).mutate firstProcess).run
        Database.empty).1 = .ok (.terminalRejected .notFound) ∧
      OnlyItsRow Database.empty
        (((PureCall.reviseProjectSpec (.numbered 20 (.numbered 11) 2)).mutate
          firstProcess).run Database.empty).2 (.numbered .projectSpecRevise 20) := by
  have hrejected : (((PureCall.reviseProjectSpec (.numbered 20 (.numbered 11) 2)).mutate
      firstProcess).run Database.empty).1 = .ok (.terminalRejected .notFound) := by
    decide +kernel
  refine ⟨hrejected, (rejection_leaves_only_row_iff Database.empty firstProcess
    (.reviseProjectSpec (.numbered 20 (.numbered 11) 2)) ?_ hrejected).2 ?_⟩
  · intro r hr
    cases hr
  · rintro ⟨hleft, -⟩
    exact hleft (by decide)

end MengXia.Store
