import MengXia.Store.LedgerHistory
/-!
# The owner of a library

A library has one owner. Every store of it writes the owner's user id into
the commands it adds, and no call changes that id, so that all commands of
the library are the owner's.
-/

namespace MengXia.Store

open Common

variable {allowed : Call → Prop}

/-- The databases that calls of the stores of one owner lead to. -/
inductive ReachableBy (allowed : Call → Prop) (uid : UInt32) : Database → Prop where
  | empty : ReachableBy allowed uid Database.empty
  | step {d : Database} (context : StoreContext) (call : Call) (reached : ReachableBy allowed uid d)
      (owner : context.ownerUid = uid) (admitted : allowed call) :
      ReachableBy allowed uid ((call.exec context).run d).2

theorem ReachableBy.reachable {uid : UInt32} {d : Database} (h : ReachableBy allowed uid d) :
    Reachable allowed d := by
  induction h with
  | empty => exact .empty
  | step context call _ _ admitted ih => exact .step context call ih admitted

/-- **Every call of a store keeps the owner.** -/
theorem Call.owned (call : Call) {context : StoreContext} {d : Database}
    (h : OwnedBy context.ownerUid d) :
    OwnedBy context.ownerUid ((call.exec context).run d).2.toTables := by
  refine call.run_cases context d h (fun _ _ _ _ _ _ hcommands hrow =>
    h.concat hrow.owner hcommands) ?_ fun _ hledger => hledger.owned h
  intro request row d' result blobs locations location _ hbound hregisters
  have hcommands : d'.commands = updateWhere (fun x => decide (x.commandId = row.commandId))
      (fun _ => registeredCommand request location row) d.commands := by rw [hregisters.tables]
  refine h.update hbound.mem ?_ hcommands
  rfl

theorem ReachableBy.owned {uid : UInt32} {d : Database} (h : ReachableBy allowed uid d) :
    OwnedBy uid d := by
  induction h with
  | empty => exact fun r hr => (by cases hr)
  | step context call _ owner _ ih =>
    subst owner
    exact call.owned ih

end MengXia.Store
