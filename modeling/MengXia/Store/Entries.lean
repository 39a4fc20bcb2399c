import MengXia.Store.History
/-!
# The entries of the creative tables

What a listing of projects, subjects, work or takes goes by: the key of a
row and its identifier. Later calls change neither, and the rows they add
have keys above all the keys before them.
-/

namespace MengXia.Store

open Common

variable {allowed : Call → Prop}

variable {t : Tables} {α : Type}

/-! ## Entries -/

def ProjectRow.entry (r : ProjectRow) : ℕ × Uuid :=
  (r.creationCommitSequence, r.projectId.uuid)

def SubjectRow.entry (r : SubjectRow) : ℕ × Uuid :=
  (r.creationCommitSequence, r.subjectId.uuid)

def WorkItemRow.entry (r : WorkItemRow) : ℕ × Uuid :=
  (r.creationCommitSequence, r.workItemId.uuid)

def TakeRow.entry (r : TakeRow) : ℕ × Uuid :=
  (r.ordinal, r.takeId.uuid)

/-- The work items of a project. -/
def workEntries (t : Tables) (projectId : Id .project) : List (ℕ × Uuid) :=
  (t.workItems.filter fun r => r.projectId = projectId).map WorkItemRow.entry

/-- The takes of a work revision. -/
def takeEntries (t : Tables) (workRevisionId : Id .workRevision) : List (ℕ × Uuid) :=
  (t.takes.filter fun r => r.workRevisionId = workRevisionId).map TakeRow.entry

/-- What later calls keep of the entries. -/
structure EntriesGrow (t t' : Tables) : Prop where
  projects : AddedAbove Prod.fst (t.projects.map ProjectRow.entry)
    (t'.projects.map ProjectRow.entry)
  subjects : AddedAbove Prod.fst (t.subjects.map SubjectRow.entry)
    (t'.subjects.map SubjectRow.entry)
  work : ∀ projectId, AddedAbove Prod.fst (workEntries t projectId) (workEntries t' projectId)
  takes : ∀ workRevisionId, AddedAbove Prod.fst (takeEntries t workRevisionId)
    (takeEntries t' workRevisionId)

theorem EntriesGrow.refl (t : Tables) : EntriesGrow t t :=
  ⟨.refl _ _, .refl _ _, fun _ => .refl _ _, fun _ => .refl _ _⟩

theorem EntriesGrow.trans {t' t'' : Tables} (h : EntriesGrow t t') (h' : EntriesGrow t' t'') :
    EntriesGrow t t'' :=
  ⟨h.projects.trans h'.projects, h.subjects.trans h'.subjects,
    fun projectId => (h.work projectId).trans (h'.work projectId),
    fun workRevisionId => (h.takes workRevisionId).trans (h'.takes workRevisionId)⟩

/-! ## Changes -/

end MengXia.Store
