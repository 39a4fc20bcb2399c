import MengXia.Common.Rows
/-!
# Growing tables

How a table can grow while older readers rely on it. `Appended P` says
that rows were only added at the end, all of them with `P`; `Kept R` says
that every old row has a successor it is related to by `R`. Both compose,
so what holds of one change holds of a whole history.
-/

namespace Common

variable {α : Type}

/-! ## Tables that are only appended to -/

/-- Rows were added at the end, each with `P`. -/
def Appended (P : α → Prop) (rows rows' : List α) : Prop :=
  ∃ added, rows' = rows ++ added ∧ ∀ x ∈ added, P x

namespace Appended

variable {P Q : α → Prop} {rows rows' rows'' : List α}

theorem refl (P : α → Prop) (rows : List α) : Appended P rows rows :=
  ⟨[], (List.append_nil rows).symm, fun _ h => by cases h⟩

theorem of_append {added : List α} (h : ∀ x ∈ added, P x) :
    Appended P rows (rows ++ added) :=
  ⟨added, rfl, h⟩

theorem concat {x : α} (h : P x) : Appended P rows (rows ++ [x]) :=
  of_append fun y hy => by
    rw [List.mem_singleton.1 hy]
    exact h

/-- A weaker property of the new rows. -/
theorem mono (h : Appended P rows rows') (hPQ : ∀ x, P x → Q x) : Appended Q rows rows' := by
  obtain ⟨added, rfl, hadded⟩ := h
  exact ⟨added, rfl, fun x hx => hPQ x (hadded x hx)⟩

/-- **Appending composes.** -/
theorem trans (h : Appended P rows rows') (h' : Appended Q rows' rows'') :
    Appended (fun x => P x ∨ Q x) rows rows'' := by
  obtain ⟨added, rfl, hadded⟩ := h
  obtain ⟨added', rfl, hadded'⟩ := h'
  refine ⟨added ++ added', List.append_assoc _ _ _, fun x hx => ?_⟩
  exact (List.mem_append.1 hx).imp (hadded x) (hadded' x)

/-- No row is lost. -/
theorem subset (h : Appended P rows rows') {x : α} (hx : x ∈ rows) : x ∈ rows' := by
  obtain ⟨added, rfl, -⟩ := h
  exact List.mem_append_left _ hx

/-- The old rows come first. -/
theorem initial (h : Appended P rows rows') : rows <+: rows' := by
  obtain ⟨added, rfl, -⟩ := h
  exact List.prefix_append _ _

/-- A row is old or was appended. -/
theorem old_or_new (h : Appended P rows rows') {x : α} (hx : x ∈ rows') : x ∈ rows ∨ P x := by
  obtain ⟨added, rfl, hadded⟩ := h
  exact (List.mem_append.1 hx).imp_right (hadded x)

/-- A count that no new row meets stays. -/
theorem countP_eq (h : Appended P rows rows') {p : α → Bool} (hp : ∀ x, P x → p x = false) :
    rows'.countP p = rows.countP p := by
  obtain ⟨added, rfl, hadded⟩ := h
  exact countP_append_of_not fun x hx => hp x (hadded x hx)

/-- A selection that no new row meets stays. -/
theorem filter_eq (h : Appended P rows rows') {p : α → Bool} (hp : ∀ x, P x → p x = false) :
    rows'.filter p = rows.filter p := by
  obtain ⟨added, rfl, hadded⟩ := h
  have hnone : added.filter p = [] :=
    List.filter_eq_nil_iff.2 fun x hx => by simp [hp x (hadded x hx)]
  rw [List.filter_append, hnone, List.append_nil]

end Appended

/-! ## Entries above all older ones -/

/-- Entries were added at the end, each with a key above all older ones. -/
def AddedAbove {κ : Type} [LT κ] (key : α → κ) (entries entries' : List α) : Prop :=
  Appended (fun e => ∀ x ∈ entries, key x < key e) entries entries'

namespace AddedAbove

variable {κ : Type} [LT κ] {key : α → κ} {entries entries' entries'' : List α}

theorem refl (key : α → κ) (entries : List α) : AddedAbove key entries entries :=
  Appended.refl _ _

theorem concat {e : α} (h : ∀ x ∈ entries, key x < key e) :
    AddedAbove key entries (entries ++ [e]) :=
  Appended.concat h

/-- Additions one after the other. -/
theorem trans (h : AddedAbove key entries entries') (h' : AddedAbove key entries' entries'') :
    AddedAbove key entries entries'' := by
  refine (Appended.trans h h').mono ?_
  rintro e (he | he) x hx
  · exact he x hx
  · exact he x (h.subset hx)

end AddedAbove

/-! ## Tables whose rows are updated -/

/-- Every old row has a successor related to it by `R`. -/
def Kept (R : α → α → Prop) (rows rows' : List α) : Prop :=
  ∀ x ∈ rows, ∃ x' ∈ rows', R x x'

namespace Kept

variable {R : α → α → Prop} {rows rows' rows'' : List α}

theorem refl (hR : ∀ x, R x x) (rows : List α) : Kept R rows rows :=
  fun x hx => ⟨x, hx, hR x⟩

/-- Rows are kept step by step. -/
theorem trans (hR : ∀ x y z, R x y → R y z → R x z) (h : Kept R rows rows')
    (h' : Kept R rows' rows'') : Kept R rows rows'' := by
  intro x hx
  obtain ⟨y, hy, hxy⟩ := h x hx
  obtain ⟨z, hz, hyz⟩ := h' y hy
  exact ⟨z, hz, hR x y z hxy hyz⟩

/-- Further rows do not matter. -/
theorem append (h : Kept R rows rows') (added : List α) : Kept R rows (rows' ++ added) := by
  intro x hx
  obtain ⟨y, hy, hxy⟩ := h x hx
  exact ⟨y, List.mem_append_left _ hy, hxy⟩

/-- An update keeps the rows if it relates each to its new form. -/
theorem updateWhere {p : α → Bool} {f : α → α} (hR : ∀ x, R x x)
    (hf : ∀ x ∈ rows, p x = true → R x (f x)) : Kept R rows (updateWhere p f rows) := by
  intro x hx
  refine ⟨_, mem_updateWhere.2 ⟨x, hx, rfl⟩, ?_⟩
  split
  · exact hf x hx ‹_›
  · exact hR x

/-- An update of the one row with a key. -/
theorem updateKey {β : Type} [DecidableEq β] {key : α → β} {f : α → α} {x : α} {k : β}
    (hR : ∀ x, R x x) (hkeys : Distinct key rows) (hx : x ∈ rows) (hk : key x = k)
    (hf : R x (f x)) : Kept R rows (Common.updateWhere (fun r => key r = k) f rows) :=
  .updateWhere hR fun _ hy hyk =>
    hkeys.eq_of_mem hx hy (hk.trans (of_decide_eq_true hyk).symm) ▸ hf

end Kept

end Common
