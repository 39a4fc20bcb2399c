import Mathlib.Logic.Basic
import Mathlib.Data.List.Basic
import Mathlib.Data.List.Nodup
/-!
# Tables as lists of rows

A table is the list of its rows in insertion order. This file states the
constraints a relational schema puts on such lists, uniqueness of a key
(`Distinct`) and existence of a referenced row (`Refers`), and how the
three statements of a store keep them: appending a row, and rewriting in
place the rows that meet a condition (`updateWhere`).
-/

namespace Common

variable {α β γ : Type}

variable {p : α → Bool} {f : α → α} {x r y : α} {xs : List α} {q : α → β → Bool} {ys : List β}
  {k : β} {owners : List γ} {continuation : α → List β}

/-! ## Uniqueness -/

/-- No two rows have the same key. -/
def Distinct (key : α → β) (rows : List α) : Prop :=
  (rows.map key).Nodup

instance [DecidableEq β] (key : α → β) (rows : List α) : Decidable (Distinct key rows) :=
  inferInstanceAs (Decidable (rows.map key).Nodup)

theorem Distinct.nil (key : α → β) : Distinct key [] :=
  List.nodup_nil

/-- One more row, with a new key. -/
theorem distinct_append_singleton {key : α → β} {rows : List α} :
    Distinct key (rows ++ [r]) ↔ Distinct key rows ∧ ∀ x ∈ rows, key x ≠ key r := by
  unfold Distinct
  rw [List.map_append, List.map_singleton, List.nodup_append]
  constructor
  · rintro ⟨h, -, hd⟩
    exact ⟨h, fun x hx => hd _ (List.mem_map_of_mem hx) _ (List.mem_singleton.2 rfl)⟩
  · rintro ⟨h, hd⟩
    refine ⟨h, List.nodup_singleton _, ?_⟩
    intro a ha b hb
    obtain ⟨x, hx, rfl⟩ := List.mem_map.1 ha
    rw [List.mem_singleton.1 hb]
    exact hd x hx

/-- **Appending a row with a fresh key keeps uniqueness.** -/
theorem Distinct.append {key : α → β} {rows : List α} (h : Distinct key rows)
    (hr : ∀ x ∈ rows, key x ≠ key r) : Distinct key (rows ++ [r]) :=
  distinct_append_singleton.2 ⟨h, hr⟩

/-- **Two rows with one key are one row.** -/
theorem Distinct.eq_of_mem {key : α → β} {rows : List α} (h : Distinct key rows) (hx : x ∈ rows)
    (hy : y ∈ rows) (hxy : key x = key y) : x = y :=
  List.inj_on_of_nodup_map h hx hy hxy

/-- A lookup by key finds the row that has it. -/
theorem Distinct.find?_eq [DecidableEq β] {key : α → β} {rows : List α} (h : Distinct key rows)
    (hx : x ∈ rows) : rows.find? (fun r => key r = key x) = some x := by
  cases hf : rows.find? (fun r => key r = key x) with
  | none =>
    have := List.find?_eq_none.1 hf x hx
    simp at this
  | some y =>
    have hy : key y = key x := by simpa using List.find?_some hf
    rw [h.eq_of_mem (List.mem_of_find?_eq_some hf) hx hy]

/-- A lookup by a condition that fixes the key finds the row that meets it. -/
theorem Distinct.find?_of {key : α → β} {rows : List α} (h : Distinct key rows) (hx : x ∈ rows)
    (hp : p x = true) (hk : ∀ r, p r = true → key r = key x) : rows.find? p = some x := by
  cases hf : rows.find? p with
  | none => exact absurd hp (List.find?_eq_none.1 hf x hx)
  | some y =>
    rw [h.eq_of_mem (List.mem_of_find?_eq_some hf) hx (hk y (List.find?_some hf))]

/-- Two lists that share no key. -/
theorem distinct_append {key : α → β} {ys : List α} :
    Distinct key (xs ++ ys) ↔
      Distinct key xs ∧ Distinct key ys ∧ ∀ x ∈ xs, ∀ y ∈ ys, key x ≠ key y := by
  unfold Distinct
  rw [List.map_append, List.nodup_append]
  simp only [List.mem_map, ne_eq, forall_exists_index, and_imp, forall_apply_eq_imp_iff₂]

/-- A row of a list without repetition differs from those before it. -/
theorem Distinct.ne_of_split {key : α → β} {before rest : List α}
    (h : Distinct key (before ++ r :: rest)) : ∀ x ∈ before, key x ≠ key r :=
  fun x hx => (distinct_append.1 h).2.2 x hx r List.mem_cons_self

/-- Uniqueness passes to the rows that meet a condition. -/
theorem Distinct.filter {key : α → β} {rows : List α} (h : Distinct key rows) (p : α → Bool) :
    Distinct key (rows.filter p) :=
  List.Nodup.sublist (List.Sublist.map key List.filter_sublist) h

/-- Rows that agree in a key that tells rows apart are at most one. -/
theorem Distinct.length_le_one {key : α → β} {rows : List α} (h : Distinct key rows)
    (heq : ∀ x ∈ rows, ∀ y ∈ rows, key x = key y) : rows.length ≤ 1 := by
  match rows with
  | [] => exact Nat.zero_le 1
  | [_] => exact Nat.le_refl 1
  | x :: y :: rest =>
    refine absurd (heq x (by simp) y (by simp)) fun hxy => (List.nodup_cons.1 h).1 ?_
    rw [hxy]
    simp

/-- At most one row has a given key. -/
theorem Distinct.countP_le_one [DecidableEq β] {key : α → β} {rows : List α}
    (h : Distinct key rows) (k : β) : rows.countP (fun r => key r = k) ≤ 1 := by
  have hc := List.nodup_iff_count_le_one.1 h k
  rw [List.count_eq_countP, List.countP_map] at hc
  refine Nat.le_trans (List.countP_mono_left fun r _ hr => ?_) hc
  simpa using hr

/-- **A row counted by its key is counted once.** -/
theorem Distinct.countP_eq_one [DecidableEq β] {key : α → β} {rows : List α} (h : Distinct key rows)
    (hx : x ∈ rows) (hp : p x = true) (hk : ∀ r ∈ rows, p r = true → key r = key x) :
    rows.countP p = 1 := by
  refine Nat.le_antisymm ?_ (List.countP_pos_iff.2 ⟨x, hx, hp⟩)
  refine Nat.le_trans (List.countP_mono_left fun r hr hpr => ?_) (h.countP_le_one (key x))
  simpa using hk r hr hpr

/-! ## References -/

/-- Every row's reference names a row of the target table. -/
def Refers (source : α → β) (rows : List α) (key : γ → β) (targets : List γ) : Prop :=
  ∀ r ∈ rows, ∃ x ∈ targets, key x = source r

instance [DecidableEq β] (source : α → β) (rows : List α) (key : γ → β) (targets : List γ) :
    Decidable (Refers source rows key targets) :=
  inferInstanceAs (Decidable (∀ r ∈ rows, ∃ x ∈ targets, key x = source r))

namespace Refers

variable {source : α → β} {rows : List α} {key : γ → β} {targets : List γ}

/-- One more source that refers to a target. -/
theorem append_source (h : Refers source rows key targets) (hr : ∃ x ∈ targets, key x = source r) :
    Refers source (rows ++ [r]) key targets := by
  intro y hy
  rcases List.mem_append.1 hy with hy | hy
  · exact h y hy
  · rw [List.mem_singleton.1 hy]
    exact hr

theorem append_target (h : Refers source rows key targets) (x : γ) :
    Refers source rows key (targets ++ [x]) := by
  intro r hr
  obtain ⟨y, hy, hk⟩ := h r hr
  exact ⟨y, List.mem_append_left _ hy, hk⟩

/-- **A key that no row of the target table has is referenced by no row.** -/
theorem ne_of_fresh (h : Refers source rows key targets) (hk : ∀ x ∈ targets, key x ≠ k)
    (hr : r ∈ rows) : source r ≠ k := by
  obtain ⟨x, hx, hxr⟩ := h r hr
  rw [← hxr]
  exact hk x hx

end Refers

/-! ## Rows of one owner -/

/-- No row is owned by what is not there yet. -/
theorem Refers.filter_eq_nil [DecidableEq β] {source : α → β} {rows : List α} {key : γ → β}
    {targets : List γ} (h : Refers source rows key targets) (hk : ∀ x ∈ targets, key x ≠ k) :
    rows.filter (fun r => decide (source r = k)) = [] :=
  List.filter_eq_nil_iff.2 fun _ hr => by simpa using h.ne_of_fresh hk hr

/-- **Among rows grouped by owner, the rows of one owner are its group.** -/
theorem filter_flatMap_owner [DecidableEq β] {key : γ → β} {rows : γ → List α} {source : α → β}
    (hkeys : Distinct key owners) (hrows : ∀ o ∈ owners, ∀ r ∈ rows o, source r = key o) {o : γ}
    (ho : o ∈ owners) :
    (owners.flatMap rows).filter (fun r => decide (source r = key o)) = rows o := by
  induction owners with
  | nil => cases ho
  | cons x owners ih =>
    obtain ⟨hx, htail⟩ := List.nodup_cons.1 hkeys
    have hne : ∀ y ∈ owners, key y ≠ key x := fun y hy heq => hx (heq ▸ List.mem_map_of_mem hy)
    have hothers := fun y hy => hrows y (List.mem_cons_of_mem x hy)
    rw [List.flatMap_cons, List.filter_append]
    rcases List.mem_cons.1 ho with rfl | ho
    · rw [List.filter_eq_self.2 fun r hr => by simpa using hrows o List.mem_cons_self r hr,
        List.filter_eq_nil_iff.2 fun r hr => ?_, List.append_nil]
      obtain ⟨y, hy, hr⟩ := List.mem_flatMap.1 hr
      simpa [hothers y hy r hr] using hne y hy
    · rw [ih htail hothers ho, List.filter_eq_nil_iff.2 fun r hr => ?_, List.nil_append]
      rw [hrows x List.mem_cons_self r hr]
      simpa using (hne o ho).symm

/-- **What holds of every owner's rows is kept** when new owners bring their rows
with them. -/
theorem forall_owner_append [DecidableEq β] {new : List γ} {key : γ → β} {rows added : List α}
    {source : α → β} {P : List α → Prop}
    (hold : ∀ o ∈ owners, P (rows.filter fun r => decide (source r = key o)))
    (hrefers : Refers source rows key owners) (hkeys : Distinct key (owners ++ new))
    (hadded : Refers source added key new)
    (hnew : ∀ o ∈ new, P (added.filter fun r => decide (source r = key o))) :
    ∀ o ∈ owners ++ new, P ((rows ++ added).filter fun r => decide (source r = key o)) := by
  have hapart := (distinct_append.1 hkeys).2.2
  intro o ho
  rw [List.filter_append]
  rcases List.mem_append.1 ho with ho | ho
  · rw [hadded.filter_eq_nil fun x hx => (hapart o ho x hx).symm, List.append_nil]
    exact hold o ho
  · rw [hrefers.filter_eq_nil fun x hx => hapart x hx o ho, List.nil_append]
    exact hnew o ho

/-- The same for one new owner with one row. -/
theorem forall_owner_concat [DecidableEq β] {o : γ} {key : γ → β} {rows : List α} {source : α → β}
    {P : List α → Prop} (hold : ∀ o ∈ owners, P (rows.filter fun r => decide (source r = key o)))
    (hrefers : Refers source rows key owners) (hkeys : Distinct key (owners ++ [o]))
    (hr : source r = key o) (hnew : P [r]) :
    ∀ x ∈ owners ++ [o], P ((rows ++ [r]).filter fun r => decide (source r = key x)) := by
  refine forall_owner_append hold hrefers hkeys (fun x hx => ?_) fun x hx => ?_
  · rw [List.mem_singleton.1 hx]
    exact ⟨o, List.mem_singleton_self o, hr.symm⟩
  · rw [List.mem_singleton.1 hx, List.filter_cons_of_pos (by simpa using hr), List.filter_nil]
    exact hnew

/-- A nullable reference: a row that has one names a row of the target table. -/
def RefersOpt (source : α → Option β) (rows : List α) (key : γ → β) (targets : List γ) : Prop :=
  ∀ r ∈ rows, ∀ k ∈ source r, ∃ x ∈ targets, key x = k

instance [DecidableEq β] (source : α → Option β) (rows : List α) (key : γ → β)
    (targets : List γ) : Decidable (RefersOpt source rows key targets) :=
  inferInstanceAs (Decidable (∀ r ∈ rows, ∀ k ∈ source r, ∃ x ∈ targets, key x = k))

namespace RefersOpt

variable {source : α → Option β} {rows : List α} {key : γ → β} {targets : List γ}

/-- One more source that refers to a target, if to any. -/
theorem append_source (h : RefersOpt source rows key targets)
    (hr : ∀ k ∈ source r, ∃ x ∈ targets, key x = k) :
    RefersOpt source (rows ++ [r]) key targets := by
  intro y hy
  rcases List.mem_append.1 hy with hy | hy
  · exact h y hy
  · rw [List.mem_singleton.1 hy]
    exact hr

theorem append_target (h : RefersOpt source rows key targets) (x : γ) :
    RefersOpt source rows key (targets ++ [x]) := by
  intro r hr k hk
  obtain ⟨y, hy, hyk⟩ := h r hr k hk
  exact ⟨y, List.mem_append_left _ hy, hyk⟩

end RefersOpt

/-- A condition on every row survives appending a row that meets it. -/
theorem forall_mem_append_singleton {p : α → Prop} {rows : List α} (h : ∀ x ∈ rows, p x) (hr : p r)
    : ∀ x ∈ rows ++ [r], p x := by
  intro x hx
  rcases List.mem_append.1 hx with hx | hx
  · exact h x hx
  · rw [List.mem_singleton.1 hx]
    exact hr

/-! ## Joins -/

/-- One table of a join: continue with every row that meets the condition. -/
def select (p : α → Bool) (rows : List α) (continuation : α → List β) : List β :=
  (rows.filter p).flatMap continuation

/-- What is selected. -/
@[simp] theorem mem_select {rows : List α} {y : β} :
    y ∈ select p rows continuation ↔ ∃ x ∈ rows, p x = true ∧ y ∈ continuation x := by
  unfold select
  simp only [List.mem_flatMap, List.mem_filter]
  constructor
  · rintro ⟨x, ⟨hx, hp⟩, hy⟩
    exact ⟨x, hx, hp, hy⟩
  · rintro ⟨x, hx, hp, hy⟩
    exact ⟨x, ⟨hx, hp⟩, hy⟩

/-- A join with at most one row for each row keeps a key of the first table. -/
theorem Distinct.select {key : α → γ} {key' : β → γ} {rows : List α} (h : Distinct key rows)
    (hkey : ∀ r ∈ rows, ∀ y ∈ continuation r, key' y = key r)
    (hone : ∀ r ∈ rows, p r = true → (continuation r).length ≤ 1) :
    Distinct key' (select p rows continuation) := by
  induction rows with
  | nil => exact Distinct.nil _
  | cons r rows ih =>
    have hrest : Distinct key' (Common.select p rows continuation) :=
      ih (List.nodup_cons.1 h).2 (fun x hx => hkey x (List.mem_cons_of_mem r hx))
        fun x hx => hone x (List.mem_cons_of_mem r hx)
    by_cases hp : p r = true
    · have hsplit : Common.select p (r :: rows) continuation =
          continuation r ++ Common.select p rows continuation := by
        simp [Common.select, hp]
      rw [hsplit]
      refine distinct_append.2 ⟨?_, hrest, fun x hx y hy hxy => ?_⟩
      · have hlength := hone r List.mem_cons_self hp
        match hc : continuation r, hlength with
        | [], _ => exact Distinct.nil _
        | [y], _ => exact List.nodup_singleton _
      · obtain ⟨r', hr', -, hy'⟩ := mem_select.1 hy
        rw [hkey r List.mem_cons_self x hx, hkey r' (List.mem_cons_of_mem r hr') y hy'] at hxy
        exact (List.nodup_cons.1 h).1 (hxy ▸ List.mem_map_of_mem hr')
    · have hsplit : Common.select p (r :: rows) continuation =
          Common.select p rows continuation := by
        simp [Common.select, hp]
      rw [hsplit]
      exact hrest

/-- A join on the last row alone. -/
theorem select_concat {rows : List α} (hrows : ∀ x ∈ rows, p x = false) (hr : p r = true) :
    select p (rows ++ [r]) continuation = continuation r := by
  unfold select
  rw [List.filter_append, List.filter_eq_nil_iff.2 fun x hx => by simp [hrows x hx]]
  simp [hr]

/-- What holds of every row holds of the first one, if there is one. -/
theorem any_head?_of_forall {rows : List α} {f : α → Bool} (hx : x ∈ rows)
    (h : ∀ y ∈ rows, f y = true) : rows.head?.any f = true := by
  cases rows with
  | nil => cases hx
  | cons y rows => exact h y List.mem_cons_self

/-- The first row when all are the same. -/
theorem head?_eq_of_forall {rows : List α} (hx : x ∈ rows) (h : ∀ y ∈ rows, y = x) :
    rows.head? = some x := by
  cases rows with
  | nil => cases hx
  | cons y rows => exact congrArg some (h y List.mem_cons_self)

/-- The first row of a join of two tables comes from a row of each. -/
theorem exists_of_any_head?_join {f : α × β → Bool}
    (h : (select p xs fun x => select (q x) ys fun y => [(x, y)]).head?.any f = true) :
    ∃ x ∈ xs, p x = true ∧ ∃ y ∈ ys, q x y = true ∧ f (x, y) = true := by
  obtain ⟨z, hz, hf⟩ := (Option.any_eq_true _ _).1 h
  have hmem := List.mem_of_mem_head? hz
  simp only [mem_select, List.mem_singleton] at hmem
  obtain ⟨x, hx, hp, y, hy, hq, rfl⟩ := hmem
  exact ⟨x, hx, hp, y, hy, hq, hf⟩

/-- The first row of a join of two tables, when it has no other. -/
theorem any_head?_join {f : α × β → Bool} {y : β} (hx : x ∈ xs) (hp : p x = true)
    (honly : ∀ x' ∈ xs, p x' = true → x' = x) (hy : y ∈ ys) (hq : q x y = true)
    (honly' : ∀ y' ∈ ys, q x y' = true → y' = y) (hf : f (x, y) = true) :
    (select p xs fun x => select (q x) ys fun y => [(x, y)]).head?.any f = true := by
  refine any_head?_of_forall
    (mem_select.2 ⟨x, hx, hp, mem_select.2 ⟨y, hy, hq, List.mem_singleton.2 rfl⟩⟩) fun z hz => ?_
  simp only [mem_select, List.mem_singleton] at hz
  obtain ⟨x', hx', hp', y', hy', hq', rfl⟩ := hz
  obtain rfl := honly x' hx' hp'
  rwa [honly' y' hy' hq']

/-- A count of one leaves no second row. -/
theorem eq_of_countP_eq_one {rows : List α} (h : rows.countP p = 1) (hx : x ∈ rows)
    (hpx : p x = true) (hy : y ∈ rows) (hpy : p y = true) : x = y := by
  rw [List.countP_eq_length_filter, List.length_eq_one_iff] at h
  obtain ⟨z, hz⟩ := h
  have hxz : x ∈ rows.filter p := List.mem_filter.2 ⟨hx, hpx⟩
  have hyz : y ∈ rows.filter p := List.mem_filter.2 ⟨hy, hpy⟩
  rw [hz, List.mem_singleton] at hxz hyz
  rw [hxz, hyz]

/-- Added rows that are not counted do not count. -/
theorem countP_append_of_not {rows added : List α} (h : ∀ x ∈ added, p x = false) :
    (rows ++ added).countP p = rows.countP p := by
  rw [List.countP_append, Nat.add_eq_left, List.countP_eq_zero]
  intro x hx
  simp [h x hx]

/-- Rows that are the last ones alone are counted there. -/
theorem countP_concat {rows : List α} (hrows : ∀ x ∈ rows, p x = false) (hr : p r = true) :
    (rows ++ [r]).countP p = 1 := by
  rw [List.countP_append, List.countP_eq_zero.2 fun x hx => by simp [hrows x hx]]
  simp [hr]

/-! ## Updates in place -/

/-- `UPDATE … SET f WHERE p`. -/
def updateWhere (p : α → Bool) (f : α → α) (rows : List α) : List α :=
  rows.map fun r => if p r then f r else r

/-- The rows after an update. -/
theorem mem_updateWhere {rows : List α} :
    y ∈ updateWhere p f rows ↔ ∃ x ∈ rows, (if p x then f x else x) = y :=
  List.mem_map

/-- A row that an update changes. -/
theorem mem_updateWhere_of {rows : List α} (hx : x ∈ rows) (hp : p x = true) :
    f x ∈ updateWhere p f rows :=
  mem_updateWhere.2 ⟨x, hx, if_pos hp⟩

/-- A row that an update leaves. -/
theorem mem_updateWhere_of_not {rows : List α} (hx : x ∈ rows) (hp : p x = false) :
    x ∈ updateWhere p f rows :=
  mem_updateWhere.2 ⟨x, hx, if_neg (by rw [hp]; exact Bool.false_ne_true)⟩

/-- A row after an update is a changed row or one the update left. -/
theorem mem_updateWhere_iff {rows : List α} :
    y ∈ updateWhere p f rows ↔
      (∃ x ∈ rows, p x = true ∧ y = f x) ∨ (y ∈ rows ∧ p y = false) := by
  rw [mem_updateWhere]
  constructor
  · rintro ⟨x, hx, rfl⟩
    by_cases hp : p x = true
    · exact Or.inl ⟨x, hx, hp, by rw [if_pos hp]⟩
    · rw [if_neg hp]
      exact Or.inr ⟨hx, by simpa using hp⟩
  · rintro (⟨x, hx, hp, rfl⟩ | ⟨hy, hp⟩)
    · exact ⟨x, hx, by rw [if_pos hp]⟩
    · exact ⟨y, hy, by rw [if_neg (by simp [hp])]⟩

/-- A column the update does not touch reads the same. -/
theorem map_updateWhere {rows : List α} {key : α → β} (hf : ∀ r, key (f r) = key r) :
    (updateWhere p f rows).map key = rows.map key := by
  unfold updateWhere
  rw [List.map_map]
  refine List.map_congr_left fun r _ => ?_
  simp only [Function.comp_apply]
  split
  · exact hf r
  · rfl

/-- An update that keeps the keys keeps them distinct. -/
theorem Distinct.updateWhere {key : α → β} {rows : List α} (h : Distinct key rows)
    (hf : ∀ r, key (f r) = key r) :
    Distinct key (updateWhere p f rows) := by
  unfold Distinct
  rw [map_updateWhere hf]
  exact h

/-- An update that keeps what the sources refer to. -/
theorem Refers.update_source {source : α → β} {rows : List α} {key : γ → β} {targets : List γ}
    (h : Refers source rows key targets) (hf : ∀ r, source (f r) = source r) :
    Refers source (updateWhere p f rows) key targets := by
  intro y hy
  obtain ⟨x, hx, rfl⟩ := mem_updateWhere.1 hy
  obtain ⟨z, hz, hzx⟩ := h x hx
  refine ⟨z, hz, hzx.trans ?_⟩
  split
  · exact (hf x).symm
  · rfl

/-- An update that keeps the keys of the targets. -/
theorem Refers.update_target {source : α → β} {rows : List α} {key : γ → β} {targets : List γ}
    (h : Refers source rows key targets) {p : γ → Bool} {f : γ → γ}
    (hf : ∀ r, key (f r) = key r) : Refers source rows key (updateWhere p f targets) := by
  intro r hr
  obtain ⟨x, hx, hxr⟩ := h r hr
  refine ⟨if p x then f x else x, mem_updateWhere.2 ⟨x, hx, rfl⟩, ?_⟩
  split
  · rw [hf, hxr]
  · exact hxr

theorem RefersOpt.update_target {source : α → Option β} {rows : List α} {key : γ → β}
    {targets : List γ} (h : RefersOpt source rows key targets) {p : γ → Bool} {f : γ → γ}
    (hf : ∀ r, key (f r) = key r) : RefersOpt source rows key (updateWhere p f targets) := by
  intro r hr k hk
  obtain ⟨x, hx, hxk⟩ := h r hr k hk
  refine ⟨if p x then f x else x, mem_updateWhere.2 ⟨x, hx, rfl⟩, ?_⟩
  split
  · rw [hf, hxk]
  · exact hxk

/-- A condition on every row survives an update whose results meet it. -/
theorem forall_mem_updateWhere {rows : List α} {q : α → Prop} (h : ∀ r ∈ rows, q r)
    (hf : ∀ r ∈ rows, p r = true → q (f r)) :
    ∀ r ∈ updateWhere p f rows, q r := by
  intro y hy
  obtain ⟨x, hx, rfl⟩ := mem_updateWhere.1 hy
  split
  · exact hf x hx ‹_›
  · exact h x hx

/-- An update that meets no row changes nothing. -/
theorem updateWhere_eq_self {rows : List α} (h : ∀ r ∈ rows, p r = false) :
    updateWhere p f rows = rows := by
  unfold updateWhere
  conv_rhs => rw [← List.map_id rows]
  refine List.map_congr_left fun r hr => ?_
  rw [h r hr]
  rfl

/-- An update is what it does to the rows of the table. -/
theorem updateWhere_congr {q : α → Bool} {g : α → α} {rows : List α} (hp : ∀ r ∈ rows, p r = q r)
    (hf : ∀ r ∈ rows, q r = true → f r = g r) :
    updateWhere p f rows = updateWhere q g rows := by
  unfold updateWhere
  refine List.map_congr_left fun r hr => ?_
  rw [hp r hr]
  split
  · exact hf r hr ‹_›
  · rfl

/-- **An update by key with a further condition that the row meets** is the
update by key alone. -/
theorem Distinct.updateWhere_key [DecidableEq β] {key : α → β} {rows : List α}
    (h : Distinct key rows) (hx : x ∈ rows) (hk : key x = k) {g : α → α}
    (hp : ∀ r, p r = true → key r = k) (hpx : p x = true) (hf : f x = g x) :
    Common.updateWhere p f rows = Common.updateWhere (fun r => key r = k) g rows := by
  subst hk
  refine updateWhere_congr (fun r hr => ?_) fun r hr hk => ?_
  · by_cases hk : key r = key x
    · rw [h.eq_of_mem hr hx hk, hpx]
      simp
    · have : p r = false := by
        by_contra hpr
        exact hk (hp r (by simpa using hpr))
      simp [this, hk]
  · rw [h.eq_of_mem hr hx (by simpa using hk), hf]

@[simp] theorem updateWhere_append {rows rows' : List α} :
    updateWhere p f (rows ++ rows') = updateWhere p f rows ++ updateWhere p f rows' :=
  List.map_append

@[simp] theorem updateWhere_singleton :
    updateWhere p f [r] = [if p r then f r else r] :=
  rfl

@[simp] theorem length_updateWhere {rows : List α} :
    (updateWhere p f rows).length = rows.length :=
  List.length_map _

/-! ## Aggregates -/

/-- `max` over one more row. -/
theorem max?_concat {xs : List ℕ} {m : ℕ} (h : xs.max? = some m) (x : ℕ) :
    (xs ++ [x]).max? = some (max m x) := by
  cases xs with
  | nil => cases h
  | cons y ys =>
    rw [List.max?_cons', Option.some_inj] at h
    rw [List.cons_append, List.max?_cons', List.foldl_append, h]
    rfl

/-- `coalesce(max(..), least)` is an upper bound. -/
theorem le_foldl_max {xs : List ℕ} {least : ℕ} :
    least ≤ xs.foldl max least ∧ ∀ x ∈ xs, x ≤ xs.foldl max least := by
  induction xs generalizing least with
  | nil => exact ⟨Nat.le_refl _, fun x hx => by cases hx⟩
  | cons y ys ih =>
    obtain ⟨hleast, hys⟩ := @ih (max least y)
    refine ⟨Nat.le_trans (Nat.le_max_left least y) hleast, fun x hx => ?_⟩
    rcases List.mem_cons.1 hx with rfl | hx
    · exact Nat.le_trans (Nat.le_max_right least x) hleast
    · exact hys x hx

/-- It is taken from the rows unless it is the default. -/
theorem foldl_max_mem {xs : List ℕ} {least : ℕ} :
    xs.foldl max least = least ∨ xs.foldl max least ∈ xs := by
  induction xs generalizing least with
  | nil => exact Or.inl rfl
  | cons y ys ih =>
    rw [List.foldl_cons]
    rcases @ih (max least y) with h | h
    · rw [h]
      rcases Nat.le_total y least with hle | hle
      · exact Or.inl (Nat.max_eq_left hle)
      · rw [Nat.max_eq_right hle]
        exact Or.inr List.mem_cons_self
    · exact Or.inr (List.mem_cons_of_mem y h)

end Common
