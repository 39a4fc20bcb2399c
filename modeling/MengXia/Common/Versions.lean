import MengXia.Common.Rows
/-!
# Versioned items

Items of one table whose versions are rows of another. An item counts its
versions and points to the current one; `Numbered` says that counter,
pointer and rows agree. Creating an item with its first version and adding
the next version of an item keep it. `currentRows` joins items with their
current versions.
-/

namespace Common

/-- The columns of items and of their versions. -/
structure Versioning (α β κ ρ : Type) where
  id : α → κ
  revision : α → ℕ
  current : α → ρ
  owner : β → κ
  sequence : β → ℕ
  version : β → ρ

namespace Versioning

variable {α β κ ρ : Type} [DecidableEq κ] (V : Versioning α β κ ρ)

/-- The versions of an item. -/
def versionsOf (rows : List β) (k : κ) : List β :=
  rows.filter fun r => V.owner r = k

/-- Each item has the versions 1 to its revision, and points to the last. -/
structure Numbered (items : List α) (rows : List β) : Prop where
  sequences : ∀ x ∈ items,
    (V.versionsOf rows (V.id x)).map V.sequence = (List.range (V.revision x)).map (· + 1)
  current : ∀ x ∈ items, ∃ r ∈ rows, V.owner r = V.id x ∧ V.version r = V.current x ∧
    V.sequence r = V.revision x

variable {V} {items : List α} {rows : List β}

/-- A version of another item. -/
theorem versionsOf_concat_of_ne {k : κ} {r : β} (h : V.owner r ≠ k) :
    V.versionsOf (rows ++ [r]) k = V.versionsOf rows k := by
  unfold versionsOf
  rw [List.filter_append]
  simp [h]

/-- A version of the item itself. -/
theorem versionsOf_concat {r : β} :
    V.versionsOf (rows ++ [r]) (V.owner r) = V.versionsOf rows (V.owner r) ++ [r] := by
  unfold versionsOf
  rw [List.filter_append]
  simp

/-- The number of versions is the revision. -/
theorem Numbered.length_eq (h : V.Numbered items rows) {x : α} (hx : x ∈ items) :
    (V.versionsOf rows (V.id x)).length = V.revision x := by
  have hlength := congrArg List.length (h.sequences x hx)
  simpa using hlength

/-- **A new item** with its first version. -/
theorem Numbered.create (h : V.Numbered items rows) {x : α} {r : β} (howner : V.owner r = V.id x)
    (hrevision : V.revision x = 1) (hsequence : V.sequence r = 1)
    (hcurrent : V.version r = V.current x) (hitems : ∀ y ∈ items, V.id y ≠ V.id x)
    (hrows : ∀ r' ∈ rows, V.owner r' ≠ V.id x) : V.Numbered (items ++ [x]) (rows ++ [r]) := by
  refine ⟨forall_mem_append_singleton (fun y hy => ?_) ?_,
    forall_mem_append_singleton (fun y hy => ?_) ?_⟩
  · rw [versionsOf_concat_of_ne fun h => hitems y hy (h.symm.trans howner)]
    exact h.sequences y hy
  · have hnone : V.versionsOf rows (V.owner r) = [] :=
      List.filter_eq_nil_iff.2 fun r' hr' => by simpa [howner] using hrows r' hr'
    rw [← howner, versionsOf_concat, hnone, hrevision]
    simp [hsequence]
  · obtain ⟨r', hr', hrow⟩ := h.current y hy
    exact ⟨r', List.mem_append_left _ hr', hrow⟩
  · exact ⟨r, List.mem_concat_self, howner, hcurrent, hsequence.trans hrevision.symm⟩

/-- **The next version** of an item. -/
theorem Numbered.revise (h : V.Numbered items rows) {f : α → α} {r : β}
    (hid : ∀ y, V.id (f y) = V.id y)
    (hnext : ∀ y ∈ items, V.id y = V.owner r → V.sequence r = V.revision y + 1 ∧
      V.revision (f y) = V.sequence r ∧ V.current (f y) = V.version r) :
    V.Numbered (updateWhere (fun y => V.id y = V.owner r) f items) (rows ++ [r]) := by
  refine ⟨fun y hy => ?_, fun y hy => ?_⟩
  · rcases mem_updateWhere_iff.1 hy with ⟨x, hx, hk, rfl⟩ | ⟨hy, hk⟩
    · have hk := of_decide_eq_true hk
      obtain ⟨hsequence, hrevision, -⟩ := hnext x hx hk
      have hold := h.sequences x hx
      rw [hk] at hold
      rw [hid, hk, versionsOf_concat, List.map_append, hold, hrevision, hsequence,
        List.range_succ, List.map_append]
      simp [hsequence]
    · rw [versionsOf_concat_of_ne fun h => of_decide_eq_false hk h.symm]
      exact h.sequences y hy
  · rcases mem_updateWhere_iff.1 hy with ⟨x, hx, hk, rfl⟩ | ⟨hy, hk⟩
    · have hk := of_decide_eq_true hk
      obtain ⟨-, hrevision, hcurrent⟩ := hnext x hx hk
      exact ⟨r, List.mem_concat_self, by rw [hid, hk], hcurrent.symm, hrevision.symm⟩
    · obtain ⟨r', hr', hrow⟩ := h.current y hy
      exact ⟨r', List.mem_append_left _ hr', hrow⟩

/-! ## Current versions -/

section Current

variable [DecidableEq ρ] {p : α → Bool} {z : α × β}

/-- The items that pass a check, each with its current version. -/
def currentRows (V : Versioning α β κ ρ) (p : α → Bool) (items : List α) (rows : List β) :
    List (α × β) :=
  select p items fun x =>
    select (fun r => V.owner r = V.id x && V.version r = V.current x) rows fun r => [(x, r)]

/-- The current versions of the items that are chosen. -/
theorem mem_currentRows : z ∈ V.currentRows p items rows ↔ (z.1 ∈ items ∧ p z.1 = true) ∧
    z.2 ∈ rows ∧ V.owner z.2 = V.id z.1 ∧ V.version z.2 = V.current z.1 := by
  simp only [currentRows, mem_select, List.mem_singleton, Bool.and_eq_true, decide_eq_true_eq]
  constructor
  · rintro ⟨x, hx, hp, r, hr, hkeys, rfl⟩
    exact ⟨⟨hx, hp⟩, hr, hkeys⟩
  · rintro ⟨⟨hx, hp⟩, hr, hkeys⟩
    exact ⟨z.1, hx, hp, z.2, hr, hkeys, rfl⟩

/-- A key of the items is one of the join, where versions are distinct. -/
theorem distinct_currentRows {γ : Type} {key : α → γ} (h : Distinct key items)
    (hversions : Distinct V.version rows) :
    Distinct (fun z => key z.1) (V.currentRows p items rows) := by
  refine h.select (fun x _ z hz => ?_) fun x _ _ => ?_
  · simp only [mem_select, List.mem_singleton] at hz
    obtain ⟨r, -, -, rfl⟩ := hz
    rfl
  · unfold Common.select
    rw [← List.map_eq_flatMap, List.length_map]
    refine (hversions.filter _).length_le_one fun r hr r' hr' => ?_
    simp only [List.mem_filter, Bool.and_eq_true, decide_eq_true_eq] at hr hr'
    rw [hr.2.2, hr'.2.2]

/-- No item that has its current version is missing from the join. -/
theorem mem_map_currentRows {γ : Type} (f : α → γ) {c : γ}
    (h : ∀ x ∈ items, ∃ r ∈ rows, (V.owner r, V.version r) = (V.id x, V.current x)) :
    c ∈ (V.currentRows p items rows).map (fun z => f z.1) ↔ c ∈ (items.filter p).map f := by
  simp only [List.mem_map, List.mem_filter, mem_currentRows]
  constructor
  · rintro ⟨z, ⟨hz, -⟩, rfl⟩
    exact ⟨z.1, hz, rfl⟩
  · rintro ⟨x, hx, rfl⟩
    obtain ⟨r, hr, hkeys⟩ := h x hx.1
    exact ⟨(x, r), ⟨hx, hr, Prod.mk.inj hkeys⟩, rfl⟩

/-- The current version has the revision of its item as its number. -/
theorem Numbered.revision_eq (h : V.Numbered items rows) (hversions : Distinct V.version rows)
    (hz : z ∈ V.currentRows p items rows) : V.revision z.1 = V.sequence z.2 := by
  obtain ⟨⟨hx, -⟩, hr, -, hcurrent⟩ := mem_currentRows.1 hz
  obtain ⟨r, hr', -, hcurrent', hsequence⟩ := h.current z.1 hx
  rw [hversions.eq_of_mem hr hr' (hcurrent.trans hcurrent'.symm), hsequence]

end Current

end Versioning

end Common
