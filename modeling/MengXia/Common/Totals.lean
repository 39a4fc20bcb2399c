import Mathlib
/-!
# Totals over a list of holders

The sum of a weight over the entries of a list, and how it changes when one
entry is replaced, added or removed. A counter that is meant to equal such
a total is kept equal by applying the same change to both. A pool of slots
is a list of flags, and who holds which slot a list of indices.
-/

namespace Common

variable {α β : Type}

/-- The sum of a weight over the entries of a list. -/
def total (f : α → ℕ) (xs : List α) : ℕ :=
  (xs.map f).sum

@[simp] theorem total_cons (f : α → ℕ) (x : α) (xs : List α) :
    total f (x :: xs) = f x + total f xs := by
  simp [total]

@[simp] theorem total_append (f : α → ℕ) (xs ys : List α) :
    total f (xs ++ ys) = total f xs + total f ys := by
  simp [total]

/-- Nothing adds up to nothing. -/
theorem total_eq_zero {f : α → ℕ} {xs : List α} (h : ∀ x ∈ xs, f x = 0) : total f xs = 0 := by
  rw [total, List.sum_eq_zero_iff, List.forall_mem_map]
  exact h

/-- No entry weighs more than the total. -/
theorem le_total {f : α → ℕ} {x : α} {xs : List α} (h : x ∈ xs) : f x ≤ total f xs :=
  List.le_sum_of_mem (List.mem_map_of_mem h)

/-- The entry that is removed and the rest are the whole list. -/
theorem perm_cons_eraseIdx {xs : List α} {i : ℕ} {x : α} (h : xs[i]? = some x) :
    xs.Perm (x :: xs.eraseIdx i) := by
  obtain ⟨hi, rfl⟩ := List.getElem?_eq_some_iff.1 h
  exact (List.getElem_cons_eraseIdx_perm hi).symm

/-- **Removing one entry** takes its weight off the total. -/
theorem total_eraseIdx (f : α → ℕ) {xs : List α} {i : ℕ} {x : α} (h : xs[i]? = some x) :
    total f (xs.eraseIdx i) + f x = total f xs := by
  have hsum := ((perm_cons_eraseIdx h).map f).sum_eq
  rw [List.map_cons, List.sum_cons, Nat.add_comm] at hsum
  exact hsum.symm

/-- **Replacing one entry** changes the total by the difference. -/
theorem total_set (f : α → ℕ) {xs : List α} {i : ℕ} {x : α} (h : xs[i]? = some x) (y : α) :
    total f (xs.set i y) + f x = total f xs + f y := by
  obtain ⟨hi, -⟩ := List.getElem?_eq_some_iff.1 h
  have hset := total_eraseIdx f (List.getElem?_set_self (a := y) hi)
  rw [List.eraseIdx_set_eq] at hset
  have hbefore := total_eraseIdx f h
  omega

/-- The entries after a replacement. -/
theorem forall_mem_set {P : α → Prop} {xs : List α} {i : ℕ} {y : α} (h : ∀ x ∈ xs, P x)
    (hy : P y) : ∀ x ∈ xs.set i y, P x := by
  intro x hx
  rcases List.mem_or_eq_of_mem_set hx with hx | rfl
  · exact h x hx
  · exact hy

/-! ## Slots -/

/-- Which indices of a pool are held: those that are not idle, each once. -/
structure Held (idle : List Bool) (indices : List ℕ) : Prop where
  nodup : indices.Nodup
  busy : ∀ k, idle[k]? = some false ↔ k ∈ indices

namespace Held

variable {idle : List Bool} {indices indices' : List ℕ} {k : ℕ}

/-- In a pool that is idle no index is held. -/
theorem replicate (n : ℕ) : Held (List.replicate n true) [] := by
  refine ⟨List.nodup_nil, fun k => ⟨fun h => ?_, fun h => (by cases h)⟩⟩
  rw [List.getElem?_replicate] at h
  split at h <;> cases h

theorem perm (h : Held idle indices) (hperm : indices.Perm indices') : Held idle indices' :=
  ⟨hperm.nodup h.nodup, fun k => (h.busy k).trans hperm.mem_iff⟩

/-- An idle slot may be taken. -/
theorem take (h : Held idle indices) (hidle : idle[k]? = some true) :
    Held (idle.set k false) (indices ++ [k]) := by
  have hfree : k ∉ indices := by
    rw [← h.busy k, hidle]
    decide
  obtain ⟨hk, -⟩ := List.getElem?_eq_some_iff.1 hidle
  refine ⟨?_, fun j => ?_⟩
  · refine List.nodup_append.2 ⟨h.nodup, List.pairwise_singleton _ k, fun a ha b hb => ?_⟩
    rw [List.mem_singleton.1 hb]
    rintro rfl
    exact hfree ha
  · rw [List.mem_append, List.mem_singleton, ← h.busy j, List.getElem?_set]
    split
    · next hj => simp [← hj, hk]
    · next hj => simp [Ne.symm hj]

/-- The slot that is first in the list of the held ones may be given back. -/
theorem give (h : Held idle (k :: indices)) : Held (idle.set k true) indices := by
  obtain ⟨hfree, hnodup⟩ := List.nodup_cons.1 h.nodup
  refine ⟨hnodup, fun j => ?_⟩
  have hbusy := h.busy j
  rw [List.getElem?_set]
  split
  · next hj =>
    subst hj
    have hk : k < idle.length := (List.getElem?_eq_some_iff.1 ((h.busy k).2 List.mem_cons_self)).1
    simp [hk, hfree]
  · next hj => rw [hbusy, List.mem_cons, or_iff_right (Ne.symm hj)]

end Held

end Common
