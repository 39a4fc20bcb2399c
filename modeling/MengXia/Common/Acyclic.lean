import Mathlib.Data.List.Basic
import Mathlib.Logic.Relation
/-!
# Acyclic relations

A relation no path of which returns to its start. Adding one edge keeps a
relation acyclic exactly when no path leads back from its head to its
tail, and a relation along which a rank decreases is acyclic and leads
down to the elements that have no successor.
-/

namespace Common

open Relation

variable {α : Type} {r s : α → α → Prop} {a b : α}

/-- No path of the relation returns to its start. -/
def Acyclic (r : α → α → Prop) : Prop := ∀ x, ¬ TransGen r x x

/-- The relation with one more edge. -/
def WithEdge (r : α → α → Prop) (a b : α) (x y : α) : Prop := r x y ∨ x = a ∧ y = b

/-- A path over the larger relation either stays in the smaller one, or it
reaches the new edge by the smaller one and leaves it by the smaller one. -/
theorem transGen_withEdge {x y : α} (h : TransGen (WithEdge r a b) x y) :
    TransGen r x y ∨ ReflTransGen r x a ∧ ReflTransGen r b y := by
  induction h with
  | single hedge =>
    rcases hedge with hold | ⟨rfl, rfl⟩
    · exact Or.inl (.single hold)
    · exact Or.inr ⟨.refl, .refl⟩
  | tail _ hedge ih =>
    rcases hedge with hold | ⟨rfl, rfl⟩
    · rcases ih with hpath | ⟨hto, hfrom⟩
      · exact Or.inl (hpath.tail hold)
      · exact Or.inr ⟨hto, hfrom.tail hold⟩
    · rcases ih with hpath | ⟨hto, -⟩
      · exact Or.inr ⟨hpath.to_reflTransGen, .refl⟩
      · exact Or.inr ⟨hto, .refl⟩

/-- **One more edge** keeps a relation acyclic exactly when nothing leads
back from its head to its tail. -/
theorem acyclic_withEdge_iff (h : Acyclic r) :
    Acyclic (WithEdge r a b) ↔ ¬ ReflTransGen r b a := by
  constructor
  · intro hacyclic hback
    have hold : ReflTransGen (WithEdge r a b) b a :=
      ReflTransGen.mono (fun _ _ hxy => Or.inl hxy) b a hback
    exact hacyclic a (TransGen.head' (Or.inr ⟨rfl, rfl⟩) hold)
  · intro hback x hx
    rcases transGen_withEdge hx with hpath | ⟨hto, hfrom⟩
    · exact h x hpath
    · exact hback (hfrom.trans hto)

/-- A rank that every edge decreases. -/
theorem acyclic_of_rank (rank : α → ℕ) (h : ∀ x y, r x y → rank y < rank x) : Acyclic r := by
  have hpath : ∀ x y, TransGen r x y → rank y < rank x := by
    intro x y hxy
    induction hxy with
    | single hedge => exact h _ _ hedge
    | tail _ hedge ih => exact Nat.lt_trans (h _ _ hedge) ih
  exact fun x hx => Nat.lt_irrefl _ (hpath x x hx)

/-- **Every element leads down to a last one**, when each of a set has a
successor in the set of smaller rank unless it is last. -/
theorem exists_reflTransGen_last {P Last : α → Prop} (rank : α → ℕ)
    (hstep : ∀ x, P x → Last x ∨ ∃ y, r x y ∧ P y ∧ rank y < rank x) {x : α} (hx : P x) :
    ∃ y, ReflTransGen r x y ∧ P y ∧ Last y := by
  -- the rank of the element bounds the number of steps that are left
  obtain ⟨n, hn⟩ : ∃ n, rank x ≤ n := ⟨rank x, Nat.le_refl _⟩
  induction n generalizing x with
  | zero =>
    rcases hstep x hx with hlast | ⟨y, -, -, hrank⟩
    · exact ⟨x, .refl, hx, hlast⟩
    · exact absurd (Nat.lt_of_lt_of_le hrank hn) (Nat.not_lt_zero _)
  | succ n ih =>
    rcases hstep x hx with hlast | ⟨y, hedge, hy, hrank⟩
    · exact ⟨x, .refl, hx, hlast⟩
    · obtain ⟨z, hpath, hz, hlast⟩ := ih hy (Nat.le_of_lt_succ (Nat.lt_of_lt_of_le hrank hn))
      exact ⟨z, .head hedge hpath, hz, hlast⟩

end Common
