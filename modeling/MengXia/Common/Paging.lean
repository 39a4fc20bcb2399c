import MengXia.Common.Rows
import Mathlib.Data.List.Sort
/-!
# Paging by key

A query that reads a table in pages: the rows above a start key in
ascending order, at most so many of them, and then again from the last key
read. `rowsAfter_resume` says that resuming loses and repeats nothing, and
`page_cases` is what an induction over the pages needs of one of them.
`follow` is the reader of all pages; `exists_follow` and `Covers.forall₂`
say when it comes to the end and what it has then seen.
-/

namespace Common

variable {α κ : Type} [LinearOrder κ]

/-- Lists in strict order are equal when they have the same elements. -/
theorem eq_of_pairwise_lt {key : α → κ} {xs ys : List α}
    (hxs : xs.Pairwise fun a b => key a < key b) (hys : ys.Pairwise fun a b => key a < key b)
    (hmem : ∀ x, x ∈ xs ↔ x ∈ ys) : xs = ys := by
  have hnodup : ∀ {zs : List α}, (zs.Pairwise fun a b => key a < key b) → zs.Nodup :=
    fun hzs => hzs.imp fun {a b} hab (heq : a = b) => absurd hab (heq ▸ lt_irrefl _)
  exact List.Perm.eq_of_pairwise (fun a b _ _ hab hba => absurd hab hba.asymm) hxs hys
    ((List.perm_ext_iff_of_nodup (hnodup hxs) (hnodup hys)).2 hmem)

/-- The rows in ascending order of their key. -/
def sortedBy (key : α → κ) (rows : List α) : List α :=
  rows.insertionSort fun a b => key a ≤ key b

/-- `WHERE key > start ORDER BY key`, with every row when there is no start. -/
def rowsAfter (key : α → κ) (start : Option κ) (rows : List α) : List α :=
  (sortedBy key rows).filter fun r => start.all fun k => decide (k < key r)

section Order

variable {key : α → κ} {rows : List α} {start : Option κ} {r : α}

@[simp] theorem mem_sortedBy : r ∈ sortedBy key rows ↔ r ∈ rows :=
  List.mem_insertionSort _

/-- The rows after a key. -/
theorem mem_rowsAfter : r ∈ rowsAfter key start rows ↔ r ∈ rows ∧ ∀ k ∈ start, k < key r := by
  unfold rowsAfter
  rw [List.mem_filter, mem_sortedBy]
  cases start <;> simp

@[simp] theorem mem_rowsAfter_none : r ∈ rowsAfter key none rows ↔ r ∈ rows := by
  simp [mem_rowsAfter]

/-- Without a key no row is left out. -/
theorem length_rowsAfter_none : (rowsAfter key none rows).length = rows.length := by
  unfold rowsAfter sortedBy
  simp

/-- Rows that are in order already are read as they are. -/
theorem rowsAfter_none_of_pairwise (h : rows.Pairwise fun a b => key a < key b) :
    rowsAfter key none rows = rows := by
  have hsorted : sortedBy key rows = rows := (h.imp fun hab => hab.le).insertionSort_eq
  unfold rowsAfter
  rw [hsorted]
  simp

/-- **The order is strict** when the key tells the rows apart. -/
theorem sortedBy_pairwise (h : Distinct key rows) :
    (sortedBy key rows).Pairwise fun a b => key a < key b := by
  have hle : (sortedBy key rows).Pairwise fun a b => key a ≤ key b := by
    have : IsTrans α fun a b => key a ≤ key b := ⟨fun _ _ _ => le_trans⟩
    have : Std.Total fun a b : α => key a ≤ key b := ⟨fun a b => le_total (key a) (key b)⟩
    exact List.pairwise_insertionSort _ _
  have hne : (sortedBy key rows).Pairwise fun a b => key a ≠ key b := by
    have hnodup : ((sortedBy key rows).map key).Nodup :=
      ((List.perm_insertionSort _ rows).map key).nodup_iff.2 h
    exact List.pairwise_map.1 hnodup
  exact hle.imp₂ (fun _ _ hab hne => lt_of_le_of_ne hab hne) hne

/-- A merge sort by a key that is no two rows' own gives the same order. -/
theorem mergeSort_eq_sortedBy (h : Distinct key rows) :
    rows.mergeSort (fun a b => decide (key a ≤ key b)) = sortedBy key rows := by
  have hle : (rows.mergeSort fun a b => decide (key a ≤ key b)).Pairwise
      fun a b => decide (key a ≤ key b) = true :=
    List.pairwise_mergeSort
      (fun a b c hab hbc => decide_eq_true ((of_decide_eq_true hab).trans (of_decide_eq_true hbc)))
      (fun a b => by simpa using le_total (key a) (key b)) rows
  have hne : (rows.mergeSort fun a b => decide (key a ≤ key b)).Pairwise
      fun a b => key a ≠ key b :=
    List.pairwise_map.1 (((List.mergeSort_perm rows _).map key).nodup_iff.2 h)
  have hlt : (rows.mergeSort fun a b => decide (key a ≤ key b)).Pairwise
      fun a b => key a < key b :=
    (hle.and hne).imp fun hab => lt_of_le_of_ne (of_decide_eq_true hab.1) hab.2
  refine eq_of_pairwise_lt hlt (sortedBy_pairwise h) fun x => ?_
  rw [List.mem_mergeSort, mem_sortedBy]

/-- These rows come in order. -/
theorem rowsAfter_pairwise (h : Distinct key rows) :
    (rowsAfter key start rows).Pairwise fun a b => key a < key b :=
  (sortedBy_pairwise h).filter _

/-- **Resuming loses and repeats nothing**: after the key of a row that was
read come exactly the rows that followed it. -/
theorem rowsAfter_resume (h : Distinct key rows) {before rest : List α}
    (hsplit : rowsAfter key start rows = before ++ r :: rest) :
    rowsAfter key (some (key r)) rows = rest := by
  have hr : r ∈ rowsAfter key start rows := by rw [hsplit]; simp
  have hstart := (mem_rowsAfter.1 hr).2
  have hnarrow : rowsAfter key (some (key r)) rows =
      (rowsAfter key start rows).filter fun x => decide (key r < key x) := by
    unfold rowsAfter
    rw [List.filter_filter]
    refine List.filter_congr fun x _ => ?_
    cases start with
    | none => simp
    | some k =>
      have hk : k < key r := hstart k rfl
      simpa using fun hx => hk.trans hx
  have hsorted : (rowsAfter key start rows).Pairwise fun a b => key a < key b :=
    rowsAfter_pairwise h
  rw [hsplit, List.pairwise_append] at hsorted
  obtain ⟨-, hright, hcross⟩ := hsorted
  obtain ⟨hrest, -⟩ := List.pairwise_cons.1 hright
  rw [hnarrow, hsplit, List.filter_append, List.filter_eq_nil_iff.2 fun x hx => ?_,
    List.nil_append, List.filter_cons_of_neg (by simp), List.filter_eq_self.2 fun x hx => ?_]
  · simpa using hrest x hx
  · simpa using (hcross x hx r (by simp)).le

/-- The rows after the first one that was read. -/
theorem rowsAfter_tail (h : Distinct key rows) {rest : List α}
    (hsplit : rowsAfter key start rows = r :: rest) :
    rowsAfter key (some (key r)) rows = rest :=
  rowsAfter_resume h (hsplit.trans (List.nil_append _).symm)

/-- The first row read has the least key. -/
theorem rowsAfter_head_le (h : Distinct key rows) {rest : List α}
    (hsplit : rowsAfter key start rows = r :: rest) {x : α} (hx : x ∈ rows)
    (hstart : ∀ k ∈ start, k < key x) : key r ≤ key x := by
  have hmem : x ∈ rowsAfter key start rows := mem_rowsAfter.2 ⟨hx, hstart⟩
  have hsorted : (rowsAfter key start rows).Pairwise fun a b => key a < key b :=
    rowsAfter_pairwise h
  rw [hsplit] at hmem hsorted
  rcases List.mem_cons.1 hmem with rfl | hmem
  · exact le_rfl
  · exact ((List.pairwise_cons.1 hsorted).1 x hmem).le

/-- **A reader sees the same rows in any table with the same keys.** Rows
are listed by what they show (`f`), in the order of its key. -/
theorem map_rowsAfter_eq {β : Type} {key' : β → κ} {rows' : List β} {f : α → β}
    (hkey : ∀ x ∈ rows, key' (f x) = key x) (h : Distinct key rows) (h' : Distinct key' rows')
    (hmem : ∀ y, y ∈ rows' ↔ ∃ x ∈ rows, f x = y) :
    (rowsAfter key start rows).map f = rowsAfter key' start rows' := by
  have hkeys : ∀ x ∈ rowsAfter key start rows, key' (f x) = key x :=
    fun x hx => hkey x (mem_rowsAfter.1 hx).1
  have hsorted : ((rowsAfter key start rows).map f).Pairwise fun a b => key' a < key' b := by
    rw [List.pairwise_map]
    refine (rowsAfter_pairwise h).imp_of_mem fun ha hb hab => ?_
    rwa [hkeys _ ha, hkeys _ hb]
  have hsorted' : (rowsAfter key' start rows').Pairwise fun a b => key' a < key' b :=
    rowsAfter_pairwise h'
  refine eq_of_pairwise_lt hsorted hsorted' fun y => ?_
  rw [List.mem_map, mem_rowsAfter, hmem]
  constructor
  · rintro ⟨x, hx, rfl⟩
    obtain ⟨hx, hstart⟩ := mem_rowsAfter.1 hx
    exact ⟨⟨x, hx, rfl⟩, fun k hk => (hkey x hx).symm ▸ hstart k hk⟩
  · rintro ⟨⟨x, hx, rfl⟩, hstart⟩
    exact ⟨x, mem_rowsAfter.2 ⟨hx, fun k hk => (hkey x hx) ▸ hstart k hk⟩, rfl⟩

/-- **One page**: either it holds all the rows that are left, or it ends
with a row from whose key the read goes on. -/
theorem page_cases (h : Distinct key rows) {limit : ℕ} (hlimit : 0 < limit) :
    ((rowsAfter key start rows).length ≤ limit ∧
        (rowsAfter key start rows).take limit = rowsAfter key start rows) ∨
      limit < (rowsAfter key start rows).length ∧ ∃ last,
        ((rowsAfter key start rows).take limit).getLast? = some last ∧
        rowsAfter key start rows =
          (rowsAfter key start rows).take limit ++ rowsAfter key (some (key last)) rows := by
  rcases Nat.lt_or_ge limit (rowsAfter key start rows).length with hlt | hle
  · refine Or.inr ⟨hlt, ?_⟩
    have hne : (rowsAfter key start rows).take limit ≠ [] := by
      intro hnil
      have := congrArg List.length hnil
      rw [List.length_take, List.length_nil] at this
      omega
    obtain ⟨before, last, hpage⟩ : ∃ before last,
        (rowsAfter key start rows).take limit = before ++ [last] :=
      ⟨_, _, (List.dropLast_append_getLast hne).symm⟩
    have hsplit : rowsAfter key start rows =
        before ++ last :: (rowsAfter key start rows).drop limit := by
      conv_lhs => rw [← List.take_append_drop limit (rowsAfter key start rows), hpage]
      simp
    refine ⟨last, by rw [hpage]; simp, ?_⟩
    rw [rowsAfter_resume h hsplit, List.take_append_drop]
  · exact Or.inl ⟨hle, List.take_of_length_le hle⟩

/-! ## Pages up to an endpoint -/

variable {after endpoint : κ}

/-- `WHERE key > after AND key <= endpoint ORDER BY key`. -/
def rowsWithin (key : α → κ) (after endpoint : κ) (rows : List α) : List α :=
  (rowsAfter key (some after) rows).filter fun r => decide (key r ≤ endpoint)

/-- The rows after a key, up to an endpoint. -/
theorem mem_rowsWithin :
    r ∈ rowsWithin key after endpoint rows ↔ r ∈ rows ∧ after < key r ∧ key r ≤ endpoint := by
  unfold rowsWithin
  rw [List.mem_filter, mem_rowsAfter, decide_eq_true_eq, and_assoc]
  simp

/-- These rows come in order. -/
theorem rowsWithin_pairwise (h : Distinct key rows) :
    (rowsWithin key after endpoint rows).Pairwise fun a b => key a < key b :=
  (rowsAfter_pairwise h).filter _

/-- **Resuming up to the same endpoint** loses and repeats nothing. -/
theorem rowsWithin_resume (h : Distinct key rows) {before rest : List α}
    (hsplit : rowsWithin key after endpoint rows = before ++ r :: rest) :
    rowsWithin key (key r) endpoint rows = rest := by
  have hsorted : (rowsWithin key after endpoint rows).Pairwise fun a b => key a < key b :=
    rowsWithin_pairwise h
  rw [hsplit, List.pairwise_append, List.pairwise_cons] at hsorted
  obtain ⟨-, ⟨habove, hrest⟩, hbelow⟩ := hsorted
  refine eq_of_pairwise_lt (rowsWithin_pairwise h) hrest fun x => ?_
  have hmem : x ∈ rowsWithin key after endpoint rows ↔ x ∈ before ∨ x = r ∨ x ∈ rest := by
    rw [hsplit, List.mem_append, List.mem_cons]
  have hr : r ∈ rowsWithin key after endpoint rows := by
    rw [hsplit]
    exact List.mem_append_right _ List.mem_cons_self
  obtain ⟨-, hlow, -⟩ := mem_rowsWithin.1 hr
  rw [mem_rowsWithin]
  constructor
  · rintro ⟨hx, hgt, hle⟩
    -- Rows before `r`, and `r` itself, are not above it.
    rcases hmem.1 (mem_rowsWithin.2 ⟨hx, hlow.trans hgt, hle⟩) with hx | rfl | hx
    · exact absurd hgt (hbelow x hx r List.mem_cons_self).asymm
    · exact absurd hgt (lt_irrefl _)
    · exact hx
  · intro hx
    obtain ⟨hrow, -, hle⟩ := mem_rowsWithin.1 (hmem.2 (Or.inr (Or.inr hx)))
    exact ⟨hrow, habove x hx, hle⟩

/-- **A table shows its entries up to the endpoint in order.** An entry is
what `tag` keeps of a row, its key among it. -/
theorem map_rowsWithin_eq {τ : Type} {tag : α → τ} {tagKey : τ → κ} {entries : List τ}
    (hkey : ∀ x, tagKey (tag x) = key x) (h : Distinct key rows) (h' : Distinct tagKey entries)
    (hmem : ∀ y, tagKey y ≤ endpoint → (y ∈ rows.map tag ↔ y ∈ entries)) :
    (rowsWithin key after endpoint rows).map tag = rowsWithin tagKey after endpoint entries := by
  have hsorted : ((rowsWithin key after endpoint rows).map tag).Pairwise
      fun a b => tagKey a < tagKey b := by
    rw [List.pairwise_map]
    simp only [hkey]
    exact rowsWithin_pairwise h
  refine eq_of_pairwise_lt hsorted (rowsWithin_pairwise h') fun y => ?_
  rw [List.mem_map, mem_rowsWithin]
  constructor
  · rintro ⟨x, hx, rfl⟩
    obtain ⟨hrow, hlow, hhigh⟩ := mem_rowsWithin.1 hx
    rw [← hkey] at hlow hhigh
    exact ⟨(hmem _ hhigh).1 (List.mem_map_of_mem hrow), hlow, hhigh⟩
  · rintro ⟨hy, hlow, hhigh⟩
    obtain ⟨x, hrow, rfl⟩ := List.mem_map.1 ((hmem y hhigh).2 hy)
    rw [hkey] at hlow hhigh
    exact ⟨x, mem_rowsWithin.2 ⟨hrow, hlow, hhigh⟩, rfl⟩

end Order

/-! ## Following cursors -/

section Follow

variable {σ κ ε α : Type} {next : α → Option κ} {ask : σ → Option κ → Except ε α}

variable (next ask) in
/-- A reader that follows the cursors of its answers, asking each time in the
next of the given states. There is no result when the states run out before
the pages do. -/
def follow : List σ → Option κ → Except ε (Option (List (σ × α)))
  | [], _ => .ok none
  | s :: steps, cursor => do
    let answer ← ask s cursor
    match next answer with
    | none => pure (some [(s, answer)])
    | some cursor => do
      let others ← follow steps (some cursor)
      pure (others.map ((s, answer) :: ·))

/-- The last page ends the listing. -/
theorem follow_last {s : σ} {steps : List σ} {cursor : Option κ} {answer : α}
    (hask : ask s cursor = .ok answer) (hnext : next answer = none) :
    follow next ask (s :: steps) cursor = .ok (some [(s, answer)]) := by
  unfold follow
  simp only [hask, bind, Except.bind, hnext]
  rfl

/-- A page with a cursor goes on. -/
theorem follow_more {s : σ} {steps : List σ} {cursor : Option κ} {answer : α}
    (hask : ask s cursor = .ok answer) {c : κ} (hnext : next answer = some c)
    {others : Option (List (σ × α))} (hothers : follow next ask steps (some c) = .ok others) :
    follow next ask (s :: steps) cursor = .ok (others.map ((s, answer) :: ·)) := by
  conv_lhs => unfold follow
  simp only [hask, bind, Except.bind, hnext, hothers]
  rfl

/-- Pages that take a reader from one position to another. -/
inductive Covers (Page : ℕ → ℕ → σ → α → Prop) : ℕ → ℕ → List (σ × α) → Prop where
  | last {m n : ℕ} {s : σ} {answer : α} (page : Page m n s answer) : Covers Page m n [(s, answer)]
  | cons {m m' n : ℕ} {s : σ} {answer : α} {pages : List (σ × α)} (page : Page m m' s answer)
      (rest : Covers Page m' n pages) : Covers Page m n ((s, answer) :: pages)

/-- **Following cursors ends.** When a page from each position goes further,
either to the end or to a position from which every later state continues,
then reading never fails, takes no more pages than there are positions
ahead, and covers what was ahead. -/
theorem exists_follow {Valid : σ → Prop} {At : ℕ → Option κ → σ → Prop}
    {Page : ℕ → ℕ → σ → α → Prop} {n : ℕ}
    (hpage : ∀ m cursor s, At m cursor s → ∃ answer m', ask s cursor = .ok answer ∧
      Page m m' s answer ∧ (next answer = none ∧ m' = n ∨
        ∃ c, next answer = some c ∧ m < m' ∧ m' < n ∧ ∀ s', Valid s' → At m' (some c) s'))
    {steps : List σ} (hsteps : ∀ s ∈ steps, Valid s) {m : ℕ} {cursor : Option κ} {s : σ}
    (hat : At m cursor s) :
    ∃ pages, follow next ask (s :: steps) cursor = .ok pages ∧
      (n - m ≤ steps.length + 1 → pages.isSome = true) ∧
      ∀ all ∈ pages, all.length ≤ max 1 (n - m) ∧ Covers Page m n all := by
  -- The induction is on the states that are left for further pages.
  induction steps generalizing m cursor s with
  | nil =>
    obtain ⟨answer, m', hask, hshows, ⟨hlast, rfl⟩ | ⟨c, hmore, hlow, hhigh, -⟩⟩ :=
      hpage m cursor s hat
    · refine ⟨_, follow_last hask hlast, fun _ => rfl, fun all hall => ?_⟩
      cases hall
      exact ⟨le_max_left _ _, .last hshows⟩
    · have hothers : follow next ask [] (some c) = .ok none := rfl
      refine ⟨_, follow_more hask hmore hothers, fun hfew => ?_, fun all hall => by cases hall⟩
      rw [List.length_nil] at hfew
      omega
  | cons s' steps ih =>
    obtain ⟨answer, m', hask, hshows, ⟨hlast, rfl⟩ | ⟨c, hmore, hlow, hhigh, hat'⟩⟩ :=
      hpage m cursor s hat
    · refine ⟨_, follow_last hask hlast, fun _ => rfl, fun all hall => ?_⟩
      cases hall
      exact ⟨le_max_left _ _, .last hshows⟩
    · obtain ⟨others, hothers, hends, hcovers⟩ := ih
        (fun x hx => hsteps x (List.mem_cons_of_mem s' hx))
        (hat' s' (hsteps s' List.mem_cons_self))
      refine ⟨_, follow_more hask hmore hothers, fun hfew => ?_, fun all hall => ?_⟩
      · rw [Option.isSome_map]
        rw [List.length_cons] at hfew
        exact hends (by omega)
      · obtain ⟨rest, hrest, rfl⟩ := Option.mem_map.1 hall
        obtain ⟨hlength, hcover⟩ := hcovers rest hrest
        refine ⟨?_, .cons hshows hcover⟩
        rw [List.length_cons]
        omega

/-- **What the pages show is what lay ahead**, when each page shows the part
that it passes. -/
theorem Covers.forall₂ {β τ : Type} {Page : ℕ → ℕ → σ → α → Prop} {part : ℕ → ℕ → List τ}
    (hpart : ∀ {m m' n : ℕ}, m ≤ m' → m' ≤ n → part m n = part m m' ++ part m' n)
    {rows : σ × α → List β} {R : τ → β → Prop} {m n : ℕ} {pages : List (σ × α)}
    (h : Covers Page m n pages) (hpage : ∀ m m' s answer, Page m m' s answer →
      m ≤ m' ∧ List.Forall₂ R (part m m') (rows (s, answer))) :
    m ≤ n ∧ List.Forall₂ R (part m n) (pages.flatMap rows) := by
  induction h with
  | last page =>
    rw [List.flatMap_singleton]
    exact hpage _ _ _ _ page
  | cons page _ ih =>
    obtain ⟨hle, hshown⟩ := hpage _ _ _ _ page
    obtain ⟨hle', hrest⟩ := ih
    refine ⟨hle.trans hle', ?_⟩
    rw [hpart hle hle', List.flatMap_cons]
    exact List.rel_append hshown hrest

/-- A part of a list is made of the parts before and behind a position. -/
theorem take_drop_append {τ : Type} (items : List τ) {m m' n : ℕ} (h : m ≤ m') (h' : m' ≤ n) :
    (items.drop m).take (n - m) =
      (items.drop m).take (m' - m) ++ (items.drop m').take (n - m') := by
  have hparts : n - m = (m' - m) + (n - m') := by omega
  rw [hparts, List.take_add, List.drop_drop, Nat.add_sub_cancel' h]

end Follow

end Common
