import MengXia.Common.Acyclic
import MengXia.Store.RevisionProgress
/-!
# The revisions of an asset

The revisions of each asset are numbered from 1 without a gap. The first
one has no parent; every other one has parents among the earlier revisions
of its asset. So following parents from a revision never returns to it and
leads to the first revision.
-/

namespace MengXia.Store

open Common Relation

variable {allowed : Call → Prop}

variable {d d' : Database} {t t' : Tables} {m : ℕ} {row : AssetRevisionRow}

/-- The revision rows of an asset, in the order in which they were inserted. -/
def revisionsOf (t : Tables) (assetId : Id .asset) : List AssetRevisionRow :=
  t.assetRevisions.filter fun r => r.assetId = assetId

/-- One revision is a parent of another. -/
def HasParent (t : Tables) (child parent : Id .assetRevision) : Prop :=
  ∃ p ∈ t.parents, p.childRevisionId = child ∧ p.parentRevisionId = parent

/-- A parent row whose two ends are revisions of one asset, in order. -/
def ParentRow.Descends (t : Tables) (p : ParentRow) : Prop :=
  ∃ x ∈ t.assetRevisions, ∃ y ∈ t.assetRevisions, x.assetRevisionId = p.childRevisionId ∧
    y.assetRevisionId = p.parentRevisionId ∧ y.assetId = x.assetId ∧ y.sequence < x.sequence

/-- The revisions of each asset are its first one and what derives from it. -/
structure RevisionGraph (t : Tables) : Prop where
  numbered : ∀ assetId, ∃ n, (revisionsOf t assetId).map AssetRevisionRow.sequence =
    (List.range n).map (· + 1)
  first : ∀ x ∈ t.assetRevisions, x.sequence = 1 →
    ∀ p ∈ t.parents, p.childRevisionId ≠ x.assetRevisionId
  descends : ∀ p ∈ t.parents, p.Descends t
  derived : ∀ x ∈ t.assetRevisions, x.sequence ≠ 1 →
    ∃ p ∈ t.parents, p.childRevisionId = x.assetRevisionId

/-! ## Numbering -/

/-- The rows of the first `n` revisions have the maximum `n`. -/
theorem eq_of_max?_range {n : ℕ} (h : ((List.range n).map (· + 1)).max? = some m) :
    m = n ∧ 0 < n := by
  rw [List.max?_eq_some_iff] at h
  obtain ⟨k, hk, rfl⟩ := List.mem_map.1 h.1
  have hkn := List.mem_range.1 hk
  have hlast := h.2 n (List.mem_map.2 ⟨n - 1, List.mem_range.2 (by omega), by omega⟩)
  omega

/-- **The counter is the number of revisions**, where it is their maximum. -/
theorem RevisionGraph.numbered_of_max (h : RevisionGraph t) {assetId : Id .asset}
    (hmax : maxRevisionSequence t assetId = some m) :
    (revisionsOf t assetId).map AssetRevisionRow.sequence = (List.range m).map (· + 1) ∧
      0 < m := by
  obtain ⟨n, hn⟩ := h.numbered assetId
  unfold maxRevisionSequence at hmax
  unfold revisionsOf at hn ⊢
  rw [hn] at hmax
  obtain ⟨rfl, hpos⟩ := eq_of_max?_range hmax
  exact ⟨hn, hpos⟩

theorem revisionsOf_concat (h : t'.assetRevisions = t.assetRevisions ++ [row])
    (assetId : Id .asset) :
    revisionsOf t' assetId =
      revisionsOf t assetId ++ if row.assetId = assetId then [row] else [] := by
  unfold revisionsOf
  rw [h, List.filter_append]
  by_cases hid : row.assetId = assetId
  · simp [hid]
  · simp [hid]

/-- One more row, numbered next, keeps the numbering. -/
theorem numbered_concat
    (h : ∀ assetId, ∃ n, (revisionsOf t assetId).map AssetRevisionRow.sequence =
      (List.range n).map (· + 1)) (hrows : t'.assetRevisions = t.assetRevisions ++ [row])
    (hnext : (revisionsOf t row.assetId).map AssetRevisionRow.sequence ++ [row.sequence] =
      (List.range row.sequence).map (· + 1)) (assetId : Id .asset) :
    ∃ n, (revisionsOf t' assetId).map AssetRevisionRow.sequence =
      (List.range n).map (· + 1) := by
  rw [revisionsOf_concat hrows]
  by_cases hid : row.assetId = assetId
  · subst hid
    refine ⟨row.sequence, ?_⟩
    rw [if_pos rfl, List.map_append]
    exact hnext
  · rw [if_neg hid, List.append_nil]
    exact h assetId

/-! ## Steps -/

theorem ParentRow.Descends.append {p : ParentRow} (h : p.Descends t) {added : List AssetRevisionRow}
    (hrows : t'.assetRevisions = t.assetRevisions ++ added) :
    p.Descends t' := by
  obtain ⟨x, hx, y, hy, hends⟩ := h
  exact ⟨x, hrows ▸ List.mem_append_left _ hx, y, hrows ▸ List.mem_append_left _ hy, hends⟩

/-- **A registered asset** starts with its first revision. -/
theorem RevisionGraph.registered (h : RevisionGraph d) {asset : AssetRow}
    (hassets : d'.assets = d.assets ++ [asset]) (howner : row.assetId = asset.assetId)
    (hsequence : row.sequence = 1) (hrows : d'.assetRevisions = d.assetRevisions ++ [row])
    (hparents : d'.parents = d.parents) :
    RevisionGraph d' := by
  have hkeys := d'.consistent.revisionKeys
  have hassetKeys := d'.consistent.assetKeys
  rw [hrows] at hkeys
  rw [hassets] at hassetKeys
  have hnone : revisionsOf d row.assetId = [] := by
    refine List.filter_eq_nil_iff.2 fun r hr => ?_
    obtain ⟨a, ha, hid⟩ := d.consistent.revisionAssets r hr
    rw [decide_eq_true_eq]
    exact fun howns => (distinct_append_singleton.1 hassetKeys).2 a ha
      (hid.trans (howns.trans howner))
  refine ⟨numbered_concat h.numbered hrows (by rw [hnone, hsequence]; rfl), ?_, ?_, ?_⟩
  · rw [hrows, hparents]
    refine forall_mem_append_singleton h.first fun _ p hp hchild => ?_
    obtain ⟨x, hx, hid⟩ := d.consistent.parentChildren p hp
    exact (distinct_append_singleton.1 hkeys).2 x hx ((Prod.ext_iff.1 hid).2.trans hchild)
  · rw [hparents]
    exact fun p hp => (h.descends p hp).append hrows
  · rw [hrows, hparents]
    exact forall_mem_append_singleton h.derived fun hne => absurd hsequence hne

/-- **A revision that is created** derives from earlier ones of its asset. -/
theorem RevisionGraph.revisionCreated (h : RevisionGraph d) {context : StoreContext}
    {request : CreateAssetRevisionCommand}
    (maximum : maxRevisionSequence d request.revision.assetId = some m)
    (parents : ∀ parent ∈ request.revision.parentRevisionIds, ∃ x ∈ d.assetRevisions,
      x.assetId = request.revision.assetId ∧ x.assetRevisionId = parent)
    (hrows : d'.assetRevisions = d.assetRevisions ++ [revisionRow context request (m + 1)])
    (hparents : d'.parents = d.parents ++ parentRows request) : RevisionGraph d' := by
  obtain ⟨hnumbered, hpos⟩ := h.numbered_of_max maximum
  have hkeys := d'.consistent.revisionKeys
  rw [hrows] at hkeys
  have hnew := (distinct_append_singleton.1 hkeys).2
  have hnext : (revisionsOf d request.revision.assetId).map AssetRevisionRow.sequence ++
      [m + 1] = (List.range (m + 1)).map (· + 1) := by
    rw [hnumbered, List.range_succ, List.map_append]
    rfl
  refine ⟨numbered_concat h.numbered hrows hnext, ?_, ?_, ?_⟩
  · rw [hrows, hparents]
    refine forall_mem_append_singleton (fun x hx hone p hp hchild => ?_) fun hone => ?_
    · rcases List.mem_append.1 hp with hp | hp
      · exact h.first x hx hone p hp hchild
      · obtain ⟨i, parent, -, -, rfl⟩ := mem_enumerated hp
        exact hnew x hx hchild.symm
    · exact absurd (Nat.succ.inj hone) (Nat.ne_of_gt hpos)
  · rw [hparents]
    intro p hp
    rcases List.mem_append.1 hp with hp | hp
    · exact (h.descends p hp).append hrows
    · obtain ⟨i, parent, hparent, -, rfl⟩ := mem_enumerated hp
      obtain ⟨y, hy, howner, hid⟩ := parents parent hparent
      refine ⟨_, hrows ▸ List.mem_concat_self, y, hrows ▸ List.mem_append_left _ hy, rfl, hid,
        howner, ?_⟩
      -- the parent is one of the `m` revisions that the asset has
      have hmem : y.sequence ∈ (List.range m).map (· + 1) := by
        rw [← hnumbered]
        exact List.mem_map_of_mem (List.mem_filter.2 ⟨hy, decide_eq_true howner⟩)
      obtain ⟨k, hk, hkey⟩ := List.mem_map.1 hmem
      rw [← hkey]
      exact Nat.succ_lt_succ (List.mem_range.1 hk)
  · rw [hrows, hparents]
    refine forall_mem_append_singleton (fun x hx hne => ?_) fun _ => ?_
    · obtain ⟨p, hp, hchild⟩ := h.derived x hx hne
      exact ⟨p, List.mem_append_left _ hp, hchild⟩
    · obtain ⟨parent, rest, hlist⟩ :=
        List.exists_cons_of_ne_nil request.revision.graph.parentsNonempty
      refine ⟨revisionParentRow request 0 parent, List.mem_append_right _ ?_, rfl⟩
      rw [parentRows, hlist]
      exact List.mem_cons_self

theorem RevisionGraph.change (h : RevisionGraph d)
    (hchange : Change allowed d d') : RevisionGraph d' := by
  generalize ht : d'.toTables = t' at hchange
  cases hchange with
  | registered =>
    have hparents : d'.parents = d.parents := by rw [ht]
    exact ht ▸ h.registered (congrArg Tables.assets ht) rfl rfl
      (congrArg Tables.assetRevisions ht) hparents
  | revisionCreated context request asset fresh mem id active maximum next room parents =>
    exact ht ▸ h.revisionCreated maximum parents (congrArg Tables.assetRevisions ht)
      (congrArg Tables.parents ht)
  | claimed | moved | rejected | lifecycleChanged | locationRecorded | projectCreated
  | projectRevised | projectRevisionLeft | subjectCreated | workCreated | workRevised
  | workRevisionLeft | takeCreated | takeMoved | takeReplaced | takeSuperseded | takeReopened =>
    exact { h with }

theorem Reachable.revisionGraph (h : Reachable allowed d) :
    RevisionGraph d :=
  h.induct (P := RevisionGraph)
    ⟨fun _ => ⟨0, rfl⟩, fun x hx => (by cases hx), fun p hp => (by cases hp),
      fun x hx => (by cases hx)⟩
    fun _ _ ih hchange => ih.change hchange

/-! ## Every reachable library -/

/-- The sequence of a revision, or zero. -/
def sequenceOf (t : Tables) (id : Id .assetRevision) : ℕ :=
  ((t.assetRevisions.find? fun r => r.assetRevisionId = id).map AssetRevisionRow.sequence).getD 0

theorem sequenceOf_eq {x : AssetRevisionRow} (hx : x ∈ d.assetRevisions) :
    sequenceOf d x.assetRevisionId = x.sequence := by
  unfold sequenceOf
  rw [d.consistent.revisionKeys.find?_eq hx]
  rfl

/-- Along a parent the sequence decreases within the asset. -/
theorem RevisionGraph.lt_of_hasParent (h : RevisionGraph d)
    {child parent : Id .assetRevision} (hparent : HasParent d child parent) :
    sequenceOf d parent < sequenceOf d child := by
  obtain ⟨p, hp, rfl, rfl⟩ := hparent
  obtain ⟨x, hx, y, hy, hchild, hpar, -, hlt⟩ := h.descends p hp
  rw [← hchild, ← hpar, sequenceOf_eq hx, sequenceOf_eq hy]
  exact hlt

/-- **Following parents leads to the first revision.** -/
theorem RevisionGraph.reaches_first (h : RevisionGraph d) {x : AssetRevisionRow}
    (hx : x ∈ d.assetRevisions) :
    ∃ first ∈ d.assetRevisions, first.assetId = x.assetId ∧ first.sequence = 1 ∧
      ReflTransGen (HasParent d) x.assetRevisionId first.assetRevisionId := by
  have hstep : ∀ id : Id .assetRevision,
      (∃ y ∈ d.assetRevisions, y.assetRevisionId = id ∧ y.assetId = x.assetId) →
      (∃ y ∈ d.assetRevisions, y.assetRevisionId = id ∧ y.sequence = 1) ∨
      ∃ parent, HasParent d id parent ∧
        (∃ y ∈ d.assetRevisions, y.assetRevisionId = parent ∧ y.assetId = x.assetId) ∧
        sequenceOf d parent < sequenceOf d id := by
    rintro _ ⟨y, hy, rfl, howner⟩
    by_cases hone : y.sequence = 1
    · exact Or.inl ⟨y, hy, rfl, hone⟩
    · obtain ⟨p, hp, hchild⟩ := h.derived y hy hone
      have hparent : HasParent d y.assetRevisionId p.parentRevisionId :=
        ⟨p, hp, hchild, rfl⟩
      obtain ⟨y', hy', z, hz, hid, hpar, hsame, -⟩ := h.descends p hp
      obtain rfl := d.consistent.revisionKeys.eq_of_mem hy' hy (hid.trans hchild)
      exact Or.inr ⟨_, hparent, ⟨z, hz, hpar, hsame.trans howner⟩, h.lt_of_hasParent hparent⟩
  obtain ⟨_, hpath, ⟨y, hy, rfl, howner⟩, z, hz, hid, hone⟩ :=
    exists_reflTransGen_last (sequenceOf d) hstep ⟨x, hx, rfl, rfl⟩
  obtain rfl := d.consistent.revisionKeys.eq_of_mem hz hy hid
  exact ⟨z, hz, howner, hone, hpath⟩

/-- **The revisions of every asset form a history.** They are numbered 1 to
n; the first one has no parents; a parent belongs to the same asset and has
a smaller number; so no revision is its own ancestor, and every revision
descends from the first. -/
theorem revisions_form_history {d : Database} (h : Reachable allowed d) :
    (∀ a ∈ d.assets, ∃ n, 0 < n ∧
      (revisionsOf d.toTables a.assetId).map AssetRevisionRow.sequence =
        (List.range n).map (· + 1)) ∧
    (∀ x ∈ d.assetRevisions, x.sequence = 1 →
      ∀ parent, ¬ HasParent d.toTables x.assetRevisionId parent) ∧
    (∀ child parent, HasParent d.toTables child parent →
      ∃ x ∈ d.assetRevisions, ∃ y ∈ d.assetRevisions, x.assetRevisionId = child ∧
        y.assetRevisionId = parent ∧ y.assetId = x.assetId ∧ y.sequence < x.sequence) ∧
    (∀ id, ¬ TransGen (HasParent d.toTables) id id) ∧
    ∀ x ∈ d.assetRevisions, ∃ first ∈ d.assetRevisions, first.assetId = x.assetId ∧
      first.sequence = 1 ∧
      ReflTransGen (HasParent d.toTables) x.assetRevisionId first.assetRevisionId := by
  have hgraph := h.revisionGraph
  refine ⟨fun a ha => ?_, fun x hx hone parent hparent => ?_, fun child parent hparent => ?_,
    acyclic_of_rank (sequenceOf d.toTables) fun _ _ hparent => hgraph.lt_of_hasParent hparent,
    fun x hx => hgraph.reaches_first hx⟩
  · obtain ⟨m, hmax, -⟩ := h.assetCounters.counters a ha
    obtain ⟨hnumbered, hpos⟩ := hgraph.numbered_of_max hmax
    exact ⟨m, hpos, hnumbered⟩
  · obtain ⟨p, hp, hchild, -⟩ := hparent
    exact hgraph.first x hx hone p hp hchild
  · obtain ⟨p, hp, rfl, rfl⟩ := hparent
    exact hgraph.descends p hp

/-- An asset with a second revision of the same content. -/
def twoRevisions : Database :=
  afterCalls oneAsset
    [.execute (.createRevisionDeferred (.numbered 200 (.numbered 101) 1 (.numbered 102) ⟨1⟩))]

/-- The second revision descends from the first one. -/
theorem twoRevisions_form_history :
    HasParent twoRevisions.toTables (.numbered 201) (.numbered 102) ∧
    ∀ id, ¬ TransGen (HasParent twoRevisions.toTables) id id := by
  have hreachable : Reachable (fun _ => True) twoRevisions :=
    reachable_afterCalls reachable_oneAsset fun _ _ => trivial
  refine ⟨?_, (revisions_form_history hreachable).2.2.2.1⟩
  have hrows : twoRevisions.parents = [⟨.numbered 101, .numbered 201, 0, .numbered 102⟩] := by
    decide +kernel
  exact ⟨_, hrows ▸ List.mem_cons_self, rfl, rfl⟩

end MengXia.Store
