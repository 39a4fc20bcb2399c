
import MengXia.Common.Paging
import MengXia.Store.Owner
import Mathlib.Data.List.Induction
/-!
# Start-up classification

What a new process does with the claims that earlier ones left: it turns
them into required recoveries, page by page, and counts the recoveries that
are required then (`classify_with_clock`).
-/

namespace MengXia.Store

open Common Txn

variable {allowed : Call → Prop}

variable {r : CommandRow}

/-! ## The loop of the service -/

/-- The pages of one state in `classify_with_clock`, with the readings of
the clock. There is no result while pages are left and `fuel` is not. -/
def classifyPages (context : StoreContext) (clock : ℕ → Option Timestamp)
    (boundary : Option (Id .command)) (state : StartupMutationState) :
    ℕ → ℕ → Option (Id .command) → ℕ → Database →
      Option (AssetResult (ℕ × ℕ) × Database)
  | 0, _, _, _, _ => none
  | fuel + 1, tick, after, count, d =>
    match clock tick with
    | none => some (.error .idGenerationUnavailable, d)
    | some classifiedAt =>
      match (classifyStartupMutationPage context
          ⟨boundary, state, after, classifiedAt⟩).run d with
      | (.error e, d') => some (.error e, d')
      | (.ok page, d') =>
        if state = .claimed ∧ page.recoveryRequiredCount ≠ 0 then
          some (.error .storageCorruption, d')
        else if page.lastCommandId.any fun next =>
            after.any (fun previous => next.key ≤ previous.key) ||
              boundary.any fun maximum => maximum.key < next.key then
          some (.error .storageCorruption, d')
        else if 2 ^ 64 ≤ count + page.recoveryRequiredCount then
          some (.error .storageCorruption, d')
        else if page.complete then
          some (.ok (count + page.recoveryRequiredCount, tick + 1), d')
        else
          match page.lastCommandId with
          | none => some (.error .storageCorruption, d')
          | some next =>
            classifyPages context clock boundary state fuel (tick + 1) (some next)
              (count + page.recoveryRequiredCount) d'

/-- `classify_with_clock`, with a control that never stops it. -/
def classifyWithClock (context : StoreContext) (clock : ℕ → Option Timestamp) (fuel : ℕ)
    (d : Database) : Option (AssetResult ℕ × Database) :=
  let boundary := startupBoundary d
  match classifyPages context clock boundary .claimed fuel 0 none 0 d with
  | none => none
  | some (.error e, d') => some (.error e, d')
  | some (.ok (count, tick), d') =>
    match classifyPages context clock boundary .recoveryRequired fuel tick none count d' with
    | none => none
    | some (.error e, d'') => some (.error e, d'')
    | some (.ok (count, _), d'') => some (.ok count, d'')

/-! ## The rows of a page -/

theorem startupBoundary_concat (t : Tables) (rows : List CommandRow) (r : CommandRow) :
    startupBoundary { t with commands := rows ++ [r] } =
      (startupBoundary { t with commands := rows }).elim (some r.commandId) fun id =>
        if id.key < r.commandId.key then some r.commandId else some id := by
  unfold startupBoundary
  rw [List.foldl_append, List.foldl_cons, List.foldl_nil]
  cases List.foldl _ none rows <;> rfl

/-- The boundary is there when there are commands, and none lies above it. -/
theorem startupBoundary_spec (t : Tables) (rows : List CommandRow) :
    (startupBoundary { t with commands := rows } = none → rows = []) ∧
      ∀ boundary ∈ startupBoundary { t with commands := rows }, ∀ r ∈ rows,
        r.commandId.key ≤ boundary.key := by
  induction rows using List.reverseRecOn with
  | nil => exact ⟨fun _ => rfl, fun _ _ r hr => (by cases hr)⟩
  | append_singleton rows x ih =>
    rw [startupBoundary_concat]
    cases hbest : startupBoundary { t with commands := rows } with
    | none =>
      obtain rfl := ih.1 hbest
      refine ⟨fun h => (by cases h), fun boundary hboundary r hr => ?_⟩
      cases hboundary
      rw [List.mem_singleton.1 hr]
    | some best =>
      have hrows := ih.2 best hbest
      simp only [Option.elim_some]
      refine ⟨fun h => ?_, fun boundary hboundary r hr => ?_⟩
      · split at h <;> cases h
      · rw [List.mem_append, List.mem_singleton] at hr
        split at hboundary <;> cases hboundary
        · rename_i hlt
          rcases hr with hr | rfl
          · exact Nat.le_trans (hrows r hr) (Nat.le_of_lt hlt)
          · exact Nat.le_refl _
        · rename_i hge
          rcases hr with hr | rfl
          · exact hrows r hr
          · exact Nat.not_lt.1 hge

/-- The commands of a state, behind a command id, in order. -/
def commandsAfter (t : Tables) (state : CommandState) (after : Option (Id .command)) :
    List CommandRow :=
  rowsAfter (fun r => r.commandId.key) (after.map Id.key)
    (t.commands.filter fun r => r.state = state)

theorem mem_commandsAfter {t : Tables} {state : CommandState} {after : Option (Id .command)} :
    r ∈ commandsAfter t state after ↔
      r ∈ t.commands ∧ r.state = state ∧ ∀ a ∈ after, a.key < r.commandId.key := by
  unfold commandsAfter
  rw [mem_rowsAfter, List.mem_filter, decide_eq_true_eq, and_assoc]
  simp only [Option.mem_map, forall_exists_index, and_imp, forall_apply_eq_imp_iff₂]

/-- The commands that the pages of a state still have to read. -/
abbrev pending (t : Tables) (state : StartupMutationState) (after : Option (Id .command)) :
    List CommandRow :=
  commandsAfter t (StartupMutationState.column state) after

theorem distinct_commandKeys (d : Database) :
    Distinct (fun r : CommandRow => r.commandId.key) d.commands := by
  have hids : (d.commands.map CommandRow.commandId).Nodup := d.consistent.commandKeys
  have hkeys := hids.map (f := (Id.key : Id .command → ℕ)) Id.key_injective
  rwa [List.map_map] at hkeys

/-- **A page reads the first commands behind its cursor**, since none lies
above the boundary. -/
theorem startupRows_eq {d : Database} {request : StartupMutationPageRequest}
    {boundary : Id .command} (hmax : ∀ r ∈ d.commands, r.commandId.key ≤ boundary.key) :
    startupRows d request boundary =
      (commandsAfter d (StartupMutationState.column request.state)
        request.afterCommandId).take 256 := by
  have hkeys := distinct_commandKeys d
  unfold startupRows
  rw [mergeSort_eq_sortedBy (hkeys.filter _)]
  congr 1
  refine eq_of_pairwise_lt (sortedBy_pairwise (hkeys.filter _))
    (rowsAfter_pairwise (hkeys.filter _)) fun r => ?_
  rw [mem_sortedBy, List.mem_filter]
  refine Iff.trans ?_ mem_commandsAfter.symm
  simp only [Bool.and_eq_true, decide_eq_true_eq, Option.all_eq_true]
  exact ⟨fun h => ⟨h.1, h.2.1.1, h.2.2⟩, fun h => ⟨h.1, ⟨h.2.1, hmax r h.1⟩, h.2.2⟩⟩

/-! ## One page -/

/-- What a process finds at start-up: valid commands of its owner, with the
claims of other processes. -/
structure Startable (context : StoreContext) (t : Tables) : Prop where
  valid : LedgerValid t
  owned : OwnedBy context.ownerUid t
  earlier : ∀ r ∈ t.commands, r.state = .claimed → r.storeRuntimeId ≠ context.runtimeId
  deferred : DeferredKeys t

/-- A claim, as the classification leaves it. -/
def CommandRow.classified (at_ : Timestamp) (r : CommandRow) : CommandRow :=
  r.dispose (.recoveryRequired .storageConfigurationError) at_

/-- What the classification may do to a row. -/
def RowClassified (r r' : CommandRow) : Prop :=
  r' = r ∨ r.state = .claimed ∧ ∃ at_, r' = r.classified at_

theorem RowClassified.trans {a b c : CommandRow} (h : RowClassified a b) (h' : RowClassified b c) :
    RowClassified a c := by
  rcases h with rfl | ⟨hstate, at_, rfl⟩
  · exact h'
  · rcases h' with rfl | ⟨hstate', -⟩
    · exact .inr ⟨hstate, at_, rfl⟩
    · cases hstate'

/-- Only claims have been classified. -/
structure Classified (d d' : Database) : Prop where
  tables : d'.toTables = { d.toTables with commands := d'.commands }
  rows : List.Forall₂ RowClassified d.commands d'.commands

theorem Classified.trans {d d' d'' : Database} (h : Classified d d') (h' : Classified d' d'') :
    Classified d d'' := by
  refine ⟨by rw [h'.tables, h.tables], ?_⟩
  have hrows := h.rows
  have hrows' := h'.rows
  generalize d.commands = xs at hrows
  generalize d'.commands = ys at hrows hrows'
  generalize d''.commands = zs at hrows' ⊢
  induction hrows generalizing zs with
  | nil =>
    cases hrows'
    exact .nil
  | cons hab _ ih =>
    cases hrows' with
    | cons hbc hrest => exact .cons (hab.trans hbc) (ih _ hrest)

section Rows

variable {context : StoreContext} {boundary : Id .command} {after : Option (Id .command)}
  {at_ : Timestamp} {d : Database} {state : StartupMutationState}

/-- What a page makes of a row: a claim that it read is classified. -/
def CommandRow.turnedBy (rows : List CommandRow) (at_ : Timestamp) (r : CommandRow) : CommandRow :=
  if r ∈ rows ∧ r.state = .claimed then r.classified at_ else r

theorem CommandRow.turnedBy_concat (rows : List CommandRow) (raw r : CommandRow) :
    (r.turnedBy rows at_).turnedBy [raw] at_ = r.turnedBy (rows ++ [raw]) at_ := by
  by_cases h : r ∈ rows ∧ r.state = .claimed
  · have hturned : ¬ (r.classified at_ ∈ [raw] ∧ (r.classified at_).state = .claimed) :=
      fun h => by cases h.2
    simp only [turnedBy, if_pos h, if_neg hturned]
    rw [if_pos ⟨List.mem_append_left _ h.1, h.2⟩]
  · simp only [turnedBy, if_neg h, List.mem_append]
    refine if_congr (and_congr_left fun hstate => ?_) rfl rfl
    exact ⟨Or.inr, fun hmem => hmem.resolve_left fun hr => h ⟨hr, hstate⟩⟩

theorem map_turnedBy_eq {rows : List CommandRow} (h : ∀ r ∈ rows, r.state ≠ .claimed) :
    d.commands.map (CommandRow.turnedBy rows at_) = d.commands :=
  (List.map_congr_left fun _ _ => if_neg fun hr => h _ hr.1 hr.2).trans (List.map_id _)

/-- **A row of a page is read**, and turned if it is a claim, which must be
one of another process. -/
theorem wp_classifyRow {raw : CommandRow} (h : Startable context d)
    (hmem : raw ∈ d.commands) (hstate : raw.state = StartupMutationState.column state) :
    wp (classifyRow context ⟨some boundary, state, after, at_⟩ raw)
      (fun _ d' => d'.toTables = { d.toTables with
        commands := d.commands.map (CommandRow.turnedBy [raw] at_) }) (fun _ => False) d := by
  have hvalid := h.valid raw hmem
  unfold classifyRow
  simp only [wp_bind, hvalid.validate, wp_lift]
  refine ⟨fun row hrow => ?_, fun e he => (by cases he)⟩
  cases hrow
  cases state with
  | recoveryRequired =>
    have hkept : ∀ r ∈ [raw], r.state ≠ .claimed := by
      intro r hr
      rw [List.mem_singleton.1 hr, hstate]
      decide
    rw [if_neg (by simp [h.owned raw hmem, hvalid.isExternal (.inr hstate)]), map_turnedBy_eq hkept]
    exact rfl
  | claimed =>
    have hclaimed : raw.state = .claimed := hstate
    rw [if_neg (by simp [h.owned raw hmem, hvalid.isExternal (.inl hclaimed)])]
    simp only [if_neg (h.earlier raw hmem hclaimed), wp_bind]
    have hone : ∀ r ∈ d.commands, ((decide (r.commandId = raw.commandId) &&
        decide (r.state = .claimed) && decide (r.storeRuntimeId = raw.storeRuntimeId)) = true ↔
          r ∈ [raw] ∧ r.state = .claimed) := by
      intro r hr
      simp only [Bool.and_eq_true, decide_eq_true_eq, List.mem_singleton]
      constructor
      · exact fun hp => ⟨d.consistent.commandKeys.eq_of_mem hr hmem hp.1.1, hp.1.2⟩
      · rintro ⟨rfl, hclaimed⟩
        exact ⟨⟨rfl, hclaimed⟩, rfl⟩
    refine wp_updateCommands (Or.inl fun r hr hp => ?_) fun d' hd' => ?_
    · obtain rfl := List.mem_singleton.1 ((hone r hr).1 hp).1
      have hshape := d.consistent.commandShapes r hmem
      simp only [CommandRow.shapeOk, hclaimed, Bool.and_eq_true,
        Option.isNone_iff_eq_none] at hshape
      obtain ⟨⟨⟨⟨hkind, hid⟩, hlocation⟩, hpayload⟩, -⟩ := hshape
      refine ⟨by simp [CommandRow.shapeOk, hkind, hid, hlocation, hpayload], fun k hk => ?_⟩
      simp only [hlocation] at hk
      cases hk
    · rw [d.consistent.commandKeys.countP_eq_one hmem
        ((hone raw hmem).2 ⟨List.mem_singleton_self raw, hclaimed⟩) fun r hr hp => by
          rw [List.mem_singleton.1 ((hone r hr).1 hp).1], if_neg (by simp), wp_pure, hd']
      have hrows : updateWhere _ (CommandRow.classified at_) d.commands =
          d.commands.map (CommandRow.turnedBy [raw] at_) :=
        List.map_congr_left fun r hr => if_congr (hone r hr) rfl rfl
      rw [← hrows]
      rfl

/-- What a page leaves for the next one. -/
theorem Startable.page {d' : Database} (h : Startable context d) {rows : List CommandRow}
    (hd' : d'.toTables = { d.toTables with
      commands := d.commands.map (CommandRow.turnedBy rows at_) }) :
    Startable context d' ∧ Classified d d' := by
  have hcommands : d'.commands = d.commands.map (CommandRow.turnedBy rows at_) := by rw [hd']
  have hrows : List.Forall₂ RowClassified d.commands d'.commands := by
    rw [hcommands, List.forall₂_map_right_iff]
    refine List.forall₂_same.2 fun r _ => ?_
    unfold CommandRow.turnedBy
    split
    · rename_i hturned
      exact .inr ⟨hturned.2, at_, rfl⟩
    · exact .inl rfl
  refine ⟨⟨fun r' hr' => ?_, fun r' hr' => ?_, fun r' hr' hstate => ?_, ?_⟩,
    by rw [hcommands, hd'], hrows⟩
  · obtain ⟨r, hr, rfl | ⟨hclaimed, at_, rfl⟩⟩ := exists_of_forall₂ hrows hr'
    · exact h.valid _ hr
    · have hexternal := (h.valid r hr).isExternal (.inl hclaimed)
      have hmove : ExternalMove r (r.classified at_) :=
        .disposed _ _ hclaimed (isOf_classified hexternal)
      exact hmove.valid (h.valid r hr) hexternal
  · obtain ⟨r, hr, rfl | ⟨-, at_, rfl⟩⟩ := exists_of_forall₂ hrows hr'
    · exact h.owned _ hr
    · exact h.owned r hr
  · obtain ⟨r, hr, rfl | ⟨-, at_, rfl⟩⟩ := exists_of_forall₂ hrows hr'
    · exact h.earlier _ hr hstate
    · cases hstate
  · rw [hd']
    exact ⟨h.deferred.currentSpecs, h.deferred.specProjects, h.deferred.currentWorkRevisions,
      h.deferred.workRevisionItems⟩

/-- The page that reports some rows. -/
def pageOf (state : StartupMutationState) (boundary : Id .command) (rows : List CommandRow) :
    StartupMutationPage where
  lastCommandId := rows.getLast?.map CommandRow.commandId
  recoveryRequiredCount := if state = .recoveryRequired then rows.length else 0
  complete := rows.length < 256 || rows.getLast?.map CommandRow.commandId = some boundary

theorem startupPage_pageOf {rows : List CommandRow} (h : rows.length ≤ 256) :
    startupPage (pageOf state boundary rows) = .ok (pageOf state boundary rows) := by
  refine if_neg ?_
  cases rows with
  | nil => cases state <;> simp [pageOf]
  | cons r rows =>
    have hlast : ((r :: rows).getLast?.map CommandRow.commandId).isNone = false := by
      simp [List.getLast?_cons]
    have hcount : ¬ 256 < if state = .recoveryRequired then (r :: rows).length else 0 := by
      split <;> omega
    simp only [pageOf, hlast, Bool.and_false, Bool.or_self, Bool.false_or]
    exact fun h => hcount (of_decide_eq_true h)

/-- **A page reads the first commands behind its cursor** and turns the
claims among them. -/
theorem run_page (at_ : Timestamp) (h : Startable context d)
    (hmax : ∀ r ∈ d.commands, r.commandId.key ≤ boundary.key)
    (hafter : ∀ a ∈ after, a.key ≤ boundary.key) {rows : List CommandRow}
    (hrows : (pending d state after).take 256 = rows) :
    ∃ d', (classifyStartupMutationPage context ⟨some boundary, state, after, at_⟩).run d =
        (.ok (pageOf state boundary rows), d') ∧
      d'.toTables = { d.toTables with
        commands := d.commands.map (CommandRow.turnedBy rows at_) } := by
  have hread : startupRows d ⟨some boundary, state, after, at_⟩ boundary = rows :=
    (startupRows_eq hmax).trans hrows
  have hmem : ∀ r ∈ rows, r ∈ d.commands ∧ r.state = StartupMutationState.column state :=
    fun r hr => mem_startupRows (hread.symm ▸ hr)
  have hnodup : rows.Nodup := hread ▸ startupRows_nodup d _ boundary
  have hpage : startupPage (pageOf state boundary rows) = _ := startupPage_pageOf (by
    rw [← hrows, List.length_take]
    exact Nat.min_le_left _ _)
  have hbelow : ¬ ((after.any fun a => decide (boundary.key < a.key)) = true) := by
    simp only [Option.any_eq_true, decide_eq_true_eq, not_exists, not_and]
    exact fun a ha => Nat.not_lt.2 (hafter a ha)
  have hwp : wp (classifyStartupMutationPage context ⟨some boundary, state, after, at_⟩)
      (fun page d' => page = pageOf state boundary rows ∧ d'.toTables = { d.toTables with
        commands := d.commands.map (CommandRow.turnedBy rows at_) }) (fun _ => False) d := by
    unfold classifyStartupMutationPage
    simp only [if_neg hbelow, wp_bind, wp_read, hread]
    refine wp_mono (wp_forEach (fun done (d' : Database) => d'.toTables = { d.toTables with
      commands := d.commands.map (CommandRow.turnedBy done at_) }) ?_ ?_) (fun _ d' hd' => ?_)
      fun _ hfalse => hfalse
    · rw [map_turnedBy_eq fun r hr => (by cases hr)]
    · intro done raw rest hsplit d1 h1
      have hraw : raw ∉ done := by
        rw [hsplit] at hnodup
        exact fun hmem => (List.nodup_append.1 hnodup).2.2 raw hmem raw List.mem_cons_self rfl
      obtain ⟨hrawMem, hstate⟩ := hmem raw (by simp [hsplit])
      have hraw1 : raw ∈ d1.commands := by
        rw [h1]
        exact List.mem_map.2 ⟨raw, hrawMem, if_neg fun h => hraw h.1⟩
      refine wp_mono (wp_classifyRow (h.page h1).1 hraw1 hstate) (fun _ d2 h2 => ?_)
        fun _ hfalse => hfalse
      rw [h2, h1]
      simp only [List.map_map, Function.comp_def, CommandRow.turnedBy_concat]
    · rw [wp_commit]
      refine ⟨fun _ => ?_, fun hnot => hnot (h.page hd').1.deferred⟩
      rw [wp_lift]
      refine ⟨fun page hok => ⟨?_, hd'⟩, fun e he => ?_⟩
      · exact Except.ok.inj (hok.symm.trans hpage)
      · exact absurd (he.symm.trans hpage) (by simp)
  obtain ⟨page, d', hrun, rfl, hd'⟩ := run_ok_of_wp hwp
  exact ⟨d', hrun, hd'⟩

end Rows

/-! ## The passes -/

section Pass

variable {context : StoreContext} {boundary : Id .command} {clock : ℕ → Option Timestamp}
  {state : StartupMutationState} {d : Database} {after : Option (Id .command)}
  {rows : List CommandRow}

/-- A page that does not end its pass is full, and more commands may follow
its last one; a page that does has read all commands. -/
theorem page_ends (hmax : ∀ r ∈ d.commands, r.commandId.key ≤ boundary.key)
    (hrows : (pending d state after).take 256 = rows) :
    ((pageOf state boundary rows).complete = true →
        pending d state after = rows) ∧
      ((pageOf state boundary rows).complete = false → ∃ r ∈ rows,
        (pageOf state boundary rows).lastCommandId = some r.commandId ∧ rows.length = 256 ∧
        pending d state (some r.commandId) =
          (pending d state after).drop 256 ∧
        ∀ x ∈ rows, x.commandId.key ≤ r.commandId.key) := by
  have hdistinct := (distinct_commandKeys d).filter fun r =>
    r.state = StartupMutationState.column state
  have hsorted : (pending d state after).Pairwise
      fun a b => a.commandId.key < b.commandId.key := rowsAfter_pairwise hdistinct
  generalize hall : pending d state after = all at *
  have hsplit : all = rows ++ all.drop 256 := by rw [← hrows, List.take_append_drop]
  have hlength : rows.length = min 256 all.length := by rw [← hrows, List.length_take]
  rw [hsplit, List.pairwise_append] at hsorted
  constructor
  · intro hcomplete
    simp only [pageOf, Bool.or_eq_true, decide_eq_true_eq] at hcomplete
    suffices hnone : all.drop 256 = [] by rw [hsplit, hnone, List.append_nil]
    rcases hcomplete with hshort | hboundary
    · exact List.drop_eq_nil_of_le (by omega)
    · obtain ⟨r, hr, hid⟩ := Option.map_eq_some_iff.1 hboundary
      refine List.eq_nil_iff_forall_not_mem.2 fun x hx => ?_
      have hlt := hsorted.2.2 r (List.mem_of_getLast? hr) x hx
      have hle := hmax x (mem_commandsAfter.1 (hall ▸ List.mem_of_mem_drop hx)).1
      rw [hid] at hlt
      omega
  · intro hopen
    simp only [pageOf, Bool.or_eq_false_iff, decide_eq_false_iff_not] at hopen
    have hfull : rows.length = 256 := by omega
    have hne : rows ≠ [] := List.ne_nil_of_length_pos (by omega)
    have hr := List.getLast?_eq_some_getLast hne
    generalize List.getLast _ hne = r at hr
    obtain ⟨before, rfl⟩ := List.getLast?_eq_some_iff.1 hr
    refine ⟨r, List.mem_of_getLast? hr, by simp only [pageOf, hr, Option.map_some], hfull, ?_,
      fun x hx => ?_⟩
    · rw [List.append_assoc] at hsplit
      exact rowsAfter_resume hdistinct (hall.trans hsplit)
    · rcases List.mem_append.1 hx with hx | hx
      · exact ((List.pairwise_append.1 hsorted.1).2.2 x hx r (List.mem_singleton_self r)).le
      · rw [List.mem_singleton.1 hx]

/-- The checks of the service on a page hold. -/
theorem page_checked (hmax : ∀ r ∈ d.commands, r.commandId.key ≤ boundary.key)
    (hrows : ∀ r ∈ rows, r ∈ pending d state after) :
    ¬ (((pageOf state boundary rows).lastCommandId.any fun next =>
      after.any (fun previous => next.key ≤ previous.key) ||
        (some boundary).any fun maximum => maximum.key < next.key) = true) := by
  simp only [pageOf, Option.any_eq_true, Option.map_eq_some_iff, Bool.or_eq_true,
    decide_eq_true_eq, not_exists, not_and]
  rintro next ⟨r, hr, rfl⟩ hbad
  obtain ⟨hmem, -, hafter⟩ := mem_commandsAfter.1 (hrows r (List.mem_of_getLast? hr))
  rcases hbad with ⟨previous, hprevious, hle⟩ | ⟨maximum, hmaximum, hlt⟩
  · have := hafter previous hprevious
    omega
  · cases hmaximum
    have := hmax r hmem
    omega

/-- The commands of the state that a page leaves: claims that it read are
turned, required recoveries stay. -/
theorem mem_map_turnedBy {at_ : Timestamp}
    (hrows : ∀ r ∈ rows, r.state = StartupMutationState.column state)
    (hstate : r.state = StartupMutationState.column state) :
    r ∈ d.commands.map (CommandRow.turnedBy rows at_) ↔
      r ∈ d.commands ∧ (state = .claimed → r ∉ rows) := by
  constructor
  · intro hr
    obtain ⟨x, hx, rfl⟩ := List.mem_map.1 hr
    by_cases hturned : x ∈ rows ∧ x.state = .claimed
    · -- A turned claim would be a required recovery that was read as a claim.
      rw [CommandRow.turnedBy, if_pos hturned, ← hrows x hturned.1, hturned.2] at hstate
      cases hstate
    · rw [CommandRow.turnedBy, if_neg hturned] at hstate ⊢
      refine ⟨hx, fun hclaimed hmem => hturned ⟨hmem, ?_⟩⟩
      rw [hstate, hclaimed]
      rfl
  · rintro ⟨hr, hnot⟩
    refine List.mem_map.2 ⟨r, hr, if_neg fun hturned => ?_⟩
    rw [hturned.2] at hstate
    cases state with
    | claimed => exact hnot rfl hturned.1
    | recoveryRequired => cases hstate

/-- **A pass** ends, turns every claim if it reads claims, and counts every
required recovery once if it reads those. -/
theorem classifyPages_pass (hclock : ∀ n, ∃ at_, clock n = some at_) {n tick count : ℕ}
    (h : Startable context d)
    (hmax : ∀ r ∈ d.commands, r.commandId.key ≤ boundary.key)
    (hafter : ∀ a ∈ after, a.key ≤ boundary.key)
    (hrest : state = .claimed → ∀ r ∈ d.commands, r.state = .claimed →
      r ∈ pending d state after)
    (hn : (pending d state after).length ≤ n) :
    ∃ result d', (∀ fuel, n < fuel →
        classifyPages context clock (some boundary) state fuel tick after count d =
          some (result, d')) ∧
      Startable context d' ∧ Classified d d' ∧
      (state = .claimed → count < 2 ^ 64 → (∃ tick', result = .ok (count, tick')) ∧
        ∀ r ∈ d'.commands, r.state ≠ .claimed) ∧
      (state = .recoveryRequired → d'.toTables = d.toTables ∧
        (count + (pending d state after).length < 2 ^ 64 → ∃ tick',
          result = .ok (count + (pending d state after).length, tick'))) := by
  -- The commands that are left decrease from page to page.
  induction n using Nat.strong_induction_on generalizing d after tick count with
  | _ n ih =>
    obtain ⟨at_, hat⟩ := hclock tick
    generalize hrows : (pending d state after).take 256 = rows
    have hsub : ∀ r ∈ rows, r ∈ pending d state after := by
      rw [← hrows]
      exact fun r hr => List.mem_of_mem_take hr
    have hcolumn := fun r hr => (mem_commandsAfter.1 (hsub r hr)).2.1
    have hle : rows.length ≤ (pending d state after).length := by
      rw [← hrows]
      exact List.length_take_le' _ _
    obtain ⟨d1, hrun, hd1⟩ := run_page at_ h hmax hafter hrows
    obtain ⟨hstart, hclassified⟩ := h.page hd1
    have hleft : ∀ r, r.state = StartupMutationState.column state →
        (r ∈ d1.commands ↔ r ∈ d.commands ∧ (state = .claimed → r ∉ rows)) := by
      rw [hd1]
      exact fun r hstate => mem_map_turnedBy hcolumn hstate
    have hsame : state = .recoveryRequired → d1.toTables = d.toTables := by
      rintro rfl
      rw [hd1]
      rw [map_turnedBy_eq fun r hr => by rw [hcolumn r hr]; decide]
    have hchecked := page_checked hmax hsub
    have hstate : ¬ (state = .claimed ∧
        (pageOf state boundary rows).recoveryRequiredCount ≠ 0) := by
      rintro ⟨rfl, hne⟩
      exact hne rfl
    have hcount : (pageOf state boundary rows).recoveryRequiredCount =
        if state = .recoveryRequired then rows.length else 0 := rfl
    obtain ⟨hends, hgoes⟩ := page_ends hmax hrows
    by_cases hfull : 2 ^ 64 ≤ count + (pageOf state boundary rows).recoveryRequiredCount
    · -- The sum leaves the range of the counter.
      refine ⟨.error .storageCorruption, d1, fun fuel hfuel => ?_, hstart, hclassified, ?_, ?_⟩
      · obtain ⟨k, rfl⟩ := Nat.exists_eq_succ_of_ne_zero (Nat.ne_zero_of_lt hfuel)
        simp only [classifyPages, hat, hrun, if_neg hstate, if_neg hchecked, if_pos hfull]
      · rintro rfl hfits
        exact absurd hfull (Nat.not_le.2 hfits)
      · rintro rfl
        exact ⟨hsame rfl, fun hfits => absurd (hfull.trans (Nat.add_le_add_left hle count))
          (Nat.not_le.2 hfits)⟩
    cases hcomplete : (pageOf state boundary rows).complete with
    | true =>
      refine ⟨.ok (count + (pageOf state boundary rows).recoveryRequiredCount, tick + 1), d1,
        fun fuel hfuel => ?_, hstart, hclassified, ?_, ?_⟩
      · obtain ⟨k, rfl⟩ := Nat.exists_eq_succ_of_ne_zero (Nat.ne_zero_of_lt hfuel)
        simp only [classifyPages, hat, hrun, if_neg hstate, if_neg hchecked, if_neg hfull,
          hcomplete, if_true]
      · rintro rfl -
        refine ⟨⟨tick + 1, rfl⟩, fun r hr hclaimed => ?_⟩
        obtain ⟨hmem, hread⟩ := (hleft r hclaimed).1 hr
        exact hread rfl (hends hcomplete ▸ hrest rfl r hmem hclaimed)
      · rintro rfl
        exact ⟨hsame rfl, fun _ => ⟨tick + 1, by rw [hends hcomplete]; rfl⟩⟩
    | false =>
      obtain ⟨last, hlast, hnext, hlength, hbehind, hbefore⟩ := hgoes hcomplete
      -- The page has changed no command behind its last one.
      have hafter1 : pending d1 state
          (some last.commandId) =
            (pending d state after).drop 256 := by
        rw [← hbehind]
        refine eq_of_pairwise_lt (rowsAfter_pairwise ((distinct_commandKeys d1).filter _))
          (rowsAfter_pairwise ((distinct_commandKeys d).filter _)) fun r => ?_
        refine mem_commandsAfter.trans (Iff.trans ?_ mem_commandsAfter.symm)
        refine ⟨fun hr => ⟨((hleft r hr.2.1).1 hr.1).1, hr.2⟩, fun hr =>
          ⟨(hleft r hr.2.1).2 ⟨hr.1, fun _ hmem => ?_⟩, hr.2⟩⟩
        exact absurd (hr.2.2 _ rfl) (Nat.not_lt.2 (hbefore r hmem))
      have hmax1 : ∀ r ∈ d1.commands, r.commandId.key ≤ boundary.key := by
        intro r hr
        obtain ⟨x, hx, rfl | ⟨-, at_, rfl⟩⟩ := exists_of_forall₂ hclassified.rows hr
        · exact hmax _ hx
        · exact hmax x hx
      have hlong : 256 ≤
          (pending d state after).length := by omega
      obtain ⟨result, d', hpages, hstart', hclassified', hclaims, hcounts⟩ := @ih (n - 256)
        (by omega) d1 (some last.commandId) (tick + 1)
        (count + (pageOf state boundary rows).recoveryRequiredCount) hstart hmax1
        (fun a ha => by
          cases ha
          exact hmax last (mem_commandsAfter.1 (hsub last hlast)).1)
        (fun hclaims r hr hclaimed => by
          subst hclaims
          obtain ⟨hmem, hread⟩ := (hleft r hclaimed).1 hr
          have hall := hrest rfl r hmem hclaimed
          rw [← List.take_append_drop 256 (pending _ _ _), hrows, List.mem_append] at hall
          rw [hafter1]
          exact hall.resolve_left (hread rfl))
        (by
          rw [hafter1, List.length_drop]
          omega)
      refine ⟨result, d', fun fuel hfuel => ?_, hstart', hclassified.trans hclassified', ?_, ?_⟩
      · obtain ⟨k, rfl⟩ := Nat.exists_eq_succ_of_ne_zero (Nat.ne_zero_of_lt hfuel)
        rw [hnext] at hchecked
        conv_lhs => unfold classifyPages
        simp only [hat, hrun, if_neg hstate, hnext, if_neg hchecked, if_neg hfull, hcomplete,
          Bool.false_eq_true, if_false]
        exact hpages k (by omega)
      · rintro rfl hfits
        exact hclaims rfl hfits
      · rintro rfl
        obtain ⟨hsame', hfits'⟩ := hcounts rfl
        refine ⟨hsame'.trans (hsame rfl), fun hfits => ?_⟩
        have hsum : count + (pageOf .recoveryRequired boundary rows).recoveryRequiredCount +
            (pending d1 .recoveryRequired (some last.commandId)).length =
              count + (pending d .recoveryRequired after).length := by
          rw [hafter1, List.length_drop, hcount, if_pos rfl]
          omega
        rw [hsum] at hfits'
        exact hfits' hfits

end Pass

/-! ## The whole classification -/

/-- The commands that require recovery. -/
def recoveries (t : Tables) : ℕ :=
  t.commands.countP fun r => r.state = .recoveryRequired

theorem length_commandsAfter_none (t : Tables) :
    (commandsAfter t .recoveryRequired none).length = recoveries t := by
  unfold commandsAfter recoveries
  rw [Option.map_none, length_rowsAfter_none, ← List.countP_eq_length_filter]

theorem length_commandsAfter_le (t : Tables) (state : CommandState) :
    (commandsAfter t state none).length ≤ t.commands.length := by
  unfold commandsAfter
  rw [Option.map_none, length_rowsAfter_none]
  exact List.length_filter_le _ _

/-- **Start-up classification is complete.** A process that starts where only
earlier processes have left claims comes to an end, whatever the number of
commands. It turns every claim into a required recovery and leaves every
other command and table alone, and it answers the number of the recoveries
that are required then, when that number fits the counter. -/
theorem startup_classification_complete {context : StoreContext} {clock : ℕ → Option Timestamp}
    (hclock : ∀ n, ∃ at_, clock n = some at_) {d : Database}
    (hd : ReachableBy allowed context.ownerUid d)
    (hearlier : ∀ r ∈ d.commands, r.state = .claimed → r.storeRuntimeId ≠ context.runtimeId) :
    ∃ result d', (∀ fuel, d.commands.length < fuel →
        classifyWithClock context clock fuel d = some (result, d')) ∧
      d'.toTables = { d.toTables with commands := d'.commands } ∧
      List.Forall₂ (fun r r' => (r.state = .claimed → ∃ at_, r' = r.classified at_) ∧
        (r.state ≠ .claimed → r' = r)) d.commands d'.commands ∧
      (recoveries d'.toTables < 2 ^ 64 → result = .ok (recoveries d'.toTables)) := by
  have hstart : Startable context d.toTables :=
    ⟨hd.reachable.ledgerValid, hd.owned, hearlier, hd.reachable.deferredKeys⟩
  obtain ⟨hnone, hsome⟩ := startupBoundary_spec d.toTables d.commands
  cases hboundary : startupBoundary d.toTables with
  | none =>
    have hempty : d.commands = [] := hnone hboundary
    have hpage : ∀ state at_, (classifyStartupMutationPage context ⟨none, state, none, at_⟩).run d =
        (.ok ⟨none, 0, true⟩, d) := fun _ _ => rfl
    obtain ⟨at0, hat0⟩ := hclock 0
    obtain ⟨at1, hat1⟩ := hclock 1
    refine ⟨.ok 0, d, fun fuel hfuel => ?_, rfl, ?_, fun _ => ?_⟩
    · obtain ⟨k, rfl⟩ := Nat.exists_eq_succ_of_ne_zero (Nat.ne_zero_of_lt hfuel)
      simp [classifyWithClock, classifyPages, hboundary, hat0, hat1, hpage]
    · rw [hempty]
      exact .nil
    · rw [recoveries, hempty]
      rfl
  | some boundary =>
    have hmax := hsome boundary hboundary
    obtain ⟨first, d', hfirst, hstart', hclassified, hclaims, -⟩ := @classifyPages_pass context
      boundary clock .claimed d none hclock d.commands.length 0 0 hstart hmax
      (fun _ h => (by cases h))
      (fun _ r hr hstate => mem_commandsAfter.2 ⟨hr, hstate, fun _ h => (by cases h)⟩)
      (length_commandsAfter_le _ _)
    obtain ⟨⟨tick, rfl⟩, hleft⟩ := hclaims rfl (by decide)
    have hlength : d'.commands.length = d.commands.length := hclassified.rows.length_eq.symm
    have hmax' : ∀ r ∈ d'.commands, r.commandId.key ≤ boundary.key := by
      intro r hr
      obtain ⟨x, hx, rfl | ⟨-, at_, rfl⟩⟩ := exists_of_forall₂ hclassified.rows hr
      · exact hmax _ hx
      · exact hmax x hx
    obtain ⟨result, d'', hsecond, -, -, -, hcounts⟩ := @classifyPages_pass context boundary clock
      .recoveryRequired d' none hclock d.commands.length tick 0 hstart' hmax'
      (fun _ h => (by cases h)) (fun h => (by cases h)) (hlength ▸ length_commandsAfter_le _ _)
    obtain ⟨hsame, hcount⟩ := hcounts rfl
    obtain rfl : d' = d'' := by
      cases d'
      cases d''
      cases hsame
      rfl
    have hall : (pending d'.toTables .recoveryRequired none).length = recoveries d'.toTables :=
      length_commandsAfter_none _
    rw [Nat.zero_add, hall] at hcount
    refine ⟨result.map Prod.fst, d', fun fuel hfuel => ?_, hclassified.tables, ?_, fun hfits => ?_⟩
    · unfold classifyWithClock
      simp only [hboundary, hfirst fuel hfuel, hsecond fuel hfuel]
      cases result <;> rfl
    · -- No claim is left, so each was turned.
      have hrows := (List.forall₂_and_left _ _).2 ⟨hleft, hclassified.rows.flip⟩
      refine hrows.flip.imp fun r r' hrow => ?_
      obtain ⟨hstate, rfl | ⟨hclaimed, hturned⟩⟩ := hrow
      · exact ⟨fun hclaimed => absurd hclaimed hstate, fun _ => rfl⟩
      · exact ⟨fun _ => hturned, fun hother => absurd hclaimed hother⟩
    · obtain ⟨tick', rfl⟩ := hcount hfits
      rfl

/-- The library of a process that stopped with an ingest claimed. -/
def oneClaim : Database :=
  afterCalls Database.empty [.claimExternal (.numbered 100)]

/-- A second process of the same owner turns that claim and counts it. -/
theorem one_claim_classified : ∃ d',
    classifyWithClock ⟨1000, .numbered 1⟩ (fun _ => some .epoch) 2 oneClaim = some (.ok 1, d') ∧
      ∀ r ∈ d'.commands, r.state = .recoveryRequired := by
  have hreached : ReachableBy (fun _ => True) 1000 oneClaim :=
    .step firstProcess (.claimExternal (.numbered 100)) .empty rfl trivial
  obtain ⟨claim, hcommands, hstate, hruntime⟩ : ∃ claim, oneClaim.commands = [claim] ∧
      claim.state = .claimed ∧ claim.storeRuntimeId = .numbered 0 := ⟨_, rfl, rfl, rfl⟩
  obtain ⟨result, d', hrun, -, hrows, hcount⟩ := @startup_classification_complete _
    ⟨1000, .numbered 1⟩ (fun _ => some .epoch) (fun _ => ⟨.epoch, rfl⟩) oneClaim hreached (by
      rw [hcommands]
      intro r hr _
      rw [List.mem_singleton.1 hr, hruntime]
      decide)
  rw [hcommands] at hrows hrun
  cases hd' : d'.commands with
  | nil =>
    rw [hd'] at hrows
    cases hrows
  | cons r rest =>
    rw [hd'] at hrows
    cases hrows with
    | cons hrow hrest =>
      cases hrest
      obtain ⟨at_, rfl⟩ := hrow.1 hstate
      have hone : recoveries d'.toTables = 1 := by
        rw [recoveries, hd']
        rfl
      rw [hone] at hcount
      refine ⟨d', ?_, fun r hr => ?_⟩
      · rw [hrun 2 (Nat.lt_succ_self 1), hcount (by decide)]
      · rw [hd'] at hr
        rw [List.mem_singleton.1 hr]
        rfl

end MengXia.Store
