import MengXia.AssetService
import MengXia.Store.ProjectProgress
import MengXia.Store.Inspect
/-!
# The listing of assets

`list_assets` reads the events up to its snapshot in windows and shows the
assets that they register. The events of a reachable library are numbered
without gaps, so that a page always goes on from the last event examined,
and following the cursors shows the registrations of the first page's
snapshot, each once and in order.
-/

namespace MengXia.Store

namespace AssetQuery

open Common

variable {allowed : Call → Prop}

variable {rows : List EventRow} {last m : ℕ} {d : Database} {library : BitVec 128}

/-! ## Numbered events -/

/-- Events with the numbers that follow a number. -/
def Consecutive (last : ℕ) : List EventRow → Prop
  | [] => True
  | e :: rows => e.commitSequence = last + 1 ∧ Consecutive (last + 1) rows

theorem consecutive_of_map {n : ℕ}
    (h : rows.map EventRow.commitSequence = List.range' (last + 1) n) :
    Consecutive last rows := by
  induction rows generalizing last n with
  | nil => trivial
  | cons e rows ih =>
    cases n with
    | zero => cases h
    | succ n =>
      rw [List.map_cons, List.range'_succ] at h
      obtain ⟨he, hrows⟩ := List.cons.inj h
      exact ⟨he, ih hrows⟩

theorem Consecutive.drop (h : Consecutive last rows) (m : ℕ) :
    Consecutive (last + m) (rows.drop m) := by
  induction m generalizing rows last with
  | zero => exact h
  | succ m ih =>
    cases rows with
    | nil => trivial
    | cons e rows =>
      rw [List.drop_succ_cons, Nat.add_comm m, ← Nat.add_assoc]
      exact ih h.2

theorem Consecutive.take (h : Consecutive last rows) (k : ℕ) :
    Consecutive last (rows.take k) := by
  induction rows generalizing last k with
  | nil =>
    rw [List.take_nil]
    trivial
  | cons e rows ih =>
    cases k with
    | zero => trivial
    | succ k => exact ⟨h.1, ih h.2 k⟩

theorem Consecutive.bounds (h : Consecutive last rows) {e : EventRow} (he : e ∈ rows) :
    last < e.commitSequence ∧ e.commitSequence ≤ last + rows.length := by
  induction rows generalizing last with
  | nil => cases he
  | cons x rows ih =>
    rw [List.length_cons]
    rcases List.mem_cons.1 he with rfl | he
    · have := h.1
      omega
    · have := ih h.2 he
      omega

theorem Consecutive.pairwise (h : Consecutive last rows) :
    rows.Pairwise fun a b => a.commitSequence < b.commitSequence := by
  induction rows generalizing last with
  | nil => exact .nil
  | cons x rows ih =>
    refine .cons (fun y hy => ?_) (ih h.2)
    have hbounds := Consecutive.bounds h.2 hy
    have := h.1
    omega

section Numbered

variable {t t' : Tables} (h : EventsNumbered t)

include h

theorem consecutive_events : Consecutive 0 t.domainEvents := by
  refine consecutive_of_map (n := t.lastSequence) ?_
  rw [h, List.range'_eq_map_range]
  exact List.map_congr_left fun i _ => Nat.add_comm i 1

theorem length_events : t.domainEvents.length = t.lastSequence := by
  have hlength := congrArg List.length h
  simpa using hlength

/-- The allocator is the greatest number of an event. -/
theorem max_commitSequence :
    ((t.domainEvents.map EventRow.commitSequence).max?).getD 0 = t.lastSequence := by
  rw [h]
  cases hlast : t.lastSequence with
  | zero => rfl
  | succ n =>
    have hmax : ((List.range (n + 1)).map (· + 1)).max? = some (n + 1) := by
      refine List.max?_eq_some_iff.2 ⟨?_, fun x hx => ?_⟩
      · exact List.mem_map.2 ⟨n, List.mem_range.2 (Nat.lt_succ_self n), rfl⟩
      · obtain ⟨i, hi, rfl⟩ := List.mem_map.1 hx
        exact List.mem_range.1 hi
    rw [hmax]
    rfl

/-- An event was written with each number up to the allocator. -/
theorem requireEvent_of_le {sequence : ℕ} (hpos : sequence ≠ 0)
    (hle : sequence ≤ t.lastSequence) : requireEvent t sequence = .ok () := by
  have hmem : sequence ∈ t.domainEvents.map EventRow.commitSequence := by
    rw [h]
    exact List.mem_map.2 ⟨sequence - 1, List.mem_range.2 (by omega), by omega⟩
  obtain ⟨e, he, heq⟩ := List.mem_map.1 hmem
  exact if_pos (List.any_eq_true.2 ⟨e, he, decide_eq_true heq⟩)

/-- **The window of a page**, in any later state: the next events of the
snapshot. -/
theorem listedEvents_eq (h' : EventsNumbered t') {added : List EventRow}
    (hadded : t'.domainEvents = t.domainEvents ++ added) (m : ℕ) :
    listedEvents t' t.lastSequence m = (t.domainEvents.drop m).take maxEventScan := by
  have hall := consecutive_events h'
  have hold := consecutive_events h
  have hlength := length_events h
  have hfilter : t'.domainEvents.filter (fun e => e.commitSequence ≤ t.lastSequence) =
      t.domainEvents := by
    have hnew : added.filter (fun e => e.commitSequence ≤ t.lastSequence) = [] := by
      refine List.filter_eq_nil_iff.2 fun e he => ?_
      have hdrop := hall.drop t.domainEvents.length
      rw [hadded, List.drop_left] at hdrop
      have := (hdrop.bounds he).1
      rw [decide_eq_true_eq]
      omega
    rw [hadded, List.filter_append, hnew, List.append_nil]
    refine List.filter_eq_self.2 fun e he => decide_eq_true ?_
    have := (hold.bounds he).2
    omega
  unfold listedEvents
  rw [hfilter]
  congr 1
  refine eq_of_pairwise_lt (rowsAfter_pairwise ?_) (hold.pairwise.sublist (List.drop_sublist _ _))
    fun e => ?_
  · exact (List.pairwise_map.2 (hold.pairwise.imp fun hlt => Nat.ne_of_lt hlt))
  · rw [mem_rowsAfter]
    constructor
    · rintro ⟨he, hlow⟩
      have hlow := hlow m rfl
      rw [← List.take_append_drop m t.domainEvents, List.mem_append] at he
      refine he.resolve_left fun hfirst => ?_
      have hbound := ((hold.take m).bounds hfirst).2
      rw [List.length_take] at hbound
      omega
    · intro he
      refine ⟨List.mem_of_mem_drop he, fun k hk => ?_⟩
      cases hk
      have := ((hold.drop m).bounds he).1
      omega

end Numbered

/-! ## One window -/

/-- The registrations of assets, in order. -/
def registrations (events : List EventRow) : List EventRow :=
  events.filter (·.isRegistration)

/-- A registration, shown as the row of its asset stands in some tables. -/
def ShownAs (e : EventRow) (read : Tables × AssetSummaryView) : Prop :=
  ∃ a ∈ read.1.assets, e.aggregateId = .uuid a.assetId.uuid ∧ read.2 = summary e a

theorem exists_readRegisteredAsset (hd : Reachable allowed d) {e : EventRow}
    (he : e ∈ d.domainEvents) (hreg : e.isRegistration = true) :
    ∃ view, readRegisteredAsset d e = .ok view ∧ ShownAs e (d.toTables, view) := by
  obtain ⟨a, ha, hregistered⟩ := hd.assetRegistry.events e he hreg
  have hmem : e ∈ registrationsOf d a.assetId :=
    mem_registrationsOf.2 ⟨he, hregistered.kind, hregistered.id, of_decide_eq_true hreg⟩
  exact ⟨_, readRegisteredAsset_eq hd ha hmem hregistered, a, ha, hregistered.id, rfl⟩

/-- **The loop of a page.** It examines a number of the events, at least one
if it can, and shows the registrations among them. -/
theorem exists_scanEvents {t : Tables} {pageSize : ℕ}
    (hread : ∀ e ∈ rows, e.isRegistration = true →
      ∃ view, readRegisteredAsset t e = .ok view ∧ ShownAs e (t, view)) {listing : Listing}
    (hrows : Consecutive listing.lastExamined rows) :
    ∃ k views, scanEvents t pageSize listing rows =
        .ok ⟨listing.assets ++ views, listing.lastExamined + k, listing.stepped + k⟩ ∧
      k ≤ rows.length ∧ (listing.assets.length < pageSize → rows ≠ [] → 1 ≤ k) ∧
      (listing.assets.length ≤ pageSize → listing.assets.length + views.length ≤ pageSize) ∧
      List.Forall₂ ShownAs (registrations (rows.take k)) (views.map fun view => (t, view)) := by
  induction rows generalizing listing with
  | nil =>
    refine ⟨0, [], ?_, le_rfl, fun _ h => absurd rfl h, fun h => h, .nil⟩
    rw [List.append_nil]
    rfl
  | cons e rows ih =>
    by_cases hfull : pageSize ≤ listing.assets.length
    · -- The page is full, so the event is left for the next one.
      refine ⟨0, [], ?_, Nat.zero_le _, fun h => absurd h (Nat.not_lt.2 hfull), fun h => h, .nil⟩
      rw [scanEvents, if_pos hfull, List.append_nil]
      rfl
    · have hseq : ¬ e.commitSequence ≠ listing.lastExamined + 1 := not_not.2 hrows.1
      have hread' : ∀ x ∈ rows, x.isRegistration = true →
          ∃ view, readRegisteredAsset t x = .ok view ∧ ShownAs x (t, view) :=
        fun x hx => hread x (List.mem_cons_of_mem e hx)
      by_cases htype : e.eventType = .assetRegistered
      · obtain ⟨view, hview, hshown⟩ := hread e List.mem_cons_self (decide_eq_true htype)
        obtain ⟨k, views, hscan, hk, -, hroom, hviews⟩ := @ih hread'
          ⟨listing.assets ++ [view], e.commitSequence, listing.stepped + 1⟩
          (by rw [hrows.1]; exact hrows.2)
        refine ⟨k + 1, view :: views, ?_, Nat.succ_le_succ hk, fun _ _ => Nat.succ_pos k,
          fun _ => ?_, ?_⟩
        · rw [scanEvents, if_neg hfull, if_neg hseq, if_pos htype, hview]
          refine hscan.trans ?_
          rw [hrows.1, List.append_assoc, Nat.add_assoc, Nat.add_assoc, Nat.add_comm 1 k]
          rfl
        · simp only [List.length_append, List.length_singleton] at hroom
          rw [List.length_cons]
          omega
        · have hreg : e.isRegistration = true := decide_eq_true htype
          rw [List.take_succ_cons, registrations, List.filter_cons_of_pos hreg, List.map_cons]
          exact .cons hshown hviews
      · obtain ⟨k, views, hscan, hk, -, hroom, hviews⟩ := @ih hread'
          ⟨listing.assets, e.commitSequence, listing.stepped + 1⟩
          (by rw [hrows.1]; exact hrows.2)
        refine ⟨k + 1, views, ?_, Nat.succ_le_succ hk, fun _ _ => Nat.succ_pos k, hroom, ?_⟩
        · rw [scanEvents, if_neg hfull, if_neg hseq, if_neg htype]
          refine hscan.trans ?_
          rw [hrows.1, Nat.add_assoc, Nat.add_assoc, Nat.add_comm 1 k]
        · have hnot : ¬ (e.isRegistration = true) := fun h => htype (of_decide_eq_true h)
          rw [List.take_succ_cons, registrations, List.filter_cons_of_neg hnot]
          exact hviews

/-! ## One page -/

/-- The cursor with which a listing of the snapshot of `t` goes on behind
its first `m` events. -/
inductive ListCursorAt (library : BitVec 128) (t : Tables) : ℕ → Option Bytes → Prop where
  | first : ListCursorAt library t 0 none
  | after {m : ℕ} {bytes : Bytes} (valid : isListPosition library t.lastSequence m = true)
      (nonempty : bytes ≠ []) (decoded : decodeListCursor bytes library =
        .ok (.after library t.lastSequence m valid)) :
      ListCursorAt library t m (some bytes)

/-- In a later state the cursor still gives the snapshot and the last event
examined. -/
theorem ListCursorAt.start {t t' : Tables} {cursor : Option Bytes}
    (h : ListCursorAt library t m cursor) (hevents : EventsNumbered t')
    (hle : t.lastSequence ≤ t'.lastSequence) (hfirst : cursor = none → t' = t) :
    ∃ position, AssetQueryService.listPosition library cursor = .ok position ∧
      listStart library t' position = .ok (t.lastSequence, m) ∧
      (t.lastSequence ≠ 0 → m < t.lastSequence) := by
  cases h with
  | first =>
    obtain rfl := hfirst rfl
    refine ⟨.first, rfl, ?_, Nat.pos_of_ne_zero⟩
    simp only [listStart, max_commitSequence hevents, ne_eq, not_true_eq_false, if_false]
  | after valid nonempty decoded =>
    obtain ⟨b, bytes, rfl⟩ := List.exists_cons_of_ne_nil nonempty
    refine ⟨_, decoded, ?_, fun _ => ?_⟩
    · simp only [isListPosition, Bool.and_eq_true, decide_eq_true_eq] at valid
      obtain ⟨⟨⟨⟨-, hsnapshot⟩, -⟩, hm⟩, hlt⟩ := valid
      have hsnapshotEvent := requireEvent_of_le hevents hsnapshot hle
      have hlastEvent := requireEvent_of_le hevents hm (Nat.le_trans (Nat.le_of_lt hlt) hle)
      simp only [listStart, ne_eq, not_true_eq_false, if_false, Nat.not_lt.2 hle, hlastEvent,
        hsnapshotEvent, bind, Except.bind]
    · simp only [isListPosition, Bool.and_eq_true, decide_eq_true_eq] at valid
      exact valid.2

/-- The position behind the first `m` events of a snapshot that has more. -/
theorem isListPosition_of_lt (hlibrary : library ≠ 0) (hm : m ≠ 0) (hlt : m < d.lastSequence) :
    isListPosition library d.lastSequence m = true := by
  have hbound := d.consistent.sequenceBound
  simp only [isListPosition, Bool.and_eq_true, decide_eq_true_eq]
  exact ⟨⟨⟨⟨hlibrary, by omega⟩, hbound⟩, hm⟩, hlt⟩

/-- A page that has room and shows only events of its snapshot is a page. -/
theorem fromStore_of_shown {t t' : Tables} (hevents : EventsNumbered t)
    {views : List AssetSummaryView} (hroom : views.length ≤ 64) {events : List EventRow}
    (hviews : List.Forall₂ ShownAs (registrations events) (views.map fun view => (t', view)))
    (hsub : ∀ e ∈ events, e ∈ t.domainEvents) (next : Option ListAssetsPosition) :
    AssetPage.fromStore ⟨t.lastSequence, views, next⟩ = .ok ⟨t.lastSequence, views, next⟩ := by
  refine if_neg (not_or.2 ⟨Nat.not_lt.2 hroom, ?_⟩)
  rw [Bool.not_eq_true, List.any_eq_false]
  intro view hview
  obtain ⟨e, he, a, -, -, hsummary⟩ := exists_of_forall₂ hviews (List.mem_map_of_mem hview)
  have hle := hevents.le (hsub e (List.mem_of_mem_filter he))
  have hsequence : view.creationCommitSequence = e.commitSequence := by
    rw [show view = summary e a from hsummary]
    rfl
  rw [decide_eq_true_eq, hsequence]
  exact Nat.not_lt.2 hle

/-- **A page of the port** shows the registrations of some of the next
events, and goes on behind them unless they are the last. -/
theorem exists_listAssets (hlibrary : library ≠ 0) {d' : Database} (hd : Reachable allowed d)
    (hlater : Later allowed d d') {request : ListAssetsQuery}
    (hstart : listStart library d' request.position = .ok (d.lastSequence, m))
    (hlt : d.lastSequence ≠ 0 → m < d.lastSequence) (hle : m ≤ d.lastSequence) :
    ∃ page m', listAssets library d' request = .ok page ∧
      page.snapshotSequence = d.lastSequence ∧ m ≤ m' ∧
      List.Forall₂ ShownAs (registrations ((d.domainEvents.drop m).take (m' - m)))
        (page.assets.map fun view => (d'.toTables, view)) ∧
      (page.next = none ∧ m' = d.lastSequence ∨ ∃ valid, m < m' ∧ m' < d.lastSequence ∧
        page.next = some (.after library d.lastSequence m' valid)) := by
  have hevents := hd.eventsNumbered
  have hevents' := (hlater.reachable hd).eventsNumbered
  obtain ⟨added, hadded, -⟩ := hlater.grows.domainEvents
  by_cases hempty : d.lastSequence = 0
  · -- An empty snapshot has one empty page.
    obtain rfl : m = 0 := by omega
    refine ⟨⟨0, [], none⟩, 0, ?_, hempty.symm, le_rfl, .nil, .inl ⟨rfl, hempty.symm⟩⟩
    unfold listAssets
    simp only [hstart, bind, Except.bind, hempty, if_true]
    rfl
  · have hwindow := listedEvents_eq hevents hevents' hadded m
    have hread : ∀ e ∈ (d.domainEvents.drop m).take maxEventScan, e.isRegistration = true →
        ∃ view, readRegisteredAsset d' e = .ok view ∧ ShownAs e (d'.toTables, view) := by
      intro e he hreg
      refine exists_readRegisteredAsset (hlater.reachable hd) ?_ hreg
      rw [hadded]
      exact List.mem_append_left _ (List.mem_of_mem_drop (List.mem_of_mem_take he))
    have hconsecutive : Consecutive m ((d.domainEvents.drop m).take maxEventScan) := by
      have hdrop := (consecutive_events hevents).drop m
      rw [Nat.zero_add] at hdrop
      exact hdrop.take _
    have hlength : ((d.domainEvents.drop m).take maxEventScan).length =
        min maxEventScan (d.lastSequence - m) := by
      rw [List.length_take, List.length_drop, length_events hevents]
    obtain ⟨k, views, hscan, hk, hprogress, hroom, hviews⟩ := @exists_scanEvents
      _ d' request.pageSize hread ⟨[], m, 0⟩ hconsecutive
    have hpositive : 1 ≤ k := by
      refine hprogress request.bounded.1 (List.ne_nil_of_length_pos ?_)
      have := hlt hempty
      rw [hlength]
      unfold maxEventScan
      omega
    have hkle : k ≤ maxEventScan ∧ m + k ≤ d.lastSequence := by
      rw [hlength] at hk
      omega
    rw [List.take_take, Nat.min_eq_left hkle.1] at hviews
    have hstored : ∀ next, AssetPage.fromStore ⟨d.lastSequence, views, next⟩ =
        .ok ⟨d.lastSequence, views, next⟩ := by
      have hfew := hroom (Nat.zero_le _)
      have hsize := request.bounded.2
      simp only [List.length_nil, Nat.zero_add] at hfew
      exact fun next => fromStore_of_shown hevents (hfew.trans hsize) hviews
        (fun e he => List.mem_of_mem_drop (List.mem_of_mem_take he)) next
    have hlisted : listAssets library d' request =
        if m + k = d.lastSequence then AssetPage.fromStore ⟨d.lastSequence, views, none⟩
        else (ListAssetsPosition.newAfter library d.lastSequence (m + k)).bind fun next =>
          AssetPage.fromStore ⟨d.lastSequence, views, some next⟩ := by
      unfold listAssets
      simp only [hstart, bind, Except.bind, hempty, if_false, hwindow, hscan, List.nil_append,
        Nat.zero_add]
      rw [if_neg (fun h => absurd h.1 (Nat.ne_of_gt hpositive))]
    by_cases hlast : m + k = d.lastSequence
    · rw [if_pos hlast, hstored] at hlisted
      refine ⟨_, m + k, hlisted, rfl, Nat.le_add_right m k, ?_, .inl ⟨rfl, hlast⟩⟩
      rw [Nat.add_sub_cancel_left]
      exact hviews
    · have hvalid : isListPosition library d.lastSequence (m + k) = true :=
        isListPosition_of_lt hlibrary (by omega) (by omega)
      have hnew : ListAssetsPosition.newAfter library d.lastSequence (m + k) =
        .ok (.after library d.lastSequence (m + k) hvalid) := dif_pos hvalid
      rw [if_neg hlast, hnew] at hlisted
      simp only [Except.bind, hstored] at hlisted
      refine ⟨_, m + k, hlisted, rfl, Nat.le_add_right m k, ?_,
        .inr ⟨hvalid, by omega, by omega, rfl⟩⟩
      rw [Nat.add_sub_cancel_left]
      exact hviews

/-! ## All pages -/

/-- A page is asked for behind the first `m` events of the snapshot. -/
structure AskedAt (library : BitVec 128) (allowed : Call → Prop) (d : Database) (m : ℕ)
    (cursor : Option Bytes) (step : Tables × ℕ) : Prop where
  le : m ≤ d.lastSequence
  later : LaterStep allowed d step
  first : cursor = none → step.1 = d.toTables
  at_ : ListCursorAt library d m cursor

/-- The rows of a page, with the tables they were read from. -/
def assetRows (page : (Tables × ℕ) × ListAssetsResponse) : List (Tables × AssetSummaryView) :=
  page.2.page.assets.map fun view => (page.1.1, view)

/-- A page shows the registrations of the snapshot from one event to another. -/
def ShowsFrom (d : Database) (m m' : ℕ) (step : Tables × ℕ) (answer : ListAssetsResponse) : Prop :=
  m ≤ m' ∧ List.Forall₂ ShownAs (registrations ((d.domainEvents.drop m).take (m' - m)))
    (assetRows (step, answer))

theorem AskedAt.exists_answer (hlibrary : library ≠ 0) (hd : Reachable allowed d)
    {cursor : Option Bytes} {step : Tables × ℕ} (h : AskedAt library allowed d m cursor step) :
    ∃ answer m', AssetQueryService.listAssets library step.1 step.2 cursor = .ok answer ∧
      ShowsFrom d m m' step answer ∧ (answer.nextCursor = none ∧ m' = d.lastSequence ∨
        ∃ c, answer.nextCursor = some c ∧ m < m' ∧ m' < d.lastSequence ∧
          ∀ step', LaterStep allowed d step' → AskedAt library allowed d m' (some c) step') := by
  obtain ⟨hle, ⟨d', hlater, htables, hsize⟩, hfirst, hat⟩ := h
  rw [htables] at hfirst
  obtain ⟨position, hposition, hstart, hlt⟩ := hat.start (hlater.reachable hd).eventsNumbered
    hlater.grows.sequence hfirst
  obtain ⟨page, m', hpage, -, hm, hshown, hnext⟩ := @exists_listAssets allowed m d library hlibrary
    d' hd hlater ⟨step.2, position, hsize⟩ hstart hlt hle
  have hquery : ListAssetsQuery.new step.2 position = .ok ⟨step.2, position, hsize⟩ :=
    dif_pos hsize
  rw [← htables] at hpage hshown
  rcases hnext with ⟨hlast, hend⟩ | ⟨valid, hlow, hhigh, hmore⟩
  · refine ⟨⟨page, none⟩, m', ?_, ⟨hm, hshown⟩, .inl ⟨rfl, hend⟩⟩
    unfold AssetQueryService.listAssets
    simp only [hposition, hquery, hpage, hlast, bind, Except.bind]
  · obtain ⟨bytes, hencode, hnonempty, hdecode⟩ := decodeListCursor_encode valid
    refine ⟨⟨page, some bytes⟩, m', ?_, ⟨hm, hshown⟩, .inr ⟨bytes, rfl, hlow, hhigh,
      fun step' hstep' => ⟨Nat.le_of_lt hhigh, hstep', fun hnone => (by cases hnone),
        .after valid hnonempty hdecode⟩⟩⟩
    unfold AssetQueryService.listAssets
    simp only [hposition, hquery, hpage, hmore, hencode, bind, Except.bind]

/-- What a listing shows of the snapshot of `d`, read in later states: the
assets whose registration is in the snapshot, each once and in the order of
their registrations, as their rows stand when they are read. -/
structure ShowsSnapshot (d : Database) (later : List Database)
    (rows : List (Tables × AssetSummaryView)) : Prop where
  registered : ∀ d' ∈ d :: later, ∀ assetId, (∃ row ∈ rows, row.2.assetId = assetId) ↔
    ∃ e ∈ d'.domainEvents, e.isRegistration = true ∧ e.aggregateId = .uuid assetId.uuid ∧
      e.commitSequence ≤ d.lastSequence
  once : (rows.map fun row => row.2.assetId).Nodup
  ordered : rows.Pairwise fun row row' =>
    row.2.creationCommitSequence < row'.2.creationCommitSequence
  shown : ∀ row ∈ rows, ∃ a ∈ row.1.assets, ∃ e ∈ d.domainEvents, e.isRegistration = true ∧
    e.aggregateId = .uuid a.assetId.uuid ∧ row.2 = summary e a

theorem ShowsSnapshot.of_registrations (hd : Reachable allowed d) {later : List Database}
    (hlater : ∀ d' ∈ d :: later, Later allowed d d') {rows : List (Tables × AssetSummaryView)}
    (h : List.Forall₂ ShownAs (registrations d.domainEvents) rows) :
    ShowsSnapshot d later rows := by
  have hevents := hd.eventsNumbered
  have hids : (registrations d.domainEvents).map EventRow.aggregateId =
      rows.map fun row => AggregateId.uuid row.2.assetId.uuid := by
    refine map_eq_of_forall₂ h fun e row hshown => ?_
    obtain ⟨a, -, hid, hsummary⟩ := hshown
    rw [hid, hsummary]
    rfl
  have hsequences : (registrations d.domainEvents).map EventRow.commitSequence =
      rows.map fun row => row.2.creationCommitSequence := by
    refine map_eq_of_forall₂ h fun e row hshown => ?_
    obtain ⟨a, -, -, hsummary⟩ := hshown
    rw [hsummary]
    rfl
  refine ⟨fun d' hd' assetId => ?_, ?_, ?_, fun row hrow => ?_⟩
  · -- The events up to the snapshot are those of `d`.
    obtain ⟨added, hadded, hnew⟩ := (hlater d' hd').grows.domainEvents
    have hmem : (∃ row ∈ rows, row.2.assetId = assetId) ↔
        AggregateId.uuid assetId.uuid ∈
          (registrations d.domainEvents).map EventRow.aggregateId := by
      rw [hids, List.mem_map]
      refine exists_congr fun row => and_congr_right fun _ => ?_
      exact ⟨fun h => by rw [h], fun h => Id.uuid_injective (AggregateId.uuid.inj h)⟩
    rw [hmem, List.mem_map]
    constructor
    · rintro ⟨e, he, hid⟩
      obtain ⟨he, hreg⟩ := List.mem_filter.1 he
      exact ⟨e, hadded ▸ List.mem_append_left _ he, hreg, hid, hevents.le he⟩
    · rintro ⟨e, he, hreg, hid, hle⟩
      rw [hadded] at he
      rcases List.mem_append.1 he with hold | hadd
      · exact ⟨e, List.mem_filter.2 ⟨hold, hreg⟩, hid⟩
      · exact absurd (hnew e hadd).1 (Nat.not_lt.2 hle)
  · have honce : ((registrations d.domainEvents).map EventRow.aggregateId).Nodup :=
      hd.assetRegistry.once
    rw [hids] at honce
    refine List.Nodup.of_map (fun assetId => AggregateId.uuid assetId.uuid) ?_
    rw [List.map_map]
    exact honce
  · have hpairwise : (registrations d.domainEvents).Pairwise fun a b =>
        a.commitSequence < b.commitSequence := (consecutive_events hevents).pairwise.filter _
    rw [← List.pairwise_map, hsequences, List.pairwise_map] at hpairwise
    exact hpairwise
  · obtain ⟨e, he, a, ha, hid, hsummary⟩ := exists_of_forall₂ h hrow
    obtain ⟨he, hreg⟩ := List.mem_filter.1 he
    exact ⟨a, ha, e, he, hreg, hid, hsummary⟩

/-- **`ListAssets` pages exactly.** In every reachable library, whatever
calls come between the pages and whatever the page sizes, following the
cursors from the first page never fails, ends after at most as many pages as
the snapshot has events (after one page if it has none), and the pages show
the assets that the first page's snapshot registers, each once and in the
order of their registrations. -/
theorem list_assets_paged_exactly {library : BitVec 128} (hlibrary : library ≠ 0) {d : Database}
    (hd : Reachable allowed d) {pageSize : ℕ} (hsize : 1 ≤ pageSize ∧ pageSize ≤ 64)
    {schedule : List (Database × ℕ)} (hschedule : Schedule allowed d schedule) :
    ∃ pages, follow ListAssetsResponse.nextCursor
        (fun s => AssetQueryService.listAssets library s.1 s.2)
        ((d.toTables, pageSize) :: tablesOf schedule) none = .ok pages ∧
      (d.domainEvents.length ≤ schedule.length + 1 → pages.isSome = true) ∧
      ∀ all ∈ pages, all.length ≤ max 1 d.domainEvents.length ∧
        ShowsSnapshot d (schedule.map Prod.fst) (all.flatMap assetRows) := by
  have hfirst : AskedAt library allowed d 0 none (d.toTables, pageSize) :=
    ⟨Nat.zero_le _, ⟨d, .refl, rfl, hsize⟩, fun _ => rfl, .first⟩
  obtain ⟨pages, hfollow, hends, hcovers⟩ := @Common.exists_follow _ _ _ _
    ListAssetsResponse.nextCursor (fun s => AssetQueryService.listAssets library s.1 s.2)
    (LaterStep allowed d) (AskedAt library allowed d) (ShowsFrom d) _
    (fun _ _ _ h => AskedAt.exists_answer hlibrary hd h) _
    (fun s hs => laterStep_of_schedule hschedule hs) _ _ _ hfirst
  have hlength := length_events hd.eventsNumbered
  refine ⟨pages, hfollow, fun henough => hends ?_, fun all hall => ?_⟩
  · rw [tablesOf, List.length_map, ← hlength]
    exact henough
  · obtain ⟨hfew, hcover⟩ := hcovers all hall
    rw [Nat.sub_zero, ← hlength] at hfew
    have hpart : ∀ {m m' n : ℕ}, m ≤ m' → m' ≤ n →
        registrations ((d.domainEvents.drop m).take (n - m)) =
          registrations ((d.domainEvents.drop m).take (m' - m)) ++
            registrations ((d.domainEvents.drop m').take (n - m')) := by
      intro m m' n h h'
      rw [take_drop_append d.domainEvents h h', registrations, List.filter_append]
      rfl
    have hshown := (Covers.forall₂ hpart hcover fun _ _ _ _ h => h).2
    rw [List.drop_zero, Nat.sub_zero, ← hlength, List.take_length] at hshown
    refine ⟨hfew, .of_registrations hd (fun d' hd' => ?_) hshown⟩
    rcases List.mem_cons.1 hd' with rfl | hd'
    · exact .refl
    · obtain ⟨step, hstep, rfl⟩ := List.mem_map.1 hd'
      exact hschedule.later hstep

/-- The library of one asset, and then of a subject too. -/
def assetAndSubject : Database :=
  afterCalls oneAsset [.execute (.createSubject (.wide 0))]

/-- A listing of the library of one asset, with pages left after a subject
came. -/
theorem one_asset_listed : ∃ all, follow ListAssetsResponse.nextCursor
    (fun s => AssetQueryService.listAssets 1 s.1 s.2)
    [(oneAsset.toTables, 1), (assetAndSubject.toTables, 64)] none = .ok (some all) ∧
    all.length ≤ oneAsset.domainEvents.length ∧
    ShowsSnapshot oneAsset [assetAndSubject] (all.flatMap assetRows) := by
  have hlater : Later (fun _ => True) oneAsset assetAndSubject :=
    .step firstProcess (.execute (.createSubject (.wide 0))) .refl trivial
  have hevents : oneAsset.domainEvents.length = 1 := by decide +kernel
  obtain ⟨pages, hfollow, hends, hshows⟩ := @list_assets_paged_exactly _ 1 (by decide) oneAsset
    reachable_oneAsset 1 (by decide) [(assetAndSubject, 64)] (.cons hlater (by decide) .nil)
  rw [hevents] at hends hshows
  obtain ⟨all, rfl⟩ := Option.isSome_iff_exists.1 (hends (by decide))
  rw [hevents]
  exact ⟨all, hfollow, hshows all rfl⟩

/-- The empty library has no events, and a listing of it takes a page. -/
theorem empty_library_one_page : Database.empty.domainEvents.length = 0 ∧
    ∃ all, follow ListAssetsResponse.nextCursor
      (fun s => AssetQueryService.listAssets 1 s.1 s.2) [(Database.empty.toTables, 1)] none =
        .ok (some all) ∧ all.length = 1 :=
  ⟨rfl, _, rfl, rfl⟩

end AssetQuery

end MengXia.Store
