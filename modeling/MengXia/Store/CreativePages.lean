
import MengXia.CreativeService
import MengXia.Store.Documents
import MengXia.Store.Edges
import MengXia.Store.Entries
/-!
# Creative listings page by page

A reader follows the cursors of a listing from the first page to the last,
while other calls are committed. The first page fixes the endpoint; every
page shows the next entries up to it, each as its row stands when the page
is read, so the pages together show every entry of the first state once and
in order.
-/

namespace MengXia.Store

namespace CreativeQuery

open Common

variable {pageSize : ℕ} {e : ℕ × Uuid} {cursor : Option Bytes}

/-! ## Listings -/

/-- What the four listings have in common: the check of their scope, the
entries in it, and the rows they read with what is shown of a row. -/
structure Listing (α β : Type) where
  kind : CreativeCursorKind
  found : Tables → Bool
  entries : Tables → List (ℕ × Uuid)
  rows : Tables → List α
  entry : α → ℕ × Uuid
  view : Tables → α → AssetResult β

namespace Listing

variable {α β : Type} (L : Listing α β)

/-- The query of the store. -/
def port (libraryId : BitVec 128) (t : Tables) (request : CreativeListQuery) :
    AssetResult (CreativePage β) :=
  if !L.found t then .error .notFound
  else
    listPage libraryId request ((L.entries t).map Prod.fst) (fun r => (L.entry r).1) (L.rows t)
      (L.view t)

/-- The method of the service. -/
def ask (libraryId : BitVec 128) (t : Tables) (pageSize : ℕ) (cursor : Option Bytes) :
    AssetResult (CreativePageResponse β) :=
  CreativeQueryService.list libraryId L.kind pageSize cursor (L.port libraryId t)

/-- The rows of a listing are its entries, and each of them can be shown. -/
structure Sound (t : Tables) : Prop where
  complete : ∀ e, e ∈ (L.rows t).map L.entry ↔ e ∈ L.entries t
  distinct : Distinct (fun r => (L.entry r).1) (L.rows t)
  keys : Distinct Prod.fst (L.entries t)
  bounds : ∀ e ∈ L.entries t, 1 ≤ e.1 ∧ e.1 < 2 ^ 63
  shown : ∀ r ∈ L.rows t, ∃ item, L.view t r = .ok item

/-- An entry, shown as its row stands in some tables. -/
def ShownAs (e : ℕ × Uuid) (read : Tables × β) : Prop :=
  ∃ r ∈ L.rows read.1, L.entry r = e ∧ L.view read.1 r = .ok read.2

end Listing

/-! ## One page -/

section Page

variable {α β : Type} {library : BitVec 128} {request : CreativeListQuery} {keys : List ℕ}
  {key : α → ℕ} {rows : List α} {view : α → AssetResult β} {endpoint after : ℕ}

theorem collect_eq (pageSize : ℕ) : collect key rows after endpoint pageSize =
    (rowsWithin key after endpoint rows).take (pageSize + 1) :=
  rfl

theorem take_collect (pageSize : ℕ) : (collect key rows after endpoint pageSize).take pageSize =
    (rowsWithin key after endpoint rows).take pageSize := by
  rw [collect_eq, List.take_take, Nat.min_eq_left (Nat.le_succ pageSize)]

theorem lt_length_collect_iff :
    pageSize < (collect key rows after endpoint pageSize).length ↔
      pageSize < (rowsWithin key after endpoint rows).length := by
  rw [collect_eq, List.length_take]
  omega

/-- The position after a row that others follow is a valid one. -/
theorem isCreativePosition_of_more (hlibrary : library ≠ 0) (hdistinct : Distinct key rows)
    (hbounds : ∀ r ∈ rows, 1 ≤ key r) (hendpoint : endpoint < 2 ^ 63) {n : ℕ} {r : α}
    (hr : ((rowsWithin key after endpoint rows).take n).getLast? = some r)
    (hmore : n < (rowsWithin key after endpoint rows).length) :
    isCreativePosition library endpoint (key r) = true := by
  have hmem := List.mem_of_getLast? hr
  obtain ⟨hrow, -, -⟩ := mem_rowsWithin.1 (List.mem_of_mem_take hmem)
  -- The first row that is left out lies above `r` and within the endpoint.
  have hnext : (rowsWithin key after endpoint rows).get ⟨n, hmore⟩ ∈
      (rowsWithin key after endpoint rows).drop n := by
    rw [List.drop_eq_getElem_cons hmore]
    exact List.mem_cons_self
  have hsorted : (rowsWithin key after endpoint rows).Pairwise fun a b => key a < key b :=
    rowsWithin_pairwise hdistinct
  rw [← List.take_append_drop n (rowsWithin key after endpoint rows),
    List.pairwise_append] at hsorted
  have hlt := hsorted.2.2 r hmem _ hnext
  obtain ⟨-, -, hle⟩ := mem_rowsWithin.1 (List.mem_of_mem_drop hnext)
  have hpositive := hbounds r hrow
  simp only [isCreativePosition, Bool.and_eq_true, decide_eq_true_eq]
  refine ⟨⟨⟨⟨hlibrary, ?_⟩, hendpoint⟩, ?_⟩, ?_⟩ <;> omega

/-- **A page is answered** when its bounds are and its rows can be shown. -/
theorem exists_listPage (hlibrary : library ≠ 0) (hdistinct : Distinct key rows)
    (hpositive : ∀ r ∈ rows, 1 ≤ key r)
    (hshown : ∀ r ∈ rows, ∃ item, view r = .ok item)
    (hbounds : listBounds library request.position (keys.foldl max 0) = .ok (endpoint, after))
    (hendpoint : requireSnapshotEndpoint request.position (keys.contains endpoint) = .ok ())
    (hrange : endpoint < 2 ^ 63) :
    ∃ page, listPage library request keys key rows view = .ok page ∧
      page.snapshotEndpoint = endpoint ∧
      Shows library key rows view after request.pageSize page := by
  suffices hok : ∃ page, listPage library request keys key rows view = .ok page by
    obtain ⟨page, hpage⟩ := hok
    obtain ⟨after', hbounds', -, hshows⟩ := listPage_eq_ok hpage
    rw [hbounds] at hbounds'
    obtain ⟨hsame, rfl⟩ := Prod.mk.inj (Except.ok.inj hbounds')
    exact ⟨page, hpage, hsame.symm, hshows⟩
  have hviews : ∀ n, ∃ items,
      ((collect key rows after endpoint request.pageSize).take n).mapM view = .ok items :=
    fun n => exists_exceptMapM fun r hr => hshown r (mem_collect (List.mem_of_mem_take hr))
  unfold listPage
  rw [hbounds]
  simp only [bind, Except.bind, hendpoint]
  split
  · rename_i hmore
    have hlength := length_collect_le key rows after endpoint request.pageSize
    have hdrop : (collect key rows after endpoint request.pageSize).dropLast =
        (collect key rows after endpoint request.pageSize).take request.pageSize := by
      rw [List.dropLast_eq_take]
      congr 1
      omega
    obtain ⟨items, hitems⟩ := hviews request.pageSize
    have hne : (collect key rows after endpoint request.pageSize).take request.pageSize ≠ [] := by
      have hsize := request.bounded.1
      apply List.ne_nil_of_length_pos
      rw [List.length_take]
      omega
    have hr := List.getLast?_eq_some_getLast hne
    generalize List.getLast _ hne = r at hr
    have hvalid : isCreativePosition library endpoint (key r) = true :=
      isCreativePosition_of_more hlibrary hdistinct hpositive hrange
        (take_collect request.pageSize ▸ hr) (lt_length_collect_iff.1 hmore)
    simp only [hdrop, hitems, hr, Option.map_some, nextPosition, CreativeListPosition.newAfter,
      hvalid, dif_pos]
    exact ⟨_, rfl⟩
  · obtain ⟨items, hitems⟩ := hviews (request.pageSize + 1)
    rw [List.take_of_length_le (length_collect_le key rows after endpoint request.pageSize)]
      at hitems
    rw [hitems]
    exact ⟨_, rfl⟩

end Page

/-! ## A page within a listing -/

namespace Listing

variable {α β : Type} {L : Listing α β} {library : BitVec 128} {t : Tables}

variable {t' : Tables}

/-- The largest key of a listing. -/
def endpoint (L : Listing α β) (t : Tables) : ℕ :=
  ((L.entries t).map Prod.fst).foldl max 0

theorem le_endpoint (he : e ∈ L.entries t) : e.1 ≤ L.endpoint t :=
  le_foldl_max.2 _ (List.mem_map_of_mem he)

/-- **The entries of a snapshot stay the entries up to its endpoint.** -/
theorem mem_entries_iff (hsound : L.Sound t')
    (hgrown : AddedAbove Prod.fst (L.entries t) (L.entries t')) (he : e.1 ≤ L.endpoint t) :
    e ∈ L.entries t' ↔ e ∈ L.entries t := by
  refine ⟨fun hmem => ?_, hgrown.subset⟩
  rcases hgrown.old_or_new hmem with hold | hnew
  · exact hold
  · -- A new entry lies above the endpoint, which is a key or zero.
    have hpositive := (hsound.bounds e hmem).1
    rcases @foldl_max_mem ((L.entries t).map Prod.fst) 0 with hzero | hkey
    · unfold endpoint at he
      omega
    · obtain ⟨last, hlast, heq⟩ := List.mem_map.1 hkey
      have hlt := hnew last hlast
      unfold endpoint at he
      omega

/-- The keys of the rows are positive. -/
theorem Sound.positive (h : L.Sound t) : ∀ r ∈ L.rows t, 1 ≤ (L.entry r).1 := by
  intro r hr
  exact (h.bounds _ ((h.complete _).1 (List.mem_map_of_mem hr))).1

theorem Sound.endpoint_lt (h : L.Sound t) : L.endpoint t < 2 ^ 63 := by
  rcases @foldl_max_mem ((L.entries t).map Prod.fst) 0 with hzero | hkey
  · unfold endpoint
    omega
  · obtain ⟨last, hlast, heq⟩ := List.mem_map.1 hkey
    have := (h.bounds last hlast).2
    unfold endpoint
    omega

/-- The next entries of the snapshot of `t`, above a key. -/
def remaining (L : Listing α β) (t : Tables) (after : ℕ) : List (ℕ × Uuid) :=
  rowsWithin Prod.fst after (L.endpoint t) (L.entries t)

/-- The cursor that continues a snapshot above a key. -/
inductive CursorAt (L : Listing α β) (library : BitVec 128) (t : Tables) :
    ℕ → Option Bytes → Prop where
  | first : CursorAt L library t 0 none
  | after {key : ℕ} {bytes : Bytes}
      (valid : isCreativePosition library (L.endpoint t) key = true)
      (nonempty : bytes ≠ []) (decoded : decodeCreativeCursor bytes library L.kind =
        .ok (.after library (L.endpoint t) key valid)) :
      CursorAt L library t key (some bytes)

/-- The rows that a later page reads are those of the remaining entries. -/
theorem map_entry_rowsWithin (hsound : L.Sound t) (hsound' : L.Sound t')
    (hgrown : AddedAbove Prod.fst (L.entries t) (L.entries t')) (after : ℕ) :
    (rowsWithin (fun r => (L.entry r).1) after (L.endpoint t) (L.rows t')).map L.entry =
      L.remaining t after := by
  refine map_rowsWithin_eq (fun _ => rfl) hsound'.distinct hsound.keys fun e he => ?_
  rw [hsound'.complete]
  exact mem_entries_iff hsound' hgrown he

/-- The cursor gives the endpoint of the snapshot and the last key shown. -/
theorem CursorAt.bounds {after : ℕ} (h : CursorAt L library t after cursor)
    (hgrown : AddedAbove Prod.fst (L.entries t) (L.entries t')) (hfirst : cursor = none → t' = t) :
    ∃ position, CreativeQueryService.position library cursor L.kind = .ok position ∧
      listBounds library position (((L.entries t').map Prod.fst).foldl max 0) =
        .ok (L.endpoint t, after) ∧
      requireSnapshotEndpoint position
        (((L.entries t').map Prod.fst).contains (L.endpoint t)) = .ok () := by
  cases h with
  | first =>
    obtain rfl := hfirst rfl
    exact ⟨.first, rfl, rfl, rfl⟩
  | after valid nonempty decoded =>
    obtain ⟨b, bytes, rfl⟩ := List.exists_cons_of_ne_nil nonempty
    refine ⟨_, decoded, ?_, ?_⟩
    · simp only [isCreativePosition, Bool.and_eq_true, decide_eq_true_eq] at valid
      have hnot : ¬ (library ≠ library ∨ L.endpoint t ≤ after) := by
        rintro (h | h)
        · exact h rfl
        · omega
      exact if_neg hnot
    · -- The endpoint is the key of a row, which stays.
      simp only [isCreativePosition, Bool.and_eq_true, decide_eq_true_eq] at valid
      have hkey : L.endpoint t ∈ (L.entries t').map Prod.fst := by
        rcases @foldl_max_mem ((L.entries t).map Prod.fst) 0 with hzero | hkey
        · exact absurd hzero valid.1.1.1.2
        · obtain ⟨e, he, heq⟩ := List.mem_map.1 hkey
          exact List.mem_map.2 ⟨e, hgrown.subset he, heq⟩
      exact if_pos (List.contains_iff_mem.2 hkey)

/-- **A page whose bounds are met is answered**, with the cursor of the
position behind it if there is one. -/
theorem exists_ask (hlibrary : library ≠ 0) (hsound : L.Sound t) (hfound : L.found t = true)
    (hsize : 1 ≤ pageSize ∧ pageSize ≤ 64) {position : CreativeListPosition} {endpoint after : ℕ}
    (hposition : CreativeQueryService.position library cursor L.kind = .ok position)
    (hbounds : listBounds library position (L.endpoint t) = .ok (endpoint, after))
    (hexists : requireSnapshotEndpoint position
      (((L.entries t).map Prod.fst).contains endpoint) = .ok ()) (hrange : endpoint < 2 ^ 63) :
    ∃ answer, L.ask library t pageSize cursor = .ok answer ∧
      answer.page.snapshotEndpoint = endpoint ∧
      Shows library (fun r => (L.entry r).1) (L.rows t) (L.view t) after pageSize answer.page ∧
      (answer.page.next = none → answer.nextCursor = none) ∧
      ∀ lastKey valid, answer.page.next = some (.after library endpoint lastKey valid) →
        ∃ bytes, answer.nextCursor = some bytes ∧ bytes ≠ [] ∧
          decodeCreativeCursor bytes library L.kind =
            .ok (.after library endpoint lastKey valid) := by
  obtain ⟨⟨endpoint, items, next⟩, hpage, rfl, hshows⟩ := @exists_listPage _ _ library
    ⟨pageSize, position, hsize⟩ _ _ _ _ _ _ hlibrary hsound.distinct hsound.positive
    hsound.shown hbounds hexists hrange
  have hask : L.ask library t pageSize cursor =
      CreativeQueryService.response library ⟨endpoint, items, next⟩ L.kind := by
    have hport : L.port library t ⟨pageSize, position, hsize⟩ = .ok ⟨endpoint, items, next⟩ := by
      unfold port
      rw [hfound]
      exact hpage
    unfold ask CreativeQueryService.list CreativeListQuery.new
    simp only [hposition, bind, Except.bind, hsize, and_self, dif_pos, hport]
  cases next with
  | none => exact ⟨_, hask, rfl, hshows, fun _ => rfl, fun _ _ hnext => by cases hnext⟩
  | some next =>
    -- The position behind a page is one of this library, so it has a cursor.
    have hafter : ∃ lastKey valid, next = .after library endpoint lastKey valid := by
      by_cases hmore : pageSize < (collect (fun r => (L.entry r).1) (L.rows t) after endpoint
          pageSize).length
      · obtain ⟨r, valid, -, hnext⟩ := hshows.more hmore
        exact ⟨_, valid, Option.some.inj hnext⟩
      · cases hshows.last (Nat.not_lt.1 hmore)
    obtain ⟨lastKey, valid, rfl⟩ := hafter
    obtain ⟨bytes, hencode, hnonempty, hdecode⟩ := @decodeCreativeCursor_encode library
      L.kind _ _ valid
    simp only [CreativeQueryService.response, hencode, bind, Except.bind] at hask
    refine ⟨_, hask, rfl, hshows, fun hnext => (by cases hnext), fun _ _ hnext => ?_⟩
    cases hnext
    exact ⟨bytes, rfl, hnonempty, hdecode⟩

/-- **One page of a listing.** It shows the next entries of the snapshot, as
their rows stand, and its cursor continues behind the last of them. -/
theorem exists_page (hlibrary : library ≠ 0) (hsound : L.Sound t) (hsound' : L.Sound t')
    (hgrown : AddedAbove Prod.fst (L.entries t) (L.entries t')) (hfound : L.found t' = true)
    {after : ℕ} (hcursor : CursorAt L library t after cursor) (hfirst : cursor = none → t' = t)
    (hsize : 1 ≤ pageSize ∧ pageSize ≤ 64) :
    ∃ answer, L.ask library t' pageSize cursor = .ok answer ∧
      answer.page.snapshotEndpoint = L.endpoint t ∧
      List.Forall₂ L.ShownAs ((L.remaining t after).take pageSize)
        (answer.page.items.map fun item => (t', item)) ∧
      ((L.remaining t after).length ≤ pageSize → answer.nextCursor = none) ∧
      (pageSize < (L.remaining t after).length → ∃ e bytes,
        ((L.remaining t after).take pageSize).getLast? = some e ∧
          answer.nextCursor = some bytes ∧ CursorAt L library t e.1 (some bytes)) := by
  have hentries := map_entry_rowsWithin hsound hsound' hgrown after
  have hlength : (rowsWithin (fun r => (L.entry r).1) after (L.endpoint t) (L.rows t')).length =
      (L.remaining t after).length := by
    rw [← hentries, List.length_map]
  obtain ⟨position, hposition, hbounds, hexists⟩ := hcursor.bounds hgrown hfirst
  obtain ⟨answer, hask, hendpoint, hshows, hnone, hsome⟩ := exists_ask hlibrary hsound' hfound
    hsize hposition hbounds hexists hsound.endpoint_lt
  refine ⟨answer, hask, hendpoint, ?_, fun hlast => ?_, fun hmore => ?_⟩
  · have hviews := hshows.items
    rw [take_collect, hendpoint] at hviews
    have hrows : ∀ r ∈ (rowsWithin (fun r => (L.entry r).1) after (L.endpoint t)
        (L.rows t')).take pageSize, r ∈ L.rows t' := fun r hr =>
      (mem_rowsWithin.1 (List.mem_of_mem_take hr)).1
    rw [← hentries, ← List.map_take, List.forall₂_map_left_iff, List.forall₂_map_right_iff]
    refine ((List.forall₂_and_left _ _).2 ⟨hrows, hviews⟩).imp fun r item h => ?_
    exact ⟨r, h.1, rfl, h.2⟩
  · refine hnone (hshows.last (Nat.not_lt.1 fun hlt => ?_))
    rw [hendpoint] at hlt
    have := lt_length_collect_iff.1 hlt
    omega
  · obtain ⟨r, valid, hr, hnext⟩ := hshows.more (by
      rw [hendpoint]
      exact lt_length_collect_iff.2 (hlength ▸ hmore))
    simp only [hendpoint, take_collect] at hr hnext valid
    obtain ⟨bytes, hbytes, hnonempty, hdecode⟩ := hsome _ valid hnext
    refine ⟨L.entry r, bytes, ?_, hbytes, .after valid hnonempty hdecode⟩
    rw [← hentries, ← List.map_take, List.getLast?_map, hr]
    rfl

end Listing

/-! ## All pages -/

/-- The rows of a page, with the tables they were read from. -/
def pageRows {β : Type} (page : (Tables × ℕ) × CreativePageResponse β) : List (Tables × β) :=
  page.2.page.items.map fun item => (page.1.1, item)

namespace Listing

variable {α β : Type} {L : Listing α β} {library : BitVec 128} {allowed : Call → Prop}

variable {d : Database}

/-- What the calls between two pages keep of a listing. -/
structure Stable (L : Listing α β) (allowed : Call → Prop) : Prop where
  sound : ∀ d, Reachable allowed d → L.Sound d
  grown : ∀ d d', Reachable allowed d → Later allowed d d' →
    AddedAbove Prod.fst (L.entries d) (L.entries d')
  found : ∀ d d', Later allowed d d' → L.found d.toTables = true → L.found d'.toTables = true

theorem remaining_zero {t : Tables} (h : L.Sound t) :
    L.remaining t 0 = sortedBy Prod.fst (L.entries t) := by
  refine eq_of_pairwise_lt (rowsWithin_pairwise h.keys) (sortedBy_pairwise h.keys) fun e => ?_
  unfold remaining
  rw [mem_rowsWithin, mem_sortedBy]
  exact ⟨fun he => he.1, fun he => ⟨he, (h.bounds e he).1, le_endpoint he⟩⟩

/-- Behind the last entry of a page come the entries the page left out. -/
theorem remaining_after {t : Tables} (h : L.Sound t) {after n : ℕ}
    (he : ((L.remaining t after).take n).getLast? = some e) :
    L.remaining t e.1 = (L.remaining t after).drop n := by
  obtain ⟨before, hpage⟩ := List.getLast?_eq_some_iff.1 he
  have hsplit : L.remaining t after = before ++ e :: (L.remaining t after).drop n := by
    conv_lhs => rw [← List.take_append_drop n (L.remaining t after), hpage]
    rw [List.append_assoc]
    rfl
  exact rowsWithin_resume h.keys hsplit

/-- The entries of a snapshot in the order of their keys. -/
def snapshot (L : Listing α β) (t : Tables) : List (ℕ × Uuid) :=
  sortedBy Prod.fst (L.entries t)

theorem length_snapshot (t : Tables) : (L.snapshot t).length = (L.entries t).length := by
  rw [snapshot, sortedBy, List.length_insertionSort]

/-- A page is asked for after `m` entries of the snapshot have been shown. -/
structure AskedAt (L : Listing α β) (library : BitVec 128) (allowed : Call → Prop) (d : Database)
    (m : ℕ) (cursor : Option Bytes) (step : Tables × ℕ) : Prop where
  le : m ≤ (L.snapshot d).length
  later : LaterStep allowed d step
  first : cursor = none → step.1 = d.toTables
  rest : ∃ after, CursorAt L library d after cursor ∧
    L.remaining d after = (L.snapshot d).drop m

/-- A page shows the entries of the snapshot from one position to another. -/
def ShowsFrom (L : Listing α β) (t : Tables) (m m' : ℕ) (step : Tables × ℕ)
    (answer : CreativePageResponse β) : Prop :=
  m ≤ m' ∧ List.Forall₂ L.ShownAs (((L.snapshot t).drop m).take (m' - m)) (pageRows (step, answer))

theorem AskedAt.exists_answer (hlibrary : library ≠ 0) (hstable : L.Stable allowed)
    (hd : Reachable allowed d) (hfound : L.found d.toTables = true) {m : ℕ} {step : Tables × ℕ}
    (h : AskedAt L library allowed d m cursor step) :
    ∃ answer m', L.ask library step.1 step.2 cursor = .ok answer ∧
      L.ShowsFrom d m m' step answer ∧
      (answer.nextCursor = none ∧ m' = (L.snapshot d).length ∨
        ∃ c, answer.nextCursor = some c ∧ m < m' ∧ m' < (L.snapshot d).length ∧
          ∀ step', LaterStep allowed d step' → AskedAt L library allowed d m' (some c) step') := by
  obtain ⟨hm, ⟨d', hlater, htables, hsize⟩, hfirst, after, hcursor, hrest⟩ := h
  have hsound := hstable.sound d hd
  rw [htables] at hfirst
  obtain ⟨answer, hask, -, hshown, hlast, hmore⟩ := exists_page hlibrary hsound
    (hstable.sound d' (hlater.reachable hd)) (hstable.grown d d' hd hlater)
    (hstable.found d d' hlater hfound) hcursor hfirst hsize
  rw [← htables] at hask hshown
  have hlength : (L.remaining d after).length = (L.snapshot d).length - m := by
    rw [hrest, List.length_drop]
  rw [hrest] at hshown
  rcases Nat.lt_or_ge step.2 (L.remaining d after).length with hlong | hfew
  · obtain ⟨e, bytes, he, hnext, hat⟩ := hmore hlong
    have hbehind : L.remaining d e.1 = (L.snapshot d).drop (m + step.2) := by
      rw [remaining_after hsound he, hrest, List.drop_drop]
    refine ⟨answer, m + step.2, hask, ⟨by omega, ?_⟩, .inr ⟨bytes, hnext, by omega, by omega,
      fun step' hstep' => ⟨by omega, hstep', fun hnone => (by cases hnone), e.1, hat, hbehind⟩⟩⟩
    rw [Nat.add_sub_cancel_left]
    exact hshown
  · refine ⟨answer, (L.snapshot d).length, hask, ⟨hm, ?_⟩, .inl ⟨hlast hfew, rfl⟩⟩
    rw [List.take_of_length_le (by rw [List.length_drop]; omega)] at hshown
    rw [List.take_of_length_le (by rw [List.length_drop])]
    exact hshown

/-- **Following the cursors ends**, and shows every entry of the snapshot. -/
theorem exists_follow (hlibrary : library ≠ 0) (hstable : L.Stable allowed)
    (hd : Reachable allowed d) (hfound : L.found d.toTables = true)
    (hsize : 1 ≤ pageSize ∧ pageSize ≤ 64) {schedule : List (Database × ℕ)}
    (hschedule : Schedule allowed d schedule) :
    ∃ pages, follow CreativePageResponse.nextCursor (fun s => L.ask library s.1 s.2)
        ((d.toTables, pageSize) :: tablesOf schedule) none = .ok pages ∧
      ((L.entries d).length ≤ schedule.length + 1 → pages.isSome = true) ∧
      ∀ all ∈ pages, List.Forall₂ L.ShownAs (L.snapshot d) (all.flatMap pageRows) := by
  have hfirst : AskedAt L library allowed d 0 none (d.toTables, pageSize) :=
    ⟨Nat.zero_le _, ⟨d, .refl, rfl, hsize⟩, fun _ => rfl, 0, .first,
      remaining_zero (hstable.sound d hd)⟩
  obtain ⟨pages, hfollow, hends, hcovers⟩ := @Common.exists_follow _ _ _ _
    CreativePageResponse.nextCursor (fun s => L.ask library s.1 s.2) (LaterStep allowed d)
    (AskedAt L library allowed d) (L.ShowsFrom d) _
    (fun _ _ _ h => AskedAt.exists_answer hlibrary hstable hd hfound h) _
    (fun s hs => laterStep_of_schedule hschedule hs) _ _ _ hfirst
  refine ⟨pages, hfollow, fun hlength => hends ?_, fun all hall => ?_⟩
  · rw [tablesOf, List.length_map, length_snapshot]
    exact hlength
  · have hshown := (Covers.forall₂ (take_drop_append (L.snapshot d)) (hcovers all hall).2
      fun _ _ _ _ h => h).2
    rwa [List.drop_zero, Nat.sub_zero, List.take_length] at hshown

end Listing

end CreativeQuery

end MengXia.Store
