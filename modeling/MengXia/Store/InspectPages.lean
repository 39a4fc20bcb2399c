import MengXia.Store.MemberWalk
/-!
# The pages of an inspection

What one page of `inspect_asset` shows, in a reachable library. `PageOf`
says how its rows continue the locations of the member it starts with and
where the position it returns stands. The reads fit the select budget and
the loop ends within its fuel, so that a page fails only on positions that
no page has returned.
-/

namespace MengXia.Store

namespace AssetQuery

open Common Txn

variable {allowed : Call → Prop}

/-! ## Locations -/

/-- The key from which the locations of a blob are read, when there is such a
location. -/
def startKey (t : Tables) (digest : Digest) : Option (Id .location) → Option (Option (ℕ ×ₗ ℕ))
  | none => some none
  | some last =>
    (t.locations.find? fun l => l.locationId = last && l.blobDigest = digest).map fun l =>
      some (locationKey l)

/-- The rows of a member, from a given location on. -/
def locationRows (t : Tables) (m : InspectedMember) (start : Option (ℕ ×ₗ ℕ)) :
    List AssetMemberView :=
  (locationsAfter t m.blobDigest start).map fun l => m.view (some l)

/-- The selects of `read_locations`. -/
def locationSelects : Option (Id .location) → ℕ
  | none => 1
  | some _ => 2

theorem one_le_locationSelects (last : Option (Id .location)) : 1 ≤ locationSelects last := by
  cases last with
  | none => exact le_rfl
  | some _ => exact Nat.le_succ 1

theorem locationSelects_le_two (last : Option (Id .location)) : locationSelects last ≤ 2 := by
  cases last with
  | none => exact Nat.le_succ 1
  | some _ => exact le_rfl

theorem locationKey_injective {rows : List LocationRow}
    (h : Distinct LocationRow.locationId rows) : Distinct locationKey rows := by
  refine List.Nodup.of_map (fun k => (ofLex k).2) ?_
  rw [List.map_map]
  have hkeys := List.Nodup.map Id.key_injective h
  rwa [List.map_map] at hkeys

theorem mem_locationsAfter {t : Tables} {digest : Digest} {start : Option (ℕ ×ₗ ℕ)}
    {l : LocationRow} : l ∈ locationsAfter t digest start ↔
      l ∈ t.locations ∧ l.blobDigest = digest ∧ ∀ k ∈ start, k < locationKey l := by
  unfold locationsAfter
  rw [mem_rowsAfter, List.mem_filter, decide_eq_true_eq, and_assoc]

section Locations

variable {d : Database} {digest : Digest} {used : ℕ} {E : AssetStoreError → Prop}

theorem locations_distinct (d : Database) (digest : Digest) :
    Distinct locationKey (d.locations.filter fun l => l.blobDigest = digest) :=
  (locationKey_injective d.consistent.locationKeys).filter _

/-- A location of the blob can be gone on from. -/
theorem startKey_of_mem {l : LocationRow} (hl : l ∈ d.locations) (hdigest : l.blobDigest = digest) :
    startKey d digest (some l.locationId) = some (some (locationKey l)) := by
  have hfind : d.locations.find? (fun r => r.locationId = l.locationId &&
      r.blobDigest = digest) = some l :=
    d.consistent.locationKeys.find?_of hl (by simp [hdigest]) fun r hr => by
      simp only [Bool.and_eq_true, decide_eq_true_eq] at hr
      exact hr.1
  simp only [startKey, hfind, Option.map_some]

theorem startKey_eq_some {last : Id .location} {start : Option (ℕ ×ₗ ℕ)} {t : Tables}
    (h : startKey t digest (some last) = some start) :
    ∃ l ∈ t.locations, l.locationId = last ∧ l.blobDigest = digest ∧
      start = some (locationKey l) := by
  unfold startKey at h
  obtain ⟨l, hl, hkey⟩ := Option.map_eq_some_iff.1 h
  have hfound : l.locationId = last ∧ l.blobDigest = digest := by simpa using List.find?_some hl
  exact ⟨l, List.mem_of_find?_eq_some hl, hfound.1, hfound.2, hkey.symm⟩

theorem wp_readLocations {last : Option (Id .location)} {limit : ℕ}
    (room : used + locationSelects last ≤ maxInspectSelects) {Q : List LocationRow → ℕ → Prop}
    (hQ : ∀ start, startKey d digest last = some start →
      Q ((locationsAfter d digest start).take limit) (used + locationSelects last))
    (hE : startKey d digest last = none → E .validation) :
    wp (readLocations d digest last limit) Q E used := by
  cases last with
  | none =>
    have room' : used + 1 ≤ maxInspectSelects := room
    unfold readLocations
    rw [wp_bind, wp_consume room']
    exact hQ none rfl
  | some last =>
    have room' : used + 1 + 1 ≤ maxInspectSelects := room
    unfold readLocations
    rw [wp_bind, wp_consume (by omega)]
    cases hfind : d.locations.find? fun l => l.locationId = last with
    | none =>
      refine hE ?_
      cases hstart : startKey d digest (some last) with
      | none => rfl
      | some start =>
        obtain ⟨l, hl, hid, -⟩ := startKey_eq_some hstart
        exact absurd (decide_eq_true hid) (List.find?_eq_none.1 hfind l hl)
    | some cursor =>
      have hmem := List.mem_of_find?_eq_some hfind
      have hid : cursor.locationId = last := by simpa using List.find?_some hfind
      simp only [wp_ite, wp_bind]
      refine ⟨fun hdigest => ?_, fun hdigest => ?_⟩
      · refine hE ?_
        cases hstart : startKey d digest (some last) with
        | none => rfl
        | some start =>
          obtain ⟨l, hl, hl', hblob, -⟩ := startKey_eq_some hstart
          rw [d.consistent.locationKeys.eq_of_mem hl hmem (hl'.trans hid.symm)] at hblob
          exact absurd hblob hdigest
      · rw [wp_consume room']
        rw [Decidable.not_not] at hdigest
        exact hQ _ (hid ▸ startKey_of_mem hmem hdigest)

end Locations

/-! ## Rows of one member -/

/-- A position stands at a location of a member, or before its first. -/
structure Inspection.StandsAt (i : Inspection) (t : Tables) (p : InspectAssetPosition)
    (m : InspectedMember) (start : Option (ℕ ×ₗ ℕ)) : Prop where
  libraryId : p.libraryId = i.libraryId
  assetId : p.assetId = i.assetId
  revisionId : p.selectedRevisionId = i.revisionId
  assetRevision : p.assetRevision = i.assetRevision
  member : p.member = some m.key
  blobRevision : p.blobRevision = some m.blobRevision
  start : startKey t m.blobDigest p.lastLocationId = some start

/-- How the rows of a member can fail: the location to go on from is not one
of its blob, or it is said to be the only one and not a managed copy. -/
def Inspection.Fails (i : Inspection) (t : Tables) (m : InspectedMember)
    (phase : InspectMemberPhase) (last : Option (Id .location)) : AssetStoreError → Prop
  | .validation => startKey t m.blobDigest last = none ∨ i.libraryId = 0
  | .storageCorruption => phase = .locationSeen ∧ ∃ start,
    startKey t m.blobDigest last = some start ∧ locationsAfter t m.blobDigest start = []
  | _ => False

theorem foldl_phaseAfter_seen (shown : List LocationRow) :
    shown.foldl phaseAfter .requiredCustodySeen = .requiredCustodySeen := by
  induction shown with
  | nil => rfl
  | cons l shown ih => exact ih

/-- Managed copies meet the required custody. -/
theorem foldl_phaseAfter {shown : List LocationRow} (hne : shown ≠ [])
    (hmanaged : ∀ l ∈ shown, l.isManagedCopy = true) (phase : InspectMemberPhase) :
    shown.foldl phaseAfter phase = .requiredCustodySeen := by
  cases shown with
  | nil => exact absurd rfl hne
  | cons l shown =>
    have hl := hmanaged l List.mem_cons_self
    simp only [LocationRow.isManagedCopy, Bool.and_eq_true, decide_eq_true_eq] at hl
    have hphase : phaseAfter phase l = .requiredCustodySeen := if_pos (Or.inr hl.1)
    rw [List.foldl_cons, hphase]
    exact foldl_phaseAfter_seen shown

section Rows

variable {d : Database} (hd : Reachable allowed d) {i : Inspection} {m : InspectedMember}
  {used : ℕ} {E : AssetStoreError → Prop}

variable {revisionId : Id .assetRevision}

/-- The positions that a page returns are well formed. -/
theorem wp_position {phase : InspectMemberPhase} {last : Option (Id .location)}
    (hasset : i.assetRevision ≠ 0) (hblob : m.blobRevision ≠ 0) (hphase : phase.admits last = true)
    {Q : InspectAssetPosition → ℕ → Prop}
    (hQ : ∀ p, (∀ t start, startKey t m.blobDigest last = some start → i.StandsAt t p m start) →
      Q p used)
    (hE : i.libraryId = 0 → E .validation) :
    wp (Txn.lift (i.position m phase last)) Q E used := by
  unfold Inspection.position InspectAssetPosition.new
  rw [wp_lift]
  split
  · refine ⟨fun p hp => ?_, fun e he => (by cases he)⟩
    cases hp
    exact hQ _ fun t start hstart => ⟨rfl, rfl, rfl, rfl, rfl, rfl, hstart⟩
  · rename_i hinvalid
    refine ⟨fun p hp => (by cases hp), fun e he => ?_⟩
    cases he
    refine hE (Decidable.not_not.1 fun hlibrary => hinvalid ?_)
    have hlibrary : ¬ i.libraryId = 0#128 := hlibrary
    simp [isInspectPosition, hlibrary, hasset, hblob, hphase]

include hd

/-- The content of a member has a location. -/
theorem locationsAfter_ne_nil {key : MemberKey} (hm : memberAt d revisionId key = some m) :
    locationsAfter d m.blobDigest none ≠ [] := by
  obtain ⟨rp, rs, rm, b, -, hb, hdigest, rfl⟩ := memberAt_eq_some hm
  obtain ⟨l, hl, hblob⟩ := hd.blobsStored b hb
  exact List.ne_nil_of_mem
    (mem_locationsAfter.2 ⟨hl, hblob.trans hdigest, fun _ h => by cases h⟩)

theorem blobRevision_ne_zero {key : MemberKey} (hm : memberAt d revisionId key = some m) :
    m.blobRevision ≠ 0 := by
  obtain ⟨rp, rs, rm, b, -, hb, hdigest, rfl⟩ := memberAt_eq_some hm
  exact Nat.pos_iff_ne_zero.1 (hd.custody.blobs b hb).2

/-- **The rows of one member**: all that are left, or as many as fit, with a
position from which the rest is read. -/
theorem wp_memberRows {remaining : ℕ} {phase : InspectMemberPhase} {last : Option (Id .location)}
    (hm : memberAt d revisionId m.key = some m) (hasset : i.assetRevision ≠ 0)
    (hphase : phase.admits last = true) (hremaining : 1 ≤ remaining)
    (room : used + locationSelects last ≤ maxInspectSelects)
    {Q : List AssetMemberView × Option InspectAssetPosition → ℕ → Prop}
    (hall : ∀ start, startKey d m.blobDigest last = some start →
      (locationRows d m start).length ≤ remaining →
        Q (locationRows d m start, none) (used + locationSelects last))
    (hpart : ∀ start rows p next, startKey d m.blobDigest last = some start →
      rows.length = remaining → i.StandsAt d p m (some next) →
      rows ++ locationRows d m (some next) = locationRows d m start →
        Q (rows, some p) (used + locationSelects last))
    (hE : ∀ e, i.Fails d m phase last e → E e) :
    wp (i.memberRows d remaining m phase last) Q E used := by
  unfold Inspection.memberRows
  rw [wp_bind]
  refine wp_readLocations room (fun start hstart => ?_) fun hnone => hE .validation (Or.inl hnone)
  have hdistinct := locations_distinct d m.blobDigest
  have hmanaged : ∀ l ∈ locationsAfter d m.blobDigest start, l.isManagedCopy = true :=
    fun l hl => (hd.custody.locations l (mem_locationsAfter.1 hl).1).1
  have hempty : ¬ ((locationsAfter d m.blobDigest start).take (remaining + 1) = [] ∧
      last = none) := by
    rintro ⟨hnil, rfl⟩
    cases hstart
    rcases List.take_eq_nil_iff.1 hnil with h | h
    · cases h
    · exact locationsAfter_ne_nil hd hm h
  have htake : ((locationsAfter d m.blobDigest start).take (remaining + 1)).take remaining =
      (locationsAfter d m.blobDigest start).take remaining := by
    rw [List.take_take, Nat.min_eq_left (Nat.le_succ remaining)]
  simp only [hempty, if_false, htake, wp_ite, wp_bind]
  rcases @page_cases _ _ _ _ _ start hdistinct remaining hremaining with
    ⟨hle, hfull⟩ | ⟨hlt, l, hlast, hsplit⟩
  · have hle : (locationsAfter d m.blobDigest start).length ≤ remaining := hle
    have hfull : (locationsAfter d m.blobDigest start).take remaining =
      locationsAfter d m.blobDigest start := hfull
    have hshort : ¬ remaining <
        ((locationsAfter d m.blobDigest start).take (remaining + 1)).length := by
      rw [List.length_take]
      omega
    refine ⟨fun h => absurd h hshort, fun _ => ⟨fun hmissing => ?_, fun _ => ?_⟩⟩
    · refine hE .storageCorruption ?_
      rw [hfull] at hmissing
      by_cases hnil : locationsAfter d m.blobDigest start = []
      · refine ⟨?_, start, hstart, hnil⟩
        rw [hnil] at hmissing
        cases phase with
        | noLocationSeen =>
          cases last with
          | none =>
            cases hstart
            exact absurd hnil (locationsAfter_ne_nil hd hm)
          | some _ => cases hphase
        | locationSeen => rfl
        | requiredCustodySeen => exact absurd rfl hmissing.2
      · exact absurd (foldl_phaseAfter hnil hmanaged phase) hmissing.2
    · rw [hfull]
      refine hall start hstart ?_
      unfold locationRows
      rwa [List.length_map]
  · have hlt : remaining < (locationsAfter d m.blobDigest start).length := hlt
    have hlast : ((locationsAfter d m.blobDigest start).take remaining).getLast? =
      some l := hlast
    have hlong : remaining <
        ((locationsAfter d m.blobDigest start).take (remaining + 1)).length := by
      rw [List.length_take]
      omega
    refine ⟨fun _ => ?_, fun h => absurd hlong h⟩
    have hshown : l ∈ (locationsAfter d m.blobDigest start).take remaining :=
      List.mem_of_getLast? hlast
    obtain ⟨hl, hdigest, -⟩ := mem_locationsAfter.1 (List.mem_of_mem_take hshown)
    have hrequired := foldl_phaseAfter (List.ne_nil_of_mem hshown)
      (fun l hl => hmanaged l (List.mem_of_mem_take hl)) phase
    simp only [hlast, hrequired, Option.map_some, Option.some_or]
    refine wp_position hasset (blobRevision_ne_zero hd hm) rfl (fun p hp => ?_) fun hlibrary =>
      hE .validation (Or.inr hlibrary)
    refine hpart start _ p (locationKey l) hstart ?_ (hp _ _ (startKey_of_mem hl hdigest)) ?_
    · rw [List.length_map, List.length_take]
      omega
    · unfold locationRows
      rw [← List.map_append]
      exact congrArg _ hsplit.symm

/-! ## One page -/

end Rows

/-- The rows of a page that starts with the locations of a member from `start`
on, and the position it returns. -/
inductive Inspection.PageOf (i : Inspection) (t : Tables) : InspectedMember →
    Option (ℕ ×ₗ ℕ) → List AssetMemberView → Option InspectAssetPosition → Prop where
  /-- The page ends with the last member. -/
  | last {m start} (done : keysAfter t i.revisionId m.key = []) :
      PageOf i t m start (locationRows t m start) none
  /-- The page ends within the locations of the member. -/
  | within {m start rows p next} (stands : i.StandsAt t p m (some next))
      (rest : rows ++ locationRows t m (some next) = locationRows t m start) :
      PageOf i t m start rows (some p)
  /-- The page ends before another member. -/
  | before {m start m' p} (following : memberAt t i.revisionId m'.key = some m')
      (keys : keysAfter t i.revisionId m.key = m'.key :: keysAfter t i.revisionId m'.key)
      (stands : i.StandsAt t p m' none) : PageOf i t m start (locationRows t m start) (some p)
  /-- The page goes on with another member. -/
  | further {m start m' rows next} (following : memberAt t i.revisionId m'.key = some m')
      (keys : keysAfter t i.revisionId m.key = m'.key :: keysAfter t i.revisionId m'.key)
      (page : PageOf i t m' none rows next) :
      PageOf i t m start (locationRows t m start ++ rows) next

/-- What the loop answers with: a page of bounded size, and more to come only
after some rows. -/
structure Inspection.Shows (i : Inspection) (t : Tables) (m : InspectedMember)
    (last : Option (Id .location)) (remaining : ℕ)
    (page : List AssetMemberView × Option InspectAssetPosition) : Prop where
  bounded : page.1.length ≤ remaining
  nonempty : page.2.isSome = true → page.1 ≠ []
  page : ∃ start, startKey t m.blobDigest last = some start ∧ i.PageOf t m start page.1 page.2

/-- **The loop shows one page.** It stays within its fuel and its selects. -/
theorem wp_memberLoop {d : Database} (hd : Reachable allowed d) {i : Inspection}
    (hasset : i.assetRevision ≠ 0) {E : AssetStoreError → Prop} {fuel : ℕ} :
    ∀ {remaining used : ℕ} {m : InspectedMember} {phase : InspectMemberPhase}
      {last : Option (Id .location)}, memberAt d i.revisionId m.key = some m →
      phase.admits last = true → 1 ≤ remaining → remaining + locationSelects last ≤ fuel + 1 →
      used + locationSelects last + 7 * fuel ≤ maxInspectSelects + 1 →
      (∀ e, i.Fails d m phase last e → E e) →
      wp (i.memberLoop d fuel remaining m phase last)
        (fun page _ => i.Shows d m last remaining page) E used := by
  have hbudget : maxInspectSelects = 512 := rfl
  induction fuel with
  | zero =>
    intro remaining used m phase last hm hphase hremaining hfuel
    cases last <;> simp only [locationSelects] at hfuel <;> omega
  | succ fuel ih =>
    intro remaining used m phase last hm hphase hremaining hfuel hroom hE
    have hselects := one_le_locationSelects last
    unfold Inspection.memberLoop
    rw [wp_bind]
    refine wp_memberRows hd hm hasset hphase hremaining (by omega)
      (fun start hstart hlength => ?_) (fun start rows p next hstart hlength hstands hrest => ?_) hE
    · simp only [wp_bind]
      refine wp_nextMember hd (memberAt_isSome_iff.1 ⟨m, hm⟩) (by omega)
        (fun hdone _ _ => ?_) fun m' hm' hkeys used' hused' => ?_
      · exact ⟨hlength, fun h => (by cases h), start, hstart, .last hdone⟩
      · simp only [wp_ite, wp_bind]
        refine ⟨fun hfull => ?_, fun hmore => ?_⟩
        · refine wp_position hasset (blobRevision_ne_zero hd hm') rfl (fun p hp => ?_)
            fun hlibrary => hE .validation (Or.inr hlibrary)
          refine ⟨hlength, fun _ hnil => ?_, start, hstart, .before hm' hkeys (hp _ _ rfl)⟩
          have hzero : (locationRows d m start).length = 0 := congrArg List.length hnil
          omega
        · -- every turn but one that goes on within a member shows a row
          have hshown : remaining - (locationRows d m start).length + 1 ≤ fuel + 1 := by
            cases last with
            | some _ =>
              have hfuel : remaining + 2 ≤ fuel + 1 + 1 := hfuel
              omega
            | none =>
              have hfuel : remaining + 1 ≤ fuel + 1 + 1 := hfuel
              cases hstart
              have hne : (locationRows d m none).length ≠ 0 := by
                unfold locationRows
                rw [List.length_map]
                exact fun h => locationsAfter_ne_nil hd hm (List.length_eq_zero_iff.1 h)
              omega
          have hroom' : used' + 1 + 7 * fuel ≤ maxInspectSelects + 1 := by omega
          refine wp_mono (ih hm' rfl (by omega) hshown hroom' ?_) (fun page _ h => ?_)
            fun _ h => h
          · intro e he
            cases e with
            | validation => exact hE _ (Or.inr (he.resolve_left fun h => by cases h))
            | storageCorruption =>
              obtain ⟨hphase, -⟩ := he
              cases hphase
            | _ => exact he.elim
          · obtain ⟨start', hstart', hpage⟩ := h.page
            cases hstart'
            have hbounded := h.bounded
            refine ⟨?_, fun hnext hnil => ?_, start, hstart, .further hm' hkeys hpage⟩
            · rw [List.length_append]
              omega
            · exact h.nonempty hnext (List.append_eq_nil_iff.1 hnil).2
    · refine ⟨hlength.le, fun _ hnil => ?_, start, hstart, .within hstands hrest⟩
      have hzero : rows.length = 0 := congrArg List.length hnil
      omega

end AssetQuery

end MengXia.Store
