
import MengXia.Store.InspectPages
/-!
# One inspection

`inspect_asset` in a reachable library: it answers with a page of the
revision (`Inspected`), or it fails for one of the reasons that
`InspectFails` lists.
-/

namespace MengXia.Store

namespace AssetQuery

open Common Txn

variable {allowed : Call → Prop}

variable {t : Tables} {libraryId : BitVec 128} {request : InspectAssetQuery}

/-! ## The asset -/

section Asset

variable {d : Database} (hd : Reachable allowed d) {used : ℕ} {E : AssetStoreError → Prop}

variable {e : EventRow}

/-- The registrations of an asset, in the order of `registered_event`. -/
def registrationsOf (t : Tables) (assetId : Id .asset) : List EventRow :=
  rowsAfter EventRow.commitSequence none (t.domainEvents.filter fun e =>
    e.aggregateKind = .asset && e.aggregateId = .uuid assetId.uuid &&
      e.eventType = .assetRegistered)

theorem mem_registrationsOf {assetId : Id .asset} :
    e ∈ registrationsOf t assetId ↔ e ∈ t.domainEvents ∧ e.aggregateKind = .asset ∧
      e.aggregateId = .uuid assetId.uuid ∧ e.eventType = .assetRegistered := by
  simp [registrationsOf, and_assoc]

theorem registeredEvent_of_nil {assetId : Id .asset} (h : registrationsOf t assetId = []) :
    registeredEvent t assetId = .error .notFound := by
  unfold registrationsOf at h
  simp only [registeredEvent, h, List.take_nil]

theorem registeredEvent_of_singleton {assetId : Id .asset} (h : registrationsOf t assetId = [e]) :
    registeredEvent t assetId = .ok e := by
  unfold registrationsOf at h
  simp only [registeredEvent, h, List.take_succ_cons, List.take_nil]

include hd

/-- An asset has one registration. -/
theorem registrationsOf_asset {a : AssetRow} (ha : a ∈ d.assets) :
    ∃ e, registrationsOf d a.assetId = [e] ∧ RegistrationOf d e a := by
  obtain ⟨-, e, he, hreg, haggregate⟩ := hd.assetRegistry.assets a ha
  obtain ⟨a', ha', hregistered⟩ := hd.assetRegistry.events e he hreg
  have haa : a' = a := by
    have huuid : a'.assetId.uuid = a.assetId.uuid :=
      AggregateId.uuid.inj (hregistered.id.symm.trans haggregate)
    exact d.consistent.assetKeys.eq_of_mem ha' ha (Id.uuid_injective huuid)
  rw [haa] at hregistered
  refine ⟨e, ?_, hregistered⟩
  have hmem : e ∈ registrationsOf d a.assetId :=
    mem_registrationsOf.2 ⟨he, hregistered.kind, haggregate, of_decide_eq_true hreg⟩
  have hnodup : (registrationsOf d a.assetId).Nodup :=
    (rowsAfter_pairwise (d.consistent.eventSequences.filter _)).imp fun h heq => by
      rw [heq] at h
      exact absurd h (lt_irrefl _)
  have hone : ∀ x ∈ registrationsOf d a.assetId, x = e := by
    intro x hx
    obtain ⟨hx, -, hid, htype⟩ := mem_registrationsOf.1 hx
    exact hd.assetRegistry.once.eq_of_mem (List.mem_filter.2 ⟨hx, decide_eq_true htype⟩)
      (List.mem_filter.2 ⟨he, hreg⟩) (hid.trans haggregate.symm)
  exact List.perm_singleton.1 ((List.perm_ext_iff_of_nodup hnodup (List.nodup_singleton e)).2
    fun x => ⟨fun hx => List.mem_singleton.2 (hone x hx),
      fun hx => List.mem_singleton.1 hx ▸ hmem⟩)

/-- A registered asset is read as its row. -/
theorem readRegisteredAsset_eq {a : AssetRow} (ha : a ∈ d.assets)
    (he : e ∈ registrationsOf d a.assetId) (h : RegistrationOf d e a) :
    readRegisteredAsset d e = .ok (summary e a) := by
  obtain ⟨-, hkind, hid, htype⟩ := mem_registrationsOf.1 he
  have hcommand : d.commands.any (isRegisteringCommand e.commandId a.assetId.uuid) = true :=
    List.any_eq_true.2 h.command
  have hfind : d.assets.find? (fun x => x.assetId.uuid = a.assetId.uuid) = some a :=
    d.consistent.assetKeys.find?_of ha (by simp) fun r hr =>
      Id.uuid_injective (of_decide_eq_true hr)
  have hrevision : a.revision ≠ 0 :=
    Nat.pos_iff_ne_zero.1 (hd.assetRegistry.assets a ha).1
  simp [readRegisteredAsset, hkind, hid, htype, h.revision, hcommand, hfind, h.created, hrevision]

theorem wp_readAsset {assetId : Id .asset} (room : used + 3 ≤ maxInspectSelects)
    {Q : AssetSummaryView → ℕ → Prop}
    (hQ : ∀ a e, a ∈ d.assets → a.assetId = assetId → registrationsOf d assetId = [e] →
      Q (summary e a) (used + 3))
    (hE : (∀ a ∈ d.assets, a.assetId ≠ assetId) → E .notFound) :
    wp (readAsset d assetId) Q E used := by
  unfold readAsset
  rw [wp_bind, wp_consume (by omega)]
  by_cases hasset : ∃ a ∈ d.assets, a.assetId = assetId
  · obtain ⟨a, ha, rfl⟩ := hasset
    obtain ⟨e, hone, hregistered⟩ := registrationsOf_asset hd ha
    have he : e ∈ registrationsOf d a.assetId := by
      rw [hone]
      exact List.mem_singleton_self e
    simp only [registeredEvent_of_singleton hone, wp_bind]
    rw [wp_consume (by omega), readRegisteredAsset_eq hd ha he hregistered, wp_lift]
    refine ⟨fun x hx => ?_, fun e he => by cases he⟩
    cases hx
    exact hQ a e ha rfl hone
  · have hnone : ∀ a ∈ d.assets, a.assetId ≠ assetId := fun a ha hid => hasset ⟨a, ha, hid⟩
    have hempty : registrationsOf d assetId = [] := by
      refine List.eq_nil_iff_forall_not_mem.2 fun e he => ?_
      obtain ⟨he, -, hid, htype⟩ := mem_registrationsOf.1 he
      obtain ⟨a, ha, hregistered⟩ := hd.assetRegistry.events e he (decide_eq_true htype)
      exact hnone a ha (Id.uuid_injective
        (AggregateId.uuid.inj (hregistered.id.symm.trans hid)))
    have hany : d.assets.any (fun a => decide (a.assetId = assetId)) = false := by
      simpa using hnone
    simp only [registeredEvent_of_nil hempty, wp_bind]
    rw [wp_consume (by omega), hany]
    exact hE hnone

end Asset

/-! ## The revision -/

/-- The revision that a request selects, and its position in it. -/
def selection (libraryId : BitVec 128) (t : Tables) (request : InspectAssetQuery)
    (assetRevision : RevisionNo) :
    AssetResult (Id .assetRevision × Option InspectAssetPosition) :=
  match request.start, request.selectedRevisionId with
  | .first, some selected => .ok (selected, none)
  | .first, none =>
    (newestRevision t request.assetId).elim (.error .storageCorruption) fun r =>
      .ok (r.assetRevisionId, none)
  | .continue_ position, _ =>
    if position.libraryId ≠ libraryId ∨ position.assetId ≠ request.assetId then .error .validation
    else if position.assetRevision ≠ assetRevision then .error .conflict
    else .ok (position.selectedRevisionId, some position)

section Revision

variable {d : Database} {used : ℕ} {E : AssetStoreError → Prop} {assetId : Id .asset}

theorem wp_selectRevision {asset : AssetSummaryView} (room : used + 1 ≤ maxInspectSelects)
    {Q : Id .assetRevision × Option InspectAssetPosition → ℕ → Prop}
    (hQ : ∀ selected, selection libraryId d request asset.revision = .ok selected →
      ∀ used' ≤ used + 1, Q selected used')
    (hE : ∀ e, selection libraryId d request asset.revision = .error e → E e) :
    wp (selectRevision libraryId d request asset) Q E used := by
  unfold selection at hQ hE
  unfold selectRevision
  cases hstart : request.start with
  | first =>
    cases hselected : request.selectedRevisionId with
    | some selected => exact hQ _ (by simp only [hstart, hselected]) _ (by omega)
    | none =>
      simp only [hstart, hselected] at hQ hE
      rw [wp_bind, wp_consume room]
      cases hnewest : newestRevision d request.assetId with
      | none => exact hE _ (by rw [hnewest]; rfl)
      | some r => exact hQ _ (by rw [hnewest]; rfl) _ le_rfl
  | continue_ position =>
    simp only [hstart] at hQ hE
    simp only [wp_ite]
    refine ⟨fun hother => ?_, fun hsame => ⟨fun hchanged => ?_, fun hcurrent => ?_⟩⟩
    · exact hE _ (if_pos hother)
    · exact hE _ (by rw [if_neg hsame, if_pos hchanged])
    · exact hQ _ (by rw [if_neg hsame, if_neg hcurrent]) _ (by omega)

theorem wp_readRevision {revisionId : Id .assetRevision} (room : used + 1 ≤ maxInspectSelects)
    {Q : AssetRevisionRow → ℕ → Prop}
    (hQ : ∀ ar ∈ d.assetRevisions, ar.assetRevisionId = revisionId → ar.assetId = assetId →
      Q ar (used + 1))
    (hE : (∀ ar ∈ d.assetRevisions, ar.assetRevisionId = revisionId → ar.assetId ≠ assetId) →
      E .notFound) :
    wp (readRevision d assetId revisionId) Q E used := by
  unfold readRevision
  rw [wp_bind, wp_consume room]
  cases hfind : d.assetRevisions.find? fun r =>
      r.assetRevisionId = revisionId && r.assetId = assetId with
  | none =>
    refine hE fun ar har hid hasset => ?_
    have hnot := List.find?_eq_none.1 hfind ar har
    simp [hid, hasset] at hnot
  | some ar =>
    have har := List.mem_of_find?_eq_some hfind
    have hfound : ar.assetRevisionId = revisionId ∧ ar.assetId = assetId := by
      simpa using List.find?_some hfind
    have hsequence : ¬ ar.sequence = 0 :=
      Nat.pos_iff_ne_zero.1 (d.consistent.revisionBounds ar har).1
    simp only [hsequence, if_false]
    exact hQ ar har hfound.1 hfound.2

variable (hd : Reachable allowed d) {ar : AssetRevisionRow} (har : ar ∈ d.assetRevisions)

include hd har

theorem wp_readParents (howner : ar.assetId = assetId) (room : used + 1 ≤ maxInspectSelects)
    {Q : List (Id .assetRevision) → ℕ → Prop}
    (hQ : ∀ parents, parents.length ≤ 64 → Q parents (used + 1)) :
    wp (readParents d assetId ar.assetRevisionId) Q E used := by
  subst howner
  have hrows : d.parents.filter (fun r => r.assetId = ar.assetId &&
        r.childRevisionId = ar.assetRevisionId) =
      d.parents.filter fun r => r.childRevisionId = ar.assetRevisionId := by
    refine List.filter_congr fun r hr => ?_
    obtain ⟨ar', har', hkey⟩ := d.consistent.parentChildren r hr
    obtain ⟨hasset, hchild⟩ := Prod.mk.inj hkey
    by_cases hid : r.childRevisionId = ar.assetRevisionId
    · rw [d.consistent.revisionKeys.eq_of_mem har' har (hchild.trans hid)] at hasset
      simp [hid, hasset]
    · simp [hid]
  obtain ⟨hlength, hnumbered⟩ := hd.assetGraph.parents ar har
  have hsorted : rowsAfter ParentRow.ordinal none
      (d.parents.filter fun r => r.childRevisionId = ar.assetRevisionId) =
      d.parents.filter fun r => r.childRevisionId = ar.assetRevisionId := by
    refine rowsAfter_none_of_pairwise (List.pairwise_map.1 ?_)
    rw [hnumbered]
    exact List.pairwise_lt_range
  unfold readParents
  rw [wp_bind, wp_consume room, hrows, hsorted, List.take_of_length_le (by omega)]
  rw [if_neg]
  · exact hQ _ (by rwa [List.length_map])
  · rintro (hother | hlong)
    · exact hother hnumbered
    · omega

theorem wp_validateRepresentations (room : used + 1 ≤ maxInspectSelects) {Q : Unit → ℕ → Prop}
    (hQ : Q () (used + 1)) :
    wp (validateRepresentations d ar.assetRevisionId) Q E used := by
  obtain ⟨hne, hbound⟩ := hd.assetGraph.representations ar har
  have hlength : (representationsAfter d ar.assetRevisionId none).length =
      (d.representations.filter fun r => r.assetRevisionId = ar.assetRevisionId).length :=
    length_rowsAfter_none
  unfold validateRepresentations
  rw [wp_bind, wp_consume room]
  have htake : (representationsAfter d ar.assetRevisionId none).take 65 =
      representationsAfter d ar.assetRevisionId none :=
    List.take_of_length_le (by omega)
  rw [htake, if_neg]
  · exact hQ
  · rintro (hnil | hlong)
    · rw [hnil, List.length_nil] at hlength
      omega
    · omega

end Revision

/-! ## The first member of a page -/

/-- Where a page starts: with the first member, or with the one of its
position. -/
def StartsAt (t : Tables) (revisionId : Id .assetRevision)
    (position : Option InspectAssetPosition) (m : InspectedMember) : Prop :=
  match position.bind InspectAssetPosition.member with
  | some key => m.key = key
  | none => memberKeys t revisionId = m.key :: keysAfter t revisionId m.key

theorem wp_startMember {d : Database} (hd : Reachable allowed d) {ar : AssetRevisionRow}
    (har : ar ∈ d.assetRevisions) {position : Option InspectAssetPosition} {used : ℕ}
    (room : used + 4 ≤ maxInspectSelects) {E : AssetStoreError → Prop}
    {Q : InspectedMember → ℕ → Prop}
    (hQ : ∀ m, memberAt d ar.assetRevisionId m.key = some m →
      StartsAt d ar.assetRevisionId position m → ∀ used' ≤ used + 4, Q m used')
    (hresources : ∀ key, position.bind InspectAssetPosition.member = some key →
      resourcesAfter d key.representationId none = [] → E .storageCorruption)
    (hmember : ∀ key, position.bind InspectAssetPosition.member = some key →
      memberAt d ar.assetRevisionId key = none → E .validation) :
    wp (startMember d ar.assetRevisionId position) Q E used := by
  unfold StartsAt at hQ
  unfold startMember
  cases hkey : position.bind InspectAssetPosition.member with
  | some key =>
    simp only [hkey] at hQ
    simp only [wp_bind]
    refine wp_firstResource hd (by omega) (fun _ _ _ => ?_) (hresources key hkey)
    refine wp_readMember hd (by omega) (fun m hm => ?_) (hmember key hkey)
    have hm' := memberAt_key hm
    exact hQ m (hm'.symm ▸ hm) hm' _ (by omega)
  | none =>
    simp only [hkey] at hQ
    simp only [wp_bind]
    exact wp_firstMember hd har rfl (by omega) fun m hm hfirst => hQ m hm hfirst _ (by omega)

/-! ## The whole query -/

/-- The asset and the revision that a request reads in its library. -/
structure Selects (libraryId : BitVec 128) (t : Tables) (request : InspectAssetQuery)
    (a : AssetRow) (ar : AssetRevisionRow) (position : Option InspectAssetPosition) : Prop where
  asset : a ∈ t.assets
  assetId : a.assetId = request.assetId
  selection : selection libraryId t request a.revision = .ok (ar.assetRevisionId, position)
  revision : ar ∈ t.assetRevisions
  owner : ar.assetId = request.assetId

/-- What the pages of the inspection have in common. -/
def inspectionOf (libraryId : BitVec 128) (a : AssetRow) (ar : AssetRevisionRow) : Inspection :=
  ⟨libraryId, a.assetId, ar.assetRevisionId, a.revision, ar.custody⟩

/-- The phase and the last location that a page goes on from. -/
def phaseOf (position : Option InspectAssetPosition) : InspectMemberPhase :=
  (position.bind InspectAssetPosition.phase).getD .noLocationSeen

def lastOf (position : Option InspectAssetPosition) : Option (Id .location) :=
  position.bind InspectAssetPosition.lastLocationId

/-- How an inspection can fail. -/
inductive InspectFails (libraryId : BitVec 128) (t : Tables) (request : InspectAssetQuery) :
    AssetStoreError → Prop where
  /-- There is no such asset. -/
  | noAsset (absent : ∀ a ∈ t.assets, a.assetId ≠ request.assetId) :
      InspectFails libraryId t request .notFound
  /-- The request does not fit the library or the asset as it is now. -/
  | selection {a e} (asset : a ∈ t.assets) (assetId : a.assetId = request.assetId)
      (failed : selection libraryId t request a.revision = .error e) :
      InspectFails libraryId t request e
  /-- The asset has no such revision. -/
  | noRevision {a selected} (asset : a ∈ t.assets) (assetId : a.assetId = request.assetId)
      (selection : selection libraryId t request a.revision = .ok selected)
      (absent : ∀ ar ∈ t.assetRevisions, ar.assetRevisionId = selected.1 →
        ar.assetId ≠ request.assetId) : InspectFails libraryId t request .notFound
  /-- The position is in a representation that has no resources. -/
  | noResources {a ar position key} (selects : Selects libraryId t request a ar (some position))
      (member : position.member = some key)
      (empty : resourcesAfter t key.representationId none = []) :
      InspectFails libraryId t request .storageCorruption
  /-- The position is at no member. -/
  | noMember {a ar position key} (selects : Selects libraryId t request a ar (some position))
      (member : position.member = some key)
      (absent : memberAt t ar.assetRevisionId key = none) :
      InspectFails libraryId t request .validation
  /-- The blob of the member has another revision by now. -/
  | changed {a ar position m} (selects : Selects libraryId t request a ar (some position))
      (member : memberAt t ar.assetRevisionId m.key = some m)
      (starts : StartsAt t ar.assetRevisionId (some position) m)
      (changed : position.blobRevision ≠ some m.blobRevision) :
      InspectFails libraryId t request .conflict
  /-- The rows of the first member cannot be shown. -/
  | rows {a ar position m e} (selects : Selects libraryId t request a ar position)
      (member : memberAt t ar.assetRevisionId m.key = some m)
      (starts : StartsAt t ar.assetRevisionId position m)
      (unchanged : ∀ p ∈ position, p.blobRevision = some m.blobRevision)
      (failed : (inspectionOf libraryId a ar).Fails t m (phaseOf position) (lastOf position) e) :
      InspectFails libraryId t request e

/-- The page that an inspection answers with. -/
structure Inspected (libraryId : BitVec 128) (t : Tables) (request : InspectAssetQuery)
    (page : AssetMemberPage) (a : AssetRow) (ar : AssetRevisionRow)
    (position : Option InspectAssetPosition) (m : InspectedMember) : Prop
    extends Selects libraryId t request a ar position where
  registration : ∃ e, registrationsOf t a.assetId = [e] ∧ page.asset = summary e a
  revisionId : page.selectedRevisionId = ar.assetRevisionId
  member : memberAt t ar.assetRevisionId m.key = some m
  starts : StartsAt t ar.assetRevisionId position m
  unchanged : ∀ p ∈ position, p.blobRevision = some m.blobRevision
  shows : (inspectionOf libraryId a ar).Shows t m (lastOf position) request.pageSize
    (page.members, page.next)

/-- A position at a member has the phase of its last location. -/
theorem admits_of_blobRevision {position : Option InspectAssetPosition} {revision : RevisionNo}
    (h : ∀ p ∈ position, p.blobRevision = some revision) :
    (phaseOf position).admits (lastOf position) = true := by
  cases position with
  | none => rfl
  | some p =>
    have hblob := h p rfl
    have hvalid := p.valid
    simp only [isInspectPosition, hblob, Option.isNone_some, Bool.and_false, Bool.false_and,
      Bool.false_or, Bool.and_eq_true] at hvalid
    obtain ⟨phase, hphase, hadmits⟩ := (Option.any_eq_true _ _).1 hvalid.2.2
    simpa [phaseOf, lastOf, hphase] using hadmits

/-- The selects one inspection needs at most: those of its head, and seven for
each turn of the loop. -/
def inspectSelects (pageSize : ℕ) : ℕ := 12 + 7 * (pageSize + 1)

/-- **An inspection shows a page or fails for a stated reason**, from any count
that leaves it its selects. -/
theorem wp_inspectAssetRead_from {d : Database} (hd : Reachable allowed d)
    (libraryId : BitVec 128) (request : InspectAssetQuery) {used₀ : ℕ}
    (room : used₀ + inspectSelects request.pageSize ≤ maxInspectSelects) :
    wp (inspectAssetRead libraryId d request)
      (fun page _ => ∃ a ar position m,
        Inspected libraryId d request page a ar position m)
      (InspectFails libraryId d request) used₀ := by
  have hbudget : maxInspectSelects = 512 := rfl
  unfold inspectSelects at room
  obtain ⟨hpositive, hbounded⟩ := request.bounded
  unfold inspectAssetRead
  simp only [wp_bind]
  refine wp_readAsset hd (by omega) (fun a e ha hid hone => ?_) .noAsset
  refine wp_selectRevision (by omega) (fun selected hselected used hused => ?_)
    fun e he => .selection ha hid he
  obtain ⟨revisionId, position⟩ := selected
  refine wp_readRevision (by omega) (fun ar har hrevision howner => ?_)
    fun habsent => .noRevision ha hid hselected habsent
  have hrevision : ar.assetRevisionId = revisionId := hrevision
  subst hrevision
  have hselects : Selects libraryId d request a ar position :=
    ⟨ha, hid, hselected, har, howner⟩
  refine wp_readParents hd har howner (by omega) fun parents hparents => ?_
  refine wp_validateRepresentations hd har (by omega) ?_
  refine wp_startMember hd har (by omega) (fun m hm hstarts used' hused' => ?_) ?_ ?_
  · simp only [wp_ite, wp_bind]
    refine ⟨fun hchanged => ?_, fun hsame => ?_⟩
    · obtain ⟨p, rfl, hp⟩ := (Option.any_eq_true _ _).1 hchanged
      exact .changed hselects hm hstarts (of_decide_eq_true hp)
    · have hunchanged : ∀ p ∈ position, p.blobRevision = some m.blobRevision := by
        intro p hp
        rw [Option.mem_def.1 hp] at hsame
        simpa using hsame
      have hrevision : (inspectionOf libraryId a ar).assetRevision ≠ 0 :=
        Nat.pos_iff_ne_zero.1 (hd.assetRegistry.assets a ha).1
      have hselects' := locationSelects_le_two (lastOf position)
      rw [← hid]
      have hloop := @wp_memberLoop _ d hd (inspectionOf libraryId a ar) hrevision
        (InspectFails libraryId d request) (request.pageSize + 1) request.pageSize used' m
        (phaseOf position) (lastOf position) hm (admits_of_blobRevision hunchanged) hpositive
        (by omega) (by omega) fun e he => .rows hselects hm hstarts hunchanged he
      refine wp_mono hloop (fun page _ hshows => ?_) fun _ h => h
      have hbound := hshows.bounded
      refine ⟨fun hempty => absurd hempty.1 (hshows.nonempty hempty.2), fun _ => ?_⟩
      rw [AssetMemberPage.fromStore, if_neg, wp_lift]
      · refine ⟨fun result hresult => ?_, fun e he => by cases he⟩
        cases hresult
        exact ⟨a, ar, position, m, hselects, ⟨e, hid ▸ hone, rfl⟩, rfl, hm, hstarts, hunchanged,
          hshows⟩
      · have hsequence := (d.consistent.revisionBounds ar har).1
        rintro (hzero | hlong | hlong)
        · exact Nat.pos_iff_ne_zero.1 hsequence hzero
        · exact absurd hparents (Nat.not_le.2 hlong)
        · exact absurd (hbound.trans hbounded) (Nat.not_le.2 hlong)
  · intro key hkey hempty
    obtain ⟨p, rfl, hmember⟩ := Option.bind_eq_some_iff.1 hkey
    exact .noResources hselects hmember hempty
  · intro key hkey habsent
    obtain ⟨p, rfl, hmember⟩ := Option.bind_eq_some_iff.1 hkey
    exact .noMember hselects hmember habsent

/-- The budget suffices for the largest page. -/
theorem inspectSelects_le (request : InspectAssetQuery) :
    0 + inspectSelects request.pageSize ≤ maxInspectSelects := by
  have hbounded := request.bounded.2
  unfold inspectSelects maxInspectSelects
  omega

/-- **The two ends of an inspection.** -/
theorem inspectAsset_cases {d : Database} (hd : Reachable allowed d) (libraryId : BitVec 128)
    (request : InspectAssetQuery) :
    (∃ page, inspectAsset libraryId d request = .ok page ∧
        ∃ a ar position m, Inspected libraryId d request page a ar position m) ∨
      ∃ e, inspectAsset libraryId d request = .error e ∧
        InspectFails libraryId d request e := by
  rcases wp_run (wp_inspectAssetRead_from hd libraryId request (inspectSelects_le request)) with
    ⟨page, hpage, h⟩ | ⟨e, he, h, -⟩
  · exact Or.inl ⟨page, hpage, h⟩
  · exact Or.inr ⟨e, he, h⟩

theorem inspected_of_ok {d : Database} (hd : Reachable allowed d) {page : AssetMemberPage}
    (h : inspectAsset libraryId d request = .ok page) :
    ∃ a ar position m, Inspected libraryId d request page a ar position m := by
  rcases inspectAsset_cases hd libraryId request with ⟨page', hpage, hinspected⟩ | ⟨e, he, -⟩
  · rw [hpage] at h
    cases h
    exact hinspected
  · rw [he] at h
    cases h

/-! ## The budget -/

/-- None of the reasons is a lack of selects. -/
theorem InspectFails.ne_internal {e : AssetStoreError} (h : InspectFails libraryId t request e) :
    e ≠ .internal := by
  rintro rfl
  cases h with
  | selection _ _ failed =>
    unfold AssetQuery.selection at failed
    split at failed
    · cases failed
    · cases hnewest : newestRevision t request.assetId <;> rw [hnewest] at failed <;> cases failed
    · repeat' split at failed
      all_goals cases failed
  | rows _ _ _ _ failed => exact failed

/-- **One inspection never runs out of its selects.** Whatever graph the store
holds, wherever the page starts and however large it is, the budget of 512
suffices; a page of `n` rows leaves all but `12 + 7 * (n + 1)` of it. -/
theorem inspection_within_budget {d : Database} (hd : Reachable allowed d)
    (libraryId : BitVec 128) (request : InspectAssetQuery) :
    inspectAsset libraryId d.toTables request ≠ .error .internal ∧
      ∀ used, used + inspectSelects request.pageSize ≤ maxInspectSelects →
        ((inspectAssetRead libraryId d.toTables request).run used).1 ≠ .error .internal := by
  have hfrom : ∀ used, used + inspectSelects request.pageSize ≤ maxInspectSelects →
      ((inspectAssetRead libraryId d.toTables request).run used).1 ≠ .error .internal := by
    intro used room hinternal
    rcases wp_run (wp_inspectAssetRead_from hd libraryId request room) with
      ⟨page, hpage, -⟩ | ⟨e, he, hfails, -⟩
    · rw [hpage] at hinternal
      cases hinternal
    · rw [he] at hinternal
      cases hinternal
      exact hfails.ne_internal rfl
  exact ⟨hfrom 0 (inspectSelects_le request), hfrom⟩

theorem agrees_first (assetId : Id .asset) : ∀ position, InspectAssetStart.first =
    .continue_ position → position.assetId = assetId ∧
      ∀ revision ∈ (none : Option (Id .assetRevision)), revision = position.selectedRevisionId :=
  fun _ h => by cases h

theorem fullPage_bounded : 1 ≤ 64 ∧ 64 ≤ 64 := by decide

/-- A full page of the newest revision of an asset. -/
def fullPage (assetId : Id .asset) : InspectAssetQuery :=
  ⟨assetId, none, 64, .first, fullPage_bounded, agrees_first assetId⟩

/-- A full page of one asset, which takes 467 selects at most. -/
theorem oneAsset_within_budget : inspectSelects (fullPage (.numbered 101)).pageSize = 467 ∧
    inspectAsset 1 oneAsset.toTables (fullPage (.numbered 101)) ≠ .error .internal :=
  ⟨rfl, (inspection_within_budget reachable_oneAsset 1 (fullPage (.numbered 101))).1⟩

end AssetQuery

end MengXia.Store
