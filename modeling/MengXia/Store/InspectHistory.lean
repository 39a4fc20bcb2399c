import MengXia.Store.Inspect
import MengXia.Store.LocationHistory
/-!
# Inspections between commits

The pages of one inspection are read in different states of the library.
The members of a revision are the same in all of them, and so are the
locations of a member whose pages have begun, as long as its blob is not
raised and no ingest adds a location of it. The pages then list, member by
member, every location of its blob.
-/

namespace MengXia.Store

namespace AssetQuery

open Common

variable {allowed : Call → Prop}

variable {m : InspectedMember} {t : Tables} {start : Option (ℕ ×ₗ ℕ)} {libraryId : BitVec 128}
  {request : InspectAssetQuery} {p : InspectAssetPosition} {ar : AssetRevisionRow}
  {representationId : Id .representation} {page : AssetMemberPage}

/-! ## The members in later states -/

section Frozen

variable {d d' : Database} (hgrows : Grows d d')
  {revisionId : Id .assetRevision} {key : MemberKey}

include hgrows

theorem representationsAfter_later (har : ar ∈ d.assetRevisions) (start : Option ℕ) :
    representationsAfter d' ar.assetRevisionId start =
      representationsAfter d ar.assetRevisionId start := by
  unfold representationsAfter
  rw [hgrows.representations.filter_eq fun r hr => decide_eq_false fun hid => hr ar har hid.symm]

theorem resourcesAfter_later {rp : RepresentationRow} (hrp : rp ∈ d.representations)
    (start : Option ℕ) : resourcesAfter d' rp.representationId start =
      resourcesAfter d rp.representationId start := by
  unfold resourcesAfter
  rw [hgrows.resources.filter_eq fun r hr => decide_eq_false fun hid => hr rp hrp hid.symm]

theorem membersAfter_later {rs : ResourceRow} (hrs : rs ∈ d.resources) (start : Option ℕ) :
    membersAfter d' rs.resourceId start = membersAfter d rs.resourceId start := by
  unfold membersAfter
  rw [hgrows.members.filter_eq fun r hr => decide_eq_false fun hid => hr rs hrs hid.symm]

theorem resourceKeys_later {rows : List ResourceRow} (hrows : ∀ rs ∈ rows, rs ∈ d.resources) :
    resourceKeys d' representationId rows =
      resourceKeys d representationId rows := by
  refine List.flatMap_congr fun rs hrs => ?_
  rw [membersAfter_later hgrows (hrows rs hrs)]

theorem representationKeys_later {rows : List RepresentationRow}
    (hrows : ∀ rp ∈ rows, rp ∈ d.representations) :
    representationKeys d' rows = representationKeys d rows := by
  refine List.flatMap_congr fun rp hrp => ?_
  rw [resourcesAfter_later hgrows (hrows rp hrp)]
  exact resourceKeys_later hgrows fun rs hrs => (mem_resourcesAfter.1 hrs).1

/-- **The members after one of them are the same in later states.** -/
theorem keysAfter_later (hkey : IsMember d revisionId key) :
    keysAfter d' revisionId key = keysAfter d revisionId key := by
  obtain ⟨rp, rs, rm, h⟩ := hkey
  obtain ⟨ar, har, hrevision⟩ := d.consistent.representationRevisions rp h.representation
  have hrevision : ar.assetRevisionId = revisionId := hrevision.trans h.revision
  unfold keysAfter
  rw [← hrevision, ← h.representationId, ← h.resourceId,
    representationsAfter_later hgrows har, resourcesAfter_later hgrows h.representation,
    membersAfter_later hgrows h.resource,
    resourceKeys_later hgrows fun rs hrs => (mem_resourcesAfter.1 hrs).1,
    representationKeys_later hgrows fun rp hrp => (mem_representationsAfter.1 hrp).1]

/-- **A member is found again**, with the revision its blob has by then. -/
theorem memberAt_later (hm : memberAt d revisionId key = some m) :
    ∃ revision, m.blobRevision ≤ revision ∧
      memberAt d' revisionId key = some { m with blobRevision := revision } ∧
      ∀ b' ∈ d'.blobs, b'.digest = m.blobDigest → b'.revision = revision := by
  obtain ⟨rp, rs, rm, b, h, hb, hdigest, rfl⟩ := memberAt_eq_some hm
  obtain ⟨b', hb', hnext⟩ := hgrows.blobs b hb
  have h' : MemberRows d' revisionId key rp rs rm := { h with
    representation := hgrows.representations.subset h.representation
    resource := hgrows.resources.subset h.resource
    member := hgrows.members.subset h.member }
  refine ⟨b'.revision, hnext.revision, ?_, fun x hx hxd => ?_⟩
  · rw [h'.memberAt hb' (hnext.digest.trans hdigest)]
    simp only [inspectedMember, hnext.length, hnext.mediaType]
  · rw [d'.consistent.blobKeys.eq_of_mem hx hb'
      (hxd.trans (hdigest.symm.trans hnext.digest.symm))]

/-- A location can be gone on from in later states. -/
theorem startKey_later {digest : Digest} {last : Option (Id .location)}
    (h : startKey d digest last = some start) :
    startKey d' digest last = some start := by
  cases last with
  | none => exact h
  | some last =>
    obtain ⟨l, hl, rfl, hdigest, rfl⟩ := startKey_eq_some h
    exact startKey_of_mem (hgrows.locations.subset hl) hdigest

end Frozen

/-- Kept locations are shown alike. -/
theorem locationRows_of_kept {t' : Tables} (h : LocationsKept m.blobDigest t t')
    (start : Option (ℕ ×ₗ ℕ)) :
    locationRows t' m start = locationRows t m start := by
  unfold locationRows locationsAfter
  rw [h]

/-- A member has the revision of its blob. -/
theorem memberAt_blob {d : Database} {revisionId : Id .assetRevision} {key : MemberKey}
    (hm : memberAt d revisionId key = some m) :
    ∃ b ∈ d.blobs, b.digest = m.blobDigest ∧ b.revision = m.blobRevision := by
  obtain ⟨rp, rs, rm, b, -, hb, hdigest, rfl⟩ := memberAt_eq_some hm
  exact ⟨b, hb, hdigest, rfl⟩

/-- A member that is read alike again has a blob that was not raised. -/
theorem not_raised {d d' : Database} {revisionId : Id .assetRevision} {key : MemberKey}
    (hm : memberAt d revisionId key = some m)
    (hm' : memberAt d' revisionId key = some m) :
    ¬ BlobRaised m.blobDigest d d' := by
  obtain ⟨b, hb, hdigest, hrevision⟩ := memberAt_blob hm
  obtain ⟨b', hb', hdigest', hrevision'⟩ := memberAt_blob hm'
  intro hraised
  have hlt := hraised b hb hdigest b' hb' hdigest'
  rw [hrevision, hrevision'] at hlt
  exact absurd hlt (lt_irrefl _)

/-! ## What the pages are to list -/

/-- The order of members: representation, resource, ordinal. -/
def memberOrder (key : MemberKey) : ℕ ×ₗ ℕ ×ₗ ℕ :=
  toLex (key.representationId.key, toLex (key.resourceId.key, key.ordinal))

/-- All the members of a revision, in their order. -/
structure OrderedMembers (t : Tables) (revisionId : Id .assetRevision) (keys : List MemberKey) :
    Prop where
  ordered : keys.Pairwise fun a b => memberOrder a < memberOrder b
  members : ∀ key, key ∈ keys ↔ IsMember t revisionId key

theorem OrderedMembers.unique {revisionId : Id .assetRevision} {keys keys' : List MemberKey}
    (h : OrderedMembers t revisionId keys) (h' : OrderedMembers t revisionId keys') :
    keys = keys' :=
  eq_of_pairwise_lt h.ordered h'.ordered fun key => (h.members key).trans (h'.members key).symm

/-- The rows of one member, with the states they were read in: they show every
location that the blob has in the state of the last row, in the order of the
locations. -/
def IsMemberBlock (revisionId : Id .assetRevision) (key : MemberKey)
    (block : List (Database × AssetMemberView)) : Prop :=
  ∃ d row m, ∃ locations : List LocationRow, block.getLast? = some (d, row) ∧
    memberAt d revisionId key = some m ∧
    (locations.Pairwise fun a b => locationKey a < locationKey b) ∧
    (∀ l, l ∈ locations ↔ l ∈ d.locations ∧ l.blobDigest = m.blobDigest) ∧
    block.map Prod.snd = locations.map fun l => m.view (some l)

/-- The rows list the members of the revision in order, each with all its
locations. -/
def ListsMembers (t : Tables) (revisionId : Id .assetRevision)
    (rows : List (Database × AssetMemberView)) : Prop :=
  ∃ keys blocks, OrderedMembers t revisionId keys ∧ rows = blocks.flatten ∧
    List.Forall₂ (IsMemberBlock revisionId) keys blocks

/-- The rows of pages, with the states the pages were read in. -/
def rowsOf (pages : List (Database × AssetMemberPage)) : List (Database × AssetMemberView) :=
  pages.flatMap fun read => read.2.members.map fun row => (read.1, row)

/-- The pages that follow one, each read with the position of the page before
it in a later state, up to the last page. -/
inductive Continued (libraryId : BitVec 128)
    (between : InspectAssetPosition → Database → Database → Prop) :
    Database → AssetMemberPage → List (Database × AssetMemberPage) → Prop where
  | last {d page} (done : page.next = none) : Continued libraryId between d page []
  | more {d page p d' request page' others} (next : page.next = some p) (run : between p d d')
      (start : request.start = .continue_ p)
      (read : inspectAsset libraryId d' request = .ok page')
      (rest : Continued libraryId between d' page' others) :
      Continued libraryId between d page ((d', page') :: others)

/-- A run of calls between two pages. When a member's pages have begun, none
of them is an ingest completion that stores a new location of its blob. -/
structure QuietBreak (allowed : Call → Prop) (p : InspectAssetPosition) (d d' : Database) :
    Prop where
  later : Later allowed d d'
  quiet : ∀ key m, p.member = some key → p.lastLocationId.isSome = true →
    memberAt d p.selectedRevisionId key = some m →
      LaterQuiet allowed m.blobDigest d d'

theorem mem_ordinalKeys {resourceId : Id .resource} {rows : List MemberRow} {key : MemberKey} :
    key ∈ ordinalKeys representationId resourceId rows ↔ key.representationId = representationId ∧
      key.resourceId = resourceId ∧ ∃ rm ∈ rows, rm.ordinal = key.ordinal := by
  unfold ordinalKeys
  rw [List.mem_map]
  constructor
  · rintro ⟨rm, hrm, rfl⟩
    exact ⟨rfl, rfl, rm, hrm, rfl⟩
  · rintro ⟨rfl, rfl, rm, hrm, hordinal⟩
    exact ⟨rm, hrm, by rw [hordinal]⟩

theorem mem_resourceKeys {rows : List ResourceRow} {key : MemberKey} :
    key ∈ resourceKeys t representationId rows ↔ key.representationId = representationId ∧
      (∃ rs ∈ rows, rs.resourceId = key.resourceId) ∧
      ∃ rm ∈ t.members, rm.resourceId = key.resourceId ∧ rm.ordinal = key.ordinal := by
  unfold resourceKeys
  simp only [List.mem_flatMap, mem_ordinalKeys, mem_membersAfter]
  constructor
  · rintro ⟨rs, hrs, hrp, hkey, rm, ⟨hrm, hcontainer, -⟩, hordinal⟩
    exact ⟨hrp, ⟨rs, hrs, hkey.symm⟩, rm, hrm, hcontainer.trans hkey.symm, hordinal⟩
  · rintro ⟨hrp, ⟨rs, hrs, hkey⟩, rm, hrm, hcontainer, hordinal⟩
    exact ⟨rs, hrs, hrp, hkey.symm, rm,
      ⟨hrm, hcontainer.trans hkey.symm, fun _ h => by cases h⟩, hordinal⟩

/-- **The walk goes through the members in order.** -/
theorem memberKeys_ordered (d : Database) (revisionId : Id .assetRevision) :
    OrderedMembers d revisionId (memberKeys d revisionId) := by
  refine ⟨?_, fun key => ?_⟩
  · refine List.pairwise_flatMap.2 ⟨fun rp _ => List.pairwise_flatMap.2 ⟨fun rs _ => ?_, ?_⟩, ?_⟩
    · refine List.pairwise_map.2 ((rowsAfter_pairwise (members_distinct d rs.resourceId)).imp ?_)
      intro a b hab
      exact Prod.Lex.toLex_lt_toLex.2 (Or.inr ⟨rfl, Prod.Lex.toLex_lt_toLex.2 (Or.inr ⟨rfl, hab⟩)⟩)
    · refine (rowsAfter_pairwise (resources_distinct d rp.representationId)).imp ?_
      intro a b hab x hx y hy
      obtain ⟨hxp, hxs, -⟩ := mem_ordinalKeys.1 hx
      obtain ⟨hyp, hys, -⟩ := mem_ordinalKeys.1 hy
      refine Prod.Lex.toLex_lt_toLex.2 (Or.inr ⟨by rw [hxp, hyp], Prod.Lex.toLex_lt_toLex.2 ?_⟩)
      exact Or.inl (by rwa [hxs, hys])
    · refine (rowsAfter_pairwise (representations_distinct d revisionId)).imp ?_
      intro a b hab x hx y hy
      obtain ⟨hxp, -⟩ := mem_resourceKeys.1 hx
      obtain ⟨hyp, -⟩ := mem_resourceKeys.1 hy
      exact Prod.Lex.toLex_lt_toLex.2 (Or.inl (by rwa [hxp, hyp]))
  · unfold memberKeys representationKeys
    simp only [List.mem_flatMap, mem_resourceKeys, mem_representationsAfter, mem_resourcesAfter]
    constructor
    · rintro ⟨rp, ⟨hrp, hrevision, -⟩, hkey, ⟨rs, ⟨hrs, howner, -⟩, hid⟩, rm, hrm, hcontainer,
        hordinal⟩
      exact ⟨rp, rs, rm, hrp, hrevision, hkey.symm, hrs, howner.trans hkey.symm, hid, hrm,
        hcontainer, hordinal⟩
    · rintro ⟨rp, rs, rm, h⟩
      exact ⟨rp, ⟨h.representation, h.revision, fun _ h => by cases h⟩, h.representationId.symm,
        ⟨rs, ⟨h.resource, h.owner.trans h.representationId.symm, fun _ h => by cases h⟩,
          h.resourceId⟩, rm, h.member, h.container, h.ordinal⟩

/-! ## The pages together -/

/-- The rows from a location of a member on: those of the member, all read
while its locations stayed, and then the blocks of the members after it. -/
def Spanned (revisionId : Id .assetRevision) (d : Database) (m : InspectedMember)
    (start : Option (ℕ ×ₗ ℕ)) (rows : List (Database × AssetMemberView)) : Prop :=
  ∃ head blocks, rows = head ++ blocks.flatten ∧
    head.map Prod.snd = locationRows d m start ∧
    (∀ x ∈ head, memberAt x.1.toTables revisionId m.key = some m ∧
      LocationsKept m.blobDigest d x.1.toTables) ∧
    List.Forall₂ (IsMemberBlock revisionId) (keysAfter d revisionId m.key) blocks

/-- Rows from the first location of a member on begin with its block. -/
theorem Spanned.blocks {revisionId : Id .assetRevision} {d : Database} (hd : Reachable allowed d)
    {rows : List (Database × AssetMemberView)} (hm : memberAt d revisionId m.key = some m)
    (h : Spanned revisionId d m none rows) :
    ∃ blocks, rows = blocks.flatten ∧ List.Forall₂ (IsMemberBlock revisionId)
      (m.key :: keysAfter d revisionId m.key) blocks := by
  obtain ⟨head, blocks, rfl, hhead, hstates, hblocks⟩ := h
  refine ⟨head :: blocks, rfl, .cons ?_ hblocks⟩
  have hne : head ≠ [] := by
    rintro rfl
    have hnil : locationRows d m none = [] := hhead.symm
    exact locationsAfter_ne_nil hd hm (List.map_eq_nil_iff.1 hnil)
  have hlast := List.getLast?_eq_some_getLast hne
  obtain ⟨hm', hkept⟩ := hstates _ (List.getLast_mem hne)
  refine ⟨_, _, m, locationsAfter d m.blobDigest none, hlast, hm',
    rowsAfter_pairwise (locations_distinct d m.blobDigest), fun l => ?_, hhead⟩
  rw [locationsAfter, mem_rowsAfter_none, ← hkept, List.mem_filter, decide_eq_true_eq]

section Page

variable {d : Database} (hd : Reachable allowed d) {i : Inspection}

include hd

/-- **One page and what follows it.** The page ends the listing, or it
returns a position, and the rows that follow go on from there in a later
state `d'`, in which the locations of a member that was begun are kept. -/
theorem Inspection.PageOf.spanned {rows : List AssetMemberView} {next : Option InspectAssetPosition}
    {tail : List (Database × AssetMemberView)} (h : i.PageOf d m start rows next)
    (hm : memberAt d i.revisionId m.key = some m) (hlast : next = none → tail = [])
    (hnext : ∀ p, next = some p → ∀ m' start', memberAt d i.revisionId m'.key = some m' →
      i.StandsAt d p m' start' → ∃ d', Reachable allowed d' ∧
        Grows d d' ∧ memberAt d' i.revisionId m'.key = some m' ∧
        (start'.isSome = true → LocationsKept m'.blobDigest d d') ∧
        Spanned i.revisionId d' m' start' tail) :
    Spanned i.revisionId d m start (rows.map (fun row => (d, row)) ++ tail) := by
  have hown : ∀ {m : InspectedMember} {rows : List AssetMemberView},
      memberAt d i.revisionId m.key = some m →
      ∀ x ∈ rows.map (fun row => (d, row)), memberAt x.1.toTables i.revisionId m.key = some m ∧
        LocationsKept m.blobDigest d x.1.toTables := by
    intro m rows hm x hx
    obtain ⟨row, -, rfl⟩ := List.mem_map.1 hx
    exact ⟨hm, rfl⟩
  induction h with
  | @last m start done =>
    rw [hlast rfl, List.append_nil]
    refine ⟨(locationRows d m start).map fun row => (d, row), [], by simp,
      by simp [Function.comp_def], hown hm, done ▸ .nil⟩
  | @within m start rows p next stands rest =>
    obtain ⟨d', -, hgrows, hm', hkept, head, blocks, rfl, hhead, hstates, hblocks⟩ :=
      hnext p rfl m (some next) hm stands
    have hkept := hkept rfl
    refine ⟨rows.map (fun row => (d, row)) ++ head, blocks, by simp, ?_, fun x hx => ?_, ?_⟩
    · rw [List.map_append, hhead, locationRows_of_kept hkept, ← rest]
      simp [Function.comp_def]
    · rcases List.mem_append.1 hx with hx | hx
      · exact hown hm x hx
      · exact ⟨(hstates x hx).1, Eq.trans (hstates x hx).2 hkept⟩
    · rwa [← keysAfter_later hgrows (memberAt_isSome_iff.1 ⟨m, hm⟩)]
  | @before m start m' p following keys stands =>
    obtain ⟨d', hd', hgrows, hm', -, hspanned⟩ := hnext p rfl m' none following stands
    obtain ⟨blocks, rfl, hblocks⟩ := hspanned.blocks hd' hm'
    refine ⟨_, blocks, rfl, by simp [Function.comp_def], hown hm, ?_⟩
    rwa [keys, ← keysAfter_later hgrows (memberAt_isSome_iff.1 ⟨m', following⟩)]
  | @further m start m' rows next following keys page ih =>
    obtain ⟨blocks, htail, hblocks⟩ := (ih following hlast hnext).blocks hd following
    refine ⟨(locationRows d m start).map fun row => (d, row), blocks, ?_,
      by simp [Function.comp_def], hown hm, keys ▸ hblocks⟩
    rw [List.map_append, List.append_assoc, htail]

end Page

/-- The position of a continued page. -/
theorem selection_continue {revision : RevisionNo} (hstart : request.start = .continue_ p)
    {selected : Id .assetRevision × Option InspectAssetPosition}
    (h : selection libraryId t request revision = .ok selected) :
    p.assetRevision = revision ∧ selected = (p.selectedRevisionId, some p) := by
  unfold selection at h
  simp only [hstart] at h
  obtain ⟨-, h⟩ := refusal_eq_ok.1 h
  obtain ⟨hrevision, h⟩ := refusal_eq_ok.1 h
  cases h
  exact ⟨Decidable.not_not.1 hrevision, rfl⟩

/-- A first page has no position, and the revision it is asked for. -/
theorem selection_first {revision : RevisionNo} (hstart : request.start = .first)
    {selected : Id .assetRevision × Option InspectAssetPosition}
    (h : selection libraryId t request revision = .ok selected) :
    selected.2 = none ∧ ∀ asked ∈ request.selectedRevisionId, selected.1 = asked := by
  unfold selection at h
  simp only [hstart] at h
  cases hasked : request.selectedRevisionId with
  | some asked =>
    simp only [hasked] at h
    cases h
    exact ⟨rfl, fun x hx => Option.some.inj hx⟩
  | none =>
    simp only [hasked] at h
    cases hnewest : newestRevision t request.assetId with
    | none =>
      rw [hnewest] at h
      cases h
    | some r =>
      rw [hnewest] at h
      cases h
      exact ⟨rfl, fun x hx => by cases hx⟩

/-- **A page goes on at the member where the page before it stopped.** -/
theorem Inspected.resume {d d' : Database} (hgrows : Grows d d') {i : Inspection}
    (hm : memberAt d i.revisionId m.key = some m)
    (hstands : i.StandsAt d p m start) (hstart : request.start = .continue_ p)
    {a : AssetRow} {position : Option InspectAssetPosition} {m' : InspectedMember}
    (h : Inspected libraryId d' request page a ar position m') :
    ar.assetRevisionId = i.revisionId ∧ m' = m ∧
      startKey d' m.blobDigest (lastOf position) = some start := by
  obtain ⟨-, hselected⟩ := selection_continue hstart h.selection
  obtain ⟨hrevision, rfl⟩ := Prod.mk.inj hselected
  have hrevision : ar.assetRevisionId = i.revisionId := hrevision.trans hstands.revisionId
  have hkey : m'.key = m.key := by
    have hstarts := h.starts
    simpa only [StartsAt, Option.bind_some, hstands.member] using hstarts
  have hblob : m'.blobRevision = m.blobRevision :=
    Option.some.inj ((h.unchanged p rfl).symm.trans hstands.blobRevision)
  obtain ⟨revision, -, hlater, -⟩ := memberAt_later hgrows hm
  have hm' := h.member
  rw [hrevision, hkey, hlater] at hm'
  have hsame : m' = m := by
    rw [← Option.some.inj hm'] at hblob ⊢
    exact congrArg (fun r => { m with blobRevision := r }) hblob
  exact ⟨hrevision, hsame, startKey_later hgrows hstands.start⟩

/-- **The pages list what their first one begins with.** -/
theorem Continued.spanned {d : Database} (hd : Reachable allowed d)
    {rest : List (Database × AssetMemberPage)}
    (h : Continued libraryId (QuietBreak allowed) d page rest) :
    ∀ {request a ar position m}, Inspected libraryId d request page a ar position m →
      ∃ start, startKey d m.blobDigest (lastOf position) = some start ∧
        Spanned ar.assetRevisionId d m start (rowsOf ((d, page) :: rest)) := by
  induction h with
  | @last d page done =>
    intro request a ar position m hpage
    obtain ⟨start, hstart, hshown⟩ := hpage.shows.page
    refine ⟨start, hstart, hshown.spanned hd hpage.member (fun _ => rfl) fun p hp => ?_⟩
    have hp : page.next = some p := hp
    rw [done] at hp
    cases hp
  | @more d page p d' request' page' others next run start read rest ih =>
    intro request a ar position m hpage
    have hd' := run.later.reachable hd
    obtain ⟨a', ar', position', m', hpage'⟩ := inspected_of_ok hd' read
    obtain ⟨start', hstart', hspanned⟩ := ih hd' hpage'
    obtain ⟨s, hs, hshown⟩ := hpage.shows.page
    refine ⟨s, hs, hshown.spanned hd hpage.member (fun hnone => ?_)
      fun q hq m'' start'' hm'' hq'' => ?_⟩
    · have hnone : page.next = none := hnone
      rw [next] at hnone
      cases hnone
    · obtain rfl : p = q := Option.some.inj (next.symm.trans hq)
      obtain ⟨hrevision, rfl, hresume⟩ := hpage'.resume run.later.grows hm'' hq'' start
      obtain rfl : start' = start'' := Option.some.inj (hstart'.symm.trans hresume)
      refine ⟨d', hd', run.later.grows, hrevision ▸ hpage'.member, fun hbegun => ?_,
        hrevision ▸ hspanned⟩
      have hlast : p.lastLocationId.isSome = true := by
        cases hl : p.lastLocationId with
        | none =>
          have hbefore := hq''.start
          rw [hl] at hbefore
          cases hbefore
          cases hbegun
        | some _ => rfl
      have hquiet := run.quiet m'.key m' hq''.member hlast (hq''.revisionId.symm ▸ hm'')
      exact hquiet.locations.resolve_right (not_raised hm'' (hrevision ▸ hpage'.member))

/-! ## Raised blobs -/

/-- A returned position stands at a member. -/
theorem Inspection.PageOf.stands {i : Inspection} {rows : List AssetMemberView}
    {next : Option InspectAssetPosition} (h : i.PageOf t m start rows next)
    (hm : memberAt t i.revisionId m.key = some m) (hp : next = some p) :
    ∃ m' start', memberAt t i.revisionId m'.key = some m' ∧ i.StandsAt t p m' start' := by
  induction h with
  | last => cases hp
  | within stands =>
    cases hp
    exact ⟨_, _, hm, stands⟩
  | before following _ stands =>
    cases hp
    exact ⟨_, _, following, stands⟩
  | further following _ _ ih => exact ih following hp

/-- **A raised blob is reported**: a page that goes on at a member whose blob
has another revision by then is a conflict. -/
theorem conflict_of_raised {d d' : Database} (hd' : Reachable allowed d')
    (hgrows : Grows d d') {a : AssetRow} {position : Option InspectAssetPosition}
    {m₀ : InspectedMember} (hpage : Inspected libraryId d request page a ar position m₀)
    (hm : memberAt d ar.assetRevisionId m.key = some m)
    (hstands : (inspectionOf libraryId a ar).StandsAt d p m start)
    (hraised : BlobRaised m.blobDigest d d') {request' : InspectAssetQuery}
    (hstart : request'.start = .continue_ p) :
    inspectAsset libraryId d' request' = .error .conflict := by
  have hasset : a.assetId = request'.assetId :=
    hstands.assetId.symm.trans (request'.agrees p hstart).1
  obtain ⟨revision, -, hm', hrevision⟩ := memberAt_later hgrows hm
  have hchanged : revision ≠ m.blobRevision := by
    rintro rfl
    exact not_raised hm hm' hraised
  rcases inspectAsset_cases hd' libraryId request' with
    ⟨page', -, a', ar', position', m', h⟩ | ⟨e, he, h⟩
  · obtain ⟨hid, rfl, -⟩ := h.resume hgrows hm hstands hstart
    have hid : ar'.assetRevisionId = ar.assetRevisionId := hid
    exact absurd hraised (not_raised hm (hid ▸ h.member))
  rw [he]
  congr 1
  cases h with
  | noAsset absent =>
    obtain ⟨x, hx, hnext⟩ := hgrows.assets a hpage.asset
    exact absurd (hnext.id.trans hasset) (absent x hx)
  | selection _ _ failed =>
    unfold selection at failed
    simp only [hstart] at failed
    split at failed
    · rename_i hother
      exact absurd hother (by
        rw [hstands.libraryId, hstands.assetId]
        exact not_or.2 ⟨fun h => h rfl, fun h => h hasset⟩)
    · split at failed
      · cases failed
        rfl
      · cases failed
  | noRevision _ _ hselection absent =>
    obtain ⟨-, rfl⟩ := selection_continue hstart hselection
    exact absurd (hpage.owner.trans (hpage.assetId.symm.trans hasset))
      (absent ar (hgrows.assetRevisions.subset hpage.revision) hstands.revisionId.symm)
  | @noResources a' ar' position' key selects member empty =>
    obtain ⟨-, hselected⟩ := selection_continue hstart selects.selection
    cases (Prod.mk.inj hselected).2
    cases hstands.member.symm.trans member
    obtain ⟨rp, rs, rm, hrows⟩ := memberAt_isSome_iff.1 ⟨_, hm'⟩
    have hmem : rs ∈ resourcesAfter d' m.key.representationId none :=
      mem_resourcesAfter.2 ⟨hrows.resource, hrows.owner, fun _ h => by cases h⟩
    rw [empty] at hmem
    cases hmem
  | @noMember a' ar' position' key selects member absent =>
    obtain ⟨-, hselected⟩ := selection_continue hstart selects.selection
    cases (Prod.mk.inj hselected).2
    cases hstands.member.symm.trans member
    rw [(Prod.mk.inj hselected).1, hstands.revisionId] at absent
    exact absurd (hm'.symm.trans absent) (by simp)
  | changed => rfl
  | @rows a' ar' position' m' _ selects member starts unchanged =>
    obtain ⟨-, hselected⟩ := selection_continue hstart selects.selection
    obtain ⟨hid, rfl⟩ := Prod.mk.inj hselected
    have hkey : m'.key = m.key := by
      simpa only [StartsAt, Option.bind_some, hstands.member] using starts
    rw [hid, hstands.revisionId, hkey] at member
    have hsame := Option.some.inj (hm'.symm.trans member)
    have hblob := Option.some.inj ((unchanged p rfl).symm.trans hstands.blobRevision)
    rw [← hsame] at hblob
    exact absurd hblob hchanged

/-! ## The inspection of a revision -/

/-- **Paging from the first position lists every member with every location.**
The pages are read in states between which commands are committed; of these
none is an ingest completion that stores a new location of a blob while the
locations of a member with that blob are being paged. If the last page is
reached, the rows list the members of the revision in order, each with the
locations its blob has in the state of its last row, once and in order. A
location that is added while the member's pages have begun makes the next
page a conflict. -/
theorem inspect_pages_complete {libraryId : BitVec 128} {d : Database}
    (hd : Reachable allowed d) {request : InspectAssetQuery} {page : AssetMemberPage}
    (hread : inspectAsset libraryId d.toTables request = .ok page) :
    (request.start = .first →
      (∀ selected ∈ request.selectedRevisionId, page.selectedRevisionId = selected) ∧
      ∀ rest, Continued libraryId (QuietBreak allowed) d page rest →
        ListsMembers d.toTables page.selectedRevisionId (rowsOf ((d, page) :: rest))) ∧
    ∀ p key m d' l, page.next = some p → p.member = some key → p.lastLocationId.isSome = true →
      memberAt d.toTables p.selectedRevisionId key = some m → QuietBreak allowed p d d' →
      l ∈ d'.locations → l ∉ d.locations → l.blobDigest = m.blobDigest →
      ∀ request', request'.start = .continue_ p →
        inspectAsset libraryId d'.toTables request' = .error .conflict := by
  obtain ⟨a, ar, position, m₀, hpage⟩ := inspected_of_ok hd hread
  refine ⟨fun hfirst => ?_, ?_⟩
  · obtain ⟨hnone, hasked⟩ := selection_first hfirst hpage.selection
    have hnone : position = none := hnone
    subst hnone
    rw [hpage.revisionId]
    refine ⟨hasked, fun rest hrest => ?_⟩
    obtain ⟨start, hstart, hspanned⟩ := hrest.spanned hd hpage
    cases hstart
    obtain ⟨blocks, hrows, hblocks⟩ := hspanned.blocks hd hpage.member
    have hkeys : memberKeys d.toTables ar.assetRevisionId =
        m₀.key :: keysAfter d.toTables ar.assetRevisionId m₀.key := hpage.starts
    exact ⟨_, blocks, memberKeys_ordered d ar.assetRevisionId, hrows, hkeys ▸ hblocks⟩
  · intro p key m d' l hnext hkey hlast hm hrun hl hnew hdigest request' hstart
    obtain ⟨start, -, hshown⟩ := hpage.shows.page
    obtain ⟨m', start', hm', hstands⟩ := hshown.stands hpage.member hnext
    have hquiet := (hrun.quiet key m hkey hlast hm).locations
    cases hstands.member.symm.trans hkey
    have hm' : memberAt d.toTables ar.assetRevisionId m'.key = some m' := hm'
    rw [hstands.revisionId] at hm
    cases hm'.symm.trans hm
    refine conflict_of_raised (hrun.later.reachable hd) hrun.later.grows hpage hm' hstands
      (hquiet.resolve_left fun hkept => hnew ?_) hstart
    have hfound : l ∈ d'.locations.filter fun l => l.blobDigest = m.blobDigest :=
      List.mem_filter.2 ⟨hl, decide_eq_true hdigest⟩
    rw [hkept] at hfound
    exact (List.mem_filter.1 hfound).1

/-! ## A missed location -/

theorem agrees_next (p : InspectAssetPosition) : ∀ position, InspectAssetStart.continue_ p =
    .continue_ position → position.assetId = p.assetId ∧
      ∀ revision ∈ (none : Option (Id .assetRevision)), revision = position.selectedRevisionId := by
  intro position h
  cases h
  exact ⟨rfl, fun _ h => by cases h⟩

theorem oneRow_bounded : 1 ≤ 1 ∧ 1 ≤ 64 := by decide

/-- One row of the newest revision of an asset, from the first or from a
position. -/
def firstRow (assetId : Id .asset) : InspectAssetQuery :=
  ⟨assetId, none, 1, .first, oneRow_bounded, agrees_first assetId⟩

def nextRow (p : InspectAssetPosition) : InspectAssetQuery :=
  ⟨p.assetId, none, 1, .continue_ p, oneRow_bounded, agrees_next p⟩

theorem firstIngest_ids : 100 + 8 ≤ 2 ^ 62 := by decide

theorem secondIngest_ids : 300 + 8 ≤ 2 ^ 62 := by decide

/-- The content of `DurableBlob.numbered 1` at another backend. -/
def copiedBlob : DurableBlob :=
  ⟨⟨1⟩, 1, ⟨2⟩, (DurableBlob.numbered 1).lengthBounded⟩

/-- The library of one asset, whose content is stored at two backends. -/
def copiedAsset : Database :=
  afterCalls Database.empty [.claimExternal (.numbered 100),
    .completeExternal (.numbered 100 copiedBlob firstIngest_ids),
    .execute (.recordLocation (.numbered 200 (.numbered 1) 1))]

/-- The same library after an ingest of the same content at a third backend,
and after a command that stores no content. -/
def copiedAgain : Database :=
  afterCalls copiedAsset [.claimExternal (.numbered 300),
    .completeExternal (.numbered 300 (.numbered 1) secondIngest_ids)]

def copiedAndPlanned : Database :=
  afterCalls copiedAsset [.execute (.createProject (.numbered 300))]

/-- The member of the asset. -/
def copiedMember : MemberKey :=
  ⟨.numbered 103, .numbered 104, 0⟩

theorem copiedPosition_valid : isInspectPosition 1 1 (some copiedMember)
    (some .requiredCustodySeen) (some 2) (some (.numbered 201)) = true := by decide

/-- The position after the first of its two locations. -/
def copiedPosition : InspectAssetPosition :=
  ⟨1, .numbered 101, .numbered 102, 1, some copiedMember, some .requiredCustodySeen, some 2,
    some (.numbered 201), copiedPosition_valid⟩

/-- The page of one of its locations. -/
def copiedPage (location : Id .location) (next : Option InspectAssetPosition) :
    AssetMemberPage where
  asset := ⟨.numbered 101, .plain, .active, 1, .epoch, .epoch, 1⟩
  selectedRevisionId := .numbered 102
  revisionSequence := 1
  contentKind := .plain
  custody := .managed
  parentRevisionIds := []
  members := [⟨.numbered 103, .plain, .numbered 104, .plain, 0, .plain, ⟨1⟩, 1, none,
    some ⟨location, .available, .managed, .durable⟩⟩]
  next := next

theorem copiedAsset_reachable : Reachable (fun _ => True) copiedAsset :=
  reachable_afterCalls .empty fun _ _ => trivial

theorem copiedAsset_first : inspectAsset 1 copiedAsset (firstRow (.numbered 101)) =
    .ok (copiedPage (.numbered 201) (some copiedPosition)) := by
  decide +kernel

/-- Two pages list the two locations of `copiedAsset`, with a project created
between them. -/
theorem copiedAsset_listed :
    Continued 1 (QuietBreak fun _ => True) copiedAsset
      (copiedPage (.numbered 201) (some copiedPosition))
      [(copiedAndPlanned, copiedPage (.numbered 105) none)] ∧
    ListsMembers copiedAsset.toTables (.numbered 102)
      (rowsOf [(copiedAsset, copiedPage (.numbered 201) (some copiedPosition)),
        (copiedAndPlanned, copiedPage (.numbered 105) none)]) := by
  have hread : inspectAsset 1 copiedAndPlanned.toTables (nextRow copiedPosition) =
      .ok (copiedPage (.numbered 105) none) := by
    decide +kernel
  have hrun : QuietBreak (fun _ => True) copiedPosition copiedAsset copiedAndPlanned :=
    ⟨.step firstProcess (.execute (.createProject (.numbered 300))) .refl trivial,
      fun _ _ _ _ _ => .step firstProcess (.execute (.createProject (.numbered 300))) .refl
        trivial id⟩
  have hrest : Continued 1 (QuietBreak fun _ => True) copiedAsset
      (copiedPage (.numbered 201) (some copiedPosition))
      [(copiedAndPlanned, copiedPage (.numbered 105) none)] :=
    @Continued.more 1 _ _ _ _ _ (nextRow copiedPosition) _ _ rfl hrun rfl hread (.last rfl)
  exact ⟨hrest, ((inspect_pages_complete copiedAsset_reachable copiedAsset_first).1 rfl).2 _ hrest⟩

/-- **An ingest between two pages is missed.** -/
theorem ingested_location_missed : Reachable (fun _ => True) copiedAsset ∧
    inspectAsset 1 copiedAsset.toTables (firstRow (.numbered 101)) =
      .ok (copiedPage (.numbered 201) (some copiedPosition)) ∧
    Continued 1 (fun _ => Later fun _ => True) copiedAsset
      (copiedPage (.numbered 201) (some copiedPosition))
      [(copiedAgain, copiedPage (.numbered 105) none)] ∧
    (∃ l ∈ copiedAgain.locations, l.blobDigest = ⟨1⟩ ∧ l ∉ copiedAsset.locations) ∧
    ¬ ListsMembers copiedAsset.toTables (.numbered 102)
      (rowsOf [(copiedAsset, copiedPage (.numbered 201) (some copiedPosition)),
        (copiedAgain, copiedPage (.numbered 105) none)]) := by
  refine ⟨copiedAsset_reachable, copiedAsset_first, ?_, by decide +kernel, ?_⟩
  · have hread : inspectAsset 1 copiedAgain.toTables (nextRow copiedPosition) =
        .ok (copiedPage (.numbered 105) none) := by
      decide +kernel
    have hrun : Later (fun _ => True) copiedAsset copiedAgain :=
      .step firstProcess (.completeExternal (.numbered 300 (.numbered 1) secondIngest_ids))
        (.step firstProcess (.claimExternal (.numbered 300)) .refl trivial) trivial
    exact @Continued.more 1 _ _ _ _ _ (nextRow copiedPosition) _ _ rfl hrun rfl hread (.last rfl)
  · rintro ⟨keys, blocks, hkeys, hrows, hblocks⟩
    have hone : memberKeys copiedAsset.toTables (.numbered 102) = [copiedMember] := by
      decide +kernel
    have hsingle : keys = [copiedMember] := by
      rw [← hone]
      exact hkeys.unique (memberKeys_ordered copiedAsset _)
    subst hsingle
    obtain ⟨block, ⟨d, row, m, locations, hlast, hm, -, hall, hshown⟩, rfl⟩ : ∃ block,
        IsMemberBlock (.numbered 102) copiedMember block ∧ blocks = [block] := by
      cases hblocks with
      | cons hblock hnil =>
        cases hnil
        exact ⟨_, hblock, rfl⟩
    rw [List.flatten_singleton] at hrows
    subst hrows
    cases hlast
    have hdigest : m.blobDigest = ⟨1⟩ := by
      have hfound : (memberAt copiedAgain.toTables (.numbered 102) copiedMember).map
          InspectedMember.blobDigest = some ⟨1⟩ := by decide +kernel
      rw [hm] at hfound
      exact Option.some.inj hfound
    obtain ⟨l, hl, hblob, hid⟩ : ∃ l ∈ copiedAgain.locations, l.blobDigest = ⟨1⟩ ∧
        l.locationId = .numbered 305 := by decide +kernel
    have hrow : m.view (some l) ∈ locations.map fun l => m.view (some l) :=
      List.mem_map_of_mem ((hall l).2 ⟨hl, hblob.trans hdigest.symm⟩)
    rw [← hshown] at hrow
    have hlisted : some l.locationId ∈ ([some (.numbered 201), some (.numbered 105)] :
        List (Option (Id .location))) :=
      List.mem_map_of_mem (f := fun r : AssetMemberView =>
        r.location.map AssetLocationView.locationId) hrow
    rw [hid] at hlisted
    exact absurd hlisted (by decide)

end AssetQuery

end MengXia.Store
