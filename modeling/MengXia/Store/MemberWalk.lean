import MengXia.Store.AssetGraph
/-!
# The walk through the members of a revision

The reads of `inspect_asset` one by one, in a reachable library: what each
of them finds, what it costs of the select budget, and how it can fail. A
revision's members come in the order of their representation, resource and
ordinal (`memberKeys`); `first_member` and `next_member` walk through them
without leaving one out (`keysAfter`).
-/

namespace MengXia.Store

namespace AssetQuery

open Common Txn

variable {allowed : Call → Prop}

variable {rs : ResourceRow} {m : MemberRow} {rp : RepresentationRow}

/-! ## The members in order -/

/-- The member that `read_member` looks for. -/
def memberAt (t : Tables) (revisionId : Id .assetRevision) (key : MemberKey) :
    Option InspectedMember :=
  (memberJoin t revisionId key).map fun row =>
    inspectedMember key row.1 row.2.1 row.2.2.1 row.2.2.2

/-- The keys of members of one resource. -/
def ordinalKeys (representationId : Id .representation) (resourceId : Id .resource)
    (rows : List MemberRow) : List MemberKey :=
  rows.map fun r => ⟨representationId, resourceId, r.ordinal⟩

def resourceKeys (t : Tables) (representationId : Id .representation) (rows : List ResourceRow) :
    List MemberKey :=
  rows.flatMap fun r => ordinalKeys representationId r.resourceId (membersAfter t r.resourceId none)

def representationKeys (t : Tables) (rows : List RepresentationRow) : List MemberKey :=
  rows.flatMap fun r =>
    resourceKeys t r.representationId (resourcesAfter t r.representationId none)

/-- The members of a revision in the order of the inspection. -/
def memberKeys (t : Tables) (revisionId : Id .assetRevision) : List MemberKey :=
  representationKeys t (representationsAfter t revisionId none)

/-- The members that follow one of them. -/
def keysAfter (t : Tables) (revisionId : Id .assetRevision) (key : MemberKey) : List MemberKey :=
  ordinalKeys key.representationId key.resourceId
      (membersAfter t key.resourceId (some key.ordinal)) ++
    resourceKeys t key.representationId
      (resourcesAfter t key.representationId (some key.resourceId.key)) ++
    representationKeys t (representationsAfter t revisionId (some key.representationId.key))

section Keys

variable (d : Database)

theorem representations_distinct (revisionId : Id .assetRevision) :
    Distinct (fun r : RepresentationRow => r.representationId.key)
      (d.representations.filter fun r => r.assetRevisionId = revisionId) := by
  have h := List.Nodup.map Id.key_injective d.consistent.representationKeys
  rw [List.map_map] at h
  exact Distinct.filter h _

theorem resources_distinct (representationId : Id .representation) :
    Distinct (fun r : ResourceRow => r.resourceId.key)
      (d.resources.filter fun r => r.representationId = representationId) := by
  have h := List.Nodup.map Id.key_injective d.consistent.resourceKeys
  rw [List.map_map] at h
  exact Distinct.filter h _

theorem members_distinct (resourceId : Id .resource) :
    Distinct MemberRow.ordinal (d.members.filter fun r => r.resourceId = resourceId) := by
  refine List.Nodup.of_map (fun o => (resourceId, o)) ?_
  have h : Distinct (fun r => (r.resourceId, r.ordinal))
      (d.members.filter fun r => r.resourceId = resourceId) :=
    d.consistent.memberKeys.filter _
  rw [List.map_map]
  refine (List.map_congr_left fun r hr => ?_) ▸ h
  have hr : r.resourceId = resourceId := by simpa using (List.mem_filter.1 hr).2
  rw [Function.comp_apply, hr]

variable {d} {revisionId : Id .assetRevision} {key : MemberKey}

/-- The members of a resource from one of them on. -/
theorem keysAfter_member {rest : List MemberRow}
    (h : membersAfter d key.resourceId (some key.ordinal) = m :: rest) :
    keysAfter d revisionId key =
      ⟨key.representationId, key.resourceId, m.ordinal⟩ ::
        keysAfter d revisionId
          ⟨key.representationId, key.resourceId, m.ordinal⟩ := by
  have hrest : membersAfter d key.resourceId (some m.ordinal) = rest :=
    rowsAfter_tail (members_distinct d key.resourceId) h
  unfold keysAfter
  rw [h, hrest]
  rfl

/-- The members from the first one of a resource on. -/
theorem resourceKeys_cons {representationId : Id .representation} {start : Option ℕ}
    {rest : List ResourceRow} {members : List MemberRow}
    (h : resourcesAfter d representationId start = rs :: rest)
    (hm : membersAfter d rs.resourceId none = m :: members) :
    resourceKeys d representationId
        (resourcesAfter d representationId start) ++
      representationKeys d
        (representationsAfter d revisionId (some representationId.key)) =
      ⟨representationId, rs.resourceId, m.ordinal⟩ ::
        keysAfter d revisionId ⟨representationId, rs.resourceId, m.ordinal⟩ := by
  have hmembers : membersAfter d rs.resourceId (some m.ordinal) = members :=
    rowsAfter_tail (members_distinct d rs.resourceId) hm
  have hrest : resourcesAfter d representationId (some rs.resourceId.key) = rest :=
    rowsAfter_tail (resources_distinct d representationId) h
  unfold keysAfter
  rw [h, hrest, hmembers]
  unfold resourceKeys
  rw [List.flatMap_cons, hm]
  rfl

/-- The members from the first one of a representation on. -/
theorem representationKeys_cons {start : Option ℕ} {rest : List RepresentationRow}
    {resources : List ResourceRow} {members : List MemberRow}
    (h : representationsAfter d revisionId start = rp :: rest)
    (hrs : resourcesAfter d rp.representationId none = rs :: resources)
    (hm : membersAfter d rs.resourceId none = m :: members) :
    representationKeys d (representationsAfter d revisionId start) =
      ⟨rp.representationId, rs.resourceId, m.ordinal⟩ ::
        keysAfter d revisionId ⟨rp.representationId, rs.resourceId, m.ordinal⟩ := by
  have hrest : representationsAfter d revisionId (some rp.representationId.key) = rest :=
    rowsAfter_tail (representations_distinct d revisionId) h
  rw [← resourceKeys_cons hrs hm, hrest, h]
  unfold representationKeys
  rw [List.flatMap_cons]

end Keys

/-! ## Members -/

/-- The rows that make a key one of a member of the revision. -/
structure MemberRows (t : Tables) (revisionId : Id .assetRevision) (key : MemberKey)
    (rp : RepresentationRow) (rs : ResourceRow) (rm : MemberRow) : Prop where
  representation : rp ∈ t.representations
  revision : rp.assetRevisionId = revisionId
  representationId : rp.representationId = key.representationId
  resource : rs ∈ t.resources
  owner : rs.representationId = key.representationId
  resourceId : rs.resourceId = key.resourceId
  member : rm ∈ t.members
  container : rm.resourceId = key.resourceId
  ordinal : rm.ordinal = key.ordinal

/-- A key is one of a member of the revision. -/
def IsMember (t : Tables) (revisionId : Id .assetRevision) (key : MemberKey) : Prop :=
  ∃ rp rs rm, MemberRows t revisionId key rp rs rm

section Members

variable {d : Database} {revisionId : Id .assetRevision} {key : MemberKey}

theorem MemberRows.memberAt {rm : MemberRow} (h : MemberRows d revisionId key rp rs rm)
    {b : BlobRow} (hb : b ∈ d.blobs) (hdigest : b.digest = rm.blobDigest) :
    memberAt d revisionId key = some (inspectedMember key rp rs rm b) := by
  have hrp : d.representations.find? (fun r => r.assetRevisionId = revisionId &&
      r.representationId = key.representationId) = some rp :=
    d.consistent.representationKeys.find?_of h.representation
      (by simp [h.revision, h.representationId]) fun r hp => by
        simp only [Bool.and_eq_true, decide_eq_true_eq] at hp
        exact hp.2.trans h.representationId.symm
  have hrs : d.resources.find? (fun r => r.representationId = rp.representationId &&
      r.resourceId = key.resourceId) = some rs :=
    d.consistent.resourceKeys.find?_of h.resource
      (by simp [h.owner, h.representationId, h.resourceId]) fun r hp => by
        simp only [Bool.and_eq_true, decide_eq_true_eq] at hp
        exact hp.2.trans h.resourceId.symm
  have hrm : d.members.find? (fun r => r.resourceId = rs.resourceId &&
      r.ordinal = key.ordinal) = some rm :=
    d.consistent.memberKeys.find?_of h.member
      (by simp [h.container, h.resourceId, h.ordinal]) fun r hp => by
        simp only [Bool.and_eq_true, decide_eq_true_eq] at hp
        rw [hp.1, hp.2, h.resourceId, h.container, h.ordinal]
  have hblob : d.blobs.find? (fun b => b.digest = rm.blobDigest) = some b :=
    d.consistent.blobKeys.find?_of hb (by simp [hdigest]) fun r hp =>
      (of_decide_eq_true hp).trans hdigest.symm
  simp [AssetQuery.memberAt, memberJoin, hrp, hrs, hrm, hblob]

theorem memberAt_eq_some {m : InspectedMember}
    (h : memberAt d revisionId key = some m) :
    ∃ rp rs rm b, MemberRows d revisionId key rp rs rm ∧ b ∈ d.blobs ∧
      b.digest = rm.blobDigest ∧ m = inspectedMember key rp rs rm b := by
  unfold AssetQuery.memberAt memberJoin at h
  simp only [Option.map_eq_some_iff, Option.bind_eq_bind, Option.bind_eq_some_iff] at h
  obtain ⟨row, ⟨rp, hrp, rs, hrs, rm, hrm, b, hb, hrow⟩, rfl⟩ := h
  cases hrow
  have hp : rp.assetRevisionId = revisionId ∧ rp.representationId = key.representationId := by
    simpa using List.find?_some hrp
  have hs : rs.representationId = rp.representationId ∧ rs.resourceId = key.resourceId := by
    simpa using List.find?_some hrs
  have hm : rm.resourceId = rs.resourceId ∧ rm.ordinal = key.ordinal := by
    simpa using List.find?_some hrm
  have hdigest : b.digest = rm.blobDigest := by simpa using List.find?_some hb
  exact ⟨rp, rs, rm, b, ⟨List.mem_of_find?_eq_some hrp, hp.1, hp.2,
    List.mem_of_find?_eq_some hrs, hs.1.trans hp.2, hs.2, List.mem_of_find?_eq_some hrm,
    hm.1.trans hs.2, hm.2⟩, List.mem_of_find?_eq_some hb, hdigest, rfl⟩

theorem memberAt_key {m : InspectedMember} (h : memberAt d revisionId key = some m) :
    m.key = key := by
  obtain ⟨rp, rs, rm, b, -, -, -, rfl⟩ := memberAt_eq_some h
  rfl

/-- **A member is read exactly where there is one.** -/
theorem memberAt_isSome_iff :
    (∃ m, memberAt d revisionId key = some m) ↔ IsMember d revisionId key := by
  constructor
  · rintro ⟨m, hm⟩
    obtain ⟨rp, rs, rm, -, h, -⟩ := memberAt_eq_some hm
    exact ⟨rp, rs, rm, h⟩
  · rintro ⟨rp, rs, rm, h⟩
    obtain ⟨b, hb, hdigest⟩ := d.consistent.memberBlobs rm h.member
    exact ⟨_, h.memberAt hb hdigest⟩

end Members

/-! ## Single reads -/

section Membership

variable {t : Tables} {start : Option ℕ}

theorem mem_representationsAfter {revisionId : Id .assetRevision} {r : RepresentationRow} :
    r ∈ representationsAfter t revisionId start ↔ r ∈ t.representations ∧
      r.assetRevisionId = revisionId ∧ ∀ k ∈ start, k < r.representationId.key := by
  unfold representationsAfter
  rw [mem_rowsAfter, List.mem_filter, decide_eq_true_eq, and_assoc]

theorem mem_resourcesAfter {representationId : Id .representation} {r : ResourceRow} :
    r ∈ resourcesAfter t representationId start ↔ r ∈ t.resources ∧
      r.representationId = representationId ∧ ∀ k ∈ start, k < r.resourceId.key := by
  unfold resourcesAfter
  rw [mem_rowsAfter, List.mem_filter, decide_eq_true_eq, and_assoc]

theorem mem_membersAfter {resourceId : Id .resource} {r : MemberRow} :
    r ∈ membersAfter t resourceId start ↔ r ∈ t.members ∧
      r.resourceId = resourceId ∧ ∀ k ∈ start, k < r.ordinal := by
  unfold membersAfter
  rw [mem_rowsAfter, List.mem_filter, decide_eq_true_eq, and_assoc]

end Membership

section Reads

variable {d : Database} (hd : Reachable allowed d) {revisionId : Id .assetRevision} {used : ℕ}
  {E : AssetStoreError → Prop}

variable {Q : InspectedMember → ℕ → Prop}

/-- A select within the budget. -/
theorem wp_consume {count : ℕ} (room : used + count ≤ maxInspectSelects) {Q : Unit → ℕ → Prop} :
    wp (consume count) Q E used ↔ Q () (used + count) := by
  unfold wp consume
  rw [if_pos room]

include hd

theorem wp_readMember {key : MemberKey} (room : used + 1 ≤ maxInspectSelects)
    (hQ : ∀ m, memberAt d revisionId key = some m → Q m (used + 1))
    (hE : memberAt d revisionId key = none → E .validation) :
    wp (readMember d revisionId key) Q E used := by
  unfold readMember
  rw [wp_bind, wp_consume room]
  cases hjoin : memberJoin d revisionId key with
  | none => exact hE (by rw [memberAt, hjoin]; rfl)
  | some row =>
    obtain ⟨rp, rs, rm, b⟩ := row
    have hm : memberAt d revisionId key = some (inspectedMember key rp rs rm b) := by
      rw [memberAt, hjoin]
      rfl
    have hb : b ∈ d.blobs := by
      simp only [memberJoin, Option.bind_eq_bind, Option.bind_eq_some_iff] at hjoin
      obtain ⟨_, -, _, -, _, -, b', hb', hrow⟩ := hjoin
      cases hrow
      exact List.mem_of_find?_eq_some hb'
    have hstored : ¬ (b.lifecycle ≠ .available ∨ 2 ^ 40 < b.byteLength ∨ b.revision = 0) := by
      have hlength := d.consistent.blobLengths b hb
      obtain ⟨havailable, hrevision⟩ := hd.custody.blobs b hb
      rintro (h | h | h)
      · exact h havailable
      · omega
      · exact Nat.pos_iff_ne_zero.1 hrevision h
    simp only [hstored, if_false]
    exact hQ _ hm

/-- A representation has a first resource, and any other id none. -/
theorem wp_firstResource {representationId : Id .representation}
    (room : used + 1 ≤ maxInspectSelects) {Q : Id .resource → ℕ → Prop}
    (hQ : ∀ rs rest, resourcesAfter d representationId none = rs :: rest →
      Q rs.resourceId (used + 1))
    (hE : resourcesAfter d representationId none = [] → E .storageCorruption) :
    wp (firstResource d representationId) Q E used := by
  unfold firstResource
  rw [wp_bind, wp_consume room]
  cases hrows : resourcesAfter d representationId none with
  | nil => exact hE hrows
  | cons rs rest =>
    have hrs : rs ∈ resourcesAfter d representationId none := by
      rw [hrows]
      exact List.mem_cons_self
    obtain ⟨hmem, howner⟩ := mem_resourcesAfter.1 hrs
    obtain ⟨rp, hrp, hid⟩ := d.consistent.resourceRepresentations rs hmem
    have hbound : rest.length + 1 ≤ 64 := by
      have hrows' := congrArg List.length hrows
      rw [resourcesAfter, length_rowsAfter_none, ← howner.1, ← hid] at hrows'
      have hsize := (hd.assetGraph.resources rp hrp).2
      simp only [List.length_cons] at hrows'
      omega
    simp only [List.take_succ_cons]
    rw [if_neg (by rw [List.length_take]; omega)]
    exact hQ rs rest hrows

/-- The first member of a resource has the ordinal zero. -/
theorem membersAfter_first (hrs : rs ∈ d.resources) :
    ∃ m rest, membersAfter d rs.resourceId none = m :: rest ∧ m.ordinal = 0 := by
  obtain ⟨hne, hnumbered⟩ := hd.assetGraph.members rs hrs
  have hlength : (membersAfter d rs.resourceId none).length =
      (d.members.filter fun r => r.resourceId = rs.resourceId).length := length_rowsAfter_none
  cases hrows : membersAfter d rs.resourceId none with
  | nil =>
    rw [hrows, List.length_nil] at hlength
    exact absurd (List.length_eq_zero_iff.1 hlength.symm) hne
  | cons m rest =>
    refine ⟨m, rest, rfl, ?_⟩
    obtain ⟨x, hx, hzero⟩ : ∃ x ∈ d.members.filter fun r => r.resourceId = rs.resourceId,
        x.ordinal = 0 := by
      rw [← List.mem_map, hnumbered, List.mem_range]
      exact List.length_pos_of_ne_nil hne
    have hle := rowsAfter_head_le (members_distinct d rs.resourceId) hrows hx
      (fun _ h => by cases h)
    omega

/-- The member after another one has the next ordinal. -/
theorem membersAfter_next {key : MemberKey} (hkey : IsMember d revisionId key)
    {rest : List MemberRow}
    (hrows : membersAfter d key.resourceId (some key.ordinal) = m :: rest) :
    m.ordinal = key.ordinal + 1 := by
  obtain ⟨rp, rs, rm, h⟩ := hkey
  obtain ⟨-, hnumbered⟩ := hd.assetGraph.members rs h.resource
  rw [h.resourceId] at hnumbered
  have hm : m ∈ membersAfter d key.resourceId (some key.ordinal) := by
    rw [hrows]
    exact List.mem_cons_self
  obtain ⟨hmem, hlt⟩ := mem_rowsAfter.1 hm
  have hlt : key.ordinal < m.ordinal := hlt _ rfl
  have hbound : m.ordinal < (d.members.filter fun r => r.resourceId = key.resourceId).length := by
    rw [← List.mem_range, ← hnumbered]
    exact List.mem_map_of_mem hmem
  obtain ⟨x, hx, hnext⟩ : ∃ x ∈ d.members.filter fun r => r.resourceId = key.resourceId,
      x.ordinal = key.ordinal + 1 := by
    rw [← List.mem_map, hnumbered, List.mem_range]
    omega
  have hle := rowsAfter_head_le (members_distinct d key.resourceId) hrows hx fun k hk => by
    rw [← Option.mem_some.1 hk]
    omega
  omega

/-! ## The walk -/

theorem wp_firstMemberInResource (hrp : rp ∈ d.representations)
    (hrevision : rp.assetRevisionId = revisionId) (hrs : rs ∈ d.resources)
    (howner : rs.representationId = rp.representationId) (room : used + 2 ≤ maxInspectSelects)
    (hQ : ∀ m first rest, membersAfter d rs.resourceId none = first :: rest →
      memberAt d revisionId ⟨rp.representationId, rs.resourceId, first.ordinal⟩ = some m →
        Q m (used + 2)) :
    wp (firstMemberInResource d revisionId rp.representationId rs.resourceId)
      Q E used := by
  obtain ⟨first, rest, hrows, hzero⟩ := membersAfter_first hd hrs
  have hfirst : first ∈ membersAfter d rs.resourceId none := by
    rw [hrows]
    exact List.mem_cons_self
  obtain ⟨hmem, hcontainer, -⟩ := mem_membersAfter.1 hfirst
  unfold firstMemberInResource
  rw [wp_bind, wp_consume (by omega)]
  simp only [hrows, List.head?_cons, hzero, ne_eq, not_true_eq_false, if_false]
  refine wp_readMember hd (by omega) (fun m hm => hQ m first rest hrows (hzero ▸ hm))
    fun hnone => ?_
  obtain ⟨m, hm⟩ := memberAt_isSome_iff.2 (⟨rp, rs, first, hrp, hrevision, rfl, hrs, howner, rfl,
    hmem, hcontainer, hzero⟩ : IsMember d revisionId ⟨rp.representationId, rs.resourceId, 0⟩)
  rw [hm] at hnone
  cases hnone

/-- The first member of a representation heads the keys from it on. -/
theorem wp_firstMemberInRepresentation {rest : List RepresentationRow} {start : Option ℕ}
    (hrows : representationsAfter d revisionId start = rp :: rest)
    (room : used + 3 ≤ maxInspectSelects)
    (hQ : ∀ m, memberAt d revisionId m.key = some m →
      representationKeys d (representationsAfter d revisionId start) =
        m.key :: keysAfter d revisionId m.key → Q m (used + 3)) :
    wp (firstMemberInRepresentation d revisionId rp.representationId) Q E used := by
  have hrp : rp ∈ representationsAfter d revisionId start := by
    rw [hrows]
    exact List.mem_cons_self
  obtain ⟨hmem, hrevision, -⟩ := mem_representationsAfter.1 hrp
  unfold firstMemberInRepresentation
  rw [wp_bind]
  refine wp_firstResource hd (by omega) (fun rs resources hresources => ?_) fun hnone => ?_
  · have hrs : rs ∈ resourcesAfter d rp.representationId none := by
      rw [hresources]
      exact List.mem_cons_self
    obtain ⟨hrs, howner, -⟩ := mem_resourcesAfter.1 hrs
    refine wp_firstMemberInResource hd hmem hrevision hrs howner (by omega)
      fun m first members hmembers hm => ?_
    have hkey := memberAt_key hm
    refine hQ m (hkey.symm ▸ hm) ?_
    rw [hkey]
    exact representationKeys_cons hrows hresources hmembers
  · have hlength := congrArg List.length hnone
    rw [resourcesAfter, length_rowsAfter_none, List.length_nil] at hlength
    have hsize := (hd.assetGraph.resources rp hmem).1
    omega

/-- **The walk starts at the first member.** -/
theorem wp_firstMember {ar : AssetRevisionRow} (har : ar ∈ d.assetRevisions)
    (hid : ar.assetRevisionId = revisionId) (room : used + 4 ≤ maxInspectSelects)
    {Q : Option InspectedMember → ℕ → Prop}
    (hQ : ∀ m, memberAt d revisionId m.key = some m →
      memberKeys d revisionId = m.key :: keysAfter d revisionId m.key →
        Q (some m) (used + 4)) :
    wp (firstMember d revisionId) Q E used := by
  unfold firstMember
  rw [wp_bind, wp_consume (by omega)]
  cases hrows : representationsAfter d revisionId none with
  | nil =>
    have hlength := congrArg List.length hrows
    rw [representationsAfter, length_rowsAfter_none, List.length_nil, ← hid] at hlength
    have hsize := (hd.assetGraph.representations ar har).1
    omega
  | cons rp rest =>
    simp only [List.head?_cons, wp_bind]
    exact wp_firstMemberInRepresentation hd hrows (by omega) hQ

/-- **The walk goes on to the next member**, and ends at the last one. -/
theorem wp_nextMember {key : MemberKey} (hkey : IsMember d revisionId key)
    (room : used + 6 ≤ maxInspectSelects) {Q : Option InspectedMember → ℕ → Prop}
    (hnone : keysAfter d revisionId key = [] → ∀ used' ≤ used + 6, Q none used')
    (hsome : ∀ m, memberAt d revisionId m.key = some m →
      keysAfter d revisionId key = m.key :: keysAfter d revisionId m.key →
        ∀ used' ≤ used + 6, Q (some m) used') :
    wp (nextMember d revisionId key) Q E used := by
  obtain ⟨rp, rs, rm, hmember⟩ := id hkey
  unfold nextMember
  rw [wp_bind, wp_consume (by omega)]
  cases hmembers : membersAfter d key.resourceId (some key.ordinal) with
  | cons next rest =>
    have hnext : next ∈ membersAfter d key.resourceId (some key.ordinal) := by
      rw [hmembers]
      exact List.mem_cons_self
    obtain ⟨hmem, hcontainer, -⟩ := mem_membersAfter.1 hnext
    simp only [List.head?_cons, membersAfter_next hd hkey hmembers, ne_eq, not_true_eq_false,
      if_false, wp_bind]
    refine wp_readMember hd (by omega) (fun m hm => ?_) fun habsent => ?_
    · have hm' := memberAt_key hm
      refine hsome m (hm'.symm ▸ hm) ?_ _ (by omega)
      rw [hm', keysAfter_member hmembers, membersAfter_next hd hkey hmembers]
    · obtain ⟨m, hm⟩ := memberAt_isSome_iff.2 (⟨rp, rs, next, { hmember with
        member := hmem, container := hcontainer, ordinal := membersAfter_next hd hkey hmembers }⟩ :
          IsMember d revisionId ⟨key.representationId, key.resourceId, key.ordinal + 1⟩)
      rw [hm] at habsent
      cases habsent
  | nil =>
    simp only [List.head?_nil]
    rw [wp_bind, wp_consume (by omega)]
    cases hresources : resourcesAfter d key.representationId
        (some key.resourceId.key) with
    | cons next rest =>
      have hnext : next ∈ resourcesAfter d key.representationId
          (some key.resourceId.key) := by
        rw [hresources]
        exact List.mem_cons_self
      obtain ⟨hmem, howner, -⟩ := mem_resourcesAfter.1 hnext
      simp only [List.head?_cons, wp_bind]
      rw [← hmember.representationId] at howner ⊢
      refine wp_firstMemberInResource hd hmember.representation hmember.revision hmem howner
        (by omega) fun m first members hrows hm => ?_
      have hm' := memberAt_key hm
      refine hsome m (hm'.symm ▸ hm) ?_ _ (by omega)
      rw [keysAfter, hmembers, hm', hmember.representationId, ← resourceKeys_cons hresources hrows]
      rfl
    | nil =>
      simp only [List.head?_nil]
      rw [wp_bind, wp_consume (by omega)]
      have hkeys : keysAfter d revisionId key = representationKeys d
          (representationsAfter d revisionId (some key.representationId.key)) := by
        rw [keysAfter, hmembers, hresources]
        rfl
      cases hrows : representationsAfter d revisionId
          (some key.representationId.key) with
      | nil =>
        refine hnone ?_ _ (by omega)
        rw [hkeys, hrows]
        rfl
      | cons next rest =>
        simp only [List.head?_cons, wp_bind]
        refine wp_firstMemberInRepresentation hd hrows (by omega) fun m hm hfirst => ?_
        exact hsome m hm (hkeys.trans hfirst) _ (by omega)

end Reads

end AssetQuery

end MengXia.Store
