
import MengXia.Daemon.CreativeQuery
import MengXia.Store.CreativeListings
/-!
# Query responses in frames

The response to a creative query is bounded by one mebibyte, and the frame
that carries it by the daemon's configured limit, which may be less. A page
of projects or of work can lie between the two; then the frame is refused.
How large such a page is can be told from the rows that are stored.
-/

namespace MengXia.Daemon

open Common Store

section Responses

variable {N : Type} [DecidableEq N] {numbers : JsonNumbers N} {libraryId : BitVec 128}
  {d : Database}

/-! ## Responses -/

/-- A response below the limit is left as it is. -/
theorem boundTask009Response_of_le {response : CoreProto.CreativeListResponse}
    (h : response.encodedLen ≤ maxResponseBytes) (correlationId : Text) :
    boundTask009Response response correlationId = .ok response :=
  if_pos h

variable {maximumTimeout : ℕ} {correlation : Uuid} {interruption : Option AssetStoreError}
  {request : CreativeListRequest} {response : CoreProto.CreativeListResponse}
  {fatal : Option ErrorCode}

/-- **What is handed to the writer**: a small error, or the page that the
service answered. -/
theorem serveCreativeQuery_cases
    (h : serveCreativeQuery numbers libraryId d maximumTimeout correlation interruption
      request = .ok (response, fatal)) :
    (response.encodedLen ≤ 1024 ∧
        ∀ query, decodeCreativeList maximumTimeout request = .ok query → interruption = none →
          ∀ page, answerCreativeList numbers libraryId d query ≠ .ok page) ∨
      ∃ query, decodeCreativeList maximumTimeout request = .ok query ∧ interruption = none ∧
        answerCreativeList numbers libraryId d query = .ok response := by
  unfold serveCreativeQuery at h
  split at h
  · rename_i code hdecode
    obtain ⟨envelope, henvelope, h⟩ := exceptBind_eq_ok.1 h
    cases h
    refine Or.inl ⟨errorResponse_encodedLen_le henvelope, fun query hquery => ?_⟩
    rw [hdecode] at hquery
    cases hquery
  · rename_i query hdecode
    split at h
    · rename_i page hpage
      obtain ⟨bounded, hbounded, h⟩ := exceptBind_eq_ok.1 h
      cases h
      cases interruption with
      | some error => cases hpage
      | none =>
        have hle := (answer_encodedLen_le (pageBound_of_decode hdecode) hpage).1
        rw [boundTask009Response_of_le hle] at hbounded
        cases hbounded
        exact Or.inr ⟨query, hdecode, rfl, hpage⟩
    · rename_i error herror
      obtain ⟨message, hmessage, h⟩ := exceptBind_eq_ok.1 h
      obtain ⟨envelope, henvelope, hmessage⟩ := exceptBind_eq_ok.1 hmessage
      cases hmessage
      obtain ⟨bounded, hbounded, h⟩ := exceptBind_eq_ok.1 h
      cases h
      have hle := queryErrorEnvelope_encodedLen_le henvelope
      rw [boundTask009Response_of_le (Nat.le_trans hle (by decide))] at hbounded
      cases hbounded
      refine Or.inl ⟨hle, fun query' hquery hnone page hpage => ?_⟩
      rw [hdecode] at hquery
      cases hquery
      subst hnone
      rw [Option.elim_none, hpage] at herror
      cases herror

/-- A page of one of the four listings, as the service answers it. -/
inductive CreativeListPage where
  | projects (answer : CreativePageResponse ProjectView)
  | subjects (answer : CreativePageResponse SubjectView)
  | work (answer : CreativePageResponse WorkView)
  | takes (answer : CreativePageResponse TakeView)

/-- The response that `serve_creative_query` builds from a page. -/
def CreativeListPage.toResponse :
    CreativeListPage → AssetResult CoreProto.CreativeListResponse
  | .projects answer =>
    .ok (.listProjects (listResult answer (answer.page.items.map projectResponse)))
  | .subjects answer =>
    .ok (.listSubjects (listResult answer (answer.page.items.map subjectResponse)))
  | .work answer => .ok (.listWork (listResult answer (answer.page.items.map workResponse)))
  | .takes answer => do
    let takes ← answer.page.items.mapM takeResponse
    .ok (.listTakes (listResult answer takes))

/-- **The stored bounds on a page**; the bounds on names, codes, kinds and the
identifiers of work are those of their types. A cursor has 160 bytes. -/
def CreativeListPage.StoredBounds : CreativeListPage → Prop
  | .projects answer => answer.page.items.length ≤ 3 ∧
    (∀ view ∈ answer.page.items, view.specification.colorPolicy.bytes.length ≤ 65536 ∧
      view.specification.audioPolicy.bytes.length ≤ 65536 ∧
      view.specification.qualityPolicy.bytes.length ≤ 65536 ∧
      view.specification.privacyPolicy.bytes.length ≤ 65536) ∧
    ∀ bytes ∈ answer.nextCursor, bytes.length = 160
  | .subjects answer => answer.page.items.length ≤ 64 ∧
    ∀ bytes ∈ answer.nextCursor, bytes.length = 160
  | .work answer => answer.page.items.length ≤ 3 ∧
    (∀ view ∈ answer.page.items, view.specification.json.bytes.length ≤ 262144) ∧
    ∀ bytes ∈ answer.nextCursor, bytes.length = 160
  | .takes answer => answer.page.items.length ≤ 64 ∧
    (∀ view ∈ answer.page.items, view.outgoingRelationships.length ≤ 2) ∧
    ∀ bytes ∈ answer.nextCursor, bytes.length = 160

theorem CreativeListPage.encodedLen_le {page : CreativeListPage} (h : page.StoredBounds)
    (hresponse : page.toResponse = .ok response) : response.encodedLen ≤ maxResponseBytes := by
  have hsmall : 65536 ≤ maxResponseBytes := by decide
  cases page with
  | projects answer =>
    cases hresponse
    exact projectsPage_encodedLen_le h.1 (by simpa using h.2.1) h.2.2
  | subjects answer =>
    cases hresponse
    exact Nat.le_trans (subjectsPage_encodedLen_le h.1 h.2) hsmall
  | work answer =>
    cases hresponse
    exact workPage_encodedLen_le h.1 h.2.1 h.2.2
  | takes answer =>
    obtain ⟨takes, htakes, hresponse⟩ := exceptBind_eq_ok.1 hresponse
    cases hresponse
    exact Nat.le_trans (takesPage_encodedLen_le h.1 h.2.1 htakes h.2.2) hsmall

/-- **No page is replaced by an error.** The response of every page within the
stored bounds is within the response limit and passes the bound as it is; and
the page that the service answers from a database is handed to the writer. -/
theorem page_never_replaced :
    (∀ (page : CreativeListPage) (response : CoreProto.CreativeListResponse)
      (correlationId : Text), page.StoredBounds → page.toResponse = .ok response →
      response.encodedLen ≤ 1048576 ∧
        boundTask009Response response correlationId = .ok response) ∧
    ∀ (query : CreativeList) (response : CoreProto.CreativeListResponse),
      decodeCreativeList maximumTimeout request = .ok query →
      answerCreativeList numbers libraryId d.toTables query = .ok response →
      serveCreativeQuery numbers libraryId d.toTables maximumTimeout correlation none request =
        .ok (response, none) := by
  refine ⟨fun page response correlationId h hresponse => ?_, fun query response hdecode hpage => ?_⟩
  · have hle := CreativeListPage.encodedLen_le h hresponse
    exact ⟨hle, boundTask009Response_of_le hle correlationId⟩
  · have hle := (answer_encodedLen_le (pageBound_of_decode hdecode) hpage).1
    unfold serveCreativeQuery
    rw [hdecode]
    simp only [Option.elim_none, hpage, boundTask009Response_of_le hle]
    rfl

/-- A page of one subject that another page follows. -/
def onePage : CreativePageResponse SubjectView where
  page := ⟨2, [⟨⟨.wide 0⟩, .plain, ⟨['n'], by decide⟩, 1, .epoch, 1⟩],
    some (.after 9 2 1 (by decide))⟩
  nextCursor := some (List.replicate 160 7)

/-- That page passes, and so does the empty page of an empty library. -/
theorem onePage_never_replaced :
    (boundTask009Response (.listSubjects (listResult onePage
      (onePage.page.items.map subjectResponse))) [] =
        .ok (.listSubjects (listResult onePage (onePage.page.items.map subjectResponse)))) ∧
    ∃ response, serveCreativeQuery .verbatim 0 Database.empty.toTables 60000 (.wide 9) none
      (.listProjects 3 [] 1000) = .ok (response, none) := by
  have hpages := @page_never_replaced _ _ .verbatim 0 .empty 60000 (.wide 9)
    (.listProjects 3 [] 1000)
  refine ⟨(hpages.1 (.subjects onePage) _ [] ⟨by decide, ?_⟩ rfl).2,
    _, hpages.2 (.projects 3 none) _ rfl rfl⟩
  rintro bytes ⟨⟩
  rfl

/-! ## Stored pages -/

section StoredPages

open CreativeQuery

/-- The bytes of a stored specification in a page. -/
def storedSpecSize (s : SpecRevisionRow) : ℕ :=
  bytesSize 1 36 + numberSize 2 s.sequence +
    optionalSize 3 (s.resolution.map Resolution.width) +
    optionalSize 4 (s.resolution.map Resolution.height) +
    optionalSize 5 (s.frameRate.map PositiveRatio.numerator) +
    optionalSize 6 (s.frameRate.map PositiveRatio.denominator) +
    optionalSize 7 (s.aspectRatio.map PositiveRatio.numerator) +
    optionalSize 8 (s.aspectRatio.map PositiveRatio.denominator) + numberSize 9 1 +
    bytesSize 10 s.colorPolicyJson.length + bytesSize 11 s.audioPolicyJson.length +
    bytesSize 12 s.qualityPolicyJson.length + bytesSize 13 s.privacyPolicyJson.length +
    bytesSize 14 32

/-- The bytes of a stored project in a page. -/
def storedProjectSize (r : ProjectRow × SpecRevisionRow) : ℕ :=
  bytesSize 1 36 + bytesSize 2 r.1.name.text.byteLength + numberSize 3 r.1.revision +
    numberSize 4 (r.1.createdAt.seconds % 2 ^ 64).toNat + numberSize 5 r.1.createdAt.nanos +
    numberSize 6 (r.1.updatedAt.seconds % 2 ^ 64).toNat + numberSize 7 r.1.updatedAt.nanos +
    numberSize 8 r.1.creationCommitSequence + dataSize 9 (storedSpecSize r.2) + numberSize 10 1

/-- The edges of one kind that a work revision has. -/
def edgeCount (t : Tables) (r : WorkRevisionRow) (kind : RelationshipKind) (target : NodeKind) :
    ℕ :=
  t.relationships.countP (isWorkEdge r.workRevisionId kind target)

/-- The bytes of stored work in a page. -/
def storedWorkSize (t : Tables) (r : WorkItemRow × WorkRevisionRow) : ℕ :=
  bytesSize 1 36 + bytesSize 2 36 + numberSize 3 (workKindResponse r.1.kind).number +
    bytesSize 4 r.1.code.text.byteLength + numberSize 5 r.1.revision +
    numberSize 6 (r.1.createdAt.seconds % 2 ^ 64).toNat + numberSize 7 r.1.createdAt.nanos +
    numberSize 8 (r.1.updatedAt.seconds % 2 ^ 64).toNat + numberSize 9 r.1.updatedAt.nanos +
    numberSize 10 r.1.creationCommitSequence + bytesSize 11 36 + numberSize 12 r.2.sequence +
    numberSize 13 1 + bytesSize 14 r.2.specificationJson.length + bytesSize 15 32 +
    edgeCount t r.2 .workSubject .subject * dataSize 16 36 +
    edgeCount t r.2 .workAsset .asset * dataSize 17 36

/-- The endpoint of a page and the key it starts behind: those of its cursor,
if the endpoint is a key, or the largest key and zero. -/
def pageBounds (libraryId : BitVec 128) (kind : CreativeCursorKind) (keys : List ℕ)
    (cursor : Option Bytes) : Option (ℕ × ℕ) :=
  match CreativeQueryService.position libraryId cursor kind with
  | .error _ => none
  | .ok .first => some (keys.foldl max 0, 0)
  | .ok (.after _ endpoint lastKey _) => if endpoint ∈ keys then some (endpoint, lastKey) else none

/-- The bytes of a page of so many of the rows within its bounds. -/
def storedPageSize {α : Type} (number : ℕ) (key size : α → ℕ) (rows : List α) (pageSize : ℕ)
    (bounds : ℕ × ℕ) : ℕ :=
  let left := rowsWithin key bounds.2 bounds.1 rows
  dataSize number (numberSize 1 bounds.1 +
    ((left.take pageSize).map fun r => dataSize 2 (size r)).sum +
      if pageSize < left.length then dataSize 3 160 else 0)

/-- **The bytes of the page of projects or of work** that a query asks for, as
the stored rows give them; nothing where there is no such page. -/
def storedPageBytes (libraryId : BitVec 128) (t : Tables) : CreativeList → Option ℕ
  | .projects pageSize cursor =>
    if pageSize = 0 then none
    else
      (pageBounds libraryId .projects (t.projects.map ProjectRow.creationCommitSequence)
        cursor).map (storedPageSize 21 (fun r => r.1.creationCommitSequence) storedProjectSize
          (projectRows t) pageSize)
  | .work projectId pageSize cursor =>
    if pageSize = 0 ∨ ∀ p ∈ t.projects, p.projectId ≠ projectId then none
    else
      (pageBounds libraryId (.work projectId)
        ((t.workItems.filter fun w => w.projectId = projectId).map
          WorkItemRow.creationCommitSequence) cursor).map
        (storedPageSize 26 (fun r => r.1.creationCommitSequence) (storedWorkSize t)
          (workRows t projectId) pageSize)
  | .subjects .. | .takes .. => none

/-- A project takes the bytes of its rows. -/
theorem length_encode_projectResponse {r : ProjectRow × SpecRevisionRow} {view : ProjectView}
    (h : projectView numbers r = .ok view) :
    (encodeFields (projectResponse view).fields).length = storedProjectSize r := by
  unfold projectView at h
  obtain ⟨specification, hspec, h⟩ := exceptBind_eq_ok.1 h
  cases h
  obtain ⟨hpolicies, hresolution, hrate, haspect⟩ := projectSpecification_eq_ok hspec
  simp only [SpecRevisionRow.policies, List.map_cons, List.cons.injEq] at hpolicies
  simp only [projectResponse, CoreProto.ProjectView.fields, CoreProto.ProjectSpecView.fields,
    encodeFields_append, List.length_append, length_encode_textField, length_encode_varintField,
    int64Field, Option.toList_some, List.flatMap_singleton, length_encode_messageField,
    length_encode_optionalVarintField, length_encode_bytesField, Id.byteLength_toText,
    Digest.length_toBytes, hpolicies, hresolution, hrate, haspect, storedProjectSize,
    storedSpecSize, CoreProto.ProjectTrustValue.number]

theorem length_relationshipTargets {entity : Entity} {t : Tables} {source : Id .workRevision}
    {kind : RelationshipKind} {target : NodeKind} {ids : List (Id entity)}
    (h : relationshipTargets t source kind target 64 = .ok ids) :
    ids.length = t.relationships.countP (isWorkEdge source kind target) := by
  unfold relationshipTargets at h
  obtain ⟨hfew, h⟩ := refusal_eq_ok.1 h
  cases h
  simp only [List.length_map, List.length_take, sortedBy, List.length_insertionSort,
    List.countP_eq_length_filter] at hfew ⊢
  omega

/-- Work takes the bytes of its rows and its edges. -/
theorem length_encode_workResponse {t : Tables} {projectId : Id .project}
    {r : WorkItemRow × WorkRevisionRow} {view : WorkView}
    (h : workView numbers t projectId r = .ok view) :
    (encodeFields (workResponse view).fields).length = storedWorkSize t r := by
  unfold workView at h
  obtain ⟨subjects, hsubjects, h⟩ := exceptBind_eq_ok.1 h
  obtain ⟨assets, hassets, h⟩ := exceptBind_eq_ok.1 h
  obtain ⟨json, hjson, h⟩ := exceptBind_eq_ok.1 h
  split at h
  · cases h
  · rename_i specification hspecification
    cases h
    obtain ⟨hsame, hsubjectCount, hassetCount⟩ := WorkSpecification.new_eq_ok hspecification
    simp only [workResponse, CoreProto.WorkView.fields, encodeFields_append, List.length_append,
      length_encode_textField, length_encode_varintField, int64Field, length_encode_bytesField,
      length_encode_ids, Id.byteLength_toText, Digest.length_toBytes, hsame,
      storedSpecification_eq_ok hjson, hsubjectCount, hassetCount,
      length_relationshipTargets hsubjects, length_relationshipTargets hassets, storedWorkSize,
      edgeCount]

variable {α β γ : Type} {L : Listing α β} {t : Tables} {cursor : Option Bytes} {pageSize : ℕ}
  {position : CreativeListPosition}

/-- The bounds are those that the listing checks. -/
theorem pageBounds_eq_some {kind : CreativeCursorKind} {keys : List ℕ} {endpoint after : ℕ}
    (hposition : CreativeQueryService.position libraryId cursor kind = .ok position) :
    pageBounds libraryId kind keys cursor = some (endpoint, after) ↔
      listBounds libraryId position (keys.foldl max 0) = .ok (endpoint, after) ∧
        requireSnapshotEndpoint position (keys.contains endpoint) = .ok () := by
  unfold pageBounds
  rw [hposition]
  cases position with
  | first => simp [listBounds, requireSnapshotEndpoint]
  | after stored last key valid =>
    obtain rfl : stored = libraryId := by
      unfold CreativeQueryService.position at hposition
      split at hposition
      · cases hposition
      · cases hposition
      · have hencode := decodeCreativeCursor_eq_ok.1 hposition
        exact not_not.1 (refusal_eq_ok.1 hencode).1
    have hbelow : ¬ last ≤ key := by
      simp only [isCreativePosition, Bool.and_eq_true, decide_eq_true_eq] at valid
      omega
    simp only [listBounds, requireSnapshotEndpoint, ne_eq, not_true, false_or, if_neg hbelow,
      Except.ok.injEq, Prod.mk.injEq, Option.ite_none_right_eq_some, Option.some.injEq,
      List.contains_iff_mem]
    constructor
    · rintro ⟨hmem, rfl, rfl⟩
      exact ⟨⟨rfl, rfl⟩, if_pos hmem⟩
    · rintro ⟨⟨rfl, rfl⟩, hmem⟩
      by_cases h : last ∈ keys
      · exact ⟨h, rfl, rfl⟩
      · rw [if_neg h] at hmem
        cases hmem

/-- **A page that is answered has the bytes its stored rows give.** -/
theorem length_encode_answer {size : α → ℕ} {render : β → γ} {fields : γ → List RawField}
    (number : ℕ) (hrender : ∀ r item, L.view t r = .ok item →
      (encodeFields (fields (render item))).length = size r) {answer : CreativePageResponse β}
    (h : L.ask libraryId t pageSize cursor = .ok answer) :
    1 ≤ pageSize ∧ L.found t = true ∧
      (pageBounds libraryId L.kind ((L.entries t).map Prod.fst) cursor).map
          (storedPageSize number (fun r => (L.entry r).1) size (L.rows t) pageSize) =
        some (encodeFields (messageField number
          ((listResult answer (answer.page.items.map render)).fields fields))).length := by
  obtain ⟨query, rfl, hposition, hpage, hsome, hcursor⟩ := CreativeQueryService.list_eq_ok h
  unfold Listing.port at hpage
  obtain ⟨hfound, hpage⟩ := refusal_eq_ok.1 hpage
  obtain ⟨after, hbounds, hexists, hshows⟩ := listPage_eq_ok hpage
  refine ⟨query.bounded.1, by simpa using hfound, ?_⟩
  rw [(pageBounds_eq_some hposition).2 ⟨hbounds, hexists⟩, Option.map_some,
    length_encode_messageField, CoreProto.ListResult.length_encode]
  have hrows : (answer.page.items.map render).map (fun row =>
      dataSize 2 (encodeFields (fields row)).length) =
        ((rowsWithin (fun r => (L.entry r).1) after answer.page.snapshotEndpoint
          (L.rows t)).take query.pageSize).map fun r => dataSize 2 (size r) := by
    have hitems := hshows.items
    rw [take_collect] at hitems
    rw [List.map_map, ← List.forall₂_eq_eq_eq, List.forall₂_map_left_iff,
      List.forall₂_map_right_iff]
    exact (hitems.imp fun r item hview => congrArg (dataSize 2) (hrender r item hview)).flip
  have hnext : (answer.nextCursor.elim 0 fun bytes => dataSize 3 bytes.length) =
      if query.pageSize < (rowsWithin (fun r => (L.entry r).1) after
        answer.page.snapshotEndpoint (L.rows t)).length then dataSize 3 160 else 0 := by
    split
    · rename_i hmore
      obtain ⟨r, valid, -, hnext⟩ := hshows.more (lt_length_collect_iff.2 hmore)
      rw [hnext] at hsome
      obtain ⟨bytes, hbytes⟩ := Option.isSome_iff_exists.1 hsome
      rw [hbytes, Option.elim_some, hcursor bytes hbytes]
    · rename_i hfew
      have hlast := hshows.last (Nat.not_lt.1 fun hlt => hfew (lt_length_collect_iff.1 hlt))
      rw [hlast] at hsome
      have hnone : answer.nextCursor = none := by simpa using hsome
      rw [hnone]
      rfl
  simp only [listResult, hrows, hnext, storedPageSize]

/-- **A page with bounds is answered** in a library whose rows can be shown. -/
theorem exists_answer (hlibrary : libraryId ≠ 0) (hsound : L.Sound t) (hfound : L.found t = true)
    (hsize : 1 ≤ pageSize ∧ pageSize ≤ 64) {bounds : ℕ × ℕ}
    (h : pageBounds libraryId L.kind ((L.entries t).map Prod.fst) cursor = some bounds) :
    ∃ answer, L.ask libraryId t pageSize cursor = .ok answer := by
  obtain ⟨endpoint, after⟩ := bounds
  cases hposition : CreativeQueryService.position libraryId cursor L.kind with
  | error e => simp [pageBounds, hposition] at h
  | ok position =>
    obtain ⟨hbounds, hexists⟩ := (pageBounds_eq_some hposition).1 h
    have hrange : endpoint < 2 ^ 63 := by
      cases position with
      | first =>
        cases hbounds
        exact hsound.endpoint_lt
      | after stored last key valid =>
        obtain ⟨-, hbounds⟩ := refusal_eq_ok.1 hbounds
        cases hbounds
        simp only [isCreativePosition, Bool.and_eq_true, decide_eq_true_eq] at valid
        exact valid.1.1.2
    obtain ⟨answer, hanswer, -⟩ := Listing.exists_ask hlibrary hsound hfound hsize hposition hbounds
      hexists hrange
    exact ⟨answer, hanswer⟩

theorem work_found_iff {projectId : Id .project} : (workListing numbers projectId).found t = true ↔
    ¬ ∀ p ∈ t.projects, p.projectId ≠ projectId := by
  simp [workListing]

theorem map_fst_workEntries (projectId : Id .project) : (workEntries t projectId).map Prod.fst =
    (t.workItems.filter fun w => w.projectId = projectId).map
      WorkItemRow.creationCommitSequence := by
  rw [workEntries, List.map_map]
  rfl

theorem map_fst_projectEntries (numbers : JsonNumbers N) :
    ((projectListing numbers).entries t).map Prod.fst =
      t.projects.map ProjectRow.creationCommitSequence := by
  rw [projectListing, List.map_map]
  rfl

/-- **The response of a page of documents** has the bytes that the stored
rows give. -/
theorem storedPageBytes_eq {query : CreativeList}
    (h : answerCreativeList numbers libraryId t query = .ok response) :
    storedPageBytes libraryId t query =
      if query.isLarge then some response.encodedLen else none := by
  cases query with
  | projects pageSize cursor =>
    obtain ⟨answer, hanswer, h⟩ := exceptBind_eq_ok.1 h
    cases h
    rw [listProjects_eq] at hanswer
    obtain ⟨hsize, -, hbytes⟩ := length_encode_answer 21
      (fun r item hview => length_encode_projectResponse hview) hanswer
    rw [map_fst_projectEntries] at hbytes
    exact (if_neg (by omega)).trans hbytes
  | work projectId pageSize cursor =>
    obtain ⟨answer, hanswer, h⟩ := exceptBind_eq_ok.1 h
    cases h
    rw [listWork_eq] at hanswer
    obtain ⟨hsize, hfound, hbytes⟩ := length_encode_answer 26
      (fun r item hview => length_encode_workResponse hview) hanswer
    rw [show ((workListing numbers projectId).entries t).map Prod.fst = _ from
      map_fst_workEntries projectId] at hbytes
    exact (if_neg (not_or.2 ⟨by omega, work_found_iff.1 hfound⟩)).trans hbytes
  | subjects pageSize cursor => rfl
  | takes projectId workItemId workRevisionId pageSize cursor => rfl

/-- **Where the stored rows give a page, it is answered.** -/
theorem exists_answer_of_stored (hd : Reachable (Call.Parsed numbers) d) (hlibrary : libraryId ≠ 0)
    {query : CreativeList} (hsize : query.pageBound) {size : ℕ}
    (h : storedPageBytes libraryId d query = some size) :
    ∃ response, answerCreativeList numbers libraryId d query = .ok response := by
  cases query with
  | projects pageSize cursor =>
    obtain ⟨hpositive, h⟩ := Option.ite_none_left_eq_some.1 h
    obtain ⟨bounds, hbounds, -⟩ := Option.map_eq_some_iff.1 h
    rw [← map_fst_projectEntries numbers] at hbounds
    obtain ⟨answer, hanswer⟩ := exists_answer hlibrary (projectListing_sound hd) rfl
      ⟨Nat.pos_of_ne_zero hpositive, Nat.le_trans hsize (by decide)⟩
      hbounds
    rw [← listProjects_eq] at hanswer
    exact ⟨_, exceptBind_eq_ok.2 ⟨answer, hanswer, rfl⟩⟩
  | work projectId pageSize cursor =>
    obtain ⟨hpositive, h⟩ := Option.ite_none_left_eq_some.1 h
    obtain ⟨hpositive, hfound⟩ := not_or.1 hpositive
    obtain ⟨bounds, hbounds, -⟩ := Option.map_eq_some_iff.1 h
    rw [← map_fst_workEntries] at hbounds
    obtain ⟨answer, hanswer⟩ := exists_answer hlibrary (workListing_sound projectId hd)
      (work_found_iff.2 hfound) ⟨Nat.pos_of_ne_zero hpositive, Nat.le_trans hsize (by decide)⟩
      hbounds
    rw [← listWork_eq] at hanswer
    exact ⟨_, exceptBind_eq_ok.2 ⟨answer, hanswer, rfl⟩⟩
  | subjects pageSize cursor => cases h
  | takes projectId workItemId workRevisionId pageSize cursor => cases h

end StoredPages

end Responses

/-! ## Two large projects -/

section LongPolicies

variable {N : Type} {numbers : JsonNumbers N}

/-- The longest text a policy holds, without characters to escape. -/
def longText : Text :=
  List.replicate 8192 'a'

theorem escape_longText : longText.flatMap Json.escape = longText := by
  have hescape : Json.escape 'a' = ['a'] := by decide
  unfold longText
  generalize 8192 = n
  induction n with
  | zero => rfl
  | succ n ih =>
    rw [List.replicate_succ, List.flatMap_cons, ih, hescape]
    rfl

theorem byteLength_longText : longText.byteLength = 8192 := by
  rw [Text.byteLength, longText, List.map_replicate, List.sum_replicate]
  rfl

/-- A policy of one long text. -/
def longPolicy : Json N :=
  .object [(['p'], .string longText)]

theorem writeJson_longPolicy : numbers.writeJson (longPolicy : Json N) =
    ['\x7b', '"', 'p', '"', ':', '"'] ++ longText ++ ['"', '\x7d'] := by
  have hp : Json.escape 'p' = ['p'] := by decide
  unfold Json.NumberFormat.writeJson longPolicy
  simp only [Json.map, Json.mapFields, Json.writeText, Json.tokens, Json.fieldTokens,
    List.flatMap_cons, List.flatMap_nil, List.cons_append, List.nil_append, Json.Token.render,
    Json.quote, escape_longText, hp, List.append_nil, List.append_assoc]

theorem toVec_longPolicy : numbers.toVec (longPolicy : Json N) =
    [0x7b, 0x22, 0x70, 0x22, 0x3a, 0x22] ++ longText.utf8 ++ [0x22, 0x7d] := by
  unfold JsonNumbers.toVec
  rw [writeJson_longPolicy, Text.utf8, List.flatMap_append, List.flatMap_append]
  rfl

theorem length_toVec_longPolicy : (numbers.toVec (longPolicy : Json N)).length = 8200 := by
  rw [toVec_longPolicy, List.length_append, List.length_append, Text.length_utf8,
    byteLength_longText]
  rfl

theorem shape_longPolicy : isObjectShaped (numbers.toVec (longPolicy : Json N)) = true := by
  have hlength : 2 ≤ (numbers.toVec (longPolicy : Json N)).length := by
    rw [length_toVec_longPolicy]
    decide
  unfold isObjectShaped
  rw [decide_eq_true hlength, toVec_longPolicy, List.getLast?_append]
  rfl

variable (numbers) in
/-- The canonical form of the long policy. -/
def longJson : CanonicalJson where
  bytes := numbers.toVec longPolicy
  digest := ⟨sha256 (numbers.toVec longPolicy)⟩
  shape := shape_longPolicy

theorem length_longJson : (longJson numbers).bytes.length = 8200 :=
  length_toVec_longPolicy

theorem longJson_isCanonical : numbers.IsCanonical 65536 longPolicy (longJson numbers) where
  object := rfl
  sorted := by
    refine .object (List.pairwise_singleton _ _) fun field hfield => ?_
    rw [List.mem_singleton.1 hfield]
    exact .string _
  nodes := by simp [longPolicy, Json.nodeCount, Json.nodeCountFields]
  within := by
    have hkey : Text.byteLength ['p'] ≤ 64 ∧ isControl 'p' = false := by decide
    simpa [longPolicy, Json.within, Json.withinFields, JsonNumbers.limits, byteLength_longText]
      using hkey
  stable := by
    rw [Json.NumberFormat.readJson_writeJson]
    rfl
  bytes := rfl
  bounded := by
    rw [length_longJson]
    decide
  digest := rfl

variable [DecidableEq N]

/-- Four canonical policies make a specification. -/
theorem parseProjectSpecification_of_canonical {value : Json N} {json : CanonicalJson}
    (h : numbers.IsCanonical 65536 value json) :
    numbers.parseProjectSpecification none none none json.bytes json.bytes json.bytes json.bytes =
      .ok ⟨none, none, none, json, json, json, json,
        policyDigest [json.bytes, json.bytes, json.bytes, json.bytes]⟩ := by
  have hsum : ¬ 262144 < json.bytes.length + json.bytes.length + json.bytes.length +
      json.bytes.length := by
    have hlength := h.bounded.2
    omega
  have hparse : numbers.parseProjectPolicy json.bytes = .ok json := h.parse
  unfold JsonNumbers.parseProjectSpecification
  rw [if_neg hsum, hparse]
  rfl

variable (numbers) in
/-- Four long policies. -/
def longSpecification : ProjectSpecification :=
  ⟨none, none, none, longJson numbers, longJson numbers, longJson numbers, longJson numbers,
    policyDigest [(longJson numbers).bytes, (longJson numbers).bytes, (longJson numbers).bytes,
      (longJson numbers).bytes]⟩

theorem longSpecification_parsed : (longSpecification numbers).Parsed numbers :=
  ⟨_, _, _, _, parseProjectSpecification_of_canonical longJson_isCanonical⟩

omit [DecidableEq N] in
/-- A stored project with four long policies. -/
theorem storedProjectSize_long {k : ℕ} (h : k < 2) :
    storedProjectSize (nthProject (longSpecification numbers) k,
      nthSpec (longSpecification numbers) k) = 32939 := by
  simp only [storedProjectSize, storedSpecSize, nthProject, nthSpec, newProjectRow,
    specRevisionRow, longSpecification, length_longJson, CreateProjectCommand.wide]
  obtain rfl | rfl : k = 0 ∨ k = 1 := by omega
  · rfl
  · rfl

/-- The first page of a library of two projects. -/
theorem storedPageBytes_two {specification : ProjectSpecification} {t : Tables}
    (hprojects : t.projects = (List.range 2).map (nthProject specification))
    (hspecs : t.specRevisions = (List.range 2).map (nthSpec specification)) :
    storedPageBytes 1 t (.projects 3 none) = some (dataSize 21 (numberSize 1 2 +
      ((List.range 2).map fun k => dataSize 2 (storedProjectSize
        (nthProject specification k, nthSpec specification k))).sum)) := by
  have hrows : CreativeQuery.projectRows t =
      (List.range 2).map fun k => (nthProject specification k, nthSpec specification k) := by
    unfold CreativeQuery.projectRows
    rw [hprojects, hspecs]
    rfl
  unfold storedPageBytes
  rw [hprojects, hrows]
  rfl

/-- **A reachable library of two projects** whose page takes more than 64 KiB.
Each of them was created by a request of less than that. -/
theorem exists_two_projects : ∃ d, Reachable (Call.Parsed numbers) d ∧
    storedPageBytes 1 d (.projects 3 none) = some 65893 := by
  obtain ⟨d, hd⟩ := @exists_holdsProjects 2 (Call.Parsed numbers) (longSpecification numbers)
    (by decide) (fun _ => longSpecification_parsed) (by
      intro p hp
      obtain rfl : p = (longJson numbers).bytes := by simpa [longSpecification] using hp
      rw [length_longJson]
      decide)
  have hsizes : (List.range 2).map (fun k => dataSize 2 (storedProjectSize
      (nthProject (longSpecification numbers) k, nthSpec (longSpecification numbers) k))) =
        (List.range 2).map fun _ => dataSize 2 32939 :=
    List.map_congr_left fun k hk => by rw [storedProjectSize_long (List.mem_range.1 hk)]
  refine ⟨d, hd.reachable, ?_⟩
  rw [storedPageBytes_two hd.projects hd.specs, hsizes]
  rfl

/-- The page of that library is handed to the writer. -/
theorem exists_served_page {d : Database} (hd : Reachable (Call.Parsed numbers) d)
    {size : ℕ} (h : storedPageBytes 1 d (.projects 3 none) = some size) :
    ∃ response, serveCreativeQuery numbers 1 d 60000 (.wide 9) none
        (.listProjects 3 [] 1000) = .ok (response, none) ∧ response.encodedLen = size := by
  have hbounded : (CreativeList.projects 3 none).pageBound := Nat.le_refl 3
  obtain ⟨response, hpage⟩ := exists_answer_of_stored hd (by decide) hbounded h
  have hdecode : decodeCreativeList 60000 (.listProjects 3 [] 1000) = .ok (.projects 3 none) := rfl
  refine ⟨response, ?_, Option.some.inj ((storedPageBytes_eq hpage).symm.trans h)⟩
  unfold serveCreativeQuery
  rw [hdecode]
  simp only [Option.elim_none, hpage,
    boundTask009Response_of_le (answer_encodedLen_le hbounded hpage).1]
  rfl

end LongPolicies

/-! ## Frames -/

section Frames

variable {N : Type} [DecidableEq N] {numbers : JsonNumbers N} {libraryId : BitVec 128}
  {d : Database} {maximumTimeout : ℕ} {correlation : Uuid} {interruption : Option AssetStoreError}
  {request : CreativeListRequest} {response : CoreProto.CreativeListResponse}
  {fatal : Option ErrorCode}

variable (libraryId maximumTimeout interruption request) in
/-- The stored rows of the page of projects or of work that a request asks
for, if it decodes and is not interrupted, take no more than the frame. -/
def StoredPageFits (t : Tables) (limit : FrameLimit) : Prop :=
  ∀ query, decodeCreativeList maximumTimeout request = .ok query → interruption = none →
    ∀ size ∈ storedPageBytes libraryId t query, size ≤ limit.bytes

/-- **When the response fits its frame.** In a reachable library the response
is within the frame limit, and the frame is written, exactly when the stored
rows of the page of projects or work take no more; pages of subjects and
takes and errors always fit, and every response does under a frame limit of
one mebibyte or more. -/
theorem query_response_fits_iff (hd : Reachable (Call.Parsed numbers) d) (hlibrary : libraryId ≠ 0)
    (limit : FrameLimit)
    (h : serveCreativeQuery numbers libraryId d.toTables maximumTimeout correlation interruption
      request = .ok (response, fatal)) :
    (response.encodedLen ≤ limit.bytes ↔
        StoredPageFits libraryId maximumTimeout interruption request d.toTables limit) ∧
      ((∃ bytes, writeFrame limit response.encode = .ok bytes) ↔
        StoredPageFits libraryId maximumTimeout interruption request d.toTables limit) ∧
      (maxResponseBytes ≤ limit.bytes → response.encodedLen ≤ limit.bytes) := by
  have hlimit := limit.range.1
  have hfits : response.encodedLen ≤ limit.bytes ↔
      StoredPageFits libraryId maximumTimeout interruption request d.toTables limit := by
    rcases serveCreativeQuery_cases h with ⟨hle, hnone⟩ | ⟨query, hdecode, hrun, hpage⟩
    · -- An error is handed over: the stored rows then give no page.
      refine iff_of_true (by omega) fun query hquery hrun size hstored => ?_
      obtain ⟨page, hpage⟩ :=
        exists_answer_of_stored hd hlibrary (pageBound_of_decode hquery) hstored
      exact absurd hpage (hnone query hquery hrun page)
    · have hstored := storedPageBytes_eq hpage
      constructor
      · intro hle query' hquery _ size hsize
        rw [hdecode] at hquery
        cases hquery
        rw [hstored] at hsize
        obtain ⟨-, hsize⟩ := Option.ite_none_right_eq_some.1 hsize
        cases hsize
        exact hle
      · intro hall
        cases hkind : query.isLarge with
        | true => exact hall query hdecode hrun _ (by rw [hstored, hkind]; rfl)
        | false =>
          exact Nat.le_trans
            ((answer_encodedLen_le (pageBound_of_decode hdecode) hpage).2 hkind) hlimit
  have hframe := @writeFrame_isOk_iff response.encode limit
    (List.ne_nil_of_length_pos response.encodedLen_pos)
  refine ⟨hfits, hframe.trans hfits, fun hmax => ?_⟩
  rcases serveCreativeQuery_cases h with ⟨hle, -⟩ | ⟨query, hdecode, -, hpage⟩
  · omega
  · exact Nat.le_trans (answer_encodedLen_le (pageBound_of_decode hdecode) hpage).1 hmax

end Frames

/-- A frame of 128 KiB carries the page of two large projects. -/
theorem two_projects_framed : ∃ d, Reachable (Call.Parsed .verbatim) d ∧ ∃ response,
    serveCreativeQuery .verbatim 1 d.toTables 60000 (.wide 9) none (.listProjects 3 [] 1000) =
        .ok (response, none) ∧
      ∃ bytes, writeFrame ⟨131072, by decide⟩ response.encode = .ok bytes := by
  obtain ⟨d, hd, hstored⟩ := @exists_two_projects _ .verbatim _
  obtain ⟨response, hserve, -⟩ := exists_served_page hd hstored
  refine ⟨d, hd, response, hserve, (query_response_fits_iff hd (by decide) _ hserve).2.1.2 ?_⟩
  rintro query hquery - size hsize
  obtain rfl : CreativeList.projects 3 none = query := Except.ok.inj hquery
  rw [hstored] at hsize
  cases hsize
  decide

/-- **A page that no frame carries.** The least frame limit refuses the page
of two large projects that is handed to the writer. -/
theorem two_projects_not_framed : ∃ d, Reachable (Call.Parsed .verbatim) d ∧ ∃ response,
    serveCreativeQuery .verbatim 1 d.toTables 60000 (.wide 9) none (.listProjects 3 [] 1000) =
        .ok (response, none) ∧
      FrameLimit.least.bytes < response.encodedLen ∧
      writeFrame .least response.encode = .error .invalidLength := by
  obtain ⟨d, hd, hstored⟩ := @exists_two_projects _ .verbatim _
  obtain ⟨response, hserve, hsize⟩ := exists_served_page hd hstored
  have hlarge : FrameLimit.least.bytes < response.encodedLen := by
    rw [hsize]
    decide
  exact ⟨d, hd, response, hserve, hlarge, if_pos (Or.inr hlarge)⟩

end MengXia.Daemon
