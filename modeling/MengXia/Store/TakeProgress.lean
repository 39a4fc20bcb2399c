
import MengXia.Store.TakeResults
/-!
# When a transition is settled

The total counterpart of the step lemmas for `transition_take`. A fresh
transition with fresh identifiers meets every constraint of the schema but
one: a take has at most one outgoing `TAKE_SUPERSEDES` edge, and nothing in
the checks of the transition asks whether it already has it.
-/

namespace MengXia.Store

open Common Txn

variable {binding : CommandBinding}

/-! ## Statements -/

section Statements

variable {d : Database} {E : AssetStoreError → Prop}

variable {at_ : Timestamp}

/-- Whether a take supersedes another one. -/
def Supersedes (t : Tables) (take : Id .take) : Prop :=
  ∃ r ∈ t.relationships, r.isTakeEdge .takeSupersedes = true ∧ r.sourceId = take.uuid

/-- **A new supersedes edge fits exactly when its source supersedes nothing
yet.** -/
theorem takeEdgeRow_fits_iff {relationshipId : Id .relationship} {source target : Id .take}
    (hid : ∀ x ∈ d.relationships, x.relationshipId ≠ relationshipId) (hne : source ≠ target)
    (hcommand : ∃ x ∈ d.commands, x.commandId = binding.commandId) :
    (takeEdgeRow relationshipId .takeSupersedes source target binding at_).Fits d ↔
      ¬ Supersedes d source := by
  have hreopens : (takeEdgeRow relationshipId .takeSupersedes source target binding
      at_).isTakeEdge .takeReopens = false := rfl
  have hsupersedes : (takeEdgeRow relationshipId .takeSupersedes source target binding
      at_).isTakeEdge .takeSupersedes = true := rfl
  unfold RelationshipRow.Fits Supersedes
  simp only [List.filter_append, List.filter_cons, hreopens, hsupersedes, List.filter_nil,
    Bool.false_eq_true, if_false, if_true, List.append_nil, distinct_append_singleton]
  constructor
  · rintro ⟨-, -, -, -, ⟨-, hfree⟩, -⟩ ⟨r, hr, hedge, hsource⟩
    exact hfree r (List.mem_filter.2 ⟨hr, hedge⟩) hsource
  · intro hfree
    refine ⟨hid, fun x hx hedge => hfree ⟨x, hx, ?_⟩, Or.inl fun h => hne (Id.uuid_injective h),
      d.consistent.relationshipReopens, ⟨d.consistent.relationshipSupersedes, fun x hx h =>
        hfree ⟨x, (List.mem_filter.1 hx).1, (List.mem_filter.1 hx).2, h⟩⟩, hcommand⟩
    simp only [RelationshipRow.edge, takeEdgeRow, Prod.mk.injEq] at hedge
    simp [RelationshipRow.isTakeEdge, hedge.1, hedge.2.1, hedge.2.2.1]

/-- The edge is stored, or its source supersedes a take already. -/
theorem wp_insertSupersedes {Q : Unit → Database → Prop} {relationshipId : Id .relationship}
    {source target : Id .take} (hid : ∀ x ∈ d.relationships, x.relationshipId ≠ relationshipId)
    (hne : source ≠ target) (hcommand : ∃ x ∈ d.commands, x.commandId = binding.commandId)
    (htaken : Supersedes d source → E .internal)
    (hfree : ¬ Supersedes d source → ∀ d' : Database, d'.toTables = { d.toTables with
        relationships := d.relationships ++
          [takeEdgeRow relationshipId .takeSupersedes source target binding at_] } → Q () d') :
    wp (insertRelationshipRow
      (takeEdgeRow relationshipId .takeSupersedes source target binding at_)) Q E d := by
  have hfits : (takeEdgeRow relationshipId .takeSupersedes source target binding at_).Fits
      d ↔ ¬ Supersedes d source := takeEdgeRow_fits_iff hid hne hcommand
  refine wp_write_of ?_ fun d' hd' hguard => hfree (hfits.1 hguard) d' hd'
  by_cases h : Supersedes d source
  · exact Or.inr (htaken h)
  · exact Or.inl (hfits.2 h)

/-- A rejection right after the claim. -/
theorem wp_reject {d1 : Database} {context : StoreContext} {code : ErrorCode}
    {Q : MutationOutcome → Database → Prop} (hkeys : DeferredKeys d)
    (hfresh : FreshCommand d binding.commandId)
    (h1 : d1.toTables = { d.toTables with
      commands := d.commands ++ [claimRow context binding at_] })
    (hQ : ∀ d' : Database, d'.relationships = d.relationships → Q (.terminalRejected code) d') :
    wp (commitRejection binding code at_) Q E d1 :=
  wp_commitRejection (by rw [h1]) hfresh
    (Or.inl (by rw [h1]; exact { hkeys with })) fun d' h' =>
      hQ d' (by rw [h', h1])

end Statements

/-! ## Known commands -/

/-- **A known take command is replayed or refused**: its row is settled and
its result is still recorded. -/
theorem replayExisting_take {d : Database} (hvalid : LedgerValid d)
    (hrecorded : TakesRecorded d) (context : StoreContext)
    (hop : isTakeOperation binding.operationId = true)
    (hknown : ¬ FreshCommand d binding.commandId) :
    (∃ result, replayExisting d context binding .take = .ok (some (.replay result))) ∨
      (∃ code, replayExisting d context binding .take =
        .ok (some (.terminalRejected code))) ∨
      (replayExisting d context binding .take = .error .conflict ∧
        ∃ r ∈ d.commands, r.commandId = binding.commandId ∧
          bindingMatches r binding context.ownerUid = false) := by
  obtain ⟨r, hr, hid⟩ : ∃ r ∈ d.commands, r.commandId = binding.commandId := by
    unfold FreshCommand at hknown
    push Not at hknown
    exact hknown
  have hread := readCommand_of_mem hr hid
  cases hmatch : bindingMatches r binding context.ownerUid with
  | false => exact Or.inr (Or.inr ⟨replayExisting_conflict hread hmatch, r, hr, hid, hmatch⟩)
  | true =>
    have hbound : Bound d binding context.ownerUid r := ⟨hr, hmatch⟩
    rw [← hbound.operation] at hop
    have hmatrix := (hvalid r hr).2
    cases hstate : r.state with
    | claimed =>
      simp [knownCommandMatrix, hstate, isExternal_of_isTakeOperation hop] at hmatrix
    | recoveryRequired =>
      obtain ⟨code, -, hcode⟩ : ∃ code, r.safeErrorCode = some code ∧
          isRecoveryCodeOf r.operationId code = true := by
        simpa [knownCommandMatrix, hstate, Option.any_eq_true] using hmatrix
      cases hoperation : r.operationId <;> rw [hoperation] at hop hcode <;> cases hop <;>
        cases hcode
    | terminalRejected =>
      obtain ⟨code, hcode, -⟩ : ∃ code, r.safeErrorCode = some code ∧
          isTerminalCodeOf r.operationId code = true := by
        simpa [knownCommandMatrix, hstate, Option.any_eq_true] using hmatrix
      exact Or.inr (Or.inl ⟨code, replayExisting_of_bound hbound hvalid
        (replayPure_eq_rejected.2 ⟨hstate, hcode⟩)⟩)
    | completed =>
      obtain ⟨result, hresult⟩ := hrecorded r hr hstate hop
      have hkind : resultKindOf r.operationId = .take := by
        cases hoperation : r.operationId <;> rw [hoperation] at hop <;> first | rfl | cases hop
      exact Or.inl ⟨result, replayExisting_of_bound hbound hvalid
        (hkind ▸ replayPure_applied (hvalid r hr) hstate hresult)⟩

/-! ## The transition -/

/-- The payload values of a transition are short. -/
theorem transitionPayload_short (request : TransitionTakeCommand) (related : Option (Id .take)) :
    ∀ v ∈ transitionPayload request related, v ≠ [] ∧ v.length ≤ 2045 := by
  intro v hv
  have huuid : ∀ id : Id .take, id.uuid.toBytes ≠ [] ∧ id.uuid.toBytes.length ≤ 2045 := by
    intro id
    rw [← List.length_pos_iff_ne_nil, Uuid.length_toBytes]
    decide
  unfold transitionPayload at hv
  split at hv
  · cases hv
  · cases hv
  · obtain ⟨id, -, rfl⟩ := Option.map_eq_some_iff.1 hv
    exact huuid id
  · obtain ⟨id, -, rfl⟩ := Option.map_eq_some_iff.1 hv
    exact huuid id
  · obtain ⟨reason, -, rfl⟩ := Option.map_eq_some_iff.1 hv
    have hreason := reason.valid
    simp only [validateText, Bool.and_eq_true, Bool.not_eq_true', decide_eq_true_eq] at hreason
    have hlength := Text.length_utf8 reason.text
    have hpositive : 0 < reason.text.byteLength := by
      cases htext : reason.text with
      | nil => simp [htext] at hreason
      | cons c rest =>
        simp only [Text.byteLength, List.map_cons, List.sum_cons]
        exact Nat.add_pos_left c.utf8Size_pos _
    rw [← List.length_pos_iff_ne_nil]
    omega

/-- The three identifiers of a draw are fresh for the two tables they are
written to. -/
structure TransitionDraw.Fresh (draw : TransitionDraw) (t : Tables) : Prop where
  first : ∀ x ∈ t.domainEvents, x.domainEventId ≠ draw.firstEvent
  second : ∀ x ∈ t.domainEvents, x.domainEventId ≠ draw.secondEvent
  relationship : ∀ x ∈ t.relationships, x.relationshipId ≠ draw.relationshipId

theorem drawTransition_distinct {source : ValueSource} {draw : TransitionDraw}
    (h : drawTransition source = .ok draw) : draw.firstEvent ≠ draw.secondEvent := by
  unfold drawTransition at h
  obtain ⟨first, -, h⟩ := exceptBind_eq_ok.1 h
  obtain ⟨second, -, h⟩ := exceptBind_eq_ok.1 h
  obtain ⟨relationship, -, h⟩ := exceptBind_eq_ok.1 h
  obtain ⟨_, hdistinct, h⟩ := exceptBind_eq_ok.1 h
  obtain ⟨at_, -, h⟩ := exceptBind_eq_ok.1 h
  obtain ⟨_, -, h⟩ := exceptBind_eq_ok.1 h
  cases h
  intro heq
  simp only at heq
  simp [distinct, heq] at hdistinct

/-- The take that a transition makes the source of a supersedes edge. -/
def Involvement.edgeSource (request : TransitionTakeCommand) : Involvement → Option (Id .take)
  | .alone => none
  | .replacing _ _ _ => some request.takeId
  | .supersededBy replacement => some replacement

/-- The take that a transition would make the source of a supersedes edge
is the source of one already. -/
def EdgeTaken (t : Tables) (request : TransitionTakeCommand) : Prop :=
  ∃ take target second, TransitionAdmitted t request take target second ∧
    ∃ source, second.edgeSource request = some source ∧ Supersedes t source

theorem not_edgeTaken {t : Tables} {request : TransitionTakeCommand}
    (h : ∀ take target second, ¬ TransitionAdmitted t request take target second) :
    ¬ EdgeTaken t request := by
  rintro ⟨take, target, second, hadmitted, -⟩
  exact h take target second hadmitted

section Transition

variable {d d1 : Database} {context : StoreContext} {request : TransitionTakeCommand}
  {draw : TransitionDraw} {take : TakeRow} {target : TakeState} {second : Involvement}
  {sequence : ℕ} {E : AssetStoreError → Prop}

/-- The end of a transition: the take is moved and its result read back. -/
theorem wp_moveTake {commands : List CommandRow}
    (hmem : take ∈ d1.takes) (hid : take.takeId = request.takeId)
    (htarget : target = request.transition.target)
    (hother : target = .selected → ∀ x ∈ d1.takes, x.takeId ≠ request.takeId →
      x.workRevisionId = take.workRevisionId → x.state ≠ .selected)
    (h1 : d1.commands = commands ++ [claimRow context request.binding draw.at_])
    (hfresh : ∀ r ∈ commands, r.commandId ≠ request.binding.commandId)
    (hkeys : DeferredKeys d1)
    (hevent : ∀ x ∈ d1.domainEvents, x.domainEventId ≠
      (if second.eventCount = 2 then draw.secondEvent else draw.firstEvent))
    (hsequence : ∀ x ∈ d1.domainEvents, x.commitSequence ≠
      (if second.eventCount = 2 then sequence + 1 else sequence))
    (hbound : 1 ≤ sequence ∧ sequence + second.eventCount ≤ 2 ^ 63)
    (hnone : ∀ x ∈ d1.domainEvents, x.commandId = request.binding.commandId →
      x.eventType ≠ transitionEvent request.transition)
    (hedge : ∀ t : Tables, t.relationships = d1.relationships → takeEdgeRecorded t
      ((claimRow context request.binding draw.at_).complete .take request.takeId.uuid none
        (some (.take (take.revision + 1) take.ordinal target take.primaryAssetId second.related))
        draw.at_) request.takeId.uuid target second.related = true) :
    wp (moveTake request draw take target (take.revision + 1) second sequence)
      (fun outcome d' => (∃ result, outcome = .applied result) ∧
        d'.relationships = d1.relationships) E d1 := by
  have hcommand : ∃ x ∈ d1.commands, x.commandId = request.binding.commandId := by
    rw [h1]
    exact ⟨_, List.mem_concat_self, rfl⟩
  unfold moveTake
  rw [wp_bind]
  refine wp_updateTakes hmem hid (by simp +contextual) (by simp [hid]) (Or.inl hother)
    fun d2 h2 => ?_
  rw [if_neg (by simp), wp_bind]
  have hnumber : 1 ≤ (if second.eventCount = 2 then sequence + 1 else sequence) ∧
      (if second.eventCount = 2 then sequence + 1 else sequence) < 2 ^ 63 := by
    have := second.one_le_eventCount
    split <;> omega
  refine wp_insertPayloadEvent (Or.inl ⟨by rw [h2]; exact hevent, by rw [h2]; exact hsequence,
    hnumber, transitionPayload_short request _, by rw [h2]; exact hcommand⟩) fun d3 payload h3 => ?_
  have hmoved : take.move target (take.revision + 1) draw.at_ ∈ d3.takes := by
    rw [h3, h2]
    exact mem_updateWhere.2 ⟨take, hmem, by simp [hid]⟩
  have hop : takeReplayEvent request.binding.operationId target =
      some (transitionEvent request.transition) := by
    rw [request.operation, htarget]
    cases request.transition <;> rfl
  have hreplay := (takeRecorded_complete (t := { d3.toTables with
    commands := commands ++ [(claimRow context request.binding draw.at_).complete .take
      request.takeId.uuid none (some (.take (take.revision + 1) take.ordinal target
        take.primaryAssetId second.related)) draw.at_] }) context hmoved hid rfl rfl
    (Nat.succ_pos _) le_rfl hop (by rw [h3, h2]) hnone (hedge _ (by rw [h3, h2]))).replay
    d3.consistent.takeKeys
  exact wp_completeClaim (by rw [h3, h2]; exact h1) hfresh rfl (fun k hk => by cases hk)
    (valid_complete (by rw [request.operation]; rfl) rfl).validate
    (by rw [h3, h2]; exact { hkeys with }) hreplay fun d' h' =>
      ⟨⟨_, rfl⟩, by rw [h', h3, h2]⟩

/-- A select that replaces nothing finds no other selected take. -/
theorem involvement_alone {t : Tables} (h : involvement t request = .ok .alone)
    (hselect : request.transition = .select) :
    selectedOther t request.workRevisionId request.takeId = none := by
  unfold involvement at h
  rw [hselect] at h
  simp only at h
  split at h
  · assumption
  · split_ifs at h
    split at h <;> cases h
  · cases h

/-- The writes of an admitted transition: they fit the schema unless the
edge they need is taken. -/
theorem wp_writeTransition (hadmitted : TransitionAdmitted d request take target second)
    (hdraw : draw.Fresh d) (hdistinct : draw.firstEvent ≠ draw.secondEvent)
    (hevents : EventsNumbered d) (hkeys : DeferredKeys d)
    (h1 : d1.toTables = { d.toTables with
      commands := d.commands ++ [claimRow context request.binding draw.at_]
      lastSequence := d.lastSequence + second.eventCount }) :
    wp (writeTransition request draw take target (take.revision + 1) second
      (d.lastSequence + 1))
      (fun outcome d' => (¬ ∃ source, second.edgeSource request = some source ∧
        Supersedes d source) ∧ (∃ result, outcome = .applied result) ∧
          (second.edgeSource request ≠ none → d'.relationships ≠ d.relationships))
      (fun e => (∃ source, second.edgeSource request = some source ∧
        Supersedes d source) ∧ e = .internal) d1 := by
  obtain ⟨hmem, hid, hplace⟩ := readTake_eq_some hadmitted.read
  have htarget := TakeState.transition_ok hadmitted.transition
  have hleft := hadmitted.sequences
  have hkeys1 : DeferredKeys d1 := by
    rw [h1]
    exact { hkeys with }
  have hcommand : ∃ x ∈ d1.commands, x.commandId = request.binding.commandId := by
    rw [h1]
    exact ⟨_, List.mem_concat_self, rfl⟩
  have hnext : ∀ x ∈ d.domainEvents, x.commitSequence < d.lastSequence + 1 := fun x hx =>
    Nat.lt_succ_of_le (hevents.le hx)
  have hnoEvent : ∀ x ∈ d.domainEvents, x.commandId ≠ request.binding.commandId := fun x hx =>
    d.consistent.eventCommands.ne_of_fresh hadmitted.command hx
  have hnoEdge : ∀ x ∈ d.relationships, x.createdByCommandId ≠ request.binding.commandId :=
    fun x hx => d.consistent.relationshipCommands.ne_of_fresh hadmitted.command hx
  unfold writeTransition
  rw [wp_bind]
  cases second with
  | alone =>
    unfold writeInvolvement
    rw [wp_pure]
    refine wp_mono (wp_moveTake (by rw [h1]; exact hmem) hid htarget (fun hselected x hx hne
      hwork hstate => ?_) (by rw [h1]) hadmitted.command hkeys1 (by rw [h1]; exact hdraw.first)
      (by rw [h1]; exact fun x hx => (hnext x hx).ne) ⟨Nat.succ_pos _, ?_⟩
      (by rw [h1]; exact fun x hx h => absurd h (hnoEvent x hx)) fun t ht => ?_)
      (fun _ _ h => ⟨?_, h.1, fun hsource => absurd rfl hsource⟩) fun _ h => h
    · have hselect : request.transition = .select := by
        rw [hselected] at htarget
        cases htransition : request.transition <;> rw [htransition] at htarget <;>
          first | rfl | cases htarget
      have hnone := List.find?_eq_none.1 (involvement_alone hadmitted.involved hselect) x
        (by rw [h1] at hx; exact hx)
      simp [hwork, hplace, hstate, hne] at hnone
    · simp only [Involvement.eventCount] at hleft ⊢
      omega
    · simp [takeEdgeRecorded, CommandRow.complete, claimRow, request.operation,
        Involvement.related]
    · rintro ⟨_, hsource, -⟩
      cases hsource
  | replacing other revision next =>
    obtain ⟨hselect, rfl, hotherRoom, selected, hother, rfl, rfl, hstate, hotherPlace, hne⟩ :=
      involvement_replacing hadmitted.involved
    have hselected : target = .selected := by
      rw [htarget, hselect]
      rfl
    unfold writeInvolvement
    rw [wp_bind]
    refine wp_updateTakes (by rw [h1]; exact hother) rfl (by simp +contextual)
      (by simp [hstate]) (Or.inl fun h => by cases h) fun d2 h2 => ?_
    rw [if_neg (by simp), wp_bind]
    refine wp_insertPayloadEvent (Or.inl ⟨by rw [h2, h1]; exact hdraw.first,
      by rw [h2, h1]; exact fun x hx => (hnext x hx).ne, ⟨Nat.succ_pos _, ?_⟩, fun v hv => ?_,
      by rw [h2]; exact hcommand⟩) fun d3 payload h3 => ?_
    · simp only [Involvement.eventCount] at hleft
      omega
    · obtain rfl := Option.some_inj.1 (Option.mem_def.1 hv)
      rw [← List.length_pos_iff_ne_nil, Uuid.length_toBytes]
      decide
    refine wp_insertSupersedes (by rw [h3, h2, h1]; exact hdraw.relationship) hne.symm
      (by rw [h3, h2]; exact hcommand)
      (fun h => ⟨⟨_, rfl, by rw [h3, h2, h1] at h; exact h⟩, rfl⟩) fun hfree d4 h4 => ?_
    have hmem4 : take ∈ d4.takes := by
      rw [h4, h3, h2, h1]
      exact mem_updateWhere.2 ⟨take, hmem, if_neg (by simpa [hid] using hne.symm)⟩
    refine wp_mono (wp_moveTake hmem4 hid htarget (fun _ x hx hxid hwork hxstate => ?_)
      (by rw [h4, h3, h2, h1]) hadmitted.command
      (by rw [h4, h3, h2]; exact { hkeys1 with }) ?_ ?_
      ⟨Nat.succ_pos _, ?_⟩ ?_ fun t ht => ?_)
      (fun _ _ h => ⟨?_, h.1, fun _ => by rw [h.2, h4, h3, h2, h1]; simp⟩) fun _ h => h
    · rw [h4, h3, h2, h1] at hx
      rcases mem_updateWhere_iff.1 hx with ⟨y, -, -, rfl⟩ | ⟨hx, hxother⟩
      · cases hxstate
      · have hone := d.consistent.takeOneSelected.eq_of_mem
          (List.mem_filter.2 ⟨hx, decide_eq_true hxstate⟩)
          (List.mem_filter.2 ⟨hother, decide_eq_true hstate⟩)
          (hwork.trans (hplace.trans hotherPlace.symm))
        exact absurd (congrArg TakeRow.takeId hone) (of_decide_eq_false hxother)
    · rw [h4, h3, h2, h1]
      exact List.forall_mem_append.2 ⟨hdraw.second,
        by simpa [domainEventRow, Involvement.eventCount] using hdistinct⟩
    · rw [h4, h3, h2, h1]
      exact List.forall_mem_append.2 ⟨fun x hx => ((hnext x hx).trans (Nat.lt_succ_self _)).ne,
        by simp [domainEventRow, Involvement.eventCount]⟩
    · simp only [Involvement.eventCount] at hleft ⊢
      omega
    · rw [h4, h3, h2, h1, hselect]
      exact List.forall_mem_append.2 ⟨fun x hx h => absurd h (hnoEvent x hx),
        by simp [domainEventRow, transitionEvent]⟩
    · rw [hselected]
      simp only [takeEdgeRecorded, CommandRow.complete, claimRow, request.operation,
        Involvement.related]
      exact decide_eq_true (takeEdgeCount_concat (by rw [ht, h4, h3, h2, h1]) hnoEdge)
    · rintro ⟨_, hsource, hsuper⟩
      obtain rfl := Option.some_inj.1 hsource
      rw [h3, h2, h1] at hfree
      exact hfree hsuper
  | supersededBy other =>
    obtain ⟨hsupersede, -, replacement, hother, rfl, hotherPlace, hne⟩ :=
      involvement_supersededBy hadmitted.involved
    unfold writeInvolvement
    refine wp_insertSupersedes (by rw [h1]; exact hdraw.relationship) hne hcommand
      (fun h => ⟨⟨_, rfl, by rw [h1] at h; exact h⟩, rfl⟩) fun hfree d2 h2 => ?_
    refine wp_mono (wp_moveTake (by rw [h2, h1]; exact hmem) hid htarget ?_
      (by rw [h2, h1]) hadmitted.command
      (by rw [h2]; exact { hkeys1 with })
      (by rw [h2, h1]; exact hdraw.first)
      (by rw [h2, h1]; exact fun x hx => (hnext x hx).ne) ⟨Nat.succ_pos _, ?_⟩
      (by rw [h2, h1]; exact fun x hx h => absurd h (hnoEvent x hx)) fun t ht => ?_)
      (fun _ _ h => ⟨?_, h.1, fun _ => by rw [h.2, h2, h1]; simp⟩) fun _ h => h
    · intro hselected
      rw [htarget, hsupersede] at hselected
      cases hselected
    · simp only [Involvement.eventCount] at hleft ⊢
      omega
    · rw [htarget, hsupersede]
      simp only [takeEdgeRecorded, CommandRow.complete, claimRow, request.operation,
        Involvement.related, TakeTransition.target]
      exact decide_eq_true (takeEdgeCount_concat (by rw [ht, h2, h1]) hnoEdge)
    · rintro ⟨_, hsource, hsuper⟩
      obtain rfl := Option.some_inj.1 hsource
      rw [h1] at hfree
      exact hfree hsuper

/-- **A new transition is applied or rejected**, unless it is admitted and its
edge is taken. -/
theorem wp_transitionTakeNew_settled (hfresh : FreshCommand d request.binding.commandId)
    (hdrawn : drawTransition request.values = .ok draw) (hdraw : draw.Fresh d)
    (hevents : EventsNumbered d) (hkeys : DeferredKeys d) :
    wp (transitionTakeNew context request)
      (fun outcome d' => ¬ EdgeTaken d request ∧
        ((∃ result, outcome = .applied result) ∧ (∃ take target second,
            TransitionAdmitted d request take target second ∧
              (second.edgeSource request ≠ none → d'.relationships ≠ d.relationships)) ∨
          (∃ code, outcome = .terminalRejected code) ∧ d'.relationships = d.relationships ∧
            ∀ take target second, ¬ TransitionAdmitted d request take target second))
      (fun e => EdgeTaken d request ∧ e = .internal) d := by
  refine wp_transitionTakeNew hfresh (fun e h => by cases hdrawn.symm.trans h)
    (fun _ _ _ _ h1 _ hno => wp_reject hkeys hfresh h1 fun _ h' =>
      ⟨not_edgeTaken hno, Or.inr ⟨⟨_, rfl⟩, h', hno⟩⟩)
    fun _ _ take target second hdrawn' h1 hadmitted => ?_
  obtain rfl := Except.ok.inj (hdrawn.symm.trans hdrawn')
  refine wp_mono (wp_writeTransition hadmitted hdraw (drawTransition_distinct hdrawn) hevents hkeys
    h1) (fun _ _ h => ⟨?_, Or.inl ⟨h.2.1, _, _, _, hadmitted, h.2.2⟩⟩)
    fun _ h => ⟨⟨_, _, _, hadmitted, h.1⟩, h.2⟩
  rintro ⟨_, _, second', h', hsource⟩
  obtain rfl := Except.ok.inj (h'.involved.symm.trans hadmitted.involved)
  exact h.1 hsource

end Transition

/-- The answers that leave the store running: a result, a replay, a
rejection, or the conflict of a command id that is bound to another
request. -/
def TransitionSettled (t : Tables) (context : StoreContext) (request : TransitionTakeCommand) :
    AssetResult MutationOutcome → Prop
  | .ok (.applied _) | .ok (.replay _) | .ok (.terminalRejected _) => True
  | .error .conflict => ∃ r ∈ t.commands, r.commandId = request.binding.commandId ∧
      bindingMatches r request.binding context.ownerUid = false
  | _ => False

/-- **A transition is settled exactly when its edge is not taken**, and is
answered by `Internal` otherwise. Supersede and select both make the
replacing take the source of a supersedes edge; a take that has replaced
one already cannot replace a second. -/
theorem transition_settled_iff {allowed : Call → Prop} {d : Database} (hd : Reachable allowed d)
    (context : StoreContext) (request : TransitionTakeCommand) (draw : TransitionDraw)
    (hdrawn : drawTransition request.values = .ok draw) (hdraw : draw.Fresh d.toTables) :
    (TransitionSettled d.toTables context request ((transitionTake context request).run d).1 ↔
      ¬ EdgeTaken d.toTables request) ∧
    (((transitionTake context request).run d).1 = .error .internal ↔
      EdgeTaken d.toTables request) := by
  have hop : isTakeOperation request.binding.operationId = true := by
    rw [request.operation]
    rfl
  by_cases hfresh : FreshCommand d.toTables request.binding.commandId
  · have hnew : wp (transitionTake context request) _ _ d := wp_unlessKnown hfresh
      (wp_transitionTakeNew_settled hfresh hdrawn hdraw hd.eventsNumbered hd.deferredKeys)
    rcases wp_run hnew with ⟨outcome, hrun, hno, ⟨⟨_, rfl⟩, -⟩ | ⟨⟨_, rfl⟩, -⟩⟩ |
      ⟨e, hrun, ⟨htaken, rfl⟩, -⟩
    · simp [hrun, hno, TransitionSettled]
    · simp [hrun, hno, TransitionSettled]
    · simp [hrun, htaken, TransitionSettled]
  · have hno : ¬ EdgeTaken d.toTables request :=
      not_edgeTaken fun _ _ _ h => hfresh h.command
    unfold transitionTake
    rcases replayExisting_take hd.ledgerValid hd.takesRecorded context hop hfresh with
      ⟨_, hknown⟩ | ⟨_, hknown⟩ | ⟨hknown, hother⟩
    · simp [run_unlessKnown hknown, hno, TransitionSettled]
    · simp [run_unlessKnown hknown, hno, TransitionSettled]
    · simpa [run_unlessKnown_error hknown, hno, TransitionSettled] using hother

/-- One work revision with three candidate takes of one asset. -/
def threeTakes : Database :=
  afterCalls oneAsset (List.map Call.execute
    [.createProject (.numbered 300), .createWork (.numbered 310 (.numbered 301)),
    .createTake (.numbered 320 (.numbered 301) (.numbered 311) (.numbered 312) (.numbered 101)),
    .createTake (.numbered 330 (.numbered 301) (.numbered 311) (.numbered 312) (.numbered 101)),
    .createTake (.numbered 340 (.numbered 301) (.numbered 311) (.numbered 312) (.numbered 101))])

theorem reachable_threeTakes : Reachable (fun _ => True) threeTakes :=
  reachable_afterCalls reachable_oneAsset fun _ _ => trivial

/-- Command `n`: a candidate take is superseded by the third one. -/
def supersedeByThird (n : ℕ) (takeId : Id .take) : TransitionTakeCommand where
  binding := .numbered .takeTransition n
  projectId := .numbered 301
  workItemId := .numbered 311
  workRevisionId := .numbered 312
  takeId := takeId
  expectedRevision := 1
  transition := .supersede
  reason := none
  relatedTake := some (.numbered 341, 1)
  values := .numbered (n + 1)
  operation := rfl
  shape := rfl

/-- The first take is superseded without trouble. -/
theorem first_supersede_settled : Reachable (fun _ => True) threeTakes ∧
    TransitionSettled threeTakes.toTables firstProcess (supersedeByThird 350 (.numbered 321))
      ((transitionTake firstProcess (supersedeByThird 350 (.numbered 321))).run threeTakes).1 := by
  refine ⟨reachable_threeTakes, ((transition_settled_iff reachable_threeTakes firstProcess
    (supersedeByThird 350 (.numbered 321)) ⟨.numbered 351, .numbered 352, .numbered 353, .epoch⟩
    rfl ⟨by decide +kernel, by decide +kernel, by decide +kernel⟩).1).2 ?_⟩
  rintro ⟨_, _, _, -, source, -, r, hr, -⟩
  have hnone : threeTakes.relationships = [] := by decide +kernel
  rw [hnone] at hr
  cases hr

/-- The library after that. -/
def oneSuperseded : Database :=
  afterCalls threeTakes [.execute (.transitionTake (supersedeByThird 350 (.numbered 321)))]

theorem reachable_oneSuperseded : Reachable (fun _ => True) oneSuperseded :=
  reachable_afterCalls reachable_threeTakes fun _ _ => trivial

/-- **A second take cannot be superseded by the same replacement**: the
request is new, its identifiers are fresh and event numbers are left, and
the answer is the error that stops the store. -/
theorem second_supersede_internal : Reachable (fun _ => True) oneSuperseded ∧
    drawTransition (supersedeByThird 360 (.numbered 331)).values =
      .ok ⟨.numbered 361, .numbered 362, .numbered 363, .epoch⟩ ∧
    TransitionDraw.Fresh ⟨.numbered 361, .numbered 362, .numbered 363, .epoch⟩
      oneSuperseded.toTables ∧
    SequencesLeft oneSuperseded.toTables 2 ∧
    FreshCommand oneSuperseded.toTables (.numbered 360) ∧
    ((transitionTake firstProcess (supersedeByThird 360 (.numbered 331))).run oneSuperseded).1 =
      .error .internal := by
  refine ⟨reachable_oneSuperseded, rfl,
    ⟨by decide +kernel, by decide +kernel, by decide +kernel⟩, by decide +kernel, ?_,
    by decide +kernel⟩
  unfold FreshCommand
  decide +kernel

end MengXia.Store
