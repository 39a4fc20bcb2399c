import MengXia.Store.EventNumbers
/-!
# The history of takes

Four invariants of takes, each an induction over the changes of the store:
the revision of a take counts the transitions recorded for it, the ordinals
of a work revision are consecutive, a reopened take is a terminal one that
came before, and a terminal take stays as it is.
-/

namespace MengXia.Store

open Common

variable {allowed : Call → Prop}

variable {x : TakeRow} {t : Tables} {d : Database}

/-! ## Revisions count transitions -/

/-- Whether an event records a transition of a take. -/
def EventRow.isTakeTransition (e : EventRow) : Bool :=
  e.aggregateKind = .take &&
    (e.eventType = .takeShortlisted || e.eventType = .takeSelected ||
      e.eventType = .takeApproved || e.eventType = .takeRejected || e.eventType = .takeSuperseded)

/-- The number of transitions recorded for a take. -/
def transitionsOf (events : List EventRow) (takeId : Id .take) : ℕ :=
  events.countP fun e => e.isTakeTransition && e.aggregateId = .uuid takeId.uuid

/-- The revision of a take counts its transitions, and only stored takes
have any. -/
structure TakeCounters (takes : List TakeRow) (events : List EventRow) : Prop where
  takesOf : ∀ e ∈ events, e.isTakeTransition = true →
    ∃ x ∈ takes, e.aggregateId = .uuid x.takeId.uuid
  counters : ∀ x ∈ takes, x.revision = 1 + transitionsOf events x.takeId

namespace TakeCounters

variable {takes : List TakeRow} {events : List EventRow}

/-- Events of other kinds do not count. -/
theorem appendEvents (h : TakeCounters takes events) {added : List EventRow}
    (hadded : ∀ e ∈ added, e.isTakeTransition = false) : TakeCounters takes (events ++ added) := by
  refine ⟨fun e he htransition => ?_, fun x hx => ?_⟩
  · rcases List.mem_append.1 he with he | he
    · exact h.takesOf e he htransition
    · rw [hadded e he] at htransition
      cases htransition
  · unfold transitionsOf
    rw [countP_append_of_not fun e he => by simp [hadded e he]]
    exact h.counters x hx

/-- A new take starts at revision 1. -/
theorem create (h : TakeCounters takes events) (hrevision : x.revision = 1)
    (hfresh : ∀ y ∈ takes, y.takeId ≠ x.takeId) : TakeCounters (takes ++ [x]) events := by
  refine ⟨fun e he htransition => ?_, forall_mem_append_singleton h.counters ?_⟩
  · obtain ⟨y, hy, hid⟩ := h.takesOf e he htransition
    exact ⟨y, List.mem_append_left _ hy, hid⟩
  · have hnone : transitionsOf events x.takeId = 0 := by
      refine List.countP_eq_zero.2 fun e he hp => ?_
      rw [Bool.and_eq_true, decide_eq_true_eq] at hp
      obtain ⟨y, hy, hid⟩ := h.takesOf e he hp.1
      rw [hp.2, AggregateId.uuid.injEq] at hid
      exact hfresh y hy (Id.uuid_injective hid).symm
    rw [hrevision, hnone]

/-- A transition moves its take and records its event. -/
theorem move (h : TakeCounters takes events) (hkeys : Distinct TakeRow.takeId takes)
    {take : TakeRow} (hmem : take ∈ takes) {id : Id .take} (hid : take.takeId = id)
    {e : EventRow} (htransition : e.isTakeTransition = true)
    (haggregate : e.aggregateId = .uuid id.uuid) (state : TakeState) (at_ : Timestamp) :
    TakeCounters (updateWhere (fun r => r.takeId = id)
      (TakeRow.move state (take.revision + 1) at_) takes) (events ++ [e]) := by
  have hcount : ∀ id', transitionsOf (events ++ [e]) id' =
      transitionsOf events id' + if id' = id then 1 else 0 := by
    intro id'
    unfold transitionsOf
    rw [List.countP_append, List.countP_singleton, htransition, haggregate]
    congr 1
    by_cases hid' : id' = id
    · simp [hid']
    · have : id.uuid ≠ id'.uuid := fun h => hid' (Id.uuid_injective h).symm
      simp [hid', this]
  refine ⟨fun e' he' htransition' => ?_, fun x hx => ?_⟩
  · have hstored : ∃ x ∈ takes, e'.aggregateId = .uuid x.takeId.uuid := by
      rcases List.mem_append.1 he' with he' | he'
      · exact h.takesOf e' he' htransition'
      · rw [List.mem_singleton.1 he']
        exact ⟨take, hmem, hid ▸ haggregate⟩
    obtain ⟨x, hx, hxid⟩ := hstored
    refine ⟨_, mem_updateWhere.2 ⟨x, hx, rfl⟩, ?_⟩
    split <;> exact hxid
  · rw [hcount]
    rcases mem_updateWhere_iff.1 hx with ⟨y, hy, hyid, rfl⟩ | ⟨hx, hxid⟩
    · obtain rfl := hkeys.eq_of_mem hy hmem ((of_decide_eq_true hyid).trans hid.symm)
      have hrevision := h.counters y hy
      rw [if_pos (show (y.move state (y.revision + 1) at_).takeId = id from hid)]
      exact congrArg (· + 1) hrevision
    · rw [if_neg (of_decide_eq_false hxid)]
      exact h.counters x hx

end TakeCounters

theorem isTakeTransition_transitionEvent (transition : TakeTransition) {e : EventRow}
    (hkind : e.aggregateKind = .take) (htype : e.eventType = transitionEvent transition) :
    e.isTakeTransition = true := by
  unfold EventRow.isTakeTransition
  rw [hkind, htype]
  cases transition <;> rfl

theorem TakeCounters.change {d' : Database} (h : TakeCounters d.takes d.domainEvents)
    (hchange : Change allowed d d') :
    TakeCounters d'.takes d'.domainEvents := by
  have hkeys := d.consistent.takeKeys
  have hkeys' := d'.consistent.takeKeys
  generalize ht : d'.toTables = t' at hchange
  rw [ht] at hkeys'
  cases hchange with
  | claimed | moved | rejected | projectRevisionLeft | workRevisionLeft => exact h
  | registered | revisionCreated | lifecycleChanged | locationRecorded | projectCreated
  | projectRevised | subjectCreated | workCreated | workRevised =>
    refine h.appendEvents fun e he => ?_
    rw [List.mem_singleton.1 he]
    rfl
  | takeCreated | takeReopened =>
    refine (h.create rfl (distinct_append_singleton.1 hkeys').2).appendEvents fun e he => ?_
    rw [List.mem_singleton.1 he]
    rfl
  | takeMoved context request take target draw payload call fresh mem id transition =>
    exact h.move hkeys mem id (isTakeTransition_transitionEvent request.transition rfl rfl) rfl _ _
  | takeSuperseded context request take replacement draw payload call fresh mem id =>
    exact h.move hkeys mem id rfl rfl _ _
  | takeReplaced context request take selected draw payload payload' call fresh mem id _ _ _ other
      _ _ distinct =>
    have hsuperseded := h.move hkeys other rfl (e := domainEventRow draw.firstEvent
      (d.lastSequence + 1) request.binding .takeSuperseded .take selected.takeId.uuid
      (selected.revision + 1) payload draw.at_) rfl rfl .superseded draw.at_
    have hmem : take ∈ updateWhere (fun r => decide (r.takeId = selected.takeId))
        (TakeRow.move .superseded (selected.revision + 1) draw.at_) d.takes :=
      mem_updateWhere.2 ⟨take, mem, if_neg (by simpa [id] using distinct.symm)⟩
    have hselected := hsuperseded.move (hkeys.updateWhere fun _ => rfl) hmem id
      (e := domainEventRow draw.secondEvent (d.lastSequence + 2) request.binding .takeSelected .take
        request.takeId.uuid (take.revision + 1) payload' draw.at_) rfl rfl .selected draw.at_
    rwa [List.append_assoc] at hselected

/-! ## Ordinals are consecutive -/

/-- The ordinals of the takes of each work revision count from 1. -/
def TakeOrdinals (takes : List TakeRow) : Prop :=
  ∀ place, ∃ n, (takes.filter fun x => x.workRevisionId = place).map TakeRow.ordinal =
    (List.range n).map (· + 1)

theorem foldl_max_range (n : ℕ) : ((List.range n).map (· + 1)).foldl max 0 = n := by
  induction n with
  | zero => rfl
  | succ n ih =>
    rw [List.range_succ, List.map_append, List.foldl_append, ih]
    exact Nat.max_eq_right (Nat.le_succ n)

/-- **The next ordinal** of a work revision is one more than their number. -/
theorem TakeOrdinals.next (h : TakeOrdinals t.takes) {place : Id .workRevision} {ordinal : ℕ}
    (hnext : nextTakeOrdinal t place = some ordinal) :
    ∃ n, (t.takes.filter fun x => x.workRevisionId = place).map TakeRow.ordinal =
      (List.range n).map (· + 1) ∧ ordinal = n + 1 := by
  obtain ⟨n, hn⟩ := h place
  have hmax : maxTakeOrdinal t place = n := by
    unfold maxTakeOrdinal
    rw [hn, foldl_max_range]
  unfold nextTakeOrdinal at hnext
  rw [hmax] at hnext
  obtain ⟨-, hnext⟩ := Option.ite_none_right_eq_some.1 hnext
  exact ⟨n, hn, (Option.some.inj hnext).symm⟩

theorem TakeOrdinals.lt_next (h : TakeOrdinals t.takes) {place : Id .workRevision} {ordinal : ℕ}
    (hnext : nextTakeOrdinal t place = some ordinal) (hx : x ∈ t.takes)
    (hplace : x.workRevisionId = place) : x.ordinal < ordinal := by
  obtain ⟨n, hn, rfl⟩ := h.next hnext
  have hmem : x.ordinal ∈ (List.range n).map (· + 1) := by
    rw [← hn]
    exact List.mem_map_of_mem (List.mem_filter.2 ⟨hx, by simpa using hplace⟩)
  obtain ⟨i, hi, hix⟩ := List.mem_map.1 hmem
  rw [← hix]
  exact Nat.succ_lt_succ (List.mem_range.1 hi)

theorem TakeOrdinals.create (h : TakeOrdinals t.takes)
    (hnext : nextTakeOrdinal t x.workRevisionId = some x.ordinal) :
    TakeOrdinals (t.takes ++ [x]) := by
  intro place
  by_cases hplace : x.workRevisionId = place
  · subst hplace
    obtain ⟨n, hn, hordinal⟩ := h.next hnext
    refine ⟨n + 1, ?_⟩
    rw [List.filter_append, List.map_append, hn, List.range_succ, List.map_append]
    simp [hordinal]
  · obtain ⟨n, hn⟩ := h place
    refine ⟨n, ?_⟩
    rw [List.filter_append, List.map_append, hn]
    simp [hplace]

theorem TakeOrdinals.move {takes : List TakeRow} (h : TakeOrdinals takes) (p : TakeRow → Bool)
    (state : TakeState) (revision : RevisionNo) (at_ : Timestamp) :
    TakeOrdinals (updateWhere p (TakeRow.move state revision at_) takes) := by
  intro place
  obtain ⟨n, hn⟩ := h place
  refine ⟨n, ?_⟩
  rw [← hn]
  unfold updateWhere
  rw [List.filter_map, List.map_map]
  have hfilter : takes.filter ((fun x => decide (x.workRevisionId = place)) ∘
      fun r => if p r = true then r.move state revision at_ else r) =
      takes.filter fun x => x.workRevisionId = place := by
    refine List.filter_congr fun x _ => ?_
    simp only [Function.comp_apply]
    split <;> rfl
  rw [hfilter]
  refine List.map_congr_left fun x _ => ?_
  simp only [Function.comp_apply]
  split <;> rfl

theorem TakeOrdinals.change {t' : Tables} (h : TakeOrdinals t.takes) (hchange : Change allowed t t')
    : TakeOrdinals t'.takes := by
  cases hchange with
  | takeCreated _ _ _ _ _ _ _ _ _ next | takeReopened _ _ _ _ _ _ _ _ _ _ _ _ _ _ _ _ next =>
    exact h.create next
  | takeMoved | takeSuperseded => exact h.move _ _ _ _
  | takeReplaced => exact (h.move _ _ _ _).move _ _ _ _
  | claimed | moved | rejected | registered | revisionCreated | lifecycleChanged
  | locationRecorded | projectCreated | projectRevised | projectRevisionLeft | subjectCreated
  | workCreated | workRevised | workRevisionLeft => exact h

/-! ## Reopened takes -/

/-- What a reopen relationship joins: a take, and a terminal take of the
same work revision that came before it and has another primary asset. -/
structure Reopens (takes : List TakeRow) (r : RelationshipRow) (x y : TakeRow) : Prop where
  source : x ∈ takes
  target : y ∈ takes
  sourceId : r.sourceKind = .take ∧ r.sourceId = x.takeId.uuid
  targetId : r.targetKind = .take ∧ r.targetId = y.takeId.uuid
  place : y.workRevisionId = x.workRevisionId
  before : y.ordinal < x.ordinal
  asset : y.primaryAssetId ≠ x.primaryAssetId
  terminal : y.state.isTerminal = true

/-- Every reopen relationship joins such takes. -/
def ReopensTerminal (takes : List TakeRow) (relationships : List RelationshipRow) : Prop :=
  ∀ r ∈ relationships, r.relationshipKind = .takeReopens → ∃ x y, Reopens takes r x y

theorem Reopens.kept {takes takes' : List TakeRow} {r : RelationshipRow} {y : TakeRow}
    (h : Reopens takes r x y) (hkept : Kept TakeRow.Next takes takes') :
    ∃ x', Reopens takes' r x' y := by
  obtain ⟨x', hx', hx⟩ := hkept x h.source
  obtain ⟨y', hy', hy⟩ := hkept y h.target
  obtain rfl := hy.terminal h.terminal
  exact ⟨x', hx', hy', ⟨h.sourceId.1, hx.id ▸ h.sourceId.2⟩, h.targetId, hx.place ▸ h.place,
    hx.ordinal ▸ h.before, hx.asset ▸ h.asset, h.terminal⟩

/-- Other relationships and moving takes do not matter. -/
theorem ReopensTerminal.grows {takes takes' : List TakeRow} {rows added : List RelationshipRow}
    (h : ReopensTerminal takes rows) (hkept : Kept TakeRow.Next takes takes')
    (hadded : ∀ r ∈ added, r.relationshipKind = .takeReopens → ∃ x y, Reopens takes' r x y) :
    ReopensTerminal takes' (rows ++ added) := by
  intro r hr hkind
  rcases List.mem_append.1 hr with hr | hr
  · obtain ⟨x, y, hxy⟩ := h r hr hkind
    obtain ⟨x', hx'⟩ := hxy.kept hkept
    exact ⟨x', y, hx'⟩
  · exact hadded r hr hkind

theorem ReopensTerminal.change {d' : Database} (h : ReopensTerminal d.takes d.relationships)
    (hordinals : TakeOrdinals d.takes) (hchange : Change allowed d d') :
    ReopensTerminal d'.takes d'.relationships := by
  have hkept := hchange.grows.takes
  generalize ht : d'.toTables = t' at hchange hkept
  cases hchange with
  | claimed | moved | rejected | registered | revisionCreated | lifecycleChanged
  | locationRecorded | projectCreated | projectRevised | projectRevisionLeft | subjectCreated =>
    exact h
  | takeCreated | takeMoved =>
    have hgrown : ReopensTerminal _ (d.relationships ++ []) :=
      h.grows hkept fun r hr => by cases hr
    rwa [List.append_nil] at hgrown
  | workCreated | workRevised | workRevisionLeft =>
    exact h.grows hkept fun r hr hkind => absurd hkind (mem_workEdges hr).2.2
  | takeReplaced | takeSuperseded =>
    refine h.grows hkept fun r hr hkind => ?_
    rw [List.mem_singleton.1 hr] at hkind
    cases hkind
  | takeReopened context request terminal takeId eventId relationshipId at_ ordinal payload call
      fresh mem id terminalState place asset next =>
    refine h.grows hkept fun r hr _ => ?_
    rw [List.mem_singleton.1 hr]
    exact ⟨_, terminal, List.mem_concat_self, List.mem_append_left _ mem, ⟨rfl, rfl⟩,
      ⟨rfl, congrArg Id.uuid id.symm⟩, place, hordinals.lt_next next mem place, asset,
      terminalState⟩

/-! ## Every reachable library -/

/-- The three invariants that are kept together. -/
structure TakesInOrder (t : Tables) : Prop where
  counters : TakeCounters t.takes t.domainEvents
  ordinals : TakeOrdinals t.takes
  reopens : ReopensTerminal t.takes t.relationships

theorem Reachable.takesInOrder (h : Reachable allowed d) :
    TakesInOrder d := by
  refine h.induct (P := TakesInOrder) ⟨⟨fun e he => (by cases he), fun x hx => (by cases hx)⟩,
    fun _ => ⟨0, rfl⟩, fun r hr => (by cases hr)⟩ fun d d' h hchange => ?_
  exact ⟨h.counters.change hchange, h.ordinals.change hchange,
    h.reopens.change h.ordinals hchange⟩

/-- **The life of takes.** At most one take of a work revision is selected;
the revision of a take is one plus the number of its transitions; approved,
rejected and superseded takes stay under every later call; the ordinals of
a work revision are 1 to n; and a reopened take is a terminal one of the
same work revision with a smaller ordinal and another primary asset. -/
theorem take_invariants {d : Database} (h : Reachable allowed d) :
    (∀ x ∈ d.takes, ∀ y ∈ d.takes, x.state = .selected → y.state = .selected →
        x.workRevisionId = y.workRevisionId → x = y) ∧
      (∀ x ∈ d.takes, x.revision = 1 + transitionsOf d.domainEvents x.takeId) ∧
      (∀ d', Later allowed d d' → ∀ x ∈ d.takes,
        x.state = .approved ∨ x.state = .rejected ∨ x.state = .superseded → x ∈ d'.takes) ∧
      (∀ place, ∃ n, (d.takes.filter fun x => x.workRevisionId = place).map TakeRow.ordinal =
        (List.range n).map (· + 1)) ∧
      ∀ r ∈ d.relationships, r.relationshipKind = .takeReopens →
        ∃ x y, Reopens d.takes r x y := by
  refine ⟨fun x hx y hy hxs hys hplace => ?_, h.takesInOrder.counters.counters,
    fun d' hlater x hx hstate => ?_, h.takesInOrder.ordinals, h.takesInOrder.reopens⟩
  · exact d.consistent.takeOneSelected.eq_of_mem (List.mem_filter.2 ⟨hx, by simpa using hxs⟩)
      (List.mem_filter.2 ⟨hy, by simpa using hys⟩) hplace
  · obtain ⟨x', hx', hnext⟩ := hlater.grows.takes x hx
    have hterminal : x.state.isTerminal = true := by
      rcases hstate with hstate | hstate | hstate <;> rw [hstate] <;> rfl
    rwa [hnext.terminal hterminal] at hx'

/-- The superseded take of `oneSuperseded` has seen one transition and
stays. -/
theorem superseded_take_stays : ∃ x ∈ oneSuperseded.takes, x.state = .superseded ∧
    x.revision = 1 + transitionsOf oneSuperseded.domainEvents x.takeId ∧
    ∀ d', Later (fun _ => True) oneSuperseded d' → x ∈ d'.takes := by
  obtain ⟨x, hx, hstate⟩ : ∃ x ∈ oneSuperseded.takes, x.state = .superseded := by
    decide +kernel
  have hinvariants := take_invariants reachable_oneSuperseded
  exact ⟨x, hx, hstate, hinvariants.2.1 x hx,
    fun d' hlater => hinvariants.2.2.1 d' hlater x hx (Or.inr (Or.inr hstate))⟩

end MengXia.Store
