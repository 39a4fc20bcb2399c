import MengXia.Common.Acyclic
import MengXia.Store.Edges
/-!
# Takes that supersede each other

The `TAKE_SUPERSEDES` edges lead from a take to the one it supersedes. A
selection draws its edge from a take that is still open, so it closes no
cycle; a `SUPERSEDE` transition does not look at the state of the
replacement, and closes one exactly when the take that is superseded leads
to its replacement already.
-/

namespace MengXia.Store

open Common Relation

variable {allowed : Call → Prop}

variable {d : Database} {t' : Tables}

/-- The edge from a take to the one it supersedes. -/
def SupersedesTake (t : Tables) (x y : Id .take) : Prop :=
  ∃ r ∈ t.relationships, r.isTakeEdge .takeSupersedes = true ∧ r.sourceId = x.uuid ∧
    r.targetId = y.uuid

/-- A request to supersede a take by one that supersedes it already, over
any number of edges. -/
def TransitionTakeCommand.LoopsBack (t : Tables) (request : TransitionTakeCommand) : Prop :=
  request.transition = .supersede ∧ ∃ replacement revision,
    request.relatedTake = some (replacement, revision) ∧
      TransGen (SupersedesTake t) request.takeId replacement

/-- A call with such a request. -/
def Call.LoopsBack (t : Tables) (call : Call) : Prop :=
  ∃ request, call = .execute (.transitionTake request) ∧ TransitionTakeCommand.LoopsBack t request

/-- A request that passes every check of `transition_take` and whose edge,
if it has one, is free. -/
def TransitionTakeCommand.Passes (t : Tables) (request : TransitionTakeCommand) : Prop :=
  (∃ take target second, TransitionAdmitted t request take target second) ∧
    ¬ EdgeTaken t request

/-! ## One more edge -/

/-- **The rows of one more edge** relate what the edge relates. -/
theorem supersedesTake_concat {t : Tables} {relationshipId : Id .relationship}
    {source target : Id .take} {binding : CommandBinding} {at_ : Timestamp}
    (h : t'.relationships = t.relationships ++
      [takeEdgeRow relationshipId .takeSupersedes source target binding at_]) :
    SupersedesTake t' = WithEdge (SupersedesTake t) source target := by
  funext x y
  refine propext ⟨fun hxy => ?_, fun hxy => ?_⟩
  · obtain ⟨r, hr, hedge, hsource, htarget⟩ := hxy
    rw [h] at hr
    rcases List.mem_append.1 hr with hr | hr
    · exact Or.inl ⟨r, hr, hedge, hsource, htarget⟩
    · rw [List.mem_singleton.1 hr] at hsource htarget
      exact Or.inr ⟨(Id.uuid_injective hsource).symm, (Id.uuid_injective htarget).symm⟩
  · rcases hxy with ⟨r, hr, hedge, hsource, htarget⟩ | ⟨rfl, rfl⟩
    · exact ⟨r, h ▸ List.mem_append_left _ hr, hedge, hsource, htarget⟩
    · exact ⟨_, h ▸ List.mem_concat_self, rfl, rfl, rfl⟩

/-- Other relationships add no edge. -/
theorem supersedesTake_append {t : Tables} {added : List RelationshipRow}
    (h : t'.relationships = t.relationships ++ added)
    (hadded : ∀ r ∈ added, r.isTakeEdge .takeSupersedes = false) :
    SupersedesTake t' = SupersedesTake t := by
  funext x y
  refine propext ⟨fun hxy => ?_, fun hxy => ?_⟩
  · obtain ⟨r, hr, hedge, hends⟩ := hxy
    rw [h] at hr
    rcases List.mem_append.1 hr with hr | hr
    · exact ⟨r, hr, hedge, hends⟩
    · rw [hadded r hr] at hedge
      cases hedge
  · obtain ⟨r, hr, hedge, hends⟩ := hxy
    exact ⟨r, h ▸ List.mem_append_left _ hr, hedge, hends⟩

/-- **What is superseded is terminal.** -/
theorem EdgesStand.superseded_terminal (h : EdgesStand d) {x : TakeRow} (hx : x ∈ d.takes)
    {y : Id .take} (hedge : SupersedesTake d y x.takeId) :
    x.state.isTerminal = true := by
  obtain ⟨r, hr, hkind, -, htarget⟩ := hedge
  have htake := of_decide_eq_true (Bool.and_eq_true _ _ ▸ hkind).2
  cases h.stands r hr with
  | subject _ sourceKind | asset _ sourceKind =>
    rw [sourceKind] at htake
    cases htake
  | take _ _ _ _ _ target targetId _ terminal =>
    obtain rfl := d.consistent.takeKeys.eq_of_mem hx target
      (Id.uuid_injective (htarget.symm.trans targetId.symm))
    exact terminal

/-- **One change closes a cycle exactly when its call loops back** and adds
its edge. -/
theorem acyclic_change_iff {call : Call} (hstand : EdgesStand d)
    (hacyclic : Acyclic (SupersedesTake d))
    (hchange : Change (fun c => c = call) d t') :
    Acyclic (SupersedesTake t') ↔
      ¬ (call.LoopsBack d ∧ t'.relationships ≠ d.relationships) := by
  -- a call that is not the transition of a take does not loop back
  have hother : ∀ {c : Call} {P : Prop}, c = call →
      (∀ request, c ≠ .execute (.transitionTake request)) → ¬ (call.LoopsBack d ∧ P) := by
    rintro c P rfl hne ⟨⟨request, hcall, -⟩, -⟩
    exact hne request hcall
  cases hchange with
  | claimed | moved | rejected | registered | revisionCreated | lifecycleChanged
  | locationRecorded | projectCreated | projectRevised | projectRevisionLeft | subjectCreated
  | takeCreated | takeMoved => exact iff_of_true hacyclic fun hloop => hloop.2 rfl
  | workCreated _ _ _ _ _ _ _ call | workRevised _ _ _ _ _ _ _ call
  | workRevisionLeft _ _ _ _ _ _ call =>
    rw [supersedesTake_append rfl fun x hx => by
      simp [RelationshipRow.isTakeEdge, (mem_workEdges hx).2.1]]
    exact iff_of_true hacyclic (hother call fun _ h => by cases h)
  | takeReopened _ _ _ _ _ _ _ _ _ call =>
    rw [supersedesTake_append rfl fun r hr => by rw [List.mem_singleton.1 hr]; rfl]
    exact iff_of_true hacyclic (hother call fun _ h => by cases h)
  | takeReplaced context request take selected draw payload payload' hcall fresh mem id selects
      transition place other otherState otherPlace distinct =>
    rw [supersedesTake_concat rfl, acyclic_withEdge_iff hacyclic]
    refine iff_of_true (fun hback => ?_) ?_
    · -- the take is open, so nothing supersedes it
      rcases ReflTransGen.cases_tail hback with heq | ⟨y, -, hedge⟩
      · exact distinct heq.symm
      · rw [← id] at hedge
        have hterminal := hstand.superseded_terminal mem hedge
        cases hstate : take.state with
        | candidate | shortlisted =>
          rw [hstate] at hterminal
          cases hterminal
        | selected | approved | rejected | superseded =>
          rw [hstate] at transition
          cases transition
    · rintro ⟨⟨request', hcall', hsupersede, -⟩, -⟩
      rw [← hcall] at hcall'
      cases hcall'
      rw [selects] at hsupersede
      cases hsupersede
  | takeSuperseded context request take replacement draw payload hcall fresh mem id supersedes
      transition place other otherPlace distinct room related =>
    rw [supersedesTake_concat rfl, acyclic_withEdge_iff hacyclic]
    refine not_congr ⟨fun hback => ?_, fun hloop => ?_⟩
    · obtain ⟨revision, hrelated⟩ := related
      refine ⟨⟨request, hcall.symm, supersedes, replacement.takeId, revision, hrelated, ?_⟩, ?_⟩
      · rcases reflTransGen_iff_eq_or_transGen.1 hback with heq | hpath
        · exact absurd heq distinct
        · exact hpath
      · exact fun h => absurd (congrArg List.length h) (by simp)
    · obtain ⟨⟨request', hcall', -, replacement', revision', hrelated', hpath⟩, -⟩ := hloop
      rw [← hcall] at hcall'
      cases hcall'
      obtain ⟨revision, hrelated⟩ := related
      rw [hrelated] at hrelated'
      cases hrelated'
      exact hpath.to_reflTransGen

/-! ## Whole runs -/

/-- The databases that calls lead to none of which loops back. -/
inductive Unlooped (allowed : Call → Prop) : Database → Prop where
  | empty : Unlooped allowed Database.empty
  | step {d : Database} (context : StoreContext) (call : Call) (before : Unlooped allowed d)
      (admitted : allowed call) (forward : ¬ call.LoopsBack d) :
      Unlooped allowed ((call.exec context).run d).2

theorem Unlooped.reachable (h : Unlooped allowed d) : Reachable allowed d := by
  induction h with
  | empty => exact .empty
  | step context call _ admitted _ ih => exact .step context call ih admitted

/-- **One call**, over the change it makes. -/
theorem acyclic_call_iff (hstand : EdgesStand d)
    (hacyclic : Acyclic (SupersedesTake d)) (context : StoreContext) (call : Call) :
    Acyclic (SupersedesTake ((call.exec context).run d).2.toTables) ↔
      ¬ (call.LoopsBack d ∧
        ((call.exec context).run d).2.relationships ≠ d.relationships) := by
  rcases @Call.advances (fun c => c = call) call context d rfl with (hsame | hchange) | htables
  · rw [hsame]
    exact iff_of_true hacyclic fun hloop => hloop.2 rfl
  · exact acyclic_change_iff hstand hacyclic hchange
  · have hedges : SupersedesTake ((call.exec context).run d).2.toTables =
        SupersedesTake d := by
      unfold SupersedesTake
      rw [htables]
    rw [hedges]
    exact iff_of_true hacyclic fun hloop => hloop.2 (by rw [htables])

/-- A `SUPERSEDE` transition that is admitted has an edge to store. -/
theorem edgeSource_supersede {t : Tables} {request : TransitionTakeCommand} {second : Involvement}
    (h : involvement t request = .ok second) (hsupersede : request.transition = .supersede) :
    second.edgeSource request ≠ none := by
  cases second with
  | alone =>
    unfold involvement at h
    rw [hsupersede] at h
    simp only at h
    repeat' split at h
    all_goals cases h
  | replacing other revision next => exact Option.some_ne_none _
  | supersededBy replacement => exact Option.some_ne_none _

/-- **The edge of a `SUPERSEDE` transition is stored exactly when the request
passes**, as the tables before the call say. -/
theorem supersede_stored_iff (hd : Reachable allowed d) {context : StoreContext}
    {request : TransitionTakeCommand} {draw : TransitionDraw}
    (hdrawn : drawTransition request.values = .ok draw) (hdraw : draw.Fresh d)
    (hsupersede : request.transition = .supersede) :
    ((transitionTake context request).run d).2.relationships ≠ d.relationships ↔
      TransitionTakeCommand.Passes d request := by
  by_cases hfresh : FreshCommand d request.binding.commandId
  · have hnew : Txn.wp (transitionTake context request) _ _ d := wp_unlessKnown hfresh
      (wp_transitionTakeNew_settled hfresh hdrawn hdraw hd.eventsNumbered hd.deferredKeys)
    rcases Txn.wp_run hnew with ⟨_, -, hfree, ⟨-, take, target, second, hadmitted, hstored⟩ |
      ⟨-, hsame, hno⟩⟩ | ⟨_, -, ⟨htaken, -⟩, hsame⟩
    · exact iff_of_true (hstored (edgeSource_supersede hadmitted.involved hsupersede))
        ⟨⟨take, target, second, hadmitted⟩, hfree⟩
    · exact iff_of_false (fun h => h hsame) fun ⟨⟨take, target, second, h⟩, _⟩ =>
        hno take target second h
    · exact iff_of_false (fun h => h (by rw [hsame])) fun h => h.2 htaken
  · -- a known command is answered from its row
    have hstep : Txn.post (transitionTake context request)
        (PureStep (fun _ => True) context request.binding False d) d :=
      post_transitionTake context request d trivial
    have hsame : ((transitionTake context request).run d).2.toTables = d.toTables :=
      Txn.post_run_state (Txn.post_mono hstep fun _ _ h => h.known hfresh) rfl
    exact iff_of_false (fun h => h (by rw [hsame])) fun ⟨⟨_, _, _, h⟩, _⟩ => hfresh h.command

theorem Unlooped.acyclic (h : Unlooped allowed d) :
    Acyclic (SupersedesTake d) := by
  induction h with
  | empty =>
    intro x hx
    obtain ⟨_, -, _, hr, -⟩ := TransGen.tail'_iff.1 hx
    cases hr
  | @step d context call before admitted forward ih =>
    exact (acyclic_call_iff before.reachable.edgesStand ih context call).2 fun hloop =>
      forward hloop.1

theorem unlooped_afterCalls (hd : Unlooped allowed d) {calls : List Call}
    (h : ∀ call ∈ calls, allowed call ∧ ∀ request, call ≠ .execute (.transitionTake request)) :
    Unlooped allowed (afterCalls d calls) := by
  refine afterCalls_keeps hd fun call hcall _ hd => .step firstProcess call hd (h call hcall).1 ?_
  rintro ⟨request, heq, -⟩
  exact (h call hcall).2 request heq

theorem unlooped_oneSuperseded : Unlooped (fun _ => True) oneSuperseded := by
  refine .step firstProcess _ (unlooped_afterCalls (unlooped_afterCalls .empty ?_) ?_) trivial ?_
  · simp
  · simp
  · rintro ⟨_, -, -, _, _, -, hpath⟩
    obtain ⟨_, ⟨r, hr, -⟩, -⟩ := TransGen.head'_iff.1 hpath
    have hnone : threeTakes.relationships = [] := by decide +kernel
    rw [hnone] at hr
    cases hr

/-- **Supersession has no cycle while no replacement is superseded by its
own take.** Over runs none of whose calls loops back no path of supersedes
edges returns to its start; the next call closes a cycle exactly when it
loops back and its edge is stored, and a transition with fresh identifiers
exactly when it loops back and passes the checks made before it writes. -/
theorem supersession_acyclic_iff {d : Database} (h : Unlooped allowed d) :
    (∀ take, ¬ TransGen (SupersedesTake d.toTables) take take) ∧
      (∀ (context : StoreContext) (call : Call),
        (∀ take, ¬ TransGen (SupersedesTake ((call.exec context).run d).2.toTables) take take) ↔
          ¬ (call.LoopsBack d.toTables ∧
            ((call.exec context).run d).2.relationships ≠ d.relationships)) ∧
      ∀ (context : StoreContext) (request : TransitionTakeCommand) (draw : TransitionDraw),
        drawTransition request.values = .ok draw → draw.Fresh d.toTables →
          ((∀ take, ¬ TransGen
              (SupersedesTake ((transitionTake context request).run d).2.toTables) take take) ↔
            ¬ (TransitionTakeCommand.LoopsBack d.toTables request ∧
              TransitionTakeCommand.Passes d.toTables request)) := by
  have hcall := acyclic_call_iff h.reachable.edgesStand h.acyclic
  refine ⟨h.acyclic, hcall, fun context request draw hdrawn hdraw => ?_⟩
  have hrun : (((Call.execute (.transitionTake request)).exec context).run d).2 =
      ((transitionTake context request).run d).2 := Txn.run_void _ d
  have hloop : (Call.execute (.transitionTake request)).LoopsBack d ↔
      TransitionTakeCommand.LoopsBack d request := by
    refine ⟨?_, fun h => ⟨request, rfl, h⟩⟩
    rintro ⟨_, hsame, hback⟩
    cases hsame
    exact hback
  have hiff := hcall context (.execute (.transitionTake request))
  rw [hrun, hloop] at hiff
  refine hiff.trans (not_congr (and_congr_right fun hback => ?_))
  exact supersede_stored_iff h.reachable hdrawn hdraw hback.1

/-- A library where one take supersedes another. -/
theorem oneSuperseded_acyclic : Unlooped (fun _ => True) oneSuperseded ∧
    ∀ take, ¬ TransGen (SupersedesTake oneSuperseded.toTables) take take :=
  ⟨unlooped_oneSuperseded, (supersession_acyclic_iff unlooped_oneSuperseded).1⟩

/-- The third take is superseded by the first one, which it supersedes. -/
def supersedeThird : TransitionTakeCommand where
  binding := .numbered .takeTransition 360
  projectId := .numbered 301
  workItemId := .numbered 311
  workRevisionId := .numbered 312
  takeId := .numbered 341
  expectedRevision := 1
  transition := .supersede
  reason := none
  relatedTake := some (.numbered 321, 2)
  values := .numbered 361
  operation := rfl
  shape := rfl

/-- The library after that. -/
def bothSuperseded : Database :=
  afterCalls oneSuperseded [.execute (.transitionTake supersedeThird)]

/-- **Two takes of one work revision supersede each other** after two calls. -/
theorem supersession_closes : Reachable (fun _ => True) bothSuperseded ∧
    TransGen (SupersedesTake bothSuperseded.toTables) (.numbered 321) (.numbered 321) := by
  refine ⟨.step firstProcess _ unlooped_oneSuperseded.reachable trivial, ?_⟩
  have hrows : bothSuperseded.relationships =
      [takeEdgeRow (.numbered 353) .takeSupersedes (.numbered 341) (.numbered 321)
        (.numbered .takeTransition 350) .epoch,
      takeEdgeRow (.numbered 363) .takeSupersedes (.numbered 321) (.numbered 341)
        (.numbered .takeTransition 360) .epoch] := by
    decide +kernel
  have hfirst : SupersedesTake bothSuperseded.toTables (.numbered 321) (.numbered 341) :=
    ⟨_, by rw [hrows]; exact List.mem_cons_of_mem _ List.mem_cons_self, rfl, rfl, rfl⟩
  have hthird : SupersedesTake bothSuperseded.toTables (.numbered 341) (.numbered 321) :=
    ⟨_, by rw [hrows]; exact List.mem_cons_self, rfl, rfl, rfl⟩
  exact (TransGen.single hfirst).tail hthird

end MengXia.Store
