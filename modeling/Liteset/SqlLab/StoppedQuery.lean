import Liteset.SqlLab.Store

/-!
# Late responses to a stopped query

QUERY_SUCCESS, QUERY_FAILED and REFRESH_QUERIES arrive after a stop with query
objects captured before it.  The first two look at the captured object, the last
at the store.
-/

set_option autoImplicit false

namespace Liteset.SqlLab

open Liteset.Lib Liteset.Lib.JsObject

/-- The query is stopped in the store and shows no results. -/
def IsStopped (s : State) (q : String) : Prop :=
  ∃ query, s.queries q = some query ∧ get query "state" = QueryState.stopped
    ∧ get query "results" = some (.list [])

def Action.IsResponse : Action → Prop
  | .querySuccess _ _ => True
  | .queryFailed _ _ _ _ => True
  | .refreshQueries _ => True
  | _ => False

def Action.Overrides (q : String) : Action → Prop
  | .querySuccess query results =>
    propertyKey (get query "id") = q ∧ get query "state" ≠ undefined
      ∧ results.status = QueryState.success
  | .queryFailed query _ _ _ =>
    propertyKey (get query "id") = q ∧ get query "state" ≠ QueryState.stopped
  | _ => False

section Responses
variable {timestamp : Value → Option Int} {toNumber : Value → Value} {now : Int} {s : State}
  {q : String}

theorem refreshQueries_stopped (altered : List (String × Object)) (stopped : IsStopped s q) :
    (refreshQueries timestamp toNumber s altered).queries q = s.queries q := by
  obtain ⟨query, found, state, -⟩ := stopped
  have skipped : refreshable s q = false := by
    simp [refreshable, found, state]
  have absent : ((altered.filter fun entry => refreshable s entry.1).reverse.find?
      fun entry => decide (entry.1 = q)) = none := by
    rw [List.find?_eq_none]
    intro entry listed
    have kept := (List.mem_filter.mp (List.mem_reverse.mp listed)).2
    intro same
    rw [decide_eq_true_eq] at same
    rw [same, skipped] at kept
    cases kept
  simp only [refreshQueries, absent]

theorem isStopped_of_queries_eq {t : State} (same : t.queries q = s.queries q)
    (stopped : IsStopped s q) : IsStopped t q := by
  obtain ⟨query, found, rest⟩ := stopped
  exact ⟨query, same.trans found, rest⟩

/-- Altering the state of a query to another one ends its being stopped; altering
another query does not. -/
theorem isStopped_alterInObject_iff {query alterations : Object} {state : Value}
    (sets : alterations "state" = some state) (different : state ≠ QueryState.stopped)
    (stopped : IsStopped s q) :
    IsStopped { s with queries := alterInObject s.queries query alterations } q
      ↔ propertyKey (get query "id") ≠ q := by
  refine ⟨?_, ?_⟩
  · intro still same
    obtain ⟨altered, found, unchanged, -⟩ := still
    simp only [alterInObject, same, if_true, Option.some.injEq] at found
    have changed : get altered "state" = state := by
      rw [← found, get_spread_of_has (has_iff.mpr ⟨state, sets⟩), get_of_some sets]
    exact different (changed.symm.trans unchanged)
  · intro other
    refine isStopped_of_queries_eq ?_ stopped
    show alterInObject s.queries query alterations q = s.queries q
    unfold alterInObject
    rw [if_neg fun same => other same.symm]

theorem successAlterations_state (results : Results) :
    successAlterations now results "state" = some QueryState.success := by
  unfold successAlterations
  rw [spread_of_not_has]
  · rfl
  · unfold spreadIf
    split
    · simp [has_single_iff]
    · exact not_has_empty

theorem isStopped_reduce_iff {a : Action} (response : a.IsResponse) (stopped : IsStopped s q) :
    IsStopped (reduce timestamp toNumber now s a) q ↔ ¬a.Overrides q := by
  cases a with
  | querySuccess query results =>
    simp only [reduce, querySuccess, Action.Overrides]
    by_cases ignored : get query "state" = QueryState.STOPPED
        ∨ results.status ≠ QueryState.success
    · rw [if_pos ignored]
      refine ⟨fun _ overrides => ?_, fun _ => stopped⟩
      obtain undefinedState | unsuccessful := ignored
      · exact overrides.2.1 undefinedState
      · exact unsuccessful overrides.2.2
    · rw [if_neg ignored, isStopped_alterInObject_iff (successAlterations_state results)
        (by decide) stopped]
      obtain ⟨defined, successful⟩ := not_or.mp ignored
      refine ⟨fun other overrides => other overrides.1, fun kept same => kept ⟨same, ?_, ?_⟩⟩
      · exact defined
      · exact not_not.mp successful
  | queryFailed query msg link errors =>
    simp only [reduce, queryFailed, Action.Overrides]
    by_cases ignored : get query "state" = QueryState.stopped
    · rw [if_pos ignored]
      exact ⟨fun _ overrides => overrides.2 ignored, fun _ => stopped⟩
    · have sets : failureAlterations now msg link errors "state" = some QueryState.failed := rfl
      rw [if_neg ignored, isStopped_alterInObject_iff sets (by decide) stopped]
      exact ⟨fun other overrides => other overrides.1, fun kept same => kept ⟨same, ignored⟩⟩
  | refreshQueries altered =>
    refine ⟨fun _ overrides => overrides, fun _ => ?_⟩
    exact isStopped_of_queries_eq (refreshQueries_stopped altered stopped) stopped
  | _ => exact response.elim

end Responses

/-- A stopped query stays stopped through a sequence of late responses exactly when
none of them is a success of it, or a failure that carries an object captured
before the stop. -/
theorem isStopped_after_responses_iff (timestamp : Value → Option Int) (toNumber : Value → Value)
    (s : State) (q : String) (actions : List (Int × Action)) (stopped : IsStopped s q)
    (responses : ∀ a ∈ actions, a.2.IsResponse) :
    (∀ earlier, earlier <+: actions → IsStopped (reduceAll timestamp toNumber s earlier) q)
      ↔ ∀ a ∈ actions, ¬a.2.Overrides q := by
  induction actions generalizing s with
  | nil =>
    refine ⟨fun _ a listed => absurd listed List.not_mem_nil, fun _ earlier isPrefix => ?_⟩
    rw [List.prefix_nil.mp isPrefix]
    exact stopped
  | cons a rest ih =>
    have first : IsStopped (reduce timestamp toNumber a.1 s a.2) q ↔ ¬a.2.Overrides q :=
      isStopped_reduce_iff (responses a List.mem_cons_self) stopped
    have later : ∀ b ∈ rest, b.2.IsResponse :=
      fun b listed => responses b (List.mem_cons_of_mem a listed)
    refine ⟨?_, ?_⟩
    · intro throughout
      have afterFirst := throughout [a] ⟨rest, rfl⟩
      have following := (ih _ afterFirst later).mp
        fun earlier isPrefix =>
          throughout (a :: earlier) (List.cons_prefix_cons.mpr ⟨rfl, isPrefix⟩)
      intro b listed
      obtain rfl | inRest := List.mem_cons.mp listed
      · exact first.mp afterFirst
      · exact following b inRest
    · intro harmless earlier isPrefix
      have afterFirst := first.mpr (harmless a List.mem_cons_self)
      cases earlier with
      | nil => exact stopped
      | cons b earlier =>
        obtain ⟨rfl, restPrefix⟩ := List.cons_prefix_cons.mp isPrefix
        exact (ih _ afterFirst later).mpr
          (fun c listed => harmless c (List.mem_cons_of_mem _ listed)) earlier restPrefix

def emptyState : State :=
  { queryEditors := [], unsavedQueryEditor := empty, tabHistory := [], tables := [],
    queries := fun _ => none, queriesLastUpdate := 0, destroyedQueryEditors := empty }

/-- A query object as `runQuery` captures it. -/
def capturedQuery (state : Value) : Object := ofList [("id", text "q"), ("state", state)]

def stoppedState : State :=
  stopQuery (startQuery 1 emptyState (capturedQuery QueryState.running))
    (capturedQuery QueryState.running)

theorem isStopped_stoppedState : IsStopped stoppedState "q" :=
  ⟨_, rfl, by decide, by decide⟩

theorem isStopped_after_poll_and_failure :
    IsStopped (reduceAll (fun _ => none) id stoppedState
      [(2, Action.refreshQueries [("q", capturedQuery QueryState.running)]),
        (3, Action.queryFailed (capturedQuery QueryState.stopped) undefined undefined
          undefined)]) "q" := by
  refine (isStopped_after_responses_iff (fun _ => none) id stoppedState "q"
    [(2, Action.refreshQueries [("q", capturedQuery QueryState.running)]),
      (3, Action.queryFailed (capturedQuery QueryState.stopped) undefined undefined undefined)]
    isStopped_stoppedState ?_).mpr ?_ _ List.prefix_rfl
  · simp [Action.IsResponse]
  · have captured : get (capturedQuery QueryState.stopped) "state" = QueryState.stopped := by decide
    simp [Action.Overrides, captured]

/-- The success of a query captured while it ran revives it after the stop. -/
theorem not_isStopped_after_success :
    ¬IsStopped (reduceAll (fun _ => none) id stoppedState
      [(2, .querySuccess (capturedQuery QueryState.running)
        { status := QueryState.success, query := empty, value := .list [.int 1] })]) "q" := by
  intro stopped
  obtain ⟨query, found, state, -⟩ := stopped
  have shown : ((reduceAll (fun _ => none) id stoppedState
      [(2, .querySuccess (capturedQuery QueryState.running)
        { status := QueryState.success, query := empty, value := .list [.int 1] })]).queries
          "q").map (fun query => get query "state") = some QueryState.success := by decide
  rw [found, Option.map_some, state] at shown
  revert shown
  decide

end Liteset.SqlLab
