import Liteset.Sql.MutationGate

/-!
# Where the two gates agree

A statement that the read-only gate lets through may still hold a mutation below its
root, and an `EXPLAIN` that runs its statement is seen through in one spelling only.  What
stands behind `VERBOSE` is read with that word as a statement of its own.
-/

set_option autoImplicit false

namespace Liteset.Sql.MutationGate

open Lib List

section Fuel
variable {parser : Parser} {postgres : Bool}

theorem length_analyzed {literal : String} (starts : "ANALYZE ".toList <+: upper literal) :
    (String.ofList (literal.toList.drop "ANALYZE ".length)).length + "ANALYZE ".length =
      literal.length := by
  have long : "ANALYZE ".length ≤ literal.length := by
    have bound := starts.length_le
    unfold upper at bound
    rw [length_map, String.length_toList, String.length_toList] at bound
    exact bound
  rw [String.length_ofList, length_drop, String.length_toList]
  omega

theorem isMutatingBy_congr {analyzed analyzed' : Expression → Option Bool} {root : Expression}
    (same : ∀ inner, ((expressionName inner).getD "").length <
      ((expressionName root).getD "").length →
      analyzed inner = analyzed' inner) :
    isMutatingBy parser postgres analyzed root = isMutatingBy parser postgres analyzed' root := by
  unfold isMutatingBy
  cases named : expressionName root with
  | none => rfl
  | some literal =>
    dsimp only
    by_cases starts : "ANALYZE ".toList <+: upper literal
    · have within :
        (parser.parse (String.ofList (literal.toList.drop "ANALYZE ".length))).bind analyzed
          = (parser.parse (String.ofList (literal.toList.drop "ANALYZE ".length))).bind
            analyzed' := by
        cases read : parser.parse (String.ofList (literal.toList.drop "ANALYZE ".length)) with
        | none => rfl
        | some inner =>
          have shorter := parser.shorter _ _ read
          have cut := length_analyzed starts
          have prefixLength : "ANALYZE ".length = 8 := by decide
          refine same inner ?_
          rw [named, Option.getD_some]
          omega
      rw [within]
    · rw [if_neg starts, if_neg starts]

theorem isMutatingWithin_congr : ∀ {fuel fuel' : Nat} {root : Expression},
    ((expressionName root).getD "").length < fuel → ((expressionName root).getD "").length < fuel' →
    isMutatingWithin parser postgres fuel root = isMutatingWithin parser postgres fuel' root := by
  intro fuel
  induction fuel with
  | zero => exact fun enough => absurd enough (Nat.not_lt_zero _)
  | succ fuel ih =>
    intro fuel' root enough enough'
    cases fuel' with
    | zero => exact absurd enough' (Nat.not_lt_zero _)
    | succ fuel' => exact isMutatingBy_congr fun inner shorter => ih (by omega) (by omega)

/-- `is_mutating` as it is written. -/
theorem isMutating_eq (root : Expression) :
    isMutating parser postgres root = isMutatingBy parser postgres
      (isMutating parser postgres) root :=
  isMutatingBy_congr fun _ shorter => isMutatingWithin_congr shorter (Nat.lt_succ_self _)

end Fuel

variable {root : Expression}

theorem unnestType_other {type : NodeType} (other : root.label.type ≠ type) :
    unnestType type root = root := by
  cases root with
  | node label args =>
    rw [unnestType]
    exact if_neg other

theorem type_of_readOnly (passes : isReadOnlySelect root = true) :
    root.label.type ∈ [NodeType.select, .union, .except, .intersect, .subquery, .paren] := by
  by_cases subquery : root.label.type = .subquery
  · rw [subquery]
    decide
  · by_cases paren : root.label.type = .paren
    · rw [paren]
      decide
    · unfold isReadOnlySelect unnest at passes
      rw [if_neg subquery, unnestType_other paren] at passes
      dsimp only at passes
      split at passes
      · rename_i isQuery
        exact mem_append_left [NodeType.subquery, .paren] isQuery
      · cases passes

theorem query_kinds : ∀ type ∈ [NodeType.select, .union, .except, .intersect, .subquery, .paren],
    type ∉ mutatingNodes ∧ type ≠ .command := by
  decide

theorem plain_root_of_readOnly (passes : isReadOnlySelect root = true) : Plain root := by
  refine ⟨(query_kinds _ (type_of_readOnly passes)).1, fun select => ?_⟩
  · have notSubquery : root.label.type ≠ .subquery := by rw [select.1]; decide
    have notParen : root.label.type ≠ .paren := by rw [select.1]; decide
    unfold isReadOnlySelect unnest at passes
    rw [if_neg notSubquery, unnestType_other notParen] at passes
    dsimp only at passes
    rw [select.1, select.2] at passes
    cases passes

theorem isMutating_of_readOnly (parser : Parser) (postgres : Bool)
    (passes : isReadOnlySelect root = true) :
    isMutating parser postgres root = some (find mutatingNodes root) := by
  have noCommand : isCommand root = false :=
    decide_eq_false (query_kinds _ (type_of_readOnly passes)).2
  rw [isMutating_eq]
  unfold isMutatingBy isOpaque
  rw [noCommand]
  cases find mutatingNodes root with
  | true => rfl
  | false =>
    cases postgres with
    | true => rfl
    | false => rfl

theorem find_eq_false {types : List NodeType}
    (absent : ∀ node ∈ root.nodes, node.label.type ∉ types) : find types root = false := by
  unfold find
  rw [any_eq_false]
  exact fun node member => by simpa using absent node member

theorem toUpper_eq_space {c : Char} : c.toUpper = ' ' ↔ c = ' ' := by
  constructor
  · intro same
    unfold Char.toUpper at same
    split at same
    · rename_i lower
      have value := Char.val_inj.mpr same
      dsimp only at value
      have moved : c.val = ' '.val - ('A'.val - 'a'.val) := by
        rw [← value, UInt32.add_sub_cancel]
      rw [moved] at lower
      exact absurd lower.1 (by decide)
    · exact same
  · rintro rfl
    decide

theorem upper_ofList (text : List Char) : upper (String.ofList text) = text.map Char.toUpper := by
  unfold upper
  rw [String.toList_ofList]

theorem starts_analyze (word : Spelling "ANALYZE") (behind : List Char) :
    "ANALYZE ".toList <+: upper (String.ofList (word.text.toList ++ behind)) ↔
    behind.head? = some ' ' := by
  have split : "ANALYZE ".toList = "ANALYZE".toList ++ [' '] := by decide
  have spelled : word.text.toList.map Char.toUpper = "ANALYZE".toList := word.spells
  rw [upper_ofList, map_append, spelled, split, prefix_append_right_inj]
  cases behind with
  | nil => simp
  | cons c rest =>
    rw [map_cons, cons_prefix_cons, head?_cons, Option.some.injEq]
    constructor
    · exact fun starts => toUpper_eq_space.mp starts.1.symm
    · exact fun space => ⟨(toUpper_eq_space.mpr space).symm, nil_prefix⟩

theorem length_spelling {word : String} (spelling : Spelling word) :
    spelling.text.toList.length = word.length := by
  have same := congrArg List.length spelling.spells
  unfold upper at same
  rw [length_map, String.length_toList] at same
  exact same

theorem drop_spelling (word : Spelling "ANALYZE") (behind : List Char) :
    (word.text.toList ++ behind).drop 8 = behind.drop 1 := by
  have length : word.text.toList.length = 7 := length_spelling word
  rw [drop_append, length, drop_eq_nil_of_le (by omega), nil_append]

section Explain
variable (parser : Parser)

theorem isMutating_explain (explain : Explain) :
    isMutating parser true explain.command =
      if "ANALYZE ".toList <+: upper (String.ofList (explain.options.text ++ explain.body.toList))
        then
        (parser.parse (String.ofList ((explain.options.text ++ explain.body.toList).drop 8))).bind
          (isMutating parser true)
      else some false := by
  have prefixLength : "ANALYZE ".length = 8 := by decide
  have noMutation : find mutatingNodes explain.command = false :=
    find_eq_false fun node member => by
      have two : node = explain.command ∨ node.label.type = .literal := by
        unfold Explain.command at member ⊢
        rw [Lib.Tree.nodes, Lib.Tree.nodesOf, Lib.Tree.nodesOf, Lib.Tree.nodes,
          Lib.Tree.nodesOf] at member
        rcases mem_cons.mp member with rfl | inner
        · exact Or.inl rfl
        · rw [append_nil, mem_singleton] at inner
          rw [inner]
          exact Or.inr rfl
      rcases two with rfl | literal
      · exact (by decide : NodeType.command ∉ mutatingNodes)
      · rw [literal]
        decide
  have named : expressionName explain.command =
    some (String.ofList (explain.options.text ++ explain.body.toList)) := rfl
  have isExplain : isCommand explain.command = true := rfl
  have name : explain.command.label.this = "EXPLAIN" := rfl
  have allowed : isOpaque explain.command = false := by
    show (true && decide (String.ofList (upper "EXPLAIN") ∉ readOnlyCommandNames)) = false
    decide
  rw [isMutating_eq]
  unfold isMutatingBy
  rw [noMutation, named, allowed, isExplain, name, if_neg (by decide), if_neg (by decide),
    if_neg (by decide), if_pos (by decide)]
  simp only [prefixLength, String.toList_ofList]

theorem bare_seen {gap body : List Char} (white : gap.all isWhite = true)
    (space : (gap ++ body).head? = some ' ') :
    parser.parse (String.ofList ((gap ++ body).drop 1)) = parser.parse (String.ofList body) := by
  cases gap with
  | nil =>
    cases body with
    | nil => cases space
    | cons c rest =>
      obtain rfl : c = ' ' := Option.some.inj space
      exact (parser.skips [' '] rest (by decide)).symm
  | cons c rest =>
    rw [all_cons, Bool.and_eq_true] at white
    exact parser.skips rest body white.2

theorem not_starts_of_parenthesised (text : List Char) :
    ¬ "ANALYZE ".toList <+: upper (String.ofList ('(' :: text)) := by
  have letters : "ANALYZE ".toList = 'A' :: "NALYZE ".toList := by decide
  rw [upper_ofList, map_cons, letters]
  intro starts
  exact absurd (cons_prefix_cons.mp starts).1 (by decide)

/-- Behind `ANALYZE` alone the explained statement is found exactly when a space is next. -/
theorem bare_iff (word : Spelling "ANALYZE") (gap : List Char) (white : gap.all isWhite = true)
    (body : String) (mutates : mutatesText parser body.toList = true) :
    isMutating parser true (Explain.command ⟨.bare word gap white, body⟩) = some true ↔
      (gap ++ body.toList).head? = some ' ' := by
  unfold mutatesText at mutates
  rw [decide_eq_true_eq] at mutates
  rw [isMutating_explain]
  unfold AnalyzeOptions.text
  dsimp only
  rw [append_assoc]
  have starts := starts_analyze word (gap ++ body.toList)
  by_cases space : (gap ++ body.toList).head? = some ' '
  · rw [if_pos (starts.mpr space), drop_spelling, bare_seen parser white space]
    exact iff_of_true mutates space
  · rw [if_neg fun seen => space (starts.mp seen)]
    exact iff_of_false (by decide) space

theorem parenthesised_unseen (options : List ExplainOption)
    (requests : requestsAnalyze options = true)
    (after : List Char) (white : after.all isWhite = true) (body : String) :
    isMutating parser true (Explain.command ⟨.parenthesised options requests after white, body⟩) =
      some false := by
  rw [isMutating_explain]
  exact if_neg (not_starts_of_parenthesised _)

theorem explain_iff (explain : Explain) (mutates : mutatesText parser explain.body.toList = true) :
    (SpaceBehindAnalyze explain → isMutating parser true explain.command = some true) ∧
      (isMutating parser true explain.command = some true →
        SpaceBehindAnalyze explain ∨ explain.options.isVerbose = true) := by
  cases explain with
  | mk options body =>
    cases options with
    | bare word gap white =>
      have iff := bare_iff parser word gap white body mutates
      exact ⟨iff.mpr, fun seen => Or.inl (iff.mp seen)⟩
    | verbose word gap second after white => exact ⟨False.elim, fun _ => Or.inr rfl⟩
    | parenthesised options requests after white =>
      refine ⟨False.elim, fun seen => ?_⟩
      rw [parenthesised_unseen] at seen
      cases seen

end Explain

theorem onlyReads_iff (parser : Parser) (postgres : Bool) (root : Expression)
    (passes : isReadOnlySelect root = true) :
    OnlyReads parser postgres root ↔ ∀ node ∈ root.inner, Plain node := by
  have plainRoot := plain_root_of_readOnly passes
  rw [OnlyReads, Lib.Tree.nodes_eq, forall_mem_cons, isMutating_of_readOnly parser postgres passes,
    Option.some.injEq]
  constructor
  · exact fun sound => sound.2.2
  · intro inner
    refine ⟨find_eq_false fun node member => ?_, plainRoot, inner⟩
    rw [Lib.Tree.nodes_eq] at member
    rcases mem_cons.mp member with rfl | below
    · exact plainRoot.1
    · exact (inner node below).1

/-- A statement that the root test lets through only reads exactly when nothing below its
root is a mutation, and a mutation behind `EXPLAIN` is seen in one spelling of `ANALYZE`. -/
theorem gates_sound_iff (parser : Parser) (postgres : Bool) (root : Expression)
    (explain : Explain) :
    (isReadOnlySelect root = true →
        (OnlyReads parser postgres root ↔ ∀ node ∈ root.inner, Plain node)) ∧
      (mutatesText parser explain.body.toList = true →
        (SpaceBehindAnalyze explain → isMutating parser true explain.command = some true) ∧
          (isMutating parser true explain.command = some true →
            SpaceBehindAnalyze explain ∨ explain.options.isVerbose = true)) :=
  ⟨onlyReads_iff parser postgres root, explain_iff parser explain⟩

def leaf (argKey : String) (type : NodeType) : Expression :=
  .node { argKey := argKey, type := type, this := "" } []

/-- Reads `DELETE …` and `SELECT …`. -/
def wordParser : Parser where
  parse := fun text =>
    let words := text.toList.dropWhile isWhite
    if "DELETE ".toList <+: words then some (leaf "" .delete)
    else if "SELECT ".toList <+: words then some (leaf "" .select)
    else none
  shorter := by
    intro text root read
    dsimp only at read
    split at read
    · cases read
      exact Nat.zero_le _
    · split at read
      · cases read
        exact Nat.zero_le _
      · cases read
  skips := by
    intro white text allWhite
    have dropped : (white ++ text).dropWhile isWhite = text.dropWhile isWhite :=
      List.dropWhile_append_of_pos fun c member => List.all_eq_true.mp allWhite c member
    simp only [String.toList_ofList, dropped]

/-- `WITH d AS (DELETE … RETURNING …) SELECT …` -/
def deletingCte : Expression :=
  .node { argKey := "", type := .select, this := "" }
    [.node { argKey := "with", type := .other "With", this := "" }
      [.node { argKey := "expressions", type := .other "CTE", this := "" } [leaf "this" .delete]]]

def analyzeWord : Spelling "ANALYZE" := { text := "analyze", spells := by decide }

/-- `EXPLAIN analyze⏎DELETE FROM t` -/
def explainLine : Explain where
  options := .bare analyzeWord ['\n'] (by decide)
  body := "DELETE FROM t"

/-- `EXPLAIN (analyze) DELETE FROM t` -/
def explainParenthesised : Explain where
  options := .parenthesised
    [{ before := [], name := "analyze", value := none, after := [], white := by decide }]
      (by decide) [' '] (by decide)
  body := "DELETE FROM t"

theorem gates_unsound :
    isReadOnlySelect deletingCte = true ∧ isMutating wordParser true deletingCte = some true
      ∧ mutatesText wordParser "DELETE FROM t".toList = true
      ∧ isMutating wordParser true explainLine.command = some false
      ∧ isMutating wordParser true explainParenthesised.command = some false := by
  decide

end Liteset.Sql.MutationGate
