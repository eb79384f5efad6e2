import Liteset.Sql.RowSecurityEnforcement

/-!
# Statements over restricted tables

Both transformers give the rows that the statement has over tables restricted to the
rows that satisfy their predicates, if every table with predicates stands where they
are enforced.  Each part of a statement is followed in its own lemma.
-/

set_option autoImplicit false

namespace Liteset.Sql.RowSecurity

open Lib
open TableExtraction (Table TableNode)

variable {V : Type}

section Statements
variable [DecidableEq V] {rules : Rules V} {db : Database V} {method : RlsMethod}

theorem names_evalCtes (database : Database V) (ctes : List (Cte V)) :
    ∀ {visible inner : CteRows V}, evalCtes rules database visible ctes = some inner →
    inner.map Prod.fst = innerNames (visible.map Prod.fst) ctes := by
  induction ctes with
  | nil =>
    intro visible inner run
    cases run
    rfl
  | cons cte rest ih =>
    intro visible inner run
    cases cte with
    | mk name body =>
      rw [evalCtes] at run
      cases rows : eval rules database visible body with
      | none =>
        rw [rows] at run
        cases run
      | some rows' =>
        rw [rows] at run
        exact ih run

/-- The joins of the transformed statement and those over the restricted tables are
the same ones, but for the predicates beside them and the names. -/
def JoinsAgree (rules : Rules V) (method : RlsMethod) (joins : List (Join V))
    (rewritten restricted : Option (List (Joined V))) : Prop :=
  rewritten = none ∧ restricted = none
    ∨ ∃ items : List (Replaced V), rewritten = some (items.map Replaced.joined)
      ∧ restricted = some (items.map fun item => item.restricted)
      ∧ items.map (fun item => (item.source.name, item.newName))
        = joins.map (fun join =>
          (join.relation.name, (transformRelation rules method join.relation).name))
      ∧ ∀ item ∈ items, ∃ join ∈ joins, Agrees rules method join item

omit [DecidableEq V] in
theorem agrees_of_onSound {kind : JoinKind} {relation : Relation V} {on : Option (Condition V)}
    {source : Source V}
    (sound : onSound rules method kind relation on = true)
    (own : ∀ one, besidePredicate rules method relation = some one → Own source.rows.columns one)
    (newName : String) :
    Agrees rules method (.mk kind relation on)
      { kind := kind, source := source, on := on,
        predicate := besidePredicate rules method relation,
        newName := newName } := by
  have sound' : ∀ predicate, besidePredicate rules method relation = some predicate →
      (kind.join.LeftFirst ∧ kind ≠ .cross) ∧ Joinable predicate on := by
    intro predicate beside
    obtain ⟨place, joinable⟩ := of_beside beside sound
    rw [Bool.and_eq_true, decide_eq_true_eq, decide_eq_true_eq] at place
    exact ⟨place, joinable⟩
  refine ⟨⟨own, fun predicate beside => (sound' predicate beside).2,
    fun some => ?_, fun some => ?_⟩, rfl, rfl, rfl⟩
  · obtain ⟨predicate, beside⟩ := Option.ne_none_iff_exists'.mp some
    exact (sound' predicate beside).1.1
  · obtain ⟨predicate, beside⟩ := Option.ne_none_iff_exists'.mp some
    exact (sound' predicate beside).1.2

mutual
theorem eval_transform (own : OwnColumns rules db) : ∀ (query : Query V) (visible : CteRows V),
    enforceable rules method (visible.map Prod.fst) query = true →
    eval rules db visible (transform rules method query) =
      eval rules (restrict rules db) visible query
  | .values _, _, _ => rfl
  | .setOperation operator ctes left right, visible, sound => by
    rw [enforceable, Bool.and_eq_true, Bool.and_eq_true] at sound
    obtain ⟨⟨ctesSound, leftSound⟩, rightSound⟩ := sound
    rw [transform, eval, eval, evalCtes_transform own ctes visible ctesSound]
    cases inner : evalCtes rules (restrict rules db) visible ctes with
    | none => rfl
    | some inner' =>
      have names := names_evalCtes _ ctes inner
      dsimp only
      rw [eval_transform own left inner' (names ▸ leftSound),
        eval_transform own right inner' (names ▸ rightSound)]
  | .select ctes projection first joins condition, visible, sound => by
    rw [enforceable, Bool.and_eq_true, Bool.and_eq_true, Bool.and_eq_true,
      Bool.and_eq_true] at sound
    obtain ⟨⟨⟨⟨ctesSound, relationSound⟩, joinsSound⟩, firstOk⟩, namesOk⟩ := sound
    rw [transform, eval, eval, evalCtes_transform own ctes visible ctesSound]
    cases inner : evalCtes rules (restrict rules db) visible ctes with
    | none => rfl
    | some inner' =>
      have visibleNames := names_evalCtes _ ctes inner
      have relation := relation_agrees own first inner' (visibleNames ▸ relationSound)
      have joined := joins_agree own joins inner' (visibleNames ▸ joinsSound)
      dsimp only
      rcases relation with ⟨one, two⟩ | ⟨source, one, two, name, reads⟩
      · rw [one, two]
      · rcases joined with ⟨three, four⟩ | ⟨items, three, four, names, agrees⟩
        · rw [one, two, three, four]
        · rw [one, two, three, four]
          exact block_agrees projection condition ⟨name, reads, names, agrees⟩ firstOk namesOk

theorem evalCtes_transform (own : OwnColumns rules db) :
    ∀ (ctes : List (Cte V)) (visible : CteRows V),
    ctesEnforceable rules method (visible.map Prod.fst) ctes = true →
    evalCtes rules db visible (transformCtes rules method ctes) =
      evalCtes rules (restrict rules db) visible ctes
  | [], _, _ => rfl
  | .mk name body :: rest, visible, sound => by
    rw [ctesEnforceable, Bool.and_eq_true] at sound
    rw [transformCtes, evalCtes, evalCtes, eval_transform own body visible sound.1]
    cases eval rules (restrict rules db) visible body with
    | none => rfl
    | some rows => exact evalCtes_transform own rest ((name, rows) :: visible) sound.2

theorem relation_agrees (own : OwnColumns rules db) :
    ∀ (relation : Relation V) (visible : CteRows V),
    relationEnforceable rules method (visible.map Prod.fst) relation = true →
    SourcesAgree rules method relation
      (evalRelation rules db visible (transformRelation rules method relation))
      (evalRelation rules (restrict rules db) visible relation)
  | .table node, visible, sound => by
    rw [relationEnforceable] at sound
    rw [transformRelation]
    exact table_agrees own sound
  | .derived aliasName query, visible, sound => by
    rw [relationEnforceable] at sound
    rw [transformRelation, evalRelation, evalRelation, eval_transform own query visible sound]
    cases eval rules (restrict rules db) visible query with
    | none => exact Or.inl ⟨rfl, rfl⟩
    | some rows =>
      exact Or.inr ⟨{ name := aliasName, rows := rows }, rfl, rfl, rfl, fun _ none => by cases none⟩

theorem joins_agree (own : OwnColumns rules db) : ∀ (joins : List (Join V)) (visible : CteRows V),
    joinsEnforceable rules method (visible.map Prod.fst) joins = true →
    JoinsAgree rules method joins (evalJoins rules db visible (transformJoins rules method joins))
      (evalJoins rules (restrict rules db) visible joins)
  | [], _, _ => Or.inr ⟨[], rfl, rfl, rfl, fun _ none => (List.not_mem_nil none).elim⟩
  | .mk kind relation on :: rest, visible, sound => by
    rw [joinsEnforceable, Bool.and_eq_true, Bool.and_eq_true] at sound
    obtain ⟨⟨relationSound, onOk⟩, restSound⟩ := sound
    rw [transformJoins, evalJoins, evalJoins]
    rcases relation_agrees own relation visible relationSound with ⟨one, two⟩ |
      ⟨source, one, two, name, reads⟩
    · rw [one, two]
      exact Or.inl ⟨rfl, rfl⟩
    · rw [one, two]
      rcases joins_agree own rest visible restSound with ⟨three, four⟩ |
        ⟨items, three, four, names, agrees⟩
      · rw [three, four]
        exact Or.inl ⟨rfl, rfl⟩
      · rw [three, four]
        let item : Replaced V :=
          { kind := kind, source := source, on := on,
            predicate := besidePredicate rules method relation,
            newName := (transformRelation rules method relation).name }
        refine Or.inr ⟨item :: items, ?_, rfl, ?_,
          List.forall_mem_cons.mpr ⟨?_, fun other listed => ?_⟩⟩
        · rw [guardCondition_eq, ← name]
          rfl
        · rw [List.map_cons, List.map_cons, names]
          show (source.name, _) :: _ = _
          rw [name]
          rfl
        · exact ⟨_, List.mem_cons_self, agrees_of_onSound onOk reads _⟩
        · obtain ⟨join, isJoin, agree⟩ := agrees other listed
          exact ⟨join, List.mem_cons_of_mem _ isJoin, agree⟩
end

omit [DecidableEq V] in
theorem restrict_eq_self (empty : rules.rules = []) : restrict rules db = db := by
  funext table
  have none : rules.get table = [] := by
    unfold Rules.get
    rw [empty]
    rfl
  unfold restrict
  rw [none]
  cases db table with
  | none => rfl
  | some rows =>
    show some { rows with rows := rows.rows.filter fun _ => true } = some rows
    rw [List.filter_true]

/-- A statement whose tables with predicates all stand where they are enforced returns
what it returns over the restricted tables. -/
theorem applyRls_restricts (own : OwnColumns rules db) {query : Query V}
    (enforced : enforceable rules method [] query = true) :
    eval rules db [] (applyRls rules method query) = eval rules (restrict rules db) [] query := by
  unfold applyRls
  split
  · rename_i empty
    rw [restrict_eq_self (List.isEmpty_iff.mp empty)]
  · exact eval_transform own query [] enforced

end Statements

def isOne (name : String) : Predicate Nat :=
  .one (.one (.mk 0 (.atom { columns := [name], test := fun values => some (values = [some 1]) })))

def salesTable : Table := { table := "sales", schema := some "public", catalog := none }

def salesRules (predicates : List (Predicate Nat)) : Rules Nat where
  catalog := none
  schema := some "public"
  rules := [(salesTable, predicates)]

/-- `region = 1` -/
def regionRules : Rules Nat := salesRules [isOne "region"]

/-- `region = 1 OR shared = 1` -/
def sharedRules : Rules Nat := salesRules [(isOne "region").orElse (isOne "shared")]

def salesDb : Database Nat := fun table =>
  if table = salesTable then
    some
      { columns := ["region", "shared", "year"]
        rows := [[some 1, some 0, some 1], [some 1, some 0, some 2], [some 2, some 0, some 1],
          [some 2, some 1, some 1]] }
  else if table = { table := "years", schema := some "public", catalog := none } then
    some { columns := ["year"], rows := [[some 1]] }
  else none

theorem salesDb_own {predicates : List (Predicate Nat)}
    (own : ∀ predicate ∈ predicates, Own ["region", "shared", "year"] predicate) :
    OwnColumns (salesRules predicates) salesDb := by
  intro table rows found predicate listed
  by_cases same : table = salesTable
  · subst same
    cases found
    exact own predicate listed
  · have none : (salesRules predicates).get table = [] := by
      unfold Rules.get salesRules
      rw [List.find?_cons_of_neg (by simpa using Ne.symm same)]
      rfl
    rw [none] at listed
    cases listed

/-- `FROM sales` in the schema -/
def salesNode (schema : String) : TableNode :=
  { name := "sales", db := schema, catalog := "", aliasName := "" }

/-- `SELECT * FROM sales WHERE sales.year = 1` -/
def salesOfYear (schema : String) : Query Nat :=
  .select [] .star (.table (salesNode schema)) [] (some (qualified (some "sales") (isOne "year")))

/-- `SELECT * FROM years JOIN sales ON sales.year = 1` -/
def yearsJoin (kind : JoinKind) : Query Nat :=
  .select [] .star (.table { name := "years", db := "", catalog := "", aliasName := "" })
    [.mk kind (.table (salesNode "")) (some (qualified (some "sales") (isOne "year")))] none

theorem sales_restricted :
    eval sharedRules salesDb [] (applyRls sharedRules .asSubquery (salesOfYear ""))
        = eval sharedRules (restrict sharedRules salesDb) [] (salesOfYear "")
      ∧ eval regionRules salesDb [] (applyRls regionRules .asPredicate (yearsJoin .left))
        = eval regionRules (restrict regionRules salesDb) [] (yearsJoin .left) :=
  ⟨applyRls_restricts (salesDb_own (by unfold Own; decide)) (by decide),
    applyRls_restricts (salesDb_own (by unfold Own; decide)) (by decide)⟩

/-- The alternative `region = 1` stands outside of the condition, the rows of a right
join come without their predicate, and the sub-query has no relation `sales`. -/
theorem sales_unrestricted :
    eval sharedRules salesDb [] (applyRls sharedRules .asPredicate (salesOfYear ""))
        ≠ eval sharedRules (restrict sharedRules salesDb) [] (salesOfYear "")
      ∧ eval regionRules salesDb [] (applyRls regionRules .asPredicate (yearsJoin .right))
        ≠ eval regionRules (restrict regionRules salesDb) [] (yearsJoin .right)
      ∧ eval regionRules salesDb [] (applyRls regionRules .asSubquery (salesOfYear "public"))
        ≠ eval regionRules (restrict regionRules salesDb) [] (salesOfYear "public") := by
  decide

end Liteset.Sql.RowSecurity
