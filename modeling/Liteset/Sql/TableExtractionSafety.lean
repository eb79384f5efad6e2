import Mathlib.Data.List.Basic
import Liteset.Sql.TableExtraction

/-!
# Which tables are extracted

The name test of `is_cte` looks at the block around the one a table stands in, and at
nothing but the last part of the table's name.  A table that is read is missed if it
is read in no block in which the test lets it through (`extracts_iff`).
-/

set_option autoImplicit false

namespace Liteset.Sql.TableExtraction

open List

/-- The names under which a block has a CTE among its sources: those it sees and does
not give to a relation, and the names it gives to CTEs. -/
def cteSources (visible : List String) (relations : List Relation) : List String :=
  (visible.filter fun name => name ∉ relations.map Relation.aliasOrName)
    ++ relations.filterMap fun relation =>
      match relation with
      | .table node => if bound visible node then some node.aliasOrName else none
      | .derived _ _ => none

mutual
def references : List String → List String → Query → List (TableNode × List String)
  | outer, hidden, .select recursive ctes relations subqueries =>
    let visible := visibleIn outer ctes
    let names := cteSources visible relations
    (unbound visible relations).map (fun node => (node, hidden))
      ++ cteReferences (visibleFirst recursive outer ctes) names ctes
      ++ relationReferences visible names relations
      ++ subqueryReferences visible names subqueries
  | outer, _, .setOperation recursive ctes left right =>
    let visible := visibleIn outer ctes
    cteReferences (visibleFirst recursive outer ctes) visible ctes
      ++ references visible visible left
      ++ references visible visible right

def cteReferences : List String → List String → List Cte → List (TableNode × List String)
  | _, _, [] => []
  | visible, hidden, .mk name body :: rest =>
    references visible hidden body ++ cteReferences (visible ++ [name]) hidden rest

def relationReferences : List String → List String → List Relation → List (TableNode × List String)
  | _, _, [] => []
  | visible, hidden, .table _ :: rest => relationReferences visible hidden rest
  | visible, hidden, .derived _ query :: rest =>
    references visible hidden query ++ relationReferences visible hidden rest

def subqueryReferences : List String → List String → List Query → List (TableNode × List String)
  | _, _, [] => []
  | visible, hidden, query :: rest =>
    references visible hidden query ++ subqueryReferences visible hidden rest
end

/-- Each table that is read is read in some block whose enclosing block has no CTE
under the last part of the table's name. -/
def Unhidden (query : Query) : Prop :=
  ∀ reference ∈ references [] [] query, ∃ other ∈ references [] [] query,
    toTable other.1 = toTable reference.1 ∧ other.1.name ∉ other.2

instance (query : Query) : Decidable (Unhidden query) :=
  inferInstanceAs
    (Decidable (∀ reference ∈ references [] [] query, ∃ other ∈ references [] [] query,
    toTable other.1 = toTable reference.1 ∧ other.1.name ∉ other.2))

/-- The tables of a scope with the names `is_cte` looks for. -/
def scopeReferences (scope : Scope) : List (TableNode × List String) :=
  (scopeTables scope).map fun node => (node, ctesInScope scope.parent)

theorem filterMap_tableNode_sources (visible : List String) (relations : List Relation) :
    (sources visible relations).filterMap tableNode = unbound visible relations := by
  unfold sources
  rw [filterMap_append, filterMap_map, filterMap_map]
  have ctes : ∀ names : List String,
      names.filterMap (tableNode ∘ fun name => (name, Source.scope ScopeType.cte)) = [] := by
    intro names
    exact filterMap_eq_nil_iff.mpr fun _ _ => rfl
  rw [ctes, nil_append]
  apply filterMap_congr
  intro relation _
  cases relation with
  | derived aliasName query => rfl
  | table node =>
    show tableNode (_, if bound visible node then _ else _) = if bound visible node then _ else _
    cases bound visible node with
    | true => rfl
    | false => rfl

theorem filterMap_cteName_sources (visible : List String) (relations : List Relation) :
    (sources visible relations).filterMap cteName = cteSources visible relations := by
  unfold sources cteSources
  rw [filterMap_append, filterMap_map, filterMap_map]
  congr 1
  · exact filterMap_some
  · apply filterMap_congr
    intro relation _
    cases relation with
    | derived aliasName query => rfl
    | table node =>
      show cteName (_, if bound visible node then _ else _) = if bound visible node then _ else _
      cases bound visible node with
      | true => rfl
      | false => rfl

theorem cteSources_nil (visible : List String) : cteSources visible [] = visible := by
  unfold cteSources
  rw [filterMap_nil, append_nil]
  exact filter_eq_self.mpr fun name _ => rfl

mutual
theorem flatMap_queryBlocks : ∀ (query : Query) (outer : List String) (parent : Option Scope),
    (queryBlocks outer parent query).flatMap scopeReferences =
      references outer (ctesInScope parent) query
  | .select recursive ctes relations subqueries, outer, parent => by
    have hidden := filterMap_cteName_sources (visibleIn outer ctes) relations
    unfold queryBlocks references
    dsimp only
    rw [flatMap_append, flatMap_append, flatMap_cons, flatMap_cteBlocks, flatMap_relationBlocks,
      flatMap_subqueryBlocks]
    dsimp only [ctesInScope]
    rw [hidden]
    unfold scopeReferences scopeTables
    dsimp only
    rw [filterMap_tableNode_sources]
    rfl
  | .setOperation recursive ctes left right, outer, parent => by
    have hidden := filterMap_cteName_sources (visibleIn outer ctes) []
    rw [cteSources_nil] at hidden
    unfold queryBlocks references
    dsimp only
    rw [flatMap_append, flatMap_append, flatMap_cons, flatMap_cteBlocks, flatMap_queryBlocks left,
      flatMap_queryBlocks right]
    dsimp only [ctesInScope]
    rw [hidden]
    unfold scopeReferences scopeTables
    dsimp only
    rw [filterMap_tableNode_sources]
    rfl

theorem flatMap_cteBlocks : ∀ (ctes : List Cte) (visible : List String) (scope : Scope),
    (cteBlocks visible scope ctes).flatMap scopeReferences =
      cteReferences visible (ctesInScope (some scope)) ctes
  | [], _, _ => rfl
  | .mk name body :: rest, visible, scope => by
    rw [cteBlocks, cteReferences, flatMap_append, flatMap_queryBlocks body, flatMap_cteBlocks rest]

theorem flatMap_relationBlocks :
    ∀ (relations : List Relation) (visible : List String) (scope : Scope),
    (relationBlocks visible scope relations).flatMap scopeReferences
      = relationReferences visible (ctesInScope (some scope)) relations
  | [], _, _ => rfl
  | .table _ :: rest, visible, scope => by
    rw [relationBlocks, relationReferences, flatMap_relationBlocks rest]
  | .derived _ query :: rest, visible, scope => by
    rw [relationBlocks, relationReferences, flatMap_append, flatMap_queryBlocks query,
      flatMap_relationBlocks rest]

theorem flatMap_subqueryBlocks :
    ∀ (subqueries : List Query) (visible : List String) (scope : Scope),
    (subqueryBlocks visible scope subqueries).flatMap scopeReferences
      = subqueryReferences visible (ctesInScope (some scope)) subqueries
  | [], _, _ => rfl
  | query :: rest, visible, scope => by
    rw [subqueryBlocks, subqueryReferences, flatMap_append, flatMap_queryBlocks query,
      flatMap_subqueryBlocks rest]
end

mutual
theorem map_references : ∀ (query : Query) (outer hidden : List String),
    (references outer hidden query).map Prod.fst = tablesRead outer query
  | .select recursive ctes relations subqueries, outer, hidden => by
    unfold references tablesRead
    dsimp only
    rw [map_append, map_append, map_append, map_cteReferences, map_relationReferences,
      map_subqueryReferences, map_map]
    have same : (Prod.fst ∘ fun node : TableNode => (node, hidden)) = id := rfl
    rw [same, map_id]
  | .setOperation recursive ctes left right, outer, hidden => by
    unfold references tablesRead
    dsimp only
    rw [map_append, map_append, map_cteReferences, map_references left, map_references right]

theorem map_cteReferences : ∀ (ctes : List Cte) (visible hidden : List String),
    (cteReferences visible hidden ctes).map Prod.fst = cteTablesRead visible ctes
  | [], _, _ => rfl
  | .mk name body :: rest, visible, hidden => by
    rw [cteReferences, cteTablesRead, map_append, map_references body, map_cteReferences rest]

theorem map_relationReferences : ∀ (relations : List Relation) (visible hidden : List String),
    (relationReferences visible hidden relations).map Prod.fst =
      relationTablesRead visible relations
  | [], _, _ => rfl
  | .table _ :: rest, visible, hidden => by
    rw [relationReferences, relationTablesRead, map_relationReferences rest]
  | .derived _ query :: rest, visible, hidden => by
    rw [relationReferences, relationTablesRead, map_append, map_references query,
      map_relationReferences rest]

theorem map_subqueryReferences : ∀ (subqueries : List Query) (visible hidden : List String),
    (subqueryReferences visible hidden subqueries).map Prod.fst =
      subqueryTablesRead visible subqueries
  | [], _, _ => rfl
  | query :: rest, visible, hidden => by
    rw [subqueryReferences, subqueryTablesRead, map_append, map_references query,
      map_subqueryReferences rest]
end

section Extracts
variable {parseOne : String → Option (List TableNode)} {traverseScope : Query → List Scope}
    {query : Query}

theorem mem_scopeReferences {scope : Scope} {reference : TableNode × List String} :
    reference ∈ scopeReferences scope ↔ reference.1 ∈ scopeTables scope ∧
    reference.2 = ctesInScope scope.parent := by
  unfold scopeReferences
  rw [mem_map]
  constructor
  · rintro ⟨node, member, rfl⟩
    exact ⟨member, rfl⟩
  · rintro ⟨member, same⟩
    exact ⟨reference.1, member, Prod.ext rfl same.symm⟩

theorem mem_extract_iff (yields : YieldsBlocks traverseScope query) {table : Table} :
    table ∈ extractTablesFromStatement parseOne traverseScope (.query query)
      ↔ ∃ reference ∈ references [] [] query, reference.1.name ∉ reference.2 ∧
      toTable reference.1 = table := by
  have blocks := flatMap_queryBlocks query [] none
  have none : ctesInScope none = [] := rfl
  rw [none] at blocks
  show table ∈ List.map toTable _ ↔ _
  rw [mem_map]
  constructor
  · rintro ⟨node, kept, same⟩
    obtain ⟨scope, listed, kept⟩ := mem_flatMap.mp kept
    obtain ⟨member, test⟩ := mem_filter.mp kept
    refine ⟨(node, ctesInScope scope.parent), ?_, ?_, same⟩
    · rw [← blocks]
      exact mem_flatMap.mpr ⟨scope, (yields scope).mp listed, mem_scopeReferences.mpr ⟨member, rfl⟩⟩
    · intro hidden
      rw [isCte, decide_eq_true hidden] at test
      cases test
  · rintro ⟨reference, listed, visible, same⟩
    rw [← blocks] at listed
    obtain ⟨scope, block, member⟩ := mem_flatMap.mp listed
    obtain ⟨member, names⟩ := mem_scopeReferences.mp member
    refine ⟨reference.1, mem_flatMap.mpr ⟨scope, (yields scope).mpr block, ?_⟩, same⟩
    refine mem_filter.mpr ⟨member, ?_⟩
    rw [names] at visible
    rw [isCte, decide_eq_false visible]
    rfl

theorem mem_tablesRead_iff {table : Table} :
    table ∈ (tablesRead [] query).map toTable ↔ ∃ reference ∈ references [] [] query,
      toTable reference.1 = table := by
  rw [← map_references query [] [], map_map, mem_map]
  rfl

theorem extract_subset (yields : YieldsBlocks traverseScope query) {table : Table}
    (extracted : table ∈ extractTablesFromStatement parseOne traverseScope (.query query)) :
    table ∈ (tablesRead [] query).map toTable := by
  obtain ⟨reference, listed, _, same⟩ := (mem_extract_iff yields).mp extracted
  exact mem_tablesRead_iff.mpr ⟨reference, listed, same⟩

end Extracts

theorem extracts_iff (parseOne : String → Option (List TableNode))
    (traverseScope : Query → List Scope) (query : Query)
    (yields : YieldsBlocks traverseScope query) :
    (∀ table, table ∈ extractTablesFromStatement parseOne traverseScope (.query query)
      ↔ table ∈ (tablesRead [] query).map toTable) ↔ Unhidden query := by
  constructor
  · intro exact reference listed
    have extracted :=
      (exact (toTable reference.1)).mpr (mem_tablesRead_iff.mpr ⟨reference, listed, rfl⟩)
    obtain ⟨other, listedOther, visible, same⟩ := (mem_extract_iff yields).mp extracted
    exact ⟨other, listedOther, same, visible⟩
  · intro unhidden table
    refine ⟨extract_subset yields, fun read => ?_⟩
    obtain ⟨reference, listed, rfl⟩ := mem_tablesRead_iff.mp read
    obtain ⟨other, listedOther, same, visible⟩ := unhidden reference listed
    exact (mem_extract_iff yields).mpr ⟨other, listedOther, visible, same⟩

def plain (name : String) : Relation :=
  .table { name := name, db := "", catalog := "", aliasName := "" }

def inSchema (db name : String) : Relation :=
  .table { name := name, db := db, catalog := "", aliasName := "" }

/-- `WITH foo AS (SELECT * FROM bar) SELECT * FROM foo JOIN secret.foo` -/
def joined : Query :=
  .select false [.mk "foo" (.select false [] [plain "bar"] [])]
    [plain "foo", inSchema "secret" "foo"] []

/-- `WITH foo AS (SELECT * FROM bar) SELECT * FROM foo UNION SELECT * FROM secret.foo` -/
def united : Query :=
  .setOperation false [.mk "foo" (.select false [] [plain "bar"] [])]
    (.select false [] [plain "foo"] []) (.select false [] [inSchema "secret" "foo"] [])

/-- At the top the qualified name is no CTE. -/
theorem joined_extracts : Unhidden joined ∧ ∀ table,
    table ∈ extractTablesFromStatement (fun _ => none) (queryBlocks [] none) (.query joined)
      ↔ table ∈ (tablesRead [] joined).map toTable :=
  ⟨by decide, (extracts_iff (fun _ => none) (queryBlocks [] none) joined fun _ => Iff.rfl).mpr
    (by decide)⟩

/-- In an arm of a set operation it is taken for one, and `secret.foo` is not checked. -/
theorem united_misses :
    { table := "foo", schema := some "secret", catalog := none } ∈
      (tablesRead [] united).map toTable
      ∧ { table := "foo", schema := some "secret", catalog := none }
        ∉ extractTablesFromStatement (fun _ => none) (queryBlocks [] none) (.query united) := by
  decide

end Liteset.Sql.TableExtraction
