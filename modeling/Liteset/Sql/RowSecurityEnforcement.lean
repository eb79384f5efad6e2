import Liteset.Sql.RowSecurityNames

/-!
# Tables that are restricted by what stands beside them

A table with predicates stands where they are enforced if it is no CTE, its predicates
are in a `WHERE` or an `ON` that filters it, and no column asks for a name that the
transformation changes.
-/

set_option autoImplicit false

namespace Liteset.Sql.RowSecurity

open Lib List
open TableExtraction (Table TableNode bound)

variable {V : Type}

def ruled (rules : Rules V) : Relation V → Bool
  | .table node => !(rules.get (rules.tableOf node)).isEmpty
  | .derived _ _ => false

/-- The only predicate of the table has a top-level `OR`. -/
def disjunctive (rules : Rules V) : Relation V → Bool
  | .table node =>
    match rules.get (rules.tableOf node) with
    | [only] => !only.Single
    | _ => false
  | .derived _ _ => false

def tableSound (rules : Rules V) (visible : List String) (node : TableNode) : Bool :=
  !ruled rules (.table node) || !bound visible node

/-- A predicate in `WHERE`: no join brings rows of its own. -/
def firstSound (rules : Rules V) (method : RlsMethod) (first : Relation V) (joins : List (Join V))
    (condition : Option (Condition V)) : Bool :=
  method = .asSubquery || !ruled rules first
    || joins.all (fun join => join.kind.join.LeftFirst) &&
      (condition.isNone || !disjunctive rules first)

/-- A predicate in `ON`. -/
def onSound (rules : Rules V) (method : RlsMethod) (kind : JoinKind) (relation : Relation V)
    (on : Option (Condition V)) : Bool :=
  method = .asSubquery || !ruled rules relation
    || kind.join.LeftFirst && kind ≠ .cross && (on.isNone || !disjunctive rules relation)

def newName (rules : Rules V) (method : RlsMethod) : Relation V → String
  | .table node =>
    if method = .asSubquery ∧ ruled rules (.table node) = true ∧ node.aliasName = ""
      then dottedName node
    else node.aliasOrName
  | .derived aliasName _ => aliasName

def namePairs (rules : Rules V) (method : RlsMethod) (first : Relation V) (joins : List (Join V)) :
    List (String × String) :=
  (first :: joins.map Join.relation).map fun relation =>
    (relation.name, newName rules method relation)

def blockColumns (projection : Projection V) (joins : List (Join V))
    (condition : Option (Condition V)) : List Column :=
  projectionColumns projection ++ conditionColumns condition ++ joins.flatMap fun join =>
    conditionColumns join.on

def namesSound (rules : Rules V) (method : RlsMethod) (projection : Projection V)
    (first : Relation V)
    (joins : List (Join V)) (condition : Option (Condition V)) : Bool :=
  (((namePairs rules method first joins).map Prod.snd).Nodup
      ↔ ((namePairs rules method first joins).map Prod.fst).Nodup)
    && (blockColumns projection joins condition).all fun column =>
        (namePairs rules method first joins).all fun pair =>
          (column.qualifier = some pair.2 ↔ column.qualifier = some pair.1)

def innerNames (visible : List String) (ctes : List (Cte V)) : List String :=
  ctes.foldl (fun visible cte => match cte with | .mk name _ => name :: visible) visible

mutual
def enforceable (rules : Rules V) (method : RlsMethod) : List String → Query V → Bool
  | visible, .select ctes projection first joins condition =>
    ctesEnforceable rules method visible ctes
      && relationEnforceable rules method (innerNames visible ctes) first
      && joinsEnforceable rules method (innerNames visible ctes) joins
      && firstSound rules method first joins condition
      && namesSound rules method projection first joins condition
  | _, .values _ => true
  | visible, .setOperation _ ctes left right =>
    ctesEnforceable rules method visible ctes
      && enforceable rules method (innerNames visible ctes) left
      && enforceable rules method (innerNames visible ctes) right

def ctesEnforceable (rules : Rules V) (method : RlsMethod) : List String → List (Cte V) → Bool
  | _, [] => true
  | visible, .mk name body :: rest =>
    enforceable rules method visible body && ctesEnforceable rules method (name :: visible) rest

def relationEnforceable (rules : Rules V) (method : RlsMethod) : List String → Relation V → Bool
  | visible, .table node => tableSound rules visible node
  | visible, .derived _ query => enforceable rules method visible query

def joinsEnforceable (rules : Rules V) (method : RlsMethod) : List String → List (Join V) → Bool
  | _, [] => true
  | visible, .mk kind relation on :: rest =>
    relationEnforceable rules method visible relation && onSound rules method kind relation on
      && joinsEnforceable rules method visible rest
end

/-- The predicates of a table read columns that it has. -/
def OwnColumns (rules : Rules V) (db : Database V) : Prop :=
  ∀ table rows, db table = some rows → ∀ predicate ∈ rules.get table, Own rows.columns predicate

section Rules
variable {rules : Rules V} {method : RlsMethod} {relation : Relation V} {predicate : Predicate V}

theorem ruled_of_getPredicate {node : TableNode}
    (combined : rules.getPredicate node = some predicate) :
    ruled rules (.table node) = true := by
  unfold Rules.getPredicate at combined
  unfold ruled
  dsimp only
  cases predicates : rules.get (rules.tableOf node) with
  | nil =>
    rw [predicates] at combined
    cases combined
  | cons _ _ => rfl

theorem not_ruled_of_getPredicate {node : TableNode} (combined : rules.getPredicate node = none) :
    ruled rules (.table node) = false := by
  unfold ruled
  dsimp only
  rw [eq_nil_of_sqlglotAnd combined]
  rfl

theorem beside_eq_some (beside : besidePredicate rules method relation = some predicate) :
    method = .asPredicate ∧ ∃ node, relation = .table node ∧
    rules.getPredicate node = some predicate := by
  cases relation with
  | derived aliasName query => cases beside
  | table node =>
    cases method with
    | asPredicate => exact ⟨rfl, node, rfl, beside⟩
    | asSubquery => cases beside

theorem single_of_not_disjunctive {node : TableNode}
    (combined : rules.getPredicate node = some predicate)
    (plain : disjunctive rules (.table node) = false) : predicate.Single := by
  unfold Rules.getPredicate at combined
  unfold disjunctive at plain
  dsimp only at plain
  cases predicates : rules.get (rules.tableOf node) with
  | nil =>
    rw [predicates] at combined
    cases combined
  | cons first others =>
    rw [predicates] at combined plain
    cases others with
    | nil =>
      cases combined
      simpa using plain
    | cons second rest => exact single_sqlglotAnd combined

theorem of_beside {leftFirst : Bool} {condition : Option (Condition V)}
    (beside : besidePredicate rules method relation = some predicate)
    (sound : (method = .asSubquery || !ruled rules relation
      || leftFirst && (condition.isNone || !disjunctive rules relation)) = true) :
    leftFirst = true ∧ Joinable predicate condition := by
  obtain ⟨rfl, node, rfl, combined⟩ := beside_eq_some beside
  rw [ruled_of_getPredicate combined, Bool.not_true, Bool.or_false, Bool.or_eq_true,
    Bool.and_eq_true, Bool.or_eq_true, Option.isNone_iff_eq_none, Bool.not_eq_true'] at sound
  obtain ⟨first, joinable⟩ := sound.resolve_left (by decide)
  exact ⟨first, joinable.imp id (single_of_not_disjunctive combined)⟩

theorem newName_eq (rules : Rules V) (method : RlsMethod) (relation : Relation V) :
    newName rules method relation = (transformRelation rules method relation).name := by
  cases relation with
  | derived aliasName query => rfl
  | table node =>
    unfold newName
    rw [transformRelation]
    unfold replaceTable
    dsimp only
    cases method with
    | asPredicate => exact if_neg fun wrong => by cases wrong.1
    | asSubquery =>
      cases combined : rules.getPredicate node with
      | none =>
        rw [not_ruled_of_getPredicate combined]
        exact if_neg fun wrong => by cases wrong.2.1
      | some predicate =>
        rw [ruled_of_getPredicate combined]
        dsimp only
        show _ = subqueryAlias node
        unfold subqueryAlias TableNode.aliasOrName
        by_cases named : node.aliasName = ""
        · rw [if_pos ⟨rfl, rfl, named⟩, if_neg (not_not_intro named)]
        · rw [if_neg fun wrong => named wrong.2.2, if_pos named, if_pos named]

end Rules

section Table
variable {rules : Rules V} {db : Database V} {node : TableNode} {predicate : Predicate V}

theorem own_of_getPredicate (own : OwnColumns rules db) {rows : Rows V}
    (found : db (rules.tableOf node) = some rows)
    (combined : rules.getPredicate node = some predicate) : Own rows.columns predicate := by
  intro atom listed name read
  rw [atoms_sqlglotAnd combined] at listed
  obtain ⟨each, member, listed⟩ := mem_flatMap.mp listed
  exact own _ rows found each member atom listed name read

theorem restrict_eq {rows : Rows V} (found : db (rules.tableOf node) = some rows)
    (name : String) :
    (restrict rules db (rules.tableOf node)).map (fun rows => { name := name, rows := rows })
      = some (Source.filtered { name := name, rows := rows } (rules.getPredicate node)) := by
  unfold restrict
  rw [found, Option.map_some, Option.map_some]
  cases combined : rules.getPredicate node with
  | none =>
    have empty := eq_nil_of_sqlglotAnd combined
    have all : (rows.rows.filter fun cells =>
      (rules.get (rules.tableOf node)).all (satisfies rows.columns cells))
        = rows.rows := by
      rw [empty]
      exact filter_eq_self.mpr fun _ _ => rfl
    rw [all]
    rfl
  | some predicate =>
    have same : ∀ cells, (rules.get (rules.tableOf node)).all (satisfies rows.columns cells)
        = satisfies rows.columns cells predicate := by
      intro cells
      unfold satisfies
      rw [Bool.eq_iff_iff, all_eq_true, decide_eq_true_eq, holds_sqlglotAnd combined]
      exact forall₂_congr fun each _ => decide_eq_true_iff
    simp only [same]
    rfl

variable {visible : CteRows V}

theorem eval_subquery [DecidableEq V] (own : OwnColumns rules db)
    {rows : Rows V} (base : lookupCte visible node = none)
    (found : db (rules.tableOf node) = some rows)
    (combined : rules.getPredicate node = some predicate) :
    eval rules db visible
      (.select [] .star (.table { node with aliasName := "" }) [] (some (qualified none predicate)))
      = some { columns := rows.columns,
               rows := rows.rows.filter fun cells => satisfies rows.columns cells predicate } := by
  let plain : TableNode := { node with aliasName := "" }
  have base' : lookupCte visible plain = none := base
  have found' : db (rules.tableOf plain) = some rows := found
  have reads := own_of_getPredicate own found combined
  have source : evalRelation rules db visible (.table plain)
      = some { name := plain.aliasOrName, rows := rows } := by
    rw [evalRelation, base']
    dsimp only
    rw [found']
    rfl
  rw [eval, evalCtes]
  dsimp only
  rw [source, evalJoins]
  dsimp only
  let header : Header := { name := plain.aliasOrName, columns := rows.columns }
  have resolved : conditionResolves [header] (some (qualified none predicate)) = true :=
    resolves_unqualified reads
  unfold Block.rows
  have valid : Block.valid
      { projection := .star, first := { name := plain.aliasOrName, rows := rows }, joined := [],
        condition := some (qualified none predicate) } = true := by
    unfold Block.valid
    rw [Bool.and_eq_true, Bool.and_eq_true, Bool.and_eq_true, decide_eq_true_eq]
    exact ⟨⟨⟨nodup_singleton _, rfl⟩, resolved⟩, rfl⟩
  rw [if_pos valid]
  refine congrArg some ?_
  show ({ columns := [header].flatMap Header.columns, rows := _ } : Rows V) = _
  rw [Rows.mk.injEq]
  refine ⟨append_nil _, ?_⟩
  show List.map _ (List.filter _ (List.map _ (List.map _ rows.rows))) = _
  rw [map_map, filter_map, map_map]
  have cells : ((fun env : List (Bound V) => env.flatMap Bound.cells) ∘
    (fun bound : Bound V => [bound])
      ∘ fun cells => { header := header, cells := cells }) = id := by
    funext cells
    exact append_nil _
  have test : (holds (some (qualified none predicate)) ∘ (fun bound : Bound V => [bound])
      ∘ fun cells => { header := header, cells := cells }) = fun cells =>
        satisfies rows.columns cells predicate := by
    funext cells
    exact holds_unqualified { header := header, cells := cells } predicate
  show List.map ((fun env : List (Bound V) => env.flatMap Bound.cells) ∘
    (fun bound : Bound V => [bound])
      ∘ fun cells =>
        { header := header, cells := cells })
          (List.filter (holds (some (qualified none predicate)) ∘
        (fun bound : Bound V => [bound]) ∘ fun cells =>
          { header := header, cells := cells }) rows.rows) = _
  rw [cells, test, map_id]

theorem lookupCte_eq_none (free : bound (visible.map Prod.fst) node = false) :
    lookupCte visible node = none := by
  unfold lookupCte
  split
  · rename_i unqualified
    rw [Option.map_eq_none_iff, find?_eq_none]
    intro cte listed same
    rw [decide_eq_true_eq] at same
    have named : bound (visible.map Prod.fst) node = true :=
      decide_eq_true ⟨unqualified.1, unqualified.2, same ▸ mem_map_of_mem listed⟩
    rw [named] at free
    cases free
  · rfl

/-- The relation of the transformed statement has its new name and, filtered by the
predicate beside it, is the relation over the restricted tables. -/
def SourcesAgree (rules : Rules V) (method : RlsMethod) (relation : Relation V)
    (rewritten restricted : Option (Source V)) :
    Prop :=
  rewritten = none ∧ restricted = none
    ∨ ∃ source : Source V,
      rewritten = some (source.named (transformRelation rules method relation).name)
      ∧ restricted = some (source.filtered (besidePredicate rules method relation)) ∧
      source.name = relation.name
      ∧ ∀ one, besidePredicate rules method relation = some one → Own source.rows.columns one

theorem evalRelation_table [DecidableEq V] {database : Database V}
    (base : lookupCte visible node = none) :
    evalRelation rules database visible (.table node)
      = (database (rules.tableOf node)).map fun rows =>
        { name := node.aliasOrName, rows := rows } := by
  rw [evalRelation, base]

theorem table_agrees_none [DecidableEq V] {method : RlsMethod}
    (combined : rules.getPredicate node = none) :
    SourcesAgree rules method (.table node)
      (evalRelation rules db visible (replaceTable rules method node))
      (evalRelation rules (restrict rules db) visible (.table node)) := by
  have same : replaceTable rules method node = .table node := by
    unfold replaceTable
    cases method with
    | asPredicate => rfl
    | asSubquery => rw [combined]
  have beside : besidePredicate rules method (.table node) = none := by
    unfold besidePredicate
    cases method with
    | asPredicate => exact combined
    | asSubquery => rfl
  unfold SourcesAgree
  rw [transformRelation, same, beside]
  cases base : lookupCte visible node with
  | some rows =>
    refine Or.inr ⟨{ name := node.aliasOrName, rows := rows }, ?_, ?_, rfl,
      fun _ none => by cases none⟩
    · rw [evalRelation, base]
      rfl
    · rw [evalRelation, base]
      rfl
  | none =>
    rw [evalRelation_table base, evalRelation_table base]
    cases found : db (rules.tableOf node) with
    | none =>
      refine Or.inl ⟨rfl, ?_⟩
      unfold restrict
      rw [found]
      rfl
    | some rows =>
      refine Or.inr ⟨{ name := node.aliasOrName, rows := rows }, rfl, ?_, rfl,
        fun _ none => by cases none⟩
      rw [restrict_eq found, combined]

theorem table_agrees_some [DecidableEq V] (own : OwnColumns rules db) {method : RlsMethod}
    (combined : rules.getPredicate node = some predicate)
    (base : lookupCte visible node = none) :
    SourcesAgree rules method (.table node)
      (evalRelation rules db visible (replaceTable rules method node))
      (evalRelation rules (restrict rules db) visible (.table node)) := by
  rw [evalRelation_table base]
  cases found : db (rules.tableOf node) with
  | none =>
    refine Or.inl ⟨?_, ?_⟩
    · unfold replaceTable
      cases method with
      | asPredicate =>
        dsimp only
        rw [evalRelation_table base, found]
        rfl
      | asSubquery =>
        have base' : lookupCte visible { node with aliasName := "" } = none := base
        have found' : db (rules.tableOf { node with aliasName := "" }) = none := found
        rw [combined]
        dsimp only
        rw [evalRelation, eval, evalCtes]
        dsimp only
        rw [evalRelation_table base', found']
        rfl
    · unfold restrict
      rw [found]
      rfl
  | some rows =>
    rw [restrict_eq found]
    unfold SourcesAgree
    rw [transformRelation]
    unfold replaceTable besidePredicate
    cases method with
    | asPredicate =>
      dsimp only
      refine Or.inr ⟨{ name := node.aliasOrName, rows := rows }, ?_, rfl, rfl,
        fun one some => own_of_getPredicate own found some⟩
      rw [evalRelation_table base, found]
      rfl
    | asSubquery =>
      rw [combined]
      dsimp only
      rw [evalRelation, eval_subquery own base found combined]
      refine Or.inr ⟨Source.filtered { name := node.aliasOrName, rows := rows } (some predicate),
        rfl, rfl, rfl, ?_⟩
      exact fun _ none => by cases none

theorem table_agrees [DecidableEq V] (own : OwnColumns rules db) {method : RlsMethod}
    (sound : tableSound rules (visible.map Prod.fst) node = true) :
    SourcesAgree rules method (.table node)
      (evalRelation rules db visible (replaceTable rules method node))
      (evalRelation rules (restrict rules db) visible (.table node)) := by
  cases combined : rules.getPredicate node with
  | none => exact table_agrees_none combined
  | some predicate =>
    unfold tableSound at sound
    rw [ruled_of_getPredicate combined, Bool.not_true, Bool.false_or, Bool.not_eq_true'] at sound
    exact table_agrees_some own combined (lookupCte_eq_none sound)

end Table

structure Replaced (V : Type) extends Guarded V where
  newName : String

def Replaced.joined (item : Replaced V) : Joined V := item.rewritten.named item.newName

structure Agrees (rules : Rules V) (method : RlsMethod) (join : Join V) (item : Replaced V) :
    Prop where
  sound : item.Sound
  kind : item.kind = join.kind
  on : item.on = join.on
  predicate : item.predicate = besidePredicate rules method join.relation

def naming (pairs : List (String × String)) (name : String) : String :=
  match pairs.find? fun pair => pair.1 = name with
  | some pair => pair.2
  | none => name

theorem naming_eq {pairs : List (String × String)} (distinct : (pairs.map Prod.fst).Nodup)
    {pair : String × String}
    (listed : pair ∈ pairs) : naming pairs pair.1 = pair.2 := by
  unfold naming
  cases found : pairs.find? fun other => other.1 = pair.1 with
  | none =>
    rw [find?_eq_none] at found
    exact (found pair listed (decide_eq_true rfl)).elim
  | some other =>
    have same : other.1 = pair.1 := by simpa using find?_some found
    have equal : other = pair :=
      inj_on_of_nodup_map distinct (mem_of_find?_eq_some found) listed same
    rw [equal]

theorem rows_eq_none (block : Block V) (twice : ¬ block.names.Nodup) : block.rows = none := by
  have invalid : block.valid = false := by
    unfold Block.valid
    have names : decide (block.headers.map Header.name).Nodup = false := decide_eq_false twice
    rw [names]
    rfl
  unfold Block.rows
  rw [invalid]
  rfl

theorem name_transformRelation (rules : Rules V) (relation : Relation V) :
    (transformRelation rules .asPredicate relation).name = relation.name := by
  cases relation with
  | table node => rfl
  | derived aliasName query => rfl

theorem besidePredicate_asSubquery (rules : Rules V) (relation : Relation V) :
    besidePredicate rules .asSubquery relation = none := by
  cases relation with
  | table node => rfl
  | derived aliasName query => rfl

theorem of_firstSound {rules : Rules V} {method : RlsMethod} {first : Relation V}
    {joins : List (Join V)}
    {condition : Option (Condition V)}
    (sound : firstSound rules method first joins condition = true)
    {predicate : Predicate V} (beside : besidePredicate rules method first = some predicate) :
    (∀ join ∈ joins, join.kind.join.LeftFirst) ∧ Joinable predicate condition := by
  obtain ⟨leftFirst, joinable⟩ := of_beside beside sound
  rw [all_eq_true] at leftFirst
  exact ⟨fun join listed => of_decide_eq_true (leftFirst join listed), joinable⟩

structure Stands (rules : Rules V) (method : RlsMethod) (first : Relation V) (joins : List (Join V))
    (source : Source V)
    (items : List (Replaced V)) : Prop where
  name : source.name = first.name
  own : ∀ one, besidePredicate rules method first = some one → Own source.rows.columns one
  names : items.map (fun item => (item.source.name, item.newName))
    = joins.map fun join =>
      (join.relation.name, (transformRelation rules method join.relation).name)
  agrees : ∀ item ∈ items, ∃ join ∈ joins, Agrees rules method join item

section Blocks
variable {rules : Rules V} {method : RlsMethod} {first : Relation V} {joins : List (Join V)}
    {source : Source V}
  {items : List (Replaced V)} (projection : Projection V) (condition : Option (Condition V))

def guardedBlock (rules : Rules V) (method : RlsMethod) (first : Relation V) (source : Source V)
    (items : List (Replaced V)) : Block V where
  projection := projection
  first := source
  joined := items.map fun item => item.rewritten
  condition := guarded source.name (besidePredicate rules method first) condition

def transformedBlock (rules : Rules V) (method : RlsMethod) (first : Relation V) (source : Source V)
    (items : List (Replaced V)) : Block V where
  projection := projection
  first := source.named (transformRelation rules method first).name
  joined := items.map Replaced.joined
  condition := guardCondition rules method first condition

def restrictedBlock (rules : Rules V) (method : RlsMethod) (first : Relation V) (source : Source V)
    (items : List (Replaced V)) : Block V where
  projection := projection
  first := source.filtered (besidePredicate rules method first)
  joined := items.map fun item => item.restricted
  condition := condition

variable (stands : Stands rules method first joins source items)
include stands

theorem namePairs_eq : namePairs rules method first joins
    = (source.name, (transformRelation rules method first).name)
      :: items.map fun item => (item.source.name, item.newName) := by
  rw [stands.names, stands.name]
  unfold namePairs
  rw [map_cons, map_map, newName_eq]
  exact congrArg _ (map_congr_left fun join _ => congrArg _ (newName_eq rules method join.relation))

theorem rows_guardedBlock (firstOk : firstSound rules method first joins condition = true) :
    (guardedBlock projection condition rules method first source items).rows
      = (restrictedBlock projection condition rules method first source items).rows := by
  have guard := rows_guarded projection source (besidePredicate rules method first)
    (items.map Replaced.toGuarded) condition stands.own
      (fun one beside => (of_firstSound firstOk beside).2)
    (fun some item listed => ?_) fun item listed => ?_
  · rw [map_map, map_map] at guard
    exact guard
  · obtain ⟨one, beside⟩ := Option.ne_none_iff_exists'.mp some
    obtain ⟨replaced, isReplaced, rfl⟩ := mem_map.mp listed
    obtain ⟨join, isJoin, agree⟩ := stands.agrees replaced isReplaced
    rw [agree.kind]
    exact (of_firstSound firstOk beside).1 join isJoin
  · obtain ⟨replaced, isReplaced, rfl⟩ := mem_map.mp listed
    obtain ⟨join, _, agree⟩ := stands.agrees replaced isReplaced
    exact agree.sound

theorem names_guardedBlock :
    (guardedBlock projection condition rules method first source items).names
    = (namePairs rules method first joins).map Prod.fst := by
  rw [namePairs_eq stands, map_cons, map_map]
  unfold Block.names Block.headers guardedBlock
  rw [map_cons, map_map, map_map]
  rfl

theorem names_transformedBlock :
    (transformedBlock projection condition rules method first source items).names
    = (namePairs rules method first joins).map Prod.snd := by
  rw [namePairs_eq stands, map_cons, map_map]
  unfold Block.names Block.headers transformedBlock
  rw [map_cons, map_map, map_map]
  rfl

theorem rename_guardedBlock {names : String → String}
    (each : ∀ pair ∈ namePairs rules method first joins, names pair.1 = pair.2) :
    (guardedBlock projection condition rules method first source items).rename names
      = transformedBlock projection condition rules method first source items := by
  rw [namePairs_eq stands, forall_mem_cons] at each
  have joined : (items.map fun item => item.rewritten).map (Joined.rename names) =
      items.map Replaced.joined := by
    rw [map_map]
    refine map_congr_left fun item listed => ?_
    have name : names item.source.name = item.newName := each.2 _ (mem_map_of_mem listed)
    show item.rewritten.named (names item.source.name) = item.rewritten.named item.newName
    rw [name]
  unfold Block.rename guardedBlock transformedBlock
  dsimp only
  rw [each.1, joined, guardCondition_eq, stands.name]

theorem mem_blockColumns {column : Column} (method' : method = .asSubquery)
    (listed : column ∈
      (guardedBlock projection condition rules method first source items).columns) :
    column ∈ blockColumns projection joins condition := by
  subst method'
  unfold Block.columns guardedBlock at listed
  rw [besidePredicate_asSubquery] at listed
  rcases mem_append.mp listed with inBlock | inJoins
  · exact mem_append_left _ inBlock
  · obtain ⟨one, isJoined, read⟩ := mem_flatMap.mp inJoins
    obtain ⟨item, isItem, rfl⟩ := mem_map.mp isJoined
    obtain ⟨join, isJoin, agree⟩ := stands.agrees item isItem
    refine mem_append_right _ (mem_flatMap.mpr ⟨join, isJoin, ?_⟩)
    unfold Guarded.rewritten at read
    rw [agree.predicate, besidePredicate_asSubquery, agree.on] at read
    exact read

theorem unaffected_guardedBlock
    (namesOk : namesSound rules method projection first joins condition = true)
    {names : String → String}
    (each : ∀ pair ∈ namePairs rules method first joins, names pair.1 = pair.2)
    {column : Column}
    (listed : column ∈
      (guardedBlock projection condition rules method first source items).columns) :
    Unaffected names (guardedBlock projection condition rules method first source items).names
      column := by
  intro qualifier given name member
  rw [names_guardedBlock projection condition stands] at member
  obtain ⟨pair, isPair, rfl⟩ := mem_map.mp member
  rw [each pair isPair]
  cases isMethod : method with
  | asPredicate =>
    obtain ⟨relation, _, rfl⟩ := mem_map.mp isPair
    rw [isMethod, newName_eq, name_transformRelation]
  | asSubquery =>
    unfold namesSound at namesOk
    rw [Bool.and_eq_true, all_eq_true] at namesOk
    have same := namesOk.2 column (mem_blockColumns projection condition stands isMethod listed)
    rw [all_eq_true] at same
    have iff := of_decide_eq_true (same pair isPair)
    rw [given, Option.some.injEq, Option.some.injEq] at iff
    rw [eq_comm, iff, eq_comm]

theorem block_agrees (firstOk : firstSound rules method first joins condition = true)
    (namesOk : namesSound rules method projection first joins condition = true) :
    (transformedBlock projection condition rules method first source items).rows
      = (restrictedBlock projection condition rules method first source items).rows := by
  rw [← rows_guardedBlock projection condition stands firstOk]
  have oldNames := names_guardedBlock projection condition stands
  have newNames := names_transformedBlock projection condition stands
  have distinctIff : ((namePairs rules method first joins).map Prod.snd).Nodup
      ↔ ((namePairs rules method first joins).map Prod.fst).Nodup := by
    unfold namesSound at namesOk
    rw [Bool.and_eq_true, decide_eq_true_eq] at namesOk
    exact namesOk.1
  by_cases distinct : ((namePairs rules method first joins).map Prod.fst).Nodup
  · have each : ∀ pair ∈ namePairs rules method first joins,
      naming (namePairs rules method first joins) pair.1 = pair.2 :=
      fun pair listed => naming_eq distinct listed
    rw [← rename_guardedBlock projection condition stands each]
    refine rows_rename _ ?_ fun column =>
      unaffected_guardedBlock projection condition stands namesOk each
    have news : (namePairs rules method first joins).map
      (naming (namePairs rules method first joins) ∘ Prod.fst)
        = (namePairs rules method first joins).map Prod.snd := map_congr_left each
    rw [oldNames, map_map, news]
    exact distinctIff
  · have old := rows_eq_none (guardedBlock projection condition rules method first source items)
      (by rw [oldNames]; exact distinct)
    have new := rows_eq_none (transformedBlock projection condition rules method first source items)
      (by rw [newNames]; exact fun new => distinct (distinctIff.mp new))
    rw [old, new]

end Blocks

end Liteset.Sql.RowSecurity
