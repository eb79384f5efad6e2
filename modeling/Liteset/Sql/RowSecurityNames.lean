import Mathlib.Data.List.Nodup
import Liteset.Sql.RowSecurityBlocks

/-!
# Relations under other names

A sub-query that takes the place of a table may have another name than the table.
The block has the same rows if none of its columns is written with either name.
-/

set_option autoImplicit false

namespace Liteset.Sql.RowSecurity

open Lib List
open Lib.Condition (Disjunction Valuation)

variable {V : Type}

def conditionColumns (condition : Option (Condition V)) : List Column :=
  match condition with
  | none => []
  | some condition => condition.atoms.flatMap Atom.columns

def projectionColumns : Projection V → List Column
  | .star => []
  | .expressions items => items.flatMap Expression.columns

def Unaffected (naming : String → String) (names : List String) (column : Column) : Prop :=
  ∀ qualifier, column.qualifier = some qualifier → ∀ name ∈ names, naming name = qualifier ↔
    name = qualifier

section Rename
variable (naming : String → String)

def Header.rename (header : Header) : Header := { header with name := naming header.name }

def Bound.rename (bound : Bound V) : Bound V := { bound with header := bound.header.rename naming }

def Source.named (source : Source V) (name : String) : Source V := { source with name := name }

def Joined.named (joined : Joined V) (name : String) : Joined V :=
  { joined with source := joined.source.named name }

def Joined.rename (joined : Joined V) : Joined V := joined.named (naming joined.source.name)

variable {naming} {headers : List Header} {env : List (Bound V)}

theorem resolve_rename {column : Column}
    (unaffected : Unaffected naming (env.map fun bound => bound.header.name) column) :
    resolve (env.map (Bound.rename naming)) column = resolve env column := by
  have finds : ∀ test test' : Bound V → Bool,
    (∀ bound ∈ env, test' (bound.rename naming) = test bound) →
      (env.map (Bound.rename naming)).find? test' = (env.find? test).map (Bound.rename naming) := by
    intro test test' same
    rw [find?_map]
    have tests : env.find? (test' ∘ Bound.rename naming) = env.find? test := by
      clear unaffected
      induction env with
      | nil => rfl
      | cons bound rest ih =>
        rw [find?_cons, find?_cons, ih fun other member => same other (mem_cons_of_mem _ member)]
        have first : (test' ∘ Bound.rename naming) bound = test bound := same bound mem_cons_self
        rw [first]
    rw [tests]
  have value : ∀ found : Option (Bound V),
      cellIn (found.map (Bound.rename naming)) column.name = cellIn found column.name := by
    intro found
    cases found with
    | none => rfl
    | some bound => rfl
  unfold resolve
  cases qualifier : column.qualifier with
  | none =>
    dsimp only
    rw [finds (fun bound => column.name ∈ bound.header.columns) _ fun bound _ => rfl, value]
  | some qualifier' =>
    dsimp only
    rw [finds (fun bound => bound.header.name = qualifier') _ fun bound member => ?_, value]
    exact decide_eq_decide.mpr (unaffected qualifier' qualifier _ (mem_map_of_mem member))

theorem holds_rename {condition : Option (Condition V)}
    (unaffected : ∀ column ∈ conditionColumns condition,
      Unaffected naming (env.map fun bound => bound.header.name) column) :
    holds condition (env.map (Bound.rename naming)) = holds condition env := by
  cases condition with
  | none => rfl
  | some condition =>
    have atoms : ∀ atom ∈ condition.atoms,
        (valuation (env.map (Bound.rename naming))).atom atom = (valuation env).atom atom := by
      intro atom listed
      refine congrArg atom.test (map_congr_left fun column read => resolve_rename ?_)
      exact unaffected column (mem_flatMap.mpr ⟨atom, listed, read⟩)
    have compared :
      (valuation (env.map (Bound.rename naming))).compared = (valuation env).compared := rfl
    have truth := Condition.Disjunction.truth_congr compared condition atoms
    exact decide_eq_decide.mpr (Eq.congr_left truth)

theorem resolves_rename {column : Column}
    (unaffected : Unaffected naming (headers.map Header.name) column) :
    resolves (headers.map (Header.rename naming)) column = resolves headers column := by
  unfold resolves
  cases qualifier : column.qualifier with
  | none =>
    dsimp only
    rw [filter_map, length_map]
    rfl
  | some qualifier' =>
    dsimp only
    rw [any_map]
    refine Joins.any_congr_of_mem fun header member => ?_
    have same := unaffected qualifier' qualifier _ (mem_map_of_mem member)
    exact decide_eq_decide.mpr (and_congr_left' same)

theorem conditionResolves_rename {condition : Option (Condition V)}
    (unaffected : ∀ column ∈ conditionColumns condition,
      Unaffected naming (headers.map Header.name) column) :
    conditionResolves (headers.map (Header.rename naming)) condition =
      conditionResolves headers condition := by
  cases condition with
  | none => rfl
  | some condition =>
    unfold conditionResolves
    dsimp only
    rw [Bool.eq_iff_iff, all_eq_true, all_eq_true]
    refine forall₂_congr fun atom listed => ?_
    rw [all_eq_true, all_eq_true]
    refine forall₂_congr fun column read => ?_
    rw [resolves_rename (unaffected column (mem_flatMap.mpr ⟨atom, listed, read⟩))]

theorem joinAll_rename (joined : List (Joined V)) :
    ∀ {headers : List Header} {envs : List (List (Bound V))},
    (∀ env ∈ envs, env.map Bound.header = headers) →
    (∀ one ∈ joined, ∀ column ∈ conditionColumns one.on,
      Unaffected naming (headers.map Header.name ++ joined.map fun joined => joined.source.name)
        column) →
    joinAll (headers.map (Header.rename naming)) (envs.map (List.map (Bound.rename naming)))
        (joined.map (Joined.rename naming))
      = (joinAll headers envs joined).map (List.map (Bound.rename naming)) := by
  induction joined with
  | nil => exact fun _ _ => rfl
  | cons one rest ih =>
    intro headers envs sound unaffected
    have bounds : (one.rename naming).source.bounds =
        one.source.bounds.map (Bound.rename naming) := by
      show List.map _ one.source.rows.rows = List.map _ (List.map _ one.source.rows.rows)
      rw [map_map]
      rfl
    have nulls : (headers.map (Header.rename naming)).map (Header.null (V := V))
        = (headers.map Header.null).map (Bound.rename naming) := by
      rw [map_map, map_map]
      rfl
    have step : Joins.join (fun env bound => holds one.on (env ++ [bound]))
      (fun env bound => env ++ [bound])
        one.kind.join ((headers.map Header.null).map (Bound.rename naming))
          (one.source.header.null.rename naming)
        (envs.map (List.map (Bound.rename naming))) (one.source.bounds.map (Bound.rename naming))
        = (Joins.join (fun env bound => holds one.on (env ++ [bound]))
          (fun env bound => env ++ [bound])
          one.kind.join (headers.map Header.null) one.source.header.null envs one.source.bounds).map
          (List.map (Bound.rename naming)) := by
      refine Joins.map_join _ _ _ (fun env bound => ?_) fun env left bound right => ?_
      · rw [map_append, map_singleton]
      · have both : (env ++ [bound]).map (Bound.rename naming)
            = env.map (Bound.rename naming) ++ [bound.rename naming] := by
          rw [map_append, map_singleton]
        rw [← both]
        refine holds_rename fun column read qualifier given name member => ?_
        refine unaffected one mem_cons_self column read qualifier given name ?_
        have names : (env ++ [bound]).map (fun bound => bound.header.name)
            = headers.map Header.name ++ [one.source.name] := by
          have header := header_of_mem_bounds right
          rw [map_append, map_singleton, header, ← sound env left, map_map]
          rfl
        rw [names] at member
        rcases mem_append.mp member with old | last
        · exact mem_append_left _ old
        · rw [mem_singleton] at last
          rw [last]
          exact mem_append_right _ mem_cons_self
    rw [map_cons, joinAll, joinAll, bounds, nulls]
    show joinAll (headers.map (Header.rename naming) ++ [one.source.header.rename naming])
        (Joins.join (fun env bound => holds one.on (env ++ [bound]))
          (fun env bound => env ++ [bound]) one.kind.join
          ((headers.map Header.null).map (Bound.rename naming))
            (one.source.header.null.rename naming)
          (envs.map (List.map (Bound.rename naming))) (one.source.bounds.map (Bound.rename naming)))
        (rest.map (Joined.rename naming)) = _
    rw [step]
    have longer : headers.map (Header.rename naming) ++ [one.source.header.rename naming]
        = (headers ++ [one.source.header]).map (Header.rename naming) := by
      rw [map_append, map_singleton]
    rw [longer]
    refine ih (fun env => headers_of_mem_join sound) fun other listed column read => ?_
    have old := unaffected other (mem_cons_of_mem _ listed) column read
    rw [map_append, append_assoc]
    exact old

theorem joinsResolve_rename (joined : List (Joined V)) : ∀ headers : List Header,
    (∀ one ∈ joined, ∀ column ∈ conditionColumns one.on,
      Unaffected naming (headers.map Header.name ++ joined.map fun joined => joined.source.name)
        column) →
    joinsResolve (headers.map (Header.rename naming)) (joined.map (Joined.rename naming))
      = joinsResolve headers joined := by
  induction joined with
  | nil => exact fun _ _ => rfl
  | cons one rest ih =>
    intro headers unaffected
    have longer : headers.map (Header.rename naming) ++ [one.source.header.rename naming]
        = (headers ++ [one.source.header]).map (Header.rename naming) := by
      rw [map_append, map_singleton]
    have on : conditionResolves ((headers ++ [one.source.header]).map (Header.rename naming)) one.on
        = conditionResolves (headers ++ [one.source.header]) one.on := by
      refine conditionResolves_rename fun column read qualifier given name member => ?_
      refine unaffected one mem_cons_self column read qualifier given name ?_
      rw [map_append] at member
      rcases mem_append.mp member with old | last
      · exact mem_append_left _ old
      · rw [map_singleton, mem_singleton] at last
        rw [last]
        exact mem_append_right _ mem_cons_self
    have others := ih (headers ++ [one.source.header]) fun other listed column read => by
      have old := unaffected other (mem_cons_of_mem _ listed) column read
      rw [map_append, append_assoc]
      exact old
    rw [map_cons, joinsResolve, joinsResolve]
    show (conditionResolves
      (headers.map (Header.rename naming) ++ [one.source.header.rename naming]) one.on
        && (one.kind ≠ .cross || one.on.isNone)
        && joinsResolve (headers.map (Header.rename naming) ++ [one.source.header.rename naming])
          (rest.map (Joined.rename naming))) = _
    rw [longer, on, others]

end Rename

def Block.rename (naming : String → String) (block : Block V) : Block V :=
  { block with
    first := block.first.named (naming block.first.name)
    joined := block.joined.map (Joined.rename naming) }

def Block.columns (block : Block V) : List Column :=
  projectionColumns block.projection ++ conditionColumns block.condition
    ++ block.joined.flatMap fun joined => conditionColumns joined.on

def Block.names (block : Block V) : List String := block.headers.map Header.name

theorem rows_rename {naming : String → String} (block : Block V)
    (distinct : (block.names.map naming).Nodup ↔ block.names.Nodup)
    (unaffected : ∀ column ∈ block.columns, Unaffected naming block.names column) :
    (block.rename naming).rows = block.rows := by
  have headers : (block.rename naming).headers = block.headers.map (Header.rename naming) := by
    unfold Block.headers Block.rename
    rw [map_cons, map_map, map_map]
    rfl
  have names : block.names = [block.first.header].map Header.name ++ block.joined.map fun joined =>
      joined.source.name := by
    unfold Block.names Block.headers
    rw [map_cons, map_map]
    rfl
  have ons : ∀ one ∈ block.joined, ∀ column ∈ conditionColumns one.on,
      Unaffected naming ([block.first.header].map Header.name ++ block.joined.map fun joined =>
        joined.source.name)
        column := by
    intro one listed column read
    rw [← names]
    exact unaffected column (mem_append_right _ (mem_flatMap.mpr ⟨one, listed, read⟩))
  have conditions : ∀ column ∈ conditionColumns block.condition,
    Unaffected naming block.names column :=
    fun column read => unaffected column (mem_append_left _ (mem_append_right _ read))
  have projections : ∀ column ∈ projectionColumns block.projection,
    Unaffected naming block.names column :=
    fun column read => unaffected column (mem_append_left _ (mem_append_left _ read))
  have projected : projectionResolves (block.headers.map (Header.rename naming)) block.projection
      = projectionResolves block.headers block.projection := by
    cases projection : block.projection with
    | star => rfl
    | expressions items =>
      rw [projection] at projections
      show items.all _ = items.all _
      rw [Bool.eq_iff_iff, all_eq_true, all_eq_true]
      refine forall₂_congr fun item listed => ?_
      rw [all_eq_true, all_eq_true]
      refine forall₂_congr fun column read => ?_
      rw [resolves_rename (projections column (mem_flatMap.mpr ⟨item, listed, read⟩))]
  have valid : (block.rename naming).valid = block.valid := by
    unfold Block.valid
    rw [headers]
    have namesOf :
        (block.headers.map (Header.rename naming)).map Header.name = block.names.map naming := by
      unfold Block.names
      rw [map_map, map_map]
      rfl
    have first : decide ((block.headers.map (Header.rename naming)).map Header.name).Nodup
        = decide (block.headers.map Header.name).Nodup := by
      rw [namesOf]
      exact decide_eq_decide.mpr distinct
    show (_ && joinsResolve ([block.first.header].map (Header.rename naming))
      (block.joined.map (Joined.rename naming))
        && conditionResolves (block.headers.map (Header.rename naming)) block.condition
        && projectionResolves (block.headers.map (Header.rename naming)) block.projection) = _
    rw [first, joinsResolve_rename block.joined [block.first.header] ons,
      conditionResolves_rename conditions, projected]
  have start : ∀ env ∈ block.first.bounds.map (fun bound => [bound]),
      env.map Bound.header = [block.first.header] := by
    intro env member
    obtain ⟨bound, listed, rfl⟩ := mem_map.mp member
    rw [map_singleton, header_of_mem_bounds listed]
  have starts : (block.rename naming).first.bounds.map (fun bound => [bound])
      = (block.first.bounds.map fun bound => [bound]).map (List.map (Bound.rename naming)) := by
    show List.map _ (List.map _ block.first.rows.rows) =
      List.map _ (List.map _ (List.map _ block.first.rows.rows))
    rw [map_map, map_map, map_map]
    rfl
  let envs := joinAll [block.first.header] (block.first.bounds.map fun bound => [bound])
    block.joined
  have joined : joinAll [(block.rename naming).first.header]
      ((block.rename naming).first.bounds.map fun bound => [bound]) (block.rename naming).joined
      = envs.map (List.map (Bound.rename naming)) := by
    rw [starts]
    exact joinAll_rename block.joined start ons
  have shape : ∀ env ∈ envs, env.map (fun bound => bound.header.name) = block.names := by
    intro env member
    have shape := headers_of_mem_joinAll block.joined start env member
    have headerNames :
        env.map (fun bound => bound.header.name) = (env.map Bound.header).map Header.name := by
      rw [map_map]
      rfl
    rw [headerNames, shape]
    rfl
  have kept : (envs.map (List.map (Bound.rename naming))).filter (holds block.condition)
      = (envs.filter (holds block.condition)).map (List.map (Bound.rename naming)) := by
    rw [filter_map]
    refine congrArg _ (filter_congr fun env member => holds_rename fun column read => ?_)
    rw [shape env member]
    exact conditions column read
  have result : project (block.headers.map (Header.rename naming))
      ((envs.filter (holds block.condition)).map (List.map (Bound.rename naming))) block.projection
      = project block.headers (envs.filter (holds block.condition)) block.projection := by
    cases projection : block.projection with
    | star =>
      unfold project
      dsimp only
      rw [Rows.mk.injEq, flatMap_map, map_map]
      refine ⟨rfl, map_congr_left fun env _ => ?_⟩
      show flatMap _ (List.map _ env) = _
      rw [flatMap_map]
      rfl
    | expressions items =>
      rw [projection] at projections
      unfold project
      dsimp only
      rw [Rows.mk.injEq, map_map]
      refine ⟨rfl, map_congr_left fun env member => map_congr_left fun item listed => ?_⟩
      refine congrArg item.value (map_congr_left fun column read => resolve_rename ?_)
      rw [shape env (mem_of_mem_filter member)]
      exact projections column (mem_flatMap.mpr ⟨item, listed, read⟩)
  unfold Block.rows
  rw [valid, headers, joined]
  split
  · refine congrArg some ?_
    show project _ ((envs.map _).filter (holds block.condition)) block.projection = _
    rw [kept, result]
  · rfl

end Liteset.Sql.RowSecurity
