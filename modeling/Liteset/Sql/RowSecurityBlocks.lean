import Liteset.Sql.RowSecurity

/-!
# Predicates beside the tables of a block

In a block without right and full joins, a predicate of the first relation in `WHERE`
and predicates of the joined ones in `ON` leave the rows that are left when the
relations are filtered first; a predicate that is a disjunction may only stand alone.
-/

set_option autoImplicit false

namespace Liteset.Sql.RowSecurity

open Lib List
open Lib.Condition (Disjunction Valuation)

variable {V : Type}

section And
variable {v : Valuation (OwnAtom V) Empty}

theorem holds_wrap (predicate : Predicate V) : (wrap predicate).Holds v ↔ predicate.Holds v := by
  unfold wrap
  split
  · exact Condition.Disjunction.holds_grouped v predicate
  · exact Iff.rfl

theorem single_wrap (predicate : Predicate V) : (wrap predicate).Single := by
  unfold wrap
  split
  · exact Condition.Disjunction.single_grouped predicate
  · rename_i plain
    match predicate, plain with
    | .one (.one _), _ => rfl
    | .one (.and _ _), plain => exact (plain rfl).elim
    | .or _ _, plain => exact (plain rfl).elim

theorem atoms_wrap (predicate : Predicate V) : (wrap predicate).atoms = predicate.atoms := by
  unfold wrap
  split
  · exact Condition.Disjunction.atoms_grouped predicate
  · rfl

theorem foldl_andThen (rest : List (Predicate V)) : ∀ {this : Predicate V}, this.Single →
    (rest.foldl (fun this expression => this.andThen (wrap expression)) this).Single
      ∧ ((rest.foldl (fun this expression => this.andThen (wrap expression)) this).Holds v
        ↔ this.Holds v ∧ ∀ predicate ∈ rest, predicate.Holds v) := by
  induction rest with
  | nil =>
    intro this single
    exact ⟨single, (and_iff_left fun _ none => (not_mem_nil none).elim).symm⟩
  | cons predicate rest ih =>
    intro this single
    have next := ih (single.andThen (single_wrap predicate))
    refine ⟨next.1, next.2.trans ?_⟩
    rw [single.holds_andThen (single_wrap predicate), holds_wrap, forall_mem_cons, and_assoc]

theorem atoms_foldl_andThen (rest : List (Predicate V)) : ∀ this : Predicate V,
    (rest.foldl (fun this expression => this.andThen (wrap expression)) this).atoms
      = this.atoms ++ rest.flatMap Disjunction.atoms := by
  induction rest with
  | nil => exact fun this => (append_nil _).symm
  | cons predicate rest ih =>
    intro this
    rw [foldl_cons, ih, Condition.Disjunction.atoms_andThen, atoms_wrap, flatMap_cons, append_assoc]

variable {predicates : List (Predicate V)} {predicate : Predicate V}

theorem holds_sqlglotAnd (combined : sqlglotAnd predicates = some predicate) :
    predicate.Holds v ↔ ∀ each ∈ predicates, each.Holds v := by
  match predicates, combined with
  | [only], combined =>
    cases combined
    rw [forall_mem_singleton]
  | first :: second :: rest, combined =>
    cases combined
    rw [(foldl_andThen (second :: rest) (single_wrap first)).2, holds_wrap,
      forall_mem_cons (a := first)]

theorem atoms_sqlglotAnd
    (combined : sqlglotAnd predicates = some predicate) :
    predicate.atoms = predicates.flatMap Disjunction.atoms := by
  match predicates, combined with
  | [only], combined =>
    cases combined
    rw [flatMap_cons, flatMap_nil, append_nil]
  | first :: second :: rest, combined =>
    cases combined
    rw [atoms_foldl_andThen, atoms_wrap]
    rfl

theorem single_sqlglotAnd {first second : Predicate V} {rest : List (Predicate V)}
    (combined : sqlglotAnd (first :: second :: rest) = some predicate) : predicate.Single := by
  cases combined
  exact (foldl_andThen (v := { atom := fun _ => none, compared := fun _ _ => none })
    (second :: rest)
    (single_wrap first)).1

theorem eq_nil_of_sqlglotAnd (none : sqlglotAnd predicates = none) : predicates = [] := by
  match predicates, none with
  | [], _ => rfl
  | [_], none => cases none
  | _ :: _ :: _, none => cases none

end And

def Own (columns : List String) (predicate : Predicate V) : Prop :=
  ∀ atom ∈ predicate.atoms, ∀ name ∈ atom.columns, name ∈ columns

variable {env : List (Bound V)} {bound : Bound V}

theorem comap_qualify {qualifier : Option String}
    (found : ∀ name, resolve env { qualifier := qualifier, name := name }
      = cellOf bound.header.columns bound.cells name) :
    (valuation env).comap (OwnAtom.qualify qualifier) =
      ownValuation bound.header.columns bound.cells := by
  have atoms : ((valuation env).comap (OwnAtom.qualify qualifier)).atom
      = (ownValuation bound.header.columns bound.cells).atom := by
    funext atom
    show atom.test
      ((atom.columns.map fun name => { qualifier := qualifier, name := name }).map (resolve env)) =
        _
    rw [map_map]
    exact congrArg atom.test (map_congr_left fun name _ => found name)
  have compared : ((valuation env).comap (OwnAtom.qualify qualifier)).compared
      = (ownValuation bound.header.columns bound.cells).compared := by
    funext operand comparison
    exact comparison.elim
  exact Valuation.eq_of atoms compared

theorem holds_qualified {name : String}
    (found : env.find? (fun bound => bound.header.name = name) = some bound)
    (predicate : Predicate V) :
    holds (some (qualified (some name) predicate)) env =
      satisfies bound.header.columns bound.cells predicate := by
  have cells : ∀ column, resolve env { qualifier := some name, name := column }
      = cellOf bound.header.columns bound.cells column := by
    intro column
    unfold resolve
    dsimp only
    rw [found]
    rfl
  unfold holds satisfies
  rw [decide_eq_decide]
  exact (Condition.Disjunction.holds_map _ _ predicate).trans (by rw [comap_qualify cells])

theorem holds_unqualified (bound : Bound V) (predicate : Predicate V) :
    holds (some (qualified none predicate)) [bound] =
      satisfies bound.header.columns bound.cells predicate := by
  have cells : ∀ column, resolve [bound] { qualifier := none, name := column }
      = cellOf bound.header.columns bound.cells column := by
    intro column
    unfold resolve
    dsimp only
    by_cases member : column ∈ bound.header.columns
    · have first : [bound].find? (fun bound => column ∈ bound.header.columns) = some bound :=
        find?_cons_of_pos (decide_eq_true member)
      rw [first]
      rfl
    · have missing : [bound].find? (fun bound => column ∈ bound.header.columns) = none := by
        rw [find?_cons_of_neg (by simpa using member), find?_nil]
      rw [missing]
      unfold cellIn cellOf
      have absent : (bound.header.columns.zip bound.cells).find? (fun entry => entry.1 = column) =
          none := by
        rw [find?_eq_none]
        intro entry listed same
        rw [decide_eq_true_eq] at same
        exact member (same ▸ (of_mem_zip listed).1)
      rw [absent]
  unfold holds satisfies
  rw [decide_eq_decide]
  exact (Condition.Disjunction.holds_map _ _ predicate).trans (by rw [comap_qualify cells])

variable {headers : List Header} {predicate : Predicate V}

theorem resolves_qualified {header : Header} (member : header ∈ headers)
    (own : Own header.columns predicate) :
    conditionResolves headers (some (qualified (some header.name) predicate)) = true := by
  unfold conditionResolves qualified
  dsimp only
  rw [Condition.Disjunction.atoms_map, all_map, all_eq_true]
  intro atom listed
  show (atom.columns.map fun name => ({ qualifier := some header.name, name := name } : Column)).all
    (resolves headers) = true
  rw [all_map, all_eq_true]
  intro name read
  exact any_eq_true.mpr ⟨header, member, decide_eq_true ⟨rfl, own atom listed name read⟩⟩

theorem resolves_unqualified {header : Header} (own : Own header.columns predicate) :
    conditionResolves [header] (some (qualified none predicate)) = true := by
  unfold conditionResolves qualified
  dsimp only
  rw [Condition.Disjunction.atoms_map, all_map, all_eq_true]
  intro atom listed
  show (atom.columns.map fun name => ({ qualifier := none, name := name } : Column)).all
    (resolves [header]) = true
  rw [all_map, all_eq_true]
  intro name read
  have member := own atom listed name read
  have only : ([header].filter fun header => name ∈ header.columns) = [header] :=
    filter_cons_of_pos (decide_eq_true member)
  show decide (([header].filter fun header => name ∈ header.columns).length = 1) = true
  rw [only]
  rfl

def Joinable (predicate : Predicate V) (condition : Option (Condition V)) : Prop :=
  condition = none ∨ predicate.Single

theorem holds_conjoin {condition : Option (Condition V)} {qualifier : Option String}
    (joinable : Joinable predicate condition) (env : List (Bound V)) :
    holds (some (conjoin (qualified qualifier predicate) condition)) env
      = (holds (some (qualified qualifier predicate)) env && holds condition env) := by
  cases condition with
  | none => exact (Bool.and_true _).symm
  | some condition =>
    have single := joinable.resolve_left (Option.some_ne_none _)
    have first : (qualified qualifier predicate).Single :=
      Condition.Disjunction.single_map.mpr single
    have split := first.holds_andThen (v := valuation env)
      (Condition.Disjunction.single_grouped condition)
    show decide _ = (decide _ && decide _)
    rw [← Bool.decide_and, decide_eq_decide]
    exact split

theorem resolves_conjoin (headers : List Header) (predicate : Condition V)
    (condition : Option (Condition V)) :
    conditionResolves headers (some (conjoin predicate condition))
      = (conditionResolves headers (some predicate) && conditionResolves headers condition) := by
  cases condition with
  | none => exact (Bool.and_true _).symm
  | some condition =>
    unfold conditionResolves conjoin
    dsimp only
    rw [Condition.Disjunction.atoms_andThen, all_append]
    rfl

def Source.filtered (source : Source V) (predicate : Option (Predicate V)) : Source V :=
  match predicate with
  | none => source
  | some predicate =>
    { source with
      rows := { source.rows with
        rows := source.rows.rows.filter fun cells =>
          satisfies source.rows.columns cells predicate } }

@[simp] theorem header_filtered (source : Source V) (predicate : Option (Predicate V)) :
    (source.filtered predicate).header = source.header := by
  cases predicate with
  | none => rfl
  | some predicate => rfl

theorem bounds_filtered (source : Source V) (predicate : Predicate V) :
    (source.filtered (some predicate)).bounds
      = source.bounds.filter fun bound => satisfies bound.header.columns bound.cells predicate := by
  unfold Source.bounds
  rw [filter_map]
  rfl

def guarded (name : String) (predicate : Option (Predicate V)) (condition : Option (Condition V)) :
    Option (Condition V) :=
  match predicate with
  | none => condition
  | some predicate => some (conjoin (qualified (some name) predicate) condition)

theorem guardCondition_eq (rules : Rules V) (method : RlsMethod) (relation : Relation V)
    (condition : Option (Condition V)) :
    guardCondition rules method relation condition
      = guarded relation.name (besidePredicate rules method relation) condition := rfl

structure Guarded (V : Type) where
  kind : JoinKind
  source : Source V
  on : Option (Condition V)
  predicate : Option (Predicate V)

def Guarded.rewritten (item : Guarded V) : Joined V where
  kind := item.kind
  source := item.source
  on := guarded item.source.name item.predicate item.on

def Guarded.restricted (item : Guarded V) : Joined V where
  kind := item.kind
  source := item.source.filtered item.predicate
  on := item.on

/-- A predicate may be put into the `ON`. -/
structure Guarded.Sound (item : Guarded V) : Prop where
  own : ∀ predicate, item.predicate = some predicate → Own item.source.rows.columns predicate
  joinable : ∀ predicate, item.predicate = some predicate → Joinable predicate item.on
  leftFirst : item.predicate ≠ none → item.kind.join.LeftFirst
  noCross : item.predicate ≠ none → item.kind ≠ .cross

theorem header_of_mem_bounds {source : Source V} (member : bound ∈ source.bounds) :
    bound.header = source.header := by
  obtain ⟨cells, _, rfl⟩ := mem_map.mp member
  rfl

theorem map_header_null (headers : List Header) :
    (headers.map (Header.null (V := V))).map Bound.header = headers := by
  rw [map_map]
  exact map_id headers

theorem headers_of_mem_join {envs : List (List (Bound V))} {joined : Joined V}
    (sound : ∀ env ∈ envs, env.map Bound.header = headers)
    (member : env ∈ Joins.join (fun env bound => holds joined.on (env ++ [bound]))
      (fun env bound => env ++ [bound])
      joined.kind.join (headers.map Header.null) joined.source.header.null envs
        joined.source.bounds) :
    env.map Bound.header = headers ++ [joined.source.header] := by
  refine Joins.forall_mem_join
    (P := fun env => env.map Bound.header = headers ++ [joined.source.header])
    (fun left isLeft bound isBound => ?_) member
  have lefts : left.map Bound.header = headers := by
    rcases isLeft with old | rfl
    · exact sound left old
    · exact map_header_null headers
  have header : bound.header = joined.source.header := by
    rcases isBound with old | rfl
    · exact header_of_mem_bounds old
    · rfl
  rw [map_append, lefts, map_singleton, header]

theorem headers_of_mem_joinAll (joined : List (Joined V)) :
    ∀ {headers : List Header} {envs : List (List (Bound V))},
    (∀ env ∈ envs, env.map Bound.header = headers) → ∀ env ∈ joinAll headers envs joined,
      env.map Bound.header = headers ++ joined.map fun joined => joined.source.header := by
  induction joined with
  | nil =>
    intro headers envs sound env member
    rw [map_nil, append_nil]
    exact sound env member
  | cons joined rest ih =>
    intro headers envs sound env member
    rw [ih (fun env => headers_of_mem_join sound) env member, map_cons, append_assoc,
      singleton_append]

theorem find_last
    (sound : env.map Bound.header = headers) (fresh : bound.header.name ∉ headers.map Header.name) :
    (env ++ [bound]).find? (fun other => other.header.name = bound.header.name) = some bound := by
  have none : env.find? (fun other => other.header.name = bound.header.name) = none := by
    rw [find?_eq_none]
    intro other member same
    rw [decide_eq_true_eq] at same
    apply fresh
    rw [← sound, map_map, ← same]
    exact mem_map_of_mem member
  have last : [bound].find? (fun other => other.header.name = bound.header.name) = some bound :=
    find?_cons_of_pos (decide_eq_true (Eq.refl bound.header.name))
  rw [find?_append, none, last]
  rfl

theorem joinAll_rewritten (items : List (Guarded V)) :
    ∀ {headers : List Header} {envs : List (List (Bound V))},
    (∀ env ∈ envs, env.map Bound.header = headers) →
    (headers.map Header.name ++ items.map fun item => item.source.name).Nodup →
    (∀ item ∈ items, item.Sound) →
    joinAll headers envs (items.map Guarded.rewritten) =
      joinAll headers envs (items.map Guarded.restricted) := by
  induction items with
  | nil => exact fun _ _ _ => rfl
  | cons item rest ih =>
    intro headers envs sound distinct items
    have itemSound := items item mem_cons_self
    have fresh : item.source.name ∉ headers.map Header.name := by
      rw [map_cons, nodup_append] at distinct
      exact fun member => distinct.2.2 _ member _ mem_cons_self rfl
    have step : Joins.join (fun env bound => holds item.rewritten.on (env ++ [bound]))
      (fun env bound => env ++ [bound])
        item.kind.join (headers.map Header.null) item.source.header.null envs item.source.bounds
        = Joins.join (fun env bound => holds item.on (env ++ [bound]))
          (fun env bound => env ++ [bound])
          item.kind.join (headers.map Header.null) item.source.header.null envs
            item.restricted.source.bounds := by
      unfold Guarded.rewritten Guarded.restricted
      dsimp only
      cases predicate : item.predicate with
      | none => rfl
      | some predicate' =>
        have some := Option.ne_none_iff_exists'.mpr ⟨predicate', predicate⟩
        rw [bounds_filtered]
        refine (Joins.join_filter_right (itemSound.leftFirst some) fun env left bound right =>
          ?_).symm
        have header := header_of_mem_bounds right
        unfold guarded
        dsimp only
        rw [holds_conjoin (itemSound.joinable predicate' predicate)]
        have name : item.source.name = bound.header.name := by rw [header]; rfl
        rw [name, holds_qualified (find_last (sound env left) (name ▸ fresh))]
    have headers' : item.restricted.source.header = item.source.header := header_filtered _ _
    rw [map_cons, map_cons, joinAll, joinAll, headers']
    show joinAll (headers ++ [item.source.header])
        (Joins.join (fun env bound => holds item.rewritten.on (env ++ [bound]))
          (fun env bound => env ++ [bound])
          item.kind.join (headers.map Header.null) item.source.header.null envs item.source.bounds)
        (rest.map Guarded.rewritten)
      = joinAll (headers ++ [item.source.header])
        (Joins.join (fun env bound => holds item.on (env ++ [bound]))
          (fun env bound => env ++ [bound])
          item.kind.join (headers.map Header.null) item.source.header.null envs
            item.restricted.source.bounds)
        (rest.map Guarded.restricted)
    rw [step]
    refine ih (fun env member => ?_) ?_ fun other listed => items other (mem_cons_of_mem _ listed)
    · have joined : env.map Bound.header = headers ++ [item.restricted.source.header] :=
        headers_of_mem_join sound (by rw [headers']; exact member)
      rw [joined, headers']
    · rw [map_append, append_assoc]
      exact distinct

theorem resolves_guarded {header : Header} (member : header ∈ headers)
    {predicate : Option (Predicate V)} (own : ∀ one, predicate = some one → Own header.columns one)
    (condition : Option (Condition V)) :
    conditionResolves headers (guarded header.name predicate condition) =
      conditionResolves headers condition := by
  cases predicate with
  | none => rfl
  | some predicate =>
    unfold guarded
    dsimp only
    rw [resolves_conjoin, resolves_qualified member (own predicate rfl), Bool.true_and]

theorem joinsResolve_rewritten (items : List (Guarded V)) : ∀ headers : List Header,
    (∀ item ∈ items, item.Sound) →
    joinsResolve headers (items.map Guarded.rewritten) =
      joinsResolve headers (items.map Guarded.restricted) := by
  induction items with
  | nil => exact fun _ _ => rfl
  | cons item rest ih =>
    intro headers items
    have sound := items item mem_cons_self
    have others :=
      ih (headers ++ [item.source.header]) fun other listed =>
        items other (mem_cons_of_mem _ listed)
    have headers' : item.restricted.source.header = item.source.header := header_filtered _ _
    have on := resolves_guarded
      (mem_append_right headers (mem_singleton.mpr (Eq.refl item.source.header)))
      sound.own item.on
    have cross : (item.kind ≠ .cross || (guarded item.source.name item.predicate item.on).isNone)
        = (item.kind ≠ .cross || item.on.isNone) := by
      cases predicate : item.predicate with
      | none => rfl
      | some predicate' =>
        have kind := sound.noCross (Option.ne_none_iff_exists'.mpr ⟨predicate', predicate⟩)
        rw [decide_eq_true kind, Bool.true_or, Bool.true_or]
    rw [map_cons, map_cons, joinsResolve, joinsResolve, headers', ← others]
    show (conditionResolves (headers ++ [item.source.header])
      (guarded item.source.name item.predicate item.on)
        && (item.kind ≠ .cross || (guarded item.source.name item.predicate item.on).isNone)
        && joinsResolve (headers ++ [item.source.header]) (rest.map Guarded.rewritten)) = _
    rw [cross]
    exact congrArg (fun first => first && _ && _) on

def firstSatisfies (predicate : Predicate V) : List (Bound V) → Bool
  | [] => false
  | bound :: _ => satisfies bound.header.columns bound.cells predicate

theorem joinAll_filter_first (predicate : Predicate V) (joined : List (Joined V)) :
    ∀ {headers : List Header} {envs : List (List (Bound V))},
      (∀ one ∈ joined, one.kind.join.LeftFirst) → (∀ env ∈ envs, env ≠ []) →
      joinAll headers (envs.filter (firstSatisfies predicate)) joined
        = (joinAll headers envs joined).filter (firstSatisfies predicate) := by
  induction joined with
  | nil => exact fun _ _ => rfl
  | cons one rest ih =>
    intro headers envs leftFirst nonempty
    rw [joinAll, joinAll]
    rw [Joins.join_filter_left (q := firstSatisfies predicate) (leftFirst one mem_cons_self)]
    · refine ih (fun other listed => leftFirst other (mem_cons_of_mem _ listed))
        fun env member => ?_
      exact Joins.forall_mem_join (P := fun env => env ≠ [])
        (fun left _ bound _ => append_ne_nil_of_right_ne_nil left (cons_ne_nil bound [])) member
    · intro env left bound _
      cases env with
      | nil => exact (nonempty [] left rfl).elim
      | cons head tail => rfl

theorem rows_guarded (projection : Projection V) (first : Source V)
    (predicate : Option (Predicate V))
    (items : List (Guarded V)) (condition : Option (Condition V))
    (own : ∀ one, predicate = some one → Own first.rows.columns one)
    (joinable : ∀ one, predicate = some one → Joinable one condition)
    (leftFirst : predicate ≠ none → ∀ item ∈ items, item.kind.join.LeftFirst)
    (sound : ∀ item ∈ items, item.Sound) :
    Block.rows
        { projection := projection, first := first, joined := items.map Guarded.rewritten,
          condition := guarded first.name predicate condition }
      = Block.rows
        { projection := projection, first := first.filtered predicate,
          joined := items.map Guarded.restricted,
          condition := condition } := by
  have joinedHeaders : (items.map Guarded.restricted).map (fun joined => joined.source.header)
      = items.map fun item => item.source.header := by
    rw [map_map]
    exact map_congr_left fun item _ => header_filtered item.source item.predicate
  have headers : ∀ condition' : Option (Condition V), Block.headers
      { projection := projection, first := first.filtered predicate,
        joined := items.map Guarded.restricted,
        condition := condition' } = first.header :: items.map fun item => item.source.header := by
    intro condition'
    unfold Block.headers
    dsimp only
    rw [header_filtered, joinedHeaders]
  have headers' : ∀ condition' : Option (Condition V), Block.headers
      { projection := projection, first := first, joined := items.map Guarded.rewritten,
        condition := condition' }
        = first.header :: items.map fun item => item.source.header := by
    intro condition'
    unfold Block.headers
    dsimp only
    rw [map_map]
    rfl
  have valid : Block.valid
        { projection := projection, first := first, joined := items.map Guarded.rewritten,
          condition := guarded first.name predicate condition }
      = Block.valid
        { projection := projection, first := first.filtered predicate,
          joined := items.map Guarded.restricted,
          condition := condition } := by
    unfold Block.valid
    rw [headers, headers']
    dsimp only
    rw [header_filtered, joinsResolve_rewritten items [first.header] sound]
    have resolved : conditionResolves (first.header :: items.map fun item => item.source.header)
        (guarded first.name predicate condition) = conditionResolves _ condition :=
      resolves_guarded mem_cons_self own condition
    exact congrArg (fun resolves => _ && _ && resolves && _) resolved
  unfold Block.rows
  rw [valid, headers, headers']
  dsimp only
  split
  · rename_i ok
    rw [header_filtered]
    unfold Block.valid at ok
    rw [headers, Bool.and_eq_true, Bool.and_eq_true, Bool.and_eq_true, decide_eq_true_eq] at ok
    have distinct := ok.1.1.1
    have start : ∀ env ∈ first.bounds.map (fun bound => [bound]),
        env.map Bound.header = [first.header] := by
      intro env member
      obtain ⟨bound, listed, rfl⟩ := mem_map.mp member
      rw [map_singleton, header_of_mem_bounds listed]
    have joins := joinAll_rewritten items start
      (by rw [map_cons, map_map] at distinct; exact distinct) sound
    rw [joins]
    cases some : predicate with
    | none => rfl
    | some one =>
      subst some
      have nonempty : ∀ env ∈ first.bounds.map (fun bound => [bound]), env ≠ [] := by
        intro env member
        obtain ⟨bound, _, rfl⟩ := mem_map.mp member
        exact cons_ne_nil bound []
      have kinds : ∀ joined ∈ items.map Guarded.restricted, joined.kind.join.LeftFirst := by
        intro joined member
        obtain ⟨item, listed, rfl⟩ := mem_map.mp member
        exact leftFirst (Option.some_ne_none one) item listed
      have pushed : joinAll [first.header] _ _ = _ :=
        joinAll_filter_first one (items.map Guarded.restricted) kinds nonempty
      have starts : (first.filtered (some one)).bounds.map (fun bound => [bound])
          = (first.bounds.map fun bound => [bound]).filter (firstSatisfies one) := by
        rw [bounds_filtered, filter_map]
        rfl
      rw [starts, pushed, filter_filter]
      congr 2
      refine filter_congr fun env member => ?_
      have shape := headers_of_mem_joinAll (items.map Guarded.restricted) start env member
      cases env with
      | nil => cases shape
      | cons head tail =>
        have header : head.header = first.header := (List.cons.inj shape).1
        have found : (head :: tail).find? (fun bound => bound.header.name = first.name) =
          some head :=
          find?_cons_of_pos (decide_eq_true (by rw [header]; rfl))
        unfold guarded
        dsimp only
        rw [holds_conjoin (joinable one rfl), holds_qualified found, Bool.and_comm]
        rfl
  · rfl

end Liteset.Sql.RowSecurity
