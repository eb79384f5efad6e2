import Liteset.Lib.Runs
import Liteset.SqlLab.Store

/-!
# Tables of SQL Lab

The actions of `SqlLab/reducers/sqlLab.js` on `tables` and on the tab shown below
the editor.  MERGE_TABLE looks an entry up by database, editor, catalog, schema and
name; SET_TABLES appends and MIGRATE_TABLE goes by id.
-/

set_option autoImplicit false

namespace Liteset.SqlLab.Tables

open Liteset.Lib Liteset.Lib.JsObject Liteset.Lib.Runs List

structure State where
  lab : SqlLab.State
  activeSouthPaneTab : Value

/-- What `nanoid()` returns. -/
abbrev Nanoid := { id : String // id ≠ "" }

def keyFields : List String := ["dbId", "queryEditorId", "catalog", "schema", "name"]

def keyOf (table : Object) : List Value := keyFields.map (get table)

/-- `if (!copiedObject.id) copiedObject.id = nanoid()` -/
def withId (table : Object) (nanoid : Nanoid) : Object :=
  if truthy (get table "id") then table else spread table (single "id" (text nanoid))

def addToArr (tables : List Object) (table : Object) (nanoid : Nanoid) (prepend : Bool) :
    List Object :=
  if prepend then withId table nanoid :: tables else tables ++ [withId table nanoid]

def extendArr (tables : List Object) (added : List (Object × Nanoid)) : List Object :=
  tables ++ added.map fun table => withId table.1 table.2

def merged (existing table : Object) : Object :=
  spread (spread existing table)
    (spreadIf (truthy (get existing "initialized") = true) (single "id" (get existing "id")))

/-- `{ dataPreviewQueryId: action.query.id }` -/
def previewOf (query : Object) : Object := single "dataPreviewQueryId" (get query "id")

def existingIndex (tables : List Object) (table : Object) : Option Nat :=
  tables.findIdx? fun xt => keyOf xt = keyOf table

def mergeTables (tables : List Object) (table : Object) (query : Option Object) (prepend : Bool)
    (nanoid : Nanoid) : List Object :=
  match existingIndex tables table with
  | some i =>
    let at' := (query.map fun query => spread table (previewOf query)).getD table
    tables.modify i fun existing => merged existing at'
  | none =>
    let at' := spread table (single "dataPreviewQueryId" (some .null))
    let added := addToArr tables at' nanoid prepend
    match query with
    | some query => alterInArr added at' (previewOf query) "id"
    | none => added

def mergeTable (s : State) (table : Object) (query : Option Object) (prepend : Bool)
    (nanoid : Nanoid) : State where
  lab := { s.lab with tables := mergeTables s.lab.tables table query prepend nanoid }
  activeSouthPaneTab :=
    if truthy (get table "expanded") then get table "id" else s.activeSouthPaneTab

def removeTables (s : State) (removed : List Object) : State :=
  let tableIds := removed.map fun table => get table "id"
  let tables := s.lab.tables.filter fun table => get table "id" ∉ tableIds
  let editor := (removed.head?.map fun table => get table "queryEditorId").getD undefined
  { lab := { s.lab with tables := tables }
    activeSouthPaneTab :=
      if s.activeSouthPaneTab ∈ tableIds then
        nullish
          (((tables.find? fun table => get table "queryEditorId" = editor).map
            fun table => get table "id").getD undefined)
          (text "Results")
      else s.activeSouthPaneTab }

inductive Action where
  | mergeTable (table : Object) (query : Option Object) (prepend : Bool) (nanoid : Nanoid)
  | setTables (tables : List (Object × Nanoid))
  | migrateTable (oldTable newTable : Object) (nanoid : Nanoid)
  | removeTables (tables : List Object)
  | removeQueryEditor (now : Int) (queryEditor : Object)

def reduce (s : State) : Action → State
  | .mergeTable table query prepend nanoid => mergeTable s table query prepend nanoid
  | .setTables tables => { s with lab := { s.lab with tables := extendArr s.lab.tables tables } }
  | .migrateTable oldTable newTable nanoid =>
    { s with lab := { s.lab with
        tables := addToArr (removeFromArr s.lab.tables oldTable) newTable nanoid false } }
  | .removeTables tables => removeTables s tables
  | .removeQueryEditor now queryEditor =>
    { s with lab := SqlLab.removeQueryEditor now s.lab queryEditor }

def keys (tables : List Object) : List (List Value) := tables.map keyOf

def Unique (tables : List Object) : Prop := (keys tables).Nodup

instance (tables : List Object) : Decidable (Unique tables) :=
  inferInstanceAs (Decidable (List.Nodup _))

section Keys
variable {tables : List Object} {table other : Object} {nanoid : Nanoid}

theorem keyOf_congr (same : ∀ f ∈ keyFields, get table f = get other f) :
    keyOf table = keyOf other := map_congr_left same

theorem get_of_keyOf_eq (same : keyOf table = keyOf other) {f : String} (key : f ∈ keyFields) :
    get table f = get other f := map_inj_left.mp same f key

theorem get_spread_single {f field : String} {value : Value} (different : f ≠ field) :
    get (spread table (single field value)) f = get table f :=
  get_spread_of_not_has fun has => different (has_single_iff.mp has)

theorem keyOf_spread_single {field : String} {value : Value} (noKey : field ∉ keyFields) :
    keyOf (spread table (single field value)) = keyOf table :=
  keyOf_congr fun _ key => get_spread_single fun same => noKey (same ▸ key)

@[simp] theorem keyOf_withId : keyOf (withId table nanoid) = keyOf table := by
  unfold withId
  split
  · rfl
  · exact keyOf_spread_single (by decide)

theorem get_withId_id : get (withId table nanoid) "id" = get table "id" ↔
    truthy (get table "id") = true := by
  unfold withId
  by_cases has : truthy (get table "id") = true
  · simp [has]
  · have drawn : truthy (text nanoid) = true := by simpa [text, truthy] using nanoid.2
    rw [if_neg has, get_spread_of_has (has_single_iff.mpr rfl), get_single_self]
    exact ⟨fun same => absurd (same ▸ drawn) has, fun truth => absurd truth has⟩

theorem keyOf_merged (same : keyOf table = keyOf other) :
    keyOf (merged table other) = keyOf table := by
  have spreads : keyOf (spread table other) = keyOf table := by
    refine keyOf_congr fun f key => ?_
    by_cases has : Has other f
    · rw [get_spread_of_has has, get_of_keyOf_eq same key]
    · exact get_spread_of_not_has has
  unfold merged spreadIf
  split
  · rw [keyOf_spread_single (by decide), spreads]
  · rw [spread_empty, spreads]

@[simp] theorem keys_alterInArr (obj query : Object) :
    keys (alterInArr tables obj (previewOf query) "id") = keys tables := by
  unfold keys alterInArr
  rw [map_map]
  refine map_congr_left fun item _ => ?_
  show keyOf (if _ then _ else _) = _
  split
  · exact keyOf_spread_single (by decide)
  · rfl

end Keys

def findTable (tables : List Object) (table : Object) : Option Object :=
  tables.find? fun xt => keyOf xt = keyOf table

/-- The tab shown is the one of the entry with the key. -/
def Shown (s : State) (table : Object) : Prop :=
  (findTable s.lab.tables table).map (fun entry => get entry "id") = some s.activeSouthPaneTab

def TakesId (tables : List Object) (table : Object) : Prop :=
  match findTable tables table with
  | none => truthy (get table "id") = true
  | some existing =>
    if truthy (get existing "initialized") then get table "id" = get existing "id"
    else Has table "id" ∨ get existing "id" = undefined

def Allowed (s : State) : Action → Prop
  | .mergeTable table _ _ _ => truthy (get table "expanded") = true → TakesId s.lab.tables table
  | .setTables tables => (keys (s.lab.tables ++ tables.map Prod.fst)).Nodup
  | .migrateTable oldTable newTable _ =>
    keyOf newTable ∉ keys (removeFromArr s.lab.tables oldTable)
  | .removeTables _ => True
  | .removeQueryEditor _ _ => True

/-- What is asked of the state after an action. -/
def Right (s : State) (a : Action) : Prop :=
  Unique (reduce s a).lab.tables ∧
    match a with
    | .mergeTable table _ _ _ => truthy (get table "expanded") = true → Shown (reduce s a) table
    | _ => True

section Step
variable {tables : List Object} {table : Object} {query : Option Object} {prepend : Bool}
  {nanoid : Nanoid}

theorem split_existing {i : Nat} (found : existingIndex tables table = some i) :
    ∃ before existing rest, tables = before ++ existing :: rest
      ∧ (∀ xt ∈ before, keyOf xt ≠ keyOf table) ∧ keyOf existing = keyOf table
      ∧ ∀ f, tables.modify i f = before ++ f existing :: rest := by
  obtain ⟨bound, same, others⟩ := findIdx?_eq_some_iff_getElem.mp found
  refine ⟨tables.take i, tables[i], tables.drop (i + 1), by simp, ?_, by simpa using same,
    fun f => modify_eq_take_cons_drop bound⟩
  intro xt member
  obtain ⟨j, below, rfl⟩ := mem_take_iff_getElem.mp member
  simpa using others j (by omega)

theorem findTable_of_existing {before rest : List Object} {existing : Object}
    (others : ∀ xt ∈ before, keyOf xt ≠ keyOf table) (same : keyOf existing = keyOf table) :
    findTable (before ++ existing :: rest) table = some existing := by
  unfold findTable
  rw [find?_append, find?_eq_none.mpr (by simpa using others), Option.none_or,
    find?_cons_of_pos (by simpa using same)]

theorem findTable_eq_none : findTable tables table = none ↔ keyOf table ∉ keys tables := by
  unfold findTable keys
  simp [find?_eq_none]

theorem existingIndex_eq_none : existingIndex tables table = none ↔ keyOf table ∉ keys tables := by
  unfold existingIndex keys
  simp [findIdx?_eq_none_iff]

theorem keys_addToArr : (keys (addToArr tables table nanoid prepend)).Perm
    (keyOf table :: keys tables) := by
  unfold addToArr
  split
  · simp [keys]
  · simp only [keys, map_append, map_cons, map_nil, keyOf_withId]
    exact @perm_append_comm _ (tables.map keyOf) [keyOf table]

theorem unique_addToArr (unique : Unique tables) :
    Unique (addToArr tables table nanoid prepend) ↔ keyOf table ∉ keys tables := by
  unfold Unique
  rw [keys_addToArr.nodup_iff, nodup_cons]
  exact ⟨And.left, fun new => ⟨new, unique⟩⟩

theorem unique_mergeTables (unique : Unique tables) :
    Unique (mergeTables tables table query prepend nanoid) := by
  unfold mergeTables
  cases found : existingIndex tables table with
  | some i =>
    obtain ⟨before, existing, rest, rfl, _, same, modified⟩ := split_existing found
    have sameQuery : keyOf ((query.map fun query => spread table (previewOf query)).getD table)
        = keyOf table := by
      cases query with
      | none => rfl
      | some query => exact keyOf_spread_single (by decide)
    simp only [modified]
    unfold Unique keys at unique ⊢
    rw [map_append, map_cons, keyOf_merged (same.trans sameQuery.symm)]
    simpa using unique
  | none =>
    have new := existingIndex_eq_none.mp found
    have added : Unique (addToArr tables (spread table (single "dataPreviewQueryId" (some .null)))
        nanoid prepend) := by
      rw [unique_addToArr unique, keyOf_spread_single (by decide)]
      exact new
    cases query with
    | none => exact added
    | some query =>
      unfold Unique at added ⊢
      rwa [keys_alterInArr]

theorem findTable_mergeTables_existing {existing : Object}
    (found : findTable tables table = some existing) :
    ∃ at', findTable (mergeTables tables table query prepend nanoid) table
        = some (merged existing at') ∧ get at' "id" = get table "id" ∧
        (Has at' "id" ↔ Has table "id") := by
  cases index : existingIndex tables table with
  | none => rw [findTable_eq_none.mpr (existingIndex_eq_none.mp index)] at found; cases found
  | some i =>
    obtain ⟨before, first, rest, rfl, others, same, modified⟩ := split_existing index
    rw [findTable_of_existing others same] at found
    cases found
    refine ⟨(query.map fun query => spread table (previewOf query)).getD table, ?_⟩
    unfold mergeTables
    simp only [index, modified]
    cases query with
    | none => exact ⟨findTable_of_existing others ((keyOf_merged same).trans same), rfl, Iff.rfl⟩
    | some query =>
      have sameQuery : keyOf (spread table (previewOf query)) = keyOf table :=
        keyOf_spread_single (by decide)
      refine ⟨findTable_of_existing others ?_, get_spread_single (by decide), ?_⟩
      · exact (keyOf_merged (same.trans sameQuery.symm)).trans same
      · show Has (spread table (previewOf query)) "id" ↔ _
        rw [has_spread_iff, previewOf, has_single_iff]
        exact or_iff_right (by decide)

theorem findTable_addToArr (new : keyOf table ∉ keys tables) :
    findTable (addToArr tables table nanoid prepend) table = some (withId table nanoid) := by
  have others : ∀ xt ∈ tables, keyOf xt ≠ keyOf table := fun xt member same =>
    new (mem_map.mpr ⟨xt, member, same⟩)
  unfold addToArr
  split
  · exact @findTable_of_existing _ [] _ _ (by simp) keyOf_withId
  · exact findTable_of_existing others keyOf_withId

theorem findTable_alterInArr_id (obj query : Object) :
    (findTable (alterInArr tables obj (previewOf query) "id") table).map (fun e => get e "id")
      = (findTable tables table).map fun e => get e "id" := by
  have keeps : ∀ item field, field ≠ "dataPreviewQueryId" →
      get (if get obj "id" = get item "id" then spread item (previewOf query) else item) field
        = get item field := by
    intro item field other
    split
    · exact get_spread_single other
    · rfl
  have keepsKey : ∀ item, keyOf (if get obj "id" = get item "id" then
      spread item (previewOf query) else item) = keyOf item := fun item =>
    keyOf_congr fun f key => keeps item f fun same => absurd (same ▸ key) (by decide)
  unfold findTable alterInArr
  rw [find?_map, Option.map_map]
  simp only [Function.comp_def, keepsKey]
  exact congrArg (Option.map · _) (funext fun item => keeps item "id" (by decide))

theorem findTable_mergeTables_new (new : findTable tables table = none) :
    (findTable (mergeTables tables table query prepend nanoid) table).map (fun e => get e "id")
      =
        some (get (withId (spread table (single "dataPreviewQueryId" (some .null)))
        nanoid) "id") := by
  have sameKey : keyOf (spread table (single "dataPreviewQueryId" (some .null))) = keyOf table :=
    keyOf_spread_single (by decide)
  have absent := findTable_eq_none.mp new
  have added := @findTable_addToArr tables (spread table (single "dataPreviewQueryId" (some .null)))
    prepend nanoid (sameKey.symm ▸ absent)
  unfold findTable at added
  rw [sameKey] at added
  unfold mergeTables
  simp only [existingIndex_eq_none.mpr absent]
  cases query with
  | none => exact congrArg (Option.map _) added
  | some query => exact findTable_alterInArr_id _ query |>.trans (congrArg (Option.map _) added)

theorem shown_mergeTable_iff {s : State} (expanded : truthy (get table "expanded") = true) :
    Shown (mergeTable s table query prepend nanoid) table ↔ TakesId s.lab.tables table := by
  unfold Shown TakesId mergeTable
  rw [if_pos expanded]
  cases found : findTable s.lab.tables table with
  | none =>
    have sameId : get (spread table (single "dataPreviewQueryId" (some .null))) "id"
        = get table "id" := get_spread_single (by decide)
    rw [findTable_mergeTables_new found, Option.some_inj, ← sameId]
    exact get_withId_id
  | some existing =>
    obtain ⟨at', merges, sameId, hasId⟩ :=
      @findTable_mergeTables_existing _ table query prepend nanoid _ found
    rw [merges, Option.map_some, Option.some_inj]
    show get (merged existing at') "id" = get table "id" ↔
      if truthy (get existing "initialized") then get table "id" = get existing "id"
      else Has table "id" ∨ get existing "id" = undefined
    unfold merged spreadIf
    by_cases initialized : truthy (get existing "initialized") = true
    · rw [if_pos initialized, if_pos initialized, get_spread_of_has (has_single_iff.mpr rfl),
        get_single_self]
      exact eq_comm
    · rw [if_neg initialized, if_neg initialized, spread_empty]
      by_cases has : Has table "id"
      · rw [get_spread_of_has (hasId.mpr has), sameId]
        exact iff_of_true rfl (Or.inl has)
      · rw [get_spread_of_not_has (mt hasId.mp has), get_of_not_has has]
        exact (or_iff_right has).symm

theorem unique_filter (unique : Unique tables) (p : Object → Bool) : Unique (tables.filter p) :=
  unique.sublist (Sublist.map keyOf filter_sublist)

theorem right_iff_allowed {s : State} (unique : Unique s.lab.tables) (a : Action) :
    Right s a ↔ Allowed s a := by
  cases a with
  | mergeTable table query prepend nanoid =>
    have keeps : Unique (reduce s (.mergeTable table query prepend nanoid)).lab.tables :=
      unique_mergeTables unique
    exact (and_iff_right keeps).trans (forall_congr' fun expanded => shown_mergeTable_iff expanded)
  | setTables tables =>
    have sameKeys :
        keys (extendArr s.lab.tables tables) = keys (s.lab.tables ++ tables.map Prod.fst) := by
      simp [keys, extendArr, Function.comp_def]
    refine (and_iff_left trivial).trans ?_
    show (keys (extendArr s.lab.tables tables)).Nodup ↔ _
    rw [sameKeys]
    exact Iff.rfl
  | migrateTable oldTable newTable nanoid =>
    have kept : Unique (removeFromArr s.lab.tables oldTable) := unique_filter unique _
    refine (and_iff_left trivial).trans ?_
    show Unique (addToArr (removeFromArr s.lab.tables oldTable) newTable nanoid false) ↔ _
    exact unique_addToArr kept
  | removeTables tables => exact iff_of_true ⟨unique_filter unique _, trivial⟩ trivial
  | removeQueryEditor now queryEditor =>
    exact iff_of_true ⟨unique_filter unique _, trivial⟩ trivial

end Step

def fromEmpty (lab : SqlLab.State) (activeSouthPaneTab : Value) : State :=
  ⟨{ lab with tables := [] }, activeSouthPaneTab⟩

def step (s : State) (a : Action) : Option State := some (reduce s a)

/-- From no tables, the entries stay unique and every expanded merge shows its entry
exactly when no action appends a key that is there and every expanded table gives its
id to its entry. -/
theorem tables_unique_iff (lab : SqlLab.State) (activeSouthPaneTab : Value)
    (actions : List Action) :
    Everywhere step (fun s a _ => Right s a) (fromEmpty lab activeSouthPaneTab) actions
      ↔ Everywhere step (fun s a _ => Allowed s a) (fromEmpty lab activeSouthPaneTab) actions := by
  refine everywhere_iff step (fun s => Unique s.lab.tables) ?_ ?_ actions nodup_nil
    (everywhere_true step _ actions)
  · intro s a t unique _ _
    exact right_iff_allowed unique a
  · intro s a t _ _ taken right
    cases taken
    exact right.1

def announced : Object :=
  ofList [("id", text "1"), ("dbId", number 1), ("queryEditorId", text "e"),
    ("catalog", some .null), ("schema", text "main"), ("name", text "t")]

theorem announced_twice :
    ¬∀ (lab : SqlLab.State) (activeSouthPaneTab : Value) (actions : List Action),
      Everywhere step (fun s a _ => Right s a) (fromEmpty lab activeSouthPaneTab) actions := by
  intro holds
  have run := holds ⟨[], empty, [], [], fun _ => none, 0, empty⟩ (text "Results")
    [.mergeTable announced none false ⟨"n", by decide⟩, .setTables [(announced, ⟨"n", by decide⟩)]]
  have second := ((run _ rfl).2 _ rfl).1.1
  exact absurd second (by decide)

end Liteset.SqlLab.Tables
