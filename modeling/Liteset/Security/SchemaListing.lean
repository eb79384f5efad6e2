import Liteset.Security.AccessLists

/-!
# Schemas a user may list

`get_schemas_accessible_by_user` takes `schema_access` names apart at their dots and adds
the schemas of datasets; `can_access_schema` builds the name of one schema and asks for it.
-/

set_option autoImplicit false

namespace Liteset.Security.Access

def canAccessSchema (grants : Grants) (user : User) (database : Database) (schema : String)
    (catalog : Option String) : Bool :=
  hasAccess grants user allDatasourceAccess allDatasourceAccess
    || canAccessDatabase grants user database
    || (truthy catalog && canAccessCatalog grants user database (catalog.getD ""))
    || hasAccess grants user schemaAccess
      ((getSchemaPerm database.databaseName catalog (some schema)).getD "")

structure EngineDatabase where
  database : Database
  defaultCatalog : Option String
  defaultSchema : Option String → Option String

/-- Python `a or b`. -/
def orElse (first second : Option String) : Option String := if truthy first then first else second

/-- `[part[1:-1] for part in perm.split(".")]` -/
def permParts (view : String) : List String :=
  (view.toList.splitOn '.').map fun part => String.ofList (part.drop 1).dropLast

/-- The schema that a `schema_access` name stands for within a catalog. -/
def schemaOfPerm (engine : EngineDatabase) (catalog : Option String) (view : String) :
    Option String :=
  match permParts view with
  | [database, schema] =>
    if database = engine.database.databaseName ∧ (catalog = none ∨ catalog = engine.defaultCatalog)
      then some schema
    else none
  | [database, middle, schema] =>
    if database = engine.database.databaseName ∧ catalog = some middle then some schema else none
  | _ => none

/-- The schema of a dataset, `None` when both alternatives are falsy. -/
def schemaOfTable (engine : EngineDatabase) (table : SqlaTable) : Option String :=
  let schema := orElse table.schema (engine.defaultSchema engine.defaultCatalog)
  if truthy schema then schema else none

section Listing

variable (settings : Settings) (grants : Grants) (tables : List SqlaTable) (user : User)
    (engine : EngineDatabase)

def accessibleSchemas (catalog : Option String) : List String :=
  (userViewMenuNames settings grants user schemaAccess).filterMap (schemaOfPerm engine catalog) ++
    (tables.filter fun table => table.databaseId = engine.database.id
      && isIn table.perm (userViewMenuNames settings grants user datasourceAccess)).filterMap
        (schemaOfTable engine)

def opensAll (catalog : Option String) : Bool :=
  canAccessDatabase grants user engine.database
    || (truthy catalog && canAccessCatalog grants user engine.database (catalog.getD ""))

def getSchemasAccessibleByUser (schemas : List String) (catalog : Option String)
    (hierarchical : Bool) :
    List String :=
  if hierarchical && opensAll grants user engine (orElse catalog engine.defaultCatalog) then schemas
  else schemas.filter fun schema =>
    schema ∈ accessibleSchemas settings grants tables user engine
      (orElse catalog engine.defaultCatalog)

end Listing

def schemaPermName (engine : EngineDatabase) (catalog : Option String) (schema : String) : String :=
  (getSchemaPerm engine.database.databaseName catalog (some schema)).getD ""

def Dotless (engine : EngineDatabase) (catalog : Option String) (schema : String) : Prop :=
  '.' ∉ engine.database.databaseName.toList ∧ '.' ∉ schema.toList ∧
    (truthy catalog = true → '.' ∉ (catalog.getD "").toList)

theorem dotless_bracket (name : List Char) (dotless : '.' ∉ name) : '.' ∉ '[' :: name ++ [']'] := by
  simp [dotless]

theorem schemaOfPerm_of_dotless (engine : EngineDatabase) (catalog : Option String)
    (schema : String)
    (resolved : truthy catalog = false → catalog = engine.defaultCatalog)
    (dotless : Dotless engine catalog schema) :
    schemaOfPerm engine catalog (schemaPermName engine catalog schema) = some schema := by
  obtain ⟨database, last, middle⟩ := dotless
  cases named : truthy catalog with
  | false =>
    have chars : (schemaPermName engine catalog schema).toList =
        ('[' :: engine.database.databaseName.toList ++ [']']) ++
          '.' :: ('[' :: schema.toList ++ [']']) := by
      simp [schemaPermName, getSchemaPerm, named]
    have parts : permParts (schemaPermName engine catalog schema) =
        [engine.database.databaseName, schema] := by
      rw [permParts, chars, List.splitOn_append_cons_self_of_not_mem (dotless_bracket _ database),
        List.splitOn_eq_singleton (dotless_bracket _ last)]
      simp
    rw [schemaOfPerm, parts]
    exact if_pos ⟨rfl, .inr (resolved named)⟩
  | true =>
    obtain ⟨name, rfl⟩ : ∃ name, catalog = some name := by
      cases catalog with
      | none => simp [truthy] at named
      | some name => exact ⟨name, rfl⟩
    have chars : (schemaPermName engine (some name) schema).toList =
        ('[' :: engine.database.databaseName.toList ++ [']']) ++ '.' ::
          (('[' :: name.toList ++ [']']) ++ '.' :: ('[' :: schema.toList ++ [']'])) := by
      simp [schemaPermName, getSchemaPerm, named]
    have parts : permParts (schemaPermName engine (some name) schema) =
        [engine.database.databaseName, name, schema] := by
      rw [permParts, chars, List.splitOn_append_cons_self_of_not_mem (dotless_bracket _ database),
        List.splitOn_append_cons_self_of_not_mem (dotless_bracket name.toList (middle named)),
        List.splitOn_eq_singleton (dotless_bracket _ last)]
      simp
    simp [schemaOfPerm, parts]

section Agreement

variable (settings : Settings) (grants : Grants) (tables : List SqlaTable) (user : User)
    (engine : EngineDatabase)
variable (catalog : Option String) (schema : String)

def Inferred (table : SqlaTable) : Prop :=
  table ∈ tables ∧ table.databaseId = engine.database.id ∧
    schemaOfTable engine table = some schema ∧
    ∃ perm, table.perm = some perm ∧ (datasourceAccess, perm) ∈
      userPermissionPairs settings grants user

def HeldDataset (table : SqlaTable) : Prop :=
  table ∈ tables ∧ table.databaseId = engine.database.id ∧
    schemaOfTable engine table = some schema ∧
    orElse table.catalog engine.defaultCatalog = catalog ∧
      ∃ perm, table.perm = some perm ∧ hasAccess grants user datasourceAccess perm = true

def Granted : Prop :=
  hasAccess grants user schemaAccess (schemaPermName engine catalog schema) = true

def Entitled : Prop := Granted grants user engine catalog schema ∨
  ∃ table, HeldDataset grants tables user engine catalog schema table

def Found : Prop :=
  (∃ view, (schemaAccess, view) ∈ userPermissionPairs settings grants user ∧
    schemaOfPerm engine catalog view = some schema) ∨
    ∃ table, Inferred settings grants tables user engine schema table

theorem mem_accessibleSchemas :
    schema ∈ accessibleSchemas settings grants tables user engine catalog ↔
      Found settings grants tables user engine catalog schema := by
  simp only [accessibleSchemas, List.mem_append, List.mem_filterMap, List.mem_filter,
    mem_userViewMenuNames, Bool.and_eq_true, decide_eq_true_eq, isIn_iff, Found, Inferred]
  refine or_congr Iff.rfl (exists_congr fun table => ?_)
  tauto

theorem canAccessSchema_iff :
    canAccessSchema grants user engine.database schema catalog = true ↔
      opensAll grants user engine catalog = true ∨ Granted grants user engine catalog schema := by
  simp only [canAccessSchema, opensAll, Granted, schemaPermName, Bool.or_eq_true]
  constructor
  · rintro (((every | database) | named) | held)
    · exact .inl (.inl (by simp [canAccessDatabase, every]))
    · exact .inl (.inl database)
    · exact .inl (.inr named)
    · exact .inr held
  · rintro ((database | named) | held)
    · exact .inl (.inl (.inr database))
    · exact .inl (.inr named)
    · exact .inr held

/-- Listed schemas are those the check accepts, or of a dataset of the catalog that the
user may read. -/
def SchemasAgree (schemas : List String) : Prop :=
  ∀ schema ∈ schemas,
    (canAccessSchema grants user engine.database schema
      (orElse catalog engine.defaultCatalog) = true →
      schema ∈ getSchemasAccessibleByUser settings grants tables user engine schemas catalog true) ∧
      (schema ∈ getSchemasAccessibleByUser settings grants tables user engine schemas catalog true →
        canAccessSchema grants user engine.database schema
          (orElse catalog engine.defaultCatalog) = true ∨
          ∃ table, HeldDataset grants tables user engine (orElse catalog engine.defaultCatalog)
            schema table)

/-- The strings read for a candidate are those that the check asks for: its own name, free
of dots, and datasets of the resolved catalog that the user holds. -/
structure SchemasMatch (resolved : Option String) (schemas : List String) : Prop where
  dotless : ∀ schema ∈ schemas, Granted grants user engine resolved schema →
    Dotless engine resolved schema ∧
      (schemaAccess, schemaPermName engine resolved schema) ∈
        userPermissionPairs settings grants user
  name : ∀ schema ∈ schemas,
    ∀ view, (schemaAccess, view) ∈ userPermissionPairs settings grants user →
    schemaOfPerm engine resolved view = some schema →
      view = schemaPermName engine resolved schema ∧ hasAccess grants user schemaAccess view = true
  catalog : ∀ schema ∈ schemas, ∀ table, Inferred settings grants tables user engine schema table →
    orElse table.catalog engine.defaultCatalog = resolved ∧
      ∀ perm, table.perm = some perm → hasAccess grants user datasourceAccess perm = true

theorem orElse_resolved (first second : Option String)
    (falsy : truthy (orElse first second) = false) :
    orElse first second = second := by
  unfold orElse at falsy ⊢
  cases named : truthy first with
  | true => simp [named] at falsy
  | false => rfl

theorem found_of_granted (schemas : List String) (member : schema ∈ schemas)
    (matched : SchemasMatch settings grants tables user engine
      (orElse catalog engine.defaultCatalog) schemas)
    (granted : Granted grants user engine (orElse catalog engine.defaultCatalog) schema) :
    Found settings grants tables user engine (orElse catalog engine.defaultCatalog) schema := by
  obtain ⟨dotless, read⟩ := matched.dotless schema member granted
  exact .inl ⟨_, read, schemaOfPerm_of_dotless engine _ schema (orElse_resolved catalog _) dotless⟩

theorem entitled_of_found (schemas : List String) (member : schema ∈ schemas)
    (matched : SchemasMatch settings grants tables user engine catalog schemas)
    (found : Found settings grants tables user engine catalog schema) :
    Entitled grants tables user engine catalog schema := by
  rcases found with ⟨view, read, parsed⟩ | ⟨table, inferred⟩
  · obtain ⟨same, held⟩ := matched.name schema member view read parsed
    exact .inl (by rw [Granted, ← same, held])
  · obtain ⟨within, held⟩ := matched.catalog schema member table inferred
    obtain ⟨stored, own, text, perm, column, _⟩ := inferred
    exact .inr ⟨table, stored, own, text, within, perm, column, held perm column⟩

/-- An open database or catalog lists everything; otherwise the listing agrees with the
check where the strings it reads are those the check asks for. -/
theorem schemasAgree_of_match (schemas : List String)
    (matched : opensAll grants user engine (orElse catalog engine.defaultCatalog) = true ∨
      SchemasMatch settings grants tables user engine (orElse catalog engine.defaultCatalog)
        schemas) :
    SchemasAgree settings grants tables user engine catalog schemas := by
  intro schema member
  cases whole : opensAll grants user engine (orElse catalog engine.defaultCatalog) with
  | true =>
    exact ⟨fun _ => by simpa [getSchemasAccessibleByUser, whole] using member,
      fun _ => .inl ((canAccessSchema_iff grants user engine _ schema).mpr (.inl whole))⟩
  | false =>
    have names := matched.resolve_left (by simp [whole])
    have check : canAccessSchema grants user engine.database schema
        (orElse catalog engine.defaultCatalog) = true ↔
          Granted grants user engine (orElse catalog engine.defaultCatalog) schema := by
      simp [canAccessSchema_iff, whole]
    have listed : schema ∈ getSchemasAccessibleByUser settings grants tables user engine schemas
      catalog true ↔
        Found settings grants tables user engine (orElse catalog engine.defaultCatalog) schema := by
      simp [getSchemasAccessibleByUser, whole, member, mem_accessibleSchemas]
    refine ⟨fun accepted => ?_, fun shown => ?_⟩
    · exact listed.mpr (found_of_granted settings grants tables user engine catalog schema
        schemas member names (check.mp accepted))
    · exact (entitled_of_found settings grants tables user engine _ schema schemas member names
        (listed.mp shown)).imp check.mpr id

end Agreement

def schemaGrants : Grants where
  roles := [⟨1, "Analyst"⟩]
  userRoles := [(1, 1)]
  rolePermissions := [(1, schemaAccess, "[db].[a.b]"), (1, schemaAccess, "[db].[s]")]

/-- The schema `a.b` is open and not listed; with a default catalog `s` is listed and not open. -/
theorem schemas_disagree :
    ¬SchemasAgree {} schemaGrants [] (authenticate {} schemaGrants (.ordinary 1 (by decide)))
        ⟨⟨1, "db"⟩, none, fun _ => none⟩ none ["a.b"] ∧
      ¬SchemasAgree {} schemaGrants [] (authenticate {} schemaGrants (.ordinary 1 (by decide)))
        ⟨⟨1, "db"⟩, some "c", fun _ => none⟩ none ["s"] := by
  constructor
  · intro agree
    have listed := (agree "a.b" (by decide)).1 (by decide)
    revert listed
    decide
  · intro agree
    rcases (agree "s" (by decide)).2 (by decide) with accepted | ⟨_, stored, _⟩
    · revert accepted
      decide
    · exact absurd stored (List.not_mem_nil)

/-- The role holds a schema of the default catalog and a dataset of the default schema. -/
def namedGrants : Grants where
  roles := [⟨1, "Analyst"⟩]
  userRoles := [(1, 1)]
  rolePermissions := [(1, schemaAccess, "[db].[c].[s]"), (1, datasourceAccess, "[db].[t](id:1)")]

def publicTable : SqlaTable where
  id := 1
  tableName := "t"
  databaseId := 1
  perm := some "[db].[t](id:1)"

def publicEngine : EngineDatabase := ⟨⟨1, "db"⟩, some "c", fun _ => some "public"⟩

theorem schemasAgree_named :
    SchemasAgree {} namedGrants [publicTable]
      (authenticate {} namedGrants (.ordinary 1 (by decide)))
      publicEngine none ["s", "public", "archive"] := by
  have pairs : userPermissionPairs {} namedGrants
    (authenticate {} namedGrants (.ordinary 1 (by decide))) =
      [(schemaAccess, "[db].[c].[s]"), (datasourceAccess, "[db].[t](id:1)")] := by decide
  refine schemasAgree_of_match {} namedGrants [publicTable] _ _ none _ (.inr ⟨?_, ?_, ?_⟩)
  · intro schema member granted
    rw [pairs]
    rcases List.mem_cons.mp member with rfl | others
    · exact ⟨⟨by decide, by decide, by decide⟩, by decide⟩
    · unfold Granted at granted
      rcases List.mem_pair.mp others with rfl | rfl
      · exact absurd granted (by decide)
      · exact absurd granted (by decide)
  · intro schema member view read parsed
    rw [pairs] at read
    have only : view = "[db].[c].[s]" := by simpa [schemaAccess, datasourceAccess] using read
    rw [only] at parsed ⊢
    have own : schemaOfPerm publicEngine (some "c") "[db].[c].[s]" = some "s" := by decide
    cases own.symm.trans parsed
    exact ⟨by decide, by decide⟩
  · intro schema member table inferred
    cases List.mem_singleton.mp inferred.1
    refine ⟨by decide, fun perm column => ?_⟩
    cases column
    decide

end Liteset.Security.Access
