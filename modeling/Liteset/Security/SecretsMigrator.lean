import Mathlib.Data.List.Forall2
import Mathlib.Data.List.Nodup

/-!
# Changing the secret key

`SecretsMigrator` of `utils/encrypt.py`.  The rows of each table are fetched and updated
one after another in one transaction; a row is read with the previous key, and where that
fails with the new one, column by column.  The migrator is the one that the command line
constructs: its new key is the key of the settings, which the column types use as well.
-/

set_option autoImplicit false

namespace Liteset.Security.SecretsMigrator

open List

/-- The engine of `EncryptedType`: the right key undoes encryption, a wrong one raises. -/
structure Engine (Key Plain Text : Type) where
  encrypt : Key → Plain → Text
  decrypt : Key → Text → Except String Plain
  right : ∀ key plain, decrypt key (encrypt key plain) = .ok plain
  wrong : ∀ key other plain, key ≠ other →
    ∃ message, decrypt other (encrypt key plain) = .error message

structure Row (Text : Type) where
  id : Nat
  values : String → Option Text

structure Table (Text : Type) where
  name : String
  columns : List String
  rows : List (Row Text)

section Migration

variable {Key Plain Text : Type} (engine : Engine Key Plain Text) (previous new : Key)

/-- The loop over the columns: the values to set, `none` when the row is left as it is. -/
def reEncryptColumns (tableName : String) (row : Row Text) :
    List String → Except String (Option (List (String × Option Text)))
  | [] => .ok (some [])
  | column :: rest =>
    match row.values column with
    | none => (reEncryptColumns tableName row rest).map (Option.map ((column, none) :: ·))
    | some text =>
      match engine.decrypt previous text with
      | .ok plain =>
        (reEncryptColumns tableName row rest).map
          (Option.map ((column, some (engine.encrypt new plain)) :: ·))
      | .error _ =>
        match engine.decrypt new text with
        -- "Current secret is able to decrypt value", and the method returns
        | .ok _ => .ok none
        | .error message =>
          .error ("Failed to decrypt " ++ tableName ++ "." ++ column ++ ": " ++ message)

def Row.set (row : Row Text) (updates : List (String × Option Text)) : Row Text :=
  { row with values := fun column => (updates.lookup column).getD (row.values column) }

/-- `UPDATE … SET … WHERE id = :id` -/
def executeUpdate (id : Nat) (updates : List (String × Option Text)) (rows : List (Row Text)) :
    List (Row Text) :=
  rows.map fun row => if row.id = id then row.set updates else row

def reEncryptRows (table : Table Text) : List (Row Text) → List (Row Text) →
    Except String (List (Row Text))
  | [], rows => .ok rows
  | row :: fetched, rows =>
    match reEncryptColumns engine previous new table.name row table.columns with
    | .error message => .error message
    | .ok none => reEncryptRows table fetched rows
    | .ok (some updates) => reEncryptRows table fetched (executeUpdate row.id updates rows)

def reEncryptTables : List (Table Text) → Except String (List (Table Text))
  | [] => .ok []
  | table :: rest =>
    match reEncryptRows engine previous new table table.rows table.rows with
    | .error message => .error message
    | .ok rows => (reEncryptTables rest).map ({ table with rows } :: ·)

/-- How `run` ends, and the tables after the commit or the rollback. -/
def run (tables : List (Table Text)) : Except String Unit × List (Table Text) :=
  match reEncryptTables engine previous new tables with
  | .ok changed => (.ok (), changed)
  | .error message => (.error message, tables)

end Migration

section Properties

variable {Key Plain Text : Type} (engine : Engine Key Plain Text) (previous new : Key)

def Hides (text : Text) (plain : Plain) : Prop :=
  text = engine.encrypt previous plain ∨ text = engine.encrypt new plain

/-- The tables that the claim is about: ids are primary keys and every value is encrypted. -/
structure Encrypted (tables : List (Table Text)) : Prop where
  keys : ∀ table ∈ tables, (table.rows.map Row.id).Nodup
  values : ∀ table ∈ tables,
    ∀ row ∈ table.rows, ∀ column ∈ table.columns, ∀ text, row.values column = some text →
    ∃ plain, Hides engine previous new text plain

def Renewed : Option Text → Option Text → Prop
  | none, none => True
  | some before, some after =>
    ∃ plain, Hides engine previous new before plain ∧ after = engine.encrypt new plain
  | _, _ => False

def SamePlain : Option Text → Option Text → Prop
  | none, none => True
  | some before, some after =>
    ∃ plain, Hides engine previous new before plain ∧ Hides engine previous new after plain
  | _, _ => False

def Throughout (related : Option Text → Option Text → Prop) : List (Table Text) →
    List (Table Text) → Prop :=
  List.Forall₂ fun before after => after.name = before.name ∧ after.columns = before.columns ∧
    List.Forall₂ (fun (row changed : Row Text) => changed.id = row.id ∧
      ∀ column ∈ before.columns,
        related (row.values column) (changed.values column)) before.rows after.rows

structure Changed (tables : List (Table Text)) : Prop where
  atomic : ∀ message, (run engine previous new tables).1 = .error message →
    (run engine previous new tables).2 = tables
  ends : (run engine previous new tables).1 = .ok ()
  renewed : Throughout (Renewed engine previous new) tables (run engine previous new tables).2
  repeatable : Throughout (SamePlain engine previous new) (run engine previous new tables).2
    (run engine previous new (run engine previous new tables).2).2

/-- The row has a value that the previous key decrypts and one that it does not decrypt. -/
def Mixed (columns : List String) (row : Row Text) : Prop :=
  ∃ column ∈ columns,
    ∃ other ∈ columns, ∃ text more, row.values column = some text ∧ row.values other = some more ∧
    (∃ plain, engine.decrypt previous text = .ok plain) ∧ ∃ message,
      engine.decrypt previous more = .error message

end Properties

section Rows

variable {Key Plain Text : Type} (engine : Engine Key Plain Text) (previous new : Key)

def opens (text : Text) : Bool := (engine.decrypt previous text).isOk

def fresh (text : Text) : Text :=
  match engine.decrypt previous text with
  | .ok plain => engine.encrypt new plain
  | .error _ => text

def rowOpens (columns : List String) (row : Row Text) : Bool :=
  columns.all fun column => (row.values column).all (opens engine previous)

def migratedRow (columns : List String) (row : Row Text) : Row Text :=
  if rowOpens engine previous columns row then
    { row with values := fun column =>
        if column ∈ columns then (row.values column).map (fresh engine previous new)
          else row.values column }
  else row

def migratedTable (table : Table Text) : Table Text :=
  { table with rows := table.rows.map (migratedRow engine previous new table.columns) }

variable {engine previous new}

theorem opens_iff (text : Text) : opens engine previous text = true ↔
    ∃ plain, engine.decrypt previous text = .ok plain := by
  rw [opens]
  cases engine.decrypt previous text with
  | ok plain => exact iff_of_true rfl ⟨plain, rfl⟩
  | error message => exact iff_of_false Bool.false_ne_true nofun

theorem not_opens_iff (text : Text) :
    opens engine previous text = false ↔
    ∃ message, engine.decrypt previous text = .error message := by
  rw [opens]
  cases engine.decrypt previous text with
  | ok plain => exact iff_of_false (fun same => Bool.false_ne_true same.symm) nofun
  | error message => exact iff_of_true rfl ⟨message, rfl⟩

theorem lookup_map (columns : List String) (value : String → Option Text) (column : String) :
    (columns.map fun name => (name, value name)).lookup column = if column ∈ columns
    then some (value column) else none := by
  induction columns with
  | nil => rfl
  | cons name rest ih =>
    rw [map_cons, lookup_cons, ih]
    by_cases same : column = name
    · subst same
      simp
    · have unequal : (column == name) = false := beq_false_of_ne same
      simp only [unequal, mem_cons, same, false_or]

theorem reEncryptColumns_of_opens (tableName : String) (row : Row Text) (columns : List String)
    (opened : rowOpens engine previous columns row = true) :
    reEncryptColumns engine previous new tableName row columns =
      .ok (some (columns.map fun column =>
        (column, (row.values column).map (fresh engine previous new)))) := by
  induction columns with
  | nil => rfl
  | cons column rest ih =>
    rw [rowOpens, all_cons, Bool.and_eq_true] at opened
    rw [reEncryptColumns, ih opened.2, map_cons]
    cases value : row.values column with
    | none => rfl
    | some text =>
      rw [value, Option.all_some] at opened
      obtain ⟨plain, decrypted⟩ := (opens_iff text).mp opened.1
      simp only [decrypted, Option.map_some, fresh]
      rfl

/-- A value that the previous key does not decrypt is under the new key, and the row is left. -/
theorem reEncryptColumns_of_closed (tableName : String) (row : Row Text) (columns : List String)
    (encrypted : ∀ column ∈ columns, ∀ text, row.values column = some text →
      ∃ plain, Hides engine previous new text plain)
    (closed : rowOpens engine previous columns row = false) :
    reEncryptColumns engine previous new tableName row columns = .ok none := by
  induction columns with
  | nil => cases closed
  | cons column rest ih =>
    rw [rowOpens, all_cons, Bool.and_eq_false_iff] at closed
    have later := ih fun name member => encrypted name (mem_cons_of_mem column member)
    rw [reEncryptColumns]
    cases value : row.values column with
    | none =>
      rw [value, Option.all_none] at closed
      rw [later (closed.resolve_left Bool.noConfusion)]
      rfl
    | some text =>
      rw [value, Option.all_some] at closed
      cases decrypted : engine.decrypt previous text with
      | ok plain =>
        have opened : opens engine previous text = true := (opens_iff text).mpr ⟨plain, decrypted⟩
        simp only [decrypted, later (closed.resolve_left (by rw [opened]; exact Bool.noConfusion))]
        rfl
      | error message =>
        obtain ⟨plain, hidden | hidden⟩ := encrypted column mem_cons_self text value
        · rw [hidden, engine.right] at decrypted
          cases decrypted
        · subst hidden
          simp only [decrypted, engine.right]

theorem set_of_opens (row : Row Text) (columns : List String)
    (opened : rowOpens engine previous columns row = true) :
    row.set (columns.map fun column =>
      (column, (row.values column).map (fresh engine previous new))) =
      migratedRow engine previous new columns row := by
  rw [migratedRow, if_pos opened, Row.set]
  congr 1
  funext column
  rw [lookup_map]
  by_cases listed : column ∈ columns
  · rw [if_pos listed, if_pos listed, Option.getD_some]
  · rw [if_neg listed, if_neg listed, Option.getD_none]

theorem migratedRow_id (columns : List String) (row : Row Text) :
    (migratedRow engine previous new columns row).id = row.id := by
  rw [migratedRow]
  split <;> rfl

theorem executeUpdate_of_absent (rows : List (Row Text)) (id : Nat)
    (updates : List (String × Option Text))
    (absent : id ∉ rows.map Row.id) : executeUpdate id updates rows = rows := by
  induction rows with
  | nil => rfl
  | cons row rows ih =>
    rw [map_cons, mem_cons, not_or] at absent
    rw [executeUpdate, map_cons, if_neg fun same => absent.1 same.symm]
    exact congrArg (row :: ·) (ih absent.2)

theorem executeUpdate_of_unique (before after : List (Row Text)) (row : Row Text)
    (updates : List (String × Option Text))
    (unique : ((before ++ row :: after).map Row.id).Nodup) :
    executeUpdate row.id updates (before ++ row :: after) = before ++ row.set updates :: after := by
  rw [map_append, map_cons, nodup_middle, nodup_cons, mem_append, not_or] at unique
  have split : executeUpdate row.id updates (before ++ row :: after) =
      executeUpdate row.id updates before ++ row.set updates :: executeUpdate row.id updates
        after := by
    simp [executeUpdate]
  rw [split, executeUpdate_of_absent before row.id updates unique.1.1,
    executeUpdate_of_absent after row.id updates unique.1.2]

theorem reEncryptRows_eq (table : Table Text) (fetched : List (Row Text)) (done : List (Row Text))
    (unique : ((done ++ fetched).map Row.id).Nodup)
    (encrypted : ∀ row ∈ fetched, ∀ column ∈ table.columns, ∀ text, row.values column = some text →
      ∃ plain, Hides engine previous new text plain) :
    reEncryptRows engine previous new table fetched (done ++ fetched) =
      .ok (done ++ fetched.map (migratedRow engine previous new table.columns)) := by
  induction fetched generalizing done with
  | nil => rfl
  | cons row rest ih =>
    have rows : reEncryptRows engine previous new table (row :: rest) (done ++ row :: rest) =
        reEncryptRows engine previous new table rest
          ((done ++ [migratedRow engine previous new table.columns row]) ++ rest) := by
      rw [reEncryptRows]
      cases opened : rowOpens engine previous table.columns row with
      | true =>
        simp only [reEncryptColumns_of_opens table.name row table.columns opened,
          executeUpdate_of_unique done rest row _ unique, set_of_opens row table.columns opened,
          append_assoc, singleton_append]
      | false =>
        have left : migratedRow engine previous new table.columns row = row := by
          rw [migratedRow, opened, if_neg Bool.false_ne_true]
        simp only [reEncryptColumns_of_closed table.name row table.columns
          (encrypted row mem_cons_self) opened, left, append_assoc, singleton_append]
    rw [rows, ih (done ++ [migratedRow engine previous new table.columns row])]
    · simp
    · simpa [migratedRow_id] using unique
    · exact fun other member => encrypted other (mem_cons_of_mem row member)

theorem reEncryptTables_eq (tables : List (Table Text))
    (encrypted : Encrypted engine previous new tables) :
    reEncryptTables engine previous new tables =
      .ok (tables.map (migratedTable engine previous new)) := by
  induction tables with
  | nil => rfl
  | cons table rest ih =>
    have later := ih ⟨fun other member => encrypted.keys other (mem_cons_of_mem table member),
      fun other member => encrypted.values other (mem_cons_of_mem table member)⟩
    have rows : reEncryptRows engine previous new table table.rows table.rows =
        .ok (table.rows.map (migratedRow engine previous new table.columns)) :=
      reEncryptRows_eq table table.rows [] (encrypted.keys table mem_cons_self)
        (encrypted.values table mem_cons_self)
    rw [reEncryptTables, rows, later]
    rfl

theorem run_eq (tables : List (Table Text)) (encrypted : Encrypted engine previous new tables) :
    run engine previous new tables = (.ok (), tables.map (migratedTable engine previous new)) := by
  rw [run, reEncryptTables_eq tables encrypted]

end Rows

section Completeness

variable {Key Plain Text : Type} {engine : Engine Key Plain Text} {previous new : Key}

theorem run_atomic (tables : List (Table Text)) (message : String)
    (raised : (run engine previous new tables).1 = .error message) :
    (run engine previous new tables).2 = tables := by
  rw [run] at raised ⊢
  cases outcome : reEncryptTables engine previous new tables with
  | ok changed => rw [outcome] at raised; cases raised
  | error text => rfl

/-- Of a value under one of the keys: what the previous key does not decrypt is under
the new one. -/
theorem eq_encrypt_of_closed {text : Text} {plain : Plain}
    (hidden : Hides engine previous new text plain)
    (closed : opens engine previous text = false) : text = engine.encrypt new plain := by
  rcases hidden with rfl | rfl
  · obtain ⟨message, failed⟩ := (not_opens_iff _).mp closed
    rw [engine.right] at failed
    cases failed
  · rfl

theorem keys_eq_of_opens (plain : Plain)
    (opened : opens engine previous (engine.encrypt new plain) = true) :
    new = previous := by
  by_contra different
  obtain ⟨message, failed⟩ := engine.wrong new previous plain different
  obtain ⟨other, decrypted⟩ := (opens_iff _).mp opened
  rw [failed] at decrypted
  cases decrypted

theorem fresh_eq {text : Text} {plain : Plain} (hidden : Hides engine previous new text plain)
    (opened : opens engine previous text = true) :
    fresh engine previous new text = engine.encrypt new plain := by
  rcases hidden with rfl | rfl
  · rw [fresh, engine.right]
  · obtain rfl := keys_eq_of_opens plain opened
    rw [fresh, engine.right]

variable {columns : List String} {row : Row Text}

theorem rowOpens_of_not_mixed (unmixed : ¬ Mixed engine previous columns row)
    (closed : rowOpens engine previous columns row = false) :
    ∀ column ∈ columns, ∀ text, row.values column = some text →
    opens engine previous text = false := by
  intro column listed text value
  obtain ⟨other, known, shut⟩ := all_eq_false.mp closed
  cases value' : row.values other with
  | none => rw [value'] at shut; exact absurd rfl shut
  | some more =>
    rw [value', Option.all_some, Bool.not_eq_true] at shut
    cases opened : opens engine previous text with
    | false => rfl
    | true =>
      exact absurd ⟨column, listed, other, known, text, more, value, value',
        (opens_iff text).mp opened, (not_opens_iff more).mp shut⟩ unmixed

theorem renewed_row (unmixed : ¬ Mixed engine previous columns row)
    (encrypted : ∀ column ∈ columns, ∀ text, row.values column = some text →
      ∃ plain, Hides engine previous new text plain) :
    ∀ column ∈ columns, Renewed engine previous new (row.values column)
      ((migratedRow engine previous new columns row).values column) := by
  intro column listed
  rw [migratedRow]
  cases opened : rowOpens engine previous columns row with
  | true =>
    rw [if_pos rfl]
    dsimp only
    rw [if_pos listed]
    cases value : row.values column with
    | none => trivial
    | some text =>
      have decrypts := all_eq_true.mp opened column listed
      rw [value, Option.all_some] at decrypts
      obtain ⟨plain, hidden⟩ := encrypted column listed text value
      exact ⟨plain, hidden, fresh_eq hidden decrypts⟩
  | false =>
    rw [if_neg Bool.false_ne_true]
    cases value : row.values column with
    | none => trivial
    | some text =>
      obtain ⟨plain, hidden⟩ := encrypted column listed text value
      exact ⟨plain, hidden,
        eq_encrypt_of_closed hidden (rowOpens_of_not_mixed unmixed opened column listed text value)⟩

theorem not_renewed_of_mixed (mixed : Mixed engine previous columns row)
    (encrypted : ∀ column ∈ columns, ∀ text, row.values column = some text →
      ∃ plain, Hides engine previous new text plain) :
    ¬ ∀ column ∈ columns, Renewed engine previous new (row.values column)
      ((migratedRow engine previous new columns row).values column) := by
  obtain ⟨column, listed, other, known, text, more, value, value', opened, shut⟩ := mixed
  have closedMore := (not_opens_iff more).mpr shut
  have closed : rowOpens engine previous columns row = false :=
    all_eq_false.mpr ⟨other, known,
      by rw [value', Option.all_some, closedMore]; exact Bool.false_ne_true⟩
  intro renewed
  have kept := renewed column listed
  rw [migratedRow, closed, if_neg Bool.false_ne_true, value] at kept
  obtain ⟨plain, _, under⟩ := kept
  rw [under] at opened
  have same := keys_eq_of_opens plain ((opens_iff _).mpr opened)
  obtain ⟨hidden, second | second⟩ := encrypted other known more value'
  · rw [opens, second, engine.right] at closedMore
    cases closedMore
  · rw [opens, second, same, engine.right] at closedMore
    cases closedMore

theorem samePlain_of_renewed {before after : Option Text}
    (renewed : Renewed engine previous new before after) :
    SamePlain engine previous new before after := by
  cases before <;> cases after <;> try exact renewed
  obtain ⟨plain, hidden, under⟩ := renewed
  exact ⟨plain, hidden, .inr under⟩

theorem throughout_migrated_iff (related : Option Text → Option Text → Prop)
    (tables : List (Table Text)) :
    Throughout related tables (tables.map (migratedTable engine previous new)) ↔
      ∀ table ∈ tables, ∀ row ∈ table.rows, ∀ column ∈ table.columns,
        related (row.values column)
          ((migratedRow engine previous new table.columns row).values column) := by
  rw [Throughout, forall₂_map_right_iff, forall₂_same]
  refine forall₂_congr fun table _ => ?_
  simp only [migratedTable, true_and, forall₂_map_right_iff, forall₂_same, migratedRow_id]

theorem encrypted_migrated {tables : List (Table Text)}
    (encrypted : Encrypted engine previous new tables)
    (unmixed : ∀ table ∈ tables, ∀ row ∈ table.rows, ¬ Mixed engine previous table.columns row) :
    ∀ table ∈ tables.map (migratedTable engine previous new),
      ∀ row ∈ table.rows, ∀ column ∈ table.columns, ∀ text,
      row.values column = some text → ∃ plain, text = engine.encrypt new plain := by
  intro changed member row' rowMember column listed text value
  obtain ⟨table, inside, rfl⟩ := mem_map.mp member
  obtain ⟨row, rowInside, rfl⟩ := mem_map.mp rowMember
  have renewed :=
    renewed_row (unmixed table inside row rowInside) (encrypted.values table inside row rowInside)
      column listed
  rw [value] at renewed
  cases before : row.values column with
  | none => rw [before] at renewed; exact renewed.elim
  | some earlier =>
    rw [before] at renewed
    obtain ⟨plain, _, under⟩ := renewed
    exact ⟨plain, under⟩

theorem not_mixed_of_new
    (under : ∀ column ∈ columns, ∀ text, row.values column = some text →
      ∃ plain, text = engine.encrypt new plain) :
    ¬ Mixed engine previous columns row := by
  rintro ⟨column, listed, other, known, text, more, value, value', ⟨decrypted, opened⟩,
    message, shut⟩
  obtain ⟨plain, rfl⟩ := under column listed text value
  obtain ⟨hidden, rfl⟩ := under other known more value'
  obtain rfl := keys_eq_of_opens plain ((opens_iff _).mpr ⟨decrypted, opened⟩)
  rw [engine.right] at shut
  cases shut

/-- The key is changed completely, and the run can be repeated, exactly when no row holds a
value under each key. -/
theorem changed_iff (tables : List (Table Text))
    (encrypted : Encrypted engine previous new tables) :
    Changed engine previous new tables ↔
      ∀ table ∈ tables, ∀ row ∈ table.rows, ¬ Mixed engine previous table.columns row := by
  have ran := run_eq tables encrypted
  constructor
  · intro changed table inside row rowInside mixed
    have renewed := changed.renewed
    rw [ran, throughout_migrated_iff] at renewed
    exact not_renewed_of_mixed mixed (encrypted.values table inside row rowInside)
      (renewed table inside row rowInside)
  · intro unmixed
    have renewed := encrypted_migrated encrypted unmixed
    have again : Encrypted engine previous new
        (tables.map (migratedTable engine previous new)) := by
      refine ⟨?_, fun table inside row rowInside column listed text value =>
        (renewed table inside row rowInside column listed text value).imp fun _ => .inr⟩
      intro changed member
      obtain ⟨table, inside, rfl⟩ := mem_map.mp member
      simpa [migratedTable, Function.comp_def, migratedRow_id] using encrypted.keys table inside
    refine ⟨run_atomic tables, by rw [ran], ?_, ?_⟩
    · rw [ran, throughout_migrated_iff]
      exact fun table inside row rowInside =>
        renewed_row (unmixed table inside row rowInside)
          (encrypted.values table inside row rowInside)
    · rw [ran, run_eq _ again, throughout_migrated_iff]
      intro table inside row rowInside column listed
      refine samePlain_of_renewed
        (renewed_row ?_ (again.values table inside row rowInside) column listed)
      exact not_mixed_of_new (renewed table inside row rowInside)

end Completeness

def labelled : Engine String String (String × String) where
  encrypt key plain := (key, plain)
  decrypt key text := if text.1 = key then .ok text.2 else .error "Invalid decryption key"
  right _ _ := if_pos rfl
  wrong _ _ _ different := ⟨_, if_neg different⟩

/-- The row of a database, with the keys of its password and of its `encrypted_extra`. -/
def database (id : Nat) (passwordKey extraKey : Option String) : Row (String × String) where
  id := id
  values column :=
    if column = "password" then passwordKey.map (·, "secret")
    else if column = "encrypted_extra" then extraKey.map (·, "extra")
    else none

def dbs (rows : List (Row (String × String))) : Table (String × String) where
  name := "dbs"
  columns := ["password", "encrypted_extra"]
  rows := rows

theorem key_of_database {id : Nat} {passwordKey extraKey : Option String} {column : String}
    {text : String × String}
    (value : (database id passwordKey extraKey).values column = some text) :
    passwordKey = some text.1 ∨ extraKey = some text.1 := by
  unfold database at value
  dsimp only at value
  by_cases password : column = "password"
  · rw [if_pos password] at value
    obtain ⟨key, held, rfl⟩ := Option.map_eq_some_iff.mp value
    exact .inl held
  · rw [if_neg password] at value
    obtain ⟨key, held, rfl⟩ := Option.map_eq_some_iff.mp (Option.ite_none_right_eq_some.mp value).2
    exact .inr held

theorem encrypted_dbs (rows : List (Row (String × String))) (ids : (rows.map Row.id).Nodup)
    (keys : ∀ row ∈ rows, ∃ passwordKey extraKey, row = database row.id passwordKey extraKey ∧
      ∀ key, passwordKey = some key ∨ extraKey = some key → key = "old" ∨ key = "new") :
    Encrypted labelled "old" "new" [dbs rows] where
  keys table member := by rwa [mem_singleton.mp member]
  values table member row rowMember column _ text value := by
    obtain rfl := mem_singleton.mp member
    obtain ⟨passwordKey, extraKey, isRow, known⟩ := keys row rowMember
    rw [isRow] at value
    exact ⟨text.2,
      (known text.1 (key_of_database value)).imp (congrArg (·, text.2)) (congrArg (·, text.2))⟩

theorem not_mixed_database {id : Nat} {passwordKey extraKey : Option String} {columns : List String}
    (one : ∀ key other, passwordKey = some key ∨ extraKey = some key → passwordKey = some other ∨
      extraKey = some other →
      key = other) : ¬Mixed labelled "old" columns (database id passwordKey extraKey) := by
  rintro ⟨column, _, other, _, text, more, value, also, ⟨plain, opened⟩, message, shut⟩
  have same := one text.1 more.1 (key_of_database value) (key_of_database also)
  by_cases old : more.1 = "old"
  · simp [labelled, old] at shut
  · simp [labelled, same, old] at opened

/-- A migration that has been run on one row before, and columns without a value. -/
def halfDone : List (Row (String × String)) :=
  [database 1 (some "old") (some "old"), database 2 (some "new") (some "new"),
    database 3 none (some "old"), database 4 (some "new") none]

theorem changed_halfDone : Changed labelled "old" "new" [dbs halfDone] := by
  have encrypted : Encrypted labelled "old" "new" [dbs halfDone] := by
    refine encrypted_dbs halfDone (by decide) ?_
    simp only [halfDone, forall_mem_cons, not_mem_nil, false_imp_iff, implies_true, and_true]
    exact ⟨⟨_, _, rfl, by simp⟩, ⟨_, _, rfl, by simp⟩, ⟨_, _, rfl, by simp⟩, ⟨_, _, rfl, by simp⟩⟩
  refine (changed_iff [dbs halfDone] encrypted).mpr fun table member => ?_
  obtain rfl := mem_singleton.mp member
  simp only [dbs, halfDone, forall_mem_cons, not_mem_nil, false_imp_iff, implies_true, and_true]
  exact ⟨not_mixed_database (by simp), not_mixed_database (by simp), not_mixed_database (by simp),
    not_mixed_database (by simp)⟩

/-- The password has been stored under the new key before the migration is run: the other
column stays under the old one. -/
theorem mixed_row_is_left :
    ¬ ∀ tables : List (Table (String × String)), Encrypted labelled "old" "new" tables →
      Changed labelled "old" "new" tables := by
  intro changed
  have encrypted : Encrypted labelled "old" "new" [dbs [database 1 (some "new") (some "old")]] :=
    encrypted_dbs _ (by decide) fun row member => by
      obtain rfl := mem_singleton.mp member
      refine ⟨some "new", some "old", rfl, fun key held => ?_⟩
      simpa [eq_comm, or_comm] using held
  have renewed := (changed _ encrypted).renewed
  rw [run_eq _ encrypted, throughout_migrated_iff] at renewed
  refine not_renewed_of_mixed ?_ (encrypted.values _ mem_cons_self _ mem_cons_self)
    (renewed _ mem_cons_self _ mem_cons_self)
  exact ⟨"encrypted_extra", by decide, "password", by decide, ("old", "extra"), ("new", "secret"),
    by decide, by decide, ⟨"extra", rfl⟩, _, rfl⟩

end Liteset.Security.SecretsMigrator
