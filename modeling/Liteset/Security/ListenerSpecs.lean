import Liteset.Security.Listeners
import Liteset.Security.PermissionSyncRuns

/-!
# What the listeners do to names and permission views

The strings of a database all start with `[name].`; which of another database's
strings start that way is a matter of the two names alone.  `_ensure_pvm` adds,
the two `UPDATE` statements of a rename move names by one function, and the
deletions remove the rows they select.
-/

set_option autoImplicit false

namespace Liteset.Security.Listeners

open Metadata Sync List

/-- Every string of the database `name`. -/
def dotted (name rest : String) : String := "[" ++ name ++ "]." ++ rest

def Rest (rest : String) : Prop := (∃ inner, rest = "[" ++ inner) ∨ ']' ∉ rest.toList

theorem bracketed_dotted (name inner : String) :
    bracketed name inner = dotted name ("[" ++ inner ++ "]") := by
  rw [← String.toList_inj]
  simp [bracketed, dotted]

theorem getDatabasePerm_dotted (id : Nat) (name : String) :
    getDatabasePerm id name = dotted name ("(id:" ++ toString id ++ ")") := by
  rw [← String.toList_inj]
  simp [getDatabasePerm, dotted]

theorem getDatasetPerm_dotted (id : Nat) (table name : String) :
    getDatasetPerm id table name = dotted name ("[" ++ table ++ "](id:" ++ toString id ++ ")") := by
  rw [← String.toList_inj]
  simp [getDatasetPerm, dotted]

theorem close_notMem_repr (n : Nat) : ']' ∉ n.repr.toList := by
  rw [Nat.toList_repr]
  intro member
  have digit := Nat.isDigit_of_mem_toDigits (by omega) (by omega) member
  revert digit
  decide

/-- How a string of one database can start with `[name].` for another name. -/
theorem startsWith_cases {name other rest : String}
    (starts : StartsWith ("[" ++ name ++ "].") (dotted other rest)) :
    name = other ∨ Extends name other ∨
      ∃ x tail, name.toList = other.toList ++ ']' :: '.' :: x ∧
      rest.toList = x ++ ']' :: '.' :: tail := by
  obtain ⟨tail, split⟩ := starts
  have chars : name.toList ++ (']' :: '.' :: tail) = other.toList ++
      (']' :: '.' :: rest.toList) := by
    simpa [dotted] using split
  rcases List.append_eq_append_iff.mp chars with ⟨x, isOther, facing⟩ | ⟨x, isName, facing⟩
  · -- the other name is the longer one: what it adds faces `].`
    match x with
    | [] =>
      left
      rw [← String.toList_inj, isOther, List.append_nil]
    | [c] => simp at facing
    | c :: d :: x =>
      obtain ⟨rfl, rfl⟩ : c = ']' ∧ d = '.' := by
        simp at facing
        exact ⟨facing.1.symm, facing.2.1.symm⟩
      refine Or.inr (Or.inl ⟨x, ?_⟩)
      rw [isOther]
      simp
  · match x with
    | [] =>
      left
      rw [← String.toList_inj, isName, List.append_nil]
    | [c] => simp at facing
    | c :: d :: x =>
      obtain ⟨rfl, rfl, inRest⟩ : c = ']' ∧ d = '.' ∧ rest.toList = x ++ ']' :: '.' :: tail := by
        simp at facing
        exact ⟨facing.1.symm, facing.2.1.symm, facing.2.2⟩
      exact Or.inr (Or.inr ⟨x, tail, isName, inRest⟩)

theorem startsWith_dotted {name other rest : String} (shape : Rest rest)
    (starts : StartsWith ("[" ++ name ++ "].") (dotted other rest)) :
    name = other ∨ Extends name other ∨ Continues other name := by
  rcases startsWith_cases starts with same | longer | ⟨x, tail, isName, inRest⟩
  · exact .inl same
  · exact .inr (.inl longer)
  · rcases shape with ⟨inner, rfl⟩ | none
    · match x with
      | [] => simp at inRest
      | e :: x =>
        obtain rfl : e = '[' := by
          simp at inRest
          exact inRest.1.symm
        refine .inr (.inr ⟨x, ?_⟩)
        rw [isName]
        simp
    · exact absurd (by rw [inRest]; simp) none

theorem rest_bracketed (inner : String) : Rest ("[" ++ inner ++ "]") :=
  .inl ⟨inner ++ "]", by rw [String.append_assoc]⟩

theorem rest_datasetPerm (table : String) (id : Nat) :
    Rest ("[" ++ table ++ "](id:" ++ toString id ++ ")") :=
  .inl ⟨table ++ "](id:" ++ toString id ++ ")", by simp [String.append_assoc]⟩

theorem close_notMem_databasePerm (id : Nat) : ']' ∉ ("(id:" ++ toString id ++ ")").toList := by
  intro member
  simp only [String.toList_append, List.mem_append] at member
  have digits := close_notMem_repr id
  simp at member
  exact digits (by simpa using member)

theorem rest_databasePerm (id : Nat) : Rest ("(id:" ++ toString id ++ ")") :=
  .inr (close_notMem_databasePerm id)

theorem startsWith_databasePerm {id : Nat} {name other : String}
    (starts : StartsWith ("[" ++ name ++ "].") (getDatabasePerm id other)) :
    name = other ∨ Extends name other := by
  rw [getDatabasePerm_dotted] at starts
  rcases startsWith_cases starts with same | longer | ⟨x, tail, -, inRest⟩
  · exact .inl same
  · exact .inr longer
  · exact absurd (by rw [inRest]; simp) (close_notMem_databasePerm id)

theorem startsWith_own (name rest : String) : StartsWith ("[" ++ name ++ "].") (dotted name rest) :=
  ⟨rest.toList, by simp [dotted]⟩

theorem replaceStart_dotted (oldName newName rest : String) :
    replaceStart ("[" ++ oldName ++ "].") ("[" ++ newName ++ "].") (dotted oldName rest) =
      dotted newName rest := by
  rw [replaceStart, if_pos (startsWith_own oldName rest), ← String.toList_inj]
  simp [dotted]

theorem replaceStart_other {start new text : String} (other : ¬ StartsWith start text) :
    replaceStart start new text = text :=
  if_neg other

variable {md : Metadata}

/-- On well-formed tables `_ensure_pvm` does what `add_permission_view_menu` does. -/
theorem ensurePvm_eq (wf : md.WellFormed) (permission view : String)
    (nonempty : view ≠ "") :
    ensurePvm md permission view = (md.addPermissionViewMenu permission (some view)).1 := by
  simp only [addPermissionViewMenu, if_neg nonempty]
  obtain ⟨wf₁, inPermissions, pName, permissions, menus₁, views₁, -, -⟩ :=
    findOrCreatePermission_spec wf permission
  obtain ⟨wf₂, inMenus, vmName, -, menus, permissions₂, views₂, -, -⟩ :=
    findOrCreateViewMenu_spec wf₁ view
  cases found : md.findPermissionViewMenu permission view with
  | some pv =>
    obtain ⟨member, ⟨p, inP, pId, named⟩, vm, inVm, vmId, viewName⟩ :=
      findPermissionViewMenu_eq_some found
    have foundP : md.findOrCreatePermission permission = (md, p) := by
      unfold findOrCreatePermission
      cases hit : md.findPermission permission with
      | none => exact absurd named (findPermission_eq_none.mp hit p inP)
      | some q =>
        obtain ⟨inQ, qName⟩ := findPermission_eq_some hit
        rw [wf.permission_eq_of_name inQ inP (qName.trans named.symm)]
    have foundVm : md.findOrCreateViewMenu view = (md, vm) := by
      unfold findOrCreateViewMenu
      cases hit : md.findViewMenu view with
      | none => exact absurd viewName (findViewMenu_eq_none.mp hit vm inVm)
      | some q =>
        obtain ⟨inQ, qName⟩ := findViewMenu_eq_some hit
        rw [wf.viewMenu_eq_of_name inQ inVm (qName.trans viewName.symm)]
    have there : (md.permissionViews.any fun pv =>
        pv.permissionId = p.id && pv.viewMenuId = vm.id) = true := by
      rw [any_eq_true]
      exact ⟨pv, member, by simp [pId, vmId]⟩
    simp only [ensurePvm, ensurePermission, ensureViewMenu, foundP, foundVm, there, if_true]
  | none =>
    have absent := findPermissionViewMenu_none_iff.mp found
    unfold ensurePvm
    refine if_neg ?_
    intro there
    rw [any_eq_true] at there
    obtain ⟨pv, there, same⟩ := there
    simp only [Bool.and_eq_true, decide_eq_true_eq] at same
    have member : pv ∈ ((md.findOrCreatePermission permission).1.findOrCreateViewMenu
      view).1.permissionViews := there
    rw [views₂, views₁] at member
    have joins₂ : Joins _ pv permission view :=
      ⟨⟨_, permissions₂ ▸ inPermissions, same.1.symm, pName⟩, _, inMenus, same.2.symm, vmName⟩
    exact absent ⟨pv, member, (joins_of_grows wf wf₂ (permissions₂ ▸ permissions)
      (menus₁ ▸ menus) member).mp joins₂⟩

theorem ensurePvm_adds (wf : md.WellFormed) (permission view : String)
    (nonempty : view ≠ "") : Adds md (ensurePvm md permission view) [(permission, view)] := by
  rw [ensurePvm_eq wf permission view nonempty]
  exact addPermissionViewMenu_adds_some wf permission view nonempty

section Rename
variable {md md' : Metadata} {rename : String → String}

theorem renameViewMenus_eq (taken : renameViewMenus md rename = some md') :
    md' = { md with viewMenus := md.viewMenus.map fun vm => { vm with name := rename vm.name } } ∧
      (md.viewMenus.map fun vm => rename vm.name).Nodup := by
  simp only [renameViewMenus] at taken
  split at taken
  · rename_i distinct
    rw [map_map] at distinct
    exact ⟨(Option.some.inj taken).symm, distinct⟩
  · cases taken

theorem renameViewMenus_injective (taken : renameViewMenus md rename = some md') {u v : String}
    (namedU : md.Named u) (namedV : md.Named v) (same : rename u = rename v) : u = v := by
  obtain ⟨a, inA, rfl⟩ := namedU
  obtain ⟨b, inB, rfl⟩ := namedV
  rw [inj_on_of_nodup_map (renameViewMenus_eq taken).2 inA inB same]

theorem renameViewMenus_renames (wf : md.WellFormed)
    (taken : renameViewMenus md rename = some md') : Renames md md' rename := by
  obtain ⟨rfl, distinct⟩ := renameViewMenus_eq taken
  have ids : (md.viewMenus.map fun vm => ({ vm with name := rename vm.name } : ViewMenu)).map
      ViewMenu.id = md.viewMenus.map ViewMenu.id := by
    rw [map_map]
    rfl
  have joins : ∀ pv p v, Joins { md with
      viewMenus := md.viewMenus.map fun vm => { vm with name := rename vm.name } } pv p v ↔
        ∃ u, md.Joins pv p u ∧ rename u = v := by
    intro pv p v
    constructor
    · intro joined
      obtain ⟨permission, vm', inNew, sameId, rfl⟩ := joined
      obtain ⟨vm, member, rfl⟩ := mem_map.mp inNew
      exact ⟨vm.name, ⟨permission, vm, member, sameId, rfl⟩, rfl⟩
    · intro joined
      obtain ⟨_, ⟨permission, vm, member, sameId, rfl⟩, rfl⟩ := joined
      exact ⟨permission, _, mem_map_of_mem member, sameId, rfl⟩
  refine ⟨{ wf with
      viewMenuIds := ?_, viewMenuNames := ?_, viewMenuRef := ?_, viewMenuFresh := ?_ },
    ⟨rfl, rfl, rfl⟩, has_of_joins joins rfl, ?_, holds_of_joins joins rfl rfl⟩
  · rw [ids]
    exact wf.viewMenuIds
  · rw [map_map]
    exact distinct
  · intro pv member
    obtain ⟨vm, inMenus, same⟩ := wf.viewMenuRef pv member
    exact ⟨_, mem_map_of_mem inMenus, same⟩
  · intro vm' member
    obtain ⟨vm, inMenus, rfl⟩ := mem_map.mp member
    exact wf.viewMenuFresh vm inMenus
  · intro v
    constructor
    · intro named
      obtain ⟨vm', inNew, rfl⟩ := named
      obtain ⟨vm, member, rfl⟩ := mem_map.mp inNew
      exact ⟨vm.name, ⟨vm, member, rfl⟩, rfl⟩
    · intro named
      obtain ⟨_, ⟨vm, member, rfl⟩, rfl⟩ := named
      exact ⟨_, mem_map_of_mem member, rfl⟩

end Rename

theorem renameViewMenu_renames {md md' : Metadata} {oldName newName : String} (wf : md.WellFormed)
    (taken : renameViewMenu md oldName newName = some md') :
    Renames md md' (renamed oldName newName) :=
  renameViewMenus_renames wf taken

/-- The two `UPDATE` statements on view menus together are the second one alone. -/
theorem databaseAfterUpdate_renames {md md' : Metadata} {id : Nat} {oldName newName : String}
    (wf : md.WellFormed) (differs : oldName ≠ newName) (apart : ¬ Extends oldName newName)
    (taken : databaseAfterUpdate md ⟨id, newName⟩ (some oldName) = some md') :
    ∃ md₁, Renames md md₁ (replaceStart ("[" ++ oldName ++ "].") ("[" ++ newName ++ "].")) ∧
      (∀ u v, md.Named u → md.Named v →
        replaceStart ("[" ++ oldName ++ "].") ("[" ++ newName ++ "].") u =
          replaceStart ("[" ++ oldName ++ "].") ("[" ++ newName ++ "].") v → u = v) ∧
      md' = { md₁ with
        tables := md.tables.map fun t => { t with
          perm := t.perm.map (replaceStart ("[" ++ oldName ++ "].") ("[" ++ newName ++ "].")) }
        slices := md.slices.map fun s => { s with
          perm := s.perm.map
            (replaceStart ("[" ++ oldName ++ "].") ("[" ++ newName ++ "].")) } } := by
  simp only [databaseAfterUpdate, if_neg differs, Option.bind_eq_bind, Option.bind_eq_some_iff,
    Option.some.injEq] at taken
  obtain ⟨md₀, first, md₁, second, result⟩ := taken
  have renames₀ := renameViewMenu_renames wf first
  have renames₁ := renameViewMenus_renames renames₀.wellFormed second
  have whole : replaceStart ("[" ++ oldName ++ "].") ("[" ++ newName ++ "].") ∘
      renamed (getDatabasePerm id oldName) (getDatabasePerm id newName) =
        replaceStart ("[" ++ oldName ++ "].") ("[" ++ newName ++ "].") := by
    funext v
    by_cases hit : v = getDatabasePerm id oldName
    · -- the new name does not start with the old prefix again
      rw [Function.comp, hit, renamed_old, replaceStart_other]
      · rw [getDatabasePerm_dotted id oldName, replaceStart_dotted, getDatabasePerm_dotted]
      · intro starts
        rcases startsWith_databasePerm starts with same | longer
        · exact differs same
        · exact apart longer
    · rw [Function.comp, renamed_other hit]
  have renames := renames₀.comp renames₁
  refine ⟨md₁, whole ▸ renames, ?_, ?_⟩
  · intro u v namedU namedV same
    have moved : ∀ x, md.Named x →
        md₀.Named (renamed (getDatabasePerm id oldName) (getDatabasePerm id newName) x) :=
      fun x namedX => (renames₀.named _).mpr ⟨x, namedX, rfl⟩
    refine renameViewMenus_injective first namedU namedV ?_
    refine renameViewMenus_injective second (moved u namedU) (moved v namedV) ?_
    have atU := congrFun whole u
    have atV := congrFun whole v
    exact atU.trans (same.trans atV.symm)
  · rw [← renames.objects.tables, ← renames.objects.slices]
    exact result.symm

def Used (md : Metadata) : Prop :=
  ∀ vm ∈ md.viewMenus, ∃ pv ∈ md.permissionViews, pv.viewMenuId = vm.id

/-- The permission views with the names `lost` are gone, and with them their grants. -/
structure Removes (md md' : Metadata) (lost : String → String → Prop) : Prop where
  wellFormed : md'.WellFormed
  objects : SameObjects md md'
  used : Used md'
  has : ∀ p v, md'.Has p v ↔ md.Has p v ∧ ¬ lost p v
  named : ∀ v, md'.Named v → md.Named v
  holds : ∀ role p v, md'.Holds role p v ↔ md.Holds role p v ∧ ¬ lost p v

theorem Removes.trans {a b c : Metadata} {first second : String → String → Prop}
    (left : Removes a b first) (right : Removes b c second) :
    Removes a c fun p v => first p v ∨ second p v where
  __ := right
  objects := left.objects.trans right.objects
  has p v := by
    rw [right.has, left.has, not_or, and_assoc]
  named v named := left.named v (right.named v named)
  holds role p v := by
    rw [right.holds, left.holds, not_or, and_assoc]

section Delete
variable (pvms : List PermissionView)

theorem joins_foldl_deletePvm (md : Metadata) {pv : PermissionView} {permission view : String}
    (stays : pv ∈ (pvms.foldl Metadata.deletePvm md).permissionViews) :
    (pvms.foldl Metadata.deletePvm md).Joins pv permission view ↔ md.Joins pv permission view := by
  induction pvms generalizing md with
  | nil => exact Iff.rfl
  | cons d rest ih =>
    rw [foldl_cons] at stays ⊢
    rw [ih (md.deletePvm d) stays]
    exact joins_deletePvm md d ((mem_foldl_deletePvm_permissionViews _ rest pv).mp stays).1

theorem foldl_deletePvm_objects (md : Metadata) :
    SameObjects md (pvms.foldl Metadata.deletePvm md) := by
  induction pvms generalizing md with
  | nil => exact SameObjects.refl md
  | cons d rest ih =>
    have first : SameObjects md (md.deletePvm d) :=
      ⟨(deletePvm_slices md d).2, deletePvm_tables md d, (deletePvm_slices md d).1⟩
    exact first.trans (ih (md.deletePvm d))

theorem used_foldl_deletePvm (md : Metadata) (used : Used md)
    (rows : ∀ d ∈ pvms, ∀ pv ∈ md.permissionViews, pv.id = d.id → pv = d) :
    Used (pvms.foldl Metadata.deletePvm md) := by
  induction pvms generalizing md with
  | nil => exact used
  | cons d rest ih =>
    have kept : ∀ pv ∈ (md.deletePvm d).permissionViews, pv ∈ md.permissionViews := by
      intro pv member
      rw [deletePvm_permissionViews] at member
      exact (mem_filter.mp member).1
    apply ih
    · intro vm member
      obtain ⟨inMenus, either⟩ := (mem_deletePvm_viewMenus md d vm).mp member
      have other : ∃ pv ∈ md.permissionViews, pv.id ≠ d.id ∧ pv.viewMenuId = vm.id := by
        obtain ⟨pv, inViews, same⟩ := used vm inMenus
        by_cases hit : pv.id = d.id
        · rcases either with differs | ⟨pv', inViews', differs, same'⟩
          · rw [rows d mem_cons_self pv inViews hit] at same
            exact absurd same.symm differs
          · rw [rows d mem_cons_self pv inViews hit] at same
            exact ⟨pv', inViews', differs, same'.trans same⟩
        · exact ⟨pv, inViews, hit, same⟩
      obtain ⟨pv, inViews, differs, same⟩ := other
      refine ⟨pv, ?_, same⟩
      rw [deletePvm_permissionViews]
      exact mem_filter.mpr ⟨inViews, by simpa using differs⟩
    · intro e inRest pv member
      exact rows e (mem_cons_of_mem _ inRest) pv (kept pv member)

theorem removes_foldl {md : Metadata} (wf : md.WellFormed) (used : Used md)
    {lost : String → String → Prop} (rows : ∀ d ∈ pvms, d ∈ md.permissionViews)
    (selected : ∀ pv ∈ md.permissionViews,
      pv ∈ pvms ↔ ∃ p v, md.Joins pv p v ∧ lost p v) :
    Removes md (pvms.foldl Metadata.deletePvm md) lost := by
  have sameRow : ∀ d ∈ pvms, ∀ pv ∈ md.permissionViews, pv.id = d.id → pv = d :=
    fun d listed pv member same => wf.permissionView_eq_of_id member (rows d listed) same
  -- a row stays exactly when its names are not among the lost ones
  have stays : ∀ pv p v, md.Joins pv p v →
      (pv ∈ (pvms.foldl Metadata.deletePvm md).permissionViews ↔ pv ∈ md.permissionViews ∧
        ¬ lost p v) := by
    intro pv p v joins
    rw [mem_foldl_deletePvm_permissionViews]
    apply and_congr_right
    intro member
    constructor
    · intro apart isLost
      exact apart pv ((selected pv member).mpr ⟨p, v, joins, isLost⟩) rfl
    · intro notLost d listed same
      rw [← sameRow d listed pv member same] at listed
      obtain ⟨q, u, joins', isLost⟩ := (selected pv member).mp listed
      obtain ⟨rfl, rfl⟩ := wf.joins_unique joins joins'
      exact notLost isLost
  refine ⟨wf.foldl_deletePvm pvms, foldl_deletePvm_objects pvms md,
    used_foldl_deletePvm pvms md used sameRow, ?_, ?_, ?_⟩
  · intro p v
    constructor
    · intro has
      obtain ⟨pv, member, joins⟩ := has
      have joinsOld := (joins_foldl_deletePvm pvms md member).mp joins
      obtain ⟨inOld, notLost⟩ := (stays pv p v joinsOld).mp member
      exact ⟨⟨pv, inOld, joinsOld⟩, notLost⟩
    · intro has
      obtain ⟨⟨pv, inOld, joins⟩, notLost⟩ := has
      have member := (stays pv p v joins).mpr ⟨inOld, notLost⟩
      exact ⟨pv, member, (joins_foldl_deletePvm pvms md member).mpr joins⟩
  · intro v named
    obtain ⟨vm, member, same⟩ := named
    exact ⟨vm, foldl_deletePvm_viewMenus_subset md pvms vm member, same⟩
  · intro role p v
    constructor
    · intro holds
      obtain ⟨pv, member, joins, granted⟩ := holds
      have joinsOld := (joins_foldl_deletePvm pvms md member).mp joins
      obtain ⟨inOld, notLost⟩ := (stays pv p v joinsOld).mp member
      exact ⟨⟨pv, inOld, joinsOld, ((mem_foldl_deletePvm_grants md pvms _).mp granted).1⟩, notLost⟩
    · intro holds
      obtain ⟨⟨pv, inOld, joins, granted⟩, notLost⟩ := holds
      have member := (stays pv p v joins).mpr ⟨inOld, notLost⟩
      refine ⟨pv, member, (joins_foldl_deletePvm pvms md member).mpr joins, ?_⟩
      exact (mem_foldl_deletePvm_grants md pvms _).mpr
        ⟨granted, ((mem_foldl_deletePvm_permissionViews md pvms pv).mp member).2⟩

end Delete

/-- `_delete_pvm` -/
theorem deletePvm_removes (wf : md.WellFormed) (used : Used md)
    (permission view : String) :
    Removes md (deletePvm md permission view) fun p v => p = permission ∧ v = view := by
  have result : deletePvm md permission view =
      (md.findPermissionViewMenu permission view).toList.foldl Metadata.deletePvm md := by
    unfold deletePvm
    cases md.findPermissionViewMenu permission view with
    | none => rfl
    | some pvm => rfl
  rw [result]
  apply removes_foldl _ wf used
  · intro d listed
    exact (findPermissionViewMenu_eq_some (Option.mem_toList.mp listed)).1
  · intro pv member
    rw [Option.mem_toList]
    constructor
    · intro found
      exact ⟨permission, view, (findPermissionViewMenu_eq_some found).2, rfl, rfl⟩
    · intro selected
      obtain ⟨p, v, joins, rfl, rfl⟩ := selected
      cases found : md.findPermissionViewMenu p v with
      | none => exact absurd joins (findPermissionViewMenu_eq_none.mp found pv member)
      | some pvm =>
        obtain ⟨inViews, joins'⟩ := findPermissionViewMenu_eq_some found
        rw [wf.eq_of_joins member inViews joins joins']

def LostWith (d : Database) (p v : String) : Prop :=
  (p = DATABASE_ACCESS ∧ v = getDatabasePerm d.id d.databaseName) ∨
    (p = SCHEMA_ACCESS ∨ p = CATALOG_ACCESS) ∧ StartsWith ("[" ++ d.databaseName ++ "].") v

theorem databaseAfterDelete_removes (wf : md.WellFormed) (used : Used md)
    (d : Database) : Removes md (databaseAfterDelete md d) (LostWith d) := by
  have first := deletePvm_removes wf used DATABASE_ACCESS (databasePermFor d)
  refine first.trans (removes_foldl _ first.wellFormed first.used ?_ ?_)
  · intro pv listed
    exact (mem_filter.mp listed).1
  · intro pv member
    simp only [prefixedPvms, mem_filter, Bool.and_eq_true, any_eq_true,
      Bool.or_eq_true, decide_eq_true_eq]
    constructor
    · intro selected
      obtain ⟨-, ⟨p, inPermissions, pId, kind⟩, vm, inMenus, vmId, starts⟩ := selected
      exact ⟨p.name, vm.name, ⟨⟨p, inPermissions, pId, rfl⟩, vm, inMenus, vmId, rfl⟩, kind, starts⟩
    · intro selected
      obtain ⟨_, _, ⟨⟨p, inPermissions, pId, rfl⟩, vm, inMenus, vmId, rfl⟩, kind, starts⟩ :=
        selected
      exact ⟨member, ⟨p, inPermissions, pId, kind⟩, vm, inMenus, vmId, starts⟩

/-- `Used` in terms of names. -/
theorem used_iff (wf : md.WellFormed) : Used md ↔ ∀ v, md.Named v → ∃ p, md.Has p v := by
  constructor
  · intro used v named
    obtain ⟨vm, member, rfl⟩ := named
    obtain ⟨pv, inViews, same⟩ := used vm member
    obtain ⟨p, inPermissions, pId⟩ := wf.permissionRef pv inViews
    exact ⟨p.name, pv, inViews, ⟨p, inPermissions, pId, rfl⟩, vm, member, same.symm, rfl⟩
  · intro used vm member
    obtain ⟨p, pv, inViews, -, vm', inMenus, same, viewName⟩ := used vm.name ⟨vm, member, rfl⟩
    rw [wf.viewMenu_eq_of_name inMenus member viewName] at same
    exact ⟨pv, inViews, same.symm⟩

theorem findDatabase_eq_some_iff (wf : md.WellFormed) {id : Nat} {d : Database} :
    md.findDatabase id = some d ↔ d ∈ md.dbs ∧ d.id = id := by
  constructor
  · exact findDatabase_eq_some
  · intro row
    obtain ⟨member, rfl⟩ := row
    exact findDatabase_of_mem wf member

theorem findTable_eq_some_iff (wf : md.WellFormed) {id : Nat} {t : SqlaTable} :
    findTable md id = some t ↔ t ∈ md.tables ∧ t.id = id := by
  constructor
  · exact findTable_eq_some
  · intro row
    obtain ⟨member, rfl⟩ := row
    cases found : findTable md t.id with
    | none =>
      have absent := find?_eq_none.mp found t member
      simp at absent
    | some other =>
      obtain ⟨inTables, sameId⟩ := findTable_eq_some found
      rw [table_eq_of_id wf inTables member sameId]

def Object.named (name : String) : Object → Option String
  | .database id => some (getDatabasePerm id name)
  | .schema _ inCatalog ofSchema => getSchemaPerm name inCatalog ofSchema
  | .catalog _ ofCatalog => getCatalogPerm name ofCatalog
  | .dataset _ => none

def Object.databaseId : Object → Option Nat
  | .database id | .schema id _ _ | .catalog id _ => some id
  | .dataset _ => none

section View
variable {md : Metadata} {object : Object} {id : Nat} {v : String}

theorem view_eq_some_iff (wf : md.WellFormed) (ofDatabase : object.databaseId = some id) :
    view md object = some v ↔ ∃ d ∈ md.dbs, d.id = id ∧ object.named d.databaseName = some v := by
  have rows : ∀ {α : Type} (f : Database → Option α) (a : α),
      (md.findDatabase id).bind f = some a ↔ ∃ d ∈ md.dbs, d.id = id ∧ f d = some a := by
    intro α f a
    rw [Option.bind_eq_some_iff]
    simp only [findDatabase_eq_some_iff wf, and_assoc]
  cases object with
  | dataset _ => simp [Object.databaseId] at ofDatabase
  | database i =>
    obtain rfl : i = id := by simpa [Object.databaseId] using ofDatabase
    rw [view, Option.map_eq_bind, rows]
    rfl
  | schema i catalog schema =>
    obtain rfl : i = id := by simpa [Object.databaseId] using ofDatabase
    exact rows _ v
  | catalog i catalog =>
    obtain rfl : i = id := by simpa [Object.databaseId] using ofDatabase
    exact rows _ v

theorem view_dataset_iff (wf : md.WellFormed) :
    view md (.dataset id) = some v ↔ ∃ t ∈ md.tables, t.id = id ∧ t.perm = some v := by
  rw [view, Option.bind_eq_some_iff]
  simp only [findTable_eq_some_iff wf, and_assoc]

theorem present_iff (wf : md.WellFormed) (ofDatabase : object.databaseId = some id) :
    Present md object ↔ ∃ d ∈ md.dbs, d.id = id := by
  have rows : (md.findDatabase id).isSome ↔ ∃ d ∈ md.dbs, d.id = id := by
    rw [Option.isSome_iff_exists]
    simp only [findDatabase_eq_some_iff wf]
  cases object with
  | dataset _ => simp [Object.databaseId] at ofDatabase
  | database i | schema i _ _ | catalog i _ =>
    obtain rfl : i = id := by simpa [Object.databaseId] using ofDatabase
    exact rows

theorem present_dataset_iff (wf : md.WellFormed) : Present md (.dataset id) ↔
    ∃ t ∈ md.tables, t.id = id := by
  rw [Present, Option.isSome_iff_exists]
  simp only [findTable_eq_some_iff wf]

end View

theorem named_cases {object : Object} {id : Nat} {name v : String}
    (ofDatabase : object.databaseId = some id) (named : object.named name = some v) :
    (object.permission = DATABASE_ACCESS ∧ v = getDatabasePerm id name) ∨
      SchemaView name object.permission v := by
  cases object with
  | dataset _ => simp [Object.databaseId] at ofDatabase
  | database i =>
    obtain rfl : i = id := by simpa [Object.databaseId] using ofDatabase
    exact .inl ⟨rfl, (Option.some.inj named).symm⟩
  | schema i catalog schema =>
    exact .inr ⟨.inl rfl, (getSchemaPerm_eq_some name v).mp ⟨catalog, schema, named⟩⟩
  | catalog i catalog =>
    exact .inr ⟨.inr rfl, (getCatalogPerm_eq_some name v).mp ⟨catalog, named⟩⟩

/-- Grants follow when the strings that stay are moved by `rename`, and the string
an object has afterwards comes from the one it had. -/
theorem follows_of_views {md md' : Metadata} {rename : String → String}
    {lost : String → String → Prop}
    (holds : ∀ role p v, md'.Holds role p v ↔
      ∃ u, md.Holds role p u ∧ ¬ lost p u ∧ rename u = v)
    (views : ∀ object, Present md' object →
      (view md' object = none → view md object = none) ∧
        (∀ v ∈ view md object, ¬ lost object.permission v) ∧
        ∀ v' ∈ view md' object, ∀ u, md.Has object.permission u → ¬ lost object.permission u →
          (rename u = v' ↔ view md object = some u)) : Follows md md' := by
  intro role object present
  obtain ⟨lostName, stays, comes⟩ := views object present
  constructor
  · intro granted
    obtain ⟨v, isView, held⟩ := granted
    cases after : view md' object with
    | none => simp [lostName after] at isView
    | some v' =>
      refine ⟨v', after, (holds role _ v').mpr ⟨v, held, stays v isView, ?_⟩⟩
      exact (comes v' after v held.has (stays v isView)).mpr isView
  · intro granted
    obtain ⟨v', isView, held⟩ := granted
    obtain ⟨u, heldOld, notLost, same⟩ := (holds role _ v').mp held
    exact ⟨u, (comes v' isView u heldOld.has notLost).mp same, heldOld⟩

end Liteset.Security.Listeners
