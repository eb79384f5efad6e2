import Mathlib.Data.List.Perm.Basic
import Liteset.Security.PermissionManager

/-!
# What the permission-view operations do

One specification per operation of `PermissionManager`: the rows it adds,
removes or renames, what it leaves alone, and that it keeps the keys of the
schema.  The callbacks are reasoned about through these facts only.
-/

set_option autoImplicit false

namespace Liteset.Security.Metadata

open Liteset.Lib.SqlLike List

variable {md : Metadata}

theorem findViewMenu_eq_some {name : String} {vm : ViewMenu}
    (found : md.findViewMenu name = some vm) : vm ∈ md.viewMenus ∧ vm.name = name :=
  ⟨mem_of_find?_eq_some found, by simpa using find?_some found⟩

theorem findViewMenu_eq_none {name : String} :
    md.findViewMenu name = none ↔ ∀ vm ∈ md.viewMenus, vm.name ≠ name := by
  simp [findViewMenu]

theorem findPermission_eq_some {name : String} {p : Permission}
    (found : md.findPermission name = some p) : p ∈ md.permissions ∧ p.name = name :=
  ⟨mem_of_find?_eq_some found, by simpa using find?_some found⟩

theorem findPermission_eq_none {name : String} :
    md.findPermission name = none ↔ ∀ p ∈ md.permissions, p.name ≠ name := by
  simp [findPermission]

theorem findPermissionViewMenu_eq_some {permission view : String}
    {pv : PermissionView} (found : md.findPermissionViewMenu permission view = some pv) :
    pv ∈ md.permissionViews ∧ md.Joins pv permission view :=
  ⟨mem_of_find?_eq_some found, by simpa using find?_some found⟩

theorem findPermissionViewMenu_eq_none {permission view : String} :
    md.findPermissionViewMenu permission view = none ↔
      ∀ pv ∈ md.permissionViews, ¬ md.Joins pv permission view := by
  simp [findPermissionViewMenu]

section Delete
variable (md : Metadata) (pvm : PermissionView)

theorem deletePvm_permissionViews :
    (md.deletePvm pvm).permissionViews =
      md.permissionViews.filter fun pv => pv.id ≠ pvm.id := by
  simp only [deletePvm]
  split <;> rfl

theorem deletePvm_permissionViewRoles :
    (md.deletePvm pvm).permissionViewRoles =
      md.permissionViewRoles.filter fun g => g.permissionViewId ≠ pvm.id := by
  simp only [deletePvm]
  split <;> rfl

theorem deletePvm_permissions : (md.deletePvm pvm).permissions = md.permissions := by
  simp only [deletePvm]
  split <;> rfl

theorem deletePvm_tables : (md.deletePvm pvm).tables = md.tables := by
  simp only [deletePvm]
  split <;> rfl

theorem mem_deletePvm_viewMenus (vm : ViewMenu) :
    vm ∈ (md.deletePvm pvm).viewMenus ↔
      vm ∈ md.viewMenus ∧ (vm.id ≠ pvm.viewMenuId ∨
        ∃ pv ∈ md.permissionViews, pv.id ≠ pvm.id ∧ pv.viewMenuId = pvm.viewMenuId) := by
  simp only [deletePvm]
  split
  · rename_i shared
    simp only [any_eq_true, mem_filter, decide_eq_true_eq] at shared
    obtain ⟨pv, ⟨member, other⟩, same⟩ := shared
    constructor
    · intro inMenus
      exact ⟨inMenus, .inr ⟨pv, member, other, same⟩⟩
    · exact fun h => h.1
  · rename_i alone
    simp only [any_eq_true, mem_filter, decide_eq_true_eq, not_exists, not_and] at alone
    simp only [mem_filter, decide_eq_true_eq]
    constructor
    · rintro ⟨inMenus, other⟩
      exact ⟨inMenus, .inl other⟩
    · rintro ⟨inMenus, other | ⟨pv, member, different, same⟩⟩
      · exact ⟨inMenus, other⟩
      · exact absurd same (alone pv ⟨member, different⟩)

theorem joins_deletePvm {pv : PermissionView} {permission view : String}
    (stays : pv ∈ (md.deletePvm pvm).permissionViews) :
    (md.deletePvm pvm).Joins pv permission view ↔ md.Joins pv permission view := by
  rw [deletePvm_permissionViews, mem_filter, decide_eq_true_eq] at stays
  simp only [Joins, deletePvm_permissions]
  constructor
  · rintro ⟨named, vm, member, same, viewName⟩
    exact ⟨named, vm, ((mem_deletePvm_viewMenus md pvm vm).mp member).1, same, viewName⟩
  · rintro ⟨named, vm, member, same, viewName⟩
    refine ⟨named, vm, (mem_deletePvm_viewMenus md pvm vm).mpr ⟨member, ?_⟩, same, viewName⟩
    by_cases shared : vm.id = pvm.viewMenuId
    · exact .inr ⟨pv, stays.1, stays.2, same.symm.trans shared⟩
    · exact .inl shared

end Delete

section DeleteMany
variable (md : Metadata) (pvms : List PermissionView)

theorem mem_foldl_deletePvm_permissionViews (pv : PermissionView) :
    pv ∈ (pvms.foldl deletePvm md).permissionViews ↔ pv ∈ md.permissionViews ∧ ∀ d ∈ pvms,
      pv.id ≠ d.id := by
  induction pvms generalizing md with
  | nil => simp
  | cons d rest ih =>
    rw [foldl_cons, ih, deletePvm_permissionViews]
    simp only [mem_filter, decide_eq_true_eq, mem_cons, forall_eq_or_imp, and_assoc]

theorem mem_foldl_deletePvm_grants (g : PermissionViewRole) :
    g ∈ (pvms.foldl deletePvm md).permissionViewRoles ↔
      g ∈ md.permissionViewRoles ∧ ∀ d ∈ pvms, g.permissionViewId ≠ d.id := by
  induction pvms generalizing md with
  | nil => simp
  | cons d rest ih =>
    rw [foldl_cons, ih, deletePvm_permissionViewRoles]
    simp only [mem_filter, decide_eq_true_eq, mem_cons, forall_eq_or_imp, and_assoc]

theorem foldl_deletePvm_keeps_viewMenu (vm : ViewMenu) (member : vm ∈ md.viewMenus)
    (apart : ∀ d ∈ pvms, vm.id ≠ d.viewMenuId) : vm ∈ (pvms.foldl deletePvm md).viewMenus := by
  induction pvms generalizing md with
  | nil => exact member
  | cons d rest ih =>
    rw [foldl_cons]
    apply ih
    · exact (mem_deletePvm_viewMenus md d vm).mpr ⟨member, .inl (apart d (by simp))⟩
    · intro e inRest
      exact apart e (by simp [inRest])

theorem foldl_deletePvm_viewMenus_subset (vm : ViewMenu)
    (member : vm ∈ (pvms.foldl deletePvm md).viewMenus) : vm ∈ md.viewMenus := by
  induction pvms generalizing md with
  | nil => exact member
  | cons d rest ih =>
    rw [foldl_cons] at member
    exact ((mem_deletePvm_viewMenus md d vm).mp (ih (md.deletePvm d) member)).1

end DeleteMany

theorem delPermissionViewMenu_eq (md : Metadata) (permission view : String) :
    md.delPermissionViewMenu permission view =
      (md.findPermissionViewMenu permission view).toList.foldl deletePvm md := by
  simp only [delPermissionViewMenu]
  cases md.findPermissionViewMenu permission view with
  | none => rfl
  | some pvm => rfl

theorem mem_schemaCatalogPvms (md : Metadata) (name : String) (pv : PermissionView) :
    pv ∈ md.schemaCatalogPvms name ↔
      pv ∈ md.permissionViews ∧ ∃ permission view, md.Joins pv permission view ∧
        (permission = SCHEMA_ACCESS ∨ permission = CATALOG_ACCESS) ∧
        like ("[" ++ name ++ "].[%]").toList view.toList = true := by
  simp only [schemaCatalogPvms, mem_filter, Bool.and_eq_true, any_eq_true,
    Bool.or_eq_true, decide_eq_true_eq]
  constructor
  · rintro ⟨member, ⟨p, inPermissions, pId, kind⟩, vm, inMenus, vmId, matched⟩
    exact ⟨member, p.name, vm.name, ⟨⟨p, inPermissions, pId, rfl⟩, vm, inMenus, vmId, rfl⟩,
      kind, matched⟩
  · rintro ⟨member, permission, view, ⟨⟨p, inPermissions, pId, rfl⟩, vm, inMenus, vmId, rfl⟩,
      kind, matched⟩
    exact ⟨member, ⟨p, inPermissions, pId, kind⟩, vm, inMenus, vmId, matched⟩

theorem WellFormed.deletePvm (wf : md.WellFormed) (pvm : PermissionView) :
    (md.deletePvm pvm).WellFormed := by
  have menus : Sublist (md.deletePvm pvm).viewMenus md.viewMenus := by
    simp only [Metadata.deletePvm]
    split
    · exact Sublist.refl _
    · exact filter_sublist
  have views : Sublist (md.deletePvm pvm).permissionViews md.permissionViews := by
    rw [deletePvm_permissionViews]
    exact filter_sublist
  have seqs : (md.deletePvm pvm).permissionSeq = md.permissionSeq ∧
      (md.deletePvm pvm).viewMenuSeq = md.viewMenuSeq ∧
      (md.deletePvm pvm).permissionViewSeq = md.permissionViewSeq ∧
      (md.deletePvm pvm).dbs = md.dbs := by
    simp only [Metadata.deletePvm]
    split <;> exact ⟨rfl, rfl, rfl, rfl⟩
  exact {
    permissionIds := by rw [deletePvm_permissions]; exact wf.permissionIds
    permissionNames := by rw [deletePvm_permissions]; exact wf.permissionNames
    viewMenuIds := wf.viewMenuIds.sublist (menus.map _)
    viewMenuNames := wf.viewMenuNames.sublist (menus.map _)
    permissionViewIds := wf.permissionViewIds.sublist (views.map _)
    permissionViewPairs := wf.permissionViewPairs.sublist (views.map _)
    permissionRef := by
      intro pv member
      rw [deletePvm_permissions]
      exact wf.permissionRef pv (views.subset member)
    viewMenuRef := by
      intro pv member
      obtain ⟨vm, inMenus, same⟩ := wf.viewMenuRef pv (views.subset member)
      obtain ⟨p, inPermissions, pId⟩ := wf.permissionRef pv (views.subset member)
      obtain ⟨-, vm', inMenus', same', -⟩ :=
        (joins_deletePvm md pvm member).mpr ⟨⟨p, inPermissions, pId, rfl⟩, vm, inMenus, same, rfl⟩
      exact ⟨vm', inMenus', same'⟩
    grantRef := by
      intro g member
      rw [deletePvm_permissionViewRoles, mem_filter, decide_eq_true_eq] at member
      obtain ⟨pv, inViews, same⟩ := wf.grantRef g member.1
      refine ⟨pv, ?_, same⟩
      rw [deletePvm_permissionViews, mem_filter, decide_eq_true_eq]
      exact ⟨inViews, same ▸ member.2⟩
    permissionFresh := by rw [deletePvm_permissions, seqs.1]; exact wf.permissionFresh
    viewMenuFresh := by
      rw [seqs.2.1]
      exact fun vm member => wf.viewMenuFresh vm (menus.subset member)
    permissionViewFresh := by
      rw [seqs.2.2.1]
      exact fun pv member => wf.permissionViewFresh pv (views.subset member)
    dbIds := by rw [seqs.2.2.2]; exact wf.dbIds
    tableIds := by rw [deletePvm_tables]; exact wf.tableIds }

theorem WellFormed.foldl_deletePvm (wf : md.WellFormed)
    (pvms : List PermissionView) : (pvms.foldl Metadata.deletePvm md).WellFormed := by
  induction pvms generalizing md with
  | nil => exact wf
  | cons d rest ih => exact ih (wf.deletePvm d)

section Rename
variable (md : Metadata) (oldName newName : String)

theorem renameViewMenu_cases :
    (md.renameViewMenu oldName newName).1 = md ∨
      ∃ vm ∈ md.viewMenus, vm.name = oldName ∧ (∀ w ∈ md.viewMenus, w.name ≠ newName) ∧
        (md.renameViewMenu oldName newName).1 = md.setViewMenuName vm.id newName := by
  unfold renameViewMenu
  cases foundOld : md.findViewMenu oldName with
  | none => exact .inl rfl
  | some vm =>
    cases foundNew : md.findViewMenu newName with
    | some existing => exact .inl rfl
    | none =>
      obtain ⟨member, named⟩ := findViewMenu_eq_some foundOld
      exact .inr ⟨vm, member, named, findViewMenu_eq_none.mp foundNew, rfl⟩

theorem setViewMenuName_map_id (id : Nat) (name : String) :
    ((md.setViewMenuName id name).viewMenus.map ViewMenu.id) = md.viewMenus.map ViewMenu.id := by
  simp only [setViewMenuName, map_map]
  apply map_congr_left
  intro vm member
  simp only [Function.comp]
  split <;> rfl

end Rename

theorem WellFormed.setViewMenuName (wf : md.WellFormed) (id : Nat) (name : String)
    (fresh : ∀ w ∈ md.viewMenus, w.name ≠ name) : (md.setViewMenuName id name).WellFormed := by
  have member : ∀ vm' ∈ (md.setViewMenuName id name).viewMenus, ∃ vm ∈ md.viewMenus,
      vm.id = vm'.id ∧ (vm' = vm ∨ vm.id = id ∧ vm'.name = name) := by
    intro vm' inMenus
    simp only [Metadata.setViewMenuName, mem_map] at inMenus
    obtain ⟨vm, inOld, rfl⟩ := inMenus
    refine ⟨vm, inOld, ?_⟩
    by_cases hit : vm.id = id
    · rw [if_pos hit]
      exact ⟨rfl, .inr ⟨hit, rfl⟩⟩
    · rw [if_neg hit]
      exact ⟨rfl, .inl rfl⟩
  have ids := setViewMenuName_map_id md id name
  exact {
    permissionIds := wf.permissionIds
    permissionNames := wf.permissionNames
    viewMenuIds := by rw [ids]; exact wf.viewMenuIds
    viewMenuNames := by
      have idsNodup : ((md.setViewMenuName id name).viewMenus.map ViewMenu.id).Nodup := by
        rw [ids]; exact wf.viewMenuIds
      refine List.Nodup.map_on ?_ (List.Nodup.of_map _ idsNodup)
      intro a ha b hb same
      obtain ⟨a', ha', aId, aCase⟩ := member a ha
      obtain ⟨b', hb', bId, bCase⟩ := member b hb
      have sameId : a.id = b.id := by
        rcases aCase with rfl | ⟨aHit, aName⟩ <;> rcases bCase with rfl | ⟨bHit, bName⟩
        · rw [wf.viewMenu_eq_of_name ha' hb' same]
        · exact absurd (same.trans bName) (fresh _ ha')
        · exact absurd (same.symm.trans aName) (fresh _ hb')
        · rw [← aId, ← bId, aHit, bHit]
      exact inj_on_of_nodup_map idsNodup ha hb sameId
    permissionViewIds := wf.permissionViewIds
    permissionViewPairs := wf.permissionViewPairs
    permissionRef := wf.permissionRef
    viewMenuRef := by
      intro pv inViews
      obtain ⟨vm, inMenus, same⟩ := wf.viewMenuRef pv inViews
      have inIds : vm.id ∈ (md.setViewMenuName id name).viewMenus.map ViewMenu.id := by
        rw [ids]; exact mem_map_of_mem inMenus
      obtain ⟨vm', inMenus', same'⟩ := mem_map.mp inIds
      exact ⟨vm', inMenus', same'.trans same⟩
    grantRef := wf.grantRef
    permissionFresh := wf.permissionFresh
    viewMenuFresh := by
      intro vm' inMenus
      obtain ⟨vm, inOld, sameId, -⟩ := member vm' inMenus
      rw [← sameId]
      exact wf.viewMenuFresh vm inOld
    permissionViewFresh := wf.permissionViewFresh
    dbIds := wf.dbIds
    tableIds := wf.tableIds }

theorem WellFormed.renameViewMenu (wf : md.WellFormed) (oldName newName : String) :
    (md.renameViewMenu oldName newName).1.WellFormed := by
  rcases renameViewMenu_cases md oldName newName with same | ⟨vm, -, -, fresh, renamed⟩
  · rw [same]
    exact wf
  · rw [renamed]
    exact wf.setViewMenuName vm.id newName fresh

theorem WellFormed.delPermissionViewMenu (wf : md.WellFormed)
    (permission view : String) : (md.delPermissionViewMenu permission view).WellFormed := by
  rw [delPermissionViewMenu_eq]
  exact wf.foldl_deletePvm _

theorem mem_delPermissionViewMenu (wf : md.WellFormed) (permission view : String)
    (pv : PermissionView) :
    pv ∈ (md.delPermissionViewMenu permission view).permissionViews ↔
      pv ∈ md.permissionViews ∧ ¬ md.Joins pv permission view := by
  rw [delPermissionViewMenu_eq, mem_foldl_deletePvm_permissionViews]
  apply and_congr_right
  intro member
  cases found : md.findPermissionViewMenu permission view with
  | none =>
    have absent := findPermissionViewMenu_eq_none.mp found pv member
    simp [absent]
  | some pvm =>
    obtain ⟨inViews, joins⟩ := findPermissionViewMenu_eq_some found
    simp only [Option.toList_some, mem_singleton, forall_eq]
    apply not_congr
    constructor
    · intro same
      rw [wf.permissionView_eq_of_id member inViews same]
      exact joins
    · intro joinsPv
      rw [wf.eq_of_joins member inViews joinsPv joins]

theorem joins_delPermissionViewMenu {permission view p v : String}
    {pv : PermissionView}
    (stays : pv ∈ (md.delPermissionViewMenu permission view).permissionViews) :
    (md.delPermissionViewMenu permission view).Joins pv p v ↔ md.Joins pv p v := by
  unfold delPermissionViewMenu at stays ⊢
  cases found : md.findPermissionViewMenu permission view with
  | none => rfl
  | some pvm =>
    rw [found] at stays
    exact joins_deletePvm md pvm stays

section RenameDatasource
variable (oldName newName : String) (md : Metadata)

theorem renameViewMenu_permissionViews :
    (md.renameViewMenu oldName newName).1.permissionViews = md.permissionViews := by
  rcases renameViewMenu_cases md oldName newName with same | ⟨vm, -, -, -, renamed⟩
  · rw [same]
  · rw [renamed]
    rfl

theorem renameViewMenu_permissionViewRoles :
    (md.renameViewMenu oldName newName).1.permissionViewRoles = md.permissionViewRoles := by
  rcases renameViewMenu_cases md oldName newName with same | ⟨vm, -, -, -, renamed⟩
  · rw [same]
  · rw [renamed]
    rfl

theorem renameViewMenu_keeps_viewMenu (wf : md.WellFormed) (vm : ViewMenu)
    (member : vm ∈ md.viewMenus) (apart : vm.name ≠ oldName) :
    vm ∈ (md.renameViewMenu oldName newName).1.viewMenus := by
  rcases renameViewMenu_cases md oldName newName with same | ⟨hit, inMenus, named, -, renamed⟩
  · rw [same]
    exact member
  · rw [renamed]
    refine mem_map.mpr ⟨vm, member, if_neg ?_⟩
    intro sameId
    apply apart
    rw [wf.viewMenu_eq_of_id member inMenus sameId, named]

end RenameDatasource

section RenameDatasourcePerm
variable (oldName newName : String) (md : Metadata) (dataset : SqlaTable)

theorem renameDatasourcePerm_permissionViews :
    (renameDatasourcePerm oldName newName md dataset).permissionViews = md.permissionViews := by
  simp only [renameDatasourcePerm]
  cases md.findViewMenu (getDatasetPerm dataset.id dataset.tableName newName) with
  | some existing => rfl
  | none => exact renameViewMenu_permissionViews _ _ md

theorem renameDatasourcePerm_permissionViewRoles :
    (renameDatasourcePerm oldName newName md dataset).permissionViewRoles =
      md.permissionViewRoles := by
  simp only [renameDatasourcePerm]
  cases md.findViewMenu (getDatasetPerm dataset.id dataset.tableName newName) with
  | some existing => rfl
  | none => exact renameViewMenu_permissionViewRoles _ _ md

theorem WellFormed.renameDatasourcePerm {md : Metadata} (wf : md.WellFormed) :
    (Metadata.renameDatasourcePerm oldName newName md dataset).WellFormed := by
  simp only [Metadata.renameDatasourcePerm]
  cases md.findViewMenu (getDatasetPerm dataset.id dataset.tableName newName) with
  | some existing => exact wf
  | none =>
    have renamed := wf.renameViewMenu (getDatasetPerm dataset.id dataset.tableName oldName)
      (getDatasetPerm dataset.id dataset.tableName newName)
    refine { renamed with tableIds := ?_ }
    have ids := renamed.tableIds
    simp only [map_map]
    refine (congrArg List.Nodup (map_congr_left ?_)).mpr ids
    intro t member
    simp only [Function.comp]
    split <;> rfl

theorem renameDatasourcePerm_keeps_viewMenu (wf : md.WellFormed) (vm : ViewMenu)
    (member : vm ∈ md.viewMenus)
    (apart : vm.name ≠ getDatasetPerm dataset.id dataset.tableName oldName) :
    vm ∈ (renameDatasourcePerm oldName newName md dataset).viewMenus := by
  simp only [renameDatasourcePerm]
  cases md.findViewMenu (getDatasetPerm dataset.id dataset.tableName newName) with
  | some existing => exact member
  | none => exact renameViewMenu_keeps_viewMenu _ _ md wf vm member apart

end RenameDatasourcePerm

theorem renameDatasourcePerms_frame (wf : md.WellFormed) (oldName newName : String)
    (datasets : List SqlaTable) :
    let after := datasets.foldl (renameDatasourcePerm oldName newName) md
    after.permissionViews = md.permissionViews ∧
      after.permissionViewRoles = md.permissionViewRoles ∧
      ∀ vm ∈ md.viewMenus, (∀ id table, vm.name ≠ getDatasetPerm id table oldName) →
        vm ∈ after.viewMenus := by
  induction datasets generalizing md with
  | nil => exact ⟨rfl, rfl, fun vm member _ => member⟩
  | cons dataset rest ih =>
    obtain ⟨views, roles, menus⟩ := ih (wf.renameDatasourcePerm oldName newName dataset)
    refine ⟨?_, ?_, ?_⟩
    · rw [foldl_cons, views, renameDatasourcePerm_permissionViews]
    · rw [foldl_cons, roles, renameDatasourcePerm_permissionViewRoles]
    · intro vm member apart
      exact menus vm (renameDatasourcePerm_keeps_viewMenu oldName newName md dataset wf vm member
        (apart _ _)) apart

end Liteset.Security.Metadata
