import Mathlib.Data.List.Nodup
import Liteset.Security.PermNames

/-!
# The metadata tables of access control

The rows of `ab_permission`, `ab_view_menu`, `ab_permission_view` and
`ab_permission_view_role`, and the columns of `dbs`, `tables` and `slices` that
carry names and denormalised permission strings.  `WellFormed` states the keys
of the schema: primary keys, the unique names of permissions and view menus, the
unique pairs of permission views and the foreign keys between them.  A
sequence counter per table stands for the database's id generator.
-/

set_option autoImplicit false

namespace Liteset.Security

structure Permission where
  id : Nat
  name : String
  deriving DecidableEq, Repr

structure ViewMenu where
  id : Nat
  name : String
  deriving DecidableEq, Repr

structure PermissionView where
  id : Nat
  permissionId : Nat
  viewMenuId : Nat
  deriving DecidableEq, Repr

/-- A row of `ab_permission_view_role`: a grant of a permission view to a role. -/
structure PermissionViewRole where
  permissionViewId : Nat
  roleId : Nat
  deriving DecidableEq, Repr

structure Database where
  id : Nat
  databaseName : String
  deriving DecidableEq, Repr

structure SqlaTable where
  id : Nat
  tableName : String
  databaseId : Nat
  schema : Option String := none
  catalog : Option String := none
  perm : Option String := none
  schemaPerm : Option String := none
  catalogPerm : Option String := none
  deriving DecidableEq, Repr

structure Slice where
  id : Nat
  datasourceId : Option Nat
  datasourceType : Option String
  perm : Option String := none
  schemaPerm : Option String := none
  catalogPerm : Option String := none
  deriving DecidableEq, Repr

structure Metadata where
  permissions : List Permission := []
  viewMenus : List ViewMenu := []
  permissionViews : List PermissionView := []
  permissionViewRoles : List PermissionViewRole := []
  dbs : List Database := []
  tables : List SqlaTable := []
  slices : List Slice := []
  permissionSeq : Nat := 1
  viewMenuSeq : Nat := 1
  permissionViewSeq : Nat := 1
  deriving DecidableEq, Repr

/-- The condition of the two joins `permission_view – permission – view_menu`
with both names fixed. -/
def Metadata.Joins (md : Metadata) (pv : PermissionView) (permission view : String) : Prop :=
  (∃ p ∈ md.permissions, p.id = pv.permissionId ∧ p.name = permission) ∧
    ∃ vm ∈ md.viewMenus, vm.id = pv.viewMenuId ∧ vm.name = view

instance (md : Metadata) (pv : PermissionView) (permission view : String) :
    Decidable (md.Joins pv permission view) :=
  inferInstanceAs (Decidable ((∃ p ∈ md.permissions, _) ∧ ∃ vm ∈ md.viewMenus, _))

/-- A role holds a permission on a view menu. -/
def Metadata.Holds (md : Metadata) (roleId : Nat) (permission view : String) : Prop :=
  ∃ pv ∈ md.permissionViews, md.Joins pv permission view ∧
    (⟨pv.id, roleId⟩ : PermissionViewRole) ∈ md.permissionViewRoles

/-- The keys of the schema. -/
structure Metadata.WellFormed (md : Metadata) : Prop where
  permissionIds : (md.permissions.map Permission.id).Nodup
  permissionNames : (md.permissions.map Permission.name).Nodup
  viewMenuIds : (md.viewMenus.map ViewMenu.id).Nodup
  viewMenuNames : (md.viewMenus.map ViewMenu.name).Nodup
  permissionViewIds : (md.permissionViews.map PermissionView.id).Nodup
  permissionViewPairs :
    (md.permissionViews.map fun pv => (pv.permissionId, pv.viewMenuId)).Nodup
  permissionRef : ∀ pv ∈ md.permissionViews, ∃ p ∈ md.permissions, p.id = pv.permissionId
  viewMenuRef : ∀ pv ∈ md.permissionViews, ∃ vm ∈ md.viewMenus, vm.id = pv.viewMenuId
  grantRef : ∀ g ∈ md.permissionViewRoles, ∃ pv ∈ md.permissionViews, pv.id = g.permissionViewId
  permissionFresh : ∀ p ∈ md.permissions, p.id < md.permissionSeq
  viewMenuFresh : ∀ vm ∈ md.viewMenus, vm.id < md.viewMenuSeq
  permissionViewFresh : ∀ pv ∈ md.permissionViews, pv.id < md.permissionViewSeq
  dbIds : (md.dbs.map Database.id).Nodup
  tableIds : (md.tables.map SqlaTable.id).Nodup

namespace Metadata.WellFormed

variable {md : Metadata}

section
variable (wf : md.WellFormed)
include wf

theorem viewMenu_eq_of_id {a b : ViewMenu} (ha : a ∈ md.viewMenus)
    (hb : b ∈ md.viewMenus) (same : a.id = b.id) : a = b :=
  List.inj_on_of_nodup_map wf.viewMenuIds ha hb same

theorem viewMenu_eq_of_name {a b : ViewMenu} (ha : a ∈ md.viewMenus)
    (hb : b ∈ md.viewMenus) (same : a.name = b.name) : a = b :=
  List.inj_on_of_nodup_map wf.viewMenuNames ha hb same

theorem permission_eq_of_id {a b : Permission} (ha : a ∈ md.permissions)
    (hb : b ∈ md.permissions) (same : a.id = b.id) : a = b :=
  List.inj_on_of_nodup_map wf.permissionIds ha hb same

theorem permission_eq_of_name {a b : Permission} (ha : a ∈ md.permissions)
    (hb : b ∈ md.permissions) (same : a.name = b.name) : a = b :=
  List.inj_on_of_nodup_map wf.permissionNames ha hb same

theorem permissionView_eq_of_id {a b : PermissionView}
    (ha : a ∈ md.permissionViews) (hb : b ∈ md.permissionViews) (same : a.id = b.id) : a = b :=
  List.inj_on_of_nodup_map wf.permissionViewIds ha hb same

theorem joins_unique {pv : PermissionView} {p q v w : String}
    (left : md.Joins pv p v) (right : md.Joins pv q w) : p = q ∧ v = w := by
  obtain ⟨⟨a, ha, aId, rfl⟩, ⟨x, hx, xId, rfl⟩⟩ := left
  obtain ⟨⟨b, hb, bId, rfl⟩, ⟨y, hy, yId, rfl⟩⟩ := right
  exact ⟨by rw [wf.permission_eq_of_id ha hb (aId.trans bId.symm)],
    by rw [wf.viewMenu_eq_of_id hx hy (xId.trans yId.symm)]⟩

theorem eq_of_joins {a b : PermissionView} {p v : String}
    (ha : a ∈ md.permissionViews) (hb : b ∈ md.permissionViews)
    (left : md.Joins a p v) (right : md.Joins b p v) : a = b := by
  obtain ⟨⟨p₁, hp₁, pId₁, pName₁⟩, ⟨v₁, hv₁, vId₁, vName₁⟩⟩ := left
  obtain ⟨⟨p₂, hp₂, pId₂, pName₂⟩, ⟨v₂, hv₂, vId₂, vName₂⟩⟩ := right
  have samePermission := wf.permission_eq_of_name hp₁ hp₂ (pName₁.trans pName₂.symm)
  have sameView := wf.viewMenu_eq_of_name hv₁ hv₂ (vName₁.trans vName₂.symm)
  apply List.inj_on_of_nodup_map wf.permissionViewPairs ha hb
  simp only [Prod.mk.injEq]
  exact ⟨by rw [← pId₁, ← pId₂, samePermission], by rw [← vId₁, ← vId₂, sameView]⟩

end

end Metadata.WellFormed

end Liteset.Security
