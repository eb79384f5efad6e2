import Liteset.Security.PermissionOps

/-!
# Permission views by name

`Has` and `Named` look at the tables the way the callers do: which permission
exists on which name, and which names are taken.  Adding, renaming and deleting
are described by what they do to `Has`, `Named` and the grants (`Holds`), so that
the callbacks can be followed without looking at ids.
-/

set_option autoImplicit false

namespace Liteset.Security.Metadata

open List

def Has (md : Metadata) (permission view : String) : Prop :=
  ∃ pv ∈ md.permissionViews, md.Joins pv permission view

/-- A view menu has the name. -/
def Named (md : Metadata) (view : String) : Prop := ∃ vm ∈ md.viewMenus, vm.name = view

instance (md : Metadata) (permission view : String) : Decidable (md.Has permission view) :=
  inferInstanceAs (Decidable (∃ pv ∈ md.permissionViews, _))

instance (md : Metadata) (view : String) : Decidable (md.Named view) :=
  inferInstanceAs (Decidable (∃ vm ∈ md.viewMenus, _))

instance (md : Metadata) (roleId : Nat) (permission view : String) :
    Decidable (md.Holds roleId permission view) :=
  inferInstanceAs (Decidable (∃ pv ∈ md.permissionViews, _ ∧ _))

variable {md : Metadata} {permission view : String}

theorem Has.named (has : md.Has permission view) : md.Named view := by
  obtain ⟨pv, -, -, vm, member, -, named⟩ := has
  exact ⟨vm, member, named⟩

theorem Holds.has {roleId : Nat}
    (holds : md.Holds roleId permission view) : md.Has permission view := by
  obtain ⟨pv, member, joins, -⟩ := holds
  exact ⟨pv, member, joins⟩

theorem findViewMenu_none_iff {name : String} : md.findViewMenu name = none ↔ ¬ md.Named name := by
  rw [findViewMenu_eq_none]
  simp [Named]

theorem findPermissionViewMenu_none_iff :
    md.findPermissionViewMenu permission view = none ↔ ¬ md.Has permission view := by
  rw [findPermissionViewMenu_eq_none]
  simp [Has]

structure SameObjects (md md' : Metadata) : Prop where
  dbs : md'.dbs = md.dbs
  tables : md'.tables = md.tables
  slices : md'.slices = md.slices

theorem SameObjects.refl (md : Metadata) : SameObjects md md := ⟨rfl, rfl, rfl⟩

theorem SameObjects.trans {a b c : Metadata} (first : SameObjects a b) (second : SameObjects b c) :
    SameObjects a c :=
  ⟨second.dbs.trans first.dbs, second.tables.trans first.tables,
    second.slices.trans first.slices⟩

structure Adds (md md' : Metadata) (added : List (String × String)) : Prop where
  wellFormed : md'.WellFormed
  objects : SameObjects md md'
  has : ∀ p v, md'.Has p v ↔ md.Has p v ∨ (p, v) ∈ added
  named : ∀ v, md'.Named v ↔ md.Named v ∨ ∃ p, (p, v) ∈ added
  holds : ∀ role p v, md'.Holds role p v ↔ md.Holds role p v

theorem Adds.nil (wf : md.WellFormed) : Adds md md [] :=
  ⟨wf, SameObjects.refl md, by simp, by simp, fun _ _ _ => Iff.rfl⟩

theorem Adds.trans {a b c : Metadata} {first second : List (String × String)}
    (left : Adds a b first) (right : Adds b c second) : Adds a c (first ++ second) where
  wellFormed := right.wellFormed
  objects := left.objects.trans right.objects
  has p v := by
    rw [right.has, left.has, mem_append, or_assoc]
  named v := by
    simp only [right.named, left.named, mem_append, exists_or, or_assoc]
  holds role p v := (right.holds role p v).trans (left.holds role p v)

theorem joins_mono {md md' : Metadata} {pv : PermissionView} {p v : String}
    (permissions : md.permissions ⊆ md'.permissions) (menus : md.viewMenus ⊆ md'.viewMenus)
    (joins : md.Joins pv p v) : md'.Joins pv p v := by
  obtain ⟨⟨a, inPermissions, aId, aName⟩, vm, inMenus, vmId, vmName⟩ := joins
  exact ⟨⟨a, permissions inPermissions, aId, aName⟩, vm, menus inMenus, vmId, vmName⟩

theorem joins_of_grows {md md' : Metadata} (wf : md.WellFormed) (wf' : md'.WellFormed)
    (permissions : md.permissions ⊆ md'.permissions) (menus : md.viewMenus ⊆ md'.viewMenus)
    {pv : PermissionView} (member : pv ∈ md.permissionViews) {p v : String} :
    md'.Joins pv p v ↔ md.Joins pv p v := by
  constructor
  · intro joins
    obtain ⟨a, inPermissions, aId⟩ := wf.permissionRef pv member
    obtain ⟨vm, inMenus, vmId⟩ := wf.viewMenuRef pv member
    have own : md.Joins pv a.name vm.name :=
      ⟨⟨a, inPermissions, aId, rfl⟩, vm, inMenus, vmId, rfl⟩
    obtain ⟨rfl, rfl⟩ := wf'.joins_unique joins (joins_mono permissions menus own)
    exact own
  · exact joins_mono permissions menus

theorem nodup_map_append {α β : Type} {f : α → β} {xs : List α} {x : α}
    (nodup : (xs.map f).Nodup) (fresh : ∀ y ∈ xs, f y ≠ f x) : ((xs ++ [x]).map f).Nodup := by
  rw [map_append, nodup_append]
  refine ⟨nodup, by simp, ?_⟩
  intro a inMap b single
  obtain ⟨y, member, rfl⟩ := mem_map.mp inMap
  rw [map_singleton, mem_singleton] at single
  rw [single]
  exact fresh y member

theorem forall_mem_append_singleton {α : Type} {P : α → Prop} {xs : List α} {x : α}
    (old : ∀ y ∈ xs, P y) (new : P x) : ∀ y ∈ xs ++ [x], P y := by
  intro y member
  rcases mem_append.mp member with inOld | isNew
  · exact old y inOld
  · rw [mem_singleton.mp isNew]
    exact new

section
variable (wf : md.WellFormed)
include wf

theorem WellFormed.insertPermission {name : String}
    (fresh : ∀ p ∈ md.permissions, p.name ≠ name) : (md.insertPermission name).1.WellFormed where
  __ := wf
  permissionIds := nodup_map_append wf.permissionIds
    fun p member => Nat.ne_of_lt (wf.permissionFresh p member)
  permissionNames := nodup_map_append wf.permissionNames fresh
  permissionRef := by
    intro pv member
    obtain ⟨p, inPermissions, same⟩ := wf.permissionRef pv member
    exact ⟨p, mem_append_left _ inPermissions, same⟩
  permissionFresh := forall_mem_append_singleton
    (fun p member => Nat.lt_succ_of_lt (wf.permissionFresh p member)) (Nat.lt_succ_self _)

theorem WellFormed.insertViewMenu {name : String}
    (fresh : ∀ vm ∈ md.viewMenus, vm.name ≠ name) : (md.insertViewMenu name).1.WellFormed where
  __ := wf
  viewMenuIds := nodup_map_append wf.viewMenuIds
    fun vm member => Nat.ne_of_lt (wf.viewMenuFresh vm member)
  viewMenuNames := nodup_map_append wf.viewMenuNames fresh
  viewMenuRef := by
    intro pv member
    obtain ⟨vm, inMenus, same⟩ := wf.viewMenuRef pv member
    exact ⟨vm, mem_append_left _ inMenus, same⟩
  viewMenuFresh := forall_mem_append_singleton
    (fun vm member => Nat.lt_succ_of_lt (wf.viewMenuFresh vm member)) (Nat.lt_succ_self _)

theorem WellFormed.insertPermissionView {p : Permission}
    {vm : ViewMenu} (inPermissions : p ∈ md.permissions) (inMenus : vm ∈ md.viewMenus)
    (fresh : ¬ md.Has p.name vm.name) : (md.insertPermissionView p.id vm.id).1.WellFormed where
  __ := wf
  permissionViewIds := nodup_map_append wf.permissionViewIds
    fun pv member => Nat.ne_of_lt (wf.permissionViewFresh pv member)
  permissionViewPairs := by
    refine nodup_map_append wf.permissionViewPairs ?_
    intro pv member same
    simp only [Prod.mk.injEq] at same
    exact fresh ⟨pv, member, ⟨p, inPermissions, same.1.symm, rfl⟩, vm, inMenus, same.2.symm, rfl⟩
  permissionRef := forall_mem_append_singleton wf.permissionRef ⟨p, inPermissions, rfl⟩
  viewMenuRef := forall_mem_append_singleton wf.viewMenuRef ⟨vm, inMenus, rfl⟩
  grantRef := by
    intro g member
    obtain ⟨pv, inViews, same⟩ := wf.grantRef g member
    exact ⟨pv, mem_append_left _ inViews, same⟩
  permissionViewFresh := forall_mem_append_singleton
    (fun pv member => Nat.lt_succ_of_lt (wf.permissionViewFresh pv member)) (Nat.lt_succ_self _)

theorem findOrCreatePermission_spec (name : String) :
    let result := md.findOrCreatePermission name
    result.1.WellFormed ∧ result.2 ∈ result.1.permissions ∧ result.2.name = name ∧
      md.permissions ⊆ result.1.permissions ∧ result.1.viewMenus = md.viewMenus ∧
      result.1.permissionViews = md.permissionViews ∧
      result.1.permissionViewRoles = md.permissionViewRoles ∧ SameObjects md result.1 := by
  unfold findOrCreatePermission
  cases found : md.findPermission name with
  | some p =>
    obtain ⟨member, named⟩ := findPermission_eq_some found
    exact ⟨wf, member, named, Subset.refl _, rfl, rfl, rfl, SameObjects.refl md⟩
  | none =>
    exact ⟨wf.insertPermission (findPermission_eq_none.mp found), by simp [insertPermission], rfl,
      subset_append_left _ _, rfl, rfl, rfl, ⟨rfl, rfl, rfl⟩⟩

theorem findOrCreateViewMenu_spec (name : String) :
    let result := md.findOrCreateViewMenu name
    result.1.WellFormed ∧ result.2 ∈ result.1.viewMenus ∧ result.2.name = name ∧
      (∀ v, result.1.Named v ↔ md.Named v ∨ v = name) ∧
      md.viewMenus ⊆ result.1.viewMenus ∧ result.1.permissions = md.permissions ∧
      result.1.permissionViews = md.permissionViews ∧
      result.1.permissionViewRoles = md.permissionViewRoles ∧ SameObjects md result.1 := by
  unfold findOrCreateViewMenu
  cases found : md.findViewMenu name with
  | some vm =>
    obtain ⟨member, named⟩ := findViewMenu_eq_some found
    refine ⟨wf, member, named, ?_, Subset.refl _, rfl, rfl, rfl, SameObjects.refl md⟩
    intro v
    constructor
    · exact Or.inl
    · intro either
      rcases either with inOld | rfl
      · exact inOld
      · exact ⟨vm, member, named⟩
  | none =>
    refine ⟨wf.insertViewMenu (findViewMenu_eq_none.mp found), by simp [insertViewMenu], rfl, ?_,
      subset_append_left _ _, rfl, rfl, rfl, ⟨rfl, rfl, rfl⟩⟩
    intro v
    simp only [Named, insertViewMenu, mem_append, mem_singleton, or_and_right,
      exists_or, exists_eq_left]
    exact or_congr Iff.rfl eq_comm

theorem addPermissionViewMenu_adds_some (permission view : String)
    (nonempty : view ≠ "") :
    Adds md (md.addPermissionViewMenu permission (some view)).1 [(permission, view)] := by
  simp only [addPermissionViewMenu, if_neg nonempty]
  cases found : md.findPermissionViewMenu permission view with
  | some pv =>
    obtain ⟨member, joins⟩ := findPermissionViewMenu_eq_some found
    have exists_ : md.Has permission view := ⟨pv, member, joins⟩
    refine ⟨wf, SameObjects.refl md, ?_, ?_, fun _ _ _ => Iff.rfl⟩
    · intro p v
      constructor
      · exact Or.inl
      · intro either
        rcases either with old | isNew
        · exact old
        · obtain ⟨rfl, rfl⟩ := Prod.mk.inj (mem_singleton.mp isNew)
          exact exists_
    · intro v
      constructor
      · exact Or.inl
      · intro either
        rcases either with old | ⟨p, isNew⟩
        · exact old
        · obtain ⟨-, rfl⟩ := Prod.mk.inj (mem_singleton.mp isNew)
          exact exists_.named
  | none =>
    have absent := findPermissionViewMenu_none_iff.mp found
    obtain ⟨wf₁, inPermissions, pName, permissions, menus₁, views₁, roles₁, objects₁⟩ :=
      findOrCreatePermission_spec wf permission
    obtain ⟨wf₂, inMenus, vmName, named, menus, permissions₂, views₂, roles₂, objects₂⟩ :=
      findOrCreateViewMenu_spec wf₁ view
    generalize md.findOrCreatePermission permission = first at *
    obtain ⟨md₁, p⟩ := first
    generalize md₁.findOrCreateViewMenu view = second at *
    obtain ⟨md₂, vm⟩ := second
    simp only at *
    subst pName
    subst vmName
    have grownPermissions : md.permissions ⊆ md₂.permissions := permissions₂ ▸ permissions
    have grownMenus : md.viewMenus ⊆ md₂.viewMenus := menus₁ ▸ menus
    have inPermissions₂ : p ∈ md₂.permissions := permissions₂ ▸ inPermissions
    have views : md₂.permissionViews = md.permissionViews := views₂.trans views₁
    have roles : md₂.permissionViewRoles = md.permissionViewRoles := roles₂.trans roles₁
    have fresh : ¬ md₂.Has p.name vm.name := by
      intro has
      obtain ⟨pv, member, joins⟩ := has
      rw [views] at member
      exact absent ⟨pv, member,
        (joins_of_grows wf wf₂ grownPermissions grownMenus member).mp joins⟩
    have wf₃ := wf₂.insertPermissionView inPermissions₂ inMenus fresh
    have newJoins : (md₂.insertPermissionView p.id vm.id).1.Joins
        ⟨md₂.permissionViewSeq, p.id, vm.id⟩ p.name vm.name :=
      ⟨⟨p, inPermissions₂, rfl, rfl⟩, vm, inMenus, rfl, rfl⟩
    have oldJoins : ∀ pv ∈ md.permissionViews, ∀ q v,
        (md₂.insertPermissionView p.id vm.id).1.Joins pv q v ↔ md.Joins pv q v := by
      intro pv member q v
      exact joins_of_grows wf wf₃ grownPermissions grownMenus member
    refine ⟨wf₃, objects₁.trans (objects₂.trans ⟨rfl, rfl, rfl⟩), ?_, ?_, ?_⟩
    · intro q v
      constructor
      · intro has
        obtain ⟨pv, member, joins⟩ := has
        rcases mem_append.mp member with inOld | isNew
        · rw [views] at inOld
          exact Or.inl ⟨pv, inOld, (oldJoins pv inOld q v).mp joins⟩
        · rw [mem_singleton.mp isNew] at joins
          obtain ⟨rfl, rfl⟩ := wf₃.joins_unique joins newJoins
          exact Or.inr mem_cons_self
      · intro either
        rcases either with ⟨pv, member, joins⟩ | isNew
        · exact ⟨pv, mem_append_left _ (views.symm ▸ member),
            (oldJoins pv member q v).mpr joins⟩
        · obtain ⟨rfl, rfl⟩ := Prod.mk.inj (mem_singleton.mp isNew)
          exact ⟨_, mem_append_right _ mem_cons_self, newJoins⟩
    · intro v
      rw [show (md₂.insertPermissionView p.id vm.id).1.Named v ↔ md₂.Named v from Iff.rfl, named]
      exact or_congr (by simp only [Named, menus₁]) (by simp)
    · intro role q v
      constructor
      · intro holds
        obtain ⟨pv, member, joins, granted⟩ := holds
        have granted : (⟨pv.id, role⟩ : PermissionViewRole) ∈ md.permissionViewRoles :=
          roles ▸ granted
        rcases mem_append.mp member with inOld | isNew
        · rw [views] at inOld
          exact ⟨pv, inOld, (oldJoins pv inOld q v).mp joins, granted⟩
        · -- no grant mentions the id that was just drawn
          obtain ⟨old, inViews, same⟩ := wf.grantRef _ granted
          rw [mem_singleton.mp isNew] at same
          have below := wf₂.permissionViewFresh old (views.symm ▸ inViews)
          simp only at same
          omega
      · intro holds
        obtain ⟨pv, member, joins, granted⟩ := holds
        exact ⟨pv, mem_append_left _ (views.symm ▸ member),
          (oldJoins pv member q v).mpr joins, roles.symm ▸ granted⟩

/-- `add_permission_view_menu`, which does nothing for no name. -/
theorem addPermissionViewMenu_adds (permission : String)
    (view : Option String) (nonempty : ∀ v ∈ view, v ≠ "") :
    Adds md (md.addPermissionViewMenu permission view).1
      (view.toList.map fun v => (permission, v)) := by
  cases view with
  | none => exact Adds.nil wf
  | some v => exact addPermissionViewMenu_adds_some wf permission v (nonempty v rfl)

end

def renamed (oldName newName view : String) : String := if view = oldName then newName else view

@[simp]
theorem renamed_old (oldName newName : String) : renamed oldName newName oldName = newName := by
  simp [renamed]

theorem renamed_other {oldName newName view : String} (other : view ≠ oldName) :
    renamed oldName newName view = view := by
  simp [renamed, other]

theorem renamed_self (name view : String) : renamed name name view = view := by
  unfold renamed
  split
  · rename_i same
    exact same.symm
  · rfl

/-- View menus were renamed by a function on names, nothing else changed. -/
structure Renames (md md' : Metadata) (rename : String → String) : Prop where
  wellFormed : md'.WellFormed
  objects : SameObjects md md'
  has : ∀ p v, md'.Has p v ↔ ∃ w, md.Has p w ∧ rename w = v
  named : ∀ v, md'.Named v ↔ ∃ w, md.Named w ∧ rename w = v
  holds : ∀ role p v, md'.Holds role p v ↔ ∃ w, md.Holds role p w ∧ rename w = v

theorem Renames.refl (wf : md.WellFormed) : Renames md md id where
  wellFormed := wf
  objects := SameObjects.refl md
  has := by simp
  named := by simp
  holds := by simp

theorem Renames.comp {a b c : Metadata} {first second : String → String} (left : Renames a b first)
    (right : Renames b c second) : Renames a c (second ∘ first) where
  wellFormed := right.wellFormed
  objects := left.objects.trans right.objects
  has p v := by simp only [right.has, left.has, exists_exists_and_eq_and, Function.comp]
  named v := by simp only [right.named, left.named, exists_exists_and_eq_and, Function.comp]
  holds role p v := by simp only [right.holds, left.holds, exists_exists_and_eq_and, Function.comp]

section Joined
variable {md' : Metadata} {rename : String → String}
  (joins : ∀ pv p v, md'.Joins pv p v ↔ ∃ w, md.Joins pv p w ∧ rename w = v)
  (views : md'.permissionViews = md.permissionViews)
include joins views

theorem has_of_joins (p v : String) : md'.Has p v ↔ ∃ w, md.Has p w ∧ rename w = v := by
  simp only [Has, joins, views]
  constructor
  · rintro ⟨pv, member, w, joined, same⟩
    exact ⟨w, ⟨pv, member, joined⟩, same⟩
  · rintro ⟨w, ⟨pv, member, joined⟩, same⟩
    exact ⟨pv, member, w, joined, same⟩

theorem holds_of_joins (roles : md'.permissionViewRoles = md.permissionViewRoles) (role : Nat)
    (p v : String) :
    md'.Holds role p v ↔ ∃ w, md.Holds role p w ∧ rename w = v := by
  simp only [Holds, joins, views, roles]
  constructor
  · rintro ⟨pv, member, ⟨w, joined, same⟩, granted⟩
    exact ⟨w, ⟨pv, member, joined, granted⟩, same⟩
  · rintro ⟨w, ⟨pv, member, joined, granted⟩, same⟩
    exact ⟨pv, member, ⟨w, joined, same⟩, granted⟩

end Joined

theorem mem_setViewMenuName {id : Nat} {name : String} {vm : ViewMenu} :
    vm ∈ (md.setViewMenuName id name).viewMenus ↔
      ∃ w ∈ md.viewMenus, (if w.id = id then { w with name } else w) = vm := by
  simp [setViewMenuName]

/-- `_rename_view_menu` of a name that is taken to one that is free. -/
theorem renameViewMenu_renames (wf : md.WellFormed) {oldName newName : String}
    (taken : md.Named oldName) (free : ¬ md.Named newName) :
    Renames md (md.renameViewMenu oldName newName).1 (renamed oldName newName) := by
  obtain ⟨vm, inMenus, named⟩ := taken
  have result : (md.renameViewMenu oldName newName).1 = md.setViewMenuName vm.id newName := by
    unfold renameViewMenu
    cases found : md.findViewMenu oldName with
    | none => exact absurd ⟨vm, inMenus, named⟩ (findViewMenu_none_iff.mp found)
    | some hit =>
      obtain ⟨hitMember, hitName⟩ := findViewMenu_eq_some found
      have same := wf.viewMenu_eq_of_name hitMember inMenus (hitName.trans named.symm)
      simp only [findViewMenu_none_iff.mpr free, same]
  rw [result]
  -- the row of `oldName` is the only one whose name changes
  have changes : ∀ w ∈ md.viewMenus,
      (if w.id = vm.id then { w with name := newName } else w).name =
        renamed oldName newName w.name ∧
      (if w.id = vm.id then { w with name := newName } else w).id = w.id := by
    intro w member
    by_cases hit : w.id = vm.id
    · rw [wf.viewMenu_eq_of_id member inMenus hit, if_pos rfl, named]
      simp
    · rw [if_neg hit, renamed_other]
      · exact ⟨rfl, rfl⟩
      · intro same
        exact hit (congrArg ViewMenu.id (wf.viewMenu_eq_of_name member inMenus
          (same.trans named.symm)))
  have joins : ∀ pv p v, (md.setViewMenuName vm.id newName).Joins pv p v ↔
      ∃ w, md.Joins pv p w ∧ renamed oldName newName w = v := by
    intro pv p v
    constructor
    · intro joined
      obtain ⟨permission, w', inNew, sameId, rfl⟩ := joined
      obtain ⟨w, member, rfl⟩ := mem_setViewMenuName.mp inNew
      obtain ⟨newNameOf, sameIdOf⟩ := changes w member
      exact ⟨w.name, ⟨permission, w, member, sameIdOf.symm.trans sameId, rfl⟩, newNameOf.symm⟩
    · intro joined
      obtain ⟨_, ⟨permission, w, member, sameId, rfl⟩, rfl⟩ := joined
      obtain ⟨newNameOf, sameIdOf⟩ := changes w member
      exact ⟨permission, _, mem_setViewMenuName.mpr ⟨w, member, rfl⟩, sameIdOf.trans sameId,
        newNameOf⟩
  refine ⟨wf.setViewMenuName vm.id newName ?_, ⟨rfl, rfl, rfl⟩, has_of_joins joins rfl, ?_,
    holds_of_joins joins rfl rfl⟩
  · intro w member same
    exact free ⟨w, member, same⟩
  · intro v
    constructor
    · intro named'
      obtain ⟨w', inNew, rfl⟩ := named'
      obtain ⟨w, member, rfl⟩ := mem_setViewMenuName.mp inNew
      exact ⟨w.name, ⟨w, member, rfl⟩, (changes w member).1.symm⟩
    · intro named'
      obtain ⟨_, ⟨w, member, rfl⟩, rfl⟩ := named'
      exact ⟨_, mem_setViewMenuName.mpr ⟨w, member, rfl⟩, (changes w member).1⟩

theorem deletePvm_slices (md : Metadata) (pvm : PermissionView) :
    (md.deletePvm pvm).slices = md.slices ∧ (md.deletePvm pvm).dbs = md.dbs := by
  simp only [deletePvm]
  split <;> exact ⟨rfl, rfl⟩

theorem delPermissionViewMenu_objects (md : Metadata) (permission view : String) :
    SameObjects md (md.delPermissionViewMenu permission view) := by
  unfold delPermissionViewMenu
  cases md.findPermissionViewMenu permission view with
  | none => exact SameObjects.refl md
  | some pvm =>
    exact ⟨(deletePvm_slices md pvm).2, deletePvm_tables md pvm, (deletePvm_slices md pvm).1⟩

theorem has_delPermissionViewMenu (wf : md.WellFormed) (permission view p v : String) :
    (md.delPermissionViewMenu permission view).Has p v ↔
    md.Has p v ∧ ¬ (p = permission ∧ v = view) := by
  constructor
  · intro has
    obtain ⟨pv, member, joins⟩ := has
    have joinsOld := (joins_delPermissionViewMenu member).mp joins
    obtain ⟨inOld, other⟩ := (mem_delPermissionViewMenu wf permission view pv).mp member
    refine ⟨⟨pv, inOld, joinsOld⟩, ?_⟩
    intro same
    obtain ⟨rfl, rfl⟩ := same
    exact other joinsOld
  · intro has
    obtain ⟨⟨pv, inOld, joins⟩, other⟩ := has
    have member := (mem_delPermissionViewMenu wf permission view pv).mpr ⟨inOld, by
      intro joinsDeleted
      exact other (wf.joins_unique joins joinsDeleted)⟩
    exact ⟨pv, member, (joins_delPermissionViewMenu member).mpr joins⟩

theorem named_of_named_delPermissionViewMenu {permission view v : String}
    (named : (md.delPermissionViewMenu permission view).Named v) : md.Named v := by
  obtain ⟨vm, member, same⟩ := named
  rw [delPermissionViewMenu_eq] at member
  exact ⟨vm, foldl_deletePvm_viewMenus_subset md _ vm member, same⟩

end Liteset.Security.Metadata
