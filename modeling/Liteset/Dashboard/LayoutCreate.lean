import Liteset.Dashboard.LayoutEdits

/-!
# Creating a component

`CREATE_COMPONENT` puts a fresh component into the destination: by itself, inside a
fresh row, or as tabs with a first tab.
-/

set_option autoImplicit false

namespace Liteset.Dashboard

open Lib
open Lib.JsObject (Record)
open Lib.JsArray (item setItem splice spliceStart)

section Create
variable {state next : Layout} {d top : String} {inner : Option String}

/-- Hanging fresh components below `d`. -/
theorem grafted_of_planted (distinct : ∀ k, (childrenOf state k).Nodup)
    (listed : ∀ a b, Child state a b → state.entry b ≠ none)
    (freshTop : state.entry top = none)
    (freshInner : ∀ k, inner = some k → state.entry k = none ∧ k ≠ top)
    (destinationPresent : state.entry d ≠ none) (keyed : Keyed next)
    (types : ∀ k, state.entry k ≠ none → typeOf next k = typeOf state k)
    (added : ∀ k, next.entry k ≠ none → state.entry k = none → k = top ∨ inner = some k)
    (topPresent : next.entry top ≠ none) (innerPresent : ∀ k, inner = some k → next.entry k ≠ none)
    (topList : childrenOf next top = inner.toList)
    (innerList : ∀ k, inner = some k → childrenOf next k = [])
    (put : (childrenOf next d).Perm (top :: childrenOf state d))
    (others : ∀ k, state.entry k ≠ none → k ≠ d → childrenOf next k = childrenOf state k) :
    Grafted state next d top inner := by
  have unlistedTop : ∀ a, ¬Child state a top := fun a edge => listed a top edge freshTop
  have elsewhere : ∀ k, state.entry k = none → k ≠ top → inner ≠ some k →
      childrenOf next k = [] := by
    intro k absent not_top not_inner
    apply childrenOf_of_none
    by_contra here
    rcases added k here absent with same | same
    · exact not_top same
    · exact not_inner same
  have lists : ∀ a b, Child next a b ↔ (a = d ∧ b = top) ∨ (a = top ∧ inner = some b) ∨
      Child state a b := by
    intro a b
    unfold Child
    by_cases at_d : a = d
    · have not_top : d ≠ top := fun same => destinationPresent (same ▸ freshTop)
      rw [at_d, put.mem_iff, List.mem_cons]
      simp [not_top]
    · by_cases at_top : a = top
      · rw [at_top, topList, childrenOf_of_none freshTop, Option.mem_toList]
        simp [at_top ▸ at_d]
      · by_cases here : state.entry a = none
        · have empty : childrenOf next a = [] := by
            by_cases at_inner : inner = some a
            · exact innerList a at_inner
            · exact elsewhere a here at_top at_inner
          rw [empty, childrenOf_of_none here]
          simp [at_d, at_top]
        · rw [others a here at_d]
          simp [at_d, at_top]
  refine ⟨keyed, types, ?_, ?_, ?_, ?_, ?_⟩
  · intro k here absent old
    obtain ⟨not_top, not_inner⟩ := newParent_eq_none.mp old
    rcases added k here absent with same | same
    · exact not_top same
    · exact not_inner same
  · intro k new
    obtain ⟨p, found⟩ := Option.ne_none_iff_exists'.mp new
    rcases newParent_cases found with ⟨rfl, _⟩ | ⟨at_inner, _⟩
    · exact topPresent
    · exact innerPresent k at_inner
  · intro a b old
    obtain ⟨not_top, not_inner⟩ := newParent_eq_none.mp old
    rw [lists a b]
    simp [not_top, not_inner]
  · intro a b p new
    rw [lists a b]
    rcases newParent_cases new with ⟨rfl, rfl⟩ | ⟨at_inner, rfl⟩
    · have not_inner : inner ≠ some b := fun same => (freshInner b same).2 rfl
      simp [not_inner, unlistedTop a]
    · obtain ⟨absent, not_top⟩ := freshInner b at_inner
      have unlisted : ¬Child state a b := fun edge => listed a b edge absent
      simp [at_inner, not_top, unlisted]
  · intro k
    by_cases at_d : k = d
    · rw [at_d, put.nodup_iff, List.nodup_cons]
      exact ⟨unlistedTop d, distinct d⟩
    · by_cases here : state.entry k = none
      · by_cases at_top : k = top
        · rw [at_top, topList]
          cases inner with
          | none => exact List.nodup_nil
          | some b => exact List.nodup_singleton b
        · have empty : childrenOf next k = [] := by
            by_cases at_inner : inner = some k
            · exact innerList k at_inner
            · exact elsewhere k here at_top at_inner
          rw [empty]
          exact List.nodup_nil
      · rw [others k here at_d]
        exact distinct k

/-- The drawn ids are not in use, and differ from each other. -/
structure Fresh (layout : Layout) (ids : NanoIds) : Prop where
  unused : ∀ type nanoid, nanoid ∈ [ids.child, ids.probe, ids.row, ids.tab] →
    layout.entry (uuid type nanoid) = none
  distinct : [ids.child, ids.probe, ids.row, ids.tab].Nodup

theorem dash_not_in_name (type : ComponentType) : '-' ∉ type.name.toList := by
  cases type <;> decide

theorem nanoid_of_uuid {type other : ComponentType} {n m : String}
    (same : uuid type n = uuid other m) :
    n = m := by
  have rest : ∀ (kind : ComponentType) (nanoid : String),
      (uuid kind nanoid).toList.dropWhile (fun c => c ≠ '-') = '-' :: nanoid.toList := by
    intro kind nanoid
    have split : (uuid kind nanoid).toList = kind.name.toList ++ ('-' :: nanoid.toList) := by
      simp [uuid, String.toList_append]
    have name : ∀ c ∈ kind.name.toList, decide (c ≠ '-') = true := by
      intro c member
      rw [decide_eq_true_eq]
      rintro rfl
      exact dash_not_in_name kind member
    rw [split, List.dropWhile_append_of_pos name]
    simp
  have lists := rest type n
  rw [same, rest other m] at lists
  exact String.toList_injective (List.cons.inj lists).2.symm

variable {entities layout : Layout}

theorem entry_or_some {k : String} {component : LayoutItem}
    (found : entities.entry k = some component) :
    (Record.spread layout entities).entry k = some component := by
  rw [Record.entry_spread, found, Option.some_or]

theorem entry_or_none {k : String} (absent : entities.entry k = none) :
    (Record.spread layout entities).entry k = layout.entry k := by
  rw [Record.entry_spread, absent, Option.none_or]

theorem keyed_spread (keyedEntities : Keyed entities)
    (keyed : Keyed layout) : Keyed (Record.spread layout entities) := by
  intro k component found
  cases at_entities : entities.entry k with
  | none => exact keyed k component (by rw [← entry_or_none at_entities]; exact found)
  | some other =>
    rw [entry_or_some at_entities] at found
    cases found
    exact keyedEntities k _ at_entities

/-- Entities that are new to the layout: `top` and perhaps `inner` below it. -/
structure FreshTree (state entities : Layout) (top : String) (inner : Option String) : Prop where
  keyed : Keyed entities
  keys : ∀ k, entities.entry k ≠ none ↔ k = top ∨ inner = some k
  fresh : ∀ k, entities.entry k ≠ none → state.entry k = none
  differ : inner ≠ some top
  topList : childrenOf entities top = inner.toList
  innerList : ∀ k, inner = some k → childrenOf entities k = []

/-- The fresh entities spread over the layout, `top` being put below `d`. -/
theorem grafted_of_entities {entities : Layout} {dropEntity : LayoutItem} (index : Int)
    (keyed : Keyed state) (distinct : ∀ k, (childrenOf state k).Nodup)
    (listed : ∀ a b, Child state a b → state.entry b ≠ none)
    (at_drop : state.entry d = some dropEntity) (tree : FreshTree state entities top inner) :
    Grafted state (Record.spread state (entities.set d
      { dropEntity with children := splice dropEntity.children index 0 [top] })) d top inner := by
  obtain ⟨keyedEntities, keys, fresh, differ, topList, innerList⟩ := tree
  have destinationPresent : state.entry d ≠ none := by simp [at_drop]
  have d_absent : entities.entry d = none := by
    by_contra here
    exact destinationPresent (fresh d here)
  have old : ∀ k, state.entry k ≠ none → entities.entry k = none := by
    intro k present
    by_contra here
    exact present (fresh k here)
  have new : ∀ k component, entities.entry k = some component →
      (Record.spread state (entities.set d { dropEntity with
        children := splice dropEntity.children index 0 [top] })).entry k = some component := by
    intro k component found
    apply entry_or_some
    rw [Record.entry_set, if_neg]
    · exact found
    · rintro rfl
      rw [d_absent] at found
      cases found
  have at_d : (Record.spread state (entities.set d { dropEntity with
      children := splice dropEntity.children index 0 [top] })).entry d = some { dropEntity with
        children := splice dropEntity.children index 0 [top] } := by
    apply entry_or_some
    rw [Record.entry_set, if_pos rfl]
  have other : ∀ k, entities.entry k = none → k ≠ d →
      (Record.spread state (entities.set d { dropEntity with
        children := splice dropEntity.children index 0 [top] })).entry k = state.entry k := by
    intro k absent not_d
    apply entry_or_none
    rw [Record.entry_set, if_neg not_d]
    exact absent
  have lists : ∀ k, entities.entry k ≠ none → childrenOf (Record.spread state (entities.set d
      { dropEntity with children := splice dropEntity.children index 0 [top] })) k
        = childrenOf entities k := by
    intro k here
    obtain ⟨component, found⟩ := exists_entry here
    rw [childrenOf_of_entry (new k component found), childrenOf_of_entry found]
  refine grafted_of_planted distinct listed ?_ ?_ destinationPresent ?_ ?_ ?_ ?_ ?_ ?_ ?_ ?_ ?_
  · exact fresh top ((keys top).mpr (.inl rfl))
  · intro k at_inner
    refine ⟨fresh k ((keys k).mpr (.inr at_inner)), ?_⟩
    rintro rfl
    exact differ at_inner
  · exact keyed_spread (keyedEntities.set (keyed d dropEntity at_drop)) keyed
  · intro k present
    by_cases same : k = d
    · rw [same, typeOf_of_entry at_d, typeOf_of_entry at_drop]
    · unfold typeOf
      rw [other k (old k present) same]
  · intro k here absent
    by_cases same : k = d
    · exact (destinationPresent (same ▸ absent)).elim
    · apply (keys k).mp
      intro gone
      rw [other k gone same] at here
      exact here absent
  · obtain ⟨component, found⟩ := exists_entry ((keys top).mpr (.inl rfl))
    rw [new top component found]
    simp
  · intro k at_inner
    obtain ⟨component, found⟩ := exists_entry ((keys k).mpr (.inr at_inner))
    rw [new k component found]
    simp
  · rw [lists top ((keys top).mpr (.inl rfl)), topList]
  · intro k at_inner
    rw [lists k ((keys k).mpr (.inr at_inner)), innerList k at_inner]
  · rw [childrenOf_of_entry at_d, childrenOf_of_entry at_drop]
    exact JsArray.splice_insert_perm _ _ _
  · intro k present not_d
    unfold childrenOf
    rw [other k (old k present) not_d]

theorem typeOf_entities {entities : Layout} {item : LayoutItem}
    (destinationPresent : state.entry d ≠ none)
    (tree : FreshTree state entities top inner) {k : String} (here : entities.entry k ≠ none) :
    typeOf (Record.spread state (entities.set d item)) k = typeOf entities k := by
  obtain ⟨component, found⟩ := exists_entry here
  have at_k : (entities.set d item).entry k = some component := by
    rw [Record.entry_set, if_neg]
    · exact found
    · intro same
      exact destinationPresent (same ▸ tree.fresh k here)
  rw [typeOf_of_entry (entry_or_some at_k), typeOf_of_entry found]

variable {ids : NanoIds}

theorem sizedDropChild_spec {cache cacheAfter : ParentCache}
    {source : Option DropPlace} {destination : DropPlace} {dragging : Dragging}
    {dropEntity child : LayoutItem}
    (ran : sizedDropChild cache ids source destination dragging dropEntity state
      = some (child, cacheAfter)) :
    child.id = uuid dragging.type ids.child ∧ child.type = dragging.type ∧ child.children = [] := by
  unfold sizedDropChild at ran
  split at ran
  · cases source with
    | none => cases ran
    | some source =>
      dsimp only at ran
      split at ran
      · cases ran
      · cases ran
        exact ⟨rfl, rfl, rfl⟩
  · cases ran
    exact ⟨rfl, rfl, rfl⟩

theorem Fresh.at_child (fresh : Fresh state ids) (type : ComponentType) :
    state.entry (uuid type ids.child) = none := fresh.unused type ids.child (by simp)

theorem Fresh.at_row (fresh : Fresh state ids) (type : ComponentType) :
    state.entry (uuid type ids.row) = none := fresh.unused type ids.row (by simp)

theorem Fresh.at_tab (fresh : Fresh state ids) (type : ComponentType) :
    state.entry (uuid type ids.tab) = none := fresh.unused type ids.tab (by simp)

theorem Fresh.child_ne_row (fresh : Fresh state ids) (a b : ComponentType) :
    uuid a ids.child ≠ uuid b ids.row := by
  intro same
  have ends := nanoid_of_uuid same
  have distinct := fresh.distinct
  simp [ends] at distinct

theorem Fresh.child_ne_tab (fresh : Fresh state ids) (a b : ComponentType) :
    uuid a ids.child ≠ uuid b ids.tab := by
  intro same
  have ends := nanoid_of_uuid same
  have distinct := fresh.distinct
  simp [ends] at distinct

theorem keyed_empty : Keyed Record.empty := by
  intro k component found
  cases found

theorem entry_ne_none_set {layout : Layout} {key k : String} {component : LayoutItem} :
    (layout.set key component).entry k ≠ none ↔ k = key ∨ layout.entry k ≠ none := by
  rw [Record.entry_set]
  split
  · rename_i at_key
    simp [at_key]
  · rename_i not_key
    simp [not_key]

theorem freshTree_single {child : LayoutItem} {n : String} (at_id : child.id = n)
    (fresh : state.entry n = none) (leaf : child.children = []) :
    FreshTree state (Record.empty.set n child) n none where
  keyed := keyed_empty.set at_id
  keys k := by
    rw [entry_ne_none_set]
    simp
  fresh k here := by
    rw [entry_ne_none_set] at here
    simp only [Record.entry_empty, ne_eq, not_true_eq_false, or_false] at here
    rw [here]
    exact fresh
  differ := by simp
  topList := by
    rw [childrenOf_set, if_pos rfl, leaf]
    rfl
  innerList k at_inner := by cases at_inner

theorem freshTree_pair {entities : Layout} (upper lower : LayoutItem) {top k : String}
    (at_top : upper.id = top) (at_k : lower.id = k) (freshTop : state.entry top = none)
    (freshLower : state.entry k = none) (differ : k ≠ top) (list : upper.children = [k])
    (leaf : lower.children = [])
    (entries : ∀ j, entities.entry j
      = if j = top then some upper else if j = k then some lower else none) :
    FreshTree state entities top (some k) where
  keyed := by
    intro j component found
    rw [entries] at found
    split at found
    · rename_i same
      cases found
      rw [at_top, same]
    · split at found
      · rename_i same
        cases found
        rw [at_k, same]
      · cases found
  keys j := by
    rw [entries, Option.some_inj]
    split
    · simp_all
    · split
      · simp_all
      · rename_i not_top not_k
        simp [not_top, Ne.symm not_k]
  fresh j here := by
    rw [entries] at here
    split at here
    · rename_i same
      rw [same]
      exact freshTop
    · split at here
      · rename_i same
        rw [same]
        exact freshLower
      · exact (here rfl).elim
  differ := by
    intro same
    exact differ (Option.some.inj same)
  topList := by
    have found : entities.entry top = some upper := by rw [entries, if_pos rfl]
    rw [childrenOf_of_entry found, list]
    rfl
  innerList j at_inner := by
    cases at_inner
    have found : entities.entry k = some lower := by rw [entries, if_neg differ, if_pos rfl]
    rw [childrenOf_of_entry found, leaf]

/-- The entities a drop creates are new, and neither the top one in the drop entity
nor the inner one in the top one has to be wrapped. -/
theorem entitiesAround_freshTree {dragType : ComponentType}
    (dropEntity : LayoutItem) {child : LayoutItem} (fresh : Fresh state ids)
    (at_id : child.id = uuid dragType ids.child) (childType : child.type = dragType)
    (leaf : child.children = []) :
    ∃ inner, FreshTree state (entitiesAround ids dragType dropEntity child).1
        (entitiesAround ids dragType dropEntity child).2 inner
      ∧ (∀ type, typeOf (entitiesAround ids dragType dropEntity child).1
          (entitiesAround ids dragType dropEntity child).2 = some type →
            shouldWrapChildInRow dropEntity.type type = false)
      ∧ (∀ k, inner = some k → Wrapped (entitiesAround ids dragType dropEntity child).1
          (entitiesAround ids dragType dropEntity child).2 k) := by
  unfold entitiesAround
  split
  · have rowType : typeOf ((Record.empty.set child.id { child with
        parents := (rowWrapper ids dropEntity child).parents ++
          [(rowWrapper ids dropEntity child).id]
        }).set (rowWrapper ids dropEntity child).id (rowWrapper ids dropEntity child))
          (rowWrapper ids dropEntity child).id = some .row := by
      rw [typeOf_set, if_pos rfl]
      rfl
    refine ⟨some child.id, ?_, ?_, ?_⟩
    · refine freshTree_pair (rowWrapper ids dropEntity child)
        { child with parents := (rowWrapper ids dropEntity child).parents
          ++ [(rowWrapper ids dropEntity child).id] } rfl rfl (fresh.at_row .row) ?_ ?_ rfl leaf ?_
      · rw [at_id]
        exact fresh.at_child dragType
      · rw [at_id]
        exact fresh.child_ne_row dragType .row
      · intro j
        rw [Record.entry_set, Record.entry_set, Record.entry_empty]
    · intro type found
      rw [rowType] at found
      cases found
      simp [shouldWrapChildInRow]
    · intro k _
      exact wrapped_row_parent rowType
  · rename_i unwrapped
    split
    · rename_i tabs
      have differ : child.id ≠ (tabChild ids dropEntity).id := by
        rw [at_id]
        exact fresh.child_ne_tab dragType .tab
      have topType : typeOf ((Record.empty.set child.id
          { child with children := [(tabChild ids dropEntity).id] }).set
            (tabChild ids dropEntity).id
            (tabChild ids dropEntity)) child.id = some dragType := by
        rw [typeOf_set, if_neg differ, typeOf_set, if_pos rfl, childType]
      refine ⟨some (tabChild ids dropEntity).id, ?_, ?_, ?_⟩
      · refine freshTree_pair { child with children := [(tabChild ids dropEntity).id] }
          (tabChild ids dropEntity) rfl rfl ?_ (fresh.at_tab .tab) differ.symm rfl rfl ?_
        · rw [at_id]
          exact fresh.at_child dragType
        · intro j
          rw [Record.entry_set, Record.entry_set, Record.entry_empty]
          by_cases at_tab : j = (tabChild ids dropEntity).id
          · rw [if_pos at_tab, if_neg (at_tab ▸ differ.symm), if_pos at_tab]
          · rw [if_neg at_tab, if_neg at_tab]
      · intro type found
        rw [topType] at found
        cases found
        simpa using unwrapped
      · intro k at_k
        cases at_k
        have tabType : typeOf ((Record.empty.set child.id
            { child with children := [(tabChild ids dropEntity).id] }).set
              (tabChild ids dropEntity).id
              (tabChild ids dropEntity)) (tabChild ids dropEntity).id = some .tab := by
          rw [typeOf_set, if_pos rfl]
          rfl
        exact wrapped_of_not_should topType tabType (by simp [tabs, shouldWrapChildInRow])
    · refine ⟨none, freshTree_single rfl ?_ leaf, ?_, ?_⟩
      · rw [at_id]
        exact fresh.at_child dragType
      · intro type found
        rw [typeOf_set, if_pos rfl, childType] at found
        cases found
        simpa using unwrapped
      · intro k at_k
        cases at_k

/-- Creating hangs a fresh component into the destination, in a row of its own or with
a tab of its own where it needs one. -/
theorem createComponent_grafted {cache : ParentCache} {dragging : Dragging}
    {source : DropPlace} {destination : DropPlace} {position : Option DropPosition}
    (keyed : Keyed state) (distinct : ∀ k, (childrenOf state k).Nodup)
    (listed : ∀ a b, Child state a b → state.entry b ≠ none) (fresh : Fresh state ids)
    (destinationPresent : state.entry destination.id ≠ none)
    (sized : componentIsResizable dragging.type = true →
      ∃ width, getComponentWidthFromDrop cache source destination
        (draggedComponent ids source dragging state) state = some width) :
    ∃ next cacheAfter top inner,
      createComponent cache ids ⟨some source, some destination, some dragging, position⟩ state
        = some (next, cacheAfter)
      ∧ Grafted state next destination.id top inner
      ∧ (∀ k, k = top ∨ inner = some k → state.entry k = none)
      ∧ (∀ k p, newParent destination.id top inner k = some p → Wrapped next p k) := by
  obtain ⟨dropEntity, at_drop⟩ := exists_entry destinationPresent
  have ranChild : ∃ child cacheAfter, sizedDropChild cache ids (some source) destination dragging
      dropEntity state = some (child, cacheAfter) := by
    unfold sizedDropChild
    split
    · rename_i resizable
      obtain ⟨⟨width, later⟩, found⟩ := sized resizable
      dsimp only
      rw [found]
      exact ⟨_, _, rfl⟩
    · exact ⟨_, _, rfl⟩
  obtain ⟨child, cacheAfter, ranChild⟩ := ranChild
  obtain ⟨at_id, childType, leaf⟩ := sizedDropChild_spec ranChild
  obtain ⟨inner, tree, topBare, innerWrapped⟩ :=
    entitiesAround_freshTree dropEntity fresh at_id childType leaf
  have grafted := grafted_of_entities destination.index keyed distinct listed at_drop tree
  refine ⟨_, cacheAfter, _, inner, ?_, grafted, ?_, ?_⟩
  · unfold createComponent newEntitiesFromDrop
    dsimp only
    rw [at_drop]
    dsimp only
    rw [ranChild]
  · intro k new
    exact tree.fresh k ((tree.keys k).mpr new)
  · have topPresent := (tree.keys _).mpr (.inl rfl)
    intro k p new
    rcases newParent_cases new with ⟨rfl, rfl⟩ | ⟨at_inner, rfl⟩
    · obtain ⟨component, found⟩ := exists_entry topPresent
      refine wrapped_of_not_should ?_ ?_ (topBare component.type (typeOf_of_entry found))
      · rw [grafted.kept _ destinationPresent, typeOf_of_entry at_drop]
      · rw [typeOf_entities destinationPresent tree topPresent, typeOf_of_entry found]
    · intro parentType innerType found foundInner
      rw [typeOf_entities destinationPresent tree topPresent] at found
      rw [typeOf_entities destinationPresent tree ((tree.keys k).mpr (.inr at_inner))] at foundInner
      exact innerWrapped k at_inner parentType innerType found foundInner

end Create

end Liteset.Dashboard
