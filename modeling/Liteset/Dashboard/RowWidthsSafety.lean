import Liteset.Dashboard.RowWidths

/-!
# Drops that fit keep the rows within their widths

Creating and moving a component as one drop with a width, and when the rows fit after it.
-/

set_option autoImplicit false

namespace Liteset.Dashboard

open Lib
open Lib.JsObject (Record)
open Lib.Forest (Under)

section Frames
variable {layout state middle next : Layout} {key : String} {component : LayoutItem}
    {cache cacheAfter : ParentCache} {ids : NanoIds}
  {source destination : DropPlace} {dragging : Dragging} {position : Option DropPosition}

theorem widthAt_of_entry (found : layout.entry key = some component) :
    widthAt layout key = widthOf component.metadata := by
  rw [widthAt, found]
  rfl

theorem widthAt_set (k : String) :
    widthAt (layout.set key component) k = if k = key then widthOf component.metadata
    else widthAt layout k := by
  unfold widthAt
  rw [Record.entry_set]
  split <;> rfl

theorem widthAt_setChildren (found : layout.entry key = some component) (list : List String)
    (k : String) :
    widthAt (layout.set key { component with children := list }) k = widthAt layout k := by
  rw [widthAt_set]
  split
  · next same => rw [same, widthAt_of_entry found]
  · rfl

theorem reorderItem_frame (ran : reorderItem state source destination position = some next)
    (k : String) :
    typeOf next k = typeOf state k ∧ widthAt next k = widthAt state k := by
  unfold reorderItem at ran
  split at ran
  · next current receiving at_current at_next =>
    split at ran
    · unfold reorderSameList at ran
      split at ran
      · cases ran
        exact ⟨rfl, rfl⟩
      · split at ran
        · cases ran
        · cases ran
          exact ⟨typeOf_set_entry at_current k, widthAt_setChildren at_current _ k⟩
    · next different =>
      split at ran
      · cases ran
      · cases ran
        have later (item : LayoutItem) :
            (state.set source.id item).entry destination.id = some receiving := by
          rw [Record.entry_set, if_neg (Ne.symm different)]
          exact at_next
        rw [typeOf_set_entry (later _), typeOf_set_entry at_current, widthAt_setChildren (later _),
          widthAt_setChildren at_current]
        exact ⟨rfl, rfl⟩
  · cases ran

theorem widthOf_withWidth (metadata : JsObject.Object) (width : Option Int) :
    widthOf (withWidth metadata width) = width := by
  have held : JsObject.get (withWidth metadata width) "width" = width.map Json.int := by
    rw [withWidth, JsObject.get_spread_of_has (JsObject.has_single_iff.mpr rfl),
      JsObject.get_single_self]
  rw [widthOf, held]
  cases width <;> rfl

def Resized (cache : ParentCache) (ids : NanoIds) (source destination : DropPlace)
    (dragging : Dragging) (state : Layout)
    (width : Option Int) : Prop :=
  if componentIsResizable dragging.type then ∃ w cacheAfter,
    getComponentWidthFromDrop cache source destination
    (draggedComponent ids source dragging state) state = some (w, cacheAfter) ∧
    width = nonzeroWidth w
  else width = widthAt state dragging.id

theorem resizeDragged_frame
    (ran : resizeDragged cache ids source destination dragging state middle =
      some (next, cacheAfter))
    (type : typeOf middle dragging.id = some dragging.type)
    (same : widthAt middle dragging.id = widthAt state dragging.id) :
    (∀ k, k ≠ dragging.id → widthAt next k = widthAt middle k) ∧
      Resized cache ids source destination dragging state (widthAt next dragging.id) := by
  obtain ⟨dragged, found, isType⟩ := Option.map_eq_some_iff.mp type
  unfold resizeDragged at ran
  unfold Resized
  rw [found] at ran
  dsimp only at ran
  rw [isType] at ran
  split at ran
  · next resizable =>
    rw [if_pos resizable]
    split at ran
    · cases ran
    · next width later measured =>
      split at ran
      · cases ran
        refine ⟨fun k other => by rw [widthAt_set, if_neg other], width, _, measured, ?_⟩
        rw [widthAt_set, if_pos rfl, widthOf_withWidth]
      · next unchanged =>
        cases ran
        exact ⟨fun _ _ => rfl, width, _, measured,
          (widthAt_of_entry found).trans (not_not.mp unchanged)⟩
  · next fixed =>
    cases ran
    rw [if_neg fixed]
    exact ⟨fun _ _ => rfl, same⟩

theorem wrapInRow_frame (ran : wrapInRow ids destination middle = some next)
    (fresh : middle.entry (uuid .row ids.row) = none)
    (k : String) : widthAt next k = widthAt middle k ∧
    (middle.entry k = none → next.entry k ≠ none → typeOf next k = some .row) := by
  unfold wrapInRow at ran
  split at ran
  · cases ran
  · next entity found =>
    split at ran
    · cases ran
    · cases ran
      have isId (childId : String) :
        (newRow ids entity destination.id childId).id = uuid .row ids.row := rfl
      rw [widthAt_set, widthAt_setChildren found, isId]
      by_cases same : k = uuid .row ids.row
      · rw [if_pos same, same,
          show widthAt middle (uuid .row ids.row) = none by simp [widthAt, fresh]]
        refine ⟨rfl, fun _ _ => ?_⟩
        rw [typeOf_set, if_pos rfl]
        rfl
      · rw [if_neg same]
        refine ⟨rfl, fun absent here => absurd ?_ here⟩
        rw [Record.entry_set, if_neg same, Record.entry_set,
          if_neg (fun at_d : k = destination.id => ?_), absent]
        rw [at_d, found] at absent
        cases absent

theorem moveComponent_frame
    (ran : moveComponent cache ids ⟨some source, some destination, some dragging, position⟩ state =
      some (next, cacheAfter))
    (type : typeOf state dragging.id = some dragging.type)
    (fresh : state.entry (uuid .row ids.row) = none) :
    (∀ k, k ≠ dragging.id → widthAt next k = widthAt state k) ∧
      Resized cache ids source destination dragging state (widthAt next dragging.id) ∧
      ∀ k, state.entry k = none → next.entry k ≠ none → wrapsDropped destination dragging = true ∧
      typeOf next k = some .row := by
  unfold moveComponent at ran
  dsimp only at ran
  split at ran
  · cases ran
  · next reordered moved =>
    have frame := reorderItem_frame moved
    split at ran
    · cases ran
    · next resized later sized =>
      obtain ⟨others, own⟩ := resizeDragged_frame sized ((frame _).1.trans type) (frame _).2
      have absent (k : String) : resized.entry k = none ↔ state.entry k = none := by
        rw [(resizeDragged_sameTree sized).entry_iff, ← typeOf_eq_none, (frame k).1, typeOf_eq_none]
      split at ran
      · next wraps =>
        split at ran
        · cases ran
        · next wrapped ranWrap =>
          cases ran
          have same := wrapInRow_frame ranWrap ((absent _).mpr fresh)
          refine ⟨fun k other => (same k).1.trans ((others k other).trans (frame k).2), ?_,
            fun k old new => ⟨wraps, (same k).2 ((absent k).mpr old) new⟩⟩
          rw [(same dragging.id).1]
          exact own
      · cases ran
        refine ⟨fun k other => (others k other).trans (frame k).2, own, fun k old new => ?_⟩
        exact absurd ((absent k).mpr old) new

theorem entitiesAround_entry {dragType : ComponentType} {dropEntity child found : LayoutItem}
    {j : String}
    (at_j : (entitiesAround ids dragType dropEntity child).1.entry j = some found) :
    j = child.id ∧ widthOf found.metadata = widthOf child.metadata ∧ found.type = child.type ∨
      widthOf found.metadata = none ∧
      (found.type = .row → j = (entitiesAround ids dragType dropEntity child).2) := by
  revert at_j
  unfold entitiesAround
  split
  · intro at_j
    rw [Record.entry_set, Record.entry_set, Record.entry_empty] at at_j
    split at at_j
    · next isRow =>
      cases at_j
      exact .inr ⟨rfl, fun _ => isRow⟩
    · split at at_j
      · next isChild =>
        cases at_j
        exact .inl ⟨isChild, rfl, rfl⟩
      · cases at_j
  · split
    · intro at_j
      rw [Record.entry_set, Record.entry_set, Record.entry_empty] at at_j
      split at at_j
      · cases at_j
        exact .inr ⟨rfl, fun isRow => by cases isRow⟩
      · split at at_j
        · next isChild =>
          cases at_j
          exact .inl ⟨isChild, rfl, rfl⟩
        · cases at_j
    · intro at_j
      rw [Record.entry_set, Record.entry_empty] at at_j
      split at at_j
      · next isChild =>
        cases at_j
        exact .inl ⟨isChild, rfl, rfl⟩
      · cases at_j

theorem createComponent_dropped (wellFormed : WellFormed state) (fresh : Fresh state ids)
    {dropEntity : LayoutItem}
    (at_drop : state.entry destination.id = some dropEntity)
    (ran : createComponent cache ids
      ⟨some source, some destination, some dragging, position⟩ state = some (next, cacheAfter)) :
    ∃ top inner child later,
      sizedDropChild cache ids (some source) destination dragging dropEntity state =
        some (child, later) ∧
      Dropped state next destination.id top inner (uuid dragging.type ids.child)
        (widthOf child.metadata) ∧
      typeOf next (uuid dragging.type ids.child) = some dragging.type ∧
      (inner = some (uuid dragging.type ids.child) →
        shouldWrapChildInRow dropEntity.type dragging.type = true) ∧
      (inner ≠ some (uuid dragging.type ids.child) → top = uuid dragging.type ids.child) := by
  unfold createComponent newEntitiesFromDrop at ran
  dsimp only at ran
  rw [at_drop] at ran
  dsimp only at ran
  cases ranChild : sizedDropChild cache ids (some source) destination dragging dropEntity state with
  | none =>
    rw [ranChild] at ran
    cases ran
  | some made =>
    obtain ⟨child, later⟩ := made
    rw [ranChild] at ran
    cases ran
    obtain ⟨at_id, childType, leaf⟩ := sizedDropChild_spec ranChild
    obtain ⟨inner, tree, _⟩ := entitiesAround_freshTree dropEntity fresh at_id childType leaf
    have present : state.entry destination.id ≠ none := by simp [at_drop]
    have grafted :=
      grafted_of_entities destination.index wellFormed.keyed wellFormed.distinct wellFormed.listed
        at_drop tree
    have d_fresh : (entitiesAround ids dragging.type dropEntity child).1.entry destination.id =
        none := by
      by_contra here
      exact present (tree.fresh _ here)
    have own : ∃ found, (entitiesAround ids dragging.type dropEntity child).1.entry child.id =
      some found ∧ found.type = child.type ∧
        widthOf found.metadata = widthOf child.metadata := by
      unfold entitiesAround
      split
      · have other : child.id ≠ (rowWrapper ids dropEntity child).id :=
          at_id ▸ fresh.child_ne_row dragging.type .row
        rw [Record.entry_set, if_neg other, Record.entry_set, if_pos rfl]
        exact ⟨_, rfl, rfl, rfl⟩
      · split
        · have other : child.id ≠ (tabChild ids dropEntity).id :=
            at_id ▸ fresh.child_ne_tab dragging.type .tab
          rw [Record.entry_set, if_neg other, Record.entry_set, if_pos rfl]
          exact ⟨_, rfl, rfl, rfl⟩
        · rw [Record.entry_set, if_pos rfl]
          exact ⟨_, rfl, rfl, rfl⟩
    obtain ⟨found, at_child, sameType, sameWidth⟩ := own
    have here : (entitiesAround ids dragging.type dropEntity child).1.entry child.id ≠ none := by
      simp [at_child]
    have dropped := (tree.keys child.id).mp here
    have width (k : String) (item : LayoutItem)
      (at_k : (entitiesAround ids dragging.type dropEntity child).1.entry k = some item)
        (list : List String) :
        widthAt (Record.spread state
          ((entitiesAround ids dragging.type dropEntity child).1.set destination.id
          { dropEntity with children := list })) k = widthOf item.metadata := by
      have other : k ≠ destination.id := by
        rintro rfl
        rw [d_fresh] at at_k
        cases at_k
      rw [widthAt, Record.entry_spread, Record.entry_set, if_neg other, at_k]
      rfl
    rw [← at_id]
    refine ⟨_, inner, child, _, rfl,
      ⟨grafted, dropped.imp Eq.symm id, fun k new _ => tree.fresh k ((tree.keys k).mpr new),
        ?_, ?_, ?_⟩, ?_, ?_, ?_⟩
    · rw [width child.id found at_child, sameWidth]
    · intro k other
      by_cases new : (entitiesAround ids dragging.type dropEntity child).1.entry k = none
      · rw [widthAt, Record.entry_spread, Record.entry_set]
        split
        · next same =>
          rw [same, widthAt_of_entry at_drop]
          rfl
        · rw [new]
          rfl
      · obtain ⟨item, at_k⟩ := exists_entry new
        obtain ⟨isChild, _⟩ | ⟨none, _⟩ := entitiesAround_entry at_k
        · exact absurd isChild other
        · rw [width k item at_k, none, widthAt, tree.fresh k new]
          rfl
    · intro k other old isRow
      have new : (entitiesAround ids dragging.type dropEntity child).1.entry k ≠ none := by
        intro absent
        obtain ⟨item, found, _⟩ := Option.map_eq_some_iff.mp isRow
        rw [Record.entry_spread, Record.entry_set,
          if_neg (fun same : k = destination.id => present (same ▸ old)), absent,
          old] at found
        cases found
      obtain ⟨item, at_k⟩ := exists_entry new
      rw [typeOf_entities present tree new, typeOf_of_entry at_k] at isRow
      obtain ⟨isChild, _⟩ | ⟨_, isTop⟩ := entitiesAround_entry at_k
      · exact absurd isChild other
      · have top := isTop (Option.some.inj isRow)
        exact ⟨top, dropped.resolve_left fun isChild => other (top.trans isChild.symm)⟩
    · rw [typeOf_entities present tree here, typeOf_of_entry at_child, sameType, childType]
    · intro isInner
      by_contra bare
      refine tree.differ (isInner.trans (congrArg some ?_))
      unfold entitiesAround
      rw [if_neg bare]
      split <;> rfl
    · intro other
      exact (dropped.resolve_right other).symm

end Frames

section Sizes
variable {layout : Layout} {source destination : DropPlace} {component place : LayoutItem}
    {x top q : String}
  {inner : Option String} {cache cacheAfter : ParentCache} {w : Option Int}

theorem drop_cases (resizable : componentIsResizable component.type = true)
    (other : source.id ≠ destination.id)
    (ran : getComponentWidthFromDrop cache source destination (some component) layout =
      some (w, cacheAfter))
    (accepted : ∀ n, w = some n → 0 ≤ n) : ∃ room first last least,
      destinationCapacity first destination.id layout = some (room, last) ∧ 1 ≤ least ∧
      (component.type = .column → ∀ r ∈ component.children, typeOf layout r = some .row →
        getTotalChildWidth r layout ≤ least) ∧
      (w = widthOf component.metadata ∧
        (∀ n m, room = some n → widthOf component.metadata = some m → m ≤ n) ∨
        ∃ n m, room = some n ∧ widthOf component.metadata = some m ∧ w = some n ∧ least ≤ n ∧
        n < m) := by
  have notRow : component.type ≠ .row := by
    intro isRow
    rw [isRow] at resizable
    cases resizable
  unfold getComponentWidthFromDrop at ran
  rw [if_neg other] at ran
  split at ran
  · cases ran
  · next dragged later climbed =>
    obtain ⟨width, _, minimum⟩ := detailed_plain notRow climbed
    obtain ⟨least, isLeast, isMinimum⟩ := minimum resizable
    split at ran
    · cases ran
    · next room last measured =>
      cases ran
      rw [width, isLeast] at accepted ⊢
      refine ⟨room, _, _, least, measured, ?_, ?_, fittingWidth_cases accepted rfl⟩
      · split at isMinimum
        · exact (widestRow_ge isMinimum).1
        · omega
      · intro isColumn
        rw [if_pos isColumn] at isMinimum
        exact (widestRow_ge isMinimum).2

theorem makes_resized (top : String) (inner : Option String) (wellFormed : WellFormed layout)
    (nested : Nested layout) (sized : Sized layout) (fit : RowsFit layout)
    (resizable : componentIsResizable component.type = true)
    (held : layout.entry x = some component ∨ layout.entry x = none)
    (positive : ∀ n, widthOf component.metadata = some n → 1 ≤ n)
    (other : source.id ≠ destination.id)
    (ran : getComponentWidthFromDrop cache source destination (some component) layout =
      some (w, cacheAfter))
    (accepted : ∀ n, w = some n → 0 ≤ n) (found : layout.entry destination.id = some place)
    (shape : inner = some x → shouldWrapChildInRow place.type component.type = true)
    (grid : widthAt layout destination.id = none →
      shouldWrapChildInRow place.type component.type = true →
      (widthOf component.metadata).getD 0 ≤ gridColumnCount) :
    Makes layout destination.id top inner x (some component.type) w ∧ ∀ n, w = some n → 1 ≤ n := by
  obtain ⟨room, first, last, least, measured, one, rows, size⟩ :=
    drop_cases resizable other ran accepted
  refine ⟨⟨fun isRow _ =>
    .inr fun p edge => ?_,
    fun isInner => ?_, fun isRow => ?_, fun r edge isRow => ?_⟩, fun n isWidth => ?_⟩
  · have fits := fit p destination.id edge isRow
    have isRoom := capacity_row wellFormed nested sized edge isRow measured
    obtain ⟨isOwn, enough⟩ | ⟨n, m, isN, _, isWidth, _⟩ := size
    · rw [isOwn]
      cases own : widthOf component.metadata with
      | none => simpa using fits
      | some m =>
        have fitsOwn := enough _ m isRoom own
        simp only [Option.getD_some]
        omega
    · rw [isRoom] at isN
      cases isN
      rw [isWidth, Option.getD_some]
      omega
  · have wraps := shape isInner
    have kinds : place.type ≠ .row ∧ place.type ≠ .column := by
      revert wraps
      cases place.type <;> simp [shouldWrapChildInRow]
    cases isPlace : widthAt layout destination.id with
    | none =>
      have bound := grid isPlace wraps
      rw [availableBelow, isPlace, Option.getD_none]
      obtain ⟨isOwn, _⟩ | ⟨n, m, _, own, isWidth, _, less⟩ := size
      · rwa [isOwn]
      · rw [own, Option.getD_some] at bound
        rw [isWidth, Option.getD_some]
        omega
    | some n =>
      have isRoom := capacity_sized found kinds.1 isPlace measured
      rw [if_neg kinds.2] at isRoom
      obtain ⟨isOwn, enough⟩ | ⟨n', m, isN, own, isWidth, atLeast, less⟩ := size
      · rw [isOwn]
        cases own : widthOf component.metadata with
        | none => exact le_trans (by decide) (sized.available _)
        | some m =>
          have none := enough 0 m isRoom own
          have some := positive m own
          omega
      · rw [isRoom] at isN
        cases isN
        omega
  · rw [Option.some.inj isRow] at resizable
    cases resizable
  · obtain found | absent := held
    · have member : r ∈ component.children := by rwa [← childrenOf_of_entry found]
      obtain ⟨depth, valid⟩ := nested x r .row edge isRow
      have isColumn : component.type = .column := by
        rw [typeOf_of_entry found] at valid
        revert valid resizable
        cases component.type <;> simp [isValidChild, parentMaxDepthLookup, componentIsResizable]
      obtain ⟨isOwn, _⟩ | ⟨n, m, _, _, isWidth, atLeast, _⟩ := size
      · rw [isOwn, ← widthAt_of_entry found]
        exact fit x r edge isRow
      · rw [isWidth]
        exact (rows isColumn r member isRow).trans atLeast
    · exact absurd absent (entry_of_child edge)
  · obtain ⟨isOwn, _⟩ | ⟨n', m, _, _, isN, atLeast, _⟩ := size
    · exact positive n (isOwn ▸ isWidth)
    · rw [isN] at isWidth
      cases isWidth
      omega

theorem makes_unchanged (fit : RowsFit layout) (type : Option ComponentType)
    (inRow : typeOf layout destination.id = some .row → top = x → Child layout destination.id x)
    (inner_ne : inner ≠ some x)
    (row : type = some .row → top = x ∧ getTotalChildWidth x layout ≤
      availableBelow layout destination.id) :
    Makes layout destination.id top inner x type (widthAt layout x) where
  inRow isRow isTop := .inl ⟨inRow isRow isTop, rfl⟩
  inFreshRow isInner := absurd isInner inner_ne
  row := row
  below r edge isRow := fit x r edge isRow

theorem row_fits (wellFormed : WellFormed layout) (nested : Nested layout) (sized : Sized layout)
    (fit : RowsFit layout)
    (edge : Child layout q x) (isRow : typeOf layout x = some .row)
    (other : source.id ≠ destination.id)
    (ran : getComponentWidthFromDrop cache source destination (layout.entry x) layout =
      some (w, cacheAfter))
    (accepted : ∀ n, w = some n → 0 ≤ n) (found : layout.entry destination.id = some place)
    (notRow : place.type ≠ .row) {n : Int}
    (held : widthAt layout destination.id = some n) : getTotalChildWidth x layout ≤ n := by
  obtain ⟨row, at_x, type⟩ := Option.map_eq_some_iff.mp isRow
  have fits := fit q x edge isRow
  have positive := sized.positive held
  unfold getComponentWidthFromDrop at ran
  rw [if_neg other, at_x] at ran
  split at ran
  · cases ran
  · next dragged later climbed =>
    obtain ⟨width, _, minimum⟩ := detailed_row wellFormed nested sized edge at_x type climbed
    split at ran
    · cases ran
    · next room last measured =>
      cases ran
      rw [width, minimum] at accepted
      have isRoom := capacity_sized found notRow held measured
      have least : getTotalChildWidth x layout ≤
          widthOr (some (getTotalChildWidth x layout)) gridMinColumnCount := by
        unfold widthOr
        dsimp only
        split
        · next none =>
          rw [none]
          decide
        · exact le_refl _
      obtain ⟨_, enough⟩ | ⟨m, _, isM, _, _, atLeast, _⟩ := fittingWidth_cases accepted rfl
      · have room := enough _ _ isRoom rfl
        split at room <;> omega
      · rw [isRoom] at isM
        cases isM
        split at atLeast <;> omega

theorem keepsMinimum_of_fit (fit : RowsFit layout)
    (positive : ∀ k component n, layout.entry k = some component →
    componentIsResizable component.type = true → widthOf component.metadata = some n → 1 ≤ n) :
    KeepsMinimum layout := by
  intro k component width least found resizable own minimum
  have notRow : component.type ≠ .row := by
    intro isRow
    rw [isRow] at resizable
    cases resizable
  obtain ⟨⟨detailed, later⟩, climbed, isLeast⟩ := Option.bind_eq_some_iff.mp minimum
  obtain ⟨least', isLeast', isMinimum⟩ := (detailed_plain notRow climbed).2.2 resizable
  rw [show detailed.minimumWidth = some least from isLeast] at isLeast'
  cases isLeast'
  have one := positive k component width found resizable own
  split at isMinimum
  · refine widestRow_le (fun r member isRow => ?_) isMinimum one
    have fits := fit k r (child_of_entry found member) isRow
    rwa [availableBelow, widthAt_of_entry found, own] at fits
  · omega

end Sizes

/-- The drop target takes components of the type, and the id that stands for new
components is of none in the layout. -/
structure Allowed (layout : Layout) (dropResult : DropResult) : Prop where
  admits : ∀ destination dragging, dropResult.destination = some destination →
    dropResult.dragging = some dragging →
    Admits layout destination.id dragging.type
  reserved : layout.entry newComponentsSourceId = none

section Drops
variable {store : Store} {dropResult : DropResult} {ids : NanoIds} {cache : ParentCache}

theorem accepted_of_room (wellFormed : WellFormed store.layout) {source destination : DropPlace}
    {dragging : Dragging}
    {position : Option DropPosition}
    (room : dropOverflowsParent ids ⟨some source, some destination, some dragging, position⟩ store =
      some (false, cache))
    {other later : ParentCache} {w : Option Int}
    (ran : getComponentWidthFromDrop other source destination
      (draggedComponent ids source dragging store.layout) store.layout = some (w, later)) :
      ∀ n, w = some n → 0 ≤ n := by
  unfold dropOverflowsParent at room
  obtain ⟨⟨w', after⟩, measured, answer⟩ := Option.map_eq_some_iff.mp room
  have same := dropWidth_cache wellFormed store.cache other source destination
    (draggedComponent ids source dragging store.layout)
  rw [measured, ran] at same
  cases same
  rintro n rfl
  have notLess := congrArg Prod.fst answer
  simpa using notLess

theorem nonzeroWidth_of_positive {w : Option Int} (positive : ∀ n, w = some n → 1 ≤ n) :
    nonzeroWidth w = w := by
  unfold nonzeroWidth
  split
  · exact absurd (positive 0 rfl) (by decide)
  · rfl

theorem resizable_of_row {layout : Layout} {d : String} {type : ComponentType}
    (admits : Admits layout d type)
    (isRow : typeOf layout d = some .row) : componentIsResizable type = true := by
  obtain ⟨depth, valid⟩ := admits
  rw [isRow] at valid
  revert valid
  cases type <;> simp [isValidChild, parentMaxDepthLookup, componentIsResizable]

theorem resizable_of_wrap {parent child : ComponentType}
    (wraps : shouldWrapChildInRow parent child = true) :
    componentIsResizable child = true := by
  revert wraps
  cases child <;> simp [shouldWrapChildInRow, componentIsResizable]

theorem create_fits (wellFormed : WellFormed store.layout) (anchored : Anchored store.layout)
    (nested : Nested store.layout)
    (sized : Sized store.layout) (fit : RowsFit store.layout)
    (named : Named store.layout (.createComponent dropResult ids))
    (shown : Shown store.layout (.createComponent dropResult ids))
    (allowed : Allowed store.layout dropResult)
    (room : dropOverflowsParent ids dropResult store = some (false, cache)) :
    ∃ next, Store.reduce { store with cache := cache } (.createComponent dropResult ids) =
      some next ∧
      RowsFit next.layout ∧ KeepsMinimum next.layout := by
  obtain ⟨after, cacheAfter, ran, _⟩ :=
    @createComponent_yields store.layout cache _ _ wellFormed anchored named shown
  obtain ⟨fresh, source, destination, dragging, at_source, at_destination, at_dragging, new,
    real⟩ := named
  have admits := allowed.admits destination dragging at_destination at_dragging
  obtain ⟨_, _, _, position⟩ := dropResult
  cases at_source
  cases at_destination
  cases at_dragging
  obtain ⟨place, found⟩ := exists_entry real.present
  have otherPlace : source.id ≠ destination.id := by
    rw [new]
    exact fun same => real.present (same ▸ allowed.reserved)
  obtain ⟨top, inner, child, later, made, drop, isType, wraps, isTop⟩ :=
    createComponent_dropped wellFormed fresh found ran
  have absent : store.layout.entry (uuid dragging.type ids.child) = none :=
    fresh.at_child dragging.type
  have leaf : ∀ r, ¬Child store.layout (uuid dragging.type ids.child) r :=
    fun r edge => entry_of_child edge absent
  have outside : ¬Under (Child store.layout) (uuid dragging.type ids.child) destination.id := by
    intro under
    rw [Forest.under_leaf leaf under] at found
    rw [absent] at found
    cases found
  have makes : Makes store.layout destination.id top inner (uuid dragging.type ids.child)
    (some dragging.type) (widthOf child.metadata) ∧
      (componentIsResizable dragging.type = true → ∀ n, widthOf child.metadata = some n →
        1 ≤ n) := by
    unfold sizedDropChild at made
    split at made
    · next resizable =>
      dsimp only at made
      split at made
      · cases made
      · next width cacheWidth measured =>
        have accepted := accepted_of_room wellFormed room measured
        rw [draggedComponent, if_pos new] at measured
        have isDefault :
          ∀ n, widthOf (newComponentFactory dragging.type JsObject.empty ids.probe).metadata =
            some n →
            1 ≤ n ∧ (dragging.type ≠ .dynamic → n ≤ 12) := by
          intro n held
          revert held resizable
          unfold newComponentFactory
          cases dragging.type <;>
            simp [componentIsResizable, typeToDefaultMetaData, widthOf, JsObject.ofList,
              JsObject.get,
            JsObject.spread, JsObject.single, JsObject.empty, JsObject.number,
            gridDefaultChartWidth, gridColumnCount] <;> omega
        obtain ⟨made', positive⟩ :=
          makes_resized top inner wellFormed nested sized fit resizable (.inr absent)
          (fun n held => (isDefault n held).1) otherPlace measured accepted found wraps
          fun _ wrap => by
            cases held : widthOf
              (newComponentFactory dragging.type JsObject.empty ids.probe).metadata with
            | none => decide
            | some n =>
              refine (isDefault n held).2 fun isDynamic => ?_
              have wraps : shouldWrapChildInRow place.type dragging.type = true := wrap
              simp [shouldWrapChildInRow, isDynamic] at wraps
        cases made
        rw [widthOf_withWidth, nonzeroWidth_of_positive positive]
        exact ⟨made', fun _ => positive⟩
    · next fixed =>
      refine ⟨⟨fun isRow _ => ?_,
        fun isInner => ?_,
        fun isRow => ?_, fun r edge => absurd edge (leaf r)⟩, fun resizable => ?_⟩
      · exact absurd (resizable_of_row admits isRow) fixed
      · exact absurd (resizable_of_wrap (wraps isInner)) fixed
      · refine ⟨isTop fun isInner => fixed (resizable_of_wrap (wraps isInner)), ?_⟩
        have none : getTotalChildWidth (uuid dragging.type ids.child) store.layout = 0 := by
          simp [getTotalChildWidth, childrenOf_of_none absent]
        rw [none]
        exact le_trans (by decide) (sized.available _)
      · exact absurd resizable fixed
  have fits : RowsFit after := drop.fit (by rw [isType]; exact makes.1) sized wellFormed outside fit
  refine ⟨⟨after, cacheAfter⟩, by simp [Store.reduce, layoutReducer, ran], fits,
    keepsMinimum_of_fit fits ?_⟩
  intro k component n found' resizable held
  by_cases isX : k = uuid dragging.type ids.child
  · subst isX
    rw [typeOf_of_entry found'] at isType
    exact makes.2 (Option.some.inj isType ▸ resizable) n
      (by rw [← drop.own, widthAt_of_entry found', held])
  · exact sized.positive (by rw [← drop.kept k isX, widthAt_of_entry found', held])

theorem moveComponent_dropped (cache : ParentCache) (position : Option DropPosition)
    (wellFormed : WellFormed store.layout)
    (anchored : Anchored store.layout) {source destination : DropPlace} {dragging : Dragging}
    (fresh : Fresh store.layout ids)
    (dragged : NamesDragged store.layout source dragging)
    (real : NamesDestination store.layout destination)
    (reached : Under (Child store.layout) dashboardRootId destination.id) :
    ∃ next cacheAfter top inner width,
      moveComponent cache ids ⟨some source, some destination, some dragging,
        position⟩ store.layout = some (next, cacheAfter) ∧
      Dropped store.layout next destination.id top inner dragging.id width ∧
      Resized cache ids source destination dragging store.layout width ∧
      typeOf next dragging.id = some dragging.type ∧
      (inner = some dragging.id → wrapsDropped destination dragging = true ∧ top ≠ dragging.id ∧
        typeOf next top = some .row) ∧
      (inner ≠ some dragging.id → top = dragging.id) ∧
      (top = dragging.id → Wrapped next destination.id dragging.id) := by
  obtain ⟨next, cacheAfter, top, inner, ran, grafted, shape, wrapped⟩ :=
    moveComponent_grafted cache position wellFormed.keyed wellFormed.distinct wellFormed.single
      wellFormed.listed
      wellFormed.wrapped dragged.place dragged.type real.type real.present real.nonnegative
        real.inside
      (fresh.at_row .row) fun resizable =>
        sized_of_dragged wellFormed anchored dragged.type reached resizable
  have present : store.layout.entry dragging.id ≠ none := by
    rw [Ne, ← typeOf_eq_none, dragged.type]
    simp
  obtain ⟨kept, resized, added⟩ := moveComponent_frame ran dragged.type (fresh.at_row .row)
  have unmoved : store.layout.entry top = none → top ≠ dragging.id :=
    fun absent same => present (same ▸ absent)
  refine ⟨next, cacheAfter, top, inner, _, ran,
    ⟨grafted, shape.imp And.left And.right, fun k new other => ?_, rfl, kept,
    fun k other old isRow => ?_⟩, resized, (grafted.kept _ present).trans dragged.type,
      fun isInner => ?_, fun bare => ?_, fun isTop => ?_⟩
  · obtain ⟨isTop, isInner⟩ | ⟨absent, isInner⟩ := shape
    · obtain rfl | new := new
      · exact absurd isTop other
      · rw [isInner] at new
        cases new
    · obtain rfl | new := new
      · exact absent
      · rw [isInner] at new
        exact absurd (Option.some.inj new).symm other
  · have here : next.entry k ≠ none := by
      rw [Ne, ← typeOf_eq_none, isRow]
      simp
    obtain ⟨p, new⟩ := Option.ne_none_iff_exists'.mp (grafted.added k here old)
    obtain ⟨isTop, isInner⟩ | ⟨_, isInner⟩ := shape
    · obtain ⟨same, _⟩ | ⟨same, _⟩ := newParent_cases new
      · exact absurd (same.trans isTop) other
      · rw [isInner] at same
        cases same
    · obtain ⟨same, _⟩ | ⟨same, _⟩ := newParent_cases new
      · exact ⟨same, isInner⟩
      · rw [isInner] at same
        exact absurd (Option.some.inj same).symm other
  · obtain ⟨_, none⟩ | ⟨absent, _⟩ := shape
    · rw [none] at isInner
      cases isInner
    · obtain ⟨wraps, isRow⟩ := added top absent (grafted.present top (by simp))
      exact ⟨wraps, unmoved absent, isRow⟩
  · obtain ⟨isTop, _⟩ | ⟨_, isInner⟩ := shape
    · exact isTop
    · exact absurd isInner bare
  · exact wrapped dragging.id destination.id (by rw [← isTop, newParent_top])

theorem move_fits_iff (wellFormed : WellFormed store.layout) (anchored : Anchored store.layout)
    (nested : Nested store.layout)
    (sized : Sized store.layout) (fit : RowsFit store.layout)
    (named : Named store.layout (.moveComponent dropResult ids))
    (shown : Shown store.layout (.moveComponent dropResult ids))
    (allowed : Allowed store.layout dropResult)
    (room : dropOverflowsParent ids dropResult store = some (false, cache)) :
    ∃ next, Store.reduce { store with cache := cache } (.moveComponent dropResult ids) = some next ∧
      (RowsFit next.layout ∧ KeepsMinimum next.layout ↔
        FitsGrid store.layout (.moveComponent dropResult ids)) := by
  obtain ⟨fresh, source, destination, dragging, at_source, at_destination, at_dragging, dragged,
    real, outside⟩ := named
  have reached := shown.1 destination at_destination
  have admits := allowed.admits destination dragging at_destination at_dragging
  obtain ⟨_, _, _, position⟩ := dropResult
  cases at_source
  cases at_destination
  cases at_dragging
  obtain ⟨after, cacheAfter, top, inner, width, ran, drop, resized, isType, wrapped, isTop, bare⟩ :=
    moveComponent_dropped cache position wellFormed anchored fresh dragged real reached
  obtain ⟨place, found⟩ := exists_entry real.present
  obtain ⟨component, at_x, componentType⟩ := Option.map_eq_some_iff.mp dragged.type
  have edge : Child store.layout source.id dragging.id := JsArray.mem_of_item dragged.place
  have existing : source.id ≠ newComponentsSourceId :=
    fun same => entry_of_child edge (same ▸ allowed.reserved)
  have wraps : wrapsDropped destination dragging =
      shouldWrapChildInRow place.type dragging.type := by
    rw [wrapsDropped, real.type, typeOf_of_entry found]
  have d_ne : destination.id ≠ dragging.id :=
    fun same => outside (same ▸ Relation.ReflTransGen.refl)
  have own : widthAt store.layout dragging.id = widthOf component.metadata := widthAt_of_entry at_x
  -- a dragged row fits where there is a width
  have rowFits : dragging.type = .row → (widthAt store.layout destination.id = none →
      getTotalChildWidth dragging.id store.layout ≤ gridColumnCount) → top = dragging.id ∧
      getTotalChildWidth dragging.id store.layout ≤ availableBelow store.layout destination.id := by
    intro isRow grid
    have notInner : inner ≠ some dragging.id := by
      intro isInner
      have resizable := resizable_of_wrap (wraps ▸ (wrapped isInner).1)
      rw [isRow] at resizable
      cases resizable
    refine ⟨isTop notInner, ?_⟩
    have rowType : typeOf store.layout dragging.id = some .row := by rw [dragged.type, isRow]
    by_cases same : source.id = destination.id
    · exact same ▸ fit source.id dragging.id edge rowType
    cases held : widthAt store.layout destination.id with
    | none =>
      rw [availableBelow, held]
      exact grid held
    | some n =>
      have answer := room
      unfold dropOverflowsParent at answer
      obtain ⟨⟨w, later⟩, measured, _⟩ := Option.map_eq_some_iff.mp answer
      have accepted := accepted_of_room wellFormed room measured
      rw [draggedComponent, if_neg existing] at measured
      have notRow : place.type ≠ .row := by
        intro placeRow
        have resizable := resizable_of_row admits (by rw [typeOf_of_entry found, placeRow])
        rw [isRow] at resizable
        cases resizable
      rw [availableBelow, held]
      exact row_fits wellFormed nested sized fit edge rowType same measured accepted found
        notRow held
  -- what is put into a fresh row where there is no width keeps its own
  have keepsOwn : inner = some dragging.id → widthAt store.layout destination.id = none →
      width = widthAt store.layout dragging.id := by
    intro isInner none
    have wrap := wraps ▸ (wrapped isInner).1
    have resizable := resizable_of_wrap wrap
    rw [Resized, if_pos resizable] at resized
    obtain ⟨w, later, measured, rfl⟩ := resized
    have accepted := accepted_of_room wellFormed room measured
    rw [draggedComponent, if_neg existing, at_x] at measured
    have other : source.id ≠ destination.id := by
      intro same
      refine wellFormed.wrapped _ _ (same ▸ edge) place.type dragging.type
        (typeOf_of_entry found) dragged.type ?_
      revert wrap
      cases place.type <;> cases dragging.type <;> simp [shouldWrapChildInRow]
    have isPlace : place.type ∈ [ComponentType.grid, .tab] := by
      revert wrap
      cases place.type <;> simp [shouldWrapChildInRow]
    have positive : ∀ n, widthOf component.metadata = some n → 1 ≤ n :=
      fun n held => sized.positive (own.trans held)
    obtain ⟨space, first, last, least, capacity, one, _,
      ⟨isOwn, _⟩ | ⟨n, _, isN, _, _, atLeast, _⟩⟩ :=
      drop_cases (componentType ▸ resizable) other measured accepted
    · rw [isOwn, nonzeroWidth_of_positive positive, own]
    · obtain same | ⟨p, _, parent⟩ := Forest.under_cases reached
      · have rootType := anchored.rootType
        rw [same, typeOf_of_entry found] at rootType
        rw [Option.some.inj rootType] at isPlace
        simp at isPlace
      · have none := capacity_unsized wellFormed nested parent found isPlace none capacity n isN
        omega
  refine ⟨⟨after, cacheAfter⟩, by simp [Store.reduce, layoutReducer, ran],
    ⟨fun fits => ?_, fun grid => ?_⟩⟩
  · rintro _ _ ⟨⟩ ⟨⟩ none
    have available : availableBelow after destination.id = gridColumnCount := by
      rw [availableBelow, drop.kept _ d_ne, none]
      rfl
    have total (k : String) : getTotalChildWidth k after = othersWidth store.layout dragging.id k +
        if k = (if top = dragging.id then destination.id else top) then width.getD 0 else 0 := by
      rw [total_apart (drop.grafted.distinct k) dragging.id,
        drop.others_eq sized wellFormed.distinct, drop.own]
      simp only [drop.parent]
    refine ⟨fun isRow => ?_, fun wrap => ?_⟩
    · have top_eq : top = dragging.id := by
        refine isTop fun isInner => ?_
        have resizable := resizable_of_wrap (wraps ▸ (wrapped isInner).1)
        rw [isRow] at resizable
        cases resizable
      have fitsRow :=
        fits.1 destination.id dragging.id ((drop.parent _).mpr (by rw [if_pos top_eq]))
          (isType.trans (congrArg some isRow))
      rw [total, if_pos top_eq, if_neg d_ne.symm, available] at fitsRow
      have noLoop : ¬Child store.layout dragging.id dragging.id := fun loop =>
        wellFormed.acyclic _ (Relation.TransGen.single loop)
      rwa [total_apart (wellFormed.distinct _) dragging.id, if_neg noLoop]
    · have isInner : inner = some dragging.id := by
        by_contra notInner
        refine bare (isTop notInner) place.type dragging.type ?_ isType ?_
        · rw [drop.grafted.kept _ real.present, typeOf_of_entry found]
        · rw [wraps] at wrap
          revert wrap
          cases place.type <;> cases dragging.type <;> simp [shouldWrapChildInRow]
      obtain ⟨_, top_ne, rowType⟩ := wrapped isInner
      have fitsTop :=
        fits.1 destination.id top ((drop.grafted.moved _ _ _ newParent_top).mpr rfl) rowType
      have absent := drop.fresh top (.inl rfl) top_ne
      have empty : othersWidth store.layout dragging.id top = 0 := by
        simp [othersWidth, childrenOf_of_none absent]
      rw [total, if_neg top_ne, if_pos rfl, empty, zero_add, available,
        keepsOwn isInner none] at fitsTop
      exact fitsTop
  · have conditions := grid destination dragging rfl rfl
    have makes : Makes store.layout destination.id top inner dragging.id
      (some dragging.type) width ∧
        (componentIsResizable dragging.type = true → ∀ n, width = some n → 1 ≤ n) := by
      have unchanged (isWidth : width = widthAt store.layout dragging.id)
        (notInner : inner ≠ some dragging.id)
          (inRow : typeOf store.layout destination.id = some .row → top = dragging.id →
            Child store.layout destination.id dragging.id) :
          Makes store.layout destination.id top inner dragging.id (some dragging.type) width ∧
            (componentIsResizable dragging.type = true → ∀ n, width = some n → 1 ≤ n) := by
        rw [isWidth]
        refine ⟨makes_unchanged fit _ inRow notInner fun isRow => ?_,
          fun _ n held => sized.positive held⟩
        exact rowFits (Option.some.inj isRow) fun none =>
          (conditions none).1 (Option.some.inj isRow)
      by_cases resizable : componentIsResizable dragging.type = true
      · rw [Resized, if_pos resizable] at resized
        obtain ⟨w, later, measured, isW⟩ := resized
        have accepted := accepted_of_room wellFormed room measured
        rw [draggedComponent, if_neg existing, at_x] at measured
        have positive : ∀ n, widthOf component.metadata = some n → 1 ≤ n :=
          fun n held => sized.positive (own.trans held)
        by_cases same : source.id = destination.id
        · unfold getComponentWidthFromDrop at measured
          rw [if_pos same] at measured
          cases measured
          rw [nonzeroWidth_of_positive positive, ← own] at isW
          refine unchanged isW (fun isInner => ?_) fun _ _ => same ▸ edge
          refine wellFormed.wrapped _ _ (same ▸ edge) place.type dragging.type
            (typeOf_of_entry found) dragged.type ?_
          have wrap := wraps ▸ (wrapped isInner).1
          revert wrap
          cases place.type <;> cases dragging.type <;> simp [shouldWrapChildInRow]
        · obtain ⟨made, positive'⟩ := makes_resized top inner wellFormed nested sized fit
            (componentType ▸ resizable) (.inl at_x) positive same measured accepted found
            (fun isInner => componentType ▸ wraps ▸ (wrapped isInner).1) fun none wrap => by
              have narrow := (conditions none).2 (by rw [wraps, ← componentType]; exact wrap)
              rwa [own] at narrow
          rw [isW, nonzeroWidth_of_positive positive', ← componentType]
          exact ⟨made, fun _ => positive'⟩
      · rw [Resized, if_neg resizable] at resized
        refine unchanged resized
          (fun isInner => resizable (resizable_of_wrap (wraps ▸ (wrapped isInner).1)))
            fun isRow _ => ?_
        exact absurd (resizable_of_row admits isRow) resizable
    have fits : RowsFit after :=
      drop.fit (by rw [isType]; exact makes.1) sized wellFormed outside fit
    refine ⟨fits, keepsMinimum_of_fit fits fun k component' n found' resizable held => ?_⟩
    by_cases isX : k = dragging.id
    · subst isX
      rw [typeOf_of_entry found'] at isType
      exact makes.2 (Option.some.inj isType ▸ resizable) n
        (by rw [← drop.own, widthAt_of_entry found', held])
    · exact sized.positive (by rw [← drop.kept k isX, widthAt_of_entry found', held])

/-- A drop that does not overflow its parent, in a layout whose rows fit. -/
structure FittingDrop (store : Store) (dropResult : DropResult) (ids : NanoIds)
    (cache : ParentCache) (action : Action) : Prop where
  wellFormed : WellFormed store.layout
  anchored : Anchored store.layout
  nested : Nested store.layout
  sized : Sized store.layout
  fit : RowsFit store.layout
  isDrop : action = .createComponent dropResult ids ∨ action = .moveComponent dropResult ids
  named : Named store.layout action
  shown : Shown store.layout action
  allowed : Allowed store.layout dropResult
  room : dropOverflowsParent ids dropResult store = some (false, cache)

/-- After such a drop the rows fit, and no component is narrower than its minimum,
exactly when what is moved to a place without a width fits the grid. -/
theorem rows_fit_iff {action : Action} (drop : FittingDrop store dropResult ids cache action) :
    ∃ next, Store.reduce { store with cache := cache } action = some next ∧
      (RowsFit next.layout ∧ KeepsMinimum next.layout ↔ FitsGrid store.layout action) := by
  obtain ⟨wellFormed, anchored, nested, sized, fit, rfl | rfl, named, shown, allowed, room⟩ := drop
  · obtain ⟨next, ran, fits⟩ :=
      create_fits wellFormed anchored nested sized fit named shown allowed room
    exact ⟨next, ran, fun _ => trivial, fun _ => fits⟩
  · exact move_fits_iff wellFormed anchored nested sized fit named shown allowed room

end Drops

abbrev Measured (layout : Layout) : Prop :=
  (∀ a ∈ layout.keys,
    ∀ b ∈ childrenOf layout a, (typeOf layout b).all (isValidChild (typeOf layout a) 0) = true ∧
      (typeOf layout b = some .row → getTotalChildWidth b layout ≤ availableBelow layout a)) ∧
    ∀ a ∈ layout.keys, ((layout.entry a).all fun component =>
      match JsObject.get component.metadata "width" with
      | none => true
      | some (.int n) => decide (gridMinColumnCount ≤ n)
      | _ => false) = true

theorem of_measured {layout : Layout} (measured : Measured layout) :
    Nested layout ∧ Sized layout ∧ RowsFit layout := by
  obtain ⟨edges, widths⟩ := measured
  have key {a b : String} (edge : Child layout a b) :=
    edges a (layout.listed a (entry_of_child edge)) b edge
  refine ⟨fun a b type edge isType => ⟨0, ?_⟩, fun k component found => ?_,
    fun a b edge => (key edge).2⟩
  · have valid := (key edge).1
    rwa [isType, Option.all_some] at valid
  · have holds := widths k (layout.listed k (by simp [found]))
    rw [found, Option.all_some] at holds
    split at holds
    · next none => exact .inl none
    · next n number => exact .inr ⟨n, of_decide_eq_true holds, number⟩
    · cases holds

def chartInColumn (width : Int) : Layout :=
  layoutOf [component dashboardRootId .root [dashboardGridId],
    component dashboardGridId .grid ["ROW"],
    component "ROW" .row ["COLUMN"], component "COLUMN" .column ["CHART"],
    { component "CHART" .chart [] with
      metadata := JsObject.single "width" (JsObject.number width) }]

def chartToGrid : DropResult where
  source := some ⟨"COLUMN", some .column, 0⟩
  destination := some ⟨dashboardGridId, some .grid, 1⟩
  dragging := some ⟨"CHART", .chart, JsObject.empty⟩
  position := some .bottom

theorem chartToGrid_fitting (layout : Layout) (checked : Checked layout)
    (measured : Measured layout)
    (dashless : ∀ k ∈ layout.keys, '-' ∉ k.toList)
    (checks : JsArray.item (childrenOf layout "COLUMN") 0 = some "CHART" ∧
      typeOf layout "COLUMN" = some .column ∧
      typeOf layout "CHART" = some .chart ∧ typeOf layout dashboardGridId = some .grid ∧
      (childrenOf layout dashboardGridId).length = 1 ∧
      childrenOf layout "CHART" = [] ∧ Child layout dashboardRootId dashboardGridId ∧
      typeOf layout newComponentsSourceId = none)
    (room : (dropOverflowsParent sampleIds chartToGrid ⟨layout, noCache⟩).map Prod.fst =
      some false) :
    ∃ cache, FittingDrop ⟨layout, noCache⟩ chartToGrid sampleIds cache
      (.moveComponent chartToGrid sampleIds) := by
  obtain ⟨place, column, chart, grid, length, leaf, edge, reserved⟩ := checks
  obtain ⟨wellFormed, anchored⟩ := wellFormed_of_checked layout checked
  obtain ⟨nested, sized, fit⟩ := of_measured measured
  obtain ⟨⟨_, cache⟩, overflows, rfl⟩ := Option.map_eq_some_iff.mp room
  refine ⟨cache, wellFormed, anchored, nested, sized, fit, .inr rfl,
    ⟨fresh_of_dashless dashless (by decide), _, _, _, rfl, rfl, rfl,
    ⟨place, column.symm, chart⟩, ⟨?_, grid.symm, by decide, ?_⟩, ?_⟩, ⟨?_, ?_⟩,
    ⟨?_, typeOf_eq_none.mp reserved⟩, overflows⟩
  · rw [Ne, ← typeOf_eq_none, grid]
    simp
  · rw [length]
    decide
  · exact not_under_of_closed ["CHART"] (by decide) (by simp [leaf]) (by decide)
  · rintro _ ⟨⟩
    exact Relation.ReflTransGen.single edge
  · rintro _ ⟨⟩
    decide
  · rintro _ _ ⟨⟩ ⟨⟩
    exact ⟨0, by rw [grid]; decide⟩

theorem narrow_chart_fits : ∃ cache next,
    Store.reduce ⟨chartInColumn 12, cache⟩ (.moveComponent chartToGrid sampleIds) = some next ∧
      RowsFit next.layout ∧ KeepsMinimum next.layout := by
  obtain ⟨cache, drop⟩ :=
    chartToGrid_fitting (chartInColumn 12) (by decide) (by decide) (by decide) (by decide)
      (by decide)
  obtain ⟨next, ran, fits⟩ := rows_fit_iff drop
  refine ⟨cache, next, ran, fits.mpr fun destination dragging at_destination at_dragging _ => ?_⟩
  cases at_destination
  cases at_dragging
  exact ⟨fun isRow => (by cases isRow), fun _ => by decide⟩

/-- A chart wider than the grid, directly in a column, is put into a row of its own. -/
theorem wide_chart_overflows : ¬ ∀ store dropResult ids cache action,
    FittingDrop store dropResult ids cache action →
    ∃ next, Store.reduce { store with cache := cache } action = some next ∧ RowsFit next.layout ∧
    KeepsMinimum next.layout := by
  intro claim
  obtain ⟨cache, drop⟩ :=
    chartToGrid_fitting (chartInColumn 20) (by decide) (by decide) (by decide) (by decide)
      (by decide)
  obtain ⟨next, ran, fits⟩ := claim _ _ _ _ _ drop
  obtain ⟨next', ran', fits'⟩ :=
    move_fits_iff drop.wellFormed drop.anchored drop.nested drop.sized drop.fit drop.named
      drop.shown
    drop.allowed drop.room
  rw [ran] at ran'
  cases ran'
  have narrow := ((fits'.mp fits) _ _ rfl rfl (by decide)).2 (by decide)
  exact absurd narrow (by decide)

end Liteset.Dashboard
