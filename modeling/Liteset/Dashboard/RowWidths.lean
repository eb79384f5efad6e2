import Mathlib.Algebra.Order.BigOperators.Group.Finset
import Liteset.Dashboard.DragDrop

/-!
# The rows of a layout do not overflow

What the columns of a row hold when one component is dropped, and which width
`getComponentWidthFromDrop` gives it.
-/

set_option autoImplicit false

namespace Liteset.Dashboard

open Lib
open Lib.JsObject (Record)
open Lib.Forest (Under SingleParent)

def widthAt (layout : Layout) (k : String) : Option Int :=
  (layout.entry k).bind fun component => widthOf component.metadata

/-- The columns that a row below `parent` has. -/
def availableBelow (layout : Layout) (parent : String) : Int :=
  (widthAt layout parent).getD gridColumnCount

def RowsFit (layout : Layout) : Prop :=
  ∀ parent row, Child layout parent row → typeOf layout row = some .row →
  getTotalChildWidth row layout ≤ availableBelow layout parent

def minimumWidth (layout : Layout) (component : LayoutItem) : Option Int :=
  (getDetailedComponentWidth (widthFuel layout) noCache (some component) layout).bind fun result =>
    result.1.minimumWidth

def KeepsMinimum (layout : Layout) : Prop :=
  ∀ k component width least, layout.entry k = some component →
  componentIsResizable component.type = true → widthOf component.metadata = some width →
    minimumWidth layout component = some least → least ≤ width

def Sized (layout : Layout) : Prop := ∀ k component, layout.entry k = some component →
  JsObject.get component.metadata "width" = JsObject.undefined ∨
    ∃ n, gridMinColumnCount ≤ n ∧ JsObject.get component.metadata "width" = JsObject.number n

def Admits (layout : Layout) (parent : String) (childType : ComponentType) : Prop :=
  ∃ depth, isValidChild (typeOf layout parent) depth childType = true

def Nested (layout : Layout) : Prop :=
  ∀ a b type, Child layout a b → typeOf layout b = some type → Admits layout a type

def FitsGrid (layout : Layout) : Action → Prop
  | .moveComponent dropResult _ =>
    ∀ destination dragging, dropResult.destination = some destination →
      dropResult.dragging = some dragging → widthAt layout destination.id = none →
        (dragging.type = .row → getTotalChildWidth dragging.id layout ≤ gridColumnCount) ∧
          (wrapsDropped destination dragging = true → (widthAt layout dragging.id).getD 0 ≤
            gridColumnCount)
  | _ => True

section Totals
variable {layout : Layout} {k x : String} {n : Int}

theorem Sized.positive (sized : Sized layout) (held : widthAt layout k = some n) : 1 ≤ n := by
  obtain ⟨component, found, isWidth⟩ := Option.bind_eq_some_iff.mp held
  obtain none | ⟨m, least, number⟩ := sized k component found
  · rw [widthOf, none] at isWidth
    cases isWidth
  · rw [widthOf, number] at isWidth
    cases isWidth
    exact least

theorem Sized.nonnegative (sized : Sized layout) (k : String) : 0 ≤ (widthAt layout k).getD 0 := by
  cases held : widthAt layout k with
  | none => exact le_refl 0
  | some n => exact le_trans (by decide) (sized.positive held)

theorem Sized.available (sized : Sized layout) (k : String) : 1 ≤ availableBelow layout k := by
  unfold availableBelow
  cases held : widthAt layout k with
  | none => decide
  | some n => exact sized.positive held

/-- What the children of a component other than `x` take. -/
def othersWidth (layout : Layout) (x k : String) : Int :=
  ((childrenOf layout k).map fun c => if c = x then 0 else (widthAt layout c).getD 0).sum

theorem sum_apart (f : String → Int) {list : List String} (distinct : list.Nodup) :
    (list.map f).sum = (list.map fun c => if c = x then 0 else f c).sum + if x ∈ list then f x
    else 0 := by
  induction list with
  | nil => simp
  | cons c list ih =>
    obtain ⟨new, distinct⟩ := List.nodup_cons.mp distinct
    rw [List.map_cons, List.map_cons, List.sum_cons, List.sum_cons, ih distinct]
    by_cases same : c = x
    · subst same
      simp [new]
      omega
    · simp [same, Ne.symm same, add_assoc]

theorem total_apart (distinct : (childrenOf layout k).Nodup) (x : String) :
    getTotalChildWidth k layout =
    othersWidth layout x k + if Child layout k x then (widthAt layout x).getD 0 else 0 := by
  rw [othersWidth, ← sum_apart (fun c => (widthAt layout c).getD 0) distinct, getTotalChildWidth]
  congr 2
  funext c
  unfold widthAt
  cases layout.entry c with
  | none => rfl
  | some child =>
    show widthOr (widthOf child.metadata) 0 = (widthOf child.metadata).getD 0
    cases widthOf child.metadata with
    | none => rfl
    | some n =>
      simp only [widthOr, Option.getD_some]
      split <;> omega

theorem others_le_total (sized : Sized layout) (distinct : (childrenOf layout k).Nodup)
    (x : String) :
    othersWidth layout x k ≤ getTotalChildWidth k layout := by
  have share := sized.nonnegative x
  rw [total_apart distinct x]
  split <;> omega

theorem sum_le {f : String → Int} {first second : List String} (distinct : first.Nodup)
    (distinct' : second.Nodup)
    (held : ∀ c ∈ first, f c ≠ 0 → c ∈ second) (nonnegative : ∀ c, 0 ≤ f c) :
    (first.map f).sum ≤ (second.map f).sum := by
  rw [← List.sum_toFinset f distinct, ← List.sum_toFinset f distinct', ← Finset.sum_filter_ne_zero]
  refine Finset.sum_le_sum_of_subset_of_nonneg (fun c member => ?_) fun c _ _ => nonnegative c
  obtain ⟨member, some⟩ := Finset.mem_filter.mp member
  exact List.mem_toFinset.mpr (held c (List.mem_toFinset.mp member) some)

end Totals

/-- `x` gets a width and hangs below `d` or in a fresh row there; other fresh components
have no width. -/
structure Dropped (before after : Layout) (d top : String) (inner : Option String) (x : String)
    (width : Option Int) : Prop where
  grafted : Grafted before after d top inner
  dropped : top = x ∨ inner = some x
  fresh : ∀ k, k = top ∨ inner = some k → k ≠ x → before.entry k = none
  own : widthAt after x = width
  kept : ∀ k, k ≠ x → widthAt after k = widthAt before k
  rows : ∀ k, k ≠ x → before.entry k = none → typeOf after k = some .row → k = top ∧ inner = some x

structure Makes (before : Layout) (d top : String) (inner : Option String) (x : String)
    (type : Option ComponentType)
    (width : Option Int) : Prop where
  inRow : typeOf before d = some .row → top = x → Child before d x ∧ width = widthAt before x ∨
    ∀ p, Child before p d → getTotalChildWidth d before + width.getD 0 ≤ availableBelow before p
  inFreshRow : inner = some x → width.getD 0 ≤ availableBelow before d
  row : type = some .row → top = x ∧ getTotalChildWidth x before ≤ availableBelow before d
  below : ∀ r, Child before x r → typeOf before r = some .row →
    getTotalChildWidth r before ≤ width.getD gridColumnCount

section Drop
variable {before after : Layout} {d top x : String} {inner : Option String} {width : Option Int}

section
variable (drop : Dropped before after d top inner x width)
include drop

theorem Dropped.newParent_eq_none {k : String} (other : k ≠ x)
    (old : before.entry k ≠ none) : newParent d top inner k = none :=
  Liteset.Dashboard.newParent_eq_none.mpr ⟨fun isTop => old (drop.fresh k (.inl isTop) other),
    fun isInner => old (drop.fresh k (.inr isInner) other)⟩

theorem Dropped.others_eq (sized : Sized before)
    (distinct : ∀ k, (childrenOf before k).Nodup) (k : String) :
    othersWidth after x k = othersWidth before x k := by
  have same : (fun c => if c = x then 0 else (widthAt after c).getD 0) = fun c => if c = x then 0
      else (widthAt before c).getD 0 := by
    funext c
    split
    · rfl
    · next other => rw [drop.kept c other]
  have nonnegative : ∀ c, 0 ≤ if c = x then 0 else (widthAt before c).getD 0 := fun c => by
    split
    · exact le_refl 0
    · exact sized.nonnegative c
  have old : ∀ c, (if c = x then 0 else (widthAt before c).getD 0) ≠ 0 →
      c ≠ x ∧ before.entry c ≠ none := by
    intro c some
    refine ⟨fun isX => some (if_pos isX), fun absent => some ?_⟩
    simp [widthAt, absent]
  rw [othersWidth, same, othersWidth]
  refine le_antisymm
    (sum_le (drop.grafted.distinct k) (distinct k) (fun c member some => ?_) nonnegative)
    (sum_le (distinct k) (drop.grafted.distinct k) (fun c member some => ?_) nonnegative)
  · obtain ⟨other, present⟩ := old c some
    exact (drop.grafted.edges k c (drop.newParent_eq_none other present)).mp member
  · obtain ⟨other, present⟩ := old c some
    exact (drop.grafted.edges k c (drop.newParent_eq_none other present)).mpr member

theorem Dropped.parent (k : String) : Child after k x ↔ k = if top = x then d else top := by
  refine drop.grafted.moved k x _ ?_
  by_cases isTop : top = x
  · rw [if_pos isTop, isTop]
    exact newParent_top
  · rw [if_neg isTop, drop.dropped.resolve_left isTop]
    exact newParent_inner (Ne.symm isTop)

theorem Dropped.fit (makes : Makes before d top inner x (typeOf after x) width)
    (sized : Sized before) (wellFormed : WellFormed before) (outside : ¬Under (Child before) x d)
    (fit : RowsFit before) : RowsFit after := by
  have d_ne : d ≠ x := fun same => outside (same ▸ Relation.ReflTransGen.refl)
  have total (k : String) : getTotalChildWidth k after =
      othersWidth before x k + if k = (if top = x then d else top) then width.getD 0 else 0 := by
    rw [total_apart (drop.grafted.distinct k) x, drop.others_eq sized wellFormed.distinct, drop.own]
    simp only [drop.parent]
  have available (k : String) (other : k ≠ x) :
      availableBelow after k = availableBelow before k := by
    rw [availableBelow, drop.kept k other, availableBelow]
  have bound (k : String) := others_le_total sized (wellFormed.distinct k) x
  intro p r edge isRow
  rw [total]
  by_cases isX : r = x
  · -- a row is moved
    subst isX
    obtain ⟨isTop, room⟩ := makes.row isRow
    have isD : p = d := by simpa [isTop] using (drop.parent p).mp edge
    rw [if_pos isTop, if_neg d_ne.symm, isD, available d d_ne, add_zero]
    exact (bound r).trans room
  by_cases absent : before.entry r = none
  · -- the fresh row
    obtain ⟨rfl, isInner⟩ := drop.rows r isX absent isRow
    have isD : p = d := (drop.grafted.moved p r d newParent_top).mp edge
    have empty : othersWidth before x r = 0 := by simp [othersWidth, childrenOf_of_none absent]
    rw [if_neg isX, if_pos rfl, isD, available d d_ne, empty, zero_add]
    exact makes.inFreshRow isInner
  have oldEdge : Child before p r :=
    (drop.grafted.edges p r (drop.newParent_eq_none isX absent)).mp edge
  rw [drop.grafted.kept r absent] at isRow
  have fits := fit p r oldEdge isRow
  by_cases holds : r = if top = x then d else top
  · -- the row that `x` is dropped into
    have isTop : top = x := by
      by_contra other
      rw [if_neg other] at holds
      exact absent (holds ▸ drop.fresh top (.inl rfl) other)
    rw [if_pos isTop] at holds
    have p_ne : p ≠ x := fun same => outside (same ▸ Relation.ReflTransGen.single (holds ▸ oldEdge))
    rw [if_pos isTop, if_pos holds, available p p_ne]
    obtain ⟨inside, isWidth⟩ | room := makes.inRow (holds ▸ isRow) isTop
    · rw [total_apart (wellFormed.distinct r) x, if_pos (holds ▸ inside), ← isWidth] at fits
      exact fits
    · rw [← holds] at room
      have least := room p oldEdge
      have others := bound r
      omega
  · rw [if_neg holds, add_zero]
    by_cases isP : p = x
    · -- a row in the column that gets a new width
      subst isP
      rw [availableBelow, drop.own]
      exact (bound r).trans (makes.below r oldEdge isRow)
    · rw [available p isP]
      exact (bound r).trans fits

end

end Drop

section Width
variable {layout : Layout}

theorem findParentIdWithCache_fst (wellFormed : WellFormed layout) (cache : ParentCache)
    (k : String) :
    (findParentIdWithCache cache k layout).1 = findParentId k layout := by
  cases found : (findParentIdWithCache cache k layout).1 with
  | some p =>
    have edge := child_of_findParentIdWithCache wellFormed.keyed found
    exact (findParentId_of_child wellFormed.single (ne_of_child wellFormed.acyclic edge) edge).symm
  | none =>
    unfold findParentIdWithCache at found
    split at found
    · cases found
    · exact found.symm

theorem detailed_cache (wellFormed : WellFormed layout) (fuel : Nat) :
    ∀ (first second : ParentCache) (component : Option LayoutItem),
    (getDetailedComponentWidth fuel first component layout).map Prod.fst =
      (getDetailedComponentWidth fuel second component layout).map Prod.fst := by
  induction fuel with
  | zero =>
    intro first second component
    cases component <;> rfl
  | succ fuel ih =>
    intro first second component
    cases component with
    | none => rfl
    | some component =>
      have above := ih (findParentIdWithCache first component.id layout).2
        (findParentIdWithCache second component.id layout).2
        (layout.entry (idKey (findParentId component.id layout)))
      unfold getDetailedComponentWidth
      simp only [findParentIdWithCache_fst wellFormed]
      revert above
      generalize getDetailedComponentWidth fuel (findParentIdWithCache first component.id layout).2
        (layout.entry (idKey (findParentId component.id layout))) layout = one
      generalize getDetailedComponentWidth fuel (findParentIdWithCache second component.id layout).2
        (layout.entry (idKey (findParentId component.id layout))) layout = two
      intro above
      cases component.type <;> try rfl
      · cases widestRow layout component.children gridMinColumnCount <;> rfl
      · cases one <;> cases two <;> simp_all

theorem capacity_cache (wellFormed : WellFormed layout) (first second : ParentCache) (d : String) :
    (destinationCapacity first d layout).map Prod.fst =
      (destinationCapacity second d layout).map Prod.fst := by
  have own := detailed_cache wellFormed (widthFuel layout) first second (layout.entry d)
  unfold destinationCapacity
  cases one : getDetailedComponentWidth (widthFuel layout) first (layout.entry d) layout with
  | none => rw [one] at own; rw [Option.map_eq_none_iff.mp own.symm]
  | some one' =>
    rw [one] at own
    obtain ⟨two', two, same⟩ := Option.map_eq_some_iff.mp own.symm
    rw [two]
    dsimp only
    rw [same]
    split
    · rfl
    · have above :=
        detailed_cache wellFormed (widthFuel layout) (findParentIdWithCache one'.2 d layout).2
        (findParentIdWithCache two'.2 d layout).2 (layout.entry (idKey (findParentId d layout)))
      simp only [findParentIdWithCache_fst wellFormed]
      revert above
      generalize getDetailedComponentWidth _ (findParentIdWithCache one'.2 d layout).2 _
        layout = grand
      generalize getDetailedComponentWidth _ (findParentIdWithCache two'.2 d layout).2 _
        layout = grand'
      intro above
      cases grand <;> cases grand' <;> simp_all

theorem dropWidth_cache (wellFormed : WellFormed layout) (first second : ParentCache)
    (source destination : DropPlace)
    (component : Option LayoutItem) :
    (getComponentWidthFromDrop first source destination component layout).map Prod.fst =
      (getComponentWidthFromDrop second source destination component layout).map Prod.fst := by
  unfold getComponentWidthFromDrop
  split
  · cases component <;> rfl
  have own := detailed_cache wellFormed (widthFuel layout) first second component
  revert own
  generalize getDetailedComponentWidth (widthFuel layout) first component layout = one
  generalize getDetailedComponentWidth (widthFuel layout) second component layout = two
  intro own
  cases one with
  | none => rw [Option.map_eq_none_iff.mp own.symm]
  | some one =>
    obtain ⟨two, rfl, same⟩ := Option.map_eq_some_iff.mp own.symm
    have room := capacity_cache wellFormed one.2 two.2 destination.id
    dsimp only
    rw [same]
    revert room
    generalize destinationCapacity one.2 destination.id layout = here
    generalize destinationCapacity two.2 destination.id layout = there
    intro room
    cases here <;> cases there <;> simp_all

theorem widestRow_ge {children : List String} :
    ∀ {widest result : Int}, widestRow layout children widest = some result →
    widest ≤ result ∧ ∀ r ∈ children, typeOf layout r = some .row →
    getTotalChildWidth r layout ≤ result := by
  induction children with
  | nil =>
    intro widest result ran
    cases ran
    exact ⟨le_refl _, fun _ none => absurd none List.not_mem_nil⟩
  | cons c children ih =>
    intro widest result ran
    unfold widestRow at ran
    split at ran
    · cases ran
    · next child found =>
      split at ran
      · obtain ⟨least, others⟩ := ih ran
        refine ⟨(le_max_left _ _).trans least,
          List.forall_mem_cons.mpr ⟨fun _ => (le_max_right _ _).trans least, others⟩⟩
      · next notRow =>
        obtain ⟨least, others⟩ := ih ran
        refine ⟨least, List.forall_mem_cons.mpr ⟨fun isRow => ?_, others⟩⟩
        rw [typeOf_of_entry found] at isRow
        exact absurd (Option.some.inj isRow) notRow

theorem widestRow_le {children : List String} {bound : Int}
    (rows : ∀ r ∈ children, typeOf layout r = some .row →
    getTotalChildWidth r layout ≤ bound) :
    ∀ {widest result : Int}, widestRow layout children widest = some result →
      widest ≤ bound → result ≤ bound := by
  induction children with
  | nil =>
    intro widest result ran start
    cases ran
    exact start
  | cons c children ih =>
    intro widest result ran start
    obtain ⟨first, others⟩ := List.forall_mem_cons.mp rows
    unfold widestRow at ran
    split at ran
    · cases ran
    · next child found =>
      split at ran
      · next isRow =>
        exact ih others ran (max_le start (first (by rw [typeOf_of_entry found, isRow])))
      · exact ih others ran start

variable {cache cacheAfter : ParentCache}

/-- The width and what is occupied of a component that is no row, and the minimum of one
that is resizable. -/
theorem detailed_plain {component : LayoutItem} {fuel : Nat} {detailed : DetailedWidth}
    (notRow : component.type ≠ .row)
    (ran : getDetailedComponentWidth (fuel + 1) cache (some component) layout =
      some (detailed, cacheAfter)) :
    detailed.width = widthOf component.metadata ∧
      detailed.occupiedWidth =
        (if component.type = .column then some 0 else widthOf component.metadata) ∧
      (componentIsResizable component.type = true → ∃ least, detailed.minimumWidth = some least ∧
        if component.type = .column then widestRow layout component.children gridMinColumnCount =
          some least else least = 1) := by
  unfold getDetailedComponentWidth at ran
  cases type : component.type <;> simp only [type] at ran notRow ⊢
  case row => exact absurd rfl notRow
  case column =>
    split at ran
    · cases ran
    · next widest found =>
      cases ran
      exact ⟨rfl, rfl, fun _ => ⟨widest, rfl, by simpa using found⟩⟩
  case dynamic | markdown | chart =>
    cases ran
    exact ⟨rfl, rfl, fun _ => ⟨1, rfl, rfl⟩⟩
  all_goals
    cases ran
    exact ⟨rfl, rfl, fun resizable => by cases resizable⟩

theorem Nested.notRow (nested : Nested layout) {p r : String} {parent : LayoutItem}
    (edge : Child layout p r)
    (isRow : typeOf layout r = some .row) (found : layout.entry p = some parent) :
    parent.type ≠ .row := by
  obtain ⟨depth, valid⟩ := nested p r .row edge isRow
  intro same
  rw [typeOf_of_entry found, same] at valid
  cases valid

theorem detailed_row (wellFormed : WellFormed layout) (nested : Nested layout)
    (sized : Sized layout) {p r : String} {row : LayoutItem}
    (edge : Child layout p r) (found : layout.entry r = some row) (isRow : row.type = .row)
    {fuel : Nat}
    {detailed : DetailedWidth}
    (ran : getDetailedComponentWidth (fuel + 2) cache (some row) layout =
      some (detailed, cacheAfter)) :
    detailed.width = some (availableBelow layout p) ∧
    detailed.occupiedWidth = some (getTotalChildWidth r layout) ∧
      detailed.minimumWidth =
        some (widthOr (some (getTotalChildWidth r layout)) gridMinColumnCount) := by
  obtain ⟨parent, at_parent⟩ := exists_entry (entry_of_child edge)
  have isKey := wellFormed.keyed r row found
  unfold getDetailedComponentWidth at ran
  simp only [isRow, isKey,
    findParentIdWithCache_of_child wellFormed.keyed wellFormed.single wellFormed.acyclic
      edge] at ran
  rw [show layout.entry (idKey (some p)) = some parent from at_parent] at ran
  split at ran
  · cases ran
  · next above cacheAbove climbed =>
    cases ran
    refine ⟨?_, rfl, rfl⟩
    rw [(detailed_plain (nested.notRow edge (by rw [typeOf_of_entry found, isRow]) at_parent)
      climbed).1, availableBelow,
      show widthAt layout p = widthOf parent.metadata by rw [widthAt, at_parent]; rfl]
    cases held : widthOf parent.metadata with
    | none => rfl
    | some n =>
      have positive : 1 ≤ n :=
        sized.positive (show widthAt layout p = some n by rw [widthAt, at_parent]; exact held)
      simp [widthOr, show n ≠ 0 by omega]

theorem fittingWidth_cases {room width w : Option Int} {least : Int}
    (accepted : ∀ n, w = some n → 0 ≤ n)
    (fits : w = fittingWidth room width (some least)) :
    (w = width ∧ ∀ n m, room = some n → width = some m → m ≤ n) ∨
      ∃ n m, room = some n ∧ width = some m ∧ w = some n ∧ least ≤ n ∧ n < m := by
  unfold fittingWidth at fits
  split at fits
  · exact .inl ⟨fits, fun n m none => by cases none⟩
  · exact .inl ⟨fits, fun n m _ none => by cases none⟩
  · next n m =>
    split at fits
    · next enough =>
      refine .inl ⟨fits, fun n' m' isRoom isWidth => ?_⟩
      cases isRoom
      cases isWidth
      exact enough
    · next short =>
      dsimp only at fits
      split at fits
      · next above => exact .inr ⟨n, m, rfl, rfl, fits, above, not_le.mp short⟩
      · exact absurd (accepted _ fits) (by decide)

theorem capacity_row (wellFormed : WellFormed layout) (nested : Nested layout)
    (sized : Sized layout) {p d : String}
    (edge : Child layout p d) (isRow : typeOf layout d = some .row) {room : Option Int}
    (ran : destinationCapacity cache d layout = some (room, cacheAfter)) :
    room = some (availableBelow layout p - getTotalChildWidth d layout) := by
  obtain ⟨row, found, type⟩ := Option.map_eq_some_iff.mp isRow
  unfold destinationCapacity at ran
  rw [found] at ran
  split at ran
  · cases ran
  · next detailed later climbed =>
    obtain ⟨width, occupied, _⟩ := detailed_row wellFormed nested sized edge found type climbed
    rw [width, occupied] at ran
    cases ran
    rfl

theorem capacity_sized {d : String} {place : LayoutItem} (found : layout.entry d = some place)
    (notRow : place.type ≠ .row) {n : Int}
    (held : widthAt layout d = some n) {room : Option Int}
    (ran : destinationCapacity cache d layout = some (room, cacheAfter)) :
    room = some (if place.type = .column then n else 0) := by
  have own : widthOf place.metadata = some n := by rwa [widthAt, found] at held
  unfold destinationCapacity at ran
  rw [found] at ran
  split at ran
  · cases ran
  · next detailed later climbed =>
    obtain ⟨width, occupied, _⟩ := detailed_plain notRow climbed
    rw [width, occupied, own] at ran
    split at ran <;> rename_i capacity
    · cases ran
      split at capacity <;> simp [Liteset.Dashboard.capacity] at capacity <;> simp_all
    · split at capacity <;> cases capacity

theorem capacity_unsized (wellFormed : WellFormed layout) (nested : Nested layout) {p d : String}
    {place : LayoutItem}
    (edge : Child layout p d) (found : layout.entry d = some place)
    (isPlace : place.type ∈ [ComponentType.grid, .tab])
    (none : widthAt layout d = none) {room : Option Int}
    (ran : destinationCapacity cache d layout = some (room, cacheAfter)) :
    ∀ n, room = some n → n ≤ 0 := by
  obtain ⟨parent, at_parent⟩ := exists_entry (entry_of_child edge)
  obtain ⟨depth, valid⟩ := nested p d place.type edge (typeOf_of_entry found)
  rw [typeOf_of_entry at_parent] at valid
  have kinds : place.type ≠ .row ∧ place.type ≠ .column ∧ parent.type ≠ .row ∧
      parent.type ≠ .column := by
    revert valid isPlace
    cases place.type <;> cases parent.type <;> simp [isValidChild, parentMaxDepthLookup]
  obtain ⟨notRow, notColumn, parentNotRow, parentNotColumn⟩ := kinds
  have own : widthOf place.metadata = Option.none := by rwa [widthAt, found] at none
  unfold destinationCapacity at ran
  rw [found] at ran
  split at ran
  · cases ran
  · next detailed later climbed =>
    obtain ⟨width, occupied, _⟩ := detailed_plain notRow climbed
    rw [width, occupied, own, if_neg notColumn] at ran
    simp only [Liteset.Dashboard.capacity,
      findParentIdWithCache_of_child wellFormed.keyed wellFormed.single wellFormed.acyclic
        edge] at ran
    rw [show layout.entry (idKey (some p)) = some parent from at_parent] at ran
    split at ran
    · cases ran
    · next above cacheAbove climbed' =>
      obtain ⟨width', occupied', _⟩ := detailed_plain parentNotRow climbed'
      rw [width', occupied', if_neg parentNotColumn] at ran
      intro n isRoom
      cases ran
      cases held : widthOf parent.metadata <;> simp [held] at isRoom
      omega

end Width

end Liteset.Dashboard
