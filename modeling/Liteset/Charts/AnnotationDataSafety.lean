import Liteset.Charts.AnnotationData
import Liteset.Sql.RowConfinement

/-!
# Annotation data and access

The branch for charts of the legacy types looks at no rights, and nothing bounds maps that
contain one another; but it is behind the DAO of charts, which no processor of the program
has.  A layer of a chart therefore ends the computation with an exception, and what is
returned is drawn from native layers alone.
-/

set_option autoImplicit false

namespace Liteset.Charts.Annotations

open List

open Lib.Descent
open Security.Access (User)
open Sql.Chart (Row Permits)

theorem Dict.mem_set {β : Type} {dict : Dict β} {key : String} {value : β} {entry : String × β}
    (member : entry ∈ Dict.set dict key value) : entry ∈ dict ∨ entry = (key, value) := by
  rw [Dict.set] at member
  split at member
  · obtain ⟨old, there, same⟩ := mem_map.mp member
    split at same
    · exact .inr same.symm
    · exact .inl (same ▸ there)
  · simpa using member

section Native

theorem addNative_reads (stored : List NativeLayer) (native : List AnnotationLayer)
    (data : Dict AnnotationData) (empty : ∀ entry ∈ data, entry.2.reads = []) :
    ∀ entry ∈ native.foldl (addNative stored) data, entry.2.reads = [] := by
  induction native generalizing data with
  | nil => exact empty
  | cons layer rest ih =>
    refine ih _ fun entry member => ?_
    rw [addNative] at member
    split at member
    · exact empty entry member
    · rcases Dict.mem_set member with old | rfl
      · exact empty entry old
      · rfl

theorem native_reads (processor : Processor) (layers : List AnnotationLayer) :
    ∀ entry ∈ getNativeAnnotationData processor layers, entry.2.reads = [] := by
  rw [getNativeAnnotationData]
  cases processor.annotationLayers with
  | none => exact nofun
  | some stored => exact addNative_reads stored _ [] nofun

end Native

section Site
variable {DataFrame : Type} (site : Site DataFrame) (user : User)

def Obeys (table : SqlaTable) (row : Row) : Prop :=
  Permits row (site.rlsFilters user table) (site.guestClauses user table)

def Read.Sees (read : Read) (row : Row) : Prop :=
  read.statement.outer.reads row = true ∨
    ∃ join subquery, read.statement.series = some (join, subquery) ∧ subquery.reads row = true

/-- The user passes `raise_for_access` for the dataset. -/
def MayRead (table : SqlaTable) : Prop := raiseForAccess site user table = .ok ()

variable (processor : Processor) (layers : List AnnotationLayer)

/-- What annotation data owes to access control. -/
structure Respects : Prop where
  ends : ∃ fuel result, getAnnotationData site user fuel processor layers = some result
  permitted : ∀ fuel data, getAnnotationData site user fuel processor layers = some (.ok data) →
    ∀ entry ∈ data, ∀ read ∈ entry.2.reads, MayRead site user read.datasource
  confined : ∀ fuel data, getAnnotationData site user fuel processor layers = some (.ok data) →
    ∀ entry ∈ data, ∀ read ∈ entry.2.reads, ∀ row ∈ read.datasource.rows, read.Sees row →
      Obeys site user read.datasource row
  refused : ∀ layer ∈ vizLayers layers, ∀ chart table,
    site.slices.find? (fun slice => slice.id = layer.value) = some chart →
      datasourceOf site chart = some table → ¬MayRead site user table →
        ∃ fuel e, getAnnotationData site user fuel processor layers = some (.error e)

variable {processor}

theorem hasChartDao_of_built (built : Built processor) : processor.hasChartDao = false := by
  induction built with
  | caller annotationLayers => rfl
  | nested builder ih => exact ih

theorem annotationViz_error (built : Built processor) (layer : AnnotationLayer) :
    ∃ e, annotationViz site processor layer = .error e := by
  rw [annotationViz, hasChartDao_of_built built]
  by_cases deep : processor.recursionDepth ≥ MAX_RECURSION_DEPTH
  · exact ⟨_, if_pos deep⟩
  · exact ⟨_, by rw [if_neg deep]; rfl⟩

/-- With a layer of a chart the computation raises, whatever the fuel. -/
theorem getAnnotationData_error (built : Built processor) (charted : vizLayers layers ≠ [])
    (fuel : Nat) : ∃ e, getAnnotationData site user fuel processor layers = some (.error e) := by
  obtain ⟨layer, rest, shape⟩ := exists_cons_of_ne_nil charted
  obtain ⟨e, raised⟩ := annotationViz_error site built layer
  refine ⟨e.reraised, ?_⟩
  rw [getAnnotationData, shape, map_cons, raised, visit_error]
  rfl

theorem getAnnotationData_native (native : vizLayers layers = []) (fuel : Nat) :
    getAnnotationData site user fuel processor layers =
      some (.ok (getNativeAnnotationData processor layers)) := by
  rw [getAnnotationData, native]
  rfl

theorem reads_of_built (built : Built processor) {fuel : Nat} {data : Dict AnnotationData}
    (returned : getAnnotationData site user fuel processor layers = some (.ok data)) :
    ∀ entry ∈ data, entry.2.reads = [] := by
  by_cases native : vizLayers layers = []
  · rw [getAnnotationData_native site user layers native fuel] at returned
    cases returned
    exact native_reads processor layers
  · obtain ⟨e, raised⟩ := getAnnotationData_error site user layers built native fuel
    rw [raised] at returned
    cases returned

end Site

def revenue : SqlaTable where
  id := 1
  source := { perm := some "[sales].[revenue](id:1)" }
  dataset := {
    engine := {
      dttmSqlLiteral := fun _ _ => ""
      timestampExpression := fun column _ => column.sqlaCol }
    columns := [] }

def lineViz : VizMethods Unit where
  queryObj := fun _ => .ok {}
  getData := fun _ _ _ => .ok (some (.records [[("revenue", .int 7)]]))

/-- A chart of the type `line`, and a map that contains itself. -/
def sales : Site Unit where
  slices := [
    { id := 1, vizType := some "line", datasourceId := some 1 },
    { id := 2, vizType := some "deck_multi", datasourceId := some 1
      params := [("deck_slices", .list [.int 2]), ("adhoc_filters", .list [])] }]
  tables := [revenue]
  baseViz := lineViz
  vizTypes := [("line", .base lineViz), ("deck_multi", .deckGLMultiLayer .ok)]
  str := fun _ => ""
  querySettings :=
    { sinceUntil := fun _ => (none, none), processSelectExpression := fun _ => .ok () }
  emptyFrame := ()
  execute := fun _ _ _ => .ok ()

def stranger : User := { id := some 3, permissions := some [] }

def layerOf (chart : Nat) (sourceType : String) : AnnotationLayer where
  name := "Revenue"
  sourceType := some sourceType
  value := chart

end Liteset.Charts.Annotations
