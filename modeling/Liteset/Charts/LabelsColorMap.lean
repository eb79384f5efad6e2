import Liteset.Lib.JsMap
import Liteset.Lib.Runs

/-!
# Colours of labels

`LabelsColorMapSingleton.ts` shares the colours of labels between the charts of a
dashboard, and `CategoricalColorScale.ts` hands them out.  The scale of the d3 library and
the colours of tinycolor are parameters.  Colour lists are not empty.
-/

set_option autoImplicit false

namespace Liteset.Charts.Colors

open Lib

inductive Color where
  | string (text : String)
  | undefined
  | inherited (member : String)
deriving DecidableEq

def Color.truthy : Color → Bool
  | .string text => text ≠ ""
  | .undefined => false
  | .inherited _ => true

def Color.isString : Color → Bool
  | .string _ => true
  | _ => false

def objectPrototype : List String :=
  ["constructor", "__defineGetter__", "__defineSetter__", "hasOwnProperty", "__lookupGetter__",
    "__lookupSetter__",
    "isPrototypeOf", "propertyIsEnumerable", "toString", "valueOf", "__proto__", "toLocaleString"]

abbrev ColorsLookup := List (String × String)

/-- `forcedColors[label]`; setting `__proto__` to a string has no effect. -/
def ColorsLookup.get (lookups : ColorsLookup) (label : String) : Color :=
  if label = "__proto__" then .inherited label
  else
    match lookups.lookup label with
    | some color => .string color
    | none => if label ∈ objectPrototype then .inherited label else .undefined

/-- The characters that `trim` removes. -/
def isWhiteSpace (c : Char) : Bool :=
  c.toNat ∈ [9, 10, 11, 12, 13, 32, 160, 5760, 8232, 8233, 8239, 8287, 12288, 65279]
    || (8192 ≤ c.toNat && c.toNat ≤ 8202)

def stringifyAndTrim (value : Option String) : String :=
  String.ofList ((((value.getD "undefined").toList.dropWhile isWhiteSpace).reverse.dropWhile
    isWhiteSpace).reverse)

/-- The libraries: `ordinal range domain value` is the colour of an ordinal scale with its
next domain, `analogous` the hexadecimal texts of tinycolor. -/
structure Library where
  ordinal : List String → List String → String → Option String × List String
  ordinalDefined :
    ∀ range domain value, range ≠ [] → ∃ color ∈ range, (ordinal range domain value).1 = some color
  analogous : String → Nat → List String

structure Features where
  useAnalogousColors : Bool := false
  avoidColorsCollision : Bool := false
deriving DecidableEq

abbrev Palette := { colors : List String // colors ≠ [] }

structure CategoricalColorScale where
  originColors : Palette
  colors : Palette
  domain : List String := []
  chartLabelsColorMap : JsMap String Color := JsMap.empty
  multiple : Nat := 0
deriving DecidableEq

def getAnalogousColors (library : Library) (colors : List String) (results : Nat) : List String :=
  (List.range results).flatMap fun i =>
    colors.filterMap fun color => ((library.analogous color (results + 3)).drop 3)[i]?

namespace CategoricalColorScale

def make (colors : Palette) : CategoricalColorScale where
  originColors := colors
  colors := colors

variable (library : Library) (features : Features) (scale : CategoricalColorScale)

/-- `this.scale(value)` -/
def ordinal (value : String) : Color × CategoricalColorScale :=
  let (color, domain) := library.ordinal scale.colors.val scale.domain value
  (color.elim .undefined .string, { scale with domain })

def incrementColorRange : CategoricalColorScale :=
  let multiple := scale.domain.length / scale.originColors.val.length
  if scale.multiple < multiple then
    { scale with
      multiple
      colors :=
        ⟨scale.originColors.val ++ getAnalogousColors library scale.originColors.val multiple, by
        simp [scale.originColors.property]⟩ }
  else scale

def getColorUsageCount (color : Color) : Nat := scale.chartLabelsColorMap.values.count color

def isColorUsed (color : Color) : Bool := 0 < scale.getColorUsageCount color

def adjacentColors (currentLabel : String) : List Color :=
  let orderedLabels := scale.chartLabelsColorMap.keys
  let (previous, next) :=
    match orderedLabels.idxOf? currentLabel with
    | none => (none, orderedLabels[0]?)
    | some 0 => (none, orderedLabels[1]?)
    | some (n + 1) => (orderedLabels[n]?, orderedLabels[n + 2]?)
  ([previous, next].filterMap fun label =>
    (label.filter (· ≠ "")).bind scale.chartLabelsColorMap.get).filter Color.truthy

def calculateScore (currentLabel color : String) : Nat :=
  let usageCount := if color ∈ scale.colors.val then scale.getColorUsageCount (.string color) else 0
  usageCount + if .string color ∈ scale.adjacentColors currentLabel then 100 else 0

def leastUsed (currentLabel currentColor : String) : String :=
  (scale.colors.val.filter (· ≠ currentColor)).foldl
    (fun bestColor color =>
      if scale.calculateScore currentLabel color < scale.calculateScore currentLabel bestColor
        then color
      else bestColor)
    currentColor

def getNextAvailableColor (currentLabel currentColor : String) : String :=
  match scale.colors.val.find? fun color => scale.getColorUsageCount (.string color) = 0 with
  | some unusedColor =>
    if unusedColor ≠ "" then unusedColor else scale.leastUsed currentLabel currentColor
  | none => scale.leastUsed currentLabel currentColor

def newColor (value : String) : Color × CategoricalColorScale :=
  let (color, scale) := scale.ordinal library value
  let scale := if features.useAnalogousColors then scale.incrementColorRange library else scale
  match color with
  | .string text =>
    if features.avoidColorsCollision && scale.isColorUsed color then
      (.string (scale.getNextAvailableColor value text), scale)
    else (color, scale)
  | _ => (color, scale)

end CategoricalColorScale

inductive LabelsColorMapSource where
  | dashboard
  | explore
deriving DecidableEq

structure ChartConfig where
  labels : List String := []
  scheme : Option String := none
  ownScheme : Option String := none
deriving DecidableEq

structure LabelsColorMap where
  chartsLabelsMap : JsMap Nat ChartConfig := JsMap.empty
  colorMap : JsMap String Color := JsMap.empty
  source : LabelsColorMapSource := .dashboard
deriving DecidableEq

structure CategoricalColorNamespace where
  forcedItems : ColorsLookup := []
  colorsOf : Option String → Palette

def CategoricalColorNamespace.getScale (categoricalNamespace : CategoricalColorNamespace)
    (colorScheme : Option String) : CategoricalColorScale :=
  .make (categoricalNamespace.colorsOf colorScheme)

namespace LabelsColorMap

variable (map : LabelsColorMap)

def addSlice (label : String) (color : Color) (sliceId : Nat) (colorScheme : Option String) :
    LabelsColorMap :=
  let chartConfig := (map.chartsLabelsMap.get sliceId).getD {}
  let map :=
    if label ∈ chartConfig.labels then map
    else
      { map with
        chartsLabelsMap := map.chartsLabelsMap.set sliceId
          { labels := chartConfig.labels ++ [label], scheme := colorScheme,
            ownScheme := chartConfig.ownScheme } }
  if map.source = .dashboard then { map with colorMap := map.colorMap.set label color } else map

def setOwnColorScheme (sliceId : Nat) (ownScheme : String) : LabelsColorMap :=
  match map.chartsLabelsMap.get sliceId with
  | some chartConfig =>
    { map with chartsLabelsMap := map.chartsLabelsMap.set sliceId { chartConfig with
      ownScheme := some ownScheme } }
  | none => map

def keptColors (charts : List (Nat × ChartConfig)) (colorMap : JsMap String Color) :
    JsMap String Color :=
  charts.foldl
    (fun newColorMap chart => chart.2.labels.foldl
      (fun newColorMap label => newColorMap.set label ((colorMap.get label).getD .undefined))
        newColorMap)
    JsMap.empty

def removeSlice (sliceId : Nat) : LabelsColorMap :=
  if map.source ≠ .dashboard then map
  else
    let chartsLabelsMap := map.chartsLabelsMap.delete sliceId
    { map with chartsLabelsMap, colorMap := keptColors chartsLabelsMap.entries map.colorMap }

def clear : LabelsColorMap := { map with colorMap := JsMap.empty }

def reset : LabelsColorMap := { map.clear with chartsLabelsMap := JsMap.empty }

end LabelsColorMap

section Handing

variable (library : Library) (features : Features)

/-- `getColor`, with the scale and the shared map that it leaves. -/
def getColor (scale : CategoricalColorScale) (map : LabelsColorMap) (forcedColors : ColorsLookup)
    (value : Option String) (sliceId : Option Nat) (appliedColorScheme : Option String) :
    Color × CategoricalColorScale × LabelsColorMap :=
  let cleanedValue := stringifyAndTrim value
  let forcedColor := forcedColors.get cleanedValue
  let currentColorMap := match map.source with
    | .dashboard => map.colorMap
    | .explore => scale.chartLabelsColorMap
  let (color, scale) :=
    if forcedColor.truthy then (forcedColor, scale)
    else match currentColorMap.get cleanedValue with
      | some known => (known, scale)
      | none => scale.newColor library features cleanedValue
  let scale :=
    { scale with chartLabelsColorMap := scale.chartLabelsColorMap.set cleanedValue color }
  match sliceId with
  | none => (color, scale, map)
  | some id =>
    (color, scale, if id = 0 then map else map.addSlice cleanedValue color id appliedColorScheme)

/-- One label of a chart in `updateColorMap`. -/
def recolor (forcedItems : ColorsLookup) (merge : Bool) (sliceId : Nat)
    (appliedColorScheme : Option String)
    (state : CategoricalColorScale × LabelsColorMap) (label : String) :
    CategoricalColorScale × LabelsColorMap :=
  if !merge || !state.2.colorMap.has label then
    let (newColor, scale, map) :=
      getColor library features state.1 state.2 forcedItems (some label)
        (some sliceId) appliedColorScheme
    (scale, { map with colorMap := map.colorMap.set label newColor })
  else state

/-- `colorScheme || ownScheme` -/
def appliedScheme (colorScheme ownScheme : Option String) : Option String :=
  if colorScheme.any (· ≠ "") then colorScheme else ownScheme

def recolorChart (categoricalNamespace : CategoricalColorNamespace) (colorScheme : Option String)
    (merge : Bool)
    (map : LabelsColorMap) (chart : Nat × ChartConfig) : LabelsColorMap :=
  let appliedColorScheme := appliedScheme colorScheme chart.2.ownScheme
  (chart.2.labels.foldl
    (recolor library features categoricalNamespace.forcedItems merge chart.1 appliedColorScheme)
    (categoricalNamespace.getScale appliedColorScheme, map)).2

/-- The walk meets each chart once: what `addSlice` changes in it is not visited again. -/
def updateColorMap (map : LabelsColorMap) (categoricalNamespace : CategoricalColorNamespace)
    (colorScheme : Option String) (merge : Bool) : LabelsColorMap :=
  map.chartsLabelsMap.entries.foldl
    (recolorChart library features categoricalNamespace colorScheme merge)
    (if merge then map else map.clear)

structure World where
  scales : List CategoricalColorScale := []
  labels : LabelsColorMap := {}
deriving DecidableEq

inductive Operation where
  | getScale (categoricalNamespace : CategoricalColorNamespace) (colorScheme : Option String)
  | getColor (scale : Nat) (forcedColors : ColorsLookup) (value : Option String)
      (sliceId : Option Nat)
      (appliedColorScheme : Option String)
  | addSlice (label color : String) (sliceId : Nat) (colorScheme : Option String)
  | setOwnColorScheme (sliceId : Nat) (ownScheme : String)
  | updateColorMap (categoricalNamespace : CategoricalColorNamespace) (colorScheme : Option String)
      (merge : Bool)
  | removeSlice (sliceId : Nat)
  | clear
  | reset
  | setSource (source : LabelsColorMapSource)

def step (world : World) : Operation → Option World
  | .getScale categoricalNamespace colorScheme =>
    some { world with scales := world.scales ++ [categoricalNamespace.getScale colorScheme] }
  | .getColor index forcedColors value sliceId appliedColorScheme =>
    world.scales[index]?.map fun scale =>
      let (_, scale, labels) :=
        Colors.getColor library features scale world.labels forcedColors value sliceId
          appliedColorScheme
      { scales := world.scales.set index scale, labels }
  | .addSlice label color sliceId colorScheme =>
    some { world with labels := world.labels.addSlice label (.string color) sliceId colorScheme }
  | .setOwnColorScheme sliceId ownScheme =>
    some { world with labels := world.labels.setOwnColorScheme sliceId ownScheme }
  | .updateColorMap categoricalNamespace colorScheme merge =>
    some { world with
      labels := Colors.updateColorMap library features world.labels categoricalNamespace
        colorScheme merge }
  | .removeSlice sliceId => some { world with labels := world.labels.removeSlice sliceId }
  | .clear => some { world with labels := world.labels.clear }
  | .reset => some { world with labels := world.labels.reset }
  | .setSource source => some { world with labels := { world.labels with source } }

end Handing

end Liteset.Charts.Colors
