import Liteset.Charts.LabelsColorMap

/-!
# The shared map holds colours

A run of the shared map and its scales keeps every entry a colour text, and each colour
handed out in a dashboard is the one the map holds.  Two steps can break this: removing a
slice while another one lists a label without a colour, and a label that names a member of
the prototype of all objects.
-/

set_option autoImplicit false

namespace Liteset.Charts.Colors

open Lib

def Strings (colors : JsMap String Color) : Prop :=
  ∀ label color, colors.get label = some color → color.isString = true

theorem strings_empty : Strings JsMap.empty := by
  intro label color found
  simp at found

theorem strings_set (colors : JsMap String Color) (label : String) (color : Color)
    (strings : Strings colors)
    (string : color.isString = true) : Strings (colors.set label color) := by
  intro other value found
  rw [JsMap.get_set] at found
  by_cases same : other = label
  · rw [if_pos same] at found
    exact Option.some.inj found ▸ string
  · rw [if_neg same] at found
    exact strings other value found

/-- Not the name of a prototype's member, unless a colour is forced for it. -/
def Plain (forcedColors : ColorsLookup) (value : Option String) : Prop :=
  forcedColors.get (stringifyAndTrim value) = .undefined ∨
    (forcedColors.get (stringifyAndTrim value)).isString = true

section Handing

-- Two answers are compared below, which must not evaluate these.
attribute [local irreducible] stringifyAndTrim CategoricalColorScale.newColor

variable (library : Library) (features : Features)

variable (scale : CategoricalColorScale)

theorem ordinal_string (value : String) :
    ∃ text, (scale.ordinal library value).1 = .string text := by
  obtain ⟨color, -, given⟩ :=
    library.ordinalDefined scale.colors.val scale.domain value scale.colors.property
  exact ⟨color, by simp [CategoricalColorScale.ordinal, given]⟩

theorem incrementColorRange_chartLabels :
    (scale.incrementColorRange library).chartLabelsColorMap = scale.chartLabelsColorMap := by
  unfold CategoricalColorScale.incrementColorRange
  dsimp only
  split <;> rfl

/-- The ordinal scale gives a colour, which a collision may replace by another of the range. -/
theorem newColor_spec (value : String) :
    (scale.newColor library features value).1.isString = true ∧
      (scale.newColor library features value).2.chartLabelsColorMap =
        scale.chartLabelsColorMap := by
  obtain ⟨text, given⟩ := ordinal_string library scale value
  have advanced : (if features.useAnalogousColors then
      (scale.ordinal library value).2.incrementColorRange library
      else (scale.ordinal library value).2).chartLabelsColorMap
        = scale.chartLabelsColorMap := by
    split
    · exact incrementColorRange_chartLabels library _
    · rfl
  simp only [CategoricalColorScale.newColor, given]
  generalize (if features.useAnalogousColors then
    (scale.ordinal library value).2.incrementColorRange library
    else (scale.ordinal library value).2) = next at advanced ⊢
  split
  · exact ⟨rfl, advanced⟩
  · exact ⟨rfl, advanced⟩

variable (map : LabelsColorMap)

section
variable (label : String) (color : Color) (sliceId : Nat) (colorScheme : Option String)
include label color sliceId colorScheme

theorem addSlice_source : (map.addSlice label color sliceId colorScheme).source = map.source := by
  unfold LabelsColorMap.addSlice
  dsimp only
  split_ifs <;> rfl

theorem addSlice_colorMap :
    (map.addSlice label color sliceId colorScheme).colorMap =
      if map.source = .dashboard then map.colorMap.set label color else map.colorMap := by
  unfold LabelsColorMap.addSlice
  dsimp only
  split_ifs <;> simp_all

theorem strings_addSlice (strings : Strings map.colorMap)
    (string : map.source = .dashboard → color.isString = true) :
    Strings (map.addSlice label color sliceId colorScheme).colorMap := by
  rw [addSlice_colorMap]
  by_cases dashboard : map.source = .dashboard
  · rw [if_pos dashboard]
    exact strings_set map.colorMap label color strings (string dashboard)
  · rwa [if_neg dashboard]

end

/-- The map in which `getColor` looks a label up. -/
def known (scale : CategoricalColorScale) (map : LabelsColorMap) : JsMap String Color :=
  match map.source with
  | .dashboard => map.colorMap
  | .explore => scale.chartLabelsColorMap

def handedOut (scale : CategoricalColorScale) (map : LabelsColorMap) (forcedColors : ColorsLookup)
    (label : String) : Color × CategoricalColorScale :=
  if (forcedColors.get label).truthy then (forcedColors.get label, scale)
  else match (known scale map).get label with
    | some color => (color, scale)
    | none => scale.newColor library features label

variable (forcedColors : ColorsLookup) (value : Option String) (sliceId : Option Nat)
  (appliedColorScheme : Option String)

theorem getColor_eq :
    let label := stringifyAndTrim value
    let (color, next) := handedOut library features scale map forcedColors label
    getColor library features scale map forcedColors value sliceId appliedColorScheme =
      (color, { next with chartLabelsColorMap := next.chartLabelsColorMap.set label color },
        match sliceId with
        | none => map
        | some id => if id = 0 then map else map.addSlice label color id appliedColorScheme) := by
  unfold getColor handedOut known
  dsimp only
  cases sliceId <;> rfl

theorem handedOut_string (plain : Plain forcedColors value) (strings : Strings (known scale map)) :
    (handedOut library features scale map forcedColors (stringifyAndTrim value)).1.isString =
      true := by
  unfold handedOut
  by_cases forced : (forcedColors.get (stringifyAndTrim value)).truthy = true
  · rw [if_pos forced]
    rcases plain with none_ | string
    · rw [none_] at forced
      cases forced
    · exact string
  · rw [if_neg forced]
    cases found : (known scale map).get (stringifyAndTrim value) with
    | some color => exact strings _ color found
    | none => exact (newColor_spec library features scale _).1

theorem handedOut_chartLabels (label : String) :
    (handedOut library features scale map forcedColors label).2.chartLabelsColorMap =
      scale.chartLabelsColorMap := by
  unfold handedOut
  split
  · rfl
  · split
    · rfl
    · exact (newColor_spec library features scale label).2

structure Handed (scale : CategoricalColorScale) (map : LabelsColorMap) (label : String)
    (sliceId : Option Nat)
    (result : Color × CategoricalColorScale × LabelsColorMap) : Prop where
  string : result.1.isString = true
  own : Strings scale.chartLabelsColorMap → Strings result.2.1.chartLabelsColorMap
  shared : Strings result.2.2.colorMap
  source : result.2.2.source = map.source
  held : map.source = .dashboard → ∀ id, sliceId = some id → id ≠ 0 →
    result.2.2.colorMap.get label = some result.1
  grown : ∀ other, map.colorMap.has other = true → result.2.2.colorMap.has other = true

theorem getColor_handed (plain : Plain forcedColors value) (strings : Strings map.colorMap)
    (own : map.source = .explore → Strings scale.chartLabelsColorMap) :
    Handed scale map (stringifyAndTrim value) sliceId
      (getColor library features scale map forcedColors value sliceId appliedColorScheme) := by
  have looked : Strings (known scale map) := by
    unfold known
    cases source : map.source with
    | dashboard => exact strings
    | explore => exact own source
  have string := handedOut_string library features scale map forcedColors value plain looked
  have kept := handedOut_chartLabels library features scale map forcedColors
    (stringifyAndTrim value)
  have equation :=
    getColor_eq library features scale map forcedColors value sliceId appliedColorScheme
  dsimp only at equation
  rw [equation]
  generalize handedOut library features scale map forcedColors (stringifyAndTrim value) =
    handed at string kept ⊢
  obtain ⟨color, next⟩ := handed
  dsimp only at string kept
  have mine : Strings scale.chartLabelsColorMap →
      Strings (next.chartLabelsColorMap.set (stringifyAndTrim value) color) := fun mine =>
    strings_set _ _ color (kept ▸ mine) string
  cases sliceId with
  | none =>
    exact ⟨string, mine, strings, rfl, (fun _ id given => by cases given), fun _ there => there⟩
  | some id =>
    by_cases zero : id = 0
    · subst zero
      exact ⟨string, mine, strings, rfl,
        fun _ id given positive => absurd (Option.some.inj given).symm positive,
        fun _ there => there⟩
    · refine ⟨string, mine, ?_, ?_, ?_, ?_⟩
      · dsimp only
        rw [if_neg zero]
        exact strings_addSlice map _ color id appliedColorScheme strings fun _ => string
      · dsimp only
        rw [if_neg zero, addSlice_source]
      · intro dashboard _ _ _
        dsimp only
        rw [if_neg zero, addSlice_colorMap, if_pos dashboard, JsMap.get_set_self]
      · intro other there
        dsimp only
        rw [if_neg zero, addSlice_colorMap]
        split
        · exact (JsMap.has_set _ _ _ _).mpr (Or.inr there)
        · exact there

structure Recoloured (start map : LabelsColorMap) : Prop where
  shared : Strings map.colorMap
  source : map.source = start.source
  grown : ∀ label, start.colorMap.has label = true → map.colorMap.has label = true

def PlainIfNew (forcedItems : ColorsLookup) (merge : Bool) (start : LabelsColorMap)
    (label : String) : Prop :=
  (merge = true → start.colorMap.has label = false) → Plain forcedItems (some label)

theorem recolor_recoloured (forcedItems : ColorsLookup) (merge : Bool) (sliceId : Nat)
    (appliedColorScheme : Option String) (start : LabelsColorMap)
    (state : CategoricalColorScale × LabelsColorMap)
    (label : String) (own : Strings state.1.chartLabelsColorMap) (kept : Recoloured start state.2)
    (plain : PlainIfNew forcedItems merge start label) :
    Strings (recolor library features forcedItems merge sliceId appliedColorScheme state
      label).1.chartLabelsColorMap ∧
      Recoloured start
        (recolor library features forcedItems merge sliceId appliedColorScheme state label).2 := by
  unfold recolor
  by_cases needed : (!merge || !state.2.colorMap.has label) = true
  · have new : merge = true → start.colorMap.has label = false := by
      intro merging
      rw [merging, Bool.not_true, Bool.false_or, Bool.not_eq_true'] at needed
      by_contra there
      rw [kept.grown label (by simpa using there)] at needed
      cases needed
    have handed :=
      getColor_handed library features state.1 state.2 forcedItems (some label) (some sliceId)
      appliedColorScheme (plain new) kept.shared fun _ => own
    rw [if_pos needed]
    refine ⟨handed.own own, strings_set _ _ _ handed.shared handed.string,
      handed.source.trans kept.source, ?_⟩
    intro other there
    exact (JsMap.has_set _ _ _ _).mpr (Or.inr (handed.grown other (kept.grown other there)))
  · rw [if_neg needed]
    exact ⟨own, kept⟩

variable (categoricalNamespace : CategoricalColorNamespace)

theorem recolorChart_recoloured (colorScheme : Option String)
    (merge : Bool) (start map : LabelsColorMap) (chart : Nat × ChartConfig)
    (kept : Recoloured start map)
    (plain : ∀ label ∈ chart.2.labels,
      PlainIfNew categoricalNamespace.forcedItems merge start label) :
    Recoloured start
      (recolorChart library features categoricalNamespace colorScheme merge map chart) := by
  unfold recolorChart
  dsimp only
  have fresh : Strings
    (categoricalNamespace.getScale
      (appliedScheme colorScheme chart.2.ownScheme)).chartLabelsColorMap :=
    strings_empty
  generalize categoricalNamespace.getScale (appliedScheme colorScheme chart.2.ownScheme) =
    scale at fresh ⊢
  generalize chart.2.labels = labels at plain
  induction labels generalizing scale map with
  | nil => exact kept
  | cons label rest ih =>
    rw [List.foldl_cons]
    obtain ⟨own, kept⟩ :=
      recolor_recoloured library features categoricalNamespace.forcedItems merge chart.1
      (appliedScheme colorScheme chart.2.ownScheme) start (scale, map) label fresh kept
        (plain label List.mem_cons_self)
    exact ih _ kept _ own fun other member => plain other (List.mem_cons_of_mem _ member)

theorem strings_updateColorMap (colorScheme : Option String) (merge : Bool)
    (strings : Strings map.colorMap)
    (plain : ∀ chart ∈ map.chartsLabelsMap.entries, ∀ label ∈ chart.2.labels,
      PlainIfNew categoricalNamespace.forcedItems merge map label) :
    Strings (updateColorMap library features map categoricalNamespace colorScheme
      merge).colorMap := by
  unfold updateColorMap
  have begun : Strings (if merge then map else map.clear).colorMap := by
    cases merge with
    | false => exact strings_empty
    | true => exact strings
  have here : ∀ chart ∈ map.chartsLabelsMap.entries, ∀ label ∈ chart.2.labels,
      PlainIfNew categoricalNamespace.forcedItems merge (if merge then map else map.clear)
        label := by
    cases merge with
    | false =>
      exact fun chart charted label listed _ => plain chart charted label listed fun merging =>
        by cases merging
    | true => exact plain
  generalize (if merge then map else map.clear) = start at begun here ⊢
  suffices ∀ current, Recoloured start current → Strings (map.chartsLabelsMap.entries.foldl
      (recolorChart library features categoricalNamespace colorScheme merge) current).colorMap from
    this start ⟨begun, rfl, fun _ there => there⟩
  generalize map.chartsLabelsMap.entries = charts at here
  induction charts with
  | nil => exact fun current kept => kept.shared
  | cons chart rest ih =>
    intro current kept
    rw [List.foldl_cons]
    exact ih (fun other member => here other (List.mem_cons_of_mem _ member)) _
      (recolorChart_recoloured library features categoricalNamespace colorScheme merge start current
        chart kept
        (here chart List.mem_cons_self))

theorem get_foldl_set {κ β : Type} [DecidableEq κ] (value : κ → β) (labels : List κ)
    (colors : JsMap κ β) (label : κ) :
    (labels.foldl (fun colors label => colors.set label (value label)) colors).get label =
      if label ∈ labels then some (value label) else colors.get label := by
  induction labels generalizing colors with
  | nil => simp
  | cons first rest ih =>
    rw [List.foldl_cons, ih, JsMap.get_set]
    by_cases later : label ∈ rest
    · simp [later]
    · by_cases here : label = first
      · simp [here]
      · simp [later, here]

theorem get_keptColors (charts : List (Nat × ChartConfig)) (colorMap : JsMap String Color)
    (label : String) :
    (LabelsColorMap.keptColors charts colorMap).get label =
      if label ∈ charts.flatMap fun chart => chart.2.labels
        then some ((colorMap.get label).getD .undefined)
      else none := by
  rw [LabelsColorMap.keptColors, ← List.foldl_flatMap, get_foldl_set, JsMap.get_empty]

def Coloured (map : LabelsColorMap) (sliceId : Nat) : Prop :=
  ∀ chart ∈ (map.chartsLabelsMap.delete sliceId).entries,
    ∀ label ∈ chart.2.labels, map.colorMap.has label = true

theorem strings_removeSlice_iff (sliceId : Nat) (strings : Strings map.colorMap) :
    Strings (map.removeSlice sliceId).colorMap ↔
    (map.source = .dashboard → Coloured map sliceId) := by
  unfold LabelsColorMap.removeSlice
  by_cases dashboard : map.source = .dashboard
  · rw [if_neg (not_not.mpr dashboard)]
    dsimp only
    simp only [dashboard, forall_const]
    constructor
    · intro kept chart charted label listed
      have member : label ∈ (map.chartsLabelsMap.delete sliceId).entries.flatMap fun chart =>
        chart.2.labels :=
        List.mem_flatMap.mpr ⟨chart, charted, listed⟩
      have string := kept label _ ((get_keptColors _ map.colorMap label).trans (if_pos member))
      rw [JsMap.has]
      cases found : map.colorMap.get label with
      | some color => rfl
      | none =>
        rw [found] at string
        cases string
    · intro coloured label color found
      rw [get_keptColors] at found
      obtain ⟨member, given⟩ := Option.ite_none_right_eq_some.mp found
      obtain ⟨chart, charted, listed⟩ := List.mem_flatMap.mp member
      obtain ⟨old, there⟩ := (JsMap.has_iff _ _).mp (coloured chart charted label listed)
      rw [there] at given
      exact Option.some.inj given ▸ strings label old there
  · rw [if_pos dashboard]
    exact iff_of_true strings fun dashboard' => absurd dashboard' dashboard

def Held (map : LabelsColorMap) (forcedColors : ColorsLookup) (label : String) : Prop :=
  if (forcedColors.get label).truthy then map.colorMap.get label = some (forcedColors.get label)
  else map.colorMap.has label = true

def Kept (world : World) : Operation → Prop
  | .getColor _ forcedColors value sliceId _ =>
    world.labels.source = .dashboard →
      Plain forcedColors value ∧
      (sliceId = some 0 → Held world.labels forcedColors (stringifyAndTrim value))
  | .updateColorMap categoricalNamespace _ merge =>
    ∀ chart ∈ world.labels.chartsLabelsMap.entries, ∀ label ∈ chart.2.labels,
      PlainIfNew categoricalNamespace.forcedItems merge world.labels label
  | .removeSlice sliceId => world.labels.source = .dashboard → Coloured world.labels sliceId
  | _ => True

def Answered (world : World) : Operation → Prop
  | .getColor index forcedColors value sliceId appliedColorScheme =>
    world.labels.source = .dashboard → ∀ scale ∈ world.scales[index]?,
      let answer := getColor library features scale world.labels forcedColors value sliceId
        appliedColorScheme
      answer.1.isString = true ∧
        (sliceId ≠ none → answer.2.2.colorMap.get (stringifyAndTrim value) = some answer.1)
  | _ => True

theorem answer_of_held (dashboard : map.source = .dashboard)
    (held : Held map forcedColors (stringifyAndTrim value)) :
    let answer := getColor library features scale map forcedColors value (some 0) appliedColorScheme
    answer.2.2.colorMap.get (stringifyAndTrim value) = some answer.1 := by
  intro answer
  have equation :=
    getColor_eq library features scale map forcedColors value (some 0) appliedColorScheme
  dsimp only at equation
  simp only [answer, equation, if_true, handedOut, known, dashboard]
  unfold Held at held
  by_cases forced : (forcedColors.get (stringifyAndTrim value)).truthy = true
  · rw [if_pos forced] at held ⊢
    exact held
  · rw [if_neg forced] at held ⊢
    obtain ⟨color, found⟩ := (JsMap.has_iff _ _).mp held
    rw [found]

theorem answered_of_kept (world : World) (operation : Operation)
    (strings : Strings world.labels.colorMap)
    (kept : Kept world operation) : Answered library features world operation := by
  cases operation with
  | getColor index forcedColors value sliceId appliedColorScheme =>
    intro dashboard scale held
    obtain ⟨plain, zero⟩ := kept dashboard
    have handed :=
      getColor_handed library features scale world.labels forcedColors value sliceId
        appliedColorScheme
      plain strings fun explore => by rw [dashboard] at explore; cases explore
    refine ⟨handed.string, fun given => ?_⟩
    obtain ⟨id, rfl⟩ := Option.ne_none_iff_exists'.mp given
    by_cases none_ : id = 0
    · subst none_
      exact answer_of_held library features scale world.labels forcedColors value appliedColorScheme
        dashboard (zero rfl)
    · exact handed.held dashboard id rfl none_
  | _ => trivial

theorem getColor_colorMap_of_explore (explore : map.source = .explore) :
    (getColor library features scale map forcedColors value sliceId
      appliedColorScheme).2.2.colorMap = map.colorMap := by
  rw [getColor_eq]
  cases sliceId with
  | none => rfl
  | some id =>
    dsimp only
    split
    · rfl
    · rw [addSlice_colorMap, if_neg (by rw [explore]; decide)]

theorem strings_step (world next : World) (operation : Operation)
    (strings : Strings world.labels.colorMap)
    (kept : Kept world operation) (taken : step library features world operation = some next) :
    Strings next.labels.colorMap := by
  cases operation with
  | getScale categoricalNamespace colorScheme =>
    cases taken
    exact strings
  | getColor index forcedColors value sliceId appliedColorScheme =>
    obtain ⟨scale, -, rfl⟩ := Option.map_eq_some_iff.mp taken
    cases source : world.labels.source with
    | dashboard =>
      exact (getColor_handed library features scale world.labels forcedColors value sliceId
        appliedColorScheme
        (kept source).1 strings fun explore => by rw [source] at explore; cases explore).shared
    | explore =>
      dsimp only
      rw [getColor_colorMap_of_explore library features scale world.labels forcedColors
        value sliceId
        appliedColorScheme source]
      exact strings
  | addSlice label color sliceId colorScheme =>
    cases taken
    exact strings_addSlice world.labels label _ sliceId colorScheme strings fun _ => rfl
  | setOwnColorScheme sliceId ownScheme =>
    cases taken
    unfold LabelsColorMap.setOwnColorScheme
    dsimp only
    split
    · exact strings
    · exact strings
  | updateColorMap categoricalNamespace colorScheme merge =>
    cases taken
    exact strings_updateColorMap library features world.labels categoricalNamespace colorScheme
      merge strings kept
  | removeSlice sliceId =>
    cases taken
    exact (strings_removeSlice_iff world.labels sliceId strings).mpr kept
  | clear =>
    cases taken
    exact strings_empty
  | reset =>
    cases taken
    exact strings_empty
  | setSource source =>
    cases taken
    exact strings

/-- After every run of allowed steps the map holds colour texts only, and calls give them. -/
def NeverMissing (allowed : World → Operation → Prop) : Prop :=
  ∀ world, Runs.Reaches (step library features) allowed {} world →
    Strings world.labels.colorMap ∧ ∀ operation, allowed world operation →
    Answered library features world operation

theorem neverMissing_of_kept : NeverMissing library features Kept := by
  intro world reached
  have strings : Strings world.labels.colorMap :=
    reached.invariant (fun world => Strings world.labels.colorMap) strings_empty
      fun world operation next strings kept
      taken => strings_step library features world next operation strings kept taken
  exact ⟨strings,
    fun operation kept => answered_of_kept library features world operation strings kept⟩

end Handing

def ordinalOf (range domain : List String) (value : String) : Option String × List String :=
  let domain := if value ∈ domain then domain else domain ++ [value]
  (range[domain.idxOf value % range.length]?, domain)

def library : Library where
  ordinal := ordinalOf
  ordinalDefined := by
    intro range domain value given
    have bound := Nat.mod_lt ((if value ∈ domain then domain else domain ++ [value]).idxOf value)
      (List.length_pos_of_ne_nil given)
    exact ⟨_, List.getElem_mem bound, List.getElem?_eq_getElem bound⟩
  analogous := fun color results => List.replicate results color

def palette : CategoricalColorNamespace where
  colorsOf := fun _ => ⟨["#1fa8c9", "#454e7c"], by decide⟩

instance (forcedColors : ColorsLookup) (value : Option String) :
    Decidable (Plain forcedColors value) :=
  inferInstanceAs (Decidable (_ ∨ _))

instance (forcedItems : ColorsLookup) (merge : Bool) (start : LabelsColorMap) (label : String) :
    Decidable (PlainIfNew forcedItems merge start label) :=
  inferInstanceAs (Decidable (_ → Plain forcedItems (some label)))

instance (map : LabelsColorMap) (sliceId : Nat) : Decidable (Coloured map sliceId) :=
  inferInstanceAs
    (Decidable (∀ chart ∈ (map.chartsLabelsMap.delete sliceId).entries, ∀ label ∈ chart.2.labels,
    map.colorMap.has label = true))

instance (map : LabelsColorMap) (forcedColors : ColorsLookup) (label : String) :
    Decidable (Held map forcedColors label) :=
  inferInstanceAs (Decidable (if (forcedColors.get label).truthy then _ else _))

instance (world : World) (operation : Operation) : Decidable (Kept world operation) :=
  match operation with
  | .getColor _ forcedColors value sliceId _ =>
    inferInstanceAs
      (Decidable (_ → Plain forcedColors value ∧ (sliceId = some 0 → Held _ forcedColors _)))
  | .updateColorMap categoricalNamespace _ merge =>
    inferInstanceAs
      (Decidable (∀ chart ∈ world.labels.chartsLabelsMap.entries, ∀ label ∈ chart.2.labels,
      PlainIfNew categoricalNamespace.forcedItems merge world.labels label))
  | .removeSlice sliceId => inferInstanceAs (Decidable (_ → Coloured world.labels sliceId))
  | .getScale _ _ | .addSlice _ _ _ _ | .setOwnColorScheme _ _ | .clear | .reset | .setSource _ =>
    isTrue trivial

/-- Two charts share a label, the first is removed, and a chart without an id asks again. -/
def twoCharts : List Operation :=
  [.getScale palette none, .getColor 0 [] (some "a") (some 1) none,
    .getColor 0 [] (some "b") (some 1) none,
    .getScale palette none, .getColor 1 [("b", "#ff0000")] (some "b") (some 2) none,
    .getColor 1 [] (some " a ") (some 2) none, .removeSlice 1, .updateColorMap palette none true]

theorem twoCharts_answered : ∃ world, Runs.Reaches (step library {}) Kept {} world ∧
    world.labels.colorMap.get "a" = some (.string "#1fa8c9") ∧
    world.labels.colorMap.get "b" = some (.string "#ff0000") ∧
    Strings world.labels.colorMap ∧
    Answered library {} world (.getColor 0 [] (some "b") (some 0) none) := by
  obtain ⟨world, reached, first, second, kept⟩ :=
    Runs.exists_reaches_of_runWithin (step library {}) Kept {} twoCharts
      (fun world => world.labels.colorMap.get "a" = some (.string "#1fa8c9") ∧
        world.labels.colorMap.get "b" = some (.string "#ff0000") ∧
        Kept world (.getColor 0 [] (some "b") (some 0) none)) (by decide)
  have never := neverMissing_of_kept library {} world reached
  exact ⟨world, reached, first, second, never.1, never.2 _ kept⟩

def exploreThenRemove : List Operation :=
  [.setSource .explore, .getScale palette none, .getColor 0 [] (some "a") (some 1) none,
    .setSource .dashboard, .removeSlice 2]

/-- The removal leaves an entry without a colour, and the next call hands it out. -/
theorem entry_without_color :
    ¬NeverMissing library {} Runs.anyStep ∧
      ∃ world, Runs.Reaches (step library {}) Runs.anyStep {} world ∧
        world.labels.colorMap.get "a" = some .undefined ∧
        ¬Answered library {} world (.getColor 0 [] (some "a") (some 1) none) := by
  obtain ⟨world, reached, entry, source, color⟩ :=
    Runs.exists_reaches_of_runWithin (step library {}) Runs.anyStep {} exploreThenRemove
      (fun world => world.labels.colorMap.get "a" = some .undefined ∧
        world.labels.source = .dashboard ∧
        (world.scales[0]?.map fun scale =>
          (getColor library {} scale world.labels [] (some "a") (some 1) none).1) = some .undefined)
      (by decide)
  refine ⟨fun never => ?_, world, reached, entry, fun answered => ?_⟩
  · have string := (never world reached).1 "a" _ entry
    cases string
  · obtain ⟨scale, held, missing⟩ := Option.map_eq_some_iff.mp color
    have string := (answered source scale held).1
    rw [missing] at string
    cases string

end Liteset.Charts.Colors
