import Liteset.Lib.Escaping
import Liteset.Lib.PyText

/-!
# Flattened column names

`flatten` joins the labels of a multi-level column to one name, and `get_df_payload` takes
the name apart again for its label map.  A label that is null is left out of the name.
-/

set_option autoImplicit false

namespace Liteset.Charts.FlatColumns

open Lib

abbrev Text := List Char

def flatColumnSeparator : Text := [',', ' ']

def escapeSeparator : Text → Text := Escaping.escape ',' '\\'

def unescapeSeparator : Text → Text := Escaping.unescape ',' '\\'

/-- What `flatten` asks of labels, which are any objects: `elements` are those of a sequence
that is no text. -/
structure Labels (ι : Type) where
  isNull : ι → Bool
  str : ι → Text
  ofText : Text → ι
  elements : ι → Option (List ι)

inductive Columns (ι : Type) where
  | index (labels : List ι)
  | multiIndex (columns : List (List ι))

structure Frame (ι : Type) where
  columns : Columns ι
  /-- What `reset_index` names the first level of the rows; `none` is a `RangeIndex`. -/
  indexName : Option ι

section Model
variable {ι : Type} (labels : Labels ι) (dropLevels : List Nat)

def droplevel (column : List ι) : List ι :=
  (column.zipIdx.filter fun level => level.2 ∉ dropLevels).map Prod.fst

def cells (column : List ι) : List ι :=
  match droplevel dropLevels column with
  | [label] => if column.length = 1 then [label] else (labels.elements label).getD [label]
  | kept => kept

def shown (column : List ι) : List Text :=
  ((cells labels dropLevels column).filter fun cell => !labels.isNull cell).map labels.str

def flatName (column : List ι) : Text :=
  flatColumnSeparator.intercalate ((shown labels dropLevels column).map escapeSeparator)

/-- `none` where the name of the rows is that of a column already. -/
def resetColumns [DecidableEq ι] (indexName : Option ι) (columns : List ι) : Option (List ι) :=
  match indexName with
  | none => some columns
  | some name => if name ∈ columns then none else some (name :: columns)

/-- The columns after `flatten`. -/
def flatten [DecidableEq ι] (resetIndex : Bool) (frame : Frame ι) : Option (List ι) :=
  let columns := match frame.columns with
    | .index columns => columns
    | .multiIndex columns =>
      columns.map fun column => labels.ofText (flatName labels dropLevels column)
  if resetIndex then resetColumns frame.indexName columns else some columns

/-- The entry of the label map: `re.split(r"(?<!\\),\s", col)`, each part unescaped. -/
def labelList (col : Text) : List Text :=
  (Escaping.splitAfter ',' '\\' PyText.isspace none col).map unescapeSeparator

end Model

theorem labelList_intercalate {texts : List Text} (nonempty : texts ≠ [])
    (unambiguous : Escaping.Unambiguous '\\' texts) :
    labelList (flatColumnSeparator.intercalate (texts.map escapeSeparator)) = texts := by
  have parts : Escaping.splitAfter ',' '\\' PyText.isspace none
    (flatColumnSeparator.intercalate (texts.map escapeSeparator)) =
      texts.map escapeSeparator :=
    Escaping.splitAfter_intercalate (by decide) (by decide) (by decide) texts none
      (by simp) nonempty unambiguous
  have read : labelList (flatColumnSeparator.intercalate (texts.map escapeSeparator)) =
      (texts.map escapeSeparator).map unescapeSeparator :=
    congrArg (List.map unescapeSeparator) parts
  have back : unescapeSeparator ∘ escapeSeparator = id :=
    funext fun text => Escaping.unescape_escape (by decide) text
  rw [read, List.map_map, back, List.map_id]

/-- Columns are named alike only when their labels, without the null ones, read alike, and the
labels of a column without null labels are found again, as long as no label but the last ends
with a backslash. -/
theorem names_taken_apart {ι : Type} (labels : Labels ι) (dropLevels : List Nat) [DecidableEq ι]
    (columns : List (List ι))
    (indexName : Option ι) (resetIndex : Bool) :
    (∀ names, flatten labels dropLevels resetIndex ⟨.multiIndex columns, indexName⟩ = some names →
      names = (if resetIndex then indexName.toList else []) ++
        columns.map fun column => labels.ofText (flatName labels dropLevels column)) ∧
    (∀ first ∈ columns, ∀ second ∈ columns, shown labels dropLevels first ≠ [] →
      shown labels dropLevels second ≠ [] →
      Escaping.Unambiguous '\\' (shown labels dropLevels first) →
      Escaping.Unambiguous '\\' (shown labels dropLevels second) →
      (flatName labels dropLevels first = flatName labels dropLevels second ↔
        shown labels dropLevels first = shown labels dropLevels second)) ∧
    ∀ column ∈ columns, cells labels dropLevels column ≠ [] →
    (∀ cell ∈ cells labels dropLevels column, labels.isNull cell = false) →
      Escaping.Unambiguous '\\' ((cells labels dropLevels column).map labels.str) →
      labelList (flatName labels dropLevels column) =
        (cells labels dropLevels column).map labels.str := by
  refine ⟨?_, ?_, ?_⟩
  · intro names done
    simp only [flatten, resetColumns] at done
    cases resetIndex with
    | false => simpa using done.symm
    | true =>
      cases indexName with
      | none => simpa using done.symm
      | some name =>
        rw [if_pos rfl] at done
        dsimp only at done
        split at done
        · cases done
        · simpa using done.symm
  · intro first _ second _ hasFirst hasSecond firstPlain secondPlain
    constructor
    · intro same
      have read := congrArg labelList same
      rwa [flatName, flatName, labelList_intercalate hasFirst firstPlain,
        labelList_intercalate hasSecond secondPlain] at read
    · exact fun same => by rw [flatName, flatName, same]
  · intro column _ nonempty filled plain
    have all : shown labels dropLevels column =
        (cells labels dropLevels column).map labels.str := by
      rw [shown, List.filter_eq_self.mpr fun cell member => by rw [filled cell member]; rfl]
    rw [flatName, all]
    exact labelList_intercalate (by simpa using nonempty) plain

def textLabels : Labels (Option Text) where
  isNull := Option.isNone
  str label := label.getD "nan".toList
  ofText := some
  elements _ := none

def region : List (Option Text) := [some "north, west".toList, some "a\\b, ".toList]

theorem region_taken_apart :
    labelList (flatName textLabels [] region) = ["north, west".toList, "a\\b, ".toList] :=
  (names_taken_apart textLabels [] [region] none true).2.2 region (List.mem_singleton.mpr rfl)
    (by decide) (by decide)
    (by unfold Escaping.Unambiguous; decide)

/-- Two columns that differ in the level that is null have one name. -/
theorem null_level_lost :
    ([some "a".toList, none] : List (Option Text)) ≠ [none, some "a".toList] ∧
      flatten textLabels [] true
        ⟨.multiIndex [[some "a".toList, none], [none, some "a".toList]], none⟩ =
        some [some "a".toList, some "a".toList] := by
  decide

end Liteset.Charts.FlatColumns
