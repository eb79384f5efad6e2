import Liteset.Lib.PyText

/-!
# Export to CSV

`df_to_escaped_csv` of `utils/csv.py` escapes the headers and then, column by column,
the texts of a data frame.  It assigns through `df.at`, which goes by labels; what
`df.at` does to a frame is a parameter.
-/

set_option autoImplicit false

namespace Liteset.Charts.CsvExport

open Liteset.Lib List

/-- A level of a label: a text, a whole number, another number or another value (a date, a
span of time) as `to_csv` writes it. -/
inductive Level where
  | text (s : String)
  | int (n : Int)
  | number (written : String)
  | other (written : String)
  deriving DecidableEq

inductive Label where
  | one (level : Level)
  | tuple (levels : List Level)
  deriving DecidableEq

inductive Cell where
  | text (s : String)
  | number (written : String)
  | other (written : String)
  deriving DecidableEq

/-- `indexNames` and `columnNames` are the names of the levels of the index and of the
headers. -/
structure Frame where
  index : List Label
  columns : List Label
  indexNames : List Level := []
  columnNames : List Level := []
  /-- `column.dtype == np.dtype(object)` -/
  isObject : Nat → Bool
  cell : Nat → Nat → Cell

def isProblematic (c : Char) : Bool := c ∈ ['-', '@', '+', '|', '=', '%']

/-- `problematic_chars_re`: none of the characters is white space. -/
def needsEscaping (value : List Char) : Bool :=
  match value with
  | '"' :: '"' :: c :: _ => isProblematic c
  | value => (value.dropWhile PyText.isspace).head?.any isProblematic

/-- `negative_number_re`; its `$` also stands before a final newline. -/
def isNegativeNumber (value : List Char) : Bool :=
  match value with
  | '-' :: rest =>
    let digits := if rest.getLast? = some '\n' then rest.dropLast else rest
    digits ≠ [] ∧ digits.all fun c => c = '.' ∨ c.isDigit
  | _ => false

def escapeValue (value : String) : String :=
  if needsEscaping value.toList ∧ ¬isNegativeNumber value.toList then
    String.ofList ('\'' :: value.toList.flatMap fun c => if c = '|' then ['\\', '|'] else [c])
  else value

def escapeCell : Cell → Cell
  | .text s => .text (escapeValue s)
  | cell => cell

def escapeLevel : Level → Level
  | .text s => .text (escapeValue s)
  | level => level

/-- `escape_values` on a label; on one of several levels, it is applied to each. -/
def escapeLabel : Label → Label
  | .one level => .one (escapeLevel level)
  | .tuple levels => .tuple (levels.map escapeLevel)

section Export
variable (setAt : Frame → Nat → Label → Cell → Frame)

/-- The loop over `column.values`. -/
def escapeColumn (df : Frame) (name : Label) (j : Nat) : Frame :=
  if df.isObject j then
    (List.range df.index.length).foldl (fun acc idx =>
      match df.cell idx j with
      | .text value => setAt acc idx name (.text (escapeValue value))
      | _ => acc) df
  else df

/-- The frame that `to_csv` writes. -/
def escaped (df : Frame) : Frame :=
  let renamed := { df with columns := df.columns.map escapeLabel }
  renamed.columns.zipIdx.foldl (fun acc column => escapeColumn setAt acc column.1 column.2) renamed

end Export

/-- A text that is written starts with no dangerous character; numbers may be negative. -/
def Cell.Harmless : Cell → Prop
  | .text s => escapeValue s = s
  | .number _ => True
  | .other written => escapeValue written = written

def Level.Harmless : Level → Prop
  | .text s => escapeValue s = s
  | .int _ => True
  | .number _ => True
  | .other written => escapeValue written = written

def Label.levels : Label → List Level
  | .one level => [level]
  | .tuple levels => levels

/-- What `to_csv` writes for the index: its labels and names, and over it the names of the
headers, if these have several levels. -/
def indexLevels (df : Frame) : List Level :=
  df.index.flatMap Label.levels ++ df.indexNames ++
    if df.columns.any fun label => label matches .tuple _ then df.columnNames else []

/-- One line for each row, with its own cells escaped, and nothing dangerous that is written. -/
structure Escapes (includeIndex : Bool) (df written : Frame) : Prop where
  index : written.index = df.index
  columns : written.columns = df.columns.map escapeLabel
  cells : ∀ i < df.index.length, ∀ j < df.columns.length,
    written.cell i j = escapeCell (df.cell i j)
  headers : ∀ label ∈ written.columns, ∀ level ∈ label.levels, level.Harmless
  harmless : ∀ i < df.index.length, ∀ j < df.columns.length, (written.cell i j).Harmless
  labels : includeIndex = true → ∀ level ∈ indexLevels written, level.Harmless

def LabelledByPosition (df : Frame) (i : Nat) : Prop :=
  ∀ r < df.index.length, df.index[r]? = some (.one (.int i)) ↔ r = i

def NamedOnce (columns : List Label) (j : Nat) (name : Label) : Prop :=
  ∀ c < columns.length, columns[c]? = some name → c = j

/-- Where the assignments reach the cells they are meant for, and what is not assigned or
renamed needs no escaping. -/
structure ByPosition (includeIndex : Bool) (df : Frame) : Prop where
  texts : ∀ i < df.index.length, ∀ j < df.columns.length, df.isObject j = true →
    (∃ s, df.cell i j = .text s) → LabelledByPosition df i
      ∧ ∀ name ∈ (df.columns.map escapeLabel)[j]?, NamedOnce (df.columns.map escapeLabel) j name
  types : ∀ i < df.index.length, ∀ j < df.columns.length,
    df.isObject j = true ∧ (∃ s, df.cell i j = .text s) ∨ (df.cell i j).Harmless
  headers : ∀ label ∈ df.columns, ∀ level ∈ label.levels, (∃ s, level = .text s) ∨ level.Harmless
  labels : includeIndex = true → ∀ level ∈ indexLevels df, level.Harmless

def setCell (df : Frame) (r c : Nat) (value : Cell) : Frame :=
  { df with cell := fun i j => if i = r ∧ j = c then value else df.cell i j }

/-- With one row and one column of these labels, `df.at` sets their cell. -/
def SetsOneCell (setAt : Frame → Nat → Label → Cell → Frame) : Prop :=
  ∀ (df : Frame) (i j : Nat) (name : Label) (value : Cell), i < df.index.length →
    LabelledByPosition df i → df.columns[j]? = some name → NamedOnce df.columns j name →
    setAt df i name value = setCell df i j value

theorem escapeValue_idem (s : String) : escapeValue (escapeValue s) = escapeValue s := by
  by_cases dangerous : needsEscaping s.toList ∧ ¬isNegativeNumber s.toList
  · have quoted : (escapeValue s).toList.head? = some '\'' := by
      rw [escapeValue, if_pos dangerous, String.toList_ofList, head?_cons]
    obtain ⟨rest, isQuoted⟩ := head?_eq_some_iff.mp quoted
    have safe : needsEscaping ('\'' :: rest) = false := by
      have visible : PyText.isspace '\'' = false := by decide
      rw [needsEscaping, dropWhile_cons_of_neg (by simp [visible]), head?_cons]
      · decide
      · nofun
    rw [escapeValue, isQuoted, if_neg (by simp [safe])]
  · have same : escapeValue s = s := if_neg dangerous
    rw [same, same]

theorem Cell.Harmless.escapeCell_eq {cell : Cell} (harmless : cell.Harmless) :
    escapeCell cell = cell := by
  cases cell with
  | text s => exact congrArg Cell.text harmless
  | number | other => rfl

theorem escapeCell_harmless {cell : Cell} (condition : (∃ s, cell = .text s) ∨ cell.Harmless) :
    (escapeCell cell).Harmless := by
  rcases condition with ⟨s, rfl⟩ | harmless
  · exact escapeValue_idem s
  · rwa [harmless.escapeCell_eq]

theorem escapeLevel_harmless {level : Level} (condition : (∃ s, level = .text s) ∨ level.Harmless) :
    (escapeLevel level).Harmless := by
  rcases condition with ⟨s, rfl⟩ | harmless
  · exact escapeValue_idem s
  · cases level with
    | text s => exact escapeValue_idem s
    | int | number | other => exact harmless

theorem levels_escapeLabel (label : Label) :
    (escapeLabel label).levels = label.levels.map escapeLevel := by
  cases label <;> rfl

section Columns
variable {setAt : Frame → Nat → Label → Cell → Frame} {df : Frame} {name : Label} {j : Nat}

/-- A frame after its first `n` rows of one column have been escaped. -/
def inColumn (df : Frame) (j n : Nat) : Frame :=
  { df with cell := fun i c => if c = j ∧ i < n then escapeCell (df.cell i c) else df.cell i c }

/-- A frame with its headers and its first `k` columns escaped. -/
def inColumns (df : Frame) (k : Nat) : Frame :=
  { df with
    columns := df.columns.map escapeLabel
    cell := fun i c =>
      if c < k ∧ i < df.index.length then escapeCell (df.cell i c) else df.cell i c }

theorem escapeColumn_object (sets : SetsOneCell setAt) (object : df.isObject j = true)
    (named : df.columns[j]? = some name) (texts : ∀ i < df.index.length,
      (∃ s, df.cell i j = .text s) → LabelledByPosition df i ∧ NamedOnce df.columns j name) :
    escapeColumn setAt df name j = inColumn df j df.index.length := by
  have upTo : ∀ n ≤ df.index.length, (List.range n).foldl (fun acc idx =>
      match df.cell idx j with
      | .text value => setAt acc idx name (.text (escapeValue value))
      | _ => acc) df = inColumn df j n := by
    intro n bound
    induction n with
    | zero => simp [inColumn]
    | succ n ih =>
      have before : ∀ i c, i ≠ n ∨ c ≠ j → (c = j ∧ i < n + 1 ↔ c = j ∧ i < n) := by omega
      rw [range_succ, foldl_append, ih (by omega), foldl_cons, foldl_nil]
      cases here : df.cell n j with
      | text value =>
        obtain ⟨labelled, once⟩ := texts n bound ⟨value, here⟩
        refine (sets (inColumn df j n) n j name _ bound labelled named once).trans ?_
        refine congrArg (fun cell => { df with cell := cell }) (funext fun i => funext fun c => ?_)
        by_cases this : i = n ∧ c = j
        · obtain ⟨rfl, rfl⟩ := this
          simp [here, escapeCell]
        · refine (if_neg this).trans (if_congr (before i c ?_) rfl rfl).symm
          tauto
      | number | other =>
        refine congrArg (fun cell => { df with cell := cell }) (funext fun i => funext fun c => ?_)
        by_cases this : i = n ∧ c = j
        · obtain ⟨rfl, rfl⟩ := this
          simp [here, escapeCell]
        · refine (if_congr (before i c ?_) rfl rfl).symm
          tauto
  rw [escapeColumn, if_pos object]
  exact upTo _ (Nat.le_refl _)

variable {includeIndex : Bool}

theorem escapeColumn_inColumns (sets : SetsOneCell setAt) (condition : ByPosition includeIndex df)
    (named : (df.columns.map escapeLabel)[j]? = some name) :
    escapeColumn setAt (inColumns df j) name j = inColumns df (j + 1) := by
  have bound : j < df.columns.length := by simpa using (List.getElem?_eq_some_iff.mp named).1
  have untouched : ∀ i, (inColumns df j).cell i j = df.cell i j := fun i => if_neg (by omega)
  have frames : ∀ cell : Nat → Nat → Cell, (∀ i c, cell i c = (inColumns df (j + 1)).cell i c) →
      { inColumns df j with cell := cell } = inColumns df (j + 1) := fun cell same =>
    congrArg (fun cell => { inColumns df j with cell := cell })
      (funext fun i => funext fun c => same i c)
  cases object : df.isObject j with
  | true =>
    rw [@escapeColumn_object setAt (inColumns df j) name j sets object named
      fun i inRows isText =>
        (condition.texts i inRows j bound object (untouched i ▸ isText)).imp_right
        fun once => once name named]
    refine frames _ fun i c => ?_
    by_cases this : c = j
    · subst this
      simp [inColumns]
    · have same : c < j ∧ i < df.index.length ↔ c < j + 1 ∧ i < df.index.length := by omega
      exact (if_neg fun both => this both.1).trans (if_congr same rfl rfl)
  | false =>
    rw [escapeColumn, if_neg (by simp [inColumns, object])]
    refine frames (inColumns df j).cell fun i c => ?_
    by_cases this : c = j ∧ i < df.index.length
    · obtain ⟨rfl, inRows⟩ := this
      have harmless := (condition.types i inRows c bound).resolve_left (by simp [object])
      simp [inColumns, inRows, harmless.escapeCell_eq]
    · have same : c < j ∧ i < df.index.length ↔ c < j + 1 ∧ i < df.index.length := by omega
      exact if_congr same rfl rfl

theorem escaped_eq (sets : SetsOneCell setAt) (condition : ByPosition includeIndex df) :
    escaped setAt df = inColumns df df.columns.length := by
  have rest_done : ∀ (rest : List Label) (k : Nat), (df.columns.map escapeLabel).drop k = rest →
      (rest.zipIdx k).foldl (fun acc column => escapeColumn setAt acc column.1 column.2)
        (inColumns df k) = inColumns df (k + rest.length) := by
    intro rest
    induction rest with
    | nil => exact fun k _ => rfl
    | cons name rest ih =>
      intro k front
      have named : (df.columns.map escapeLabel)[k]? = some name := by
        rw [← head?_drop, front, head?_cons]
      rw [zipIdx_cons, foldl_cons, escapeColumn_inColumns sets condition named,
        ih (k + 1) (by rw [← tail_drop, front, tail_cons]), length_cons]
      congr 1
      omega
  have start : inColumns df 0 = { df with columns := df.columns.map escapeLabel } := by
    simp [inColumns]
  have all := rest_done (df.columns.map escapeLabel) 0 rfl
  rw [start, length_map, Nat.zero_add] at all
  exact all

end Columns

theorem indexLevels_inColumns (df : Frame) (k : Nat) :
    indexLevels (inColumns df k) = indexLevels df := by
  have sameDepth : (df.columns.map escapeLabel).any (fun label => label matches .tuple _) =
      df.columns.any fun label => label matches .tuple _ := by
    rw [any_map]
    congr 1
    funext label
    cases label <;> rfl
  unfold indexLevels inColumns
  simp only
  rw [sameDepth]

/-- The rows of a frame are written escaped when every text stands in a row that has its
position as its label and in a column whose header no other has, and nothing dangerous is
written that is no text of an object column and no text of a header. -/
theorem escaped_by_position (setAt : Frame → Nat → Label → Cell → Frame)
    (sets : SetsOneCell setAt) (includeIndex : Bool) (df : Frame)
    (condition : ByPosition includeIndex df) : Escapes includeIndex df (escaped setAt df) := by
  have cells : ∀ i < df.index.length, ∀ j < df.columns.length,
      (inColumns df df.columns.length).cell i j = escapeCell (df.cell i j) :=
    fun i inRows j inColumns => if_pos ⟨inColumns, inRows⟩
  rw [escaped_eq sets condition]
  refine ⟨rfl, rfl, cells, ?_, ?_, ?_⟩
  · intro label member level ofLabel
    obtain ⟨original, isColumn, rfl⟩ := mem_map.mp member
    rw [levels_escapeLabel] at ofLabel
    obtain ⟨level, ofOriginal, rfl⟩ := mem_map.mp ofLabel
    exact escapeLevel_harmless (condition.headers original isColumn level ofOriginal)
  · intro i inRows j inColumns
    rw [cells i inRows j inColumns]
    exact escapeCell_harmless ((condition.types i inRows j inColumns).imp_left And.right)
  · rw [indexLevels_inColumns]
    exact condition.labels

/-- What `df.at` does where the labels are there: it sets every cell with them. -/
def setLabelled (df : Frame) (idx : Nat) (name : Label) (value : Cell) : Frame :=
  { df with cell := fun i j =>
      if df.index[i]? = some (.one (.int idx)) ∧ df.columns[j]? = some name then value
        else df.cell i j }

theorem setLabelled_setsOneCell : SetsOneCell setLabelled := by
  intro df i j name value inRows labelled named once
  refine congrArg (fun cell => { df with cell := cell }) (funext fun r => funext fun c => ?_)
  have row : df.index[r]? = some (.one (.int i)) ↔ r = i := by
    by_cases inside : r < df.index.length
    · exact labelled r inside
    · rw [getElem?_eq_none (by omega)]
      exact iff_of_false (by simp) fun same => inside (same ▸ inRows)
  have column : df.columns[c]? = some name ↔ c = j :=
    ⟨fun there => once c (List.getElem?_eq_some_iff.mp there).1 there, fun same => same ▸ named⟩
  simp only [row, column]

/-- An object column of texts and a column of numbers and spans of time. -/
def orders : Frame where
  index := [.one (.int 0), .one (.int 1)]
  columns := [.one (.text "=note"), .one (.text "delay")]
  indexNames := [.text "order"]
  isObject := fun j => j = 0
  cell := fun i j =>
    if j = 0 then .text (if i = 0 then "=1+1" else "-5")
    else if i = 0 then .other "1 days" else .number "-2.5e-07"

theorem orders_byPosition : ByPosition true orders where
  texts := by
    intro i inRows j inColumns object _
    obtain rfl : j = 0 := of_decide_eq_true object
    refine ⟨?_, ?_⟩
    · intro r rInRows
      have rows : ∀ i < 2, ∀ r < 2, orders.index[r]? = some (.one (.int i)) ↔ r = i := by decide
      exact rows i inRows r rInRows
    · intro name isName c within named
      have once : ∀ c < 2,
        (orders.columns.map escapeLabel)[c]? = (orders.columns.map escapeLabel)[0]? →
        c = 0 := by decide
      exact once c within (named.trans isName.symm)
  types := by
    intro i inRows j inColumns
    have rows : i = 0 ∨ i = 1 := by
      simp only [orders, length_cons, length_nil] at inRows
      omega
    have columns : j = 0 ∨ j = 1 := by
      simp only [orders, length_cons, length_nil] at inColumns
      omega
    rcases columns with rfl | rfl
    · exact .inl ⟨rfl, _, rfl⟩
    · rcases rows with rfl | rfl
      · exact .inr (by decide : escapeValue "1 days" = "1 days")
      · exact .inr trivial
  headers := by
    intro label member level ofLabel
    simp only [orders, mem_cons, not_mem_nil, or_false] at member
    rcases member with rfl | rfl
    · exact .inl ⟨_, mem_singleton.mp ofLabel⟩
    · exact .inl ⟨_, mem_singleton.mp ofLabel⟩
  labels := by
    intro _ level member
    have levels : indexLevels orders = [.int 0, .int 1, .text "order"] := rfl
    rw [levels] at member
    simp only [mem_cons, not_mem_nil, or_false] at member
    rcases member with rfl | rfl | rfl
    · trivial
    · trivial
    · exact (by decide : escapeValue "order" = "order")

theorem escaped_orders : Escapes true orders (escaped setLabelled orders) :=
  escaped_by_position setLabelled setLabelled_setsOneCell true orders orders_byPosition

def sorted : Frame where
  index := [.one (.int 1), .one (.int 0)]
  columns := [.one (.text "c")]
  isObject := fun _ => true
  cell := fun i _ => .text (if i = 0 then "=a" else "b")

theorem rows_swapped : ¬∀ includeIndex df, Escapes includeIndex df (escaped setLabelled df) :=
  fun escapes => absurd ((escapes true sorted).cells 0 (by decide) 0 (by decide)) (by decide)

end Liteset.Charts.CsvExport
