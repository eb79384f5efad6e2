import Liteset.Lib.JsNumber
import Liteset.Lib.JsText

/-!
# Custom time ranges

`customTimeRangeDecode` of superset-ui-core and `customTimeRangeEncode`, with `guessFrame`, of the
date filter control.  Texts are lists of characters.  The regular expressions have the flag `i`
and match one text each; what `extendedDayjs` makes of a datetime and the clock are parameters.
-/

set_option autoImplicit false

namespace Liteset.Charts.TimeRanges

open Lib

abbrev Text := List Char

inductive Class where
  | digit
  | sign
  | space
  | letter (c : Char)

def Class.matches : Class → Char → Bool
  | .digit, c => c.isDigit
  | .sign, c => c = '+' || c = '-'
  | .space, c => JsText.isSpace c
  | .letter l, c => c.toLower = l.toLower

def consume : List Class → Text → Option Text
  | [], text => some text
  | _ :: _, [] => none
  | place :: places, c :: text => if place.matches c then consume places text else none

def literal (text : String) : List Class := text.toList.map .letter

def isOneOf (words : List String) (text : Text) : Bool :=
  words.any fun word => consume (literal word) text = some []

/-- `\d{4}-\d\d-\d\dT\d\d:\d\d:\d\d` -/
def dateTime : List Class := [
  .digit, .digit, .digit, .digit, .letter '-', .digit, .digit, .letter '-', .digit, .digit,
  .letter 'T', .digit, .digit, .letter ':', .digit, .digit, .letter ':', .digit, .digit]

/-- The text after `(?:\.\d+)?` -/
def fraction : Text → Text
  | '.' :: c :: rest => if c.isDigit then rest.dropWhile Char.isDigit else '.' :: c :: rest
  | text => text

/-- `(?:(?:[+-]\d\d:\d\d)|Z)?` -/
def isZone (text : Text) : Bool :=
  text = [] || consume (literal "Z") text = some [] ||
    consume [.sign, .digit, .digit, .letter ':', .digit, .digit] text = some []

def isIso8601 (text : Text) : Bool :=
  match consume dateTime text with
  | some rest => isZone (fraction rest)
  | none => false

def isDatetimeConstant : Text → Bool := isOneOf ["TODAY", "NOW"]

def iso8601AndConstant (text : Text) : Bool := isIso8601 text || isDatetimeConstant text

def unsigned : Text → Text
  | '+' :: text => text
  | '-' :: text => text
  | text => text

def isGrainValue (text : Text) : Bool :=
  match unsigned text with
  | c :: digits => c.isDigit && c ≠ '0' && digits.all Char.isDigit
  | [] => false

def isGrain : Text → Bool :=
  isOneOf ["YEAR", "QUARTER", "MONTH", "WEEK", "DAY", "HOUR", "MINUTE", "SECOND"]

def capture (stop : Char) (next : List Class) (text : Text) : Option (Text × Text) :=
  (consume next (text.dropWhile (· ≠ stop))).map fun rest => (text.takeWhile (· ≠ stop), rest)

/-- The captured groups of `CUSTOM_RANGE_EXPRESSION` -/
def customRangeExpression (text : Text) : Option (Text × Text × Text) := do
  let rest ← consume (literal "DATEADD(DATETIME(\"") text
  let (dttm, rest) ← capture '"' (literal "\")," ++ [.space]) rest
  let (grainValue, rest) ← capture ',' (literal "," ++ [.space]) rest
  let (grain, rest) ← capture ')' (literal ")") rest
  if rest = [] && iso8601AndConstant dttm && isGrainValue grainValue && isGrain grain
    then some (dttm, grainValue, grain)
  else none

/-- `DateTimeModeType` -/
inductive Mode where
  | specific
  | relative
  | now
  | today
  deriving DecidableEq

def Mode.text : Mode → Text
  | .specific => "specific".toList
  | .relative => "relative".toList
  | .now => "now".toList
  | .today => "today".toList

/-- `CustomRangeType`; `anchorNow` tells the two values of `anchorMode` apart. -/
structure CustomRange where
  sinceMode : Mode
  sinceDatetime : Text
  sinceGrain : Text
  sinceGrainValue : Int
  untilMode : Mode
  untilDatetime : Text
  untilGrain : Text
  untilGrainValue : Int
  anchorNow : Bool
  anchorValue : Text
  deriving DecidableEq

/-- The clock and the datetimes of a browser: `dayjs` writes a datetime in the `DAYJS_FORMAT`, and
`now` and `today` are the present second and day in it. -/
structure Browser where
  dayjs : Text → Text
  now : Text
  today : Text
  sevenDaysAgo : Text
  midnight : Text

section Encode
variable (browser : Browser)

def dttmToString (dttm : Text) : Text :=
  if dttm = "now".toList then browser.now
  else if dttm = "today".toList then browser.today
  else browser.dayjs dttm

def bound (mode : Mode) (datetime : Text) : Text :=
  if mode = .specific then dttmToString browser datetime else mode.text

def dateAdd (anchor : Text) (grainValue : Int) (grain : Text) : Text :=
  "DATEADD(DATETIME(\"".toList ++ anchor ++ "\"), ".toList ++ JsNumber.text grainValue ++
    ", ".toList ++ grain ++ ")".toList

def separator : Text := " : ".toList

def customTimeRangeEncode (range : CustomRange) : Text :=
  if range.sinceMode ≠ .relative ∧ range.untilMode ≠ .relative then
    bound browser range.sinceMode range.sinceDatetime ++ separator ++
      bound browser range.untilMode range.untilDatetime
  else if range.sinceMode ≠ .relative then
    let since := bound browser range.sinceMode range.sinceDatetime
    since ++ separator ++ dateAdd since range.untilGrainValue range.untilGrain
  else if range.untilMode ≠ .relative then
    let till := bound browser range.untilMode range.untilDatetime
    dateAdd till (-(range.sinceGrainValue.natAbs : Int)) range.sinceGrain ++ separator ++ till
  else
    dateAdd range.anchorValue (-(range.sinceGrainValue.natAbs : Int)) range.sinceGrain ++
      separator ++ dateAdd range.anchorValue range.untilGrainValue range.untilGrain

end Encode

/-- `split` at the separator -/
def split : Text → List Text
  | [] => [[]]
  | ' ' :: ':' :: ' ' :: text => [] :: split text
  | c :: text =>
    match split text with
    | part :: parts => (c :: part) :: parts
    | [] => [[c]]

def defaultCustomRange (browser : Browser) : CustomRange where
  sinceDatetime := browser.sevenDaysAgo
  sinceMode := .relative
  sinceGrain := "day".toList
  sinceGrainValue := -7
  untilDatetime := browser.midnight
  untilMode := .specific
  untilGrain := "day".toList
  untilGrainValue := 7
  anchorNow := true
  anchorValue := "now".toList

/-- A constant is its own mode when it is one of `DATETIME_CONSTANT`. -/
def modeOf (text : Text) : Mode :=
  if text = "now".toList then .now else if text = "today".toList then .today else .specific

section Decode
variable (browser : Browser) (since till : Text)

def specificSpecific : Option CustomRange :=
  if iso8601AndConstant since && iso8601AndConstant till then
    some { defaultCustomRange browser with
      sinceDatetime := since
      untilDatetime := till
      sinceMode := modeOf since
      untilMode := modeOf till }
  else none

def relativeSpecific : Option CustomRange :=
  match customRangeExpression since with
  | some (dttm, grainValue, grain) =>
    if iso8601AndConstant till ∧ till <:+: since then
      some { defaultCustomRange browser with
        sinceGrain := grain
        sinceGrainValue := JsNumber.parseInt grainValue
        sinceDatetime := dttm
        untilDatetime := dttm
        sinceMode := .relative
        untilMode := modeOf till }
    else none
  | none => none

def specificRelative : Option CustomRange :=
  match customRangeExpression till with
  | some (dttm, grainValue, grain) =>
    if iso8601AndConstant since ∧ since <:+: till then
      some { defaultCustomRange browser with
        untilGrain := grain
        untilGrainValue := JsNumber.parseInt grainValue
        sinceDatetime := dttm
        untilDatetime := dttm
        untilMode := .relative
        sinceMode := modeOf since }
    else none
  | none => none

def relativeRelative : Option CustomRange :=
  match customRangeExpression since, customRangeExpression till with
  | some (dttm, grainValue, grain), some (untilDttm, untilGrainValue, untilGrain) =>
    if dttm = untilDttm then
      some {
        sinceGrain := grain
        sinceGrainValue := JsNumber.parseInt grainValue
        sinceDatetime := dttm
        untilGrain := untilGrain
        untilGrainValue := JsNumber.parseInt untilGrainValue
        untilDatetime := untilDttm
        anchorValue := dttm
        sinceMode := .relative
        untilMode := .relative
        anchorNow := dttm = "now".toList }
    else none
  | _, _ => none

/-- `none` where the range does not match. -/
def decodeBounds : Option CustomRange :=
  specificSpecific browser since till <|> relativeSpecific browser since till <|>
    specificRelative browser since till <|> relativeRelative since till

end Decode

/-- The decoded range with its `matchedFlag` -/
def customTimeRangeDecode (browser : Browser) (timeRange : Text) : CustomRange × Bool :=
  match split timeRange with
  | [since, till] =>
    match decodeBounds browser since till with
    | some range => (range, true)
    | none => (defaultCustomRange browser, false)
  | _ => (defaultCustomRange browser, false)

inductive FrameType where
  | common
  | calendar
  | current
  | noFilter
  | custom
  | advanced
  deriving DecidableEq

def commonRanges : List String :=
  ["Last day", "Last week", "Last month", "Last quarter", "Last year"]

def calendarRanges : List String :=
  ["previous calendar week", "previous calendar month", "previous calendar quarter",
    "previous calendar year"]

def currentRanges : List String :=
  ["Current day", "Current week", "Current month", "Current quarter", "Current year"]

def guessFrame (browser : Browser) (timeRange : Text) : FrameType :=
  if timeRange ∈ commonRanges.map String.toList then .common
  else if timeRange ∈ calendarRanges.map String.toList then .calendar
  else if timeRange ∈ currentRanges.map String.toList then .current
  else if timeRange = "No filter".toList then .noFilter
  else if (customTimeRangeDecode browser timeRange).2 then .custom
  else .advanced

end Liteset.Charts.TimeRanges
