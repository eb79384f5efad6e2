import Mathlib.Data.List.Forall2
import Liteset.Lib.Json
import Liteset.Lib.PyText

/-!
# Moving Slack recipients to ids of channels

`update_report_schedule_slack_v2` looks the channels of every Slack recipient up and
writes their ids into the recipient.  When a recipient cannot be moved, only this one
is put back.
-/

set_option autoImplicit false

namespace Liteset.Reports.SlackUpgrade

open Lib

inductive ReportRecipientType where
  | email
  | slack
  | slackV2
  deriving DecidableEq, Repr

structure Recipient where
  type : ReportRecipientType
  recipientConfigJson : Option String
  deriving DecidableEq

structure Channel where
  id : String
  name : String

/-- A recipient, and what the look-up answers while it is processed; `none` where it raises. -/
structure Entry where
  recipient : Recipient
  getSlackChannels : String → Option (List Channel)

/-- `_recipients_string_to_list` -/
def recipientsStringToList (addresses : String) : List String :=
  ((addresses.toList.splitOnP fun c => c = ',' || PyText.isspace c || c = ';').map fun part =>
    PyText.strip PyText.isspace (String.ofList part)).filter fun part => part ≠ ""

-- `json.loads`, `none` where it raises, and `json.dumps`.
variable (loads : String → Option Json) (dumps : Json → String)

/-- `(slack_recipients["target"] or "").replace("#", "")`; `none` where a step raises. -/
def channelNames (recipient : Recipient) : Option String :=
  match recipient.recipientConfigJson.bind loads with
  | some (.object members) =>
    match members.lookup "target" with
    | some (.str target) => some (String.ofList (target.toList.filter fun c => c ≠ '#'))
    | some target => if target.truthy then none else some ""
    | none => none
  | _ => none

def withIds (channels : List Channel) : Recipient where
  type := .slackV2
  recipientConfigJson :=
    some (dumps (.object [("target", .str (",".intercalate (channels.map Channel.id)))]))

/-- The recipient as the body of the loop leaves it, and whether the body ended. -/
def upgradeRecipient (entry : Entry) : Recipient × Bool :=
  let moved := { entry.recipient with type := .slackV2 }
  match channelNames loads entry.recipient with
  | none => (moved, false)
  | some names =>
    match entry.getSlackChannels names with
    | none => (moved, false)
    | some channels =>
      if (recipientsStringToList names).length ≠ channels.length then (moved, false)
      else (withIds dumps channels, true)

/-- The recipients afterwards; `false` where `UpdateFailedError` is raised. -/
def updateReportScheduleSlackV2 : List Entry → List Recipient × Bool
  | [] => ([], true)
  | entry :: rest =>
    if entry.recipient.type = .slack then
      match upgradeRecipient loads dumps entry with
      | (upgraded, true) =>
        (upgraded :: (updateReportScheduleSlackV2 rest).1, (updateReportScheduleSlackV2 rest).2)
      -- the handler resets what is left in the variable of the loop
      | (left, false) => ({ left with type := .slack } :: rest.map Entry.recipient, false)
    else
      (entry.recipient :: (updateReportScheduleSlackV2 rest).1,
        (updateReportScheduleSlackV2 rest).2)

-- The channel goes by this text, its name or its id.
variable (goesBy : String → Channel → Prop)

/-- Each of the texts is the one of one of the channels, and there are no others. -/
def OwnChannels (listed : List String) (channels : List Channel) : Prop :=
  ∃ ordered, ordered.Perm channels ∧ List.Forall₂ goesBy listed ordered

def Upgraded (entry : Entry) (after : Recipient) : Prop :=
  (entry.recipient.type = .slack →
    ∃ names channels, channelNames loads entry.recipient = some names
      ∧ entry.getSlackChannels names = some channels
      ∧ OwnChannels goesBy (recipientsStringToList names) channels ∧ after = withIds dumps channels)
  ∧ (entry.recipient.type ≠ .slack → after = entry.recipient)

def AllOrNothing (entries : List Entry) : List Recipient × Bool → Prop
  | (after, true) => List.Forall₂ (Upgraded loads dumps goesBy) entries after
  | (after, false) => after = entries.map Entry.recipient

/-- The look-up raises, or the configuration cannot be read, or the number of channels differs. -/
def Fails (entry : Entry) : Prop :=
  ∀ names channels, channelNames loads entry.recipient = some names →
    entry.getSlackChannels names = some channels →
    (recipientsStringToList names).length ≠ channels.length

/-- The look-up answers a Slack recipient with its own channels. -/
def Finds (entry : Entry) : Prop :=
  entry.recipient.type = .slack → ∃ names channels, channelNames loads entry.recipient = some names
    ∧ entry.getSlackChannels names = some channels ∧
    OwnChannels goesBy (recipientsStringToList names) channels

variable {loads dumps goesBy}

theorem not_fails_of_finds {entry : Entry} (isSlack : entry.recipient.type = .slack)
    (finds : Finds loads goesBy entry) : ¬Fails loads entry := by
  obtain ⟨names, channels, named, found, ordered, perm, matched⟩ := finds isSlack
  intro fails
  exact fails names channels named found (matched.length_eq.trans perm.length_eq)

theorem upgradeRecipient_of_fails {entry : Entry} (fails : Fails loads entry) :
    upgradeRecipient loads dumps entry = ({ entry.recipient with type := .slackV2 }, false) := by
  unfold upgradeRecipient
  cases named : channelNames loads entry.recipient with
  | none => rfl
  | some names =>
    cases found : entry.getSlackChannels names with
    | none => simp only [found]
    | some channels => simp only [found, if_pos (fails names channels named found)]

theorem upgradeRecipient_of_not_fails {entry : Entry} (succeeds : ¬Fails loads entry) :
    ∃ names channels, channelNames loads entry.recipient = some names
      ∧ entry.getSlackChannels names = some channels
      ∧ upgradeRecipient loads dumps entry = (withIds dumps channels, true) := by
  simp only [Fails, not_forall, not_not] at succeeds
  obtain ⟨names, channels, named, found, sameLength⟩ := succeeds
  refine ⟨names, channels, named, found, ?_⟩
  unfold upgradeRecipient
  simp only [named, found, if_neg (not_not.mpr sameLength)]

section Step
variable {entry : Entry} {rest : List Entry}

theorem update_passes (noSlack : entry.recipient.type ≠ .slack) :
    updateReportScheduleSlackV2 loads dumps (entry :: rest) =
      (entry.recipient :: (updateReportScheduleSlackV2 loads dumps rest).1,
        (updateReportScheduleSlackV2 loads dumps rest).2) := by
  rw [updateReportScheduleSlackV2, if_neg noSlack]

theorem update_fails (isSlack : entry.recipient.type = .slack) (fails : Fails loads entry) :
    updateReportScheduleSlackV2 loads dumps (entry :: rest) = ((entry :: rest).map Entry.recipient,
      false) := by
  rw [updateReportScheduleSlackV2, if_pos isSlack, upgradeRecipient_of_fails fails, List.map_cons,
    ← isSlack]

theorem update_goes_on (isSlack : entry.recipient.type = .slack) (succeeds : ¬Fails loads entry) :
    ∃ names channels, channelNames loads entry.recipient = some names
      ∧ entry.getSlackChannels names = some channels
      ∧ updateReportScheduleSlackV2 loads dumps (entry :: rest) =
        (withIds dumps channels :: (updateReportScheduleSlackV2 loads dumps rest).1,
          (updateReportScheduleSlackV2 loads dumps rest).2) := by
  obtain ⟨names, channels, named, found, upgraded⟩ :=
    @upgradeRecipient_of_not_fails loads dumps entry succeeds
  refine ⟨names, channels, named, found, ?_⟩
  rw [updateReportScheduleSlackV2, if_pos isSlack, upgraded]

end Step

/-- The update ends exactly when no Slack recipient fails; it leaves all recipients moved
exactly when the look-up answers each with its own channels. -/
theorem upgraded_iff (entries : List Entry) :
    (updateReportScheduleSlackV2 loads dumps entries).2 = true
      ∧ List.Forall₂ (Upgraded loads dumps goesBy) entries
        (updateReportScheduleSlackV2 loads dumps entries).1 ↔
    ∀ entry ∈ entries, Finds loads goesBy entry := by
  induction entries with
  | nil => simp [updateReportScheduleSlackV2]
  | cons entry rest ih =>
    rw [List.forall_mem_cons, ← ih]
    by_cases isSlack : entry.recipient.type = .slack
    · by_cases fails : Fails loads entry
      · rw [update_fails isSlack fails]
        constructor
        · rintro ⟨ends, _⟩
          cases ends
        · rintro ⟨finds, _⟩
          exact absurd fails (not_fails_of_finds isSlack finds)
      · obtain ⟨names, channels, named, found, goesOn⟩ :=
          @update_goes_on loads dumps entry rest isSlack fails
        rw [goesOn, List.forall₂_cons]
        constructor
        · rintro ⟨ends, ⟨moved, _⟩, others⟩
          refine ⟨fun _ => ?_, ends, others⟩
          obtain ⟨names', channels', named', found', own, _⟩ := moved isSlack
          exact ⟨names', channels', named', found', own⟩
        · rintro ⟨finds, ends, others⟩
          refine ⟨ends, ⟨fun _ => ?_, absurd isSlack⟩, others⟩
          obtain ⟨names', channels', named', found', own⟩ := finds isSlack
          rw [named] at named'
          cases named'
          rw [found] at found'
          cases found'
          exact ⟨names, channels, named, found, own, rfl⟩
    · rw [update_passes isSlack, List.forall₂_cons]
      have finds : Finds loads goesBy entry := fun h => absurd h isSlack
      have kept : Upgraded loads dumps goesBy entry entry.recipient :=
        ⟨fun h => absurd h isSlack, fun _ => rfl⟩
      simp only [finds, kept, true_and]

/-- The first Slack recipient fails. -/
def FirstFails (loads : String → Option Json) (entries : List Entry) : Prop :=
  ∃ before entry after, entries = before ++ entry :: after
    ∧ (∀ other ∈ before, other.recipient.type ≠ .slack) ∧ entry.recipient.type = .slack ∧
    Fails loads entry

theorem firstFails_cons {entry : Entry} {rest : List Entry} :
    FirstFails loads (entry :: rest) ↔
      entry.recipient.type = .slack ∧ Fails loads entry ∨ entry.recipient.type ≠ .slack ∧
      FirstFails loads rest := by
  constructor
  · rintro ⟨before, first, after, listed, passed, isSlack, fails⟩
    cases before with
    | nil =>
      cases listed
      exact .inl ⟨isSlack, fails⟩
    | cons other before =>
      cases listed
      rw [List.forall_mem_cons] at passed
      exact .inr ⟨passed.1, before, first, after, rfl, passed.2, isSlack, fails⟩
  · rintro (⟨isSlack, fails⟩ | ⟨noSlack, before, first, after, rfl, passed, isSlack, fails⟩)
    · exact ⟨[], entry, rest, rfl, by simp, isSlack, fails⟩
    · exact ⟨entry :: before, first, after, rfl, List.forall_mem_cons.mpr ⟨noSlack, passed⟩,
        isSlack, fails⟩

theorem unchanged_iff (entries : List Entry) :
    (updateReportScheduleSlackV2 loads dumps entries).2 = false
      ∧ (updateReportScheduleSlackV2 loads dumps entries).1 = entries.map Entry.recipient ↔
    FirstFails loads entries := by
  induction entries with
  | nil => simp [updateReportScheduleSlackV2, FirstFails]
  | cons entry rest ih =>
    rw [firstFails_cons, ← ih]
    by_cases isSlack : entry.recipient.type = .slack
    · by_cases fails : Fails loads entry
      · simp [update_fails isSlack fails, isSlack, fails]
      · obtain ⟨names, channels, _, _, goesOn⟩ :=
          @update_goes_on loads dumps entry rest isSlack fails
        have changed : withIds dumps channels ≠ entry.recipient := by
          intro same
          rw [← same] at isSlack
          cases isSlack
        simp [goesOn, changed, isSlack, fails]
    · simp [update_passes isSlack, isSlack]

/-- The update is all or nothing exactly when the look-up answers every Slack recipient
with its own channels, or already the first one fails. -/
theorem all_or_nothing_iff (loads : String → Option Json) (dumps : Json → String)
    (goesBy : String → Channel → Prop) (entries : List Entry) :
    AllOrNothing loads dumps goesBy entries (updateReportScheduleSlackV2 loads dumps entries) ↔
      (∀ entry ∈ entries, Finds loads goesBy entry) ∨ FirstFails loads entries := by
  rw [← @upgraded_iff loads dumps goesBy, ← @unchanged_iff loads dumps]
  cases outcome : updateReportScheduleSlackV2 loads dumps entries with
  | mk after ends => cases ends <;> simp [AllOrNothing]

/-- The JSON text of an object whose only member is a target without escaped characters. -/
def targetText (target : String) : String := "\x7b\"target\": \"" ++ target ++ "\"\x7d"

def dumpsTarget : Json → String
  | .object [("target", .str target)] => targetText target
  | _ => "null"

def loadsTarget (text : String) : Option Json :=
  let target := String.ofList ((text.toList.drop 12).dropLast.dropLast)
  if targetText target = text ∧ target.toList.all (fun c => c ≠ '"' ∧ c ≠ '\\') then
    some (.object [("target", .str target)])
  else none

def slackRecipient (target : String) : Recipient :=
  { type := .slack, recipientConfigJson := some (targetText target) }

/-- The first of two Slack recipients has a channel, the channel of the second is gone. -/
def secondGone : List Entry :=
  [⟨slackRecipient "#general", fun _ => some [⟨"C1", "general"⟩]⟩,
    ⟨slackRecipient "#gone", fun _ => some []⟩]

theorem first_stays_moved :
    ¬AllOrNothing loadsTarget dumpsTarget (fun text channel => channel.name = text) secondGone
      (updateReportScheduleSlackV2 loadsTarget dumpsTarget secondGone) := by
  have result : updateReportScheduleSlackV2 loadsTarget dumpsTarget secondGone =
      ([⟨.slackV2, some (targetText "C1")⟩, slackRecipient "#gone"], false) := by decide
  rw [result]
  intro unchanged
  cases unchanged

end Liteset.Reports.SlackUpgrade
