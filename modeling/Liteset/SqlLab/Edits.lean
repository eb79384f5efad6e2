import Liteset.SqlLab.StoppedQuery

/-!
# What the editors show

`upToDateQuery` is the content of a tab.  For every action this module says what
becomes of the content of one editor, and exactly when an edit gets lost: when the
overlay of an editor is stale, is dropped, or is overwritten by a snapshot.
-/

set_option autoImplicit false

namespace Liteset.SqlLab

open Liteset.Lib Liteset.Lib.JsObject

def userEditedFields : List String :=
  ["sql", "name", "dbId", "catalog", "schema", "queryLimit", "templateParams"]

def Overlays (s : State) (x : String) : Prop := get s.unsavedQueryEditor "id" = text x

instance (s : State) (x : String) : Decidable (Overlays s x) :=
  inferInstanceAs (Decidable (_ = _))

def shown (s : State) (x : String) (entry : Object) (f : String) : Value :=
  if Overlays s x ∧ Has s.unsavedQueryEditor f then get s.unsavedQueryEditor f else get entry f

section Read
variable {s t : State} {x : String} {entry : Object} {f : String}

theorem get_upToDateQuery (found : findEditor s (text x) = some entry) (field : f ≠ "id") :
    get (upToDateQuery s (text x)) f = shown s x entry f := by
  unfold upToDateQuery shown
  rw [found, Option.getD_some]
  have atEntry : get (spread (single "id" (text x)) entry) f = get entry f := by
    by_cases has : Has entry f
    · exact get_spread_of_has has
    · have lacks : ¬Has (single "id" (text x)) f := fun has => field (has_single_iff.mp has)
      rw [get_spread_of_not_has has, get_of_not_has lacks, get_of_not_has has]
  unfold spreadIf
  by_cases overlays : Overlays s x
  · rw [if_pos overlays.symm]
    by_cases has : Has s.unsavedQueryEditor f
    · rw [if_pos ⟨overlays, has⟩, get_spread_of_has has]
    · rw [if_neg fun both => has both.2, get_spread_of_not_has has, atEntry]
  · rw [if_neg fun same => overlays same.symm, if_neg fun both => overlays both.1, spread_empty,
      atEntry]

def KeepsId (obj alterations : Object) : Prop :=
  Has alterations "id" → get alterations "id" = get obj "id"

variable {obj alterations : Object}

theorem find_alterInArr {items : List Object}
    (keeps : KeepsId obj alterations) (id : Value) :
    (alterInArr items obj alterations "id").find? (fun qe => get qe "id" = id) =
      (items.find? fun qe => get qe "id" = id).map fun qe =>
        if get obj "id" = id then spread qe alterations else qe := by
  have sameId : ∀ item, get obj "id" = get item "id" →
      get (spread item alterations) "id" = get item "id" := by
    intro item same
    by_cases has : Has alterations "id"
    · rw [get_spread_of_has has, keeps has, same]
    · exact get_spread_of_not_has has
  induction items with
  | nil => rfl
  | cons item rest ih =>
    unfold alterInArr at ih ⊢
    rw [List.map_cons, List.find?_cons, List.find?_cons]
    by_cases same : get obj "id" = get item "id"
    · rw [if_pos same, sameId item same]
      by_cases this : get item "id" = id
      · simp [this, same.trans this]
      · simp only [this, decide_false]
        exact ih
    · rw [if_neg same]
      by_cases this : get item "id" = id
      · have other : get obj "id" ≠ id := fun isId => same (isId.trans this.symm)
        simp [this, other]
      · simp only [this, decide_false]
        exact ih

theorem keepsId_self (obj : Object) : KeepsId obj obj := fun _ => rfl

theorem keepsId_of_not_has (lacks : ¬Has alterations "id") :
    KeepsId obj alterations := fun has => (lacks has).elim

theorem findEditor_altered (keeps : KeepsId obj alterations)
    (found : findEditor s (text x) = some entry)
    (altered : t.queryEditors = alterInArr s.queryEditors obj alterations "id") :
    findEditor t (text x) =
      some (if get obj "id" = text x then spread entry alterations else entry) := by
  unfold findEditor at found ⊢
  rw [altered, find_alterInArr keeps, found, Option.map_some]

theorem findEditor_append {items : List Object} {more : List Object}
    (found : items.find? (fun qe => decide (get qe "id" = text x)) = some entry)
    (appended : t.queryEditors = items ++ more) : findEditor t (text x) = some entry := by
  unfold findEditor
  rw [appended, List.find?_append, found]
  rfl

end Read

def Keeps (s t : State) (x : String) : Prop :=
  ∀ f ∈ userEditedFields, get (upToDateQuery t (text x)) f = get (upToDateQuery s (text x)) f

def Merged (s : State) (entry : Object) : Prop :=
  ∀ f ∈ userEditedFields, Has s.unsavedQueryEditor f →
    get s.unsavedQueryEditor f = get entry f

def Agrees (s : State) (x : String) (snapshot entry : Object) : Prop :=
  ∀ f ∈ userEditedFields, ¬(Overlays s x ∧ Has s.unsavedQueryEditor f) → Has snapshot f →
    get snapshot f = get entry f

def ReplacesOverlay (s : State) (x : String) (id : Value) : Prop :=
  activeTab s = id ∧ truthy id = true ∧ Overlays s x

section Law
variable (timestamp : Value → Option Int) (toNumber : Value → Value)

/-- What an action may do to the editor `x`: a setter addressed to it shows its new
value, and an action that is not addressed to it changes nothing the user edited. -/
def Law (now : Int) (s : State) (x : String) (a : Action) : Prop :=
  let t := reduce timestamp toNumber now s a
  match a with
  | .setQueryEditor id setter =>
    if id = text x then get (upToDateQuery t (text x)) setter.field.1 = setter.field.2
    else Keeps s t x
  | .addQueryEditor _ _ _ => Keeps s t x
  | .cloneQueryToNewTab _ _ _ => Keeps s t x
  | .setActiveQueryEditor _ => Keeps s t x
  | .removeQueryEditor removed => get removed "id" ≠ text x → Keeps s t x
  | .startQuery query => startedEditor s query ≠ text x → Keeps s t x
  | .migrateQueryEditor _ _ => Keeps s t x
  | _ => True

end Law

def Harmless (s : State) (x : String) (entry : Object) : Action → Prop
  | .setQueryEditor id setter =>
    if id = text x then
      if activeTab s = id then x ≠ "" ∨ shown s x entry setter.field.1 = setter.field.2
      else Overlays s x → Has s.unsavedQueryEditor setter.field.1 →
        get s.unsavedQueryEditor setter.field.1 = setter.field.2
    else ReplacesOverlay s x id → Merged s entry
  | .cloneQueryToNewTab _ _ _ =>
    Overlays s x → findEditor s (activeTab s) ≠ none → Merged s entry
  | .setActiveQueryEditor queryEditor =>
    get queryEditor "id" = text x → activeTab s ≠ text x → Overlays s x →
      Agrees s x queryEditor entry
  | .startQuery query =>
    startedEditor s query ≠ text x → ReplacesOverlay s x (startedEditor s query) →
      Merged s entry
  | .migrateQueryEditor oldQueryEditor _ =>
    get oldQueryEditor "id" = text x → Agrees s x oldQueryEditor entry
  | _ => True

section Proofs
variable {timestamp : Value → Option Int} {toNumber : Value → Value} {now : Int} {s t : State}
  {x : String} {entry : Object}

variable {f : String}

theorem userEditedFields_ne_id (field : f ∈ userEditedFields) : f ≠ "id" := by
  intro isId
  rw [isId] at field
  revert field
  decide

theorem keeps_iff_shown {after : Object} (found : findEditor s (text x) = some entry)
    (foundAfter : findEditor t (text x) = some after) :
    Keeps s t x ↔ ∀ f ∈ userEditedFields, shown t x after f = shown s x entry f := by
  unfold Keeps
  refine forall₂_congr fun f field => ?_
  rw [get_upToDateQuery found (userEditedFields_ne_id field),
    get_upToDateQuery foundAfter (userEditedFields_ne_id field)]

theorem keeps_of_same (found : findEditor s (text x) = some entry)
    (foundAfter : findEditor t (text x) = some entry)
    (sameOverlay : Overlays s x → t.unsavedQueryEditor = s.unsavedQueryEditor)
    (noOverlay : ¬Overlays s x → ¬Overlays t x) : Keeps s t x := by
  rw [keeps_iff_shown found foundAfter]
  intro f _
  unfold shown
  by_cases overlays : Overlays s x
  · have same := sameOverlay overlays
    have overlaysAfter : Overlays t x := by
      unfold Overlays
      rw [same]
      exact overlays
    simp [overlays, overlaysAfter, same]
  · simp [overlays, noOverlay overlays]

theorem keeps_dropped_iff (found : findEditor s (text x) = some entry)
    (foundAfter : findEditor t (text x) = some entry) (dropped : ¬Overlays t x) :
    Keeps s t x ↔ (Overlays s x → Merged s entry) := by
  rw [keeps_iff_shown found foundAfter]
  unfold shown Merged
  simp only [dropped, false_and, if_false]
  refine ⟨?_, ?_⟩
  · intro same overlays f field has
    have this := same f field
    rw [if_pos ⟨overlays, has⟩] at this
    exact this.symm
  · intro merged f field
    split
    · rename_i both
      exact (merged both.1 f field both.2).symm
    · rfl

theorem overlay_unusable (id : Value) (silent : Bool) :
    spread (spread (spreadIf (get s.unsavedQueryEditor "id" = id) s.unsavedQueryEditor)
        s.unsavedQueryEditor) (spreadIf (silent = false) (single "updatedAt" (number now))) =
      spread s.unsavedQueryEditor
        (spreadIf (silent = false) (single "updatedAt" (number now))) := by
  have absorbed : spread (spreadIf (get s.unsavedQueryEditor "id" = id) s.unsavedQueryEditor)
      s.unsavedQueryEditor = s.unsavedQueryEditor := by
    unfold spreadIf
    split
    · have self := spread_spread_self empty s.unsavedQueryEditor
      rwa [empty_spread] at self
    · exact empty_spread _
  rw [absorbed]

variable {silent : Bool}

theorem not_has_updatedAt (field : f ≠ "updatedAt") :
    ¬Has (spreadIf (silent = false) (single "updatedAt" (number now))) f := by
  unfold spreadIf
  split
  · exact fun has => field (has_single_iff.mp has)
  · exact not_has_empty

theorem shown_stamped (field : f ≠ "updatedAt")
    (stamped : t.unsavedQueryEditor = spread s.unsavedQueryEditor
      (spreadIf (silent = false) (single "updatedAt" (number now)))) :
    shown t x entry f = shown s x entry f := by
  have lacksId : ¬Has (spreadIf (silent = false) (single "updatedAt" (number now))) "id" :=
    not_has_updatedAt (by decide)
  have lacks : ¬Has (spreadIf (silent = false) (single "updatedAt" (number now))) f :=
    not_has_updatedAt field
  have sameOverlays : Overlays t x ↔ Overlays s x := by
    unfold Overlays
    rw [stamped, get_spread_of_not_has lacksId]
  have sameHas : Has t.unsavedQueryEditor f ↔ Has s.unsavedQueryEditor f := by
    rw [stamped, has_spread_iff]
    exact ⟨fun has => has.resolve_left lacks, .inr⟩
  unfold shown
  rw [stamped, get_spread_of_not_has lacks, ← stamped]
  simp only [sameOverlays, sameHas]

variable {updated : Object} {id : Value}

theorem get_overlay_id (first : Object)
    (lacks : ¬Has updated "id") :
    get (spread (spread first (spread (single "id" id) updated))
      (spreadIf (silent = false) (single "updatedAt" (number now)))) "id" = id := by
  have named : Has (spread (single "id" id) updated) "id" :=
    has_spread_iff.mpr (.inr (has_single_iff.mpr rfl))
  rw [get_spread_of_not_has (not_has_updatedAt (by decide)), get_spread_of_has named,
    get_spread_of_not_has lacks, get_single_self]

theorem alterUnsaved_background (background : activeTab s ≠ id) :
    alterUnsavedQueryEditorState now s updated id silent =
      { s with queryEditors := alterInArr s.queryEditors (single "id" id) updated "id" } :=
  if_pos background

theorem alterUnsaved_active (active : activeTab s = id) (t : State)
    (after : alterUnsavedQueryEditorState now s updated id silent = t) :
    t.queryEditors = s.queryEditors
      ∧ t.unsavedQueryEditor = spread
        (spread (spreadIf (get s.unsavedQueryEditor "id" = id) s.unsavedQueryEditor)
          (if truthy id then spread (single "id" id) updated else s.unsavedQueryEditor))
        (spreadIf (silent = false) (single "updatedAt" (number now))) := by
  rw [← after, alterUnsavedQueryEditorState, if_neg (not_not.mpr active)]
  exact ⟨rfl, rfl⟩

theorem findEditor_of_same (same : t.queryEditors = s.queryEditors) (id : Value) :
    findEditor t id = findEditor s id := by rw [findEditor, same, findEditor]

/-- A write addressed to another editor loses an overlay that was not merged, and
nothing else. -/
theorem keeps_alterUnsaved_iff (found : findEditor s (text x) = some entry) (other : id ≠ text x)
    (lacks : ¬Has updated "id") :
    Keeps s (alterUnsavedQueryEditorState now s updated id silent) x
      ↔ (ReplacesOverlay s x id → Merged s entry) := by
  by_cases active : activeTab s = id
  · generalize after : alterUnsavedQueryEditorState now s updated id silent = t
    obtain ⟨sameEditors, overlay⟩ := alterUnsaved_active active t after
    have foundAfter : findEditor t (text x) = some entry :=
      (findEditor_of_same sameEditors _).trans found
    cases usable : truthy id with
    | true =>
      rw [usable, if_pos rfl] at overlay
      rw [keeps_dropped_iff found foundAfter]
      · exact ⟨fun merged replaces => merged replaces.2.2,
          fun merged overlays => merged ⟨active, usable, overlays⟩⟩
      · unfold Overlays
        rw [overlay, get_overlay_id _ lacks]
        exact other
    | false =>
      rw [usable, if_neg Bool.false_ne_true, overlay_unusable] at overlay
      refine ⟨fun _ replaces => ?_, fun _ => (keeps_iff_shown found foundAfter).mpr ?_⟩
      · exact (Bool.false_ne_true (usable.symm.trans replaces.2.1)).elim
      · intro f field
        refine shown_stamped ?_ overlay
        intro stamp
        rw [stamp] at field
        revert field
        decide
  · rw [alterUnsaved_background active]
    have foundAfter : findEditor { s with
        queryEditors := alterInArr s.queryEditors (single "id" id) updated "id" } (text x) =
          some entry := by
      rw [findEditor_altered (keepsId_of_not_has lacks) found rfl, get_single_self, if_neg other]
    exact ⟨fun _ replaces => (active replaces.1).elim,
      fun _ => keeps_of_same found foundAfter (fun _ => rfl) fun not => not⟩

theorem shown_alterUnsaved_iff {value : Value}
    (found : findEditor s (text x) = some entry) (lacks : ¬Has updated "id")
    (sets : updated f = some value) (notId : f ≠ "id") (notStamp : f ≠ "updatedAt") :
    get (upToDateQuery (alterUnsavedQueryEditorState now s updated (text x) silent) (text x)) f
        = value
      ↔ if activeTab s = text x then x ≠ "" ∨ shown s x entry f = value
        else Overlays s x → Has s.unsavedQueryEditor f → get s.unsavedQueryEditor f = value := by
  have has : Has updated f := has_iff.mpr ⟨value, sets⟩
  by_cases active : activeTab s = text x
  · rw [if_pos active]
    generalize after : alterUnsavedQueryEditorState now s updated (text x) silent = t
    obtain ⟨sameEditors, overlay⟩ := alterUnsaved_active active t after
    have foundAfter : findEditor t (text x) = some entry :=
      (findEditor_of_same sameEditors _).trans found
    rw [get_upToDateQuery foundAfter notId]
    cases usable : truthy (text x) with
    | true =>
      have nonempty : x ≠ "" := by simpa [truthy, text] using usable
      rw [usable, if_pos rfl] at overlay
      refine ⟨fun _ => .inl nonempty, fun _ => ?_⟩
      have hasInner : Has (spread (single "id" (text x)) updated) f :=
        has_spread_iff.mpr (.inl has)
      have overlays : Overlays t x := by
        unfold Overlays
        rw [overlay, get_overlay_id _ lacks]
      have hides : Has t.unsavedQueryEditor f := by
        rw [overlay]
        exact has_spread_iff.mpr (.inr (has_spread_iff.mpr (.inl hasInner)))
      rw [shown, if_pos ⟨overlays, hides⟩, overlay,
        get_spread_of_not_has (not_has_updatedAt notStamp), get_spread_of_has hasInner,
        get_spread_of_has has, get_of_some sets]
    | false =>
      have isEmpty : x = "" := by simpa [truthy, text] using usable
      rw [usable, if_neg Bool.false_ne_true, overlay_unusable] at overlay
      rw [shown_stamped notStamp overlay]
      exact ⟨.inr, fun either => either.resolve_left fun nonempty => nonempty isEmpty⟩
  · rw [if_neg active, alterUnsaved_background active]
    have foundAfter : findEditor { s with
        queryEditors := alterInArr s.queryEditors (single "id" (text x)) updated "id" } (text x) =
          some (spread entry updated) := by
      rw [findEditor_altered (keepsId_of_not_has lacks) found rfl, get_single_self, if_pos rfl]
    rw [get_upToDateQuery foundAfter notId]
    show (if Overlays s x ∧ Has s.unsavedQueryEditor f then get s.unsavedQueryEditor f
      else get (spread entry updated) f) = value ↔ _
    rw [get_spread_of_has has, get_of_some sets]
    split
    · rename_i both
      exact ⟨fun same _ _ => same, fun same => same both.1 both.2⟩
    · rename_i apart
      exact ⟨fun _ overlays hides => (apart ⟨overlays, hides⟩).elim, fun _ => rfl⟩

theorem keeps_refl : Keeps s s x := fun _ _ => rfl

theorem shown_merged (overlays : Overlays s x) (f : String) :
    get (spread entry s.unsavedQueryEditor) f = shown s x entry f := by
  unfold shown
  by_cases has : Has s.unsavedQueryEditor f
  · rw [if_pos ⟨overlays, has⟩, get_spread_of_has has]
  · rw [if_neg fun both => has both.2, get_spread_of_not_has has]

theorem find_mergeUnsaved (found : findEditor s (text x) = some entry) :
    (mergeUnsaved s).find? (fun qe => decide (get qe "id" = text x)) =
      some (if Overlays s x then spread entry s.unsavedQueryEditor else entry) := by
  unfold findEditor at found
  rw [mergeUnsaved, find_alterInArr (keepsId_self _), found, Option.map_some]
  rfl

theorem keeps_addQueryEditor (found : findEditor s (text x) = some entry) (queryEditor : Object) :
    Keeps s (addQueryEditor now s queryEditor) x := by
  have foundAfter : findEditor (addQueryEditor now s queryEditor) (text x) =
      some (if Overlays s x then spread entry s.unsavedQueryEditor else entry) :=
    findEditor_append (find_mergeUnsaved found) rfl
  rw [keeps_iff_shown found foundAfter]
  intro f _
  show (if Overlays s x ∧ Has s.unsavedQueryEditor f then get s.unsavedQueryEditor f
    else get (if Overlays s x then spread entry s.unsavedQueryEditor else entry) f)
      = shown s x entry f
  by_cases overlays : Overlays s x
  · rw [if_pos overlays, shown_merged overlays]
    split
    · rename_i both
      rw [shown, if_pos both]
    · rfl
  · rw [if_neg overlays]
    rfl

theorem not_overlays_empty (dropped : t.unsavedQueryEditor = empty) : ¬Overlays t x := by
  unfold Overlays
  rw [dropped, get_of_not_has not_has_empty]
  simp [undefined, text]

theorem keeps_cloneQueryToNewTab_iff (found : findEditor s (text x) = some entry) (query : Object)
    (id immutableId : String) :
    Keeps s ((cloneQueryToNewTab now s query id immutableId).getD s) x
      ↔ (Overlays s x → findEditor s (activeTab s) ≠ none → Merged s entry) := by
  unfold cloneQueryToNewTab
  cases source : findEditor s (activeTab s) with
  | none => exact ⟨fun _ _ absent => (absent rfl).elim, fun _ => keeps_refl⟩
  | some queryEditor =>
    show Keeps s (addQueryEditor now { s with unsavedQueryEditor := empty }
      (newQueryEditor (clonedQueryEditor s queryEditor query) id immutableId)) x ↔ _
    generalize newQueryEditor (clonedQueryEditor s queryEditor query) id immutableId = added
    have dropped : ¬Overlays (addQueryEditor now { s with unsavedQueryEditor := empty } added) x :=
      not_overlays_empty rfl
    have bare : findEditor { s with unsavedQueryEditor := empty } (text x) = some entry := found
    have foundAfter : findEditor (addQueryEditor now { s with unsavedQueryEditor := empty } added)
        (text x) = some entry := by
      have merged := find_mergeUnsaved bare
      rw [if_neg (not_overlays_empty rfl)] at merged
      exact findEditor_append merged rfl
    rw [keeps_dropped_iff found foundAfter dropped]
    exact ⟨fun merged overlays _ => merged overlays, fun merged overlays =>
      merged overlays (by simp)⟩

theorem keeps_removeQueryEditor (found : findEditor s (text x) = some entry) (removed : Object)
    (other : get removed "id" ≠ text x) : Keeps s (removeQueryEditor now s removed) x := by
  have sameId : get (spread removed (spreadIf (get removed "id" = get s.unsavedQueryEditor "id")
      s.unsavedQueryEditor)) "id" = get removed "id" := by
    unfold spreadIf
    split
    · rename_i same
      by_cases has : Has s.unsavedQueryEditor "id"
      · rw [get_spread_of_has has, same]
      · exact get_spread_of_not_has has
    · rfl
  have foundAfter : findEditor (removeQueryEditor now s removed) (text x) = some entry := by
    show (removeFromArr s.queryEditors _).find? _ = some entry
    unfold removeFromArr
    rw [sameId, List.find?_filter]
    unfold findEditor at found
    rw [← found]
    congr 1
    funext qe
    by_cases this : get qe "id" = text x
    · simp [this, other]
    · simp [this]
  refine keeps_of_same found foundAfter ?_ ?_
  · intro overlays
    have apart : get removed "id" ≠ get s.unsavedQueryEditor "id" :=
      fun same => other (same.trans overlays)
    exact if_pos apart
  · intro free
    by_cases same : get removed "id" = get s.unsavedQueryEditor "id"
    · exact not_overlays_empty (if_neg (not_not.mpr same))
    · have kept : (removeQueryEditor now s removed).unsavedQueryEditor = s.unsavedQueryEditor :=
        if_pos same
      unfold Overlays at free ⊢
      rwa [kept]

theorem keeps_overwritten_iff {snapshot : Object} (found : findEditor s (text x) = some entry)
    (foundAfter : findEditor t (text x) = some (spread entry snapshot))
    (sameOverlay : t.unsavedQueryEditor = s.unsavedQueryEditor) :
    Keeps s t x ↔ Agrees s x snapshot entry := by
  rw [keeps_iff_shown found foundAfter]
  unfold Agrees
  refine forall₂_congr fun f _ => ?_
  have sameShown : shown t x (spread entry snapshot) f = shown s x (spread entry snapshot) f := by
    have sameOverlays : Overlays t x ↔ Overlays s x := by
      unfold Overlays
      rw [sameOverlay]
    simp only [shown, sameOverlays, sameOverlay]
  rw [sameShown, shown, shown]
  by_cases hidden : Overlays s x ∧ Has s.unsavedQueryEditor f
  · rw [if_pos hidden, if_pos hidden]
    exact ⟨fun _ free => (free hidden).elim, fun _ => rfl⟩
  · rw [if_neg hidden, if_neg hidden]
    by_cases has : Has snapshot f
    · rw [get_spread_of_has has]
      exact ⟨fun same _ _ => same, fun same => same hidden has⟩
    · rw [get_spread_of_not_has has]
      exact ⟨fun _ _ hasField => (has hasField).elim, fun _ => rfl⟩

theorem synced_field (snapshot : Object) (tabViewId : String)
    (field : f ∈ userEditedFields) : syncedQueryEditor snapshot tabViewId f = snapshot f := by
  have apart : ∀ f ∈ userEditedFields, f ∉ ["inLocalStorage", "loaded", "tabViewId"] := by decide
  exact spread_of_not_has fun has => apart f field (has_ofList_iff.mp has)

theorem keeps_migrateQueryEditor_iff (found : findEditor s (text x) = some entry)
    (old : Object) (tabViewId : String) :
    Keeps s (migrateQueryEditor s old tabViewId) x ↔
    (get old "id" = text x → Agrees s x old entry) := by
  have keepsId : KeepsId old (syncedQueryEditor old tabViewId) := by
    intro _
    have same : syncedQueryEditor old tabViewId "id" = old "id" :=
      spread_of_not_has fun has => absurd (has_ofList_iff.mp has) (by simp)
    unfold JsObject.get
    rw [same]
  have foundAfter := findEditor_altered (t := migrateQueryEditor s old tabViewId) keepsId found rfl
  by_cases this : get old "id" = text x
  · rw [if_pos this] at foundAfter
    rw [keeps_overwritten_iff found foundAfter rfl]
    have sameFields : Agrees s x (syncedQueryEditor old tabViewId) entry ↔
        Agrees s x old entry := by
      unfold Agrees Has JsObject.get
      refine forall₂_congr fun f field => ?_
      rw [synced_field old tabViewId field]
    rw [sameFields]
    exact ⟨fun agrees _ => agrees, fun agrees => agrees this⟩
  · rw [if_neg this] at foundAfter
    exact ⟨fun _ isThis => (this isThis).elim,
      fun _ => keeps_of_same found foundAfter (fun _ => rfl) fun free => free⟩

def activatedEntry (s : State) (x : String) (queryEditor entry : Object) : Object :=
  if get queryEditor "id" = text x ∧ Overlays s x then
    spread (if Overlays s x then spread entry s.unsavedQueryEditor else entry)
      (spread queryEditor s.unsavedQueryEditor)
  else if Overlays s x then spread entry s.unsavedQueryEditor else entry

theorem findEditor_setActive {queryEditor : Object} (found : findEditor s (text x) = some entry)
    (guard : get queryEditor "id" ∈ s.queryEditors.map (fun qe => get qe "id")
      ∧ activeTab s ≠ get queryEditor "id") :
    findEditor (setActiveQueryEditor s queryEditor) (text x) =
      some (activatedEntry s x queryEditor entry) := by
  unfold setActiveQueryEditor activatedEntry
  rw [if_pos guard]
  unfold findEditor
  by_cases same : get queryEditor "id" = get s.unsavedQueryEditor "id"
  · have keepsId : KeepsId queryEditor (spread queryEditor s.unsavedQueryEditor) := by
      intro _
      by_cases has : Has s.unsavedQueryEditor "id"
      · rw [get_spread_of_has has, same]
      · exact get_spread_of_not_has has
    rw [if_pos same, find_alterInArr keepsId, find_mergeUnsaved found, Option.map_some]
    have this : get queryEditor "id" = text x ↔ get queryEditor "id" = text x ∧ Overlays s x :=
      ⟨fun isThis => ⟨isThis, same.symm.trans isThis⟩, fun both => both.1⟩
    simp only [← this]
  · have apart : ¬(get queryEditor "id" = text x ∧ Overlays s x) :=
      fun both => same (both.1.trans both.2.symm)
    rw [if_neg same, find_mergeUnsaved found, if_neg apart]

/-- Activating an editor merges the overlay; one activated with a snapshot of its
own while its overlay is still there is overwritten with the snapshot. -/
theorem keeps_setActiveQueryEditor_iff (found : findEditor s (text x) = some entry)
    (queryEditor : Object) :
    Keeps s (setActiveQueryEditor s queryEditor) x
      ↔ (get queryEditor "id" = text x → activeTab s ≠ text x → Overlays s x →
        Agrees s x queryEditor entry) := by
  have listed : text x ∈ s.queryEditors.map fun qe => get qe "id" := by
    have member := List.mem_of_find?_eq_some found
    have isThis : get entry "id" = text x := by simpa using List.find?_some found
    exact List.mem_map.mpr ⟨entry, member, isThis⟩
  by_cases guard : get queryEditor "id" ∈ s.queryEditors.map (fun qe => get qe "id")
      ∧ activeTab s ≠ get queryEditor "id"
  · rw [keeps_iff_shown found (findEditor_setActive found guard)]
    have dropped : ¬Overlays (setActiveQueryEditor s queryEditor) x := by
      refine not_overlays_empty ?_
      rw [setActiveQueryEditor, if_pos guard]
    have atEntry : ∀ after f, shown (setActiveQueryEditor s queryEditor) x after f = get after f :=
      fun after f => if_neg fun both => dropped both.1
    simp only [atEntry, activatedEntry]
    by_cases overlays : Overlays s x
    · rw [if_pos overlays]
      by_cases this : get queryEditor "id" = text x
      · rw [if_pos ⟨this, overlays⟩]
        have background : activeTab s ≠ text x := fun active => guard.2 (active.trans this.symm)
        have pointwise : ∀ f, (get (spread (spread entry s.unsavedQueryEditor)
            (spread queryEditor s.unsavedQueryEditor)) f = shown s x entry f)
              ↔ (¬(Overlays s x ∧ Has s.unsavedQueryEditor f) → Has queryEditor f →
                get queryEditor f = get entry f) := by
          intro f
          by_cases hidden : Has s.unsavedQueryEditor f
          · have inBoth : Has (spread queryEditor s.unsavedQueryEditor) f :=
              has_spread_iff.mpr (.inl hidden)
            rw [get_spread_of_has inBoth, get_spread_of_has hidden, shown,
              if_pos ⟨overlays, hidden⟩]
            exact ⟨fun _ free => (free ⟨overlays, hidden⟩).elim, fun _ => rfl⟩
          · have free : ¬(Overlays s x ∧ Has s.unsavedQueryEditor f) := fun both => hidden both.2
            rw [shown, if_neg free]
            by_cases has : Has queryEditor f
            · have inSnapshot : Has (spread queryEditor s.unsavedQueryEditor) f :=
                has_spread_iff.mpr (.inr has)
              rw [get_spread_of_has inSnapshot, get_spread_of_not_has hidden]
              exact ⟨fun same _ _ => same, fun same => same free has⟩
            · have outside : ¬Has (spread queryEditor s.unsavedQueryEditor) f :=
                fun both => (has_spread_iff.mp both).elim hidden has
              rw [get_spread_of_not_has outside, get_spread_of_not_has hidden]
              exact ⟨fun _ _ inQuery => (has inQuery).elim, fun _ => rfl⟩
        refine ⟨fun same _ _ _ f field => (pointwise f).mp (same f field), ?_⟩
        exact fun agrees f field => (pointwise f).mpr (agrees this background overlays f field)
      · rw [if_neg fun both => this both.1]
        exact ⟨fun _ isThis => (this isThis).elim, fun _ f _ => shown_merged overlays f⟩
    · rw [if_neg overlays, if_neg fun both => overlays both.2]
      refine ⟨fun _ _ _ isOverlay => (overlays isOverlay).elim, fun _ f _ => ?_⟩
      rw [shown, if_neg fun both => overlays both.1]
  · rw [setActiveQueryEditor, if_neg guard]
    refine ⟨fun _ this background => (guard ⟨?_, ?_⟩).elim, fun _ => keeps_refl⟩
    · rw [this]
      exact listed
    · rw [this]
      exact background

theorem Setter.sets (setter : Setter) :
    setter.updatedState setter.field.1 = some setter.field.2
      ∧ ¬Has setter.updatedState "id" ∧ setter.field.1 ≠ "id" ∧ setter.field.1 ≠ "updatedAt" := by
  cases setter with
  | setSql sql queryId =>
    have latest : ∀ f, Has (spreadIf (truthy queryId = true) (single "latestQueryId" queryId)) f →
        f = "latestQueryId" := by
      intro f
      unfold spreadIf
      split
      · exact has_single_iff.mp
      · exact fun has => (not_has_empty has).elim
    refine ⟨?_, ?_, by simp [Setter.field], by simp [Setter.field]⟩
    · exact spread_of_not_has fun has => absurd (latest "sql" has) (by decide)
    · intro has
      obtain second | first := has_spread_iff.mp has
      · exact absurd (latest "id" second) (by decide)
      · exact absurd (has_single_iff.mp first) (by decide)
  | persistHeight north south =>
    refine ⟨rfl, ?_, by simp [Setter.field], by simp [Setter.field]⟩
    simp [Setter.updatedState, has_ofList_iff]
  | _ => simp [Setter.updatedState, Setter.field, has_single_iff, single]

theorem skips_shown {setter : Setter} (skips : setter.skips s (text x)) :
    Overlays s x ∧ Has s.unsavedQueryEditor setter.field.1
      ∧ get s.unsavedQueryEditor setter.field.1 = setter.field.2 := by
  cases setter with
  | setSql sql queryId =>
    obtain ⟨overlays, same⟩ := skips
    refine ⟨overlays, fun absent => ?_, same⟩
    have nothing : get s.unsavedQueryEditor "sql" = undefined :=
      get_of_not_has (not_not.mpr absent)
    rw [same] at nothing
    cases nothing
  | _ => exact skips.elim

theorem skips_overlay {setter : Setter} (skips : setter.skips s id) :
    get s.unsavedQueryEditor "id" = id := by
  cases setter with
  | setSql sql queryId => exact skips.1
  | _ => exact skips.elim

theorem law_iff_harmless (timestamp : Value → Option Int) (toNumber : Value → Value) (now : Int)
    (s : State) (x : String) (entry : Object) (a : Action)
    (found : findEditor s (text x) = some entry) :
    Law timestamp toNumber now s x a ↔ Harmless s x entry a := by
  cases a with
  | setQueryEditor id setter =>
    obtain ⟨sets, lacks, notId, notStamp⟩ := setter.sets
    simp only [Law, Harmless, reduce, setQueryEditor]
    by_cases this : id = text x
    · rw [if_pos this, if_pos this, this]
      by_cases skips : setter.skips s (text x)
      · obtain ⟨overlays, hides, same⟩ := skips_shown skips
        have shows : shown s x entry setter.field.1 = setter.field.2 := by
          rw [shown, if_pos ⟨overlays, hides⟩, same]
        rw [if_pos skips, get_upToDateQuery found notId]
        refine ⟨fun _ => ?_, fun _ => shows⟩
        split
        · exact .inr shows
        · exact fun _ _ => same
      · rw [if_neg skips]
        exact shown_alterUnsaved_iff found lacks sets notId notStamp
    · rw [if_neg this, if_neg this]
      by_cases skips : setter.skips s id
      · rw [if_pos skips]
        refine ⟨fun _ replaces => ?_, fun _ => keeps_refl⟩
        exact (this ((skips_overlay skips).symm.trans replaces.2.2)).elim
      · rw [if_neg skips]
        exact keeps_alterUnsaved_iff found this lacks
  | addQueryEditor queryEditor id immutableId =>
    exact ⟨fun _ => trivial, fun _ => keeps_addQueryEditor found _⟩
  | cloneQueryToNewTab query id immutableId =>
    exact keeps_cloneQueryToNewTab_iff found query id immutableId
  | removeQueryEditor removed =>
    exact ⟨fun _ => trivial, fun _ other => keeps_removeQueryEditor found removed other⟩
  | setActiveQueryEditor queryEditor => exact keeps_setActiveQueryEditor_iff found queryEditor
  | startQuery query =>
    simp only [Law, Harmless, reduce, startQuery]
    refine forall_congr' fun other => ?_
    have lacks : ¬Has (single "latestQueryId" (get query "id")) "id" := by
      simp [has_single_iff]
    exact keeps_alterUnsaved_iff (s := { s with
      queries := addToObject (clearedQueries s query) query }) found other lacks
  | migrateQueryEditor old tabViewId => exact keeps_migrateQueryEditor_iff found old tabViewId
  | _ => exact Iff.rfl

end Proofs

/-- Over every sequence of dispatches, from any state: no edit of the editor is lost
at any step exactly when every step is harmless to it. -/
theorem edits_kept_iff (timestamp : Value → Option Int) (toNumber : Value → Value) (s : State)
    (x : String) (actions : List (Int × Action)) :
    (∀ earlier now a entry, earlier ++ [(now, a)] <+: actions →
        findEditor (reduceAll timestamp toNumber s earlier) (text x) = some entry →
          Law timestamp toNumber now (reduceAll timestamp toNumber s earlier) x a)
      ↔ ∀ earlier now a entry, earlier ++ [(now, a)] <+: actions →
        findEditor (reduceAll timestamp toNumber s earlier) (text x) = some entry →
          Harmless (reduceAll timestamp toNumber s earlier) x entry a := by
  refine forall₄_congr fun earlier now a entry => ?_
  refine imp_congr_right fun _ => imp_congr_right fun found => ?_
  exact law_iff_harmless timestamp toNumber now _ x entry a found

def editedState : State :=
  reduceAll (fun _ => none) id emptyState
    [(1, .addQueryEditor empty "A" "a"),
      (2, .setQueryEditor (text "A") (.setSql "edited" undefined))]

/-- A new tab leaves the overlay of the old one behind: the text a formatter sends
for the old tab is hidden by it. -/
theorem not_law_formatted_in_background :
    ¬Law (fun _ => none) id 4
      (reduceAll (fun _ => none) id editedState [(3, .addQueryEditor empty "B" "b")]) "A"
      (.setQueryEditor (text "A") (.setSql "formatted" undefined)) := by
  intro law
  rw [Law, if_pos rfl] at law
  revert law
  decide

end Liteset.SqlLab
