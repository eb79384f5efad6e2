import Std.Data.String.ToInt
import Liteset.SqlLab.InitialState
import Liteset.Lib.Runs

/-!
# The active tab exists

Tabs are remembered by id, but editors are collected at start-up and kept on a
removal under `tabViewId ?? id`.  The invariant holds from every start and along
every run in which the two do not get confused.
-/

set_option autoImplicit false

namespace Liteset.SqlLab

open Liteset.Lib Liteset.Lib.JsObject Liteset.Lib.Runs List

/-- Every id of the history is that of an editor, and the history is not empty
while there are editors. -/
structure Live (s : State) : Prop where
  known : ∀ id ∈ s.tabHistory, id ∈ s.queryEditors.map fun qe => get qe "id"
  active : s.queryEditors ≠ [] → s.tabHistory ≠ []

theorem mem_dedupe_fold {items : List Value} {kept : List Value} {id : Value}
    (listed : id ∈ items.foldl (fun result tabId =>
      if (result.getLast?).getD undefined = tabId then result else result ++ [tabId]) kept) :
    id ∈ kept ∨ id ∈ items := by
  induction items generalizing kept with
  | nil => exact .inl listed
  | cons item rest ih =>
    rw [foldl_cons] at listed
    obtain inKept | inRest := ih listed
    · split at inKept
      · exact .inl inKept
      · obtain old | new := mem_append.mp inKept
        · exact .inl old
        · rw [mem_singleton.mp new]
          exact .inr mem_cons_self
    · exact .inr (mem_cons_of_mem _ inRest)

theorem mem_dedupeTabHistory {items : List Value} {id : Value}
    (listed : id ∈ dedupeTabHistory items) : id ∈ items :=
  (mem_dedupe_fold listed).resolve_left not_mem_nil

theorem dedupe_fold_ne_nil {items kept : List Value} (some : kept ≠ []) :
    items.foldl (fun result tabId =>
      if (result.getLast?).getD undefined = tabId then result
        else result ++ [tabId]) kept ≠ [] := by
  induction items generalizing kept with
  | nil => exact some
  | cons item rest ih =>
    rw [foldl_cons]
    refine ih ?_
    split
    · exact some
    · simp

theorem dedupeTabHistory_ne_nil {items : List Value} (some : items ≠ [])
    (defined : ∀ id ∈ items, id ≠ undefined) : dedupeTabHistory items ≠ [] := by
  cases items with
  | nil => exact (some rfl).elim
  | cons item rest =>
    unfold dedupeTabHistory
    rw [foldl_cons]
    refine dedupe_fold_ne_nil ?_
    have isDefined : undefined ≠ item := fun same => defined item mem_cons_self same.symm
    simp [isDefined]

def IsTab (boot : Bootstrap) (key : String) : Prop :=
  ∃ tab ∈ boot.tabStateIds, toString tab.id = key

instance (boot : Bootstrap) (key : String) : Decidable (IsTab boot key) :=
  inferInstanceAs (Decidable (∃ _ ∈ _, _))

def savedAt (boot : Bootstrap) (key : String) : Value :=
  match boot.activeTab with
  | some tab => if toString tab.id = key then tab.updatedAt else undefined
  | none => undefined

theorem backendEditor_id (boot : Bootstrap) (tab : TabStateId) :
    get (backendEditor boot tab) "id" = text (toString tab.id) := by
  unfold backendEditor
  cases boot.activeTab with
  | none => rfl
  | some active =>
    by_cases same : active.id = tab.id
    · simp only [same, if_true]
      rw [← same]
      rfl
    · simp only [same, if_false]
      rfl

theorem backendEditor_updatedAt (boot : Bootstrap) (tab : TabStateId) :
    get (backendEditor boot tab) "updatedAt" = savedAt boot (toString tab.id) := by
  unfold backendEditor savedAt
  cases boot.activeTab with
  | none => rfl
  | some active =>
    by_cases same : active.id = tab.id
    · simp only [same, if_true]
      rfl
    · have otherKey : toString active.id ≠ toString tab.id := fun h => same (Int.repr_injective h)
      simp only [same, otherKey, if_false]
      rfl

theorem backend_fold_entry (boot : Bootstrap) (key : String) (tabs : List TabStateId)
    (editors : Record Object) :
    let after := tabs.foldl (fun editors tab =>
      editors.set (toString tab.id) (backendEditor boot tab)) editors
    (∃ tab, toString tab.id = key ∧ tab ∈ tabs ∧ after.entry key = some (backendEditor boot tab))
      ∨ ((∀ tab ∈ tabs, toString tab.id ≠ key) ∧ after.entry key = editors.entry key) := by
  induction tabs generalizing editors with
  | nil => exact .inr ⟨by simp, rfl⟩
  | cons tab rest ih =>
    rw [foldl_cons]
    obtain ⟨found, sameKey, listed, entered⟩ | ⟨others, same⟩ :=
      ih (editors.set (toString tab.id) (backendEditor boot tab))
    · exact .inl ⟨found, sameKey, mem_cons_of_mem _ listed, entered⟩
    · by_cases here : toString tab.id = key
      · refine .inl ⟨tab, here, mem_cons_self, ?_⟩
        rw [same]
        exact if_pos here.symm
      · refine .inr ⟨?_, ?_⟩
        · intro other listed
          obtain rfl | later := mem_cons.mp listed
          · exact here
          · exact others other later
        · rw [same]
          exact if_neg (Ne.symm here)

variable {boot : Bootstrap}

theorem backendEditors_of_isTab {key : String} (isTab : IsTab boot key) :
    ∃ editor, (backendEditors boot).entry key = some editor ∧ get editor "id" = text key
      ∧ get editor "updatedAt" = savedAt boot key := by
  obtain ⟨tab, sameKey, -, entered⟩ | ⟨others, -⟩ :=
    backend_fold_entry boot key boot.tabStateIds Record.empty
  · refine ⟨_, entered, ?_, ?_⟩
    · rw [backendEditor_id, sameKey]
    · rw [backendEditor_updatedAt, sameKey]
  · obtain ⟨tab, listed, sameKey⟩ := isTab
    exact (others tab listed sameKey).elim

theorem backendEditors_of_not_isTab {key : String} (other : ¬IsTab boot key) :
    (backendEditors boot).entry key = none := by
  obtain ⟨tab, sameKey, listed, -⟩ | ⟨-, same⟩ :=
    backend_fold_entry boot key boot.tabStateIds Record.empty
  · exact (other ⟨tab, listed, sameKey⟩).elim
  · exact same

section Merge
variable {unsaved qe : Object} {backend : Option Object} {h : Value}

theorem get_id_of_overlay {entry overlay : Object} {condition : Prop} [Decidable condition]
    (sameId : condition → Has overlay "id" → get overlay "id" = get entry "id") :
    get (spread entry (spreadIf condition overlay)) "id" = get entry "id" := by
  by_cases holds : condition
  · rw [spreadIf, if_pos holds]
    by_cases has : Has overlay "id"
    · rw [get_spread_of_has has]
      exact sameId holds has
    · exact get_spread_of_not_has has
  · rw [spreadIf, if_neg holds, spread_empty]

theorem mergedEditor_id :
    get (mergedEditor backend unsaved qe) "id"
      = get (spread (backend.getD empty) (cachedEditor backend qe)) "id" := by
  have noId : ∀ fields : List (String × Value), "id" ∉ fields.map Prod.fst →
      ¬Has (ofList fields) "id" := fun fields out has => out (has_ofList_iff.mp has)
  have named : ∀ (entry : Object) (name : Value),
      get (spread entry (single "name" name)) "id" = get entry "id" := by
    intro entry name
    refine get_spread_of_not_has ?_
    rw [has_single_iff]
    decide
  unfold mergedEditor
  rw [get_spread_of_not_has (noId _ (by simp)), get_id_of_overlay, named]
  intro holds _
  obtain ⟨cachedId, sameId⟩ := holds
  rw [named, sameId]
  -- an editor without a cached copy has no cached id
  have taken : cachedEditor backend qe = qe := by
    cases backend with
    | none => rfl
    | some existing =>
      unfold cachedEditor at cachedId ⊢
      by_cases newer : updatedSince qe (get existing "updatedAt") = true
      · simp [newer]
      · simp [newer] at cachedId
        exact absurd cachedId (by decide)
  rw [taken] at cachedId ⊢
  have has : Has qe "id" := by
    by_contra lacks
    rw [get_of_not_has lacks] at cachedId
    exact absurd cachedId (by decide)
  exact (get_spread_of_has has).symm

theorem mergedEditor_id_of_taken (taken : cachedEditor backend qe = qe) (own : get qe "id" = h)
    (defined : h ≠ undefined) : get (mergedEditor backend unsaved qe) "id" = h := by
  have has : Has qe "id" := by
    by_contra lacks
    exact defined (own.symm.trans (get_of_not_has lacks))
  rw [mergedEditor_id, taken, get_spread_of_has has, own]

theorem mergedEditor_id_kept {existing : Object} (same : get existing "id" = h)
    (own : get qe "id" = h) (defined : h ≠ undefined) :
    get (mergedEditor (some existing) unsaved qe) "id" = h := by
  by_cases newer : updatedSince qe (get existing "updatedAt") = true
  · exact mergedEditor_id_of_taken (by simp [cachedEditor, newer]) own defined
  · rw [mergedEditor_id]
    simp only [cachedEditor, newer]
    exact same

variable {key : String} {editors : Record Object} {persisted : List Object}

def HoldsAt (editors : Record Object) (key : String) (h : Value) : Prop :=
  ∃ editor, editors.entry key = some editor ∧ get editor "id" = h

theorem mergeEditors_holdsAt (agree : ∀ qe ∈ persisted, recordKey qe = key → get qe "id" = h)
    (defined : h ≠ undefined) (holds : HoldsAt editors key h) :
    HoldsAt (mergeEditors unsaved editors persisted) key h := by
  induction persisted generalizing editors with
  | nil => exact holds
  | cons qe rest ih =>
    refine ih (fun other listed => agree other (mem_cons_of_mem _ listed)) ?_
    obtain ⟨editor, entered, sameId⟩ := holds
    by_cases here : recordKey qe = key
    · refine ⟨_, if_pos here.symm, ?_⟩
      rw [here, entered]
      exact mergedEditor_id_kept sameId (agree qe mem_cons_self here) defined
    · exact ⟨editor, (if_neg (Ne.symm here)).trans entered, sameId⟩

theorem mergeEditors_holdsAt_of_taken
    (agree : ∀ qe ∈ persisted, recordKey qe = key → get qe "id" = h) (defined : h ≠ undefined)
    (first : persisted.find? (fun qe => recordKey qe = key) = some qe)
    (taken : cachedEditor (editors.entry key) qe = qe) :
    HoldsAt (mergeEditors unsaved editors persisted) key h := by
  induction persisted generalizing editors with
  | nil => simp at first
  | cons other rest ih =>
    have agreeRest : ∀ qe ∈ rest, recordKey qe = key → get qe "id" = h :=
      fun qe listed => agree qe (mem_cons_of_mem _ listed)
    by_cases here : recordKey other = key
    · have isOther : other = qe := by simpa [find?_cons, here] using first
      refine @mergeEditors_holdsAt _ _ _ _ rest agreeRest defined ?_
      refine ⟨_, if_pos here.symm, ?_⟩
      rw [here, isOther]
      exact mergedEditor_id_of_taken taken (agree qe (isOther ▸ mem_cons_self)
        (isOther ▸ here)) defined
    · refine ih agreeRest (by simpa [find?_cons, here] using first) ?_
      have untouched : (editors.set (recordKey other)
          (mergedEditor (editors.entry (recordKey other)) unsaved other)).entry key
            = editors.entry key := if_neg (Ne.symm here)
      rw [untouched]
      exact taken

theorem mergeEditors_of_no_key (none : ∀ qe ∈ persisted, recordKey qe ≠ key) :
    (mergeEditors unsaved editors persisted).entry key = editors.entry key := by
  induction persisted generalizing editors with
  | nil => rfl
  | cons qe rest ih =>
    refine (ih fun other listed => none other (mem_cons_of_mem _ listed)).trans ?_
    exact if_neg (Ne.symm (none qe mem_cons_self))

theorem deletes_entry (destroyed : List (String × Json)) (editors : Record Object) (key : String) :
    (destroyed.foldl (fun editors d => editors.delete d.1) editors).entry key
      = if key ∈ destroyed.map Prod.fst then none else editors.entry key := by
  induction destroyed generalizing editors with
  | nil => simp
  | cons d rest ih =>
    rw [foldl_cons, ih]
    by_cases here : key = d.1
    · simp [Record.delete, here]
    · have inRest : key ∈ (d :: rest).map Prod.fst ↔ key ∈ rest.map Prod.fst := by simp [here]
      rw [if_congr inRest rfl rfl]
      simp [Record.delete, here]

end Merge

/-- An id of the history is carried into the merged editors: its key is not
destroyed, the persisted editors of the key agree on the id, and either the key is
a tab of the backend with this id or the first persisted editor of the key is taken
over. -/
def Carried (boot : Bootstrap) (p : Persisted) (h : Value) : Prop :=
  ∃ key, key ∉ p.destroyedQueryEditors.map Prod.fst
    ∧ (∀ qe ∈ p.queryEditors, recordKey qe = key → get qe "id" = h)
    ∧ ((IsTab boot key ∧ h = text key)
      ∨ ∃ qe, p.queryEditors.find? (fun qe => recordKey qe = key) = some qe
          ∧ (IsTab boot key → updatedSince qe (savedAt boot key) = true))

def Leftover (boot : Bootstrap) (p : Persisted) : Prop :=
  ∃ key, key ∉ p.destroyedQueryEditors.map Prod.fst
    ∧ (IsTab boot key ∨ ∃ qe ∈ p.queryEditors, recordKey qe = key)

/-- The two sources of the initial state fit together. -/
def Coherent (boot : Bootstrap) (storage : Option Persisted) : Prop :=
  match storage.filter Persisted.isMerged with
  | none =>
    (∀ tab, boot.activeTab = some tab → IsTab boot (toString tab.id))
      ∧ (boot.activeTab = none → boot.tabStateIds = [])
  | some p =>
    (∀ h ∈ backendHistory boot ++ p.keptHistory, Carried boot p h)
      ∧ (Leftover boot p → backendHistory boot ++ p.keptHistory ≠ [])

theorem mem_backendHistory {h : Value} (listed : h ∈ backendHistory boot) :
    ∃ tab, boot.activeTab = some tab ∧ h = text (toString tab.id) := by
  unfold backendHistory at listed
  cases active : boot.activeTab with
  | none => simp [active] at listed
  | some tab => exact ⟨tab, rfl, by simpa [active] using listed⟩

theorem history_defined (kept : List Json) {h : Value}
    (listed : h ∈ backendHistory boot ∨ h ∈ kept.map some) : h ≠ undefined := by
  obtain fromBackend | fromStorage := listed
  · obtain ⟨tab, -, rfl⟩ := mem_backendHistory fromBackend
    exact Option.some_ne_none _
  · obtain ⟨id, -, rfl⟩ := mem_map.mp fromStorage
    exact Option.some_ne_none _

theorem mem_keptHistory {p : Persisted} {h : Value} (listed : h ∈ p.keptHistory) :
    h ∈ p.tabHistory.map some := mem_of_mem_filter listed

theorem mem_ids_of_holdsAt {editors : Record Object} {key : String} {h : Value}
    (holds : HoldsAt editors key h) : h ∈ editors.values.map fun qe => get qe "id" := by
  obtain ⟨editor, entered, sameId⟩ := holds
  exact mem_map.mpr ⟨editor, Record.mem_values.mpr ⟨key, entered⟩, sameId⟩

theorem holdsAt_of_carried {p : Persisted} {h : Value} (defined : h ≠ undefined)
    (carried : Carried boot p h) : ∃ key, HoldsAt (allEditors boot p) key h := by
  obtain ⟨key, notDestroyed, agree, source⟩ := carried
  have merged : HoldsAt (mergeEditors (p.unsavedQueryEditor.getD empty) (backendEditors boot)
      p.queryEditors) key h := by
    obtain ⟨isTab, rfl⟩ | ⟨qe, first, taken⟩ := source
    · obtain ⟨editor, entered, sameId, -⟩ := backendEditors_of_isTab isTab
      exact mergeEditors_holdsAt agree defined ⟨editor, entered, sameId⟩
    · refine mergeEditors_holdsAt_of_taken agree defined first ?_
      by_cases isTab : IsTab boot key
      · obtain ⟨editor, entered, -, saved⟩ := backendEditors_of_isTab isTab
        simp [entered, cachedEditor, saved, taken isTab]
      · rw [backendEditors_of_not_isTab isTab]
        rfl
  obtain ⟨editor, entered, sameId⟩ := merged
  refine ⟨key, editor, ?_, sameId⟩
  unfold allEditors
  rw [deletes_entry, if_neg notDestroyed, entered]

theorem leftover_of_editors {p : Persisted}
    (editors : (allEditors boot p).values ≠ []) : Leftover boot p := by
  obtain ⟨editor, listed⟩ := exists_mem_of_ne_nil _ editors
  obtain ⟨key, entered⟩ := Record.mem_values.mp listed
  unfold allEditors at entered
  rw [deletes_entry] at entered
  by_cases gone : key ∈ p.destroyedQueryEditors.map Prod.fst
  · simp [gone] at entered
  · rw [if_neg gone] at entered
    refine ⟨key, gone, ?_⟩
    by_contra nowhere
    have noPersisted : ∀ qe ∈ p.queryEditors, recordKey qe ≠ key :=
      fun qe inStorage same => nowhere (.inr ⟨qe, inStorage, same⟩)
    rw [mergeEditors_of_no_key noPersisted,
      backendEditors_of_not_isTab fun isTab => nowhere (.inl isTab)] at entered
    exact Option.some_ne_none _ entered.symm

theorem tabs_of_backend_editors (editors : (backendEditors boot).values ≠ []) :
    boot.tabStateIds ≠ [] := by
  intro noTabs
  obtain ⟨editor, listed⟩ := exists_mem_of_ne_nil _ editors
  obtain ⟨key, entered⟩ := Record.mem_values.mp listed
  have other : ¬IsTab boot key := by
    intro isTab
    obtain ⟨tab, inTabs, -⟩ := isTab
    simp [noTabs] at inTabs
  rw [backendEditors_of_not_isTab other] at entered
  exact Option.some_ne_none _ entered.symm

theorem live_getInitialState {storage : Option Persisted} (now : Int)
    (coherent : Coherent boot storage) : Live (getInitialState boot storage now) := by
  unfold Coherent at coherent
  unfold getInitialState
  cases merged : storage.filter Persisted.isMerged with
  | none =>
    simp only [merged] at coherent ⊢
    refine ⟨?_, ?_⟩
    · intro h listed
      obtain ⟨tab, active, rfl⟩ := mem_backendHistory (mem_dedupeTabHistory listed)
      obtain ⟨editor, entered, sameId, -⟩ := backendEditors_of_isTab (coherent.1 tab active)
      exact mem_ids_of_holdsAt ⟨editor, entered, sameId⟩
    · intro editors
      refine dedupeTabHistory_ne_nil ?_ fun h listed => history_defined [] (.inl listed)
      intro noHistory
      refine tabs_of_backend_editors editors (coherent.2 ?_)
      unfold backendHistory at noHistory
      cases active : boot.activeTab with
      | none => rfl
      | some tab => simp [active] at noHistory
  | some p =>
    simp only [merged] at coherent ⊢
    have defined : ∀ h ∈ backendHistory boot ++ p.keptHistory, h ≠ undefined := by
      intro h listed
      exact history_defined p.tabHistory ((mem_append.mp listed).imp id mem_keptHistory)
    refine ⟨?_, ?_⟩
    · intro h listed
      have inHistory := mem_dedupeTabHistory listed
      obtain ⟨key, holds⟩ := holdsAt_of_carried (defined h inHistory) (coherent.1 h inHistory)
      exact mem_ids_of_holdsAt holds
    · intro editors
      exact dedupeTabHistory_ne_nil (coherent.2 (leftover_of_editors editors)) defined

section Steps
variable {s : State}

theorem ids_alterInArr {items : List Object} {obj alterations : Object}
    (keeps : KeepsId obj alterations) :
    (alterInArr items obj alterations "id").map (fun qe => get qe "id")
      = items.map fun qe => get qe "id" := by
  unfold alterInArr
  rw [map_map]
  refine map_congr_left ?_
  intro item _
  by_cases same : get obj "id" = get item "id"
  · simp only [Function.comp_apply, if_pos same]
    by_cases has : Has alterations "id"
    · rw [get_spread_of_has has, keeps has, same]
    · exact get_spread_of_not_has has
  · simp only [Function.comp_apply, if_neg same]

theorem ids_mergeUnsaved (s : State) :
    (mergeUnsaved s).map (fun qe => get qe "id") = s.queryEditors.map fun qe => get qe "id" :=
  ids_alterInArr (keepsId_self _)

theorem Live.of_ids {t : State} (live : Live s)
    (ids : t.queryEditors.map (fun qe => get qe "id") = s.queryEditors.map fun qe => get qe "id")
    (history : t.tabHistory = s.tabHistory) : Live t := by
  refine ⟨?_, ?_⟩
  · rw [history, ids]
    exact live.known
  · intro editors
    rw [history]
    refine live.active fun noEditors => editors ?_
    rw [noEditors] at ids
    simpa using ids

theorem Live.addQueryEditor (live : Live s) (now : Int) (queryEditor : Object) :
    Live (addQueryEditor now s queryEditor) := by
  have newId : get (spread queryEditor (single "updatedAt" (number now))) "id" =
      get queryEditor "id" := by
    refine get_spread_of_not_has ?_
    rw [has_single_iff]
    decide
  refine ⟨?_, ?_⟩
  · intro h listed
    show h ∈ (mergeUnsaved s ++ _).map _
    rw [map_append, ids_mergeUnsaved]
    obtain old | new := mem_append.mp listed
    · exact mem_append_left _ (live.known h old)
    · refine mem_append_right _ ?_
      rw [mem_singleton.mp new, ← newId]
      exact mem_singleton.mpr rfl
  · intro _
    exact append_ne_nil_of_right_ne_nil _ (cons_ne_nil _ _)

theorem ids_setActive (s : State) (queryEditor : Object) :
    (setActiveQueryEditor s queryEditor).queryEditors.map (fun qe => get qe "id")
      = s.queryEditors.map fun qe => get qe "id" := by
  unfold setActiveQueryEditor
  split
  · by_cases same : get queryEditor "id" = get s.unsavedQueryEditor "id"
    · simp only [if_pos same]
      rw [ids_alterInArr, ids_mergeUnsaved]
      intro _
      by_cases has : Has s.unsavedQueryEditor "id"
      · rw [get_spread_of_has has, same]
      · exact get_spread_of_not_has has
    · simp only [if_neg same]
      exact ids_mergeUnsaved s
  · rfl

theorem Live.setActiveQueryEditor (live : Live s) (queryEditor : Object) :
    Live (setActiveQueryEditor s queryEditor) := by
  by_cases switches : get queryEditor "id" ∈ s.queryEditors.map (fun qe => get qe "id")
      ∧ activeTab s ≠ get queryEditor "id"
  · have history : (SqlLab.setActiveQueryEditor s queryEditor).tabHistory
        = s.tabHistory ++ [get queryEditor "id"] := by
      unfold SqlLab.setActiveQueryEditor
      rw [if_pos switches]
    refine ⟨?_, ?_⟩
    · intro h listed
      rw [ids_setActive]
      rw [history] at listed
      obtain old | new := mem_append.mp listed
      · exact live.known h old
      · rw [mem_singleton.mp new]
        exact switches.1
    · intro _
      rw [history]
      exact append_ne_nil_of_right_ne_nil _ (cons_ne_nil _ _)
  · unfold SqlLab.setActiveQueryEditor
    rw [if_neg switches]
    exact live

theorem Live.migrateQueryEditor (live : Live s) (oldQueryEditor : Object) (tabViewId : String) :
    Live (migrateQueryEditor s oldQueryEditor tabViewId) := by
  refine live.of_ids (ids_alterInArr fun _ => ?_) rfl
  refine get_spread_of_not_has ?_
  rw [has_ofList_iff]
  simp

def remaining (s : State) (removed : Object) : List Object :=
  s.queryEditors.filter fun qe => get removed "id" ≠ get qe "id"

def keptTabs (s : State) (removed : Object) : List Value :=
  s.tabHistory.filter fun id => id ∈ (remaining s removed).map editorKey

def lastRemaining (s : State) (removed : Object) : Value :=
  ((remaining s removed).getLast?.map fun qe => get qe "id").getD undefined

theorem queryEditors_removed (now : Int) (s : State) (removed : Object) :
    (removeQueryEditor now s removed).queryEditors = remaining s removed := by
  have sameId : get (spread removed (spreadIf (get removed "id" = get s.unsavedQueryEditor "id")
      s.unsavedQueryEditor)) "id" = get removed "id" :=
    get_id_of_overlay fun same _ => same.symm
  show removeFromArr s.queryEditors _ = _
  unfold removeFromArr remaining
  rw [sameId]

theorem tabHistory_removed (now : Int) (s : State) (removed : Object) :
    (removeQueryEditor now s removed).tabHistory
      = if keptTabs s removed = []
        then ((remaining s removed).getLast?.map fun qe => get qe "id").toList
        else keptTabs s removed := by
  unfold keptTabs
  rw [← queryEditors_removed now]
  rfl

/-- A removal leaves a live state unless the removed tab is in the history and its
id is the key of an editor that stays. -/
theorem Live.removeQueryEditor_iff (live : Live s) (now : Int) (removed : Object) :
    Live (removeQueryEditor now s removed) ↔ get removed "id" ∉ keptTabs s removed := by
  have known : ∀ h, h ∈ (removeQueryEditor now s removed).queryEditors.map (fun qe => get qe "id")
      ↔ h ∈ s.queryEditors.map (fun qe => get qe "id") ∧ h ≠ get removed "id" := by
    intro h
    rw [queryEditors_removed, remaining, mem_map, mem_map]
    refine ⟨?_, ?_⟩
    · intro found
      obtain ⟨qe, listed, rfl⟩ := found
      obtain ⟨old, other⟩ := mem_filter.mp listed
      exact ⟨⟨qe, old, rfl⟩, by simpa using Ne.symm (of_decide_eq_true other)⟩
    · intro found
      obtain ⟨⟨qe, listed, rfl⟩, other⟩ := found
      exact ⟨qe, mem_filter.mpr ⟨listed, by simpa using Ne.symm other⟩, rfl⟩
  refine ⟨?_, ?_⟩
  · intro after inKept
    have inHistory : get removed "id" ∈ (removeQueryEditor now s removed).tabHistory := by
      rw [tabHistory_removed, if_neg (ne_nil_of_mem inKept)]
      exact inKept
    exact ((known _).mp (after.known _ inHistory)).2 rfl
  · intro notKept
    refine ⟨?_, ?_⟩
    · intro h listed
      rw [tabHistory_removed] at listed
      by_cases noneKept : keptTabs s removed = []
      · rw [if_pos noneKept] at listed
        obtain ⟨qe, isLast, sameId⟩ := Option.map_eq_some_iff.mp (Option.mem_toList.mp listed)
        rw [queryEditors_removed]
        exact mem_map.mpr ⟨qe, mem_of_getLast? isLast, sameId⟩
      · rw [if_neg noneKept] at listed
        refine (known h).mpr ⟨live.known h (mem_of_mem_filter listed), ?_⟩
        intro isRemoved
        exact notKept (isRemoved ▸ listed)
    · intro editors
      rw [queryEditors_removed] at editors
      rw [tabHistory_removed]
      by_cases noneKept : keptTabs s removed = []
      · rw [if_pos noneKept, getLast?_eq_some_getLast editors]
        simp
      · rw [if_neg noneKept]
        exact noneKept

theorem activeTab_mem (tabs : s.tabHistory ≠ []) : activeTab s ∈ s.tabHistory := by
  unfold activeTab
  rw [getLast?_eq_some_getLast tabs]
  exact getLast_mem tabs

/-- The active tab survives a removal when an editor that stays has its id for a
key, or when no tab of the history is kept and the last editor has it for an id. -/
theorem activeTab_removed_iff (now : Int) (removed : Object) :
    activeTab (removeQueryEditor now s removed) = activeTab s
      ↔ (s.tabHistory ≠ [] ∧ activeTab s ∈ (remaining s removed).map editorKey)
        ∨ (keptTabs s removed = [] ∧ lastRemaining s removed = activeTab s) := by
  by_cases noneKept : keptTabs s removed = []
  · have after : activeTab (removeQueryEditor now s removed) = lastRemaining s removed := by
      unfold activeTab lastRemaining
      rw [tabHistory_removed, if_pos noneKept]
      cases (remaining s removed).getLast? with
      | none => rfl
      | some qe => rfl
    rw [after]
    refine ⟨fun same => .inr ⟨noneKept, same⟩, ?_⟩
    intro either
    obtain ⟨tabs, hasKey⟩ | ⟨-, same⟩ := either
    · have kept : activeTab s ∈ keptTabs s removed :=
        mem_filter.mpr ⟨activeTab_mem tabs, by simpa using hasKey⟩
      exact (not_mem_nil (noneKept ▸ kept)).elim
    · exact same
  · have after : activeTab (removeQueryEditor now s removed)
        = ((keptTabs s removed).getLast?).getD undefined := by
      unfold activeTab
      rw [tabHistory_removed, if_neg noneKept]
    rw [after]
    refine ⟨?_, ?_⟩
    · intro same
      have lastKept : activeTab s ∈ keptTabs s removed := by
        rw [← same, getLast?_eq_some_getLast noneKept]
        exact getLast_mem noneKept
      obtain ⟨inHistory, hasKey⟩ := mem_filter.mp lastKept
      exact .inl ⟨ne_nil_of_mem inHistory, by simpa using hasKey⟩
    · intro either
      obtain ⟨tabs, hasKey⟩ | ⟨nothing, -⟩ := either
      · -- the active tab is the last of the history and passes the filter
        obtain ⟨earlier, last, split⟩ := eq_nil_or_concat' s.tabHistory |>.resolve_left tabs
        have isLast : activeTab s = last := by simp [activeTab, split]
        have passes : keptTabs s removed
            = (earlier.filter fun id => id ∈ (remaining s removed).map editorKey) ++ [last] := by
          unfold keptTabs
          rw [split, filter_append]
          rw [isLast] at hasKey
          simp only [filter_cons, hasKey, decide_true, if_true, filter_nil]
        rw [passes, isLast]
        simp
      · exact (noneKept nothing).elim

/-- A removal that does not confuse ids with keys. -/
def Removable (s : State) (removed : Object) : Prop :=
  get removed "id" ∉ keptTabs s removed
    ∧ (get removed "id" ∈ s.queryEditors.map (fun qe => get qe "id") →
        get removed "id" ≠ activeTab s →
        activeTab s ∈ (remaining s removed).map editorKey
          ∨ (keptTabs s removed = [] ∧ lastRemaining s removed = activeTab s))

instance (s : State) (removed : Object) : Decidable (Removable s removed) :=
  inferInstanceAs (Decidable (_ ∧ (_ → _ → _ ∨ _)))

theorem activeTab_kept (live : Live s) (now : Int) {removed : Object}
    (ok : Removable s removed)
    (existing : get removed "id" ∈ s.queryEditors.map fun qe => get qe "id")
    (notActive : get removed "id" ≠ activeTab s) :
    activeTab (removeQueryEditor now s removed) = activeTab s := by
  have tabs : s.tabHistory ≠ [] := by
    refine live.active fun noEditors => ?_
    simp [noEditors] at existing
  refine (activeTab_removed_iff now removed).mpr ?_
  obtain hasKey | opened := ok.2 existing notActive
  · exact .inl ⟨tabs, hasKey⟩
  · exact .inr opened

end Steps

section Runs
variable (timestamp : Value → Option Int) (toNumber : Value → Value)

def dispatch (s : State) (a : Int × Action) : Option State :=
  some (reduce timestamp toNumber a.1 s a.2)

/-- The actions on tabs, with removals that do not confuse ids with keys. -/
def Orderly (s : State) (a : Int × Action) : Prop :=
  match a.2 with
  | .addQueryEditor _ _ _ | .setActiveQueryEditor _ | .migrateQueryEditor _ _ => True
  | .removeQueryEditor removed => Removable s removed
  | _ => False

theorem live_dispatch {s t : State} (a : Int × Action) (live : Live s) (orderly : Orderly s a)
    (taken : dispatch timestamp toNumber s a = some t) : Live t := by
  obtain ⟨now, action⟩ := a
  obtain rfl := Option.some.inj taken
  cases action with
  | addQueryEditor queryEditor id immutableId => exact live.addQueryEditor now _
  | setActiveQueryEditor queryEditor => exact live.setActiveQueryEditor queryEditor
  | migrateQueryEditor oldQueryEditor tabViewId =>
    exact live.migrateQueryEditor oldQueryEditor tabViewId
  | removeQueryEditor removed => exact (live.removeQueryEditor_iff now removed).mpr orderly.1
  | _ => exact orderly.elim

/-- From every start whose sources fit together and along every run of orderly
actions the active tab exists, and removing another tab does not change it. -/
theorem activeTab_exists {boot : Bootstrap} {storage : Option Persisted} {start : Int}
    (coherent : Coherent boot storage) {s : State}
    (reached : Reaches (dispatch timestamp toNumber) Orderly
      (getInitialState boot storage start) s) :
    Live s ∧ ∀ (now : Int) (removed : Object), Removable s removed →
      get removed "id" ∈ s.queryEditors.map (fun qe => get qe "id") →
      get removed "id" ≠ activeTab s →
      activeTab (reduce timestamp toNumber now s (.removeQueryEditor removed)) = activeTab s := by
  have live : Live s :=
    reached.invariant Live (live_getInitialState start coherent)
      fun t a u liveBefore orderly taken =>
        live_dispatch timestamp toNumber a liveBefore orderly taken
  exact ⟨live, fun now removed ok existing notActive =>
    activeTab_kept live now ok existing notActive⟩

instance (s : State) (a : Int × Action) : Decidable (Orderly s a) :=
  match a with
  | (_, .addQueryEditor _ _ _) | (_, .setActiveQueryEditor _) | (_, .migrateQueryEditor _ _) =>
    isTrue trivial
  | (_, .removeQueryEditor removed) => inferInstanceAs (Decidable (Removable s removed))
  | (_, .cloneQueryToNewTab _ _ _) | (_, .loadQueryEditor _) | (_, .queryEditorSaved _ _ _)
  | (_, .updateQueryEditor _) | (_, .setQueryEditor _ _) | (_, .startQuery _) | (_, .stopQuery _)
  | (_, .requestQueryResults _) | (_, .querySuccess _ _) | (_, .queryFailed _ _ _ _)
  | (_, .refreshQueries _) => isFalse id

end Runs

def twoTabs : Bootstrap where
  tabStateIds := [⟨1, text "first"⟩, ⟨2, text "second"⟩]
  activeTab := some
    { id := 1, label := text "first", sql := text "SELECT 1", latestQueryId := undefined
      savedQueryId := undefined, autorun := undefined, templateParams := undefined
      databaseId := number 1, catalog := undefined, schema := undefined, queryLimit := number 1000
      hideLeftBar := undefined, version := undefined, immutableId := undefined
      updatedAt := number 5 }
  defaultQueryLimit := number 1000
  nanoid := fun n => toString n
  tables := []
  queries := fun _ => none

def oneDraft : Persisted where
  queryEditors := [ofList [("id", text "draft"), ("name", text "Draft"), ("updatedAt", number 7)]]
  unsavedQueryEditor := none
  tabHistory := [.str "1", .str "draft"]
  destroyedQueryEditors := []

theorem coherent_twoTabs_oneDraft : Coherent twoTabs (some oneDraft) := by
  refine ⟨?_, fun _ => cons_ne_nil _ _⟩
  intro h listed
  have history : backendHistory twoTabs ++ oneDraft.keptHistory
      = [text "1", text "1", text "draft"] := by decide
  have cases : h = text "1" ∨ h = text "draft" := by simpa [history] using listed
  obtain rfl | rfl := cases
  · refine ⟨"1", by decide, ?_, .inl ⟨by decide, rfl⟩⟩
    decide
  · refine ⟨"draft", by decide, by decide, .inr ⟨_, rfl, ?_⟩⟩
    intro isTab
    exact absurd isTab (by decide)

/-- A tab is added, the draft gets a tab of the backend, and the second tab is
removed while the draft is active. -/
theorem activeTab_exists_draft_migrated :
    Coherent twoTabs (some oneDraft)
      ∧ ∃ s, Reaches (dispatch (fun _ => none) id) Orderly
        (getInitialState twoTabs (some oneDraft) 0) s
        ∧ Live s ∧ activeTab s = text "new"
        ∧ activeTab (reduce (fun _ => none) id 4 s (.removeQueryEditor (single "id" (text "2"))))
            = activeTab s := by
  refine ⟨coherent_twoTabs_oneDraft, ?_⟩
  obtain ⟨s, reached, ok, existing, active⟩ :=
    exists_reaches_of_runWithin (dispatch (fun _ => none) id) Orderly
      (getInitialState twoTabs (some oneDraft) 0)
      [(1, .migrateQueryEditor (single "id" (text "draft")) "3"),
       (2, .addQueryEditor empty "new" "immutable"),
       (3, .removeQueryEditor (single "id" (text "1")))]
      (fun s => Removable s (single "id" (text "2"))
        ∧ get (single "id" (text "2")) "id" ∈ s.queryEditors.map (fun qe => get qe "id")
        ∧ activeTab s = text "new") (by decide)
  have result := activeTab_exists (fun _ => none) id coherent_twoTabs_oneDraft reached
  refine ⟨s, reached, result.1, active, result.2 4 _ ok existing ?_⟩
  rw [active]
  decide

/-- The four actions, without restriction. -/
def OnTabs (_ : State) (a : Int × Action) : Prop :=
  match a.2 with
  | .addQueryEditor _ _ _ | .setActiveQueryEditor _ | .migrateQueryEditor _ _
  | .removeQueryEditor _ => True
  | _ => False

instance (s : State) (a : Int × Action) : Decidable (OnTabs s a) :=
  match a with
  | (_, .addQueryEditor _ _ _) | (_, .setActiveQueryEditor _) | (_, .migrateQueryEditor _ _)
  | (_, .removeQueryEditor _) => isTrue trivial
  | (_, .cloneQueryToNewTab _ _ _) | (_, .loadQueryEditor _) | (_, .queryEditorSaved _ _ _)
  | (_, .updateQueryEditor _) | (_, .setQueryEditor _ _) | (_, .startQuery _) | (_, .stopQuery _)
  | (_, .requestQueryResults _) | (_, .querySuccess _ _) | (_, .queryFailed _ _ _ _)
  | (_, .refreshQueries _) => isFalse id

def noTabs : Bootstrap := { twoTabs with tabStateIds := [], activeTab := none }

/-- Tabs A, B and C; A is stored under the backend's id 5 and active again.  Closing
C drops A from the history, whose key is now 5, and opens B. -/
theorem not_activeTab_kept_migrated :
    ¬∀ (boot : Bootstrap) (storage : Option Persisted) (start : Int) (s : State),
      Reaches (dispatch (fun _ => none) id) OnTabs (getInitialState boot storage start) s →
      Live s ∧ ∀ (now : Int) (removed : Object),
        get removed "id" ∈ s.queryEditors.map (fun qe => get qe "id") →
        get removed "id" ≠ activeTab s →
        activeTab (reduce (fun _ => none) id now s (.removeQueryEditor removed)) = activeTab s := by
  intro claim
  obtain ⟨s, reached, existing, notActive, changed⟩ :=
    exists_reaches_of_runWithin (dispatch (fun _ => none) id) OnTabs (getInitialState noTabs none 0)
      [(1, .addQueryEditor empty "A" "a"), (2, .addQueryEditor empty "B" "b"),
       (3, .addQueryEditor empty "C" "c"),
       (4, .migrateQueryEditor (single "id" (text "A")) "5"),
       (5, .setActiveQueryEditor (single "id" (text "A")))]
      (fun s => get (single "id" (text "C")) "id" ∈ s.queryEditors.map (fun qe => get qe "id")
        ∧ get (single "id" (text "C")) "id" ≠ activeTab s
        ∧ activeTab (reduce (fun _ => none) id 6 s (.removeQueryEditor (single "id" (text "C"))))
            ≠ activeTab s) (by decide)
  exact changed ((claim noTabs none 0 s reached).2 6 _ existing notActive)

end Liteset.SqlLab
