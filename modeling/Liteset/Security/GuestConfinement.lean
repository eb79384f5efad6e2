import Liteset.Security.GuestAccess

/-!
# What a guest's accepted request may read

The payload of a guest is compared with the stored chart only when `form_data`
names one.  A native-filter request needs no chart, and a drill-by request says
`slice_id: 0`, so both reach the dataset with any query.  `guest_confined_iff`
says that the queries are confined exactly when a stored chart is attached (and
a native filter's dataset id is compared with a dataset's id).
-/

set_option autoImplicit false

namespace Liteset.Security.Guest

open Liteset.Lib List

def QueryObject.entries (query : QueryObject) : List Json :=
  query.columns ++ query.metrics.getD [] ++ query.orderby

def Occurs (slice : Slice) (entry : Json) : Prop :=
  ∃ key equivalent, (key, equivalent) ∈ comparedKeys ∧
    ∃ stored, storedValues slice key equivalent = some stored ∧ entry ∈ stored

def OnDashboard (store : Store) (dashboard : Dashboard) (datasource : Datasource) : Prop :=
  datasource.type = .table ∧
    ((∃ slice ∈ store.slices, slice.id ∈ dashboard.slices ∧ slice.datasetId = some datasource.id) ∨
      ∃ fltr ∈ dashboard.nativeFilters.getD [], ∃ target ∈ fltr.targets,
        target.datasetId.equalsNat datasource.id = true)

def DrillColumn (store : Store) (datasource : Datasource) (formData : List (String × Json))
    (entry : Json) : Prop :=
  isNativeFilter formData = false ∧ (Json.get formData "slice_id").equalsNat 0 = true ∧
    ∃ c ∈ drillableColumns store datasource, entry = .str c

def TargetColumn (dashboard : Dashboard) (formData : List (String × Json)) (entry : Json) : Prop :=
  isNativeFilter formData = true ∧ ∃ fltr ∈ dashboard.nativeFilters.getD [],
    (Json.get formData "native_filter_id").equals fltr.id = true ∧
      ∃ target ∈ fltr.targets, ∃ c, target.column = some c ∧ entry = .str c

section Confinement
variable (settings : Settings) (store : Store) (user : GuestUser)

/-- The request stays within a dashboard of the token, one of its datasets and
what is stored for it. -/
def Confined (ctx : QueryContext) : Prop :=
  ∃ formData dashboard, ctx.formData = some formData ∧
    (settings.bind (Json.get formData "dashboardId")).bind (findDashboard store) =
      some dashboard ∧
    hasGuestAccess user dashboard = true ∧ OnDashboard store dashboard ctx.datasource ∧
    ∀ query ∈ ctx.queries, ∀ entry ∈ query.entries,
      (∃ slice, storedSlice settings store ctx.formData = some slice ∧ Occurs slice entry) ∨
        DrillColumn store ctx.datasource formData entry ∨ TargetColumn dashboard formData entry

variable {formData : List (String × Json)}

theorem keyModified_false {slice : Slice}
    {queries : List QueryObject} {key : String} {equivalent : List String}
    (unmodified : keyModified formData slice queries key equivalent = some false) :
    ∃ stored, storedValues slice key equivalent = some stored ∧
      ∀ q ∈ queries, ∀ v ∈ q.values key, v ∈ stored := by
  simp only [keyModified, Option.bind_eq_some_iff] at unmodified
  obtain ⟨requested, -, own, -, compared⟩ := unmodified
  split at compared
  · simp only [Option.map_eq_some_iff] at compared
    obtain ⟨stored, found, subset⟩ := compared
    refine ⟨stored, found, ?_⟩
    intro q member v inValues
    have all : queries.flatMap (fun q => q.values key) ⊆ stored := by simpa using subset
    exact all (mem_flatMap.mpr ⟨q, member, inValues⟩)
  · cases compared

theorem anyModified_false {slice : Slice}
    {queries : List QueryObject} (keys : List (String × List String))
    (unmodified : anyModified formData slice queries keys = some false) :
    ∀ key equivalent, (key, equivalent) ∈ keys →
      ∃ stored, storedValues slice key equivalent = some stored ∧
        ∀ q ∈ queries, ∀ v ∈ q.values key, v ∈ stored := by
  induction keys with
  | nil =>
    intro key equivalent member
    cases member
  | cons head rest ih =>
    intro key equivalent member
    simp only [anyModified, Option.bind_eq_some_iff] at unmodified
    obtain ⟨modified, first, others⟩ := unmodified
    cases modified with
    | true => simp at others
    | false =>
      rcases mem_cons.mp member with rfl | inRest
      · exact keyModified_false first
      · exact ih (by simpa using others) key equivalent inRest

theorem occurs_of_unmodified (ctx : QueryContext) (slice : Slice)
    (attached : ctx.slice = some slice)
    (hasFormData : ctx.formData ≠ none) (unmodified : queryContextModified ctx = some false)
    (query : QueryObject) (member : query ∈ ctx.queries) (entry : Json)
    (inQuery : entry ∈ query.entries) : Occurs slice entry := by
  obtain ⟨formData, isFormData⟩ := Option.ne_none_iff_exists'.mp hasFormData
  simp only [queryContextModified, isFormData, attached] at unmodified
  split at unmodified
  · split at unmodified
    · cases unmodified
    · have all := anyModified_false comparedKeys unmodified
      have byKey : ∀ key equivalent, (key, equivalent) ∈ comparedKeys →
          entry ∈ query.values key → Occurs slice entry := by
        intro key equivalent inKeys isValue
        obtain ⟨stored, found, values⟩ := all key equivalent inKeys
        exact ⟨key, equivalent, inKeys, stored, found, values query member entry isValue⟩
      simp only [QueryObject.entries, mem_append] at inQuery
      rcases inQuery with (inColumns | inMetrics) | inOrderby
      · exact byKey "columns" ["columns", "groupby"] (by decide) (by simpa [QueryObject.values])
      · exact byKey "metrics" ["metrics"] (by decide) (by simpa [QueryObject.values])
      · exact byKey "orderby" ["orderby"] (by decide) (by simpa [QueryObject.values])
  · cases unmodified

variable {datasource : Datasource} {dashboard : Dashboard}

theorem onDashboard_of_sliceOn {slice : Slice}
    (id : Nat) (found : findSlice store id = some slice)
    (on : sliceOn slice dashboard datasource = true) : OnDashboard store dashboard datasource := by
  simp only [sliceOn, Bool.and_eq_true, decide_eq_true_eq] at on
  exact ⟨on.1.2, Or.inl ⟨slice, mem_of_find?_eq_some found, on.1.1, on.2⟩⟩

theorem onDashboard_of_bound {key : Json}
    (on : (((settings.bind key).bind (findSlice store)).any fun slice =>
      sliceOn slice dashboard datasource) = true) : OnDashboard store dashboard datasource := by
  cases bound : (settings.bind key).bind (findSlice store) with
  | none => simp [bound] at on
  | some slice =>
    rw [bound] at on
    obtain ⟨id, -, found⟩ := Option.bind_eq_some_iff.mp bound
    exact onDashboard_of_sliceOn store id found (by simpa using on)

theorem onDashboard_of_nativeFilter (isTable : datasource.type = .table)
    (valid : nativeFilterValid formData dashboard datasource = true) :
    OnDashboard store dashboard datasource := by
  simp only [nativeFilterValid, Bool.and_eq_true] at valid
  obtain ⟨-, targeted⟩ := valid
  cases filters : dashboard.nativeFilters with
  | none => simp [filters] at targeted
  | some found =>
    simp only [filters, Option.any_some, any_eq_true, Bool.and_eq_true] at targeted
    obtain ⟨fltr, member, -, target, inTargets, same⟩ := targeted
    exact ⟨isTable, Or.inr ⟨fltr, by simpa [filters] using member, target, inTargets, same⟩⟩

/-- A valid resource puts the datasource on the dashboard, except that a native
filter's dataset id may be met by the id of something else. -/
theorem onDashboard_of_resourceValid
    (table : isNativeFilter formData = true → datasource.type = .table)
    (valid : resourceValid settings store formData dashboard datasource = some true) :
    OnDashboard store dashboard datasource := by
  unfold resourceValid at valid
  split at valid
  · rename_i isNative
    exact onDashboard_of_nativeFilter store (table isNative) (Option.some.inj valid)
  · split at valid
    · rename_i byChart
      simp only [chartValid, Bool.and_eq_true] at byChart
      exact onDashboard_of_bound settings store byChart.2
    · by_contra off
      have offChart : (((settings.bind (Json.get formData "chart_id")).bind (findSlice store)).any
          fun slice => sliceOn slice dashboard datasource) = false := by
        by_contra on
        exact off (onDashboard_of_bound settings store (by simpa using on))
      simp [hasDrillByAccess, offChart] at valid

theorem fallback_cases {formData : Option (List (String × Json))}
    (granted : dashboardFallback settings store user formData datasource = some true) :
    ∃ members dashboard, formData = some members ∧
      (settings.bind (Json.get members "dashboardId")).bind (findDashboard store) =
        some dashboard ∧
      resourceValid settings store members dashboard datasource = some true ∧
      canAccessDashboard settings user dashboard = true := by
  cases given : formData with
  | none => simp [given, dashboardFallback] at granted
  | some members =>
    simp only [given, dashboardFallback] at granted
    split at granted
    · cases bound : (settings.bind (Json.get members "dashboardId")).bind (findDashboard store) with
      | none => simp [bound] at granted
      | some dashboard =>
        simp only [bound, Option.map_eq_some_iff, Bool.and_eq_true] at granted
        obtain ⟨valid, isValid, yes, access⟩ := granted
        exact ⟨members, dashboard, rfl, bound, by rw [isValid, yes], access⟩
    · cases granted

theorem raiseForAccess_ok_iff (ctx : QueryContext)
    (noDirect : hasDirectAccess settings user ctx.datasource = false) :
    raiseForAccess settings store user ctx = .ok () ↔
      queryContextModified ctx = some false ∧
        dashboardFallback settings store user ctx.formData ctx.datasource = some true := by
  unfold raiseForAccess
  cases queryContextModified ctx with
  | none => simp
  | some modified =>
    cases modified with
    | true => simp
    | false =>
      cases dashboardFallback settings store user ctx.formData ctx.datasource with
      | none => simp [noDirect]
      | some granted => cases granted <;> simp [noDirect]

theorem exists_fresh (names : List String) : ∃ s : String, s ∉ names := by
  have bound : ∀ s ∈ names, s.toList.length ≤ (names.map fun s => s.toList.length).sum := by
    induction names with
    | nil => simp
    | cons first rest ih =>
      intro s member
      rw [map_cons, sum_cons]
      rcases mem_cons.mp member with rfl | inRest
      · omega
      · have shorter := ih s inRest
        omega
  refine ⟨String.ofList (List.replicate ((names.map fun s => s.toList.length).sum + 1) 'a'), ?_⟩
  intro member
  have short := bound _ member
  simp only [String.toList_ofList, length_replicate] at short
  omega

def offeredNames (datasource : Datasource) : List String :=
  drillableColumns store datasource ++
    store.dashboards.flatMap fun d =>
      (d.nativeFilters.getD []).flatMap fun fltr =>
        fltr.targets.filterMap NativeFilterTarget.column

theorem mem_offeredNames (known : dashboard ∈ store.dashboards) {s : String}
    (offered : DrillColumn store datasource formData (.str s) ∨
      TargetColumn dashboard formData (.str s)) : s ∈ offeredNames store datasource := by
  rcases offered with ⟨-, -, c, member, same⟩ |
    ⟨-, fltr, inFilters, -, target, inTargets, c, isColumn, same⟩
  · obtain rfl := Json.str.inj same
    exact mem_append_left _ member
  · obtain rfl := Json.str.inj same
    refine mem_append_right _ (mem_flatMap.mpr ⟨dashboard, known, ?_⟩)
    refine mem_flatMap.mpr ⟨fltr, inFilters, ?_⟩
    exact mem_filterMap.mpr ⟨target, inTargets, isColumn⟩

theorem processor_ignores_queries (ctx : QueryContext) (queries : List QueryObject)
    (detached : storedSlice settings store ctx.formData = none) :
    processorRaiseForAccess settings store user { ctx with queries } =
      processorRaiseForAccess settings store user { ctx with queries := [] } := by
  simp only [processorRaiseForAccess, raiseForAccess, detached]
  cases ctx.formData with
  | none => rfl
  | some members => rfl

/-- For a guest without direct access whose request passes with no queries: every
query that passes is confined exactly when a stored chart is attached and a
native-filter request is for a dataset. -/
theorem guest_confined_iff (ctx : QueryContext)
    (noDirect : hasDirectAccess settings user ctx.datasource = false)
    (passes : processorRaiseForAccess settings store user { ctx with queries := [] } = .ok ()) :
    (∀ queries, processorRaiseForAccess settings store user { ctx with queries } = .ok () →
        Confined settings store user { ctx with queries }) ↔
      (storedSlice settings store ctx.formData).isSome ∧
        (isNativeFilter (ctx.formData.getD []) = true → ctx.datasource.type = .table) := by
  constructor
  · intro confined
    refine ⟨?_, ?_⟩
    · by_contra detached
      rw [Option.not_isSome_iff_eq_none] at detached
      obtain ⟨s, fresh⟩ := exists_fresh (offeredNames store ctx.datasource)
      have accepted : processorRaiseForAccess settings store user
          { ctx with queries := [{ columns := [.str s] }] } = .ok () := by
        rw [processor_ignores_queries settings store user ctx _ detached, passes]
      obtain ⟨formData, dashboard, -, bound, -, -, entries⟩ := confined _ accepted
      obtain ⟨id, -, found⟩ := Option.bind_eq_some_iff.mp bound
      rcases entries _ (mem_singleton.mpr rfl) (.str s) (by simp [QueryObject.entries]) with
        ⟨slice, attached, -⟩ | offered
      · simp only [detached] at attached
        cases attached
      · exact fresh (mem_offeredNames store (mem_of_find?_eq_some found) offered)
    · intro _
      obtain ⟨formData, dashboard, -, -, -, on, -⟩ := confined [] passes
      exact on.1
  · intro h queries accepted
    obtain ⟨attached, table⟩ := h
    obtain ⟨slice, isSlice⟩ := Option.isSome_iff_exists.mp attached
    obtain ⟨unmodified, granted⟩ := (raiseForAccess_ok_iff settings store user
      { ctx with queries, slice := storedSlice settings store ctx.formData } noDirect).mp accepted
    obtain ⟨members, dashboard, isFormData, bound, valid, access⟩ :=
      fallback_cases settings store user granted
    have notAdmin : isAdmin settings user = false := by
      simp only [hasDirectAccess, isOwner, Bool.or_eq_false_iff] at noDirect
      exact noDirect.2.1
    refine ⟨members, dashboard, isFormData, bound, ?_, ?_, ?_⟩
    · simpa [canAccessDashboard, notAdmin] using access
    · refine onDashboard_of_resourceValid settings store ?_ valid
      intro isNative
      exact table (by rw [isFormData]; exact isNative)
    · intro query member entry inQuery
      have present : ctx.formData ≠ none := by
        rw [show ctx.formData = some members from isFormData]
        exact Option.some_ne_none members
      refine Or.inl ⟨slice, isSlice, ?_⟩
      exact occurs_of_unmodified
        { ctx with queries, slice := storedSlice settings store ctx.formData } slice isSlice present
        unmodified query member entry inQuery

end Confinement

def integerKeys : Settings where
  bind := fun value =>
    match value with
    | .int (.ofNat n) => some n
    | _ => none
  parseInt := fun _ => none

/-- Dashboard 1 with chart 10 on dataset 5, and a native filter on its column
`region`. -/
def sampleStore : Store where
  dashboards := [{
    id := 1
    slices := [10]
    nativeFilters := some [⟨.str "NATIVE_FILTER-a", [⟨.int 5, some "region"⟩]⟩] }]
  slices := [{ id := 10, datasetId := some 5, params := [("metrics", .list [.str "count"])] }]

def sampleGuest : GuestUser where
  resources := [⟨"dashboard", "1"⟩]
  permissions := [("can_read", "Dashboard"), ("can_read", "Chart")]

def dataset : Datasource := { type := .table, id := 5, perm := "[main].[salaries](id:5)" }

def chartRequest : QueryContext where
  datasource := dataset
  formData := some [("dashboardId", .int 1), ("slice_id", .int 10)]

def nativeFilterRequest : QueryContext where
  datasource := dataset
  formData := some [("dashboardId", .int 1), ("native_filter_id", .str "NATIVE_FILTER-a"),
    ("type", .str "NATIVE_FILTER")]

theorem guest_confined_chartRequest :
    processorRaiseForAccess integerKeys sampleStore sampleGuest
        { chartRequest with queries := [{ metrics := some [.str "count"] }] } = .ok () ∧
      Confined integerKeys sampleStore sampleGuest
        { chartRequest with queries := [{ metrics := some [.str "count"] }] } :=
  ⟨by decide, (guest_confined_iff integerKeys sampleStore sampleGuest chartRequest (by decide)
    (by decide)).mpr (by decide) [{ metrics := some [.str "count"] }] (by decide)⟩

/-- The request names the filter on `region` and reads the column `salary`. -/
theorem guest_not_confined_nativeFilterRequest :
    hasDirectAccess integerKeys sampleGuest dataset = false ∧
      processorRaiseForAccess integerKeys sampleStore sampleGuest
        { nativeFilterRequest with queries := [{ columns := [.str "salary"] }] } = .ok () ∧
      ¬ Confined integerKeys sampleStore sampleGuest
        { nativeFilterRequest with queries := [{ columns := [.str "salary"] }] } := by
  refine ⟨by decide, by decide, ?_⟩
  intro confined
  obtain ⟨formData, dashboard, isFormData, bound, -, -, entries⟩ := confined
  obtain ⟨id, -, found⟩ := Option.bind_eq_some_iff.mp bound
  have known := mem_of_find?_eq_some found
  rcases entries _ (mem_singleton.mpr rfl) (.str "salary") (by decide) with
    ⟨slice, attached, -⟩ | offered
  · exact absurd attached (by simp [storedSlice, nativeFilterRequest, Json.get, Json.toInt])
  · exact absurd (mem_offeredNames sampleStore known offered) (by decide)

end Liteset.Security.Guest
