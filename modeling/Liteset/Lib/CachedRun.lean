import Mathlib.Logic.Function.Basic

/-!
# Programs with a cache

A program reads and writes a cache and may fail; what it has stored survives a failure.
`Computes` says that from every sound cache a program comes to the given result and leaves
a sound cache.  The rules follow the program, and `computes_cached` is the one for a
value that is looked up first: the entries of its key are exactly the value.
-/

set_option autoImplicit false

namespace Liteset.Lib

/-- A program over a cache with keys `K` and values `V` that may fail with an `E`. -/
abbrev CacheM (K V E : Type) : Type → Type := ExceptT E (StateM (K → Option V))

namespace CacheM

variable {K V E α β : Type}

def exec (program : CacheM K V E α) (cache : K → Option V) : Except E α × (K → Option V) :=
  StateT.run (ExceptT.run program) cache

def ofExcept (result : Except E α) : CacheM K V E α := fun cache => (result, cache)

def cached [DecidableEq K] (key : K) (program : CacheM K V E V) : CacheM K V E V := fun cache =>
  match cache key with
  | some value => (.ok value, cache)
  | none =>
    match exec program cache with
    | (.ok value, after) => (.ok value, Function.update after key (some value))
    | (.error failure, after) => (.error failure, after)

def recover (program : CacheM K V E α) (handler : E → Except E α) : CacheM K V E α := fun cache =>
  match exec program cache with
  | (.ok value, after) => (.ok value, after)
  | (.error failure, after) => (handler failure, after)

def Sound (spec : K → V → Prop) (cache : K → Option V) : Prop :=
  ∀ key value, cache key = some value → spec key value

def Computes (spec : K → V → Prop) (program : CacheM K V E α) (result : Except E α) : Prop :=
  ∀ cache, Sound spec cache → (exec program cache).1 = result ∧ Sound spec (exec program cache).2

variable {spec : K → V → Prop}

theorem sound_empty : Sound spec fun _ => none := fun _ _ found => nomatch found

theorem computes_ofExcept (result : Except E α) : Computes spec (ofExcept result) result :=
  fun _ sound => ⟨rfl, sound⟩

theorem computes_pure (value : α) : Computes spec (pure value : CacheM K V E α) (.ok value) :=
  fun _ sound => ⟨rfl, sound⟩

theorem exec_bind (program : CacheM K V E α) (next : α → CacheM K V E β) (cache : K → Option V) :
    exec (program >>= next) cache =
      match exec program cache with
      | (.ok value, after) => exec (next value) after
      | (.error failure, after) => (.error failure, after) := by
  change (ExceptT.bindCont next (program cache).1) (program cache).2 = _
  unfold exec ExceptT.run StateT.run
  rcases program cache with ⟨_ | _, _⟩ <;> rfl

theorem computes_bind {program : CacheM K V E α} {next : α → CacheM K V E β} {result : Except E α}
    {rest : α → Except E β} (first : Computes spec program result)
    (then_ : ∀ value, result = .ok value → Computes spec (next value) (rest value)) :
    Computes spec (program >>= next) (result.bind rest) := by
  intro cache sound
  obtain ⟨same, after⟩ := first cache sound
  rw [exec_bind]
  cases ran : exec program cache with
  | mk outcome left =>
    rw [ran] at same after
    cases outcome with
    | error failure =>
      cases same
      exact ⟨rfl, after⟩
    | ok value =>
      cases same
      exact then_ value rfl left after

theorem exec_recover (program : CacheM K V E α) (handler : E → Except E α) (cache : K → Option V) :
    exec (recover program handler) cache =
      match exec program cache with
      | (.ok value, after) => (.ok value, after)
      | (.error failure, after) => (handler failure, after) := rfl

theorem computes_recover {program : CacheM K V E α} {result : Except E α} (handler : E → Except E α)
    (inner : Computes spec program result) :
    Computes spec (recover program handler) (result.tryCatch handler) := by
  intro cache sound
  obtain ⟨same, after⟩ := inner cache sound
  rw [exec_recover]
  cases ran : exec program cache with
  | mk outcome left =>
    rw [ran] at same after
    cases same
    cases outcome with
    | error failure => exact ⟨rfl, after⟩
    | ok value => exact ⟨rfl, after⟩

theorem exec_cached [DecidableEq K] (key : K) (program : CacheM K V E V) (cache : K → Option V) :
    exec (cached key program) cache =
      match cache key with
      | some value => (.ok value, cache)
      | none =>
        match exec program cache with
        | (.ok value, after) => (.ok value, Function.update after key (some value))
        | (.error failure, after) => (.error failure, after) := rfl

theorem sound_update [DecidableEq K] {cache : K → Option V} (sound : Sound spec cache) {key : K}
    {value : V}
    (meets : spec key value) : Sound spec (Function.update cache key (some value)) := by
  intro other kept present
  rcases eq_or_ne other key with rfl | different
  · rw [Function.update_self] at present
    cases Option.some.inj present
    exact meets
  · rw [Function.update_of_ne different] at present
    exact sound other kept present

theorem computes_cached [DecidableEq K] {key : K} {program : CacheM K V E V} {result : Except E V}
    (inner : Computes spec program result) (stored : ∀ value, spec key value → result = .ok value)
    (storable : ∀ value, result = .ok value → spec key value) :
    Computes spec (cached key program) result := by
  intro cache sound
  rw [exec_cached]
  cases found : cache key with
  | some value => exact ⟨(stored value (sound key value found)).symm, sound⟩
  | none =>
    obtain ⟨same, after⟩ := inner cache sound
    cases ran : exec program cache with
    | mk outcome left =>
      rw [ran] at same after
      cases same
      cases outcome with
      | error failure => exact ⟨rfl, after⟩
      | ok value => exact ⟨rfl, sound_update after (storable value rfl)⟩

theorem computes_mapM (items : List α) (program : α → CacheM K V E β) (result : α → Except E β)
    (each : ∀ item ∈ items, Computes spec (program item) (result item)) :
    Computes spec (items.mapM program) (items.mapM result) := by
  induction items with
  | nil => exact computes_pure []
  | cons item rest ih =>
    rw [List.forall_mem_cons] at each
    rw [List.mapM_cons, List.mapM_cons]
    refine computes_bind each.1 fun value _ => computes_bind (ih each.2) fun values _ =>
      computes_pure _

def answers : (K → Option V) → List (CacheM K V E α) → List (Except E α)
  | _, [] => []
  | cache, program :: rest => (exec program cache).1 :: answers (exec program cache).2 rest

theorem answers_eq (items : List β) (program : β → CacheM K V E α) (result : β → Except E α)
    (each : ∀ item ∈ items, Computes spec (program item) (result item)) (cache : K → Option V)
    (sound : Sound spec cache) : answers cache (items.map program) = items.map result := by
  induction items generalizing cache with
  | nil => rfl
  | cons item rest ih =>
    rw [List.forall_mem_cons] at each
    obtain ⟨same, after⟩ := each.1 cache sound
    rw [List.map_cons, answers, same, ih each.2 _ after, List.map_cons]

end CacheM

end Liteset.Lib
