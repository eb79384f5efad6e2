import Mathlib.Data.List.Basic
import Mathlib.Data.List.Count

/-!
# Programs whose calls leave keys

A program asks calls and goes on with the values it gets.  An oracle answers a call with a
value and may record a key; it may also refuse the call.  The keys of two oracles separate
programs when no program ends with the same keys and two results.
-/

set_option autoImplicit false

namespace Liteset.Lib.RecordedCalls

open List

variable {Call Value Key Result : Type}

inductive Program (Call Value Result : Type) where
  | done (result : Result)
  | ask (call : Call) (next : Value → Program Call Value Result)

abbrev Oracle (Call Value Key : Type) := Call → Option (Value × Option Key)

def run (oracle : Oracle Call Value Key) : Program Call Value Result → Option (Result × List Key)
  | .done result => some (result, [])
  | .ask call next =>
    (oracle call).bind fun answer =>
      (run oracle (next answer.1)).map fun rest => (rest.1, answer.2.toList ++ rest.2)

theorem run_ask (oracle : Oracle Call Value Key) (call : Call)
    (next : Value → Program Call Value Result)
    (result : Result) (keys : List Key) :
    run oracle (.ask call next) = some (result, keys) ↔
      ∃ value key rest, oracle call = some (value, key) ∧
      run oracle (next value) = some (result, rest) ∧
        keys = key.toList ++ rest := by
  constructor
  · intro ran
    obtain ⟨⟨value, key⟩, answered, ran⟩ := Option.bind_eq_some_iff.mp ran
    obtain ⟨⟨last, rest⟩, ended, same⟩ := Option.map_eq_some_iff.mp ran
    obtain ⟨rfl, rfl⟩ := Prod.mk.inj same
    exact ⟨value, key, rest, answered, ended, rfl⟩
  · rintro ⟨value, key, rest, answered, ended, rfl⟩
    simp [run, answered, ended]

section Two

variable (first second : Oracle Call Value Key)

/-- Equal keys come with equal results. -/
def Separated (Result : Type) : Prop :=
  ∀ (program : Program Call Value Result) (result other : Result) (keys : List Key),
    run first program = some (result, keys) → run second program = some (other, keys) →
    result = other

def Recordable (key : Key) : Prop := ∃ call value, first call = some (value, some key)

def OneSided (key : Key) : Prop :=
  ∃ call value, first call = some (value, some key) ∧ second call = some (value, none)

/-- What the keys of a call with two values have to be for them to tell the sides apart:
a key that stands alone cannot be recorded on the other side, and two keys differ and
cannot be brought into line by a key that one side has recorded in excess. -/
def ToldApart : Option Key → Option Key → Prop
  | none, none => False
  | some key, none => ¬ Recordable second key
  | none, some other => ¬ Recordable first other
  | some key, some other =>
    key ≠ other ∧ ¬ (OneSided first second other ∧ Recordable second key) ∧
      ¬ (OneSided second first key ∧ Recordable first other)

end Two

variable {first second : Oracle Call Value Key}

theorem separated_swap (separated : Separated first second Result) :
    Separated second first Result :=
  fun program result other keys left right => (separated program other result keys right left).symm

theorem recordable_of_run {oracle : Oracle Call Value Key} (program : Program Call Value Result)
    (result : Result)
    (keys : List Key) (ran : run oracle program = some (result, keys)) :
    ∀ key ∈ keys, Recordable oracle key := by
  induction program generalizing result keys with
  | done last =>
    obtain ⟨_, rfl⟩ := Prod.mk.inj (Option.some.inj ran)
    exact nofun
  | ask call next ih =>
    obtain ⟨value, key, rest, answered, ended, rfl⟩ := (run_ask oracle call next result keys).mp ran
    intro member listed
    rcases mem_append.mp listed with now | later
    · rw [Option.mem_toList.mp now] at answered
      exact ⟨call, value, answered⟩
    · exact ih value result rest ended member later

section Necessary

variable [DecidableEq Value]

def branch (call : Call) (value : Value) (yes no : Program Call Value Result) :
    Program Call Value Result :=
  .ask call fun got => if got = value then yes else no

variable {call : Call}

theorem run_branch_yes {oracle : Oracle Call Value Key} {value : Value} {key : Option Key}
    (answered : oracle call = some (value, key)) (yes no : Program Call Value Result) :
    run oracle (branch call value yes no) = (run oracle yes).map fun rest =>
      (rest.1, key.toList ++ rest.2) := by
  simp [branch, run, answered]

theorem run_branch_no {oracle : Oracle Call Value Key} {value got : Value} {key : Option Key}
    (answered : oracle call = some (got, key)) (different : got ≠ value)
    (yes no : Program Call Value Result) :
    run oracle (branch call value yes no) = (run oracle no).map fun rest =>
      (rest.1, key.toList ++ rest.2) := by
  simp [branch, run, answered, different]

theorem not_recordable_of_separated {result other : Result} (results : result ≠ other)
    (separated : Separated first second Result) {v w : Value} {key : Key}
    (left : first call = some (v, some key)) (right : second call = some (w, none))
    (different : v ≠ w) :
    ¬ Recordable second key := by
  rintro ⟨later, value, records⟩
  refine results
    (separated (branch call v (.done result) (.ask later fun _ => .done other)) result other
      [key] ?_ ?_)
  · rw [run_branch_yes left]
    rfl
  · rw [run_branch_no right different.symm, run, records]
    rfl

theorem not_oneSided_of_separated {result other : Result} (results : result ≠ other)
    (separated : Separated first second Result) {v w : Value} {key excess : Key}
    (left : first call = some (v, some key)) (right : second call = some (w, some excess))
    (different : v ≠ w) :
    ¬ (OneSided first second excess ∧ Recordable second key) := by
  rintro ⟨⟨earlier, value, records, silent⟩, later, value', records'⟩
  refine results
    (separated (.ask earlier fun _ =>
      branch call v (.done result) (.ask later fun _ => .done other))
    result other [excess, key] ?_ ?_)
  · rw [run, records, Option.bind_some, run_branch_yes left]
    rfl
  · rw [run, silent, Option.bind_some, run_branch_no right different.symm, run, records']
    rfl

theorem toldApart_of_separated {result other : Result} (results : result ≠ other)
    (separated : Separated first second Result) {v w : Value} {key excess : Option Key}
    (left : first call = some (v, key)) (right : second call = some (w, excess))
    (different : v ≠ w) :
    ToldApart first second key excess := by
  cases key with
  | none =>
    cases excess with
    | none =>
      refine results (separated (branch call v (.done result) (.done other)) result other [] ?_ ?_)
      · rw [run_branch_yes left]
        rfl
      · rw [run_branch_no right different.symm]
        rfl
    | some excess =>
      exact not_recordable_of_separated results (separated_swap separated) right left different.symm
  | some key =>
    cases excess with
    | none => exact not_recordable_of_separated results separated left right different
    | some excess =>
      refine ⟨?_, not_oneSided_of_separated results separated left right different,
        not_oneSided_of_separated results (separated_swap separated) right left different.symm⟩
      rintro rfl
      refine results
        (separated (branch call v (.done result) (.done other)) result other [key] ?_ ?_)
      · rw [run_branch_yes left]
        rfl
      · rw [run_branch_no right different.symm]
        rfl

end Necessary

theorem recordable_of_eq {left right more rest : List Key} {key : Key}
    (recorded : ∀ k ∈ right, Recordable second k)
    (recordedRest : ∀ k ∈ rest, Recordable second k) (same : left ++ key :: more = right ++ rest) :
    Recordable second key := by
  have member : key ∈ right ++ rest := by
    rw [← same]
    exact mem_append_right left mem_cons_self
  exact (mem_append.mp member).elim (recorded key) (recordedRest key)

section Sufficient

variable [DecidableEq Key]

structure Aligned (first second : Oracle Call Value Key) (left right : List Key) : Prop where
  recorded : ∀ key ∈ left, Recordable first key
  recordedSecond : ∀ key ∈ right, Recordable second key
  excess : ∀ key, right.count key < left.count key → OneSided first second key
  lack : ∀ key, left.count key < right.count key → OneSided second first key

theorem aligned_nil : Aligned first second [] [] :=
  ⟨nofun, nofun, fun _ less => absurd less (Nat.lt_irrefl _),
    fun _ less => absurd less (Nat.lt_irrefl _)⟩

theorem Aligned.swap {left right : List Key} (aligned : Aligned first second left right) :
    Aligned second first right left :=
  ⟨aligned.recordedSecond, aligned.recorded, aligned.lack, aligned.excess⟩

/-- A call with one value on both sides, which records its key on the first side or on both. -/
theorem Aligned.record {left right : List Key} (aligned : Aligned first second left right)
    {call : Call} {value : Value}
    {key : Key} {other : Option Key} (answered : first call = some (value, some key))
    (answeredSecond : second call = some (value, other))
    (same : ∀ excess, other = some excess → key = excess) :
    Aligned first second (left ++ [key]) (right ++ other.toList) := by
  have alone : other = none → OneSided first second key := fun silent =>
    ⟨call, value, answered, by rw [answeredSecond, silent]⟩
  have counts : ∀ k,
      (right ++ other.toList).count k = right.count k + (if other = some k then 1 else 0) := by
    intro k
    cases other with
    | none => simp
    | some excess => by_cases equal : excess = k <;> simp [count_append, equal]
  have counted : ∀ k, (left ++ [key]).count k = left.count k + (if key = k then 1 else 0) := by
    intro k
    by_cases equal : key = k <;> simp [count_append, equal]
  refine ⟨?_, ?_, ?_, ?_⟩
  · intro k member
    rcases mem_append.mp member with earlier | new
    · exact aligned.recorded k earlier
    · rw [mem_singleton.mp new]
      exact ⟨call, value, answered⟩
  · intro k member
    rcases mem_append.mp member with earlier | new
    · exact aligned.recordedSecond k earlier
    · rw [Option.mem_toList.mp new] at answeredSecond
      exact ⟨call, value, answeredSecond⟩
  · intro k less
    rw [counts, counted] at less
    cases other with
    | none =>
      by_cases equal : key = k
      · rw [← equal]
        exact alone rfl
      · exact aligned.excess k (by simpa [equal] using less)
    | some excess =>
      rw [same excess rfl] at less
      exact aligned.excess k (by simpa using less)
  · intro k less
    rw [counts, counted] at less
    cases other with
    | none => exact aligned.lack k (by simp only [reduceCtorEq, if_false] at less; omega)
    | some excess =>
      rw [same excess rfl] at less
      exact aligned.lack k (by simpa using less)

/-- With two keys the shorter side reads its key among those that the other one has recorded. -/
theorem oneSided_of_longer {left right more rest : List Key} {key excess : Key}
    (aligned : Aligned first second left right) (recorded : ∀ k ∈ rest, Recordable second k)
    (differ : key ≠ excess) (extra : List Key) (longer : left = right ++ extra)
    (same : excess :: rest = extra ++ key :: more) :
    OneSided first second excess ∧ Recordable second key := by
  cases extra with
  | nil => exact absurd (List.cons.inj same).1.symm differ
  | cons k extra =>
    obtain ⟨rfl, rests⟩ := List.cons.inj same
    refine ⟨aligned.excess excess ?_, recorded key ?_⟩
    · rw [longer]
      simp
    · rw [rests]
      exact mem_append_right extra mem_cons_self

theorem eq_of_aligned
    (sameKey : ∀ call value key other, first call = some (value, some key) →
      second call = some (value, some other) →
      key = other)
    (told : ∀ call v w key other, first call = some (v, key) →
      second call = some (w, other) → v ≠ w →
      ToldApart first second key other)
    (program : Program Call Value Result) :
    ∀ (left right : List Key), Aligned first second left right →
      ∀ (result other : Result) (keys keysSecond : List Key),
        run first program = some (result, keys) →
        run second program = some (other, keysSecond) → left ++ keys = right ++ keysSecond →
        result = other := by
  induction program with
  | done last =>
    intro _ _ _ result other _ _ ran ranSecond _
    exact (Prod.mk.inj (Option.some.inj ran)).1.symm.trans
      (Prod.mk.inj (Option.some.inj ranSecond)).1
  | ask call next ih =>
    intro left right aligned result other keys keysSecond ran ranSecond same
    obtain ⟨v, key, rest, answered, ended, rfl⟩ := (run_ask first call next result keys).mp ran
    obtain ⟨w, excess, restSecond, answeredSecond, endedSecond, rfl⟩ :=
      (run_ask second call next other keysSecond).mp ranSecond
    rw [← append_assoc, ← append_assoc] at same
    by_cases equal : v = w
    · subst equal
      refine ih v _ _ ?_ result other rest restSecond ended endedSecond same
      cases key with
      | some key =>
        exact aligned.record answered answeredSecond fun o given => by
          subst given
          exact sameKey call v key o answered answeredSecond
      | none =>
        cases excess with
        | none => simpa using aligned
        | some excess => exact (aligned.swap.record answeredSecond answered nofun).swap
    · exfalso
      have apart := told call v w key excess answered answeredSecond equal
      have later := recordable_of_run (next v) result rest ended
      have laterSecond := recordable_of_run (next w) other restSecond endedSecond
      cases key with
      | none =>
        cases excess with
        | none => exact apart
        | some excess =>
          have stands : right ++ excess :: restSecond = left ++ rest := by simpa using same.symm
          exact apart (recordable_of_eq aligned.recorded later stands)
      | some key =>
        cases excess with
        | none =>
          have stands : left ++ key :: rest = right ++ restSecond := by simpa using same
          exact apart (recordable_of_eq aligned.recordedSecond laterSecond stands)
        | some excess =>
          obtain ⟨differ, notFirst, notSecond⟩ := apart
          simp only [Option.toList_some, append_assoc, singleton_append] at same
          rcases append_eq_append_iff.mp same with ⟨extra, longer, facing⟩ | ⟨extra, longer, facing⟩
          · exact notSecond (oneSided_of_longer aligned.swap later differ.symm extra longer facing)
          · exact notFirst (oneSided_of_longer aligned laterSecond differ extra longer facing)

end Sufficient

theorem separated_iff [DecidableEq Value] {result other : Result} (results : result ≠ other)
    (sameKey : ∀ call value key other, first call = some (value, some key) →
      second call = some (value, some other) →
      key = other) :
    Separated first second Result ↔
      ∀ call v w key other, first call = some (v, key) → second call = some (w, other) → v ≠ w →
        ToldApart first second key other := by
  classical
  constructor
  · exact fun separated call v w key excess left right different =>
      toldApart_of_separated results separated left right different
  · exact fun told program last lastSecond keys ran ranSecond =>
      eq_of_aligned sameKey told program [] [] aligned_nil last lastSecond keys keys ran
        ranSecond rfl

end Liteset.Lib.RecordedCalls
