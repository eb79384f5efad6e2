import Mathlib.Logic.Basic

/-!
# Computations that change a state and may raise

An `Attempt σ ε α` runs on a state, leaves a state, and returns a value or raises
an exception.  What was changed before an exception was raised stays changed, as
in a language with exceptions.  `Ends` is the exceptional postcondition of a run
from one state: one condition for the value returned, one for the exception.
-/

set_option autoImplicit false

namespace Liteset.Lib

def Attempt (σ ε α : Type) : Type := σ → Except ε α × σ

variable {σ ε α β : Type}

instance : Monad (Attempt σ ε) where
  pure a s := (.ok a, s)
  bind m next s :=
    match m s with
    | (.ok a, t) => next a t
    | (.error e, t) => (.error e, t)

def raise (e : ε) : Attempt σ ε α := fun s => (.error e, s)

def inspect (f : σ → α) : Attempt σ ε α := fun s => (.ok (f s), s)

def change (f : σ → σ) : Attempt σ ε Unit := fun s => (.ok (), f s)

/-- `try: m  except e: handler e`.  The handler runs on the state the exception
left behind. -/
def tryExcept (m : Attempt σ ε α) (handler : ε → Attempt σ ε α) : Attempt σ ε α := fun s =>
  match m s with
  | (.ok a, t) => (.ok a, t)
  | (.error e, t) => handler e t

/-- `try: m  finally: last`.  An exception of `last` replaces the outcome of `m`. -/
def tryFinally (m : Attempt σ ε α) (last : Attempt σ ε Unit) : Attempt σ ε α := fun s =>
  match m s with
  | (outcome, t) =>
    match last t with
    | (.ok (), u) => (outcome, u)
    | (.error e, u) => (.error e, u)

section Run
variable {m : Attempt σ ε β} {next : β → Attempt σ ε α} {s t : σ}

theorem bind_of_ok {b : β} (ran : m s = (.ok b, t)) : (m >>= next) s = next b t := by
  show (match m s with
    | (.ok b, t) => next b t
    | (.error e, t) => (.error e, t)) = _
  rw [ran]

theorem bind_of_error {e : ε} (ran : m s = (.error e, t)) : (m >>= next) s = (.error e, t) := by
  show (match m s with
    | (.ok b, t) => next b t
    | (.error e, t) => (.error e, t)) = _
  rw [ran]

end Run

/-- `ok` of a value returned, `err` of an exception raised. -/
def Post (ok : α → σ → Prop) (err : ε → σ → Prop) : Except ε α × σ → Prop
  | (.ok a, t) => ok a t
  | (.error e, t) => err e t

/-- `m` run from `s` returns with `ok` or raises with `err`. -/
def Ends (m : Attempt σ ε α) (s : σ) (ok : α → σ → Prop) (err : ε → σ → Prop) : Prop :=
  Post ok err (m s)

section Rules
variable {s : σ} {ok : α → σ → Prop} {err : ε → σ → Prop}

theorem ends_pure {a : α} (holds : ok a s) : Ends (pure a : Attempt σ ε α) s ok err := holds

theorem ends_raise {e : ε} (holds : err e s) : Ends (raise e : Attempt σ ε α) s ok err := holds

theorem ends_inspect {f : σ → α} (holds : ok (f s) s) :
    Ends (inspect f : Attempt σ ε α) s ok err := holds

theorem ends_change {f : σ → σ} {ok : Unit → σ → Prop} (holds : ok () (f s)) :
    Ends (change f : Attempt σ ε Unit) s ok err := holds

theorem ends_bind {m : Attempt σ ε β} {next : β → Attempt σ ε α}
    (first : Ends m s (fun b t => Ends (next b) t ok err) err) : Ends (m >>= next) s ok err := by
  show Post ok err (match m s with
    | (.ok a, t) => next a t
    | (.error e, t) => (.error e, t))
  unfold Ends at first
  cases run : m s with
  | mk outcome t =>
    rw [run] at first
    cases outcome with
    | ok b => exact first
    | error e => exact first

variable {m : Attempt σ ε α}

theorem ends_tryExcept {handler : ε → Attempt σ ε α}
    (body : Ends m s ok fun e t => Ends (handler e) t ok err) :
    Ends (tryExcept m handler) s ok err := by
  unfold Ends at body
  unfold Ends tryExcept
  cases run : m s with
  | mk outcome t =>
    rw [run] at body
    cases outcome with
    | ok a => exact body
    | error e => exact body

theorem ends_tryFinally {last : Attempt σ ε Unit}
    (body : Ends m s (fun a t => Ends last t (fun _ => ok a) err)
      fun e t => Ends last t (fun _ => err e) err) : Ends (tryFinally m last) s ok err := by
  have kept : ∀ (outcome : Except ε α) (t : σ),
      Ends last t (fun _ u => Post ok err (outcome, u)) err →
        Post ok err (match last t with
          | (.ok (), u) => (outcome, u)
          | (.error e, u) => (.error e, u)) := by
    intro outcome t ends
    unfold Ends at ends
    cases ran : last t with
    | mk result u =>
      rw [ran] at ends
      cases result with
      | ok _ => exact ends
      | error e => exact ends
  unfold Ends at body
  unfold Ends tryFinally
  cases run : m s with
  | mk outcome t =>
    rw [run] at body
    cases outcome with
    | ok a => exact kept (.ok a) t body
    | error e => exact kept (.error e) t body

theorem Ends.mono {ok' : α → σ → Prop} {err' : ε → σ → Prop}
    (ends : Ends m s ok err) (returned : ∀ a t, ok a t → ok' a t)
    (raised : ∀ e t, err e t → err' e t) : Ends m s ok' err' := by
  unfold Ends at ends ⊢
  cases run : m s with
  | mk outcome t =>
    rw [run] at ends
    cases outcome with
    | ok a => exact returned a t ends
    | error e => exact raised e t ends

theorem Ends.and {ok' : α → σ → Prop} {err' : ε → σ → Prop}
    (first : Ends m s ok err) (second : Ends m s ok' err') :
    Ends m s (fun a t => ok a t ∧ ok' a t) fun e t => err e t ∧ err' e t := by
  unfold Ends at first second ⊢
  cases run : m s with
  | mk outcome t =>
    rw [run] at first second
    cases outcome with
    | ok a => exact ⟨first, second⟩
    | error e => exact ⟨first, second⟩

theorem Ends.state {P : σ → Prop}
    (ends : Ends m s (fun _ t => P t) fun _ t => P t) : P (m s).2 := by
  unfold Ends at ends
  cases run : m s with
  | mk outcome t =>
    rw [run] at ends
    cases outcome with
    | ok a => exact ends
    | error e => exact ends

end Rules

end Liteset.Lib
