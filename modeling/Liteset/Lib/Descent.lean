/-!
# Recursive evaluation of a graph

A node has its own result, or it evaluates its successors in order and collects what
they return; the first exception ends the evaluation.  Nothing bounds the recursion, so
the evaluation has fuel, and it ends when it does for some fuel.
-/

set_option autoImplicit false

namespace Liteset.Lib.Descent

variable {ε α ρ : Type}

inductive Node (ε α ρ : Type) where
  | leaf (result : Except ε ρ)
  | branch (successors : List (Except ε α)) (collect : List ρ → ρ)

def visit (evaluate : α → Option (Except ε ρ)) :
    List (Except ε α) → Option (Except ε (List ρ))
  | [] => some (.ok [])
  | .error e :: _ => some (.error e)
  | .ok a :: rest =>
    match evaluate a with
    | none => none
    | some (.error e) => some (.error e)
    | some (.ok r) => (visit evaluate rest).map (Except.map (r :: ·))

theorem visit_error (evaluate : α → Option (Except ε ρ)) (e : ε) (rest : List (Except ε α)) :
    visit evaluate (.error e :: rest) = some (.error e) := rfl

def walk (node : α → Node ε α ρ) : Nat → α → Option (Except ε ρ)
  | 0, _ => none
  | fuel + 1, a =>
    match node a with
    | .leaf result => some result
    | .branch successors collect =>
      (visit (walk node fuel) successors).map (Except.map collect)

end Liteset.Lib.Descent
