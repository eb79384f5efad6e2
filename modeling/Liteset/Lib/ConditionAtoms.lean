import Liteset.Lib.Condition

/-!
# The atoms of a search condition

Atoms may be replaced everywhere in a text; its connectives stay what they are.
-/

set_option autoImplicit false

namespace Liteset.Lib.Condition

variable {α β σ : Type}

mutual
def Operand.map (f : α → β) : Operand α σ → Operand β σ
  | .atom a => .atom (f a)
  | .group d => .group (d.map f)
  | .compared o s => .compared (o.map f) s

def Factor.map (f : α → β) : Factor α σ → Factor β σ
  | .mk nots o => .mk nots (o.map f)

def Conjunction.map (f : α → β) : Conjunction α σ → Conjunction β σ
  | .one g => .one (g.map f)
  | .and c g => .and (c.map f) (g.map f)

def Disjunction.map (f : α → β) : Disjunction α σ → Disjunction β σ
  | .one c => .one (c.map f)
  | .or d c => .or (d.map f) (c.map f)
end

mutual
def Operand.atoms : Operand α σ → List α
  | .atom a => [a]
  | .group d => d.atoms
  | .compared o _ => o.atoms

def Factor.atoms : Factor α σ → List α
  | .mk _ o => o.atoms

def Conjunction.atoms : Conjunction α σ → List α
  | .one g => g.atoms
  | .and c g => c.atoms ++ g.atoms

def Disjunction.atoms : Disjunction α σ → List α
  | .one c => c.atoms
  | .or d c => d.atoms ++ c.atoms
end

theorem Valuation.eq_of {v w : Valuation α σ} (atoms : v.atom = w.atom)
    (compared : v.compared = w.compared) :
    v = w := by
  cases v
  cases w
  cases atoms
  cases compared
  rfl

def Valuation.comap (f : α → β) (v : Valuation β σ) : Valuation α σ where
  atom := fun a => v.atom (f a)
  compared := fun o s => v.compared (o.map f) s

mutual
theorem Operand.truth_map (f : α → β) (v : Valuation β σ) : ∀ o : Operand α σ,
    (o.map f).truth v = o.truth (v.comap f)
  | .atom _ => rfl
  | .group d => Disjunction.truth_map f v d
  | .compared _ _ => rfl

theorem Factor.truth_map (f : α → β) (v : Valuation β σ) : ∀ g : Factor α σ,
    (g.map f).truth v = g.truth (v.comap f)
  | .mk nots o => congrArg (not3^[nots]) (Operand.truth_map f v o)

theorem Conjunction.truth_map (f : α → β) (v : Valuation β σ) : ∀ c : Conjunction α σ,
    (c.map f).truth v = c.truth (v.comap f)
  | .one g => Factor.truth_map f v g
  | .and c g => congrArg₂ and3 (Conjunction.truth_map f v c) (Factor.truth_map f v g)

theorem Disjunction.truth_map (f : α → β) (v : Valuation β σ) : ∀ d : Disjunction α σ,
    (d.map f).truth v = d.truth (v.comap f)
  | .one c => Conjunction.truth_map f v c
  | .or d c => congrArg₂ or3 (Disjunction.truth_map f v d) (Conjunction.truth_map f v c)
end

theorem Disjunction.holds_map (f : α → β) (v : Valuation β σ) (d : Disjunction α σ) :
    (d.map f).Holds v ↔ d.Holds (v.comap f) := by
  unfold Disjunction.Holds
  rw [Disjunction.truth_map]

section Congr
variable {v w : Valuation α σ}

mutual
theorem Operand.truth_congr (compared : v.compared = w.compared) : ∀ o : Operand α σ,
    (∀ a ∈ o.atoms, v.atom a = w.atom a) → o.truth v = o.truth w
  | .atom a, same => same a List.mem_cons_self
  | .group d, same => Disjunction.truth_congr compared d same
  | .compared o s, _ => congrFun (congrFun compared o) s

theorem Factor.truth_congr (compared : v.compared = w.compared) : ∀ g : Factor α σ,
    (∀ a ∈ g.atoms, v.atom a = w.atom a) → g.truth v = g.truth w
  | .mk nots o, same => congrArg (not3^[nots]) (Operand.truth_congr compared o same)

theorem Conjunction.truth_congr (compared : v.compared = w.compared) : ∀ c : Conjunction α σ,
    (∀ a ∈ c.atoms, v.atom a = w.atom a) →
    c.truth v = c.truth w
  | .one g, same => Factor.truth_congr compared g same
  | .and c g, same =>
    congrArg₂ and3 (Conjunction.truth_congr compared c fun a member =>
      same a (List.mem_append_left _ member))
      (Factor.truth_congr compared g fun a member => same a (List.mem_append_right _ member))

theorem Disjunction.truth_congr (compared : v.compared = w.compared) : ∀ d : Disjunction α σ,
    (∀ a ∈ d.atoms, v.atom a = w.atom a) →
    d.truth v = d.truth w
  | .one c, same => Conjunction.truth_congr compared c same
  | .or d c, same =>
    congrArg₂ or3 (Disjunction.truth_congr compared d fun a member =>
      same a (List.mem_append_left _ member))
      (Conjunction.truth_congr compared c fun a member => same a (List.mem_append_right _ member))
end

end Congr

mutual
theorem Operand.atoms_map (f : α → β) : ∀ o : Operand α σ, (o.map f).atoms = o.atoms.map f
  | .atom _ => rfl
  | .group d => Disjunction.atoms_map f d
  | .compared o _ => Operand.atoms_map f o

theorem Factor.atoms_map (f : α → β) : ∀ g : Factor α σ, (g.map f).atoms = g.atoms.map f
  | .mk _ o => Operand.atoms_map f o

theorem Conjunction.atoms_map (f : α → β) : ∀ c : Conjunction α σ, (c.map f).atoms = c.atoms.map f
  | .one g => Factor.atoms_map f g
  | .and c g => by
    rw [Conjunction.map, Conjunction.atoms, Conjunction.atoms, List.map_append,
      Conjunction.atoms_map f c, Factor.atoms_map f g]

theorem Disjunction.atoms_map (f : α → β) : ∀ d : Disjunction α σ, (d.map f).atoms = d.atoms.map f
  | .one c => Conjunction.atoms_map f c
  | .or d c => by
    rw [Disjunction.map, Disjunction.atoms, Disjunction.atoms, List.map_append,
      Disjunction.atoms_map f d, Conjunction.atoms_map f c]
end

theorem Disjunction.single_map {f : α → β} {d : Disjunction α σ} : (d.map f).Single ↔ d.Single := by
  cases d with
  | one c => exact ⟨fun _ => rfl, fun _ => rfl⟩
  | or d c => simp [Disjunction.map, Disjunction.Single, Disjunction.late]

theorem Conjunction.atoms_append (c : Conjunction α σ) : ∀ d : Conjunction α σ,
    (c.append d).atoms = c.atoms ++ d.atoms
  | .one _ => rfl
  | .and d g => by
    rw [Conjunction.append, Conjunction.atoms, Conjunction.atoms_append c d, Conjunction.atoms,
      List.append_assoc]

theorem Disjunction.atoms_extend (c : Conjunction α σ) (d : Disjunction α σ) :
    (d.extend c).atoms = d.atoms ++ c.atoms := by
  cases d with
  | one l => exact Conjunction.atoms_append l c
  | or d l =>
    rw [Disjunction.extend, Disjunction.atoms, Conjunction.atoms_append, Disjunction.atoms,
      List.append_assoc]

theorem Disjunction.atoms_andThen (d : Disjunction α σ) : ∀ e : Disjunction α σ,
    (d.andThen e).atoms = d.atoms ++ e.atoms
  | .one c => Disjunction.atoms_extend c d
  | .or e c => by
    rw [Disjunction.andThen, Disjunction.atoms, Disjunction.atoms_andThen d e, Disjunction.atoms,
      List.append_assoc]

@[simp] theorem Disjunction.atoms_grouped (d : Disjunction α σ) : d.grouped.atoms = d.atoms := rfl

theorem Disjunction.Single.holds_andThen {v : Valuation α σ} {d e : Disjunction α σ}
    (first : d.Single)
    (second : e.Single) : (d.andThen e).Holds v ↔ d.Holds v ∧ e.Holds v := by
  obtain ⟨c, rfl⟩ := first.exists_one
  obtain ⟨b, rfl⟩ := second.exists_one
  exact Conjunction.holds_append v c b

theorem Disjunction.Single.andThen {d e : Disjunction α σ} (first : d.Single) (second : e.Single) :
    (d.andThen e).Single := by
  obtain ⟨c, rfl⟩ := first.exists_one
  obtain ⟨b, rfl⟩ := second.exists_one
  rfl

theorem Disjunction.single_grouped (d : Disjunction α σ) : d.grouped.Single := rfl

end Liteset.Lib.Condition
