import Liteset.Lib.Runs
import Mathlib.Logic.Function.Basic

/-!
# The key-value lock

Clients of `sync_key_value_distributed_lock` on one key.  The metadata database holds
at most one row of the key, since its uuid is unique; a transaction that meets an open
one waits for its end.  A client takes the statements of the lock one at a time, and
time may pass between any two of them.
-/

set_option autoImplicit false

namespace Liteset.Tasks.DistributedLock

open Lib
open Lib.Runs (Reaches anyStep)

/-- `LOCK_EXPIRATION`, in microseconds. -/
def lockExpiration : Int := 30 * 1000000

structure Row (C : Type) where
  id : Nat
  insertedBy : C
  expiresOn : Int
deriving DecidableEq

inductive Raised where
  | createKeyValueDistributedLockFailed
  | integrityError
deriving DecidableEq, Repr

inductive Phase (C : Type) where
  | idle
  /-- An unexpired row was there, and the call has raised. -/
  | taken (raised : Raised)
  /-- No unexpired row was there. -/
  | checked
  /-- The expired row is deleted, if there was one. -/
  | purged (deleted : Option (Row C))
  /-- The entry is made, with its expiry, and not yet flushed. -/
  | built (deleted : Option (Row C)) (expiresOn : Int)
  /-- The entry is flushed. -/
  | inserted (row : Row C)
  /-- The row is committed, and the body runs. -/
  | body (row : Row C)
  /-- After the body, with the row that the query for the key found. -/
  | releasing (found : Option (Row C))
  /-- The row could not be inserted, and the call has raised. -/
  | lost (raised : Raised)
deriving DecidableEq

structure World (C : Type) where
  now : Int
  /-- The committed row of the key. -/
  row : Option (Row C)
  nextId : Nat
  /-- The client whose open transaction has deleted the committed row. -/
  rowLock : Option C
  /-- The client whose open transaction has inserted a row of the key. -/
  indexLock : Option C
  phase : C → Phase C
  /-- Who released, and who had inserted the row that was deleted. -/
  deletions : List (C × C)

inductive Action (C : Type) where
  | tick (microseconds : Nat)
  | read (c : C)
  | purge (c : C)
  | build (c : C)
  | insert (c : C)
  | commit (c : C)
  | find (c : C)
  | delete (c : C)
  | fail (c : C)
deriving DecidableEq

variable {C : Type} [DecidableEq C]

def World.put (w : World C) (c : C) (phase : Phase C) : World C :=
  { w with phase := Function.update w.phase c phase }

@[simp] theorem World.put_phase (w : World C) (c : C) (p : Phase C) : (w.put c p).phase c = p := by
  simp [World.put]

def World.unlock (w : World C) (c : C) : World C :=
  { w with
    rowLock := if w.rowLock = some c then none else w.rowLock
    indexLock := if w.indexLock = some c then none else w.indexLock }

def read (w : World C) (c : C) : World C :=
  match w.row with
  | none => w.put c .checked
  | some row =>
    if w.now < row.expiresOn then w.put c (.taken .createKeyValueDistributedLockFailed)
    else w.put c .checked

/-- The deletion of expired rows.  `none` while another transaction has the row. -/
def purge (w : World C) (c : C) : Option (World C) :=
  match w.row with
  | none => some (w.put c (.purged none))
  | some row =>
    if row.expiresOn ≤ w.now then
      match w.rowLock with
      | none => some { w.put c (.purged (some row)) with rowLock := some c }
      | some _ => none
    else some (w.put c (.purged none))

/-- The insertion of the entry.  `none` while another transaction has inserted a row of
the key or deleted the one there is. -/
def insert (w : World C) (c : C) (deleted : Option (Row C)) (expiresOn : Int) : Option (World C) :=
  match w.indexLock with
  | some _ => none
  | none =>
    if w.row = none ∨ w.row = deleted then
      some { w.put c (.inserted { id := w.nextId, insertedBy := c, expiresOn := expiresOn }) with
        nextId := w.nextId + 1
        indexLock := some c }
    else if w.rowLock = none then some (w.put c (.lost .integrityError))
    else none

def delete (w : World C) (c : C) (found : Option (Row C)) : Option (World C) :=
  match found with
  | none => some (w.put c .idle)
  | some row =>
    if w.row = some row then
      match w.rowLock with
      | none =>
        some { w.put c .idle with
          row := none
          deletions := w.deletions ++ [(c, row.insertedBy)] }
      | some _ => none
    else some (w.put c .idle)

def step (w : World C) : Action C → Option (World C)
  | .tick n => some { w with now := w.now + n }
  | .read c =>
    match w.phase c with
    | .idle | .taken _ | .lost _ => some (read w c)
    | _ => none
  | .purge c =>
    match w.phase c with
    | .checked => purge w c
    | _ => none
  | .build c =>
    match w.phase c with
    | .purged deleted => some (w.put c (.built deleted (w.now + lockExpiration)))
    | _ => none
  | .insert c =>
    match w.phase c with
    | .built deleted expiresOn => insert w c deleted expiresOn
    | _ => none
  | .commit c =>
    match w.phase c with
    | .inserted row => some { (w.unlock c).put c (.body row) with row := some row }
    | _ => none
  | .find c =>
    match w.phase c with
    | .body _ => some (w.put c (.releasing w.row))
    | _ => none
  | .delete c =>
    match w.phase c with
    | .releasing found => delete w c found
    | _ => none
  -- The body raises or the process dies: the transaction is undone, nothing is released.
  | .fail c => some ((w.unlock c).put c .idle)

def start (now : Int) : World C :=
  { now := now
    row := none
    nextId := 1
    rowLock := none
    indexLock := none
    phase := fun _ => .idle
    deletions := [] }

/-- The client runs its body and its own lease has not run out. -/
def Holds (w : World C) (c : C) : Prop := ∃ row, w.phase c = .body row ∧ w.now < row.expiresOn

structure Exclusive (w : World C) : Prop where
  alone : ∀ c d, Holds w c → Holds w d → c = d
  ownRows : ∀ p ∈ w.deletions, p.1 = p.2
  lost : ∀ c raised, w.phase c = .lost raised → raised = .createKeyValueDistributedLockFailed

/-- A release finds no row of another client, and an insertion no row but the one its
transaction has deleted. -/
def Orderly (w : World C) : Action C → Prop
  | .find c => ∀ row, w.row = some row → row.insertedBy = c
  | .insert c =>
    ∀ deleted expiresOn, w.phase c = .built deleted expiresOn → w.row = none ∨ w.row = deleted
  | _ => True

/-- What the database shows of a client in a phase: the rows that were deleted as
expired are; a client that inserts does so alone; a row in use is stored or expired. -/
def Fits (now : Int) (row : Option (Row C)) (indexLock : Option C) (c : C) : Phase C → Prop
  | .idle | .taken _ | .checked | .lost _ => True
  | .purged deleted | .built deleted _ => ∀ q, deleted = some q → q.expiresOn ≤ now
  | .inserted own => own.insertedBy = c ∧ indexLock = some c ∧ ∀ q, row = some q → q.expiresOn ≤ now
  | .body own => own.insertedBy = c ∧ (row = some own ∨ own.expiresOn ≤ now)
  | .releasing found => ∀ q, found = some q → q.insertedBy = c

structure Inv (w : World C) : Prop where
  fits : ∀ c, Fits w.now w.row w.indexLock c (w.phase c)
  ownRows : ∀ p ∈ w.deletions, p.1 = p.2

section Steps
variable {w u : World C} {c : C} {now : Int} {row : Option (Row C)} {indexLock : Option C}
    {p : Phase C}

theorem fits_update {phase : C → Phase C} (own : Fits now row indexLock c p)
    (others : ∀ d, d ≠ c → Fits now row indexLock d (phase d)) (d : C) :
    Fits now row indexLock d (Function.update phase c p d) := by
  by_cases same : d = c
  · subst same
    rw [Function.update_self]
    exact own
  · rw [Function.update_of_ne same]
    exact others d same

omit [DecidableEq C] in
theorem fits_later {later : Int} (after : now ≤ later) (fits : Fits now row indexLock c p) :
    Fits later row indexLock c p := by
  cases p with
  | idle => trivial
  | taken raised => trivial
  | checked => trivial
  | lost raised => trivial
  | purged deleted => exact fun q found => Int.le_trans (fits q found) after
  | built deleted expiresOn => exact fun q found => Int.le_trans (fits q found) after
  | inserted own => exact ⟨fits.1, fits.2.1, fun q found => Int.le_trans (fits.2.2 q found) after⟩
  | body own => exact ⟨fits.1, fits.2.imp_right fun expired => Int.le_trans expired after⟩
  | releasing found => exact fits

omit [DecidableEq C] in
theorem fits_any_lock (lock : Option C) (idle : ∀ own, p ≠ .inserted own)
    (fits : Fits now row indexLock c p) : Fits now row lock c p := by
  cases p with
  | idle => trivial
  | taken raised => trivial
  | checked => trivial
  | lost raised => trivial
  | purged deleted => exact fits
  | built deleted expiresOn => exact fits
  | inserted own => exact (idle own rfl).elim
  | body own => exact fits
  | releasing found => exact fits

omit [DecidableEq C] in
theorem fits_any_row (other : Option (Row C)) (idle : ∀ own, p ≠ .inserted own)
    (gone : ∀ own, p = .body own → row = some own → other = some own ∨ own.expiresOn ≤ now)
    (fits : Fits now row indexLock c p) : Fits now other indexLock c p := by
  cases p with
  | idle => trivial
  | taken raised => trivial
  | checked => trivial
  | lost raised => trivial
  | purged deleted => exact fits
  | built deleted expiresOn => exact fits
  | inserted own => exact (idle own rfl).elim
  | body own => exact ⟨fits.1, fits.2.elim (gone own rfl) Or.inr⟩
  | releasing found => exact fits

section
variable (inv : Inv w)
include inv

theorem Inv.put (own : Fits w.now w.row w.indexLock c p) : Inv (w.put c p) where
  fits := fits_update own fun d _ => inv.fits d
  ownRows := inv.ownRows

omit [DecidableEq C] in
theorem Inv.inserting {own : Row C} (phase : w.phase c = .inserted own) {d : C} {other : Row C}
    (also : w.phase d = .inserted other) : d = c := by
  have first := inv.fits c
  have second := inv.fits d
  rw [phase] at first
  rw [also] at second
  exact Option.some.inj (second.2.1.symm.trans first.2.1)

theorem Inv.read (c : C) : Inv (read w c) := by
  unfold DistributedLock.read
  cases w.row with
  | none => exact inv.put trivial
  | some row =>
    dsimp only
    by_cases live : w.now < row.expiresOn
    · rw [if_pos live]
      exact inv.put trivial
    · rw [if_neg live]
      exact inv.put trivial

theorem Inv.purge (taken : purge w c = some u) : Inv u := by
  unfold DistributedLock.purge at taken
  cases stored : w.row with
  | none =>
    rw [stored] at taken
    cases taken
    exact inv.put fun q found => by cases found
  | some row =>
    rw [stored] at taken
    dsimp only at taken
    by_cases expired : row.expiresOn ≤ w.now
    · rw [if_pos expired] at taken
      cases locked : w.rowLock with
      | some d =>
        rw [locked] at taken
        cases taken
      | none =>
        rw [locked] at taken
        cases taken
        have deletes : Inv (w.put c (.purged (some row))) := inv.put fun q found => by
          cases found
          exact expired
        exact ⟨deletes.fits, deletes.ownRows⟩
    · rw [if_neg expired] at taken
      cases taken
      exact inv.put fun q found => by cases found

theorem Inv.insert {deleted : Option (Row C)} {expiresOn : Int}
    (phase : w.phase c = .built deleted expiresOn) (taken : insert w c deleted expiresOn = some u) :
    Inv u := by
  have old := inv.fits c
  rw [phase] at old
  unfold DistributedLock.insert at taken
  cases locked : w.indexLock with
  | some d =>
    rw [locked] at taken
    cases taken
  | none =>
    rw [locked] at taken
    dsimp only at taken
    by_cases free : w.row = none ∨ w.row = deleted
    · rw [if_pos free] at taken
      cases taken
      refine ⟨fits_update ⟨rfl, rfl, fun q stored => ?_⟩ fun d _ => ?_, inv.ownRows⟩
      · rcases free with absent | same
        · change w.row = some q at stored
          rw [absent] at stored
          cases stored
        · exact old q (same.symm.trans stored)
      · refine fits_any_lock _ (fun own other => ?_) (inv.fits d)
        have fits := inv.fits d
        rw [other, locked] at fits
        cases fits.2.1
    · rw [if_neg free] at taken
      by_cases unlocked : w.rowLock = none
      · rw [if_pos unlocked] at taken
        cases taken
        exact inv.put trivial
      · rw [if_neg unlocked] at taken
        cases taken

theorem Inv.commit {own : Row C} (phase : w.phase c = .inserted own) :
    Inv { (w.unlock c).put c (.body own) with row := some own } where
  fits := by
    have old := inv.fits c
    rw [phase] at old
    refine fits_update ⟨old.1, Or.inl rfl⟩ fun d other => ?_
    have idle : ∀ also, w.phase d ≠ .inserted also :=
      fun also inserts => other (inv.inserting phase inserts)
    exact fits_any_row _ idle (fun theirs _ stored => Or.inr (old.2.2 theirs stored))
      (fits_any_lock _ idle (inv.fits d))
  ownRows := inv.ownRows

theorem Inv.delete {found : Option (Row C)} (phase : w.phase c = .releasing found)
    (taken : delete w c found = some u) : Inv u := by
  have old := inv.fits c
  rw [phase] at old
  unfold DistributedLock.delete at taken
  cases found with
  | none =>
    cases taken
    exact inv.put trivial
  | some own =>
    dsimp only at taken
    by_cases stored : w.row = some own
    · rw [if_pos stored] at taken
      cases locked : w.rowLock with
      | some d =>
        rw [locked] at taken
        cases taken
      | none =>
        rw [locked] at taken
        cases taken
        refine ⟨fits_update trivial fun d other => ?_, fun p member => ?_⟩
        · have fits := inv.fits d
          cases theirs : w.phase d with
          | inserted also =>
            rw [theirs] at fits
            exact ⟨fits.1, fits.2.1, fun q none => by cases none⟩
          | idle => trivial
          | taken raised => trivial
          | checked => trivial
          | lost raised => trivial
          | purged deleted =>
            rw [theirs] at fits
            exact fits
          | built deleted expiresOn =>
            rw [theirs] at fits
            exact fits
          | releasing found =>
            rw [theirs] at fits
            exact fits
          | body also =>
            rw [theirs] at fits
            refine ⟨fits.1, fits.2.imp_left fun same => ?_⟩
            have rows : own = also := Option.some.inj (stored.symm.trans same)
            exact (other (fits.1.symm.trans (rows ▸ old own rfl))).elim
        · rcases List.mem_append.mp member with before | new
          · exact inv.ownRows p before
          · rw [List.mem_singleton.mp new]
            exact (old own rfl).symm
    · rw [if_neg stored] at taken
      cases taken
      exact inv.put trivial

theorem Inv.fail (c : C) : Inv ((w.unlock c).put c .idle) where
  fits := by
    refine fits_update trivial fun d other => ?_
    have fits := inv.fits d
    by_cases inserts : ∃ own, w.phase d = .inserted own
    · obtain ⟨own, phase⟩ := inserts
      change Fits w.now w.row (if w.indexLock = some c then none else w.indexLock) d (w.phase d)
      rw [phase] at fits ⊢
      rw [if_neg fun same => other (Option.some.inj (fits.2.1.symm.trans same))]
      exact fits
    · exact fits_any_lock _ (fun own phase => inserts ⟨own, phase⟩) fits
  ownRows := inv.ownRows

theorem Inv.step (a : Action C)
    (own : ∀ c, a = .find c → ∀ row, w.row = some row → row.insertedBy = c)
    (taken : step w a = some u) : Inv u := by
  cases a with
  | tick n =>
    cases taken
    exact ⟨fun c => fits_later (Int.le_add_of_nonneg_right (Int.natCast_nonneg n)) (inv.fits c),
      inv.ownRows⟩
  | read c =>
    simp only [DistributedLock.step] at taken
    split at taken
    · cases taken
      exact inv.read c
    · cases taken
      exact inv.read c
    · cases taken
      exact inv.read c
    · cases taken
  | purge c =>
    simp only [DistributedLock.step] at taken
    split at taken
    · exact inv.purge taken
    · cases taken
  | build c =>
    simp only [DistributedLock.step] at taken
    split at taken
    · rename_i deleted phase
      cases taken
      have old := inv.fits c
      rw [phase] at old
      exact inv.put old
    · cases taken
  | insert c =>
    simp only [DistributedLock.step] at taken
    split at taken
    · rename_i deleted expiresOn phase
      exact inv.insert phase taken
    · cases taken
  | commit c =>
    simp only [DistributedLock.step] at taken
    split at taken
    · rename_i row phase
      cases taken
      exact inv.commit phase
    · cases taken
  | find c =>
    simp only [DistributedLock.step] at taken
    split at taken
    · cases taken
      exact inv.put (own c rfl)
    · cases taken
  | delete c =>
    simp only [DistributedLock.step] at taken
    split at taken
    · rename_i found phase
      exact inv.delete phase taken
    · cases taken
  | fail c =>
    cases taken
    exact inv.fail c

end

end Steps

section Lost
variable {w u : World C} {c : C} {p : Phase C} {raised : Raised}

/-- A client loses the race when its insertion meets a row that its transaction has not
deleted; what it raises is not the error of the lock. -/
def Loses (w : World C) (a : Action C) (c : C) : Prop :=
  a = .insert c ∧ ∃ deleted expiresOn, w.phase c = .built deleted expiresOn ∧
    ¬(w.row = none ∨ w.row = deleted)

def LostAfter (w : World C) (a : Action C) (u : World C) : Prop :=
  ∀ c raised, u.phase c = .lost raised →
    w.phase c = .lost raised ∨ raised = .integrityError ∧ Loses w a c

theorem lostAfter_put (a : Action C) (c : C) {p : Phase C} (other : ∀ raised, p ≠ .lost raised) :
    LostAfter w a (w.put c p) := by
  intro d raised lost
  by_cases same : d = c
  · subst same
    change Function.update w.phase d p d = _ at lost
    rw [Function.update_self] at lost
    exact (other raised lost).elim
  · change Function.update w.phase c p d = _ at lost
    rw [Function.update_of_ne same] at lost
    exact Or.inl lost

theorem lostAfter_read (w : World C) (a : Action C) (c : C) : LostAfter w a (read w c) := by
  unfold DistributedLock.read
  cases w.row with
  | none => exact lostAfter_put a c nofun
  | some row =>
    dsimp only
    by_cases live : w.now < row.expiresOn
    · rw [if_pos live]
      exact lostAfter_put a c nofun
    · rw [if_neg live]
      exact lostAfter_put a c nofun

theorem lostAfter_purge {a : Action C} (taken : purge w c = some u) : LostAfter w a u := by
  unfold DistributedLock.purge at taken
  cases stored : w.row with
  | none =>
    rw [stored] at taken
    cases taken
    exact lostAfter_put a c nofun
  | some row =>
    rw [stored] at taken
    dsimp only at taken
    by_cases expired : row.expiresOn ≤ w.now
    · rw [if_pos expired] at taken
      cases locked : w.rowLock with
      | some d =>
        rw [locked] at taken
        cases taken
      | none =>
        rw [locked] at taken
        cases taken
        exact lostAfter_put (w := w) a c nofun
    · rw [if_neg expired] at taken
      cases taken
      exact lostAfter_put a c nofun

theorem lostAfter_insert {deleted : Option (Row C)} {expiresOn : Int}
    (phase : w.phase c = .built deleted expiresOn) (taken : insert w c deleted expiresOn = some u) :
    LostAfter w (.insert c) u := by
  unfold DistributedLock.insert at taken
  cases locked : w.indexLock with
  | some d =>
    rw [locked] at taken
    cases taken
  | none =>
    rw [locked] at taken
    dsimp only at taken
    by_cases free : w.row = none ∨ w.row = deleted
    · rw [if_pos free] at taken
      cases taken
      exact lostAfter_put (w := w) (.insert c) c nofun
    · rw [if_neg free] at taken
      by_cases unlocked : w.rowLock = none
      · rw [if_pos unlocked] at taken
        cases taken
        intro d raised lost
        change Function.update w.phase c (.lost .integrityError) d = _ at lost
        by_cases same : d = c
        · subst same
          rw [Function.update_self] at lost
          cases lost
          exact Or.inr ⟨rfl, rfl, deleted, expiresOn, phase, free⟩
        · rw [Function.update_of_ne same] at lost
          exact Or.inl lost
      · rw [if_neg unlocked] at taken
        cases taken

theorem lostAfter_delete {a : Action C} {found : Option (Row C)}
    (taken : delete w c found = some u) :
    LostAfter w a u := by
  unfold DistributedLock.delete at taken
  cases found with
  | none =>
    cases taken
    exact lostAfter_put a c nofun
  | some own =>
    dsimp only at taken
    by_cases stored : w.row = some own
    · rw [if_pos stored] at taken
      cases locked : w.rowLock with
      | some d =>
        rw [locked] at taken
        cases taken
      | none =>
        rw [locked] at taken
        cases taken
        exact lostAfter_put (w := w) a c nofun
    · rw [if_neg stored] at taken
      cases taken
      exact lostAfter_put a c nofun

theorem lostAfter_step (a : Action C) (taken : step w a = some u) : LostAfter w a u := by
  cases a with
  | tick n =>
    cases taken
    exact fun c raised lost => Or.inl lost
  | read c =>
    simp only [DistributedLock.step] at taken
    split at taken
    · cases taken
      exact lostAfter_read w _ c
    · cases taken
      exact lostAfter_read w _ c
    · cases taken
      exact lostAfter_read w _ c
    · cases taken
  | purge c =>
    simp only [DistributedLock.step] at taken
    split at taken
    · exact lostAfter_purge taken
    · cases taken
  | build c =>
    simp only [DistributedLock.step] at taken
    split at taken
    · cases taken
      exact lostAfter_put _ c nofun
    · cases taken
  | insert c =>
    simp only [DistributedLock.step] at taken
    split at taken
    · rename_i deleted expiresOn phase
      exact lostAfter_insert phase taken
    · cases taken
  | commit c =>
    simp only [DistributedLock.step] at taken
    split at taken
    · cases taken
      exact lostAfter_put (w := w) _ c nofun
    · cases taken
  | find c =>
    simp only [DistributedLock.step] at taken
    split at taken
    · cases taken
      exact lostAfter_put _ c nofun
    · cases taken
  | delete c =>
    simp only [DistributedLock.step] at taken
    split at taken
    · exact lostAfter_delete taken
    · cases taken
  | fail c =>
    cases taken
    exact lostAfter_put (w := w) _ c nofun

end Lost

section Run
variable {now : Int} {w : World C}

omit [DecidableEq C] in
theorem inv_start (now : Int) : Inv (start now : World C) where
  fits _ := trivial
  ownRows p member := by cases member

omit [DecidableEq C] in
theorem Inv.alone (inv : Inv w) {c d : C} (first : Holds w c) (second : Holds w d) : c = d := by
  obtain ⟨own, running, live⟩ := first
  obtain ⟨other, also, alive⟩ := second
  have fitsOwn := inv.fits c
  have fitsOther := inv.fits d
  rw [running] at fitsOwn
  rw [also] at fitsOther
  have stored : w.row = some own := fitsOwn.2.resolve_right (Int.not_le.mpr live)
  have storedOther : w.row = some other := fitsOther.2.resolve_right (Int.not_le.mpr alive)
  have same : own = other := Option.some.inj (stored.symm.trans storedOther)
  rw [← fitsOwn.1, ← fitsOther.1, same]

/-- With releases that find no row of another client, the lock is held by one client
at most and a release deletes the client's own row. -/
theorem inv_of_reaches (allowed : World C → Action C → Prop)
    (own : ∀ w c, allowed w (.find c) → ∀ row, w.row = some row → row.insertedBy = c)
    (reached : Reaches step allowed (start now) w) : Inv w :=
  reached.invariant Inv (inv_start now) fun t a _ inv ok taken =>
    inv.step a (fun c same => own t c (same ▸ ok)) taken

theorem noneLost_of_orderly (reached : Reaches step Orderly (start now) w) (c : C)
    (raised : Raised) :
    w.phase c ≠ .lost raised :=
  reached.invariant (fun t => ∀ c raised, t.phase c ≠ .lost raised) (fun _ _ idle => by cases idle)
    (fun t a _ before ok taken c raised lost => by
      rcases lostAfter_step a taken c raised lost with old |
        ⟨_, rfl, deleted, expiresOn, phase, meets⟩
      · exact before c raised old
      · exact meets (ok deleted expiresOn phase))
    c raised

/-- In a run whose releases find no row of another client and whose insertions meet no
row, the lock is exclusive in every state. -/
theorem exclusive_of_orderly (reached : Reaches step Orderly (start now) w) : Exclusive w where
  alone _ _ first second := (inv_of_reaches Orderly (fun _ _ ok => ok) reached).alone first second
  ownRows := (inv_of_reaches Orderly (fun _ _ ok => ok) reached).ownRows
  lost c raised lost := (noneLost_of_orderly reached c raised lost).elim

end Run

instance (w : World Nat) (c : Nat) : Decidable (Holds w c) :=
  match phase : w.phase c with
  | .body row =>
    decidable_of_iff (w.now < row.expiresOn)
      ⟨fun live => ⟨row, phase, live⟩, fun ⟨other, same, live⟩ => by
        rw [phase] at same
        cases same
        exact live⟩
  | .idle | .taken _ | .checked | .purged _ | .built _ _ | .inserted _ | .releasing _ | .lost _ =>
    isFalse fun ⟨row, same, _⟩ => by rw [phase] at same; cases same

instance (w : World Nat) (a : Action Nat) : Decidable (Orderly w a) :=
  match a with
  | .find c => inferInstanceAs (Decidable (∀ row, w.row = some row → row.insertedBy = c))
  | .insert c =>
    match phase : w.phase c with
    | .built deleted expiresOn =>
      decidable_of_iff (w.row = none ∨ w.row = deleted)
        ⟨fun free d e same => by rw [phase] at same; cases same; exact free,
          fun free => free deleted expiresOn phase⟩
    | .idle | .taken _ | .checked | .purged _ | .inserted _ | .body _ | .releasing _ | .lost _ =>
      isTrue fun d e same => by rw [phase] at same; cases same
  | .tick _ | .read _ | .purge _ | .build _ | .commit _ | .delete _ | .fail _ => isTrue trivial

def acquire (c : Nat) : List (Action Nat) := [.read c, .purge c, .build c, .insert c, .commit c]

def release (c : Nat) : List (Action Nat) := [.find c, .delete c]

def takeover : List (Action Nat) :=
  acquire 0 ++ release 0 ++ acquire 1 ++ [.tick 30000000] ++ acquire 2 ++ release 2

theorem exclusive_takeover : ∃ w : World Nat, Reaches step Orderly (start 0) w ∧ Exclusive w := by
  obtain ⟨w, reached, _⟩ :=
    Runs.exists_reaches_of_runWithin step Orderly (start 0 : World Nat) takeover
    (fun w => w.row = none) (by decide)
  exact ⟨w, reached, exclusive_of_orderly reached⟩

/-- The first client releases after its lease, when the second holds the lock; the third
then acquires it beside the second, and a fourth meets its row. -/
def lateRelease : List (Action Nat) :=
  acquire 0 ++ [.tick 30000000] ++ acquire 1 ++ release 0 ++ [.read 3, .purge 3, .build 3] ++
    acquire 2
    ++ [.insert 3]

theorem lateRelease_shares : ∃ w : World Nat, Reaches step anyStep (start 0) w
    ∧ Holds w 1 ∧ Holds w 2 ∧ (0, 1) ∈ w.deletions ∧ w.phase 3 = .lost .integrityError ∧
    ¬Exclusive w := by
  obtain ⟨w, reached, second, third, deleted, lost⟩ :=
    Runs.exists_reaches_of_runWithin step anyStep (start 0 : World Nat) lateRelease
      (fun w => Holds w 1 ∧ Holds w 2 ∧ (0, 1) ∈ w.deletions ∧ w.phase 3 = .lost .integrityError)
      (by decide)
  exact ⟨w, reached, second, third, deleted, lost, fun exclusive =>
    absurd (exclusive.alone 1 2 second third) (by decide)⟩

section Leases
variable {w u : World C}

def Bounded (now : Int) : Phase C → Prop
  | .built _ expiresOn => expiresOn ≤ now + lockExpiration
  | .inserted row => row.expiresOn ≤ now + lockExpiration
  | _ => True

structure Leases (w : World C) : Prop where
  row : ∀ row, w.row = some row → row.expiresOn ≤ w.now + lockExpiration
  phases : ∀ c, Bounded w.now (w.phase c)

theorem Leases.update (leases : Leases w) {c : C} {p : Phase C}
    (phase : u.phase = Function.update w.phase c p)
    (now : u.now = w.now) (row : ∀ r, u.row = some r → w.row = some r ∨ w.phase c = .inserted r)
    (bounded : Bounded w.now p) : Leases u where
  row r stored := by
    rw [now]
    rcases row r stored with old | own
    · exact leases.row r old
    · have own' := leases.phases c
      rwa [own] at own'
  phases d := by
    rw [now, phase]
    exact (Function.forall_update_iff w.phase fun _ q => Bounded w.now q).mpr
      ⟨bounded, fun d _ => leases.phases d⟩ d

theorem leases_step (a : Action C) (leases : Leases w) (taken : step w a = some u) : Leases u := by
  cases a with
  | tick n =>
    cases taken
    refine ⟨fun r stored => ?_, fun c => ?_⟩
    · have bounded := leases.row r stored
      simp only
      omega
    · have bounded := leases.phases c
      cases phase : w.phase c <;> simp only [phase, Bounded] at bounded ⊢ <;> omega
  | insert c =>
    have built := leases.phases c
    simp only [step, insert] at taken
    split at taken
    · rename_i phase
      rw [phase] at built
      repeat' split at taken
      all_goals cases taken
      · exact leases.update rfl rfl (fun _ => .inl) built
      · exact leases.update rfl rfl (fun _ => .inl) trivial
    · cases taken
  | commit c =>
    simp only [step] at taken
    split at taken <;> cases taken
    rename_i phase
    exact leases.update rfl rfl (fun _ same => .inr (by rw [phase, Option.some.inj same])) trivial
  | build c =>
    simp only [step] at taken
    split at taken <;> cases taken
    exact leases.update rfl rfl (fun _ => .inl) (Int.le_refl _)
  | delete c =>
    simp only [step, delete] at taken
    repeat' split at taken
    all_goals cases taken
    · exact leases.update rfl rfl (fun _ => .inl) trivial
    · exact leases.update rfl rfl (fun _ none => by cases none) trivial
    · exact leases.update rfl rfl (fun _ => .inl) trivial
  | read c | purge c | find c | fail c =>
    simp only [step, read, purge] at taken
    repeat' split at taken
    all_goals cases taken
    all_goals exact leases.update rfl rfl (fun _ => .inl) trivial

omit [DecidableEq C] in
theorem leases_start (now : Int) : Leases (start now : World C) where
  row _ none := by cases none
  phases _ := trivial

/-- No row of the key is stored, or one whose lease is out. -/
def Lapsed (w : World C) : Prop := ∀ row, w.row = some row → row.expiresOn ≤ w.now

section Acquiring
variable {c : C}

theorem read_lapsed (lapsed : Lapsed w) : read w c = w.put c .checked := by
  unfold read
  cases stored : w.row with
  | none => rfl
  | some row => exact if_neg (Int.not_lt.mpr (lapsed row stored))

theorem purge_lapsed (lapsed : Lapsed w) (free : w.rowLock = none) :
    ∃ lock, purge w c = some { w.put c (.purged w.row) with rowLock := lock } := by
  unfold purge
  cases stored : w.row with
  | none => exact ⟨w.rowLock, rfl⟩
  | some row =>
    refine ⟨some c, ?_⟩
    rw [free]
    exact if_pos (lapsed row stored)

theorem insert_deleted (free : w.indexLock = none) (expiresOn : Int) :
    insert w c w.row expiresOn =
      some { w.put c (.inserted { id := w.nextId, insertedBy := c, expiresOn := expiresOn }) with
        nextId := w.nextId + 1
        indexLock := some c } := by
  unfold insert
  rw [free]
  exact if_pos (.inr rfl)

/-- With the lease out and no transaction open, the statements of an idle client are taken
one after the other. -/
theorem acquires (lapsed : Lapsed w) (idle : w.phase c = .idle)
    (closed : w.rowLock = none ∧ w.indexLock = none) :
    ∃ u, Runs.runWithin step anyStep w [.read c, .purge c, .build c, .insert c,
      .commit c] = some u ∧
      Holds u c := by
  let checked := w.put c .checked
  have reads : step w (.read c) = some checked := by
    rw [step, idle, read_lapsed lapsed]
  obtain ⟨lock, purged⟩ := purge_lapsed (w := checked) (c := c) lapsed closed.1
  let out : World C := { checked.put c (.purged w.row) with rowLock := lock }
  have purges : step checked (.purge c) = some out := by
    rw [step, World.put_phase]
    exact purged
  let built := out.put c (.built w.row (w.now + lockExpiration))
  have builds : step out (.build c) = some built := by
    rw [step, show out.phase c = .purged w.row from checked.put_phase c _]
    rfl
  let own : Row C := { id := w.nextId, insertedBy := c, expiresOn := w.now + lockExpiration }
  let inserted : World C :=
    { built.put c (.inserted own) with nextId := w.nextId + 1, indexLock := some c }
  have inserts : step built (.insert c) = some inserted := by
    rw [step, World.put_phase]
    exact insert_deleted (w := built) closed.2 _
  let held : World C := { (inserted.unlock c).put c (.body own) with row := some own }
  have commits : step inserted (.commit c) = some held := by
    rw [step, show inserted.phase c = .inserted own from built.put_phase c _]
  refine ⟨held, ?_, own, (inserted.unlock c).put_phase c _, ?_⟩
  · rw [Runs.runWithin_cons step anyStep _ trivial reads,
      Runs.runWithin_cons step anyStep _ trivial purges,
      Runs.runWithin_cons step anyStep _ trivial builds,
      Runs.runWithin_cons step anyStep _ trivial inserts,
      Runs.runWithin_cons step anyStep _ trivial commits, Runs.runWithin]
  · change w.now < w.now + lockExpiration
    exact Int.lt_add_of_pos_right w.now (by decide)

end Acquiring

omit [DecidableEq C] in
theorem Leases.waited (leases : Leases w) :
    ∃ waited : Nat, waited ≤ lockExpiration ∧ Lapsed { w with now := w.now + waited } := by
  cases stored : w.row with
  | none => exact ⟨0, by decide, fun row found => by cases found⟩
  | some row =>
    have bounded := leases.row row stored
    have waits : (0 : Int) ≤ lockExpiration := by decide
    refine ⟨(row.expiresOn - w.now).toNat, by omega, fun other found => ?_⟩
    cases found
    change row.expiresOn ≤ w.now + _
    omega

/-- However clients crashed or overran their leases before, a client gets the lock after
waiting for at most the time of one lease, once no transaction is open and no other client
moves. -/
theorem obtainable {now : Int} (reached : Reaches step anyStep (start now) w) (c : C)
    (idle : w.phase c = .idle) (closed : w.rowLock = none ∧ w.indexLock = none) :
    ∃ waited : Nat, waited ≤ lockExpiration ∧ ∃ u, Runs.runWithin step anyStep w
      [.tick waited, .read c, .purge c, .build c, .insert c, .commit c] = some u ∧ Holds u c := by
  have leases : Leases w :=
    reached.invariant Leases (leases_start now) fun _ a _ leases _ taken =>
      leases_step a leases taken
  obtain ⟨waited, short, lapsed⟩ := leases.waited
  obtain ⟨u, run, holds⟩ := acquires lapsed idle closed
  exact ⟨waited, short, u, (Runs.runWithin_cons step anyStep _ trivial rfl).trans run, holds⟩

/-- The holder crashes and leaves its row. -/
theorem obtainable_after_crash : ∃ w : World Nat, w.row.isSome ∧ ∃ waited : Nat,
    waited ≤ lockExpiration ∧
    ∃ u, Runs.runWithin step anyStep w [.tick waited, .read 1, .purge 1, .build 1, .insert 1,
      .commit 1] = some u ∧ Holds u 1 := by
  obtain ⟨w, reached, left, idle, closed⟩ :=
    Runs.exists_reaches_of_runWithin step anyStep (start 0 : World Nat)
    (acquire 0 ++ [.fail 0]) (fun w => w.row.isSome ∧ w.phase 1 = .idle ∧ w.rowLock = none ∧
      w.indexLock = none) (by decide)
  exact ⟨w, left, obtainable reached 1 idle closed⟩

end Leases
end Liteset.Tasks.DistributedLock
