/-
  Hmn.Framework.Journal — one database file and many connections.

  A connection reads the committed state until its first write.  The first
  write opens a transaction on a copy that only this connection sees, and
  until it ends every other connection is refused a write.  A commit puts
  the copy in the place of the committed state; closing the connection
  without one throws the copy away.

  Main results: `Sees` and its rules — what one connection sees while nobody
  else writes — and `Every` and its rules — an invariant of the committed
  state and of the open copy alike.
-/
import Mathlib.Tactic.Common

namespace Hmn.Framework

/-- The committed state, and the connection with an open transaction with the
copy it works on. -/
structure Journal (δ : Type) where
  committed : δ
  writer : Option (Nat × δ) := none

namespace Journal

variable {δ : Type}

/-! ## §1. What a connection does. -/

/-- What a connection reads. -/
def view (j : Journal δ) (c : Nat) : δ :=
  match j.writer with
  | some (d, db) => if d = c then db else j.committed
  | none => j.committed

/-- Another connection has an open transaction. -/
def locked (j : Journal δ) (c : Nat) : Bool :=
  match j.writer with
  | some (d, _) => decide (d ≠ c)
  | none => false

/-- The connection works on the copy `db` from now on. -/
def put (j : Journal δ) (c : Nat) (db : δ) : Journal δ := { j with writer := some (c, db) }

/-- The end of the open transaction of a connection, if it has one. -/
def finish (j : Journal δ) (c : Nat) (end_ : δ → δ) : Journal δ :=
  match j.writer with
  | some (d, db) => if d = c then ⟨end_ db, none⟩ else j
  | none => j

/-- `COMMIT`. -/
def commit (j : Journal δ) (c : Nat) : Journal δ := j.finish c id

/-- The connection is closed: what it did not commit is lost. -/
def close (j : Journal δ) (c : Nat) : Journal δ := j.finish c (fun _ => j.committed)

/-! ## §2. Nobody else writes. -/

/-- The connection reads `db`, and may write. -/
def Sees (j : Journal δ) (c : Nat) (db : δ) : Prop :=
  j.writer = some (c, db) ∨ (j.writer = none ∧ j.committed = db)

section Sees

variable {j : Journal δ} {c : Nat} {db : δ}

theorem Sees.view (h : j.Sees c db) : j.view c = db := by
  rcases h with h | ⟨h, hcommitted⟩
  · simp [Journal.view, h]
  · simp [Journal.view, h, hcommitted]

theorem Sees.locked (h : j.Sees c db) : j.locked c = false := by
  rcases h with h | ⟨h, -⟩ <;> simp [Journal.locked, h]

theorem sees_put (j : Journal δ) (c : Nat) (db : δ) : (j.put c db).Sees c db := Or.inl rfl

theorem sees_of_idle (h : j.writer = none) (c : Nat) : j.Sees c j.committed := Or.inr ⟨h, rfl⟩

theorem Sees.commit (h : j.Sees c db) : j.commit c = ⟨db, none⟩ := by
  cases j
  rcases h with h | ⟨h, hcommitted⟩
  · simp_all [Journal.commit, finish]
  · simp_all [Journal.commit, finish]

theorem close_idle (h : j.writer = none) : j.close c = j := by
  simp [close, finish, h]

theorem committed_close (j : Journal δ) (c : Nat) : (j.close c).committed = j.committed := by
  unfold Journal.close finish
  cases j.writer with
  | none => rfl
  | some entry =>
    simp only
    split_ifs <;> rfl

/-- A transaction that is committed before the connection is closed. -/
theorem Sees.commit_close (h : j.Sees c db) : (j.commit c).close c = ⟨db, none⟩ := by
  rw [h.commit]
  exact close_idle rfl

theorem eq_of_idle (h : j.writer = none) : j = ⟨j.committed, none⟩ := by
  cases j
  cases h
  rfl

theorem Sees.close (h : j.Sees c db) : j.close c = ⟨j.committed, none⟩ := by
  cases j
  rcases h with h | ⟨h, -⟩
  · simp_all [Journal.close, finish]
  · simp_all [Journal.close, finish]

end Sees

/-! ## §3. Invariants of every copy. -/

/-- An invariant of the committed state and of the open copy. -/
def Every (I : δ → Prop) (j : Journal δ) : Prop :=
  I j.committed ∧ ∀ c db, j.writer = some (c, db) → I db

section Every

variable {I : δ → Prop} {j : Journal δ}

theorem Every.view (h : j.Every I) (c : Nat) : I (j.view c) := by
  unfold Journal.view
  cases hw : j.writer with
  | none => exact h.1
  | some entry =>
    obtain ⟨d, db⟩ := entry
    simp only
    split_ifs
    · exact h.2 d db hw
    · exact h.1

theorem Every.put {c : Nat} {db : δ} (h : j.Every I) (hdb : I db) : (j.put c db).Every I := by
  refine ⟨h.1, fun d db' hw => ?_⟩
  obtain ⟨-, rfl⟩ : c = d ∧ db = db' := by simpa [Journal.put] using hw
  exact hdb

theorem Every.finish {c : Nat} {end_ : δ → δ} (h : j.Every I) (hend : ∀ db, I db → I (end_ db)) :
    (j.finish c end_).Every I := by
  unfold Journal.finish
  cases hw : j.writer with
  | none => exact h
  | some entry =>
    obtain ⟨d, db⟩ := entry
    simp only
    split_ifs
    · exact ⟨hend db (h.2 d db hw), nofun⟩
    · exact h

end Every

/-! ## §4. Two connections. -/

/-- A connection has no open transaction before and after, unless nothing
changed. -/
def Apart (j j' : Journal δ) (c : Nat) : Prop :=
  j' = j ∨ ((∀ db, j.writer ≠ some (c, db)) ∧ ∀ db, j'.writer ≠ some (c, db))

section Apart

variable {j : Journal δ} {c d : Nat}

/-- A connection that may write shuts every other one out. -/
theorem apart_put (hlocked : j.locked c = false) (hne : c ≠ d) (db : δ) :
    j.Apart (j.put c db) d := by
  refine Or.inr ⟨fun db' hw => ?_, fun db' hw => ?_⟩
  · simp [locked, hw, hne.symm] at hlocked
  · simp [put, hne] at hw

theorem apart_finish (hne : c ≠ d) (end_ : δ → δ) : j.Apart (j.finish c end_) d := by
  unfold finish
  cases hw : j.writer with
  | none => exact Or.inl rfl
  | some entry =>
    obtain ⟨e, db⟩ := entry
    simp only
    split_ifs with he
    · refine Or.inr ⟨fun db' hw' => hne ?_, nofun⟩
      rw [hw] at hw'
      cases hw'
      exact he.symm
    · exact Or.inl rfl

/-- What the open copy of a connection is, if it has one. -/
theorem view_cases (j : Journal δ) (c : Nat) :
    j.writer = some (c, j.view c) ∨ ((∀ db, j.writer ≠ some (c, db)) ∧ j.view c = j.committed) := by
  unfold view
  cases hw : j.writer with
  | none => exact Or.inr ⟨nofun, rfl⟩
  | some entry =>
    obtain ⟨d, db⟩ := entry
    simp only
    split_ifs with hd
    · exact Or.inl (hd ▸ rfl)
    · exact Or.inr ⟨fun db' h => hd (by cases h; rfl), rfl⟩

theorem writer_finish {end_ : δ → δ} {db : δ} (h : (j.finish c end_).writer = some (d, db)) :
    j.writer = some (d, db) := by
  unfold finish at h
  cases hw : j.writer with
  | none => simp [hw] at h
  | some entry =>
    obtain ⟨e, db'⟩ := entry
    rw [hw] at h
    simp only at h
    split_ifs at h
    rwa [hw] at h

end Apart

end Journal

end Hmn.Framework
