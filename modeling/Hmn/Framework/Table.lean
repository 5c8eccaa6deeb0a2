/-
  Hmn.Framework.Table — a keyed table: rows in insertion order whose
  primary keys are pairwise distinct.

  The distinctness of the keys is a FIELD of the table, so a table with
  two rows under one key cannot be built and no later proof has to carry
  that fact along.  The operations are the four statements a store issues
  against a table with a primary key:

    find?     — SELECT … WHERE key = k
    upsert    — INSERT … ON CONFLICT(key) DO UPDATE (the whole row)
    insert?   — INSERT …, refused when the key is taken
    update    — UPDATE … SET f WHERE p  (f keeps the key)

  Main results: `find?_upsert`, `find?_update`, `find?_insert` — one lemma
  per statement saying what every later SELECT sees — and the membership
  lemmas `mem_upsert`, `mem_update`, `mem_insert` for whole-table facts.
-/
import Mathlib.Data.List.Nodup

namespace Hmn.Framework

/-- Rows in insertion order under a primary key. -/
structure Table {ρ κ : Type} (key : ρ → κ) where
  rows : List ρ
  nodup : (rows.map key).Nodup

namespace Table

variable {ρ κ : Type} {key : ρ → κ}

/-- The table with no rows. -/
def empty : Table key := ⟨[], List.nodup_nil⟩

/-- The table with one row. -/
def single (r : ρ) : Table key := ⟨[r], List.nodup_singleton _⟩

@[simp] theorem rows_empty : (empty : Table key).rows = [] := rfl

@[ext] theorem ext {t u : Table key} (h : t.rows = u.rows) : t = u := by
  cases t
  cases u
  cases h
  rfl

/-- Two rows of a table with one key are one row. -/
theorem eq_of_key_eq (t : Table key) {x y : ρ} (hx : x ∈ t.rows)
    (hy : y ∈ t.rows) (h : key x = key y) : x = y :=
  List.inj_on_of_nodup_map t.nodup hx hy h

/-! ## §1. The four statements. -/

/-- Rewrite the rows that satisfy `p` by `f`, which keeps their keys. -/
def update (t : Table key) (p : ρ → Bool) (f : ρ → ρ)
    (hf : ∀ r, key (f r) = key r) : Table key where
  rows := t.rows.map (fun r => if p r then f r else r)
  nodup := by
    have hkey : key ∘ (fun r => if p r then f r else r) = key := by
      funext r
      by_cases hp : p r <;> simp [hp, hf]
    rw [List.map_map, hkey]
    exact t.nodup

theorem mem_update {t : Table key} {p : ρ → Bool} {f : ρ → ρ} {hf} {x : ρ} :
    x ∈ (t.update p f hf).rows ↔
      ∃ r ∈ t.rows, (if p r then f r else r) = x := by
  simp [update]

/-- Only the rows of the table matter for the condition of an UPDATE. -/
theorem update_congr {t : Table key} {p q : ρ → Bool} {f : ρ → ρ} {hf}
    (h : ∀ r ∈ t.rows, p r = q r) : t.update p f hf = t.update q f hf := by
  apply Table.ext
  exact List.map_congr_left (fun r hr => by rw [h r hr])

/-- Two UPDATEs by one function are one, when its results are not updated
again. -/
theorem update_update (t : Table key) (p q : ρ → Bool) (f : ρ → ρ) (hf)
    (hq : ∀ r, q (f r) = false) :
    (t.update p f hf).update q f hf = t.update (fun r => p r || q r) f hf := by
  apply Table.ext
  show List.map _ (List.map _ t.rows) = List.map _ t.rows
  rw [List.map_map]
  apply List.map_congr_left
  intro r _
  by_cases hp : p r <;> simp [hp, hq]

/-- Two UPDATEs by one function are one, when updating a row again changes
nothing. -/
theorem update_again (t : Table key) (p q : ρ → Bool) (f : ρ → ρ) (hf)
    (hq : ∀ r, q (f r) = q r) (hff : ∀ r, f (f r) = f r) :
    (t.update p f hf).update q f hf = t.update (fun r => p r || q r) f hf := by
  apply Table.ext
  show List.map _ (List.map _ t.rows) = List.map _ t.rows
  rw [List.map_map]
  apply List.map_congr_left
  intro r _
  by_cases hp : p r <;> by_cases hqr : q r <;> simp [hp, hqr, hq, hff]

/-- An UPDATE that no row satisfies. -/
theorem update_false (t : Table key) (f : ρ → ρ) (hf) :
    t.update (fun _ => false) f hf = t := by
  apply Table.ext
  simp [update]

@[simp] theorem length_update (t : Table key) (p : ρ → Bool) (f : ρ → ρ) (hf) :
    (t.update p f hf).rows.length = t.rows.length := by
  simp [update]

variable [DecidableEq κ]

/-- The row stored under a key. -/
def find? (t : Table key) (k : κ) : Option ρ :=
  t.rows.find? (fun r => key r = k)

/-- Append a row whose key is free. -/
def append (t : Table key) (r : ρ) (h : t.find? (key r) = none) : Table key where
  rows := t.rows ++ [r]
  nodup := by
    have hfree : key r ∉ t.rows.map key := by
      intro hmem
      obtain ⟨x, hx, hk⟩ := List.mem_map.mp hmem
      have hno := List.find?_eq_none.mp h x hx
      simp [hk] at hno
    rw [List.map_append, List.map_singleton]
    exact List.Nodup.append t.nodup (List.nodup_singleton _)
      (List.disjoint_singleton.mpr hfree)

/-- Insert a row, or replace the row that has its key. -/
def upsert (t : Table key) (r : ρ) : Table key :=
  if h : t.find? (key r) = none then t.append r h
  else
    { rows := t.rows.map (fun x => if key x = key r then r else x)
      nodup := by
        have hkey : key ∘ (fun x => if key x = key r then r else x) = key := by
          funext x
          by_cases hx : key x = key r <;> simp [hx]
        rw [List.map_map, hkey]
        exact t.nodup }

/-- Insert a row unless its key is taken. -/
def insert? (t : Table key) (r : ρ) : Option (Table key) :=
  if h : t.find? (key r) = none then some (t.append r h) else none

/-! ## §2. What a SELECT sees. -/

theorem find?_eq_some {t : Table key} {k : κ} {r : ρ} :
    t.find? k = some r ↔ r ∈ t.rows ∧ key r = k := by
  constructor
  · intro h
    exact ⟨List.mem_of_find?_eq_some h, by simpa using List.find?_some h⟩
  · rintro ⟨hr, rfl⟩
    cases hf : t.find? (key r) with
    | none => simpa using List.find?_eq_none.mp hf r hr
    | some x =>
      have hx := List.mem_of_find?_eq_some hf
      have hk : key x = key r := by simpa using List.find?_some hf
      rw [t.eq_of_key_eq hx hr hk]

theorem find?_eq_none {t : Table key} {k : κ} :
    t.find? k = none ↔ ∀ r ∈ t.rows, key r ≠ k := by
  unfold find?
  rw [List.find?_eq_none]
  simp

theorem key_of_find? {t : Table key} {k : κ} {r : ρ} (h : t.find? k = some r) :
    key r = k := (find?_eq_some.mp h).2

theorem mem_of_find? {t : Table key} {k : κ} {r : ρ} (h : t.find? k = some r) :
    r ∈ t.rows := (find?_eq_some.mp h).1

theorem find?_of_mem {t : Table key} {r : ρ} (h : r ∈ t.rows) :
    t.find? (key r) = some r := find?_eq_some.mpr ⟨h, rfl⟩

/-- A key occurs once. -/
theorem filter_key (t : Table key) (k : κ) :
    t.rows.filter (fun r => key r = k) = (t.find? k).toList := by
  obtain ⟨rows, hnodup⟩ := t
  unfold find?
  simp only
  induction rows with
  | nil => rfl
  | cons r rows ih =>
    obtain ⟨hnew, hrest⟩ := List.nodup_cons.mp hnodup
    by_cases hk : key r = k
    · have hnone : rows.filter (fun r => key r = k) = [] := by
        rw [List.filter_eq_nil_iff]
        intro x hx hxk
        refine hnew (List.mem_map.mpr ⟨x, hx, ?_⟩)
        rw [hk]
        simpa using hxk
      rw [List.filter_cons_of_pos (by simpa using hk), hnone,
        List.find?_cons_of_pos (by simpa using hk)]
      rfl
    · rw [List.filter_cons_of_neg (by simpa using hk), ih hrest,
        List.find?_cons_of_neg (by simpa using hk)]

@[simp] theorem find?_empty (k : κ) : (empty : Table key).find? k = none := rfl

@[simp] theorem rows_append (t : Table key) (r : ρ) (h) :
    (t.append r h).rows = t.rows ++ [r] := rfl

theorem rows_upsert_new {t : Table key} {r : ρ} (h : t.find? (key r) = none) :
    (t.upsert r).rows = t.rows ++ [r] := by
  simp [upsert, h]

theorem rows_upsert_old {t : Table key} {r : ρ} (h : t.find? (key r) ≠ none) :
    (t.upsert r).rows = t.rows.map (fun x => if key x = key r then r else x) := by
  simp [upsert, h]

theorem mem_upsert {t : Table key} {r x : ρ} :
    x ∈ (t.upsert r).rows ↔ x = r ∨ (x ∈ t.rows ∧ key x ≠ key r) := by
  by_cases h : t.find? (key r) = none
  · have hfree := find?_eq_none.mp h
    rw [rows_upsert_new h, List.mem_append, List.mem_singleton]
    constructor
    · rintro (hx | hx)
      · exact Or.inr ⟨hx, hfree x hx⟩
      · exact Or.inl hx
    · rintro (hx | ⟨hx, -⟩)
      · exact Or.inr hx
      · exact Or.inl hx
  · obtain ⟨old, hold⟩ := Option.ne_none_iff_exists'.mp h
    obtain ⟨hmem, hkey⟩ := find?_eq_some.mp hold
    rw [rows_upsert_old h, List.mem_map]
    constructor
    · rintro ⟨y, hy, rfl⟩
      by_cases hyk : key y = key r
      · exact Or.inl (by simp [hyk])
      · exact Or.inr (by simp [hyk, hy])
    · rintro (rfl | ⟨hx, hxk⟩)
      · exact ⟨old, hmem, by simp [hkey]⟩
      · exact ⟨x, hx, by simp [hxk]⟩

/-- **What every SELECT sees after an upsert.** -/
theorem find?_upsert (t : Table key) (r : ρ) (k : κ) :
    (t.upsert r).find? k = if key r = k then some r else t.find? k := by
  by_cases hk : key r = k
  · rw [if_pos hk]
    exact find?_eq_some.mpr ⟨mem_upsert.mpr (Or.inl rfl), hk⟩
  · rw [if_neg hk]
    apply Option.ext
    intro x
    rw [find?_eq_some, find?_eq_some, mem_upsert]
    constructor
    · rintro ⟨rfl | ⟨hx, -⟩, hxk⟩
      · exact absurd hxk hk
      · exact ⟨hx, hxk⟩
    · rintro ⟨hx, hxk⟩
      exact ⟨Or.inr ⟨hx, fun h => hk (h ▸ hxk)⟩, hxk⟩

@[simp] theorem find?_upsert_self (t : Table key) (r : ρ) :
    (t.upsert r).find? (key r) = some r := by
  simp [find?_upsert]

theorem find?_upsert_of_ne (t : Table key) {r : ρ} {k : κ} (h : key r ≠ k) :
    (t.upsert r).find? k = t.find? k := by
  simp [find?_upsert, h]

/-- The second of two upserts of one key is the one that stays. -/
theorem upsert_upsert (t : Table key) {r r' : ρ} (h : key r = key r') :
    (t.upsert r).upsert r' = t.upsert r' := by
  apply Table.ext
  have hold : (t.upsert r).find? (key r') ≠ none := by
    rw [find?_upsert, if_pos h]
    exact Option.some_ne_none r
  rw [rows_upsert_old hold]
  by_cases hfree : t.find? (key r) = none
  · have hother : ∀ x ∈ t.rows, (if key x = key r' then r' else x) = x :=
      fun x hx => if_neg (h ▸ find?_eq_none.mp hfree x hx)
    rw [rows_upsert_new hfree, rows_upsert_new (h ▸ hfree), List.map_append,
      List.map_congr_left hother]
    simp [h]
  · rw [rows_upsert_old hfree, rows_upsert_old (h ▸ hfree), List.map_map]
    apply List.map_congr_left
    intro x _
    by_cases hx : key x = key r' <;> simp [h, hx]

/-- Rows with the property `p` and the same value of `f` are one row. -/
def Distinguishes {β : Type} (t : Table key) (p : ρ → Prop) (f : ρ → β) : Prop :=
  ∀ x ∈ t.rows, ∀ y ∈ t.rows, p x → p y → f x = f y → key x = key y

instance {β : Type} [DecidableEq β] (t : Table key) (p : ρ → Prop) [DecidablePred p] (f : ρ → β) :
    Decidable (t.Distinguishes p f) := by
  unfold Distinguishes
  infer_instance

/-- **An upsert keeps rows apart** exactly when the new row lacks the property
or no other row with the property has its value. -/
theorem distinguishes_upsert {β : Type} {t : Table key} {p : ρ → Prop} {f : ρ → β}
    (h : t.Distinguishes p f) (r : ρ) :
    (t.upsert r).Distinguishes p f
      ↔ (p r → ∀ x ∈ t.rows, p x → f x = f r → key x = key r) := by
  constructor
  · intro hnew hr x hx hpx hf
    by_contra hkey
    exact hkey (hnew x (mem_upsert.mpr (Or.inr ⟨hx, hkey⟩)) r (mem_upsert.mpr (Or.inl rfl)) hpx hr hf)
  · intro hfree x hx y hy hpx hpy hf
    rcases mem_upsert.mp hx with rfl | ⟨hxt, hxk⟩
    · rcases mem_upsert.mp hy with rfl | ⟨hyt, hyk⟩
      · rfl
      · exact (hfree hpx y hyt hpy hf.symm).symm
    · rcases mem_upsert.mp hy with rfl | ⟨hyt, hyk⟩
      · exact hfree hpy x hxt hpx hf
      · exact h x hxt y hyt hpx hpy hf

/-- **What every SELECT sees after an UPDATE.** -/
theorem find?_update (t : Table key) (p : ρ → Bool) (f : ρ → ρ) (hf) (k : κ) :
    (t.update p f hf).find? k
      = (t.find? k).map (fun r => if p r then f r else r) := by
  unfold find? update
  rw [List.find?_map]
  congr 1
  congr 1
  funext r
  by_cases hp : p r <;> simp [hp, hf]

theorem insert?_eq_some {t u : Table key} {r : ρ} :
    t.insert? r = some u ↔ t.find? (key r) = none ∧ u.rows = t.rows ++ [r] := by
  unfold insert?
  by_cases h : t.find? (key r) = none
  · simp only [h, dif_pos, Option.some.injEq, true_and]
    exact ⟨fun hu => hu ▸ rfl, fun hu => Table.ext hu.symm⟩
  · simp [h]

/-- **What every SELECT sees after an INSERT that was accepted.** -/
theorem find?_insert {t u : Table key} {r : ρ} (h : t.insert? r = some u) (k : κ) :
    u.find? k = if key r = k then some r else t.find? k := by
  obtain ⟨hfree, hrows⟩ := insert?_eq_some.mp h
  have hu : u = t.upsert r := Table.ext (by rw [hrows, rows_upsert_new hfree])
  rw [hu, find?_upsert]

theorem mem_insert {t u : Table key} {r x : ρ} (h : t.insert? r = some u) :
    x ∈ u.rows ↔ x ∈ t.rows ∨ x = r := by
  rw [(insert?_eq_some.mp h).2, List.mem_append, List.mem_singleton]

/-! ## §3. Many upserts. -/

/-- A row comes from the table or from the rows put in. -/
theorem mem_foldl_upsert {t : Table key} {rs : List ρ} {x : ρ}
    (h : x ∈ (rs.foldl upsert t).rows) : x ∈ t.rows ∨ x ∈ rs := by
  induction rs generalizing t with
  | nil => exact Or.inl h
  | cons r rs ih =>
    rcases ih h with hx | hx
    · rcases mem_upsert.mp hx with rfl | ⟨hx, -⟩
      · exact Or.inr List.mem_cons_self
      · exact Or.inl hx
    · exact Or.inr (List.mem_cons_of_mem r hx)

/-- A row stays under keys other than its own. -/
theorem mem_foldl_upsert_of_ne {t : Table key} {rs : List ρ} {x : ρ} (h : x ∈ t.rows)
    (hne : ∀ r ∈ rs, key x ≠ key r) : x ∈ (rs.foldl upsert t).rows := by
  induction rs generalizing t with
  | nil => exact h
  | cons r rs ih =>
    obtain ⟨hr, hrs⟩ := List.forall_mem_cons.mp hne
    exact ih (mem_upsert.mpr (Or.inr ⟨h, hr⟩)) hrs

/-- A key that was put in is there. -/
theorem exists_find?_foldl_upsert {t : Table key} {rs : List ρ} {k : κ}
    (h : t.find? k ≠ none ∨ ∃ r ∈ rs, key r = k) : ∃ x, (rs.foldl upsert t).find? k = some x := by
  induction rs generalizing t with
  | nil =>
    rcases h with h | ⟨r, hr, -⟩
    · exact Option.ne_none_iff_exists'.mp h
    · cases hr
  | cons r rs ih =>
    refine ih ?_
    rw [find?_upsert]
    by_cases hk : key r = k
    · exact Or.inl (by rw [if_pos hk]; exact nofun)
    · rw [if_neg hk]
      refine h.imp id ?_
      rintro ⟨x, hx, rfl⟩
      rcases List.mem_cons.mp hx with rfl | hx
      · exact absurd rfl hk
      · exact ⟨x, hx, rfl⟩

/-- **Of the rows put in under a key, the last one is there.** -/
theorem find?_foldl_upsert {t : Table key} {rs : List ρ} {k : κ} {r : ρ} :
    (rs.foldl upsert t).find? k = some r ↔
      (∃ before after, rs = before ++ r :: after ∧ key r = k ∧ ∀ x ∈ after, key x ≠ k)
        ∨ ((∀ x ∈ rs, key x ≠ k) ∧ t.find? k = some r) := by
  induction rs generalizing t with
  | nil => simp
  | cons x rs ih =>
    rw [List.foldl_cons, ih, find?_upsert]
    constructor
    · rintro (⟨before, after, rfl, hr, hafter⟩ | ⟨hnone, hfind⟩)
      · exact Or.inl ⟨x :: before, after, rfl, hr, hafter⟩
      · by_cases hx : key x = k
        · rw [if_pos hx] at hfind
          obtain rfl := Option.some.inj hfind
          exact Or.inl ⟨[], rs, rfl, hx, hnone⟩
        · rw [if_neg hx] at hfind
          exact Or.inr ⟨List.forall_mem_cons.mpr ⟨hx, hnone⟩, hfind⟩
    · rintro (⟨before, after, heq, hr, hafter⟩ | ⟨hnone, hfind⟩)
      · cases before with
        | nil =>
          obtain ⟨rfl, rfl⟩ := List.cons.inj heq
          exact Or.inr ⟨hafter, if_pos hr⟩
        | cons y before =>
          obtain ⟨rfl, rfl⟩ := List.cons.inj heq
          exact Or.inl ⟨before, after, rfl, hr, hafter⟩
      · obtain ⟨hx, hnone⟩ := List.forall_mem_cons.mp hnone
        exact Or.inr ⟨hnone, by rw [if_neg hx, hfind]⟩

/-- Upserts commute with a change of the rows that keeps their keys apart. -/
theorem rows_foldl_upsert_map {ρ' κ' : Type} [DecidableEq κ'] {key' : ρ' → κ'} {f : ρ → ρ'}
    (hf : ∀ x y, key' (f x) = key' (f y) ↔ key x = key y) (rs : List ρ) {t : Table key}
    {t' : Table key'} (h : t'.rows = t.rows.map f) :
    ((rs.map f).foldl upsert t').rows = (rs.foldl upsert t).rows.map f := by
  induction rs generalizing t t' with
  | nil => exact h
  | cons r rs ih =>
    refine ih ?_
    by_cases hfree : t.find? (key r) = none
    · have hfree' : t'.find? (key' (f r)) = none := by
        refine find?_eq_none.mpr fun y hy heq => ?_
        rw [h] at hy
        obtain ⟨x, hx, rfl⟩ := List.mem_map.mp hy
        exact find?_eq_none.mp hfree x hx ((hf x r).mp heq)
      rw [rows_upsert_new hfree', rows_upsert_new hfree, h, List.map_append, List.map_singleton]
    · have hold : t'.find? (key' (f r)) ≠ none := by
        obtain ⟨x, hx⟩ := Option.ne_none_iff_exists'.mp hfree
        obtain ⟨hmem, hkey⟩ := find?_eq_some.mp hx
        have hmem' : f x ∈ t'.rows := by
          rw [h]
          exact List.mem_map_of_mem hmem
        rw [← (hf x r).mpr hkey, find?_of_mem hmem']
        exact nofun
      rw [rows_upsert_old hold, rows_upsert_old hfree, h, List.map_map, List.map_map]
      refine List.map_congr_left fun x _ => ?_
      by_cases hx : key x = key r
      · simp [hx, (hf x r).mpr hx]
      · simp [hx, (hf x r).not.mpr hx]

end Table

end Hmn.Framework
