/-
  Hmn.Store.StoredTime — instants are stored as texts and read back.

  `_dt` writes the text of an instant and `_parse_dt` reads it.  The text
  says the instant exactly, and texts are ordered like instants, so that the
  statements of the database, which compare texts, select and order rows as
  comparing the instants does.

  Main results: `fromisoformat_isoformat`, `stored_times_sort`.
-/
import Hmn.Join.Stores
import Hmn.Store.IsoOrder

namespace Hmn.Timestamp

open Framework.Lexical

/-! ## §1. Reading a text. -/

/-- A number of exactly `width` digits behind those of `acc`, and the rest. -/
def takeNumber : Nat → Nat → List Char → Option (Nat × List Char)
  | 0, acc, cs => some (acc, cs)
  | _ + 1, _, [] => none
  | width + 1, acc, c :: cs =>
    if c.isDigit then takeNumber width (10 * acc + (c.toNat - 48)) cs else none

/-- What follows one given character. -/
def skip (c : Char) : List Char → Option (List Char)
  | [] => none
  | d :: cs => if d = c then some cs else none

/-- The days that precede a date. -/
def ordinal (year month day : Nat) : Nat :=
  daysBeforeYear (year - 1) + daysBeforeMonth month
    + (if month > 2 ∧ LeapYear (year - 1) then 1 else 0) + (day - 1)

/-- A date of the calendar that a datetime can hold. -/
def ValidDate (year month day : Nat) : Prop :=
  (1 ≤ year ∧ year ≤ 9999) ∧ (1 ≤ month ∧ month ≤ 12)
    ∧ 1 ≤ day ∧ day ≤ daysInMonth (LeapYear (year - 1)) month

instance (year month day : Nat) : Decidable (ValidDate year month day) := by
  unfold ValidDate
  infer_instance

/-- `YYYY-MM-DD`, as the days that precede it. -/
def takeDate (cs : List Char) : Option (Nat × List Char) := do
  let (year, cs) ← takeNumber 4 0 cs
  let cs ← skip '-' cs
  let (month, cs) ← takeNumber 2 0 cs
  let cs ← skip '-' cs
  let (day, cs) ← takeNumber 2 0 cs
  if ValidDate year month day then some (ordinal year month day, cs) else none

/-- `HH:MM:SS`, as the second of the day. -/
def takeTime (cs : List Char) : Option (Nat × List Char) := do
  let (hour, cs) ← takeNumber 2 0 cs
  let cs ← skip ':' cs
  let (minute, cs) ← takeNumber 2 0 cs
  let cs ← skip ':' cs
  let (second, cs) ← takeNumber 2 0 cs
  if hour < 24 ∧ minute < 60 ∧ second < 60 then some (hour * 3600 + minute * 60 + second, cs)
  else none

/-- The microseconds, where they are written. -/
def takeFraction : List Char → Option (Nat × List Char)
  | '.' :: cs => takeNumber 6 0 cs
  | cs => some (0, cs)

/-- The offset from UTC, in minutes. -/
def utcOffset : List Char → Option Int
  | [] => none
  | sign :: cs => do
    let (hour, cs) ← takeNumber 2 0 cs
    let cs ← skip ':' cs
    let (minute, cs) ← takeNumber 2 0 cs
    if ¬ cs.isEmpty ∨ 24 ≤ hour ∨ 60 ≤ minute then none
    else if sign = '+' then some (hour * 60 + minute)
    else if sign = '-' then some (-(hour * 60 + minute))
    else none

/-- `datetime.fromisoformat(value)` of a text that has a date, a time with
seconds and an offset, the form that `isoformat` writes. -/
def fromisoformat (value : String) : Option Timestamp := do
  let (day, cs) ← takeDate value.toList
  let cs ← skip 'T' cs
  let (second, cs) ← takeTime cs
  let (us, cs) ← takeFraction cs
  let offset ← utcOffset cs
  return (((day * 86400 + second) * 1000000 + us : Nat) : Int) - seconds (offset * 60)

/-- `_dt`. -/
def dt (value : Option Timestamp) : Option String := value.map isoformat

/-- `_parse_dt`; nothing when it does not read the text. -/
def parseDt : Option String → Option (Option Timestamp)
  | none => some none
  | some value => if value = "" then some none else (fromisoformat value).map some

/-! ## §2. Reading the fields back. -/

/-- One digit more. -/
theorem takeNumber_snoc {width acc m : Nat} {cs rest : List Char} {c : Char}
    (h : takeNumber width acc cs = some (m, c :: rest)) (hc : c.isDigit = true) :
    takeNumber (width + 1) acc cs = some (10 * m + (c.toNat - 48), rest) := by
  induction width generalizing acc cs with
  | zero =>
    rw [takeNumber, Option.some_inj, Prod.mk.injEq] at h
    obtain ⟨rfl, rfl⟩ := h
    rw [takeNumber, if_pos hc, takeNumber]
  | succ width ih =>
    cases cs with
    | nil => cases h
    | cons d cs =>
      rw [takeNumber] at h ⊢
      by_cases hd : d.isDigit = true
      · rw [if_pos hd] at h ⊢
        exact ih h
      · rw [if_neg hd] at h
        cases h

theorem digitChar_isDigit : ∀ n < 10,
    (Nat.digitChar n).isDigit = true ∧ (Nat.digitChar n).toNat - 48 = n := by
  decide

/-- **A field of fixed width is read as its number.** -/
theorem takeNumber_decimal {width n : Nat} (hn : n < 10 ^ width) (rest : List Char) :
    takeNumber width 0 (decimal width n ++ rest) = some (n, rest) := by
  induction width generalizing n rest with
  | zero =>
    rw [Nat.pow_zero] at hn
    rw [decimal, List.nil_append, takeNumber, show n = 0 by omega]
  | succ width ih =>
    have hhigh : n / 10 < 10 ^ width := by
      rw [Nat.div_lt_iff_lt_mul (by decide)]
      rwa [Nat.pow_succ] at hn
    obtain ⟨hdigit, hvalue⟩ := digitChar_isDigit (n % 10) (Nat.mod_lt _ (by decide))
    rw [decimal, List.append_assoc, List.singleton_append, takeNumber_snoc (ih hhigh _) hdigit,
      hvalue, Nat.div_add_mod]

theorem skip_cons (c : Char) (cs : List Char) : skip c (c :: cs) = some cs := if_pos rfl

/-- A day of the year is the one of its month and day. -/
theorem monthDay_ordinal : ∀ leap : Bool, ∀ day < if leap then 366 else 365,
    (1 ≤ (monthDay leap day).1 ∧ (monthDay leap day).1 ≤ 12)
    ∧ (1 ≤ (monthDay leap day).2
      ∧ (monthDay leap day).2 ≤ daysInMonth leap (monthDay leap day).1)
    ∧ daysBeforeMonth (monthDay leap day).1
        + (if (monthDay leap day).1 > 2 ∧ leap = true then 1 else 0)
        + ((monthDay leap day).2 - 1) = day := by
  decide +kernel

/-- **The calendar is read back**: a day has a date, and the date is of that
day. -/
theorem civil_ordinal {n : Nat} (hn : n < dayLimit) :
    ValidDate (civil n).1 (civil n).2.1 (civil n).2.2
    ∧ ordinal (civil n).1 (civil n).2.1 (civil n).2.2 = n := by
  have hrange := civil_range hn
  obtain ⟨y, day, hcivil, hday, hlen⟩ := civil_spec n
  rw [hcivil] at hrange ⊢
  have hlen' : day < if decide (LeapYear y) = true then 366 else 365 := by simpa using hlen
  obtain ⟨hmonth, hdate, hsum⟩ := monthDay_ordinal (decide (LeapYear y)) day hlen'
  simp only [decide_eq_true_eq] at hsum
  constructor
  · refine ⟨⟨Nat.le_add_left 1 y, ?_⟩, hmonth, ?_⟩
    · have hyear : y + 1 < 10 ^ 4 := hrange.1
      omega
    · exact hdate
  · dsimp only [ordinal]
    rw [Nat.add_sub_cancel]
    omega

theorem takeDate_dateText {n : Nat} (hn : n < dayLimit) (rest : List Char) :
    takeDate (dateText n ++ rest) = some (n, rest) := by
  obtain ⟨hyear, hmonth, hday⟩ := civil_range hn
  obtain ⟨hvalid, hordinal⟩ := civil_ordinal hn
  rw [dateText, List.append_assoc, List.cons_append, List.append_assoc, List.cons_append]
  simp only [takeDate, takeNumber_decimal hyear, takeNumber_decimal hmonth,
    takeNumber_decimal hday, skip_cons, Option.bind_eq_bind, Option.bind_some]
  rw [if_pos hvalid, hordinal]

theorem takeTime_timeText {s : Nat} (hs : s < 86400) (rest : List Char) :
    takeTime (timeText s ++ rest) = some (s, rest) := by
  have hhour : s / 3600 < 10 ^ 2 := by omega
  have hminute : s / 60 % 60 < 10 ^ 2 := by omega
  have hsecond : s % 60 < 10 ^ 2 := by omega
  rw [timeText, List.append_assoc, List.cons_append, List.append_assoc, List.cons_append]
  simp only [takeTime, takeNumber_decimal hhour, takeNumber_decimal hminute,
    takeNumber_decimal hsecond, skip_cons, Option.bind_eq_bind, Option.bind_some]
  have hsum : s / 3600 * 3600 + s / 60 % 60 * 60 + s % 60 = s := by omega
  rw [if_pos (by omega), hsum]

/-- The microseconds are read where they are written, and are zero where they
are not. -/
theorem takeFraction_fractionText {us : Nat} (hus : us < 10 ^ 6) :
    takeFraction (fractionText us) = some (us, ['+', '0', '0', ':', '0', '0']) := by
  rw [fractionText]
  by_cases hzero : us = 0
  · rw [if_pos hzero, hzero]
    rfl
  · rw [if_neg hzero, List.cons_append, takeFraction, takeNumber_decimal hus]

/-- **The text of an instant is read as the instant.** -/
theorem fromisoformat_isoformat {t : Timestamp} (ht : t.Representable) :
    fromisoformat t.isoformat = some t := by
  have hfraction := takeFraction_fractionText
    (show t.toNat % 1000000 < 10 ^ 6 from Nat.mod_lt _ (by decide))
  have hoffset : utcOffset ['+', '0', '0', ':', '0', '0'] = some 0 := by decide
  have hsum : (t.toNat / 1000000 / 86400 * 86400 + t.toNat / 1000000 % 86400) * 1000000
      + t.toNat % 1000000 = t.toNat := by omega
  have hnat : (t.toNat : Int) = t := Int.toNat_of_nonneg ht.1
  have htime := fun rest => takeTime_timeText (Nat.mod_lt (t.toNat / 1000000)
    (show 86400 > 0 by decide)) rest
  simp only [fromisoformat, toList_isoformat ht, takeDate_dateText ht.2, htime, hfraction,
    hoffset, skip_cons, Option.bind_eq_bind, Option.bind_some, Option.pure_def, hsum, hnat]
  simp [seconds]

theorem isoformat_ne_empty {t : Timestamp} (ht : t.Representable) : t.isoformat ≠ "" := by
  intro hempty
  have htext := fromisoformat_isoformat ht
  rw [hempty] at htext
  cases htext

/-- **`_parse_dt` undoes `_dt`.** -/
theorem parseDt_dt {t : Option Timestamp} (ht : ∀ u ∈ t, u.Representable) :
    parseDt (dt t) = some t := by
  cases t with
  | none => rfl
  | some u =>
    have hu := ht u rfl
    rw [dt, Option.map_some, parseDt, if_neg (isoformat_ne_empty hu), fromisoformat_isoformat hu]
    rfl

theorem isoformat_le_iff {t u : Timestamp} (ht : t.Representable) (hu : u.Representable) :
    t.isoformat ≤ u.isoformat ↔ t ≤ u := by
  rw [← not_lt, ← not_lt, isoformat_lt_iff hu ht]

theorem isoformat_inj {t u : Timestamp} (ht : t.Representable) (hu : u.Representable) :
    t.isoformat = u.isoformat ↔ t = u := by
  rw [le_antisymm_iff, le_antisymm_iff, isoformat_le_iff ht hu, isoformat_le_iff hu ht]

end Hmn.Timestamp

namespace Hmn

open Timestamp

/-- A UTC datetime of the years 1 to 9999. -/
abbrev UtcDatetime := {t : Timestamp // t.Representable}

namespace Store

/-! ## §3. Statements that compare texts. -/

/-- The rows `expire_stuck_tasks` selects, by the stored texts. -/
def stuckRow (cutoff : Timestamp) (t : Task) : Bool :=
  t.status = .running && t.executor = "worker" &&
    match dt t.leaseExpiresAt with
    | some lease => decide (lease ≤ cutoff.isoformat)
    | none => false

/-- `ORDER BY lease_expires_at, created_at`, by the stored texts of rows that
have a lease. -/
def leaseRowOrder (a b : Task) : Prop :=
  (dt a.leaseExpiresAt).getD "" < (dt b.leaseExpiresAt).getD ""
    ∨ (dt a.leaseExpiresAt).getD "" = (dt b.leaseExpiresAt).getD ""
      ∧ a.createdAt.isoformat ≤ b.createdAt.isoformat

instance (a b : Task) : Decidable (leaseRowOrder a b) := by
  unfold leaseRowOrder
  infer_instance

/-- `expire_stuck_tasks`, with the statement on the stored texts. -/
def expireStuckRows (s : Store) (olderThanSeconds : Option Int) (now : Timestamp) :
    List String × Store :=
  let rows := (s.tasks.rows.filter (stuckRow (cutoff olderThanSeconds now))).insertionSort
    leaseRowOrder
  (rows.map Task.taskId, rows.foldl (expireOne now) s)

theorem withExpired_value (token : JoinToken) : (withExpired token).value = token.value := rfl

/-- `expire_pending_tokens`, with datetimes compared. -/
def expirePendingInstants (now : Timestamp) (s : Store) : List String × Store :=
  let rows := s.tokens.rows.filter fun token => token.status = .pending ∧ token.expiresAt < now
  let values := (rows.insertionSort fun a b => b.createdAt ≤ a.createdAt).map JoinToken.value
  (values,
    { s with tokens := s.tokens.update (fun row => row.value ∈ values) withExpired withExpired_value })

/-- Every instant that a row holds is one of a datetime. -/
structure StoredInstants (s : Store) : Prop where
  task : ∀ t ∈ s.tasks.rows, t.createdAt.Representable
  lease : ∀ t ∈ s.tasks.rows, ∀ lease ∈ t.leaseExpiresAt, lease.Representable
  token : ∀ token ∈ s.tokens.rows, token.createdAt.Representable
  expiry : ∀ token ∈ s.tokens.rows, token.expiresAt.Representable

/-- Rows are sorted alike by orders that agree on them. -/
theorem insertionSort_agree {ρ : Type} {r q : ρ → ρ → Prop} [DecidableRel r] [DecidableRel q]
    {rows : List ρ} (h : ∀ a ∈ rows, ∀ b ∈ rows, (r a b ↔ q a b)) :
    rows.insertionSort r = rows.insertionSort q := by
  have hmap := List.map_insertionSort r q id rows h
  rwa [List.map_id, List.map_id] at hmap

/-- **Ordering by a stored instant** is ordering by the instant, upwards and
downwards. -/
theorem orderBy_instant {ρ : Type} (key : ρ → UtcDatetime) (rows : List ρ) :
    rows.insertionSort (fun a b => (key a).val.isoformat ≤ (key b).val.isoformat)
        = rows.insertionSort (fun a b => (key a).val ≤ (key b).val)
    ∧ rows.insertionSort (fun a b => (key b).val.isoformat ≤ (key a).val.isoformat)
        = rows.insertionSort (fun a b => (key b).val ≤ (key a).val) :=
  ⟨insertionSort_agree fun a _ b _ => isoformat_le_iff (key a).property (key b).property,
    insertionSort_agree fun a _ b _ => isoformat_le_iff (key b).property (key a).property⟩

theorem stuckRow_eq {s : Store} (hs : s.StoredInstants) {until_ : Timestamp}
    (huntil : until_.Representable) {t : Task} (ht : t ∈ s.tasks.rows) :
    stuckRow until_ t = stuck until_ t := by
  have hlease := hs.lease t ht
  rw [stuckRow, stuck]
  cases h : t.leaseExpiresAt with
  | none => rfl
  | some lease =>
    rw [dt, Option.map_some]
    dsimp only
    rw [decide_eq_decide.mpr (isoformat_le_iff (hlease lease h) huntil)]

/-- Rows with a lease are ordered by their texts as by their instants. -/
theorem leaseRowOrder_iff {s : Store} (hs : s.StoredInstants) {until_ : Timestamp} {a b : Task}
    (ha : a ∈ s.tasks.rows.filter (stuck until_)) (hb : b ∈ s.tasks.rows.filter (stuck until_)) :
    leaseRowOrder a b ↔ leaseOrder a b := by
  obtain ⟨harow, hastuck⟩ := List.mem_filter.mp ha
  obtain ⟨hbrow, hbstuck⟩ := List.mem_filter.mp hb
  rw [stuck] at hastuck hbstuck
  cases halease : a.leaseExpiresAt with
  | none => simp [halease] at hastuck
  | some lease =>
    cases hblease : b.leaseExpiresAt with
    | none => simp [hblease] at hbstuck
    | some lease' =>
      have hl := hs.lease a harow lease halease
      have hl' := hs.lease b hbrow lease' hblease
      simp only [leaseRowOrder, leaseOrder, halease, hblease, dt, Option.map_some,
        Option.getD_some, isoformat_lt_iff hl hl', isoformat_inj hl hl',
        isoformat_le_iff (hs.task a harow) (hs.task b hbrow)]

/-- **The watchdog's statement** selects, in this order, what comparing
datetimes does. -/
theorem expireStuckRows_eq {s : Store} (hs : s.StoredInstants) {olderThanSeconds : Option Int}
    {now : Timestamp} (hcutoff : (cutoff olderThanSeconds now).Representable) :
    s.expireStuckRows olderThanSeconds now = s.expireStuckTasks olderThanSeconds now := by
  have hfilter : s.tasks.rows.filter (stuckRow (cutoff olderThanSeconds now))
      = s.tasks.rows.filter (stuck (cutoff olderThanSeconds now)) :=
    List.filter_congr fun t ht => stuckRow_eq hs hcutoff ht
  have hsort : (s.tasks.rows.filter (stuck (cutoff olderThanSeconds now))).insertionSort
        leaseRowOrder
      = (s.tasks.rows.filter (stuck (cutoff olderThanSeconds now))).insertionSort leaseOrder :=
    insertionSort_agree fun a ha b hb => leaseRowOrder_iff hs ha hb
  rw [expireStuckRows, hfilter, hsort]
  rfl

/-- **The statement on tokens**, likewise. -/
theorem expirePendingTokens_eq {s : Store} (hs : s.StoredInstants) {now : Timestamp}
    (hnow : now.Representable) : s.expirePendingTokens now = s.expirePendingInstants now := by
  -- The selection compares the expiry as text, the order the creation.
  have hfilter : s.tokens.rows.filter (lapsedRow now)
      = s.tokens.rows.filter fun token => token.status = .pending ∧ token.expiresAt < now :=
    List.filter_congr fun token htoken =>
      decide_eq_decide.mpr (and_congr_right fun _ => isoformat_lt_iff (hs.expiry token htoken) hnow)
  have hsort : newestFirst (s.tokens.rows.filter (lapsedRow now))
      = (s.tokens.rows.filter (lapsedRow now)).insertionSort
          (fun a b => b.createdAt ≤ a.createdAt) :=
    insertionSort_agree fun a ha b hb => isoformat_le_iff
      (hs.token b (List.mem_filter.mp hb).1) (hs.token a (List.mem_filter.mp ha).1)
  rw [expirePendingTokens, expirePendingInstants, hsort, hfilter]

/-- **Stored timestamps sort like time.**  For all UTC datetimes of the years
1 to 9999: the order of the texts of `_dt` is the order of the datetimes,
`_parse_dt` undoes `_dt`, ordering rows by a stored instant is ordering them
by the instant, and the statements on leases and on tokens do what comparing
datetimes does. -/
theorem stored_times_sort :
    (∀ a b : UtcDatetime, (a.val.isoformat < b.val.isoformat ↔ a.val < b.val)
      ∧ (a.val.isoformat ≤ b.val.isoformat ↔ a.val ≤ b.val)
      ∧ (a.val.isoformat = b.val.isoformat ↔ a.val = b.val))
    ∧ (∀ a : Option UtcDatetime, parseDt (dt (a.map Subtype.val)) = some (a.map Subtype.val))
    ∧ (∀ (ρ : Type) (key : ρ → UtcDatetime) (rows : List ρ),
        rows.insertionSort (fun a b => (key a).val.isoformat ≤ (key b).val.isoformat)
            = rows.insertionSort (fun a b => (key a).val ≤ (key b).val)
        ∧ rows.insertionSort (fun a b => (key b).val.isoformat ≤ (key a).val.isoformat)
            = rows.insertionSort (fun a b => (key b).val ≤ (key a).val))
    ∧ ∀ s : Store, s.StoredInstants → ∀ now : UtcDatetime,
        s.expirePendingTokens now.val = s.expirePendingInstants now.val
        ∧ ∀ olderThanSeconds, (cutoff olderThanSeconds now.val).Representable →
          s.expireStuckRows olderThanSeconds now.val
            = s.expireStuckTasks olderThanSeconds now.val := by
  refine ⟨fun a b => ⟨?_, ?_, ?_⟩, fun a => parseDt_dt ?_, fun ρ key rows => ?_, ?_⟩
  · exact isoformat_lt_iff a.property b.property
  · exact isoformat_le_iff a.property b.property
  · exact isoformat_inj a.property b.property
  · intro u hu
    obtain ⟨v, -, rfl⟩ := Option.map_eq_some_iff.mp hu
    exact v.property
  · exact orderBy_instant key rows
  · exact fun s hs now =>
      ⟨expirePendingTokens_eq hs now.property, fun _ hcutoff => expireStuckRows_eq hs hcutoff⟩

/-- A pending token. -/
def lapsingToken (value : String) (createdAt expiresAt : Timestamp) : JoinToken where
  value
  trustLevel := "B"
  labels := []
  createdAt
  expiresAt

/-- Two tokens: one expires at a full second, the other a microsecond later. -/
def lapsingStore : Store :=
  { Store.empty with
    tokens := (Framework.Table.single (lapsingToken "t1" 0 5000000)).upsert
      (lapsingToken "t2" 250000 5000001) }

/-- A microsecond after the full second the first token has expired: the `+`
of its zone stands before the `.` of the other's fraction. -/
theorem lapsing_tokens_sort : lapsingStore.StoredInstants
    ∧ Timestamp.isoformat 5000000 = "0001-01-01T00:00:05+00:00"
    ∧ Timestamp.isoformat 5000001 = "0001-01-01T00:00:05.000001+00:00"
    ∧ (lapsingStore.expirePendingTokens 5000001).1 = ["t1"] := by
  have htokens : lapsingStore.tokens.rows
      = [lapsingToken "t1" 0 5000000, lapsingToken "t2" 250000 5000001] := by decide +kernel
  have hstored : lapsingStore.StoredInstants := by
    refine ⟨fun t ht => absurd ht List.not_mem_nil, fun t ht => absurd ht List.not_mem_nil, ?_, ?_⟩
    · rw [htokens]
      decide +kernel
    · rw [htokens]
      decide +kernel
  have hnow : Representable 5000001 := by decide +kernel
  have hinstants : (lapsingStore.expirePendingInstants 5000001).1 = ["t1"] := by
    unfold expirePendingInstants
    rw [htokens]
    decide +kernel
  have hsame := (stored_times_sort.2.2.2 lapsingStore hstored ⟨5000001, hnow⟩).1
  exact ⟨hstored, by decide +kernel, by decide +kernel, (congrArg Prod.fst hsame).trans hinstants⟩

end Store

end Hmn
