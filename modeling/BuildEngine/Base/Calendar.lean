import BuildEngine.Base.JsonRoundTrip
import BuildEngine.Base.Replace

/-! # The calendar

Datetimes of the proleptic Gregorian calendar in UTC, with microseconds. `DateTime.instant` counts the microseconds
from the beginning of the year 1, `DateTime.isoformat` is the ISO text in milliseconds. Both order datetimes field by
field: the count of milliseconds (`milliseconds_lt_iff`) and the text without the offset (`body_append_le`), whose
fields have a fixed number of digits. -/

namespace BuildEngine.Base.Calendar

open BuildEngine.Base

/-! ### Days -/

/-- `_is_leap` -/
def isLeap (year : ℕ) : Bool := year % 4 = 0 && (year % 100 ≠ 0 || year % 400 = 0)

/-- `_days_in_month` -/
def daysInMonth (year month : ℕ) : ℕ :=
  if month = 2 then if isLeap year then 29 else 28
  else if month ∈ [4, 6, 9, 11] then 30
  else 31

/-- `_days_before_year`: the days before January 1 of the year. -/
def daysBeforeYear (year : ℕ) : ℕ :=
  let y := year - 1
  y * 365 + y / 4 - y / 100 + y / 400

/-- `_days_before_month`: the days of the year before the first of the month. -/
def daysBeforeMonth (year : ℕ) : ℕ → ℕ
  | 0 => 0
  | 1 => 0
  | month + 2 => daysBeforeMonth year (month + 1) + daysInMonth year (month + 1)

/-- `date.toordinal`: January 1 of the year 1 is day 1. -/
def toordinal (year month day : ℕ) : ℕ := daysBeforeYear year + daysBeforeMonth year month + day

/-! ### Datetimes -/

/-- A `datetime` in UTC. -/
structure DateTime where
  year : ℕ
  month : ℕ
  day : ℕ
  hour : ℕ
  minute : ℕ
  second : ℕ
  microsecond : ℕ
  year_pos : 1 ≤ year
  year_le : year ≤ 9999
  month_pos : 1 ≤ month
  month_le : month ≤ 12
  day_pos : 1 ≤ day
  day_le : day ≤ daysInMonth year month
  hour_lt : hour < 24
  minute_lt : minute < 60
  second_lt : second < 60
  microsecond_lt : microsecond < 1000000

namespace DateTime

/-- The seconds from the beginning of the year 1. -/
def seconds (d : DateTime) : ℕ :=
  ((toordinal d.year d.month d.day * 24 + d.hour) * 60 + d.minute) * 60 + d.second

/-- The microseconds from the beginning of the year 1. -/
def instant (d : DateTime) : ℕ := d.seconds * 1000000 + d.microsecond

/-- The datetime without what is below a millisecond. -/
def truncated (d : DateTime) : DateTime :=
  { d with
    microsecond := d.microsecond / 1000 * 1000
    microsecond_lt := by
      have := d.microsecond_lt
      omega }

end DateTime

/-! ### Texts -/

/-- The code point of a digit. -/
def digit (d : ℕ) : CodePoint := Fin.ofNat 0x110000 (48 + d)

/-- `'%0kd' % n` for a number of at most `k` digits. -/
def fixed : ℕ → ℕ → PyStr
  | 0, _ => []
  | k + 1, n => digit (n / 10 ^ k) :: fixed k (n % 10 ^ k)

namespace DateTime

/-- The text without the offset. -/
def body (d : DateTime) : PyStr :=
  fixed 4 d.year ++ py "-" ++ fixed 2 d.month ++ py "-" ++ fixed 2 d.day ++ py "T" ++ fixed 2 d.hour ++ py ":" ++
    fixed 2 d.minute ++ py ":" ++ fixed 2 d.second ++ py "." ++ fixed 3 (d.microsecond / 1000)

/-- `d.isoformat(timespec="milliseconds")` -/
def isoformat (d : DateTime) : PyStr := d.body ++ py "+00:00"

end DateTime

/-! ### The order of days -/

theorem daysInMonth_le (year month : ℕ) : daysInMonth year month ≤ 31 := by
  unfold daysInMonth
  split_ifs <;> omega

theorem daysBeforeMonth_succ (year : ℕ) {month : ℕ} (h : 1 ≤ month) :
    daysBeforeMonth year (month + 1) = daysBeforeMonth year month + daysInMonth year month := by
  obtain ⟨m, rfl⟩ := Nat.exists_eq_add_of_le' h
  rfl

/-- A month ends before a later one begins. -/
theorem daysBeforeMonth_le (year : ℕ) {month : ℕ} (h : 1 ≤ month) : ∀ {month' : ℕ}, month < month' →
    daysBeforeMonth year month + daysInMonth year month ≤ daysBeforeMonth year month'
  | month' + 1, hlt => by
    rcases Nat.lt_succ_iff_lt_or_eq.mp hlt with hlt | rfl
    · have hle := daysBeforeMonth_le year h hlt
      have hsucc := daysBeforeMonth_succ year (show 1 ≤ month' by omega)
      omega
    · exact (daysBeforeMonth_succ year h).ge

/-- The days of a year. -/
theorem daysBeforeMonth_december (year : ℕ) :
    daysBeforeMonth year 12 + daysInMonth year 12 = if isLeap year then 366 else 365 := by
  rcases hleap : isLeap year with _ | _ <;> simp [daysBeforeMonth, daysInMonth, hleap]

theorem succ_div_eq (n k : ℕ) : (n + 1) / k = n / k + if (n + 1) % k = 0 then 1 else 0 := by
  rw [Nat.succ_div]
  simp only [Nat.dvd_iff_mod_eq_zero]

theorem daysBeforeYear_succ {year : ℕ} (h : 1 ≤ year) :
    daysBeforeYear (year + 1) = daysBeforeYear year + if isLeap year then 366 else 365 := by
  obtain ⟨n, rfl⟩ := Nat.exists_eq_add_of_le' h
  have hleap : isLeap (n + 1) = true ↔ (n + 1) % 4 = 0 ∧ ((n + 1) % 100 ≠ 0 ∨ (n + 1) % 400 = 0) := by
    simp [isLeap, Bool.and_eq_true]
  have hle : n / 100 ≤ n / 4 := Nat.div_le_div_left (by norm_num) (by norm_num)
  have hfour : (n + 1) % 100 = 0 → (n + 1) % 4 = 0 := by omega
  have hcentury : (n + 1) % 400 = 0 → (n + 1) % 100 = 0 := by omega
  have hbefore : daysBeforeYear (n + 1) = n * 365 + n / 4 - n / 100 + n / 400 := rfl
  have hafter : daysBeforeYear (n + 1 + 1) = (n + 1) * 365 + (n + 1) / 4 - (n + 1) / 100 + (n + 1) / 400 := rfl
  rw [hbefore, hafter, succ_div_eq n 4, succ_div_eq n 100, succ_div_eq n 400]
  clear hbefore hafter
  -- the quotients are now three numbers, what is left is about the remainders of the year
  generalize n / 4 = quarters at *
  generalize n / 100 = centuries at *
  generalize n / 400 = cycles at *
  split_ifs <;> simp_all <;> omega

/-- A year ends before a later one begins. -/
theorem daysBeforeYear_le {year : ℕ} (h : 1 ≤ year) : ∀ {year' : ℕ}, year < year' →
    daysBeforeYear year + (if isLeap year then 366 else 365) ≤ daysBeforeYear year'
  | year' + 1, hlt => by
    rcases Nat.lt_succ_iff_lt_or_eq.mp hlt with hlt | rfl
    · have hle := daysBeforeYear_le h hlt
      have hsucc := daysBeforeYear_succ (show 1 ≤ year' by omega)
      omega
    · exact (daysBeforeYear_succ h).ge

namespace DateTime
variable {a b : DateTime}

/-- A day is one of its year. -/
theorem day_le_year (d : DateTime) :
    daysBeforeMonth d.year d.month + d.day ≤ if isLeap d.year then 366 else 365 := by
  have hday := d.day_le
  have hyear := daysBeforeMonth_december d.year
  rcases Nat.lt_or_ge d.month 12 with hlt | hge
  · have hle := daysBeforeMonth_le d.year d.month_pos hlt
    omega
  · have heq : d.month = 12 := by
      have := d.month_le
      omega
    rw [heq] at hday ⊢
    omega

theorem day_lt (d : DateTime) : d.day < 32 := by
  have hday := d.day_le
  have hmonth := daysInMonth_le d.year d.month
  omega

theorem toordinal_lt_of_year (h : a.year < b.year) :
    toordinal a.year a.month a.day < toordinal b.year b.month b.day := by
  have hyear := daysBeforeYear_le a.year_pos h
  have hday := a.day_le_year
  have hpos := b.day_pos
  unfold toordinal
  omega

theorem toordinal_lt_of_month (hy : a.year = b.year) (h : a.month < b.month) :
    toordinal a.year a.month a.day < toordinal b.year b.month b.day := by
  have hmonth := daysBeforeMonth_le a.year a.month_pos h
  have hday := a.day_le
  have hpos := b.day_pos
  unfold toordinal
  rw [← hy]
  omega

/-- **The ordinal orders days** by year, month and day. -/
theorem toordinal_lt_iff : toordinal a.year a.month a.day < toordinal b.year b.month b.day ↔
    a.year < b.year ∨ a.year = b.year ∧ (a.month < b.month ∨ a.month = b.month ∧ a.day < b.day) := by
  constructor
  · intro h
    rcases lt_trichotomy a.year b.year with hy | hy | hy
    · exact Or.inl hy
    · rcases lt_trichotomy a.month b.month with hm | hm | hm
      · exact Or.inr ⟨hy, Or.inl hm⟩
      · unfold toordinal at h
        rw [hy, hm] at h
        exact Or.inr ⟨hy, Or.inr ⟨hm, by omega⟩⟩
      · exact absurd h (lt_asymm (toordinal_lt_of_month hy.symm hm))
    · exact absurd h (lt_asymm (toordinal_lt_of_year hy))
  · rintro (hy | ⟨hy, hm | ⟨hm, hd⟩⟩)
    · exact toordinal_lt_of_year hy
    · exact toordinal_lt_of_month hy hm
    · unfold toordinal
      rw [hy, hm]
      omega

/-- The milliseconds from the beginning of the year 1. -/
def milliseconds (d : DateTime) : ℕ := d.seconds * 1000 + d.microsecond / 1000

theorem instant_truncated (d : DateTime) : d.truncated.instant = d.milliseconds * 1000 := by
  have hseconds : d.truncated.seconds = d.seconds := rfl
  have hmicro : d.truncated.microsecond = d.microsecond / 1000 * 1000 := rfl
  unfold instant milliseconds
  rw [hseconds, hmicro]
  omega

theorem instant_div (d : DateTime) : d.instant / 1000 = d.milliseconds := by
  unfold instant milliseconds
  omega

/-- The milliseconds order datetimes field by field. -/
theorem milliseconds_lt_iff : a.milliseconds < b.milliseconds ↔
    (a.year < b.year ∨ a.year = b.year ∧ (a.month < b.month ∨ a.month = b.month ∧ (a.day < b.day ∨ a.day = b.day ∧
      (a.hour < b.hour ∨ a.hour = b.hour ∧ (a.minute < b.minute ∨ a.minute = b.minute ∧ (a.second < b.second ∨
        a.second = b.second ∧ a.microsecond / 1000 < b.microsecond / 1000)))))) := by
  have hday := @toordinal_lt_iff a b
  have hday' := @toordinal_lt_iff b a
  have hsame : a.year = b.year → a.month = b.month → a.day = b.day →
      toordinal a.year a.month a.day = toordinal b.year b.month b.day := fun hy hm hd => by rw [hy, hm, hd]
  have hahour := a.hour_lt
  have hbhour := b.hour_lt
  have haminute := a.minute_lt
  have hbminute := b.minute_lt
  have hasecond := a.second_lt
  have hbsecond := b.second_lt
  have hamicro := a.microsecond_lt
  have hbmicro := b.microsecond_lt
  unfold milliseconds seconds
  omega

end DateTime

/-! ### The order of texts -/

theorem cons_le_cons {c d : CodePoint} {s t : PyStr} : c :: s ≤ d :: t ↔ c < d ∨ c = d ∧ s ≤ t := by
  rw [← not_lt, List.cons_lt_cons_iff, ← not_lt]
  constructor
  · intro h
    rcases lt_trichotomy c d with hlt | rfl | hgt
    · exact Or.inl hlt
    · exact Or.inr ⟨rfl, fun hts => h (Or.inr ⟨rfl, hts⟩)⟩
    · exact absurd (Or.inl hgt) h
  · rintro (hlt | ⟨rfl, hnot⟩) (hgt | ⟨heq, hts⟩)
    · exact absurd hlt (lt_asymm hgt)
    · exact absurd heq.symm hlt.ne
    · exact absurd hgt (lt_irrefl c)
    · exact hnot hts

theorem append_le_append_left (u : PyStr) {s t : PyStr} : u ++ s ≤ u ++ t ↔ s ≤ t := by
  induction u with
  | nil => rfl
  | cons c u ih =>
    rw [List.cons_append, List.cons_append, cons_le_cons, ih]
    simp

/-- Numbers are ordered by their leading digit, then by the rest. -/
theorem lt_iff_div_mod {p n n' : ℕ} (hp : 0 < p) : n < n' ↔ n / p < n' / p ∨ n / p = n' / p ∧ n % p < n' % p := by
  have hsplit := Nat.div_add_mod n p
  have hsplit' := Nat.div_add_mod n' p
  have hmod := Nat.mod_lt n hp
  have hmod' := Nat.mod_lt n' hp
  constructor
  · intro h
    rcases (Nat.div_le_div_right h.le : n / p ≤ n' / p).lt_or_eq with hlt | heq
    · exact Or.inl hlt
    · rw [heq] at hsplit
      exact Or.inr ⟨heq, by omega⟩
  · rintro (hlt | ⟨heq, hlt⟩)
    · exact lt_of_not_ge fun hge => absurd (Nat.div_le_div_right hge) (not_le.mpr hlt)
    · rw [heq] at hsplit
      omega

theorem eq_iff_div_mod (p n n' : ℕ) : n = n' ↔ n / p = n' / p ∧ n % p = n' % p := by
  constructor
  · rintro rfl
    exact ⟨rfl, rfl⟩
  · rintro ⟨hdiv, hmod⟩
    rw [← Nat.div_add_mod n p, ← Nat.div_add_mod n' p, hdiv, hmod]

theorem val_digit {d : ℕ} (h : d < 10) : (digit d).val = 48 + d := Nat.mod_eq_of_lt (by omega)

theorem digit_lt {d d' : ℕ} (h : d < 10) (h' : d' < 10) : digit d < digit d' ↔ d < d' := by
  rw [Fin.lt_def, val_digit h, val_digit h']
  omega

theorem digit_eq {d d' : ℕ} (h : d < 10) (h' : d' < 10) : digit d = digit d' ↔ d = d' := by
  rw [Fin.ext_iff, val_digit h, val_digit h']
  omega

/-- Digits of one width order numbers. -/
theorem fixed_append_le {k n n' : ℕ} {s s' : PyStr} (h : n < 10 ^ k) (h' : n' < 10 ^ k) :
    fixed k n ++ s ≤ fixed k n' ++ s' ↔ n < n' ∨ n = n' ∧ s ≤ s' := by
  induction k generalizing n n' with
  | zero =>
    have hn : n = 0 := by simpa using h
    have hn' : n' = 0 := by simpa using h'
    simp [fixed, hn, hn']
  | succ k ih =>
    have hpos : 0 < 10 ^ k := Nat.pow_pos (by norm_num)
    have hdigit : n / 10 ^ k < 10 := by rwa [Nat.div_lt_iff_lt_mul hpos, ← pow_succ']
    have hdigit' : n' / 10 ^ k < 10 := by rwa [Nat.div_lt_iff_lt_mul hpos, ← pow_succ']
    rw [fixed, fixed, List.cons_append, List.cons_append, cons_le_cons, ih (Nat.mod_lt n hpos) (Nat.mod_lt n' hpos),
      digit_lt hdigit hdigit', digit_eq hdigit hdigit', @lt_iff_div_mod (10 ^ k) n n' hpos,
      eq_iff_div_mod (10 ^ k) n n']
    tauto

/-! ### The order of datetimes -/

namespace DateTime
variable {a b : DateTime}

/-- The texts without the offset order datetimes field by field, whatever follows them. -/
theorem body_append_le (s : PyStr) : a.body ++ s ≤ b.body ++ s ↔ ¬ b.milliseconds < a.milliseconds := by
  have hyear := a.year_le
  have hyear' := b.year_le
  have hmonth := a.month_le
  have hmonth' := b.month_le
  have hday := a.day_lt
  have hday' := b.day_lt
  have hhour := a.hour_lt
  have hhour' := b.hour_lt
  have hminute := a.minute_lt
  have hminute' := b.minute_lt
  have hsecond := a.second_lt
  have hsecond' := b.second_lt
  have hmicro := a.microsecond_lt
  have hmicro' := b.microsecond_lt
  rw [milliseconds_lt_iff]
  unfold body
  simp only [List.append_assoc]
  rw [fixed_append_le (by omega) (by omega), append_le_append_left, fixed_append_le (by omega) (by omega),
    append_le_append_left, fixed_append_le (by omega) (by omega), append_le_append_left,
    fixed_append_le (by omega) (by omega), append_le_append_left, fixed_append_le (by omega) (by omega),
    append_le_append_left, fixed_append_le (by omega) (by omega), append_le_append_left,
    fixed_append_le (by omega) (by omega)]
  simp only [le_refl, and_true]
  omega

theorem plus_notMem_fixed : ∀ {k n : ℕ}, n < 10 ^ k → (43 : CodePoint) ∉ fixed k n
  | 0, _, _ => List.not_mem_nil
  | k + 1, n, h => by
    have hpos : 0 < 10 ^ k := Nat.pow_pos (by norm_num)
    have hdigit : n / 10 ^ k < 10 := by rwa [Nat.div_lt_iff_lt_mul hpos, ← pow_succ']
    have hne : (43 : CodePoint) ≠ digit (n / 10 ^ k) := by
      intro heq
      have hval := congrArg Fin.val heq
      rw [val_digit hdigit] at hval
      have hplus : (43 : CodePoint).val = 43 := rfl
      rw [hplus] at hval
      generalize n / 10 ^ k = d at hval
      omega
    rw [fixed, List.mem_cons, not_or]
    exact ⟨hne, plus_notMem_fixed (Nat.mod_lt n hpos)⟩

/-- The text without the offset has no sign. -/
theorem plus_notMem_body (d : DateTime) : (43 : CodePoint) ∉ d.body := by
  have hyear := d.year_le
  have hmonth := d.month_le
  have hday := d.day_lt
  have hhour := d.hour_lt
  have hminute := d.minute_lt
  have hsecond := d.second_lt
  have hmicro := d.microsecond_lt
  have hdash : (43 : CodePoint) ∉ py "-" := by decide
  have hcolon : (43 : CodePoint) ∉ py ":" := by decide
  have hletter : (43 : CodePoint) ∉ py "T" := by decide
  have hpoint : (43 : CodePoint) ∉ py "." := by decide
  unfold body
  simp only [List.mem_append, not_or]
  refine ⟨⟨⟨⟨⟨⟨⟨⟨⟨⟨⟨⟨?_, hdash⟩, ?_⟩, hdash⟩, ?_⟩, hletter⟩, ?_⟩, hcolon⟩, ?_⟩, hcolon⟩, ?_⟩, hpoint⟩, ?_⟩
  all_goals exact plus_notMem_fixed (by omega)

/-- **The ISO text with another offset** in the place of `+00:00`. -/
theorem replace_isoformat (d : DateTime) (offset : PyStr) :
    replace (py "+00:00") offset d.isoformat = d.body ++ offset :=
  replace_append_old (c := 43) d.plus_notMem_body

end DateTime

end BuildEngine.Base.Calendar
