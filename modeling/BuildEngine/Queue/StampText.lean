import BuildEngine.Base.Calendar
import BuildEngine.Queue.Schema

/-! # The texts of the timestamp columns

`_format_datetime` spells a timestamp in milliseconds with the zone `Z`, and SQLite compares the texts byte by byte;
they are ASCII, so that is by code points. The order of the texts is the order of the milliseconds
(`formatDatetimeText_le_iff`), which are what `Schema.formatDatetime` keeps of an instant. -/

namespace BuildEngine.Queue.StampText

open BuildEngine.Base BuildEngine.Base.Calendar BuildEngine.Queue.Schema

/-- `_format_datetime` on a datetime in UTC, where `astimezone(UTC)` changes nothing. -/
def formatDatetimeText (value : DateTime) : PyStr := replace (py "+00:00") (py "Z") value.isoformat

theorem formatDatetimeText_eq (value : DateTime) : formatDatetimeText value = value.body ++ py "Z" :=
  value.replace_isoformat (py "Z")

/-- The instant in microseconds from the beginning of the year 1, as the columns' model counts them. -/
def stamp (value : DateTime) : Stamp := formatDatetime (value.instant : ℤ)

theorem stamp_eq (value : DateTime) : stamp value = value.milliseconds := by
  have hdiv := value.instant_div
  have hcast : ((value.instant / 1000 : ℕ) : ℤ) = (value.instant : ℤ) / 1000 := Int.natCast_ediv value.instant 1000
  rw [← hdiv, hcast]
  rfl

/-- **Timestamp texts compare like milliseconds**: the order of the texts is the order of the times truncated to
milliseconds, and of the stamps that stand for the texts. -/
theorem formatDatetimeText_le_iff (a b : DateTime) :
    (formatDatetimeText a ≤ formatDatetimeText b ↔ a.truncated.instant ≤ b.truncated.instant) ∧
      (formatDatetimeText a ≤ formatDatetimeText b ↔ stamp a ≤ stamp b) := by
  have htext : formatDatetimeText a ≤ formatDatetimeText b ↔ ¬ b.milliseconds < a.milliseconds := by
    rw [formatDatetimeText_eq, formatDatetimeText_eq]
    exact DateTime.body_append_le (py "Z")
  have ha := a.instant_truncated
  have hb := b.instant_truncated
  have hsa := stamp_eq a
  have hsb := stamp_eq b
  constructor
  · rw [htext, ha, hb]
    omega
  · rw [htext, hsa, hsb]
    exact not_lt.trans Int.ofNat_le.symm

end BuildEngine.Queue.StampText
