import Dispatch.Instant.Basic
import Mathlib.Algebra.Group.Int.Defs
import Mathlib.Order.Defs.LinearOrder
/-!
Earlier and later instants. The whole seconds between two instants are the more the earlier the first of them is and
the later the second, as long as no leap second is among them; and for instants on the calendar they are not many.
-/
namespace Dispatch.Instant

variable {first second third : Instant}

theorem isBefore_iff : first.isBefore second = true ↔
    first.second < second.second ∨ (first.second = second.second ∧ first.nano < second.nano) := by
  simp [isBefore]

theorem isBefore_trans (one : first.isBefore second = true) (two : second.isBefore third = true) :
    first.isBefore third = true := by
  rw [isBefore_iff] at *
  omega

theorem isBefore_total (different : first ≠ second) :
    first.isBefore second = true ∨ second.isBefore first = true := by
  cases first
  cases second
  rw [ne_eq, mk.injEq] at different
  simp only [isBefore_iff]
  omega

/-- An instant is no later than another one that is not before it. -/
instance : LE Instant := ⟨fun first second => second.isBefore first = false⟩

instance : LT Instant := ⟨fun first second => first.isBefore second = true⟩

theorem le_iff : first ≤ second ↔
    first.second < second.second ∨ (first.second = second.second ∧ first.nano ≤ second.nano) := by
  change second.isBefore first = false ↔ _
  rw [← Bool.not_eq_true, isBefore_iff]
  omega

instance : LinearOrder Instant where
  le_refl first := le_iff.mpr (.inr ⟨rfl, Nat.le_refl _⟩)
  le_trans first second third one two := by
    rw [le_iff] at *
    omega
  lt_iff_le_not_ge first second := by
    change first.isBefore second = true ↔ _
    rw [isBefore_iff, le_iff, le_iff]
    omega
  le_antisymm first second one two := by
    cases first
    cases second
    simp only [le_iff] at one two
    rw [mk.injEq]
    omega
  le_total first second := by
    rw [le_iff, le_iff]
    omega
  toDecidableLE first second := inferInstanceAs (Decidable (second.isBefore first = false))
  toDecidableLT first second := inferInstanceAs (Decidable (first.isBefore second = true))
  toDecidableEq := inferInstance

/-- No leap second. -/
def IsRegular (instant : Instant) : Prop := instant.nano < milliard

instance (instant : Instant) : Decidable instant.IsRegular := Nat.decLt _ _

theorem nanosSince_of_regular (regular : first.IsRegular) (regularToo : second.IsRegular) :
    first.nanosSince second = (first.second - second.second) * milliard + ((first.nano : Int) - second.nano) := by
  have noLeap {instant : Instant} (regular : instant.IsRegular) : ¬milliard ≤ instant.nano :=
    Nat.not_le.mpr regular
  simp [nanosSince, noLeap regular, noLeap regularToo]

/-- The earlier an instant, the longer ago it was. -/
theorem secondsSince_anti {now : Instant} (regular : first.IsRegular) (regularToo : second.IsRegular)
    (regularNow : now.IsRegular) (le : first ≤ second) : now.secondsSince second ≤ now.secondsSince first := by
  have nanos : now.nanosSince second ≤ now.nanosSince first := by
    rw [nanosSince_of_regular regularNow regular, nanosSince_of_regular regularNow regularToo]
    rw [le_iff] at le
    unfold IsRegular milliard at *
    omega
  exact Int.tdiv_le_tdiv (by decide) nanos

/-- The later an instant, the longer ago is what was before it. -/
theorem secondsSince_mono {past : Instant} (regular : first.IsRegular) (regularToo : second.IsRegular)
    (regularPast : past.IsRegular) (le : first ≤ second) : first.secondsSince past ≤ second.secondsSince past := by
  have nanos : first.nanosSince past ≤ second.nanosSince past := by
    rw [nanosSince_of_regular regular regularPast, nanosSince_of_regular regularToo regularPast]
    rw [le_iff] at le
    unfold IsRegular milliard at *
    omega
  exact Int.tdiv_le_tdiv (by decide) nanos

/-- An instant as it is read and stored: its date is in range, and its fraction is that of a second or of a leap
second. -/
structure IsOnCalendar (instant : Instant) : Prop where
  dated : instant.inRange = true
  fraction : instant.nano < 2 * milliard

instance (instant : Instant) : Decidable instant.IsOnCalendar :=
  decidable_of_iff (instant.inRange = true ∧ instant.nano < 2 * milliard)
    ⟨fun ⟨dated, fraction⟩ => ⟨dated, fraction⟩, fun calendar => ⟨calendar.dated, calendar.fraction⟩⟩

theorem dayNumber_of_inRange {instant : Instant} (dated : instant.inRange = true) :
    -97000000 < instant.dayNumber ∧ instant.dayNumber < 97000000 := by
  simp only [inRange, date, Date.ofDayNumber, Date.firstYear, Date.lastYear, Bool.and_eq_true, decide_eq_true_eq,
    Int.fdiv_eq_ediv_of_nonneg _ (show (0 : Int) ≤ 146097 by decide)] at dated
  generalize instant.dayNumber = day at dated
  split at dated
  next => omega
  next => omega

theorem IsOnCalendar.second_bounds {instant : Instant} (calendar : instant.IsOnCalendar) :
    -8400000000000 < instant.second ∧ instant.second < 8400000000000 := by
  have days := dayNumber_of_inRange calendar.dated
  unfold dayNumber secondsPerDay at days
  rw [Int.fdiv_eq_ediv_of_nonneg _ (by decide)] at days
  omega

/-- At most one leap second is counted. -/
theorem nanosSince_le (first second : Instant) :
    first.nanosSince second ≤ (first.second - second.second + 1) * milliard + ((first.nano : Int) - second.nano) := by
  refine Int.add_le_add_right (Int.mul_le_mul_of_nonneg_right (Int.add_le_add_left ?_ _) (Int.natCast_nonneg _)) _
  grind

/-- The seconds between two instants on the calendar fit a signed number of 64 bits. -/
theorem secondsSince_lt (calendar : first.IsOnCalendar) (calendarToo : second.IsOnCalendar) :
    first.secondsSince second < 2 ^ 63 - 1 := by
  have nanos : first.nanosSince second ≤ (2 ^ 63 - 2) * milliard := by
    have counted := nanosSince_le first second
    have late := calendar.second_bounds
    have early := calendarToo.second_bounds
    have fraction := calendar.fraction
    unfold milliard at *
    omega
  have seconds : first.secondsSince second ≤ ((2 ^ 63 - 2) * milliard : Int).tdiv milliard :=
    Int.tdiv_le_tdiv (by decide) nanos
  rw [Int.mul_tdiv_cancel _ (by decide)] at seconds
  omega

end Dispatch.Instant
