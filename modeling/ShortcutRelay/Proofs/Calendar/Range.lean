import ShortcutRelay.Calendar.Moment
import ShortcutRelay.Proofs.Calendar.Days

/-!
# The range of the calendar

A number of seconds stands for a moment where it lies in the years 1 to 9999 after it was rounded to
microseconds.

* `InCalendar x` : so it is, `ofEpoch_ok_iff`;
* `Date.ofOrdinal?_isSome_iff` : the day numbers of the calendar.
-/

namespace ShortcutRelay.Calendar

def lastOrdinal : Nat :=
  3652059

theorem daysBeforeYear_end : daysBeforeYear 10000 = lastOrdinal := by decide

theorem Date.ofOrdinal?_isSome_iff (n : Nat) :
    (Date.ofOrdinal? n).isSome = true ↔ 1 ≤ n ∧ n ≤ lastOrdinal := by
  unfold Date.ofOrdinal?
  rw [daysBeforeYear_end]
  split
  · next outside =>
    simp only [Option.isSome_none, Bool.false_eq_true, false_iff]
    omega
  · next inside =>
    simp only [Option.isSome_some, true_iff]
    omega

namespace Moment

def firstMicrosecond : Int :=
  -62135596800 * 1000000

def endMicrosecond : Int :=
  253402300800 * 1000000

theorem ofMicroseconds?_isSome_iff (seconds microseconds : Int) :
    (ofMicroseconds? seconds microseconds).isSome = true ↔
      firstMicrosecond ≤ seconds * 1000000 + microseconds ∧
        seconds * 1000000 + microseconds < endMicrosecond := by
  have day : (ofMicroseconds? seconds microseconds).isSome = (Date.ofOrdinal?
      (((seconds * 1000000 + microseconds).fdiv 1000000).fdiv 86400 + epochOrdinal).toNat).isSome := by
    unfold ofMicroseconds?
    dsimp only
    generalize Date.ofOrdinal? _ = date
    cases date <;> rfl
  rw [day, Date.ofOrdinal?_isSome_iff, Int.fdiv_eq_ediv_of_nonneg _ (by decide),
    Int.fdiv_eq_ediv_of_nonneg _ (by decide)]
  unfold firstMicrosecond endMicrosecond lastOrdinal epochOrdinal
  omega

/-- A number of seconds since 1970 that lies in the years 1 to 9999, rounded to microseconds. -/
def InCalendar (x : Float) : Prop :=
  ∃ seconds microseconds, splitSeconds x = .ok (seconds, microseconds) ∧
    firstMicrosecond ≤ seconds * 1000000 + microseconds ∧
    seconds * 1000000 + microseconds < endMicrosecond

/-- Just these numbers of seconds stand for a moment. -/
theorem ofEpoch_ok_iff (x : Float) : (∃ m, ofEpoch x = .ok m) ↔ InCalendar x := by
  constructor
  · rintro ⟨m, made⟩
    unfold ofEpoch at made
    cases split : splitSeconds x with
    | error e =>
      rw [split] at made
      cases made
    | ok parts =>
      obtain ⟨s, u⟩ := parts
      refine ⟨s, u, split, (ofMicroseconds?_isSome_iff s u).mp ?_⟩
      simp only [split, bind, Except.bind] at made
      cases found : ofMicroseconds? s u with
      | some _ => rfl
      | none =>
        simp only [found] at made
        split at made <;> cases made
  · rintro ⟨s, u, split, range⟩
    obtain ⟨m, found⟩ := Option.isSome_iff_exists.mp ((ofMicroseconds?_isSome_iff s u).mpr range)
    refine ⟨m, ?_⟩
    unfold ofEpoch
    rw [split]
    simp only [bind, Except.bind, found]
    rfl

end Moment

end ShortcutRelay.Calendar
