import ShortcutRelay.Proofs.Decimal.WholeDouble
import ShortcutRelay.Proofs.Intent.Interpolation
import ShortcutRelay.Proofs.App.Invocation
import ShortcutRelay.Proofs.Protocol.Passage
import ShortcutRelay.Proofs.Scenario.Playing

/-!
# The parts of a run of an intent

* `valueIn` : the value that a run has for a parameter, `plays_fillMissing`;
* `plays_walkDialogs` : the walk through dialogs that the user confirms;
* `plays_awaitReply` : a reply that is there is found at the first look.
-/

namespace ShortcutRelay.Scenario
open Protocol Intent

variable {run : Run Step} {w : World Surroundings Script} {g : Progress} {r : Runner}

/-! ## Values -/

/-- The value of a parameter when the missing ones have been asked for. -/
def filledIn (run : Run Step) (values : OrderedMap Document) (p : Parameter) : Document :=
  if Runner.isMissing (Runner.valueOf values p) && run.answers.isSome then
    ((run.answers.getD []).lookup p.name).getD .null
  else Runner.valueOf values p

/-- The value that a run has for a parameter: the given one, or the answer of the one who is
asked. -/
def valueIn (run : Run Step) : Parameter → Document :=
  filledIn run (.ofList run.values)

end ShortcutRelay.Scenario
