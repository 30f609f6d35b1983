import ShortcutRelay.Artifacts
import ShortcutRelay.Config.File

/-!
# The preview service

* `Preview.health` : what the service says of itself;
* `Preview.Request`, `Preview.Response` : a request for the generated texts, and its answer;
* `Preview.Failure`, `Preview.Failure.reply?` : why there is none, and what is answered then;
* `Preview.generate` : the answer to a request, without touching any file.
-/

namespace ShortcutRelay.Preview

def health : List (String × String) :=
  [("status", "ok"), ("service", "intentbridge")]

/-- A configuration as it comes in a request: decoded, or as a text. -/
inductive Source
  | document (d : Document)
  | text (s : String)

structure Request where
  config : Source
  existingCatalog : Option (List CodePoint) := none
  existingPhrases : Option String := none
  sourceName : String := Artifacts.usualSource

structure Response where
  shortcuts : List String
  localization : Bool
  artifacts : List (String × List CodePoint)
  warnings : List String

/-- Why a request has no answer: its configuration breaks a rule, which the service reports to the
client, or something else went wrong. -/
inductive Failure
  | rejected (error : ConfigFault)
  | load (failure : LoadFailure)
  | artifacts (error : ArtifactError)

/-- The status and the text that the service itself answers with. Other failures are left to what
runs the service. -/
def Failure.reply? : Failure → Option (Nat × String)
  | .rejected e => some (422, e.message)
  | _ => none

def Source.document? (read : Reader) : Source → Except LoadFailure Document
  | .document d => .ok d
  | .text s => documentOfText read "config" s

def Failure.ofLoad : LoadFailure → Failure
  | .config (.invalid e) => .rejected e
  | e => .load e

def generate (read : Reader) (r : Request) : Except Failure Response := do
  let document ← (r.config.document? read).mapError Failure.ofLoad
  let config ← (Config.ofDocument document).mapError (Failure.ofLoad ∘ .config)
  let artifacts ←
    (Artifacts.generate config r.existingCatalog r.existingPhrases r.sourceName).mapError
      Failure.artifacts
  return {
    shortcuts := config.shortcuts.map (·.identifier)
    localization := config.localization
    artifacts :=
      artifacts.appFiles ++ [(Artifacts.typesName, Text.codePoints artifacts.types)]
    warnings := artifacts.warnings }

end ShortcutRelay.Preview
