import ShortcutRelay.Config.Basic
import ShortcutRelay.OrderedMap
import ShortcutRelay.Template.Placeholder

/-!
# Texts to be translated

* `SystemMessage` : a message that does not come from the configuration, with its key and its
  text;
* `strings` : the texts of a configuration under their keys, in the order of the configuration;
* `phrases` : its phrases, each with the application's name.
-/

namespace ShortcutRelay.Localization

/-! ## Messages and keys -/

/-- A message that does not come from the configuration. -/
structure SystemMessage where
  key : String
  text : String

def appGroupFailed : SystemMessage :=
  ⟨"system.error.appGroupFailed", "Failed to communicate with app"⟩

def timedOut : SystemMessage :=
  ⟨"system.timeout", "Done"⟩

def titleKey (identifier : String) : String :=
  identifier ++ ".title"

def descriptionKey (identifier : String) : String :=
  identifier ++ ".description"

def parameterKey (identifier : String) (index : Nat) : String :=
  identifier ++ ".parameters." ++ toString index

def parameterTitleKey (identifier : String) (index : Nat) : String :=
  parameterKey identifier index ++ ".title"

def parameterDescriptionKey (identifier : String) (index : Nat) : String :=
  parameterKey identifier index ++ ".description"

def promptKey (identifier : String) (index : Nat) : String :=
  parameterKey identifier index ++ ".prompt"

def dialogKey (identifier : String) (index : Nat) : String :=
  identifier ++ ".stateDialogs." ++ toString index ++ ".message"

/-! ## Texts of a configuration -/

def givenEntry (key : String) (text : Option String) : List (String × String) :=
  match text with
  | some s => if s = "" then [] else [(key, s)]
  | none => []

def parameterEntries (identifier : String) (index : Nat) (p : Parameter) :
    List (String × String) :=
  [(parameterTitleKey identifier index, p.title)] ++
  givenEntry (parameterDescriptionKey identifier index) p.description ++
  [(promptKey identifier index, p.prompt)]

def shortcutEntries (s : Shortcut) : List (String × String) :=
  [(titleKey s.identifier, s.title)] ++
  givenEntry (descriptionKey s.identifier) s.description ++
  (s.parameters.mapIdx (parameterEntries s.identifier)).flatten ++
  s.stateDialogs.mapIdx fun i d => (dialogKey s.identifier i, d.message)

def configEntries (c : Config) : List (String × String) :=
  c.shortcuts.flatMap shortcutEntries ++
  [(appGroupFailed.key, appGroupFailed.text), (timedOut.key, timedOut.text)]

def strings (c : Config) : OrderedMap String :=
  .ofList (configEntries c)

def phrases (c : Config) : List String :=
  c.shortcuts.flatMap fun s => s.phrases.map Template.tablePhrase

end ShortcutRelay.Localization
