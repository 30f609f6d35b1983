import ShortcutRelay.Swift.Intent
import ShortcutRelay.Template.Placeholder

/-!
# The Swift file

* `phrase` : a phrase as a literal that mentions the application;
* `appShortcut` : the registration of a shortcut;
* `file` : the whole file.
-/

namespace ShortcutRelay.Swift
open Text Template

def applicationName : String :=
  "\\(.applicationName)"

/-- A phrase as a literal: its tokens become mentions of the application and the text around them
is escaped; where it has no token, the mention is added at the end. -/
def phrase (text : String) : String :=
  match aroundTokens text with
  | [_] => inQuotes (escape text ++ " in " ++ applicationName)
  | pieces => inQuotes (joinWith applicationName (pieces.map escape))

/-- The symbol of a shortcut that names none. -/
def usualImage : String :=
  "app"

/-- A text that is given and not empty, else a default. -/
def orDefault (text : Option String) (default : String) : String :=
  match text with
  | some s => if s = "" then default else s
  | none => default

def appShortcut (s : Shortcut) (useKeys : Bool) : String :=
  let title :=
    if useKeys then resource (Localization.titleKey s.identifier) s.title else literal s.title
  joinLines [
    "        AppShortcut(",
    "            intent: " ++ s.className ++ "(),",
    "            phrases: [",
    "                " ++ joinWith ",\n                " (s.phrases.map phrase),
    "            ],",
    "            shortTitle: " ++ title ++ ",",
    "            systemImageName: " ++ inQuotes (orDefault s.systemImageName usualImage),
    "        )"]

/-- The declaration of the group: a constant, or the group of the bundle identifier. -/
def appGroupDeclaration (group : Option String) : String :=
  match orDefault group "" with
  | "" =>
    joinLines [
      "private var APP_GROUP_ID: String \x7b",
      "    guard let bundleId = Bundle.main.bundleIdentifier else \x7b",
      "        fatalError(\"Cannot determine bundle identifier\")",
      "    \x7d",
      "    return \"group.\\(bundleId)\"",
      "\x7d"]
  | id => "private let APP_GROUP_ID = " ++ literal id

/-- The file with the intents of a configuration and the provider that registers them. -/
def file (c : Config) (useKeys : Bool) (sourceName : String) : Except IntentError String := do
  let intents ← mapPositions (fun _ s => intentStruct s useKeys) 0 c.shortcuts
  return joinLines [
    "//",
    "// GeneratedAppIntents.swift",
    "//",
    "// AUTO-GENERATED - DO NOT EDIT",
    "// Generated from " ++ sourceName,
    "// Run 'intentbridge generate' to regenerate",
    "//",
    "",
    "import Foundation",
    "import AppIntents",
    "",
    "// App Group for inter-process communication",
    "// App Intents run in a separate process, so we use UserDefaults with App Group",
    "// The App Group ID should be configured in your app's capabilities:",
    "// Format: group.<bundle-identifier>",
    appGroupDeclaration c.appGroupId,
    "",
    joinLines intents,
    "",
    "@available(iOS 16.0, *)",
    "struct GeneratedAppShortcutsProvider: AppShortcutsProvider \x7b",
    "    static var appShortcuts: [AppShortcut] \x7b",
    joinLines (c.shortcuts.map (appShortcut · useKeys)),
    "    \x7d",
    "\x7d",
    ""]

end ShortcutRelay.Swift
