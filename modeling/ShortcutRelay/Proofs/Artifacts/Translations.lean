import ShortcutRelay.Proofs.Artifacts.Assembly
import ShortcutRelay.Proofs.Swift.LookUps

/-!
# Texts in both files

The catalog holds the texts of a configuration under their keys, and the Swift file looks them up under
the same keys, with the same texts as defaults.

* `Json.at?` : the value at a path of members;
* `at?_sourcePath` : where the catalog holds the text of a key;
* `texts_looked_up` : what the catalog holds is looked up, whatever the existing catalog holds;
* `long_number_breaks_merge` : unless it cannot be read.
-/

namespace ShortcutRelay
open Text ShortcutRelay.Localization ShortcutRelay.Localization.Catalog

def Json.at? : List String → Json → Option Json
  | [], j => some j
  | key :: path, j => (j.members?.bind (valueAt? (codePoints key))).bind (at? path)

theorem Json.at?_cons {members : List (List CodePoint × Json)} {key : String} {value : Json}
    (h : valueAt? (codePoints key) members = some value) (path : List String) :
    Json.at? (key :: path) (.object members) = value.at? path := by
  rw [Json.at?, Json.members?, Option.bind_some, h, Option.bind_some]

/-- Where a catalog holds the source text of a key. -/
def sourcePath (key : String) : List String :=
  ["strings", key, "localizations", sourceLanguageCode, "stringUnit", "value"]

theorem at?_unit (text : String) : Json.at? ["stringUnit", "value"] (unit text) = some (.ofString text) :=
  rfl

/-- The text that a key is given is its source text. -/
theorem at?_sourcePath {texts : OrderedMap String} {key text : String}
    (given : texts.get? key = some text) (c : Catalog) :
    (putTexts texts.toList c).toJson.at? (sourcePath key) = some (.ofString text) := by
  have merged := merged_putTexts texts c
  generalize putTexts texts.toList c = new at merged ⊢
  have strings : new.toJson.at? (sourcePath key) = Json.at?
      [key, "localizations", sourceLanguageCode, "stringUnit", "value"] (.object new.strings) :=
    Json.at?_cons (by simp [valueAt?, Json.named]) _
  rw [strings]
  by_cases isEntry : ∃ entry, valueAt? (codePoints key) c.strings = some (.object entry)
  · obtain ⟨entry, old⟩ := isEntry
    obtain ⟨entry', found, refreshed⟩ := merged.entries key text entry given old
    obtain ⟨languages, here, english, -⟩ := refreshed.languages
    rw [Json.at?_cons found, Json.at?_cons here]
    exact (Json.at?_cons english _).trans (at?_unit text)
  · have found := merged.fresh key text given fun entry old => isEntry ⟨entry, old⟩
    rw [Json.at?_cons found]
    rfl

namespace Localization

/-- A merged catalog holds the texts, unless there is none. -/
theorem merge_cases (texts : OrderedMap String) (existing : Option (List CodePoint)) :
    (∃ c : Catalog, merge texts existing = .ok c.render ∧
      (WholeFile existing → Json.parse c.render = .ok c.toJson) ∧
      ∀ key text, (key, text) ∈ texts.toList → c.toJson.at? (sourcePath key) = some (.ofString text)) ∨
    ∃ old count, existing = some old ∧ Json.parse old = .error (.tooManyDigits count) ∧
      merge texts existing = .error (.tooManyDigits count) := by
  have held {c : Catalog} (key text : String) (mem : (key, text) ∈ texts.toList) :
      (putTexts texts.toList c).toJson.at? (sourcePath key) = some (.ofString text) :=
    at?_sourcePath ((texts.get?_eq_some_iff key text).mpr mem) c
  rcases ofFile_cases existing with opened | ⟨old, members, same, parsed, opened⟩ |
    ⟨old, count, same, long, -⟩
  · have settled := settled_empty.putTexts texts.toList
    exact .inl ⟨_, merge_eq texts opened, fun _ => Json.parse_pretty settled.exact, held⟩
  · exact .inl ⟨_, merge_eq texts opened,
      fun whole => parse_putTexts parsed (whole old members same parsed) _, held⟩
  · exact .inr ⟨old, count, same, long, same ▸ merge_of_tooManyDigits texts long⟩

/-- The merged catalog holds the texts of a configuration, and each of them is looked up in the Swift
file under its key. All that is looked up there stands in the file. A merge fails on a number with too
many digits only, and so does the file, where a dialog waits for one. -/
theorem texts_looked_up {d : Document} {c : Config} (accepted : Config.ofDocument d = .ok c)
    (existing : Option (List CodePoint)) (source : String) :
    ((∃ catalog : Catalog, merge (strings c) existing = .ok catalog.render ∧
      (WholeFile existing → Json.parse catalog.render = .ok catalog.toJson) ∧
      ∀ key text, (key, text) ∈ (strings c).toList →
        catalog.toJson.at? (sourcePath key) = some (.ofString text)) ∨
    ∃ old count, existing = some old ∧ Json.parse old = .error (.tooManyDigits count) ∧
      merge (strings c) existing = .error (.tooManyDigits count)) ∧
    OkWhere c.Showable (.number .tooManyDigits) (Swift.file c true source) ∧
    ∀ swift, Swift.file c true source = .ok swift →
      (∀ key text, (key, text) ∈ (strings c).toList →
        ∃ s ∈ c.shortcuts, ∃ code, LooksUp s key text code ∧ code.toList <:+: swift.toList) ∧
      ∀ s ∈ c.shortcuts, ∀ key text code, LooksUp s key text code → code.toList <:+: swift.toList := by
  have checked := checked_of_ofDocument accepted
  refine ⟨merge_cases (strings c) existing, Swift.okWhere_file checked.typed true source, fun swift made => ?_⟩
  have stands : ∀ s ∈ c.shortcuts, ∀ key text code, LooksUp s key text code →
      code.toList <:+: swift.toList := fun s mem key text code looked => looked.infix_file mem made
  refine ⟨fun key text mem => ?_, stands⟩
  obtain ⟨s, listed, code, looked⟩ := looksUp_of_mem_strings checked.some_shortcut mem
  exact ⟨s, listed, code, looked, stands s listed key text code looked⟩

def taskShortcut : Shortcut where
  identifier := "addTask"
  title := "Add \"Task\""
  phrases := ["Add a task"]
  description := some "Adds a task"
  stateDialogs := [{ stateKey := "full", showWhen := .bool true, message := "$\x7bcount\x7d left" }]
  parameters := [{ name := "taskName", title := "Name", type := .text }]

def taskDocument : Document :=
  .ofShortcuts [.spoken "addTask" "Add \"Task\"" "Add a task" [
    ("description", .text "Adds a task"),
    ("stateDialogs", .list [.ofFields [("stateKey", .text "full"), ("showWhen", .bool true),
      ("message", .text "$\x7bcount\x7d left")]]),
    ("parameters", .list [.ofFields [("name", .text "taskName"), ("title", .text "Name"),
      ("type", .text "string")]])]]

theorem texts_looked_up_task : ∃ (catalog : Catalog) (swift : String),
    Config.ofDocument taskDocument = .ok { shortcuts := [taskShortcut] } ∧
    merge (strings { shortcuts := [taskShortcut] }) (some (codePoints polishText)) = .ok catalog.render ∧
    catalog.toJson.at? (sourcePath "addTask.stateDialogs.0.message") =
      some (.ofString "$\x7bcount\x7d left") ∧
    Swift.file { shortcuts := [taskShortcut] } true Artifacts.usualSource = .ok swift ∧
    (Swift.localized "addTask.stateDialogs.0.message" "$\x7bcount\x7d left").toList <:+:
      swift.toList := by
  have accepted : Config.ofDocument taskDocument = .ok { shortcuts := [taskShortcut] } := rfl
  have given : ("addTask.stateDialogs.0.message", "$\x7bcount\x7d left") ∈
      (strings { shortcuts := [taskShortcut] }).toList := by decide
  obtain ⟨merged, written, looksUp⟩ :=
    texts_looked_up accepted (some (codePoints polishText)) Artifacts.usualSource
  obtain ⟨swift, made⟩ := written.ok
    (by simp [Config.Showable, Shortcut.Showable, taskShortcut, Document.isShowable])
  obtain ⟨-, stands⟩ := looksUp swift made
  have looked := stands taskShortcut (List.mem_singleton_self _) _ _ _
    (@LooksUp.dialog taskShortcut 0 _ rfl)
  rcases merged with ⟨catalog, done, -, held⟩ | ⟨old, count, same, long, -⟩
  · exact ⟨catalog, swift, accepted, done, held _ _ given, made, looked⟩
  · cases same
    rw [parse_polishText] at long
    cases long

def plainShortcut : Shortcut where
  identifier := "a"
  title := "A"
  phrases := ["Go"]

/-- Nothing is merged with a number of `4301` digits, though it is no catalog. -/
theorem long_number_breaks_merge :
    Config.ofDocument (.ofShortcuts [.spoken "a" "A" "Go" []]) = .ok { shortcuts := [plainShortcut] } ∧
    ("a.title", "A") ∈ (strings { shortcuts := [plainShortcut] }).toList ∧
    merge (strings { shortcuts := [plainShortcut] }) (some (ones 4301)) =
      .error (.tooManyDigits 4301) :=
  ⟨rfl, by decide, merge_of_tooManyDigits _ (parse_ones (by decide))⟩

end Localization

end ShortcutRelay
