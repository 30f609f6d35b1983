import Mathlib.Data.List.Nodup
import ShortcutRelay.Proofs.Artifacts.Assembly
import ShortcutRelay.Proofs.Swift.Sources

/-!
# Types that are declared

* `declaredTypes` : the types that a text declares at the start of its lines;
* `declaredTypes_file` : the file declares a type for each shortcut, and the provider;
* `declared_types` : when no type is declared twice;
* `symbols_collide` : identifiers for which one is.
-/

namespace ShortcutRelay.Swift
open Text Template

-- A proof about a line goes through its characters.
set_option maxRecDepth 1500

/-- The type whose declaration a line begins. -/
def typeName? (line : List Char) : Option String :=
  ("struct ".toList.isPrefixOf? line).map fun rest => String.ofList (rest.takeWhile (· ≠ ':'))

def declaredTypes (text : String) : List String :=
  (lines text).filterMap typeName?

def providerName : String :=
  "GeneratedAppShortcutsProvider"

/-! ## Lines that declare none -/

theorem typeName?_eq_none {line : List Char} (h : line.head? ≠ some 's') : typeName? line = none := by
  have spelled : "struct ".toList = 's' :: "truct ".toList := by decide
  unfold typeName?
  rw [spelled]
  cases line with
  | nil => rfl
  | cons c cs =>
    have other : ('s' == c) = false := beq_eq_false_iff_ne.mpr fun same => h (by rw [same]; rfl)
    simp [List.isPrefixOf?, other]

theorem declaredTypes_joinLines (ts : List String) :
    declaredTypes (joinLines ts) = ts.flatMap declaredTypes := by
  cases ts with
  | nil => decide
  | cons t ts =>
    unfold declaredTypes
    rw [lines_joinLines (List.cons_ne_nil t ts), List.filterMap_flatMap]

theorem declaredTypes_of_tame {t : String} (h : Tame t) : declaredTypes t = [] :=
  List.filterMap_eq_nil_iff.mpr fun _ mem => typeName?_eq_none (lines_of_tame h mem).2

theorem flatMap_declaredTypes_of_tame {ts : List String} (h : ∀ t ∈ ts, Tame t) :
    ts.flatMap declaredTypes = [] :=
  List.flatMap_eq_nil_iff.mpr fun t mem => declaredTypes_of_tame (h t mem)

/-! ## Types of shortcuts -/

variable {s : Shortcut} {useKeys : Bool}

theorem declaredTypes_structHeader (checked : s.Checked) :
    declaredTypes (structHeader s) = [s.className] := by
  have type := plain_className checked
  have line : Unbroken (structHeader s) :=
    ((unbroken_ofList (by decide)).append type.unbroken).append (unbroken_ofList (by decide))
  have parts : (structHeader s).toList =
      "struct ".toList ++ (s.className.toList ++ ": AppIntent \x7b".toList) := by
    simp [structHeader]
  have within : ∀ c ∈ s.className.toList, decide (c ≠ ':') = true := by
    have noPart : isIdentifierPart ':' = false := by decide
    refine fun c mem => decide_eq_true fun same => ?_
    cases (isPart_of_className checked c mem).symm.trans (same ▸ noPart)
  have name : (s.className.toList ++ ": AppIntent \x7b".toList).takeWhile (· ≠ ':') =
      s.className.toList := by
    rw [List.takeWhile_append_of_pos within]
    exact List.append_nil _
  have found : typeName? (structHeader s).toList = some s.className := by
    unfold typeName?
    rw [List.isPrefixOf?_eq_some_iff_append_eq.mpr parts.symm, Option.map_some, name,
      String.ofList_toList]
  unfold declaredTypes
  rw [lines_of_unbroken line, List.filterMap_cons_some found]
  rfl

/-- The type of a shortcut is declared once. -/
theorem declaredTypes_intentStruct (checked : s.Checked) (neat : s.Neat) {text : String}
    (made : intentStruct s useKeys = .ok text) : declaredTypes text = [s.className] := by
  obtain ⟨front, middle, back, rfl, tame⟩ := intentStruct_parts made
  obtain ⟨tameFront, tameMiddle, tameBack⟩ := tame neat
  have available : Tame "@available(iOS 16.0, *)" := tame_ofList (by decide)
  rw [declaredTypes_joinLines]
  simp only [List.flatMap_cons, List.flatMap_append, declaredTypes_structHeader checked,
    declaredTypes_of_tame available, declaredTypes_of_tame tame_empty,
    declaredTypes_of_tame (tame_performingLine neat),
    declaredTypes_of_tame (tame_parameterWrites neat.names neat.className),
    flatMap_declaredTypes_of_tame tameFront, flatMap_declaredTypes_of_tame tameMiddle,
    flatMap_declaredTypes_of_tame tameBack]
  rfl

/-- No type is declared where a shortcut is registered, as far as the name of its image is on one
line. -/
theorem declaredTypes_appShortcut (neat : s.Neat)
    (image : Unbroken (orDefault s.systemImageName usualImage)) :
    declaredTypes (appShortcut s useKeys) = [] := by
  obtain ⟨front, same, tame⟩ := appShortcut_parts s useKeys
  have start : Unbroken "            systemImageName: " := unbroken_ofList (by decide)
  have quote : Unbroken "\"" := unbroken_ofList (by decide)
  have line : Unbroken (imageLine s) := start.append ((quote.append image).append quote)
  have indent : "            systemImageName: ".toList.head? = some ' ' := by decide
  have imageless : declaredTypes (imageLine s) = [] := by
    have blank : (imageLine s).toList.head? = some ' ' := by
      unfold imageLine
      rw [String.toList_append, List.head?_append, indent, Option.some_or]
    have other : (imageLine s).toList.head? ≠ some 's' := by
      rw [blank]
      decide
    unfold declaredTypes
    rw [lines_of_unbroken line, List.filterMap_cons_none (typeName?_eq_none other),
      List.filterMap_nil]
  have ends : Tame "        )" := tame_ofList (by decide)
  rw [same, declaredTypes_joinLines]
  simp only [List.flatMap_append, List.flatMap_cons, flatMap_declaredTypes_of_tame (tame neat),
    imageless, declaredTypes_of_tame ends]
  rfl

/-! ## The file -/

variable {c : Config} {source : String}

/-- The file declares the types of the shortcuts, in order, and the provider. -/
theorem declaredTypes_file (checked : c.Checked) (whole : Unbroken source)
    (names : ∀ s ∈ c.shortcuts, s.Unbroken ∧ Unbroken (orDefault s.systemImageName usualImage))
    {text : String} (made : file c useKeys source = .ok text) :
    declaredTypes text = c.shortcuts.map (·.className) ++ [providerName] := by
  obtain ⟨intents, front, back, found, rfl, tameFront, tameBack⟩ := file_parts whole made
  have neat (s : Shortcut) (mem : s ∈ c.shortcuts) : s.Neat :=
    (checked.shortcuts s mem).neat (names s mem).1
  have types : intents.flatMap declaredTypes = c.shortcuts.map (·.className) := by
    rw [List.map_eq_flatMap]
    exact flatMap_mapPositions found fun s mem _ _ written =>
      declaredTypes_intentStruct (checked.shortcuts s mem) (neat s mem) written
  have registered : (c.shortcuts.map (appShortcut · useKeys)).flatMap declaredTypes = [] := by
    rw [List.flatMap_eq_nil_iff, List.forall_mem_map]
    exact fun s mem => declaredTypes_appShortcut (neat s mem) (names s mem).2
  have available : Tame "@available(iOS 16.0, *)" := tame_ofList (by decide)
  have opened : Tame "    static var appShortcuts: [AppShortcut] \x7b" :=
    tame_ofList (by decide)
  have provider : declaredTypes providerHeader = [providerName] := by decide
  rw [declaredTypes_joinLines]
  simp only [List.flatMap_append, List.flatMap_cons, declaredTypes_joinLines, types, registered,
    provider, declaredTypes_of_tame available, declaredTypes_of_tame tame_empty,
    declaredTypes_of_tame opened, flatMap_declaredTypes_of_tame tameFront,
    flatMap_declaredTypes_of_tame tameBack]
  rfl

/-- The types of two shortcuts have one name where their symbols are the same. -/
theorem nodup_className_iff {shortcuts : List Shortcut} : (shortcuts.map (·.className)).Nodup ↔
    (shortcuts.map fun s => symbolCase s.identifier).Nodup := by
  have named : shortcuts.map (·.className) =
      (shortcuts.map fun s => symbolCase s.identifier).map (· ++ "Intent") := by
    rw [List.map_map]
    rfl
  rw [named]
  exact List.nodup_map_iff fun _ _ same => (String.append_left_inj _).mp same

/-- Identifiers in camel case that differ have different symbols. -/
theorem nodup_symbolCase {identifiers : List String} (camel : ∀ id ∈ identifiers, IsCamel id)
    (distinct : identifiers.Nodup) : (identifiers.map symbolCase).Nodup :=
  distinct.map_on fun _ mem _ mem' same => symbolCase_injective (camel _ mem) (camel _ mem') same

theorem providerName_notMem_className {shortcuts : List Shortcut} :
    providerName ∉ shortcuts.map (·.className) := by
  intro mem
  obtain ⟨s, -, same⟩ := List.mem_map.mp mem
  have last := congrArg (fun name => name.toList.getLast?) same
  simp [Shortcut.className, providerName] at last

/-- No type is declared twice where the symbols of the identifiers differ, and only there. Identifiers
that were accepted differ; if they are in camel case, so do their symbols. There is a file unless a
dialog waits for a number with too many digits. -/
theorem declared_types {d : Document} (accepted : Config.ofDocument d = .ok c)
    (whole : Unbroken source) (useKeys : Bool) :
    (c.shortcuts.map (·.identifier)).Nodup ∧
      ((c.shortcuts.map (·.className)).Nodup ↔
        (c.shortcuts.map fun s => symbolCase s.identifier).Nodup) ∧
      ((∀ s ∈ c.shortcuts, IsCamel s.identifier) → (c.shortcuts.map (·.className)).Nodup) ∧
      OkWhere c.Showable (.number .tooManyDigits) (file c useKeys source) ∧
      ∀ text, file c useKeys source = .ok text →
        (∀ s ∈ c.shortcuts, s.Unbroken ∧ Unbroken (orDefault s.systemImageName usualImage)) →
        declaredTypes text = c.shortcuts.map (·.className) ++ [providerName] ∧
        ((declaredTypes text).Nodup ↔ (c.shortcuts.map (·.className)).Nodup) := by
  have checked := checked_of_ofDocument accepted
  refine ⟨checked.identifiers, nodup_className_iff, fun camel => ?_, okWhere_file checked.typed useKeys source,
    fun text made names => ?_⟩
  · have symbols := nodup_symbolCase (List.forall_mem_map.mpr camel) checked.identifiers
    rw [List.map_map] at symbols
    exact nodup_className_iff.mpr symbols
  · have declared := declaredTypes_file checked whole names made
    refine ⟨declared, ?_⟩
    rw [declared, ← List.concat_eq_append, List.nodup_concat]
    exact and_iff_right providerName_notMem_className

def timerShortcut (identifier title phrase : String) : Shortcut where
  identifier := identifier
  title := title
  phrases := [phrase]

def timerConfig (start stop : String) : Config where
  shortcuts := [timerShortcut start "Start" "Go", timerShortcut stop "Stop" "Stop"]

def timerDocument (start stop : String) : Document :=
  .ofShortcuts [.spoken start "Start" "Go" [], .spoken stop "Stop" "Stop" []]

theorem unbroken_timerConfig {start stop : String} (h : Unbroken start) (h' : Unbroken stop) :
    ∀ s ∈ (timerConfig start stop).shortcuts,
      s.Unbroken ∧ Unbroken (orDefault s.systemImageName usualImage) := by
  have usual : Unbroken usualImage := unbroken_ofList (by decide)
  unfold timerConfig
  simp only [List.forall_mem_cons]
  exact ⟨⟨⟨h, nofun⟩, usual⟩, ⟨⟨h', nofun⟩, usual⟩, nofun⟩

theorem showable_timerConfig (start stop : String) : (timerConfig start stop).Showable := by
  simp [Config.Showable, Shortcut.Showable, timerConfig, timerShortcut]

theorem declared_types_timer : ∃ text,
    Config.ofDocument (timerDocument "startTimer" "stopTimer") =
      .ok (timerConfig "startTimer" "stopTimer") ∧
    file (timerConfig "startTimer" "stopTimer") true Artifacts.usualSource = .ok text ∧
    declaredTypes text = ["StartTimerIntent", "StopTimerIntent", providerName] ∧
    (declaredTypes text).Nodup := by
  have accepted : Config.ofDocument (timerDocument "startTimer" "stopTimer") =
      .ok (timerConfig "startTimer" "stopTimer") := rfl
  have whole : Unbroken Artifacts.usualSource := unbroken_ofList (by decide)
  obtain ⟨-, -, distinct, written, declared⟩ := declared_types accepted whole true
  obtain ⟨text, made⟩ := written.ok (showable_timerConfig _ _)
  have camel : IsCamel "startTimer" ∧ IsCamel "stopTimer" :=
    ⟨⟨_, _, rfl, by decide, by decide, List.all_iff_forall_prop.mp (by decide)⟩,
      ⟨_, _, rfl, by decide, by decide, List.all_iff_forall_prop.mp (by decide)⟩⟩
  obtain ⟨types, once⟩ := declared text made
    (unbroken_timerConfig (unbroken_ofList (by decide)) (unbroken_ofList (by decide)))
  refine ⟨text, accepted, made, ?_, once.mpr (distinct ?_)⟩
  · rw [types]
    decide
  · unfold timerConfig
    simp only [List.forall_mem_cons]
    exact ⟨camel.1, camel.2, nofun⟩

/-- The two identifiers differ, and one type is declared for both. -/
theorem symbols_collide : ∃ text,
    Config.ofDocument (timerDocument "startTimer" "start-timer") =
      .ok (timerConfig "startTimer" "start-timer") ∧
    file (timerConfig "startTimer" "start-timer") true Artifacts.usualSource = .ok text ∧
    declaredTypes text = ["StartTimerIntent", "StartTimerIntent", providerName] ∧
    ¬ ((timerConfig "startTimer" "start-timer").shortcuts.map (·.className)).Nodup := by
  have accepted : Config.ofDocument (timerDocument "startTimer" "start-timer") =
      .ok (timerConfig "startTimer" "start-timer") := rfl
  have checked := checked_of_ofDocument accepted
  have whole : Unbroken Artifacts.usualSource := unbroken_ofList (by decide)
  have first : Unbroken "startTimer" := unbroken_ofList (by decide)
  have second : Unbroken "start-timer" := unbroken_ofList (by decide)
  obtain ⟨text, made⟩ := (okWhere_file checked.typed true Artifacts.usualSource).ok (showable_timerConfig _ _)
  refine ⟨text, accepted, made, ?_, by decide⟩
  rw [declaredTypes_file checked whole (unbroken_timerConfig first second) made]
  decide

end ShortcutRelay.Swift
