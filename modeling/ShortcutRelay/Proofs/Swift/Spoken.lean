import ShortcutRelay.Proofs.Intent.Dialogs
import ShortcutRelay.Proofs.Intent.Interpolation
import ShortcutRelay.Proofs.Swift.Comparison
import ShortcutRelay.Proofs.Swift.Pieces

/-!
# Messages of dialogs read back

The message of a dialog is built by Swift statements, and the application's twin of the intent fills it in
as well. The statements replace the placeholders of the configured message in the text that is looked up,
and the twin those of that text.

* `Wording` : what the statements say, `Wording.run` : the message that they build;
* `readWording` : the statements that a text spells, `read_messageInterpolation` : those of a message are
  read back;
* `runOn_wordingOf` : what they build;
* `spoken_as_generated` : the messages of the twin and of the statements, and when they are the same;
  `spoken_otherwise` : a translation with a placeholder of its own.
-/

namespace ShortcutRelay.Swift
open Text Template Protocol Intent

/-- What a substitution says: a text is replaced by the text of an entry, or one by its number. -/
structure Replacing where
  textEntry : String
  textTarget : String
  numberEntry : String
  numberTarget : String

/-- What the statements that build a message say: a text with a default is looked up, and substitutions
are made in it. -/
structure Wording where
  default : String
  replacings : List Replacing

/-- The text after a substitution, where `shown` gives the texts of numbers. -/
def Replacing.run (shown : Float → String) (message : String) (r : Replacing) : StoreM String := do
  match ← Store.text r.textEntry with
  | some value => return replaceAll r.textTarget value message
  | none =>
    match ← Store.number r.numberEntry with
    | some x => return replaceAll r.numberTarget (shown x) message
    | none => return message

/-- The message that is built, where `look` gives the text for a default. -/
def Wording.run (look : String → String) (shown : Float → String) (w : Wording) : StoreM String :=
  w.replacings.foldlM (Replacing.run shown) (look w.default)

/-! ## Reading -/

/-- The text that a line quotes between two pieces of code. -/
def readBetween (front back : String) (line : List Char) : Option String := do
  match ← readPlain (← line.dropPrefix? front.toList) with
  | (s, rest) => if rest = back.toList then some s else none

/-- The substitutions that some lines spell, six lines for each of them; an empty line ends them. -/
def readReplacings : List (List Char) → Option (List Replacing)
  | [[]] => some []
  | comment :: text :: inText :: number :: inNumber :: close :: rest => do
    let _ ← comment.dropPrefix? "        // ".toList
    let textEntry ← readBetween "        if let value = defaults.string(forKey: " ") \x7b" text
    let textTarget ← readBetween "            message = message.replacingOccurrences(of: "
      ", with: value)" inText
    let numberEntry ← readBetween "        \x7d else if let numValue = defaults.object(forKey: "
      ") as? NSNumber \x7b" number
    let numberTarget ← readBetween "            message = message.replacingOccurrences(of: "
      ", with: \"\\(numValue)\")" inNumber
    if close = "        \x7d".toList then
      return ⟨textEntry, textTarget, numberEntry, numberTarget⟩ :: (← readReplacings rest)
    else none
  | _ => none

/-- The default of a text that is looked up under a key, with what follows. -/
def readLookUp (key : String) (cs : List Char) : Option (String × List Char) := do
  let (text, rest) ← readPlain
    (← cs.dropPrefix? ("String(localized: " ++ inQuotes key ++ ", defaultValue: ").toList)
  return (text, ← rest.dropPrefix? ")".toList)

/-- The statements that a text spells: one expression, or a variable and substitutions. -/
def readWording (key : String) (cs : List Char) : Option Wording :=
  match cs.dropPrefix? "var message = ".toList with
  | none => do
    match ← readLookUp key cs with
    | (text, []) => some ⟨text, []⟩
    | _ => none
  | some rest => do
    let (text, rest) ← readLookUp key rest
    return ⟨text, ← readReplacings (splitOn '\n' (← rest.dropPrefix? "\n".toList))⟩

theorem readPlain_inQuotes {s : String} (plain : Plain s) (rest : List Char) :
    readPlain ((inQuotes s).toList ++ rest) = some (s, rest) := by
  have body (cs : List Char) (clean : ∀ c ∈ cs, c ∉ marks) :
      readBody (fun _ => none) none (cs ++ '"' :: rest) = some (cs, rest) := by
    induction cs with
    | nil => rfl
    | cons c cs ih =>
      have first := clean c (.head _)
      simp only [marks, List.mem_cons, List.not_mem_nil, or_false, not_or] at first
      have later := ih fun d mem => clean d (.tail c mem)
      simp [readBody, first, later]
  have spelled : (inQuotes s).toList ++ rest = '"' :: (s.toList ++ '"' :: rest) := by
    simp [inQuotes]
  unfold readPlain
  rw [spelled, readLiteral, body _ plain]
  simp

theorem readBetween_inQuotes {s : String} (plain : Plain s) (front back : String) :
    readBetween front back (front ++ inQuotes s ++ back).toList = some s := by
  rw [String.toList_append, String.toList_append, List.append_assoc]
  unfold readBetween
  simp only [dropPrefix?_append, readPlain_inQuotes plain, Option.bind_eq_bind, Option.bind_some, if_true]

theorem readLookUp_localized (key text : String) (rest : List Char) :
    readLookUp key ((localized key text).toList ++ rest) = some (text, rest) := by
  have spelled (front back : String) : (front ++ literal text ++ back).toList ++ rest =
      front.toList ++ ((literal text).toList ++ (back.toList ++ rest)) := by
    simp
  unfold readLookUp localized
  -- the pieces of code are compared with themselves, which must not be computed
  generalize "String(localized: " ++ inQuotes key ++ ", defaultValue: " = front
  generalize ")" = back
  rw [spelled, dropPrefix?_append]
  simp only [dropPrefix?_append, readPlain_literal, Option.bind_eq_bind, Option.bind_some]
  rfl

/-! ## The statements of a message -/

def replacingOf (name : String) : Replacing where
  textEntry := stateEntry name
  textTarget := placeholder name
  numberEntry := stateEntry name
  numberTarget := placeholder name

def substitutionLines (name : String) : List String :=
  let target := "            message = message.replacingOccurrences(of: " ++ inQuotes (placeholder name)
  [ "        // Interpolate " ++ name,
    "        if let value = defaults.string(forKey: " ++ inQuotes (stateEntry name) ++ ") \x7b",
    target ++ ", with: value)",
    "        \x7d else if let numValue = defaults.object(forKey: " ++ inQuotes (stateEntry name) ++
      ") as? NSNumber \x7b",
    target ++ ", with: \"\\(numValue)\")",
    "        \x7d" ]

theorem substitution_eq (name : String) : substitution name = joinLines (substitutionLines name ++ [""]) := by
  unfold substitution substitutionLines
  dsimp only
  simp only [String.append_assoc]
  rfl

section Name

variable {name : String} (named : IsName name)

/-- What is quoted in a line does not break it. -/
theorem notMem_between {s : String} (plain : Plain s) (front back : String) (before : '\n' ∉ front.toList)
    (behind : '\n' ∉ back.toList) : '\n' ∉ (front ++ inQuotes s ++ back).toList := by
  have inside : '\n' ∉ s.toList := fun mem => plain _ mem (by decide)
  simp [inQuotes, before, behind, inside]

include named in
theorem notMem_substitutionLines : ∀ line ∈ substitutionLines name, '\n' ∉ line.toList := by
  have word : '\n' ∉ name.toList := named.notMem (by decide)
  have plain := plain_of_isName named
  have entry (front back : String) := notMem_between (plain_stateEntry plain) front back
  have target (front back : String) := notMem_between (plain_placeholder plain) front back
  simp only [substitutionLines, List.forall_mem_cons]
  refine ⟨?_, entry _ _ (by decide) (by decide), target _ _ (by decide) (by decide),
    entry _ _ (by decide) (by decide), target _ _ (by decide) (by decide), by decide, nofun⟩
  rw [String.toList_append, List.mem_append, not_or]
  exact ⟨by decide, word⟩

include named in
theorem readReplacings_substitution (rest : List Char) :
    readReplacings (splitOn '\n' ((substitution name).toList ++ rest)) =
      (readReplacings (splitOn '\n' rest)).map (replacingOf name :: ·) := by
  have comment : ("        // Interpolate " ++ name).toList.dropPrefix? "        // ".toList =
      some ("Interpolate ".toList ++ name.toList) := by
    rw [String.toList_append]
    exact dropPrefix?_append "        // ".toList _
  have plain := plain_of_isName named
  have entry (front back : String) := readBetween_inQuotes (plain_stateEntry plain) front back
  have target (front back : String) := readBetween_inQuotes (plain_placeholder plain) front back
  rw [substitution_eq, toList_joinLines_concat, splitOn_lines (notMem_substitutionLines named)]
  simp only [substitutionLines, List.map_cons, List.map_nil, List.cons_append, List.nil_append]
  rw [readReplacings, comment]
  simp only [entry, target, Option.bind_eq_bind, Option.bind_some, if_true]
  rw [Option.map_eq_bind]
  rfl

end Name

theorem readReplacings_substitutions {names : List String} (named : ∀ name ∈ names, IsName name) :
    readReplacings (splitOn '\n' (String.join (names.map substitution)).toList) =
      some (names.map replacingOf) := by
  induction names with
  | nil => rfl
  | cons name names ih =>
    have later := ih fun other mem => named other (.tail name mem)
    rw [List.map_cons, String.join_cons, String.toList_append,
      readReplacings_substitution (named name (.head _)), later, Option.map_some, List.map_cons]

def wordingOf (text : String) : Wording where
  default := text
  replacings := (placeholders text).map replacingOf

/-- A message without placeholders is an expression, and no variable. -/
theorem not_variable (key text : String) :
    (localized key text).toList.dropPrefix? "var message = ".toList = none := by
  have front (a b c d e : String) :
      (a ++ b ++ c ++ d ++ e).toList = a.toList ++ (b ++ c ++ d ++ e).toList := by
    simp
  have other (rest : List Char) :
      ("String(localized: ".toList ++ rest).dropPrefix? "var message = ".toList = none := rfl
  unfold localized
  rw [front]
  exact other _

/-- The statements of a message are read back. -/
theorem read_messageInterpolation (text key : String) :
    readWording key (messageInterpolation text key true).toList = some (wordingOf text) := by
  unfold readWording wordingOf
  by_cases none : placeholders text = []
  · have written : messageInterpolation text key true = localized key text := by
      unfold messageInterpolation
      rw [none]
      rfl
    have alone := readLookUp_localized key text []
    rw [List.append_nil] at alone
    rw [written, not_variable, none]
    simp only [alone, Option.bind_eq_bind, Option.bind_some, List.map_nil]
  · have written : messageInterpolation text key true =
        "var message = " ++ localized key text ++ "\n" ++ String.join ((placeholders text).map substitution) := by
      unfold messageInterpolation
      split
      · next empty => exact absurd empty none
      · rfl
    have spelled (start back statements : String) :
        (start ++ localized key text ++ back ++ statements).toList =
          start.toList ++ ((localized key text).toList ++ (back.toList ++ statements.toList)) := by
      simp
    have read := @readReplacings_substitutions (placeholders text) fun _ => isName_of_mem_placeholders
    rw [written, spelled, dropPrefix?_append]
    simp only [readLookUp_localized, dropPrefix?_append, read, Option.bind_eq_bind, Option.bind_some]
    rfl

/-! ## The message that is built -/

variable (look : String → String) (shown : Float → String) (c : Contents)

/-- A substitution makes what the twin makes: an entry without a text has no number either. -/
theorem runOn_replacingOf (message name : String) :
    runOn ((replacingOf name).run shown message) c = ((fillAt c message name).mapError .number, c) := by
  unfold Replacing.run fillAt
  rw [runOn_bind, runOn_text]
  simp only [replacingOf]
  rcases found : textAt c (stateEntry name) with e | _ | value
  · rfl
  · exact runOn_bind_ok (runOn_number_of_textAt found) _
  · rfl

theorem runOn_replacings (message : String) (names : List String) :
    runOn ((names.map replacingOf).foldlM (Replacing.run shown) message) c =
      ((names.foldlM (fillAt c) message).mapError .number, c) := by
  induction names generalizing message with
  | nil => rfl
  | cons name names ih =>
    rw [List.map_cons, List.foldlM_cons, List.foldlM_cons, runOn_bind, runOn_replacingOf]
    cases fillAt c message name with
    | error e => rfl
    | ok filled => exact ih filled

/-- The statements of a message give the placeholders of the message their turns, in the text that is looked
up. -/
theorem runOn_wordingOf (text : String) :
    runOn ((wordingOf text).run look shown) c =
      ((turnsAt c (look text) (placeholders text)).mapError .number, c) := by
  unfold Wording.run wordingOf
  rw [runOn_replacings, foldlM_fillAt c _ fun _ => isName_of_mem_placeholders]

/-! ## Both messages -/

/-- Whether there is something to put in the place of a name. -/
def isGiven (c : Contents) (name : String) : Bool :=
  (stateText c name).isSome || !isLegible c name

/-- It is enough that the names that are given have a turn. -/
theorem turnsAt_filter (c : Contents) (message : String) (names : List String) :
    turnsAt c message (names.filter (isGiven c)) = turnsAt c message names := by
  have legible : (names.filter (isGiven c)).all (isLegible c) = names.all (isLegible c) := by
    rw [List.all_filter]
    congr
    funext name
    cases here : isLegible c name <;> simp [isGiven, here]
  have turns : afterTurns (stateText c) message (names.filter (isGiven c)) =
      afterTurns (stateText c) message names := by
    rw [← afterTurns_filter, ← afterTurns_filter message names, List.filter_filter]
    congr
    funext name
    cases here : (stateText c name).isSome <;> simp [isGiven, here]
  rw [turnsAt, turnsAt, legible, turns]

/-- Where localization is in use, the statements of a dialog are read back, and they give the placeholders of
the configured message their turns in the text that is looked up. The twin shows this text after the turns of
its own placeholders, and where a value among them has too many digits, it fails. The two are the same where
the names that have values come in the same order in the text and in the configured message. Where all values
can be written, each dollar sign of the text begins a placeholder and no value holds one, they are the same
just if each name in the text that has a value is in the configured message: then the order does not count,
nor what the text leaves out. -/
theorem spoken_as_generated (r : Runner) (localizing : r.useLocalization = true) (d : ConditionalDialog)
    (index : Nat) (c : Contents) :
    let key := Localization.dialogKey r.shortcut.identifier index
    let text := r.localize key d.message
    let generated := turnsAt c text (placeholders d.message)
    let spoken := turnsAt c text (placeholders text)
    (∃ w, readWording key (messageInterpolation d.message key true).toList = some w ∧
        ∀ shown, runOn (w.run (r.localize key) shown) c = (generated.mapError .number, c)) ∧
      (∀ (s : Circumstances) (j : Journal) confirmed ds, j.contents = c → dueAt c d = .ok true →
        ∃ k, j.Asked [] k ∧ s.run (r.walkDialogs confirmed index (d :: ds)) j =
          match spoken with
          | .ok message => s.run (if d.requiresConfirmation then do
              if ← confirm message then r.walkDialogs true (index + 1) ds
              else throw (.declined r.shortcut.identifier)
            else return .ended message) k
          | .error e => (.error (.number e), k)) ∧
      ((placeholders text).filter (isGiven c) = (placeholders d.message).filter (isGiven c) →
        spoken = generated) ∧
      (Steady (stateText c) (placeholders text ++ placeholders d.message) text →
        (placeholders text ++ placeholders d.message).all (isLegible c) →
        (spoken = generated ↔
          ∀ name ∈ placeholders text, isGiven c name → name ∈ placeholders d.message)) := by
  intro key text generated spoken
  have own : interpolateAt c (dialogText r (d, index)) = spoken := by
    have lookUp : dialogText r (d, index) = text := if_pos localizing
    rw [interpolateAt_eq, lookUp]
  refine ⟨⟨wordingOf d.message, read_messageInterpolation d.message key, fun shown => ?_⟩,
    fun s j confirmed ds here due => ?_, fun same => ?_, fun steady legible => ?_⟩
  · exact runOn_wordingOf (r.localize key) shown c d.message
  · rw [← own]
    exact Circumstances.run_due s r confirmed index ds here due
  · exact (turnsAt_filter ..).symm.trans ((congrArg (turnsAt c text) same).trans (turnsAt_filter ..))
  · rw [List.all_append, Bool.and_eq_true] at legible
    have onePass {message : String}
        (some_turns : placeholders message ⊆ placeholders text ++ placeholders d.message)
        (legible : (placeholders message).all (isLegible c) = true) :
        turnsAt c text (placeholders message) =
          .ok (substitute (among (stateText c) (placeholders message)) text) := by
      rw [turnsAt, if_pos legible,
        afterTurns_eq (fun _ => isName_of_mem_placeholders) (steady.mono some_turns).undisturbed]
    have whole : spoken = .ok (substitute (stateText c) text) := by
      refine (onePass (List.subset_append_left ..) legible.1).trans (congrArg Except.ok ?_)
      exact substitute_among fun _ mem _ => mem
    have part : generated = .ok (substitute (among (stateText c) (placeholders d.message)) text) :=
      onePass (List.subset_append_right ..) legible.2
    have given {name : String} (mem : name ∈ placeholders text) : isGiven c name = (stateText c name).isSome := by
      rw [isGiven, List.all_eq_true.mp legible.1 name mem, Bool.not_true, Bool.or_false]
    rw [whole, part, Except.ok.injEq, eq_comm, steady.substitute_among_iff]
    exact forall₂_congr fun name mem => by rw [given mem]

def translating (text : String) : Runner :=
  { guarded with useLocalization := true, localize := fun _ _ => text }

def notice (message : String) : ConditionalDialog where
  stateKey := "running"
  showWhen := .bool true
  message := message
  requiresConfirmation := false

def firstKey : String :=
  Localization.dialogKey "startTimer" 0

def status : String :=
  "$\x7bname\x7d is running ($\x7brunning\x7d)"

def reordered : String :=
  "($\x7brunning\x7d) $\x7bname\x7d läuft"

def nameOnly : String :=
  "$\x7bname\x7d läuft"

theorem dueAt_notice (message : String) : dueAt teaRunning (notice message) = .ok true := by
  have found : dueAt teaRunning (notice "") = .ok true := by decide
  exact found

theorem spoken_as_generated_reordered :
    (∃ w, readWording firstKey (messageInterpolation status firstKey true).toList = some w ∧
        ∀ shown, runOn (w.run (fun _ => reordered) shown) teaRunning = (.ok "(1) Tea läuft", teaRunning)) ∧
      ∃ k, Circumstances.run {} ((translating reordered).walkDialogs false 0 [notice status])
        { contents := teaRunning } = (.ok (.ended "(1) Tea läuft"), k) := by
  have steady : Steady (stateText teaRunning) (placeholders reordered ++ placeholders status) reordered :=
    ⟨by decide, by decide⟩
  have legible : (placeholders reordered ++ placeholders status).all (isLegible teaRunning) := by
    decide
  have turns : turnsAt teaRunning reordered (placeholders reordered) = .ok "(1) Tea läuft" := by
    decide
  have covered : ∀ name ∈ placeholders reordered, isGiven teaRunning name → name ∈ placeholders status := by
    decide
  obtain ⟨⟨w, read, built⟩, shown, -, same⟩ :=
    spoken_as_generated (translating reordered) rfl (notice status) 0 teaRunning
  have agree : turnsAt teaRunning reordered (placeholders status) = .ok "(1) Tea läuft" :=
    ((same steady legible).mpr covered).symm.trans turns
  obtain ⟨k, -, walk⟩ := shown {} { contents := teaRunning } false [] rfl (dueAt_notice status)
  refine ⟨⟨w, read, fun digits => (built digits).trans ?_⟩, k, ?_⟩
  · exact congrArg (fun x => (Except.mapError Failure.number x, teaRunning)) agree
  · rw [walk]
    split
    · next message spoken =>
      obtain rfl := Except.ok.inj (spoken.symm.trans turns)
      rfl
    · next e failed => cases failed.symm.trans turns

/-- A translation has a placeholder that the configured message has not: the statements leave it as it is. -/
theorem spoken_otherwise :
    (∃ w, readWording firstKey (messageInterpolation "Running" firstKey true).toList = some w ∧
        ∀ shown, runOn (w.run (fun _ => nameOnly) shown) teaRunning = (.ok nameOnly, teaRunning)) ∧
      ∃ k, Circumstances.run {} ((translating nameOnly).walkDialogs false 0 [notice "Running"])
        { contents := teaRunning } = (.ok (.ended "Tea läuft"), k) := by
  have message : dialogMessage (translating nameOnly) teaRunning (notice "Running", 0) = "Tea läuft" := by
    decide
  have untouched : turnsAt teaRunning nameOnly (placeholders "Running") = .ok nameOnly := by
    decide
  obtain ⟨k, -, walk⟩ := Circumstances.run_plain {} (translating nameOnly) false 0 []
    (j := { contents := teaRunning }) stateFits_teaRunning rfl (dueAt_notice "Running") rfl
  refine ⟨⟨wordingOf "Running", read_messageInterpolation .., fun shown => ?_⟩, k, ?_⟩
  · rw [runOn_wordingOf, untouched]
    rfl
  · rw [← message]
    exact walk

end ShortcutRelay.Swift
