import ShortcutRelay.Proofs.Except
import ShortcutRelay.Proofs.Swift.Names
import ShortcutRelay.Proofs.Template.Placeholder
import ShortcutRelay.Swift.File

/-!
# Parameters and dialogs are read line by line

A reader gets through what is written for the parts of a shortcut, where the names that the shortcut
brings mean nothing to it.

* `leads_localized` and companions : expressions;
* `plain_titleKey` and companions : keys;
* `leads_parameterDeclarations`, `leads_initializers`, `leads_parameterRequests`,
  `tame_parameterWrites` : parameters;
* `tame_stateDialogs` : state dialogs.
-/

namespace ShortcutRelay.Swift
open Text Template ShortcutRelay.Localization

-- A proof about a line goes through its characters.
set_option maxRecDepth 1500

variable {key : String}

/-! ## Expressions -/

theorem leads_key (h : Plain key) : Leads .code (inQuotes key) .code :=
  leads_inQuotes (leads_of_plain h).2

theorem leads_localized (h : Plain key) (text : String) :
    Leads .code (localized key text) .code := by
  have opened : Leads .code "String(localized: " .code := leads_ofList (by decide)
  have between : Leads .code ", defaultValue: " .code := leads_ofList (by decide)
  have closed : Leads .code ")" .code := leads_ofList (by decide)
  exact (((opened.append (leads_key h)).append between).append (leads_literal text)).append closed

theorem leads_resource (h : Plain key) (text : String) : Leads .code (resource key text) .code := by
  have opened : Leads .code "LocalizedStringResource(" .code := leads_ofList (by decide)
  have between : Leads .code ", defaultValue: " .code := leads_ofList (by decide)
  have closed : Leads .code ")" .code := leads_ofList (by decide)
  exact (((opened.append (leads_key h)).append between).append (leads_literal text)).append closed

theorem leads_message (useKeys : Bool) (h : Plain key) (text : String) :
    Leads .code (message useKeys key text) .code := by
  unfold message
  split
  · exact leads_localized h text
  · exact leads_literal text

theorem leads_shownResource (useKeys : Bool) (h : Plain key) (text : String) :
    Leads .code (shownResource useKeys key text) .code := by
  unfold shownResource
  split
  · exact leads_resource h text
  · have opened : Leads .code "LocalizedStringResource(" .code := leads_ofList (by decide)
    have closed : Leads .code ")" .code := leads_ofList (by decide)
    exact (opened.append (leads_literal text)).append closed

/-! ## Keys -/

section Keys

variable {identifier : String} (plain : Plain identifier) (index : Nat)
include plain

theorem plain_titleKey : Plain (titleKey identifier) :=
  plain.append (plain_ofList (by decide))

theorem plain_descriptionKey : Plain (descriptionKey identifier) :=
  plain.append (plain_ofList (by decide))

theorem plain_parameterKey : Plain (parameterKey identifier index) :=
  (plain.append (plain_ofList (by decide))).append (plain_toString index)

theorem plain_parameterTitleKey : Plain (parameterTitleKey identifier index) :=
  (plain_parameterKey plain index).append (plain_ofList (by decide))

theorem plain_parameterDescriptionKey : Plain (parameterDescriptionKey identifier index) :=
  (plain_parameterKey plain index).append (plain_ofList (by decide))

theorem plain_promptKey : Plain (promptKey identifier index) :=
  (plain_parameterKey plain index).append (plain_ofList (by decide))

theorem plain_dialogKey : Plain (dialogKey identifier index) :=
  ((plain.append (plain_ofList (by decide))).append (plain_toString index)).append
    (plain_ofList (by decide))

end Keys

/-! ## Parameters -/

theorem plain_typeName {type : ValueType} {name : String} (h : typeName type = .ok name) :
    Plain name := by
  cases type <;> cases h <;> exact plain_ofList (by decide)

theorem leads_break {q : Cursor} (outside : q.mode.isOutside = true) : Leads q "\n" .start := by
  have ended : q.next? '\n' = some .start := by
    rw [Cursor.next?, if_pos (by decide), if_pos outside]
  exact Option.bind_eq_some_iff.mpr ⟨_, ended, rfl⟩

/-- Between two line breaks a text is read from one line start to another. -/
theorem leads_between_breaks {s : String} (h : Tame s) : Leads .start ("\n" ++ s ++ "\n") .start := by
  obtain ⟨q, led, outside⟩ := h
  exact ((leads_break rfl).append led).append (leads_break outside)

section Parameter

variable {identifier : String} {index : Nat} {p : Parameter} (plain : Plain identifier)
  (named : Plain p.name)

include plain named in
theorem tame_parameterDeclaration {useKeys : Bool} {text : String}
    (made : parameterDeclaration useKeys identifier index p = .ok text) : Tame text := by
  unfold parameterDeclaration at made
  obtain ⟨type, typed, made⟩ := of_bind_eq_ok made
  obtain rfl := Except.ok.inj made
  have title := leads_shownResource useKeys (plain_parameterTitleKey plain index) p.title
  have described : Leads .code ", description: " .code := leads_ofList (by decide)
  have opened : Leads .start "    @Parameter(title: " .code := leads_ofList (by decide)
  have closed : Leads .code ")" .code := leads_ofList (by decide)
  have property : Leads .start "    var " .code := leads_ofList (by decide)
  have colon : Leads .code ": " .code := leads_ofList (by decide)
  refine tame_joinLines (List.forall_mem_cons.mpr ⟨?_, List.forall_mem_singleton.mpr ?_⟩)
  · refine ⟨_, ((opened.append title).append ?_).append closed, rfl⟩
    split
    · split
      · rfl
      · exact described.append
          (leads_shownResource useKeys (plain_parameterDescriptionKey plain index) _)
    · rfl
  · have declared := ((property.append (leads_of_plain named).1).append colon).append
      (leads_of_plain (plain_typeName typed)).1
    exact ⟨_, declared, rfl⟩

include named in
theorem tame_parameterRequest (useKeys : Bool) (plain : Plain identifier) :
    Tame (parameterRequest useKeys identifier index p) := by
  have name := leads_of_plain named
  have prompt : Leads .code (if useKeys then localized (promptKey identifier index) p.prompt
      else literal p.prompt) .code := by
    split
    · exact leads_localized (plain_promptKey plain index) _
    · exact leads_literal _
  refine tame_joinLines ?_
  simp only [List.forall_mem_cons]
  refine ⟨⟨.comment, ?_, rfl⟩, ⟨.code, ?_, rfl⟩, ⟨.code, ?_, rfl⟩, tame_ofList (by decide), nofun⟩
  · exact (leads_comment named.unbroken).between (by decide) (by decide)
  · exact name.1.between (by decide) (by decide)
  · exact ((((name.1.between (by decide) (by decide)).append name.1).before (by decide)).append
      prompt).before (by decide)

include named in
theorem tame_storeStatements {className : String} (type : Plain className) :
    ∀ t ∈ storeStatements className p, Tame t := by
  have name := leads_of_plain named
  have log {note : String} (h : Plain note) : Tame ("            print(\"[" ++ className ++
      "] Writing parameter " ++ p.name ++ note ++ ": \\(" ++ p.name ++ ")\")") := by
    refine ⟨.code, ?_, rfl⟩
    exact ((((((leads_of_plain type).2.between (by decide) (by decide)).append name.2).append
      (leads_of_plain h).2).before (by decide)).append name.2).before (by decide)
  have set {value : String} (h : Leads .code value .code) : Tame ("            defaults.set(" ++
      value ++ ", forKey: " ++ inQuotes (Protocol.parameterEntry p.name) ++ ")") := by
    have entry : Plain (Protocol.parameterEntry p.name) :=
      Plain.append (plain_ofList (by decide)) named
    refine ⟨.code, ?_, rfl⟩
    exact ((h.between (by decide) (by decide)).append (leads_key entry)).before (by decide)
  have tag {value : String} (h : Plain value) : Tame ("            defaults.set(" ++
      inQuotes value ++ ", forKey: " ++ inQuotes (Protocol.parameterTagEntry p.name) ++ ")") := by
    have entry : Plain (Protocol.parameterTagEntry p.name) :=
      Plain.append (plain_ofList (by decide)) named
    refine ⟨.code, ?_, rfl⟩
    exact (((leads_key h).between (by decide) (by decide)).append (leads_key entry)).before (by decide)
  unfold storeStatements
  dsimp only
  split
  · refine List.forall_mem_cons.mpr ⟨log (plain_ofList (by decide)), ?_⟩
    refine List.forall_mem_cons.mpr ⟨set (name.1.before (by decide)), ?_⟩
    exact List.forall_mem_singleton.mpr (tag (plain_ofList (by decide)))
  · refine List.forall_mem_cons.mpr ⟨log (plain_ofList (by decide)), ?_⟩
    refine List.forall_mem_cons.mpr ⟨set name.1, ?_⟩
    exact List.forall_mem_singleton.mpr (tag (plain_ofList (by decide)))
  · refine List.forall_mem_cons.mpr ⟨log (plain_ofList (by decide)), ?_⟩
    exact List.forall_mem_singleton.mpr (set name.1)

include named in
theorem tame_parameterWrite {className : String} (type : Plain className) :
    Tame (parameterWrite className p) := by
  have name := leads_of_plain named
  refine tame_joinLines ?_
  rw [List.forall_mem_append, List.forall_mem_append]
  refine ⟨⟨List.forall_mem_singleton.mpr ⟨.code, ?_, rfl⟩, tame_storeStatements named type⟩, ?_⟩
  · exact ((name.1.between (by decide) (by decide)).append name.1).before (by decide)
  · simp only [List.forall_mem_cons]
    refine ⟨tame_ofList (by decide), ⟨.code, ?_, rfl⟩, tame_ofList (by decide), nofun⟩
    exact (((leads_of_plain type).2.between (by decide) (by decide)).append name.2).before (by decide)

end Parameter

section Parameters

variable {identifier : String} {parameters : List Parameter} (plain : Plain identifier)
  (named : ∀ p ∈ parameters, Plain p.name)

include plain named in
theorem leads_parameterDeclarations {useKeys : Bool} {text : String}
    (made : parameterDeclarations parameters useKeys identifier = .ok text) :
    Leads .start text .start := by
  unfold parameterDeclarations at made
  split at made
  · cases made
    rfl
  · obtain ⟨blocks, found, made⟩ := of_bind_eq_ok made
    cases made
    refine leads_between_breaks (tame_joinLines fun block mem => ?_)
    obtain ⟨p, listed, index, declared⟩ := mem_of_mapPositions found mem
    exact tame_parameterDeclaration plain (named p listed) declared

include named in
theorem leads_initializers {text : String} (made : initializers parameters = .ok text) :
    Leads .start text .start := by
  unfold initializers at made
  split at made
  · cases made
    rfl
  · obtain ⟨arguments, found, made⟩ := of_bind_eq_ok made
    obtain rfl := Except.ok.inj made
    have listed : Plain (joinWith ", " arguments) := by
      refine plain_joinWith (plain_ofList (by decide)) fun text mem => ?_
      obtain ⟨p, there, index, argued⟩ := mem_of_mapPositions found mem
      obtain ⟨type, typed, argued⟩ := of_bind_eq_ok argued
      cases argued
      exact ((named p there).append (plain_ofList (by decide))).append (plain_typeName typed)
    have assigned : Tame (joinLines (parameters.map fun p =>
        "        self." ++ p.name ++ " = " ++ p.name)) := by
      refine tame_joinLines fun text mem => ?_
      obtain ⟨p, there, rfl⟩ := List.mem_map.mp mem
      have name := (leads_of_plain (named p there)).1
      exact ⟨.code, (name.between (by decide) (by decide)).append name, rfl⟩
    have opened : Tame ("    init(" ++ joinWith ", " arguments ++ ") \x7b") :=
      ⟨.code, (leads_of_plain listed).1.between (by decide) (by decide), rfl⟩
    refine @leads_joinLines_concat _ _ [_, _, _, _, _, _] ?_ rfl
    simp only [List.forall_mem_cons]
    exact ⟨tame_empty, tame_ofList (by decide), tame_empty, opened, assigned,
      tame_ofList (by decide), nofun⟩

include plain named in
theorem leads_parameterRequests (useKeys : Bool) :
    Leads .start (parameterRequests parameters useKeys identifier) .start := by
  unfold parameterRequests
  split
  · rfl
  · refine leads_between_breaks (tame_joinLines fun block mem => ?_)
    obtain ⟨index, bound, rfl⟩ := List.mem_mapIdx.mp mem
    exact tame_parameterRequest (named _ (List.getElem_mem bound)) useKeys plain

include named in
theorem tame_parameterWrites {className : String} (type : Plain className) :
    Tame (parameterWrites parameters className) := by
  unfold parameterWrites
  split
  · exact ⟨_, rfl, rfl⟩
  · have blocks : Tame (joinLines (parameters.map (parameterWrite className))) := by
      refine tame_joinLines fun block mem => ?_
      obtain ⟨p, listed, rfl⟩ := List.mem_map.mp mem
      exact tame_parameterWrite (named p listed) type
    obtain ⟨q, led, outside⟩ := blocks
    exact ⟨_, (led.behind (by decide)).append (leads_break outside), rfl⟩

end Parameters

/-! ## State dialogs -/

theorem plain_of_isName {name : String} (named : IsName name) : Plain name := by
  have apart : ∀ c ∈ marks, isWord c = false :=
    List.all_iff_forall_prop.mp (by decide)
  intro c mem marked
  cases (named.word c mem).symm.trans (apart c marked)

theorem plain_of_mem_placeholders {message name : String} (h : name ∈ placeholders message) :
    Plain name :=
  plain_of_isName (isName_of_mem_placeholders h)

theorem plain_stateEntry {name : String} (plain : Plain name) : Plain (Protocol.stateEntry name) :=
  Plain.append (plain_ofList (by decide)) plain

theorem plain_placeholder {name : String} (plain : Plain name) : Plain (placeholder name) :=
  ((plain_ofList (by decide)).append plain).append (plain_ofList (by decide))

theorem leads_substitution {name : String} (plain : Plain name) :
    Leads .start (substitution name) .start := by
  have entry := plain_stateEntry plain
  have target := plain_placeholder plain
  have replace {value : String} (h : Leads .code value .code) :
      Tame ("            message = message.replacingOccurrences(of: " ++
        inQuotes (placeholder name) ++ ", with: " ++ value ++ ")") := by
    refine ⟨.code, ?_, rfl⟩
    exact (((leads_key target).between (by decide) (by decide)).append h).before (by decide)
  have comment : Tame ("        // Interpolate " ++ name) :=
    ⟨.comment, (leads_comment plain.unbroken).behind (by decide), rfl⟩
  have text : Tame ("        if let value = defaults.string(forKey: " ++
      inQuotes (Protocol.stateEntry name) ++ ") \x7b") :=
    ⟨.code, (leads_key entry).between (by decide) (by decide), rfl⟩
  have number : Tame ("        \x7d else if let numValue = defaults.object(forKey: " ++
      inQuotes (Protocol.stateEntry name) ++ ") as? NSNumber \x7b") :=
    ⟨.code, (leads_key entry).between (by decide) (by decide), rfl⟩
  refine @leads_joinLines_concat _ _ [_, _, _, _, _, _] ?_ rfl
  simp only [List.forall_mem_cons]
  exact ⟨comment, text, replace (leads_ofList (by decide)), number,
    replace (leads_ofList (by decide)), tame_ofList (by decide), nofun⟩

theorem leads_substitutions {names : List String} (plain : ∀ name ∈ names, Plain name) :
    Leads .start (String.join (names.map substitution)) .start := by
  induction names with
  | nil => rfl
  | cons name names ih =>
    rw [List.map_cons, String.join_cons]
    exact (leads_substitution (plain name (List.mem_cons_self ..))).append
      (ih fun other mem => plain other (List.mem_cons_of_mem _ mem))

/-- The statements that build a message end in code or at the start of a line. -/
theorem leads_messageInterpolation (text : String) (plain : Plain key) (useKeys : Bool) :
    ∃ q, Leads .code (messageInterpolation text key useKeys) q ∧ q.mode.isOutside = true := by
  have message := leads_message useKeys plain text
  unfold messageInterpolation
  split
  · exact ⟨.code, message, rfl⟩
  · have names := @leads_substitutions (placeholders text) fun _ => plain_of_mem_placeholders
    refine ⟨.start, ?_, rfl⟩
    exact ((message.behind (by decide)).append (leads_break rfl)).append names

theorem leads_dialogAction {className value : String} (type : Plain className) (confirm : Bool)
    (h : Leads .code value .code) : Leads .code (dialogAction className confirm value) .code := by
  unfold dialogAction
  split
  · have result : Tame ("                    result: .result(dialog: IntentDialog(stringLiteral: " ++
        value ++ "))") :=
      ⟨.code, h.between (by decide) (by decide), rfl⟩
    have log : Tame ("                print(\"[" ++ className ++
        "] User cancelled confirmation\")") :=
      ⟨.code, (leads_of_plain type).2.between (by decide) (by decide), rfl⟩
    have first : Leads .code "do \x7b" .code := leads_ofList (by decide)
    refine first.joinLines_cons rfl (@leads_joinLines_concat _ _ [_, _, _, _, _, _, _, _, _] ?_ ?_)
    · simp only [List.forall_mem_cons]
      exact ⟨tame_ofList (by decide), result, tame_ofList (by decide), tame_ofList (by decide),
        tame_ofList (by decide), tame_ofList (by decide), tame_ofList (by decide), log,
        tame_ofList (by decide), nofun⟩
    · exact leads_ofList (by decide)
  · exact h.between (by decide) (by decide)

theorem unbroken_flattened (s : String) : Unbroken (flattened s) := by
  intro c mem
  rw [flattened, String.toList_map] at mem
  obtain ⟨x, -, rfl⟩ := List.mem_map.mp mem
  split
  · rfl
  · next other => simpa [isLineBreak, and_comm] using other

theorem leads_condition {key text : String} {value : Document} (written : condition key value = .ok text) :
    Leads .code text .code := by
  have number : Leads .code ("defaults.double(forKey: " ++ literal key ++ ")") .code :=
    (leads_literal key).between (by decide) (by decide)
  have entry : Leads .code ("defaults.string(forKey: " ++ literal key ++ ")") .code :=
    (leads_literal key).between (by decide) (by decide)
  have equals : Leads .code " == " .code := leads_ofList (by decide)
  unfold condition at written
  dsimp only at written
  split at written
  · cases written
    refine (number.append equals).append ?_
    split <;> exact leads_ofList (by decide)
  · next n =>
    obtain ⟨digits, found, rfl⟩ := of_map_eq_ok (x := wholeText n) written
    obtain rfl := toString_of_wholeText found
    exact (number.append equals).append (leads_of_plain (plain_of_numeral (Decimal.numeral_toString n))).1
  · cases written
    exact (number.append equals).append (leads_of_plain (plain_formatFloat _)).1
  · cases written
    exact (entry.append equals).append (leads_literal _)
  · cases written
    exact entry.before (by decide)

theorem tame_conditionalDialog {className condition key text : String} {dialog : ConditionalDialog}
    (type : Plain className) (plain : Plain key) (checked : Leads .code condition .code) {index : Nat}
    {useKeys : Bool} (written : conditionalDialog index className dialog condition key useKeys = .ok text) :
    Tame text := by
  obtain ⟨shown, -, written⟩ := of_bind_eq_ok written
  dsimp only at written
  obtain rfl := Except.ok.inj written
  generalize kinds : (if dialog.requiresConfirmation = true
    then ("confirmation", "Confirmation required")
    else ("message and return", "Showing message (no confirmation)")) = kind
  generalize parts : (if (placeholders dialog.message).isEmpty = true
    then ("", message useKeys key dialog.message)
    else (joinLines ["// Interpolate message with current app state",
      "            " ++ messageInterpolation dialog.message key useKeys, "            "],
      "message")) = part
  have named : Unbroken kind.1 := by
    rw [← kinds]
    split <;> exact (plain_ofList (by decide)).unbroken
  have prepared : Leads .code part.1 .code ∧ Leads .code part.2 .code := by
    rw [← parts]
    split
    · exact ⟨rfl, leads_message useKeys plain _⟩
    · obtain ⟨q, led, outside⟩ := leads_messageInterpolation dialog.message plain useKeys
      have comment : Leads .code "// Interpolate message with current app state" .comment :=
        leads_ofList (by decide)
      have indent : Leads .start "            " .code := leads_ofList (by decide)
      exact ⟨comment.joinLines_cons rfl ((indent.append led).joinLines_cons outside indent),
        leads_ofList (by decide)⟩
  have number : Unbroken (toString ((index : Int) + 1)) :=
    (plain_of_numeral (Decimal.numeral_toString _)).unbroken
  have action := leads_dialogAction type dialog.requiresConfirmation prepared.2
  refine tame_joinLines ?_
  simp only [List.forall_mem_cons]
  refine ⟨tame_empty, ⟨.comment, ?_, rfl⟩, ⟨.code, ?_, rfl⟩, ⟨.code, ?_, rfl⟩,
    ⟨.code, ?_, rfl⟩, tame_ofList (by decide), nofun⟩
  · exact ((((leads_comment number).between (by decide) (by decide)).append
      (leads_comment named)).before (by decide)).append (leads_comment (unbroken_flattened _))
  · exact checked.between (by decide) (by decide)
  · exact (leads_literal _).between (by decide) (by decide)
  · exact (prepared.1.behind (by decide)).append action

theorem tame_stateDialogs {s : Shortcut} (neat : s.Neat) {useKeys : Bool} {text : String}
    (written : stateDialogs s useKeys = .ok text) : Tame text := by
  unfold stateDialogs at written
  split at written
  · cases written
    exact tame_empty
  · obtain ⟨blocks, made, written⟩ := of_bind_eq_ok written
    obtain rfl := Except.ok.inj written
    have indent : Leads .start "        " .code := leads_ofList (by decide)
    have blocks : Tame (joinLines blocks) := by
      refine tame_joinLines fun block mem => ?_
      obtain ⟨d, -, index, made⟩ := mem_of_mapPositions made mem
      obtain ⟨checked, compared, made⟩ := of_bind_eq_ok made
      exact tame_conditionalDialog neat.className (plain_dialogKey neat.identifier index)
        (leads_condition compared) made
    have flagged : Leads .code (if s.hasConfirmation then
        joinLines [
          "",
          "        // Track whether user confirmed any state-based dialogs",
          "        var userConfirmedOverride = false",
          "        "]
        else "") .code := by
      split
      · have first : Leads .code "" .code := rfl
        refine first.joinLines_cons rfl (@leads_joinLines_concat _ _ [_, _] ?_ indent)
        simp only [List.forall_mem_cons]
        exact ⟨tame_ofList (by decide), tame_ofList (by decide), nofun⟩
      · rfl
    refine tame_joinLines ?_
    simp only [List.forall_mem_cons]
    refine ⟨tame_empty, tame_ofList (by decide), ?_, tame_ofList (by decide), nofun⟩
    obtain ⟨q, led, outside⟩ := blocks.of_code
    exact ⟨q, (indent.append flagged).append led, outside⟩

end ShortcutRelay.Swift
