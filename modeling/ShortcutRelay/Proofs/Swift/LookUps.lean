import ShortcutRelay.Localization.Strings
import ShortcutRelay.Proofs.Config.Accepted
import ShortcutRelay.Proofs.Json.Parts
import ShortcutRelay.Proofs.Swift.Phrase

/-!
# Look-ups in Swift

* `LooksUp s key text code` : for the shortcut `s`, the text under `key` is looked up by the
  expression `code`, which has `text` as the default where it has one;
* `looksUp_of_mem_strings` : the texts to be translated are looked up under their keys;
* `LooksUp.infix_file` : all these expressions stand in the file.
-/

namespace ShortcutRelay
open ShortcutRelay.Localization Swift Text

/-- For a shortcut the text under a key is looked up by an expression. -/
inductive LooksUp (s : Shortcut) : String → String → String → Prop
  | title : LooksUp s (titleKey s.identifier) s.title (resource (titleKey s.identifier) s.title)
  | description {text : String} (given : s.description = some text) (some_text : text ≠ "") :
    LooksUp s (descriptionKey s.identifier) text
      ("IntentDescription(" ++ inQuotes (descriptionKey s.identifier) ++ ")")
  | parameterTitle {i : Nat} {p : Parameter} (here : s.parameters[i]? = some p) :
    LooksUp s (parameterTitleKey s.identifier i) p.title
      (resource (parameterTitleKey s.identifier i) p.title)
  | parameterDescription {i : Nat} {p : Parameter} {text : String} (here : s.parameters[i]? = some p)
      (given : p.description = some text) (some_text : text ≠ "") :
    LooksUp s (parameterDescriptionKey s.identifier i) text
      (resource (parameterDescriptionKey s.identifier i) text)
  | prompt {i : Nat} {p : Parameter} (here : s.parameters[i]? = some p) :
    LooksUp s (promptKey s.identifier i) p.prompt (localized (promptKey s.identifier i) p.prompt)
  | dialog {i : Nat} {d : ConditionalDialog} (here : s.stateDialogs[i]? = some d) :
    LooksUp s (dialogKey s.identifier i) d.message
      (localized (dialogKey s.identifier i) d.message)
  | appGroupFailed : LooksUp s appGroupFailed.key appGroupFailed.text
      (localized appGroupFailed.key appGroupFailed.text)
  | timedOut : LooksUp s timedOut.key timedOut.text (localized timedOut.key timedOut.text)

/-! ## Texts to be translated -/

theorem OrderedMap.mem_of_mem_ofList {α : Type} {es : List (String × α)} {e : String × α}
    (h : e ∈ (ofList es).toList) : e ∈ es := by
  have later (fs : List (String × α)) (m : OrderedMap α)
      (h : e ∈ (fs.foldl (fun m f => m.put f.1 f.2) m).toList) : e ∈ m.toList ∨ e ∈ fs := by
    induction fs generalizing m with
    | nil => exact .inl h
    | cons f fs ih =>
      rcases ih _ h with before | after
      · rcases mem_putEntry before with rfl | old
        · exact .inr (List.mem_cons_self ..)
        · exact .inl old
      · exact .inr (List.mem_cons_of_mem _ after)
  exact (later es {} h).resolve_left List.not_mem_nil

theorem mem_givenEntry {key : String} {given : Option String} {e : String × String} :
    e ∈ givenEntry key given ↔ ∃ text, given = some text ∧ text ≠ "" ∧ e = (key, text) := by
  unfold givenEntry
  split
  · split
    · simp_all
    · simp_all
  · simp

/-- The texts of a shortcut are the ones that it looks up. -/
theorem mem_shortcutEntries {s : Shortcut} {key text : String}
    (h : (key, text) ∈ shortcutEntries s) : ∃ code, LooksUp s key text code := by
  unfold shortcutEntries at h
  simp only [List.mem_append, List.mem_singleton, mem_givenEntry, List.mem_flatten] at h
  rcases h with ((title | ⟨given, described, some_text, same⟩) | ⟨entries, listed, mem⟩) | dialog
  · cases title
    exact ⟨_, .title⟩
  · cases same
    exact ⟨_, .description described some_text⟩
  · obtain ⟨i, bound, rfl⟩ := List.mem_mapIdx.mp listed
    have here := List.getElem?_eq_getElem bound
    unfold parameterEntries at mem
    simp only [List.mem_append, List.mem_singleton, mem_givenEntry] at mem
    rcases mem with (title | ⟨given, described, some_text, same⟩) | prompt
    · cases title
      exact ⟨_, .parameterTitle here⟩
    · cases same
      exact ⟨_, .parameterDescription here described some_text⟩
    · cases prompt
      exact ⟨_, .prompt here⟩
  · obtain ⟨i, bound, same⟩ := List.mem_mapIdx.mp dialog
    cases same
    exact ⟨_, .dialog (List.getElem?_eq_getElem bound)⟩

/-- The texts of a configuration are looked up, each by one of the shortcuts. -/
theorem looksUp_of_mem_configEntries {c : Config} (some_shortcut : c.shortcuts ≠ [])
    {key text : String} (h : (key, text) ∈ configEntries c) :
    ∃ s ∈ c.shortcuts, ∃ code, LooksUp s key text code := by
  obtain ⟨first, others, same⟩ := List.exists_cons_of_ne_nil some_shortcut
  have listed : first ∈ c.shortcuts := same ▸ List.mem_cons_self ..
  unfold configEntries at h
  rcases List.mem_append.mp h with own | system
  · obtain ⟨s, mem, here⟩ := List.mem_flatMap.mp own
    exact ⟨s, mem, mem_shortcutEntries here⟩
  · simp only [List.mem_cons, List.not_mem_nil, or_false] at system
    rcases system with failed | ended
    · cases failed
      exact ⟨first, listed, _, .appGroupFailed⟩
    · cases ended
      exact ⟨first, listed, _, .timedOut⟩

/-- The texts to be translated are looked up, by one of the shortcuts. -/
theorem looksUp_of_mem_strings {c : Config} (some_shortcut : c.shortcuts ≠ []) {key text : String}
    (h : (key, text) ∈ (strings c).toList) :
    ∃ s ∈ c.shortcuts, ∃ code, LooksUp s key text code :=
  looksUp_of_mem_configEntries some_shortcut (OrderedMap.mem_of_mem_ofList h)

/-! ## Where the look-ups stand -/

variable {code text : String}

theorem infix_append_left (h : code.toList <:+: text.toList) (rest : String) :
    code.toList <:+: (text ++ rest).toList := by
  rw [String.toList_append]
  exact h.trans (List.prefix_append _ _).isInfix

theorem infix_append_right (h : code.toList <:+: text.toList) (front : String) :
    code.toList <:+: (front ++ text).toList := by
  rw [String.toList_append]
  exact h.trans (List.suffix_append _ _).isInfix

namespace Swift

variable {identifier : String} {i : Nat} {p : Parameter}

theorem title_infix_parameterDeclaration
    (made : parameterDeclaration true identifier i p = .ok text) :
    (resource (parameterTitleKey identifier i) p.title).toList <:+: text.toList := by
  obtain ⟨type, -, made⟩ := of_bind_eq_ok made
  obtain rfl := Except.ok.inj made
  refine List.IsInfix.trans ?_ (infix_joinLines (List.mem_cons_self ..))
  exact infix_append_left (infix_append_left (infix_append_right (List.infix_refl _) _) _) _

theorem description_infix_parameterDeclaration {described : String}
    (given : p.description = some described) (some_text : described ≠ "")
    (made : parameterDeclaration true identifier i p = .ok text) :
    (resource (parameterDescriptionKey identifier i) described).toList <:+: text.toList := by
  obtain ⟨type, -, made⟩ := of_bind_eq_ok made
  obtain rfl := Except.ok.inj made
  refine List.IsInfix.trans ?_ (infix_joinLines (List.mem_cons_self ..))
  refine infix_append_left (infix_append_right ?_ _) _
  rw [given]
  dsimp only
  rw [if_neg some_text]
  exact infix_append_right (List.infix_refl _) _

theorem infix_parameterDeclarations {parameters : List Parameter} {text : String}
    (made : parameterDeclarations parameters true identifier = .ok text)
    (here : parameters[i]? = some p) :
    ∃ block, parameterDeclaration true identifier i p = .ok block ∧
      block.toList <:+: text.toList := by
  obtain ⟨bound, rfl⟩ := List.getElem?_eq_some_iff.mp here
  unfold parameterDeclarations at made
  split at made
  · next none_left =>
    rw [List.isEmpty_iff.mp none_left] at bound
    cases bound
  · obtain ⟨blocks, found, made⟩ := of_bind_eq_ok made
    obtain rfl := Except.ok.inj made
    obtain ⟨block, listed, written⟩ := mem_mapPositions found bound
    rw [Nat.zero_add] at written
    exact ⟨block, written, infix_append_left (infix_append_right (infix_joinLines listed) _) _⟩

theorem prompt_infix_parameterRequest : (localized (promptKey identifier i) p.prompt).toList <:+:
    (parameterRequest true identifier i p).toList := by
  have line : (localized (promptKey identifier i) p.prompt).toList <:+:
      ("            " ++ p.name ++ " = try await $" ++ p.name ++
        ".requestValue(IntentDialog(stringLiteral: " ++ localized (promptKey identifier i) p.prompt ++
        "))").toList :=
    infix_append_left (infix_append_right (List.infix_refl _) _) _
  exact line.trans (infix_joinLines (by simp))

theorem prompt_infix_parameterRequests {parameters : List Parameter}
    (here : parameters[i]? = some p) : (localized (promptKey identifier i) p.prompt).toList <:+:
      (parameterRequests parameters true identifier).toList := by
  obtain ⟨bound, rfl⟩ := List.getElem?_eq_some_iff.mp here
  have some_parameter : ¬ parameters.isEmpty = true := by
    rintro none_left
    rw [List.isEmpty_iff.mp none_left] at bound
    cases bound
  have request : (localized (promptKey identifier i) parameters[i].prompt).toList <:+:
      (parameterRequest true identifier i parameters[i]).toList :=
    prompt_infix_parameterRequest
  have listed : parameterRequest true identifier i parameters[i] ∈
      parameters.mapIdx (parameterRequest true identifier) := List.mem_mapIdx.mpr ⟨i, bound, rfl⟩
  unfold parameterRequests
  rw [if_neg some_parameter]
  exact request.trans (infix_append_left (infix_append_right (infix_joinLines listed) _) _)

theorem infix_dialogAction (className : String) (confirm : Bool) (value : String) :
    value.toList <:+: (dialogAction className confirm value).toList := by
  unfold dialogAction
  split
  · have line : value.toList <:+:
        ("                    result: .result(dialog: IntentDialog(stringLiteral: " ++ value ++
          "))").toList :=
      infix_append_left (infix_append_right (List.infix_refl _) _) _
    exact line.trans (infix_joinLines (by simp))
  · exact infix_append_left (infix_append_right (List.infix_refl _) _) _

theorem infix_messageInterpolation (message key : String) :
    (localized key message).toList <:+: (messageInterpolation message key true).toList := by
  unfold messageInterpolation
  split
  · exact List.infix_refl _
  · exact infix_append_left (infix_append_left (infix_append_right (List.infix_refl _) _) _) _

/-- The message of a dialog is looked up in the statements that build it, or where it is shown. -/
theorem message_infix_conditionalDialog {index : Int} {className : String}
    {dialog : ConditionalDialog} {condition key text : String}
    (made : conditionalDialog index className dialog condition key true = .ok text) :
    (localized key dialog.message).toList <:+: text.toList := by
  obtain ⟨shown, -, made⟩ := of_bind_eq_ok made
  dsimp only at made
  obtain rfl := Except.ok.inj made
  refine List.IsInfix.trans ?_ (infix_joinLines (List.mem_of_getElem? (i := 4) rfl))
  by_cases plain : (Template.placeholders dialog.message).isEmpty = true
  · simp only [if_pos plain]
    exact infix_append_right (infix_dialogAction _ _ _) _
  · simp only [if_neg plain]
    refine infix_append_left (infix_append_right ?_ _) _
    refine List.IsInfix.trans ?_ (infix_joinLines (List.mem_of_getElem? (i := 1) rfl))
    exact infix_append_right (infix_messageInterpolation _ _) _

theorem message_infix_stateDialogs {s : Shortcut} {d : ConditionalDialog} {text : String}
    (here : s.stateDialogs[i]? = some d) (made : stateDialogs s true = .ok text) :
    (localized (dialogKey s.identifier i) d.message).toList <:+: text.toList := by
  obtain ⟨bound, rfl⟩ := List.getElem?_eq_some_iff.mp here
  unfold stateDialogs at made
  split at made
  · next none_left =>
    rw [List.isEmpty_iff.mp none_left] at bound
    cases bound
  · obtain ⟨blocks, found, made⟩ := of_bind_eq_ok made
    obtain rfl := Except.ok.inj made
    obtain ⟨block, listed, written⟩ := mem_mapPositions found bound
    obtain ⟨condition, -, written⟩ := of_bind_eq_ok written
    rw [Nat.zero_add] at written
    refine List.IsInfix.trans ?_ (infix_joinLines (List.mem_of_getElem? (i := 2) rfl))
    refine infix_append_right ?_ _
    exact (message_infix_conditionalDialog written).trans (infix_joinLines listed)

theorem description_infix_intentDescription {s : Shortcut} (given : s.description = some text)
    (some_text : text ≠ "") :
    ("IntentDescription(" ++ inQuotes (descriptionKey s.identifier) ++ ")").toList <:+:
      (intentDescription s true).toList := by
  have spelled : "static var description = IntentDescription(" =
      "static var description = " ++ "IntentDescription(" := by decide
  have written : intentDescription s true = "static var description = " ++
      ("IntentDescription(" ++ inQuotes (descriptionKey s.identifier) ++ ")") := by
    unfold intentDescription
    rw [given]
    dsimp only
    rw [if_neg some_text, if_pos rfl, spelled]
    simp only [String.append_assoc]
  rw [written]
  exact infix_append_right (List.infix_refl _) _

/-- What a shortcut looks up is looked up in its type or its registration. -/
theorem infix_intentStruct {s : Shortcut} {key t : String} (h : LooksUp s key t code)
    (made : intentStruct s true = .ok text) :
    code.toList <:+: text.toList ∨ code.toList <:+: (appShortcut s true).toList := by
  unfold intentStruct at made
  obtain ⟨declarations, declared, made⟩ := of_bind_eq_ok made
  obtain ⟨initials, -, made⟩ := of_bind_eq_ok made
  obtain ⟨dialogs, checked, made⟩ := of_bind_eq_ok made
  obtain rfl := Except.ok.inj made
  replace declared := of_mapError_eq_ok declared
  cases h with
  | title =>
    have line : (resource (titleKey s.identifier) s.title).toList <:+:
        ("            shortTitle: " ++ resource (titleKey s.identifier) s.title ++ ",").toList :=
      infix_append_left (infix_append_right (List.infix_refl _) _) _
    exact .inr (line.trans (infix_joinLines (by simp)))
  | description given some_text =>
    have line := infix_append_right (description_infix_intentDescription given some_text) "    "
    exact .inl (line.trans (infix_joinLines (by simp)))
  | parameterTitle here =>
    obtain ⟨block, written, inside⟩ := infix_parameterDeclarations declared here
    have line := infix_append_left ((title_infix_parameterDeclaration written).trans inside) initials
    exact .inl (line.trans (infix_joinLines (by simp)))
  | parameterDescription here given some_text =>
    obtain ⟨block, written, inside⟩ := infix_parameterDeclarations declared here
    have described := description_infix_parameterDeclaration given some_text written
    have line := infix_append_left (described.trans inside) initials
    exact .inl (line.trans (infix_joinLines (by simp)))
  | @prompt i p here =>
    have asked : (localized (promptKey s.identifier i) p.prompt).toList <:+:
        (parameterRequests s.parameters true s.identifier).toList :=
      prompt_infix_parameterRequests here
    have line := infix_append_left asked dialogs
    exact .inl (line.trans (infix_joinLines (by simp)))
  | dialog here =>
    have line := infix_append_right (message_infix_stateDialogs here (of_mapError_eq_ok checked))
      (parameterRequests s.parameters true s.identifier)
    exact .inl (line.trans (infix_joinLines (by simp)))
  | appGroupFailed =>
    have line : (localized appGroupFailed.key appGroupFailed.text).toList <:+:
        ("            return .result(dialog: IntentDialog(stringLiteral: " ++
          systemMessage true appGroupFailed ++ "))").toList :=
      infix_append_left (infix_append_right (List.infix_refl _) _) _
    exact .inl (line.trans (infix_joinLines (by simp)))
  | timedOut =>
    have line : (localized timedOut.key timedOut.text).toList <:+:
        ("        return .result(dialog: IntentDialog(stringLiteral: " ++
          systemMessage true timedOut ++ "))").toList :=
      infix_append_left (infix_append_right (List.infix_refl _) _) _
    exact .inl (line.trans (infix_joinLines (by simp)))

end Swift

/-- What a shortcut looks up is looked up in the file. -/
theorem LooksUp.infix_file {c : Config} {s : Shortcut} (mem : s ∈ c.shortcuts) {key t : String}
    (h : LooksUp s key t code) {source : String} (made : file c true source = .ok text) :
    code.toList <:+: text.toList := by
  have registered := appShortcut_infix_file mem made
  obtain ⟨intents, found, written⟩ := of_bind_eq_ok made
  obtain rfl := Except.ok.inj written
  obtain ⟨k, bound, rfl⟩ := List.getElem_of_mem mem
  obtain ⟨intent, listed, type⟩ := mem_mapPositions found bound
  rcases infix_intentStruct h type with inside | inside
  · exact (inside.trans (infix_joinLines listed)).trans (infix_joinLines (by simp))
  · exact inside.trans registered

end ShortcutRelay
