import ShortcutRelay.Proofs.Swift.Phrase
import ShortcutRelay.Proofs.Swift.Pieces

/-!
# The Swift file is read line by line

* `intentStruct_parts`, `appShortcut_parts`, `file_parts` : the lines of the type of a shortcut, of its
  registration and of the file. Where names are neat, all but the headers of types and the names of
  images begin no declaration of a type and leave no literal open.
-/

namespace ShortcutRelay.Swift
open Text Template ShortcutRelay.Localization

-- A proof about a line goes through its characters.
set_option maxRecDepth 1500

/-! ## Types and registrations -/

def structHeader (s : Shortcut) : String :=
  "struct " ++ s.className ++ ": AppIntent \x7b"

def performingLine (s : Shortcut) : String :=
  "        " ++ ("print(\"[" ++ s.className ++ "] " ++ ("Performing shortcut: " ++ s.identifier) ++ "\")")

variable {s : Shortcut} {useKeys : Bool}

theorem leads_intentTitle (neat : s.Neat) : Leads .code (intentTitle s useKeys) .code := by
  unfold intentTitle
  split
  · exact leads_key (plain_titleKey neat.identifier)
  · exact leads_literal _

theorem leads_intentDescription (neat : s.Neat) :
    Leads .code (intentDescription s useKeys) .code := by
  have quoted (text : String) : Leads .code (if useKeys then inQuotes (descriptionKey s.identifier)
      else literal text) .code := by
    split
    · exact leads_key (plain_descriptionKey neat.identifier)
    · exact leads_literal _
  unfold intentDescription
  split
  · split
    · rfl
    · exact (quoted _).between (by decide) (by decide)
  · rfl

theorem leads_log (neat : s.Neat) {text : String} (h : Leads .literal text .literal) :
    Leads .code ("print(\"[" ++ s.className ++ "] " ++ text ++ "\")") .code :=
  (((leads_of_plain neat.className).2.between (by decide) (by decide)).append h).before (by decide)

theorem tame_performingLine (neat : s.Neat) : Tame (performingLine s) := by
  have indent : Leads .start "        " .code := leads_ofList (by decide)
  have told : Leads .literal ("Performing shortcut: " ++ s.identifier) .literal :=
    (leads_of_plain neat.identifier).2.behind (by decide)
  exact ⟨.code, indent.append (leads_log neat told), rfl⟩

/-- The lines of the type of a shortcut: after its header nothing begins a declaration of a type or
leaves a literal open, where names are neat. -/
theorem intentStruct_parts {text : String} (made : intentStruct s useKeys = .ok text) :
    ∃ front middle back, text = joinLines ("" :: "@available(iOS 16.0, *)" :: structHeader s ::
        (front ++ performingLine s :: (middle ++ parameterWrites s.parameters s.className :: back))) ∧
      (s.Neat → (∀ t ∈ front, Tame t) ∧ (∀ t ∈ middle, Tame t) ∧ ∀ t ∈ back, Tame t) := by
  unfold intentStruct at made
  obtain ⟨declarations, declared, made⟩ := of_bind_eq_ok made
  obtain ⟨initials, initialized, made⟩ := of_bind_eq_ok made
  obtain ⟨dialogs, checked, made⟩ := of_bind_eq_ok made
  refine ⟨[_, _, _, _, _], [_, _, _, _, _, _, _, _, _, _], _, (Except.ok.inj made).symm, ?_⟩
  intro neat
  have indent : Leads .start "        " .code := leads_ofList (by decide)
  have inner : Leads .start "            " .code := leads_ofList (by decide)
  have deep : Leads .start "                " .code := leads_ofList (by decide)
  have log (told : List Char) (h : told.foldlM Cursor.next? .literal = some .literal) :
      Leads .code ("print(\"[" ++ s.className ++ "] " ++ String.ofList told ++ "\")") .code :=
    leads_log neat (leads_ofList h)
  have logged (told : List Char) (h : told.foldlM Cursor.next? .literal = some .literal) :
      Tame ("        " ++ ("print(\"[" ++ s.className ++ "] " ++ String.ofList told ++ "\")")) :=
    ⟨.code, indent.append (log told h), rfl⟩
  have failed : Leads .code (systemMessage useKeys appGroupFailed) .code :=
    leads_message useKeys (plain_ofList (by decide)) _
  have ended : Leads .code (systemMessage useKeys timedOut) .code :=
    leads_message useKeys (plain_ofList (by decide)) _
  have confirmed : Leads .code (if s.hasConfirmation then
      "\n        defaults.set(userConfirmedOverride, forKey: " ++
        inQuotes Protocol.userConfirmed ++ ")"
      else "") .code := by
    split
    · exact (leads_key (plain_ofList (by decide))).between (by decide) (by decide)
    · rfl
  refine ⟨?_, ?_, ?_⟩
  · simp only [List.forall_mem_cons]
    refine ⟨⟨.code, ?_, rfl⟩, ⟨.code, ?_, rfl⟩, tame_ofList (by decide), ⟨.start, ?_, rfl⟩,
      tame_ofList (by decide), nofun⟩
    · exact (leads_intentTitle neat).behind (by decide)
    · exact (leads_intentDescription neat).behind (by decide)
    · exact (leads_parameterDeclarations neat.identifier neat.names (of_mapError_eq_ok declared)).append
        (leads_initializers neat.names (of_mapError_eq_ok initialized))
  · simp only [List.forall_mem_cons]
    refine ⟨tame_empty, tame_ofList (by decide), tame_ofList (by decide),
      tame_ofList (by decide), tame_ofList (by decide), ⟨.code, ?_, rfl⟩,
      ⟨.code, ?_, rfl⟩, tame_ofList (by decide), ?_, tame_ofList (by decide), nofun⟩
    · exact inner.append (log _ (by decide))
    · exact failed.between (by decide) (by decide)
    · obtain ⟨q, led, outside⟩ := tame_stateDialogs neat (of_mapError_eq_ok checked)
      exact ⟨q, (leads_parameterRequests neat.identifier neat.names useKeys).append led, outside⟩
  · simp only [List.forall_mem_cons]
    refine ⟨⟨.code, ?_, rfl⟩, ⟨.code, ?_, rfl⟩, ⟨.code, ?_, rfl⟩, tame_empty,
      logged _ (by decide), tame_empty, tame_ofList (by decide),
      tame_ofList (by decide), tame_ofList (by decide), ⟨.code, ?_, rfl⟩,
      tame_ofList (by decide), tame_ofList (by decide), tame_empty,
      logged _ (by decide), tame_empty, tame_ofList (by decide),
      tame_ofList (by decide), ⟨.code, ?_, rfl⟩, ⟨.code, ?_, rfl⟩, ⟨.code, ?_, rfl⟩,
      tame_ofList (by decide), tame_empty, logged _ (by decide),
      tame_empty, tame_ofList (by decide), tame_ofList (by decide),
      tame_ofList (by decide), ⟨.code, deep.append (log _ (by decide)), rfl⟩, tame_empty,
      tame_ofList (by decide), tame_ofList (by decide), tame_empty,
      tame_ofList (by decide), tame_ofList (by decide),
      tame_ofList (by decide), tame_empty, tame_ofList (by decide),
      tame_ofList (by decide), tame_ofList (by decide), tame_empty,
      logged _ (by decide), tame_empty, tame_ofList (by decide),
      ⟨.code, ?_, rfl⟩, tame_ofList (by decide), tame_ofList (by decide), nofun⟩
    · exact (((leads_key neat.identifier).between (by decide) (by decide)).append
        (leads_key (plain_ofList (by decide)))).before (by decide)
    · exact (leads_key (plain_ofList (by decide))).between (by decide) (by decide)
    · exact ((leads_key (plain_ofList (by decide))).between (by decide) (by decide)).append confirmed
    · exact (leads_key (plain_ofList (by decide))).between (by decide) (by decide)
    · exact (leads_inQuotes
        ((leads_of_plain (plain_ofList (by decide))).2.before (by decide))).behind (by decide)
    · exact (leads_of_plain (plain_formatFloat _)).1.between (by decide) (by decide)
    · exact (leads_of_plain (plain_of_numeral (Decimal.numeral_write _))).1.behind (by decide)
    · exact ended.between (by decide) (by decide)

theorem leads_phrase (text : String) : Leads .code (phrase text) .code := by
  have mention : Leads .literal applicationName .literal := leads_ofList (by decide)
  rcases phrase_cases text with ⟨quoted, -⟩ | ⟨quoted, -⟩
  · rw [quoted]
    exact leads_inQuotes (((leads_escape text).before (by decide)).append mention)
  · rw [quoted]
    refine leads_inQuotes (leads_joinWith mention fun piece mem => ?_)
    obtain ⟨plain, -, rfl⟩ := List.mem_map.mp mem
    exact leads_escape plain

def imageLine (s : Shortcut) : String :=
  "            systemImageName: " ++ inQuotes (orDefault s.systemImageName usualImage)

/-- The lines of the registration of a shortcut: before the name of its image nothing leaves a literal
open, where names are neat. -/
theorem appShortcut_parts (s : Shortcut) (useKeys : Bool) :
    ∃ front, appShortcut s useKeys = joinLines (front ++ [imageLine s, "        )"]) ∧
      (s.Neat → ∀ t ∈ front, Tame t) := by
  refine ⟨[_, _, _, _, _, _], rfl, fun neat => ?_⟩
  have between : Leads .code ",\n                " .code := leads_ofList (by decide)
  have phrases : Leads .code (joinWith ",\n                " (s.phrases.map phrase)) .code := by
    refine leads_joinWith between fun text mem => ?_
    obtain ⟨spoken, -, rfl⟩ := List.mem_map.mp mem
    exact leads_phrase spoken
  have title : Leads .code (if useKeys then resource (titleKey s.identifier) s.title
      else literal s.title) .code := by
    split
    · exact leads_resource (plain_titleKey neat.identifier) _
    · exact leads_literal _
  simp only [List.forall_mem_cons]
  refine ⟨tame_ofList (by decide), ⟨.code, ?_, rfl⟩, tame_ofList (by decide), ⟨.code, ?_, rfl⟩,
    tame_ofList (by decide), ⟨.code, ?_, rfl⟩, nofun⟩
  · exact (leads_of_plain neat.className).1.between (by decide) (by decide)
  · exact phrases.behind (by decide)
  · exact title.between (by decide) (by decide)

theorem tame_appGroupDeclaration (group : Option String) : Tame (appGroupDeclaration group) := by
  unfold appGroupDeclaration
  split
  · refine tame_joinLines ?_
    simp only [List.forall_mem_cons]
    exact ⟨tame_ofList (by decide), tame_ofList (by decide), tame_ofList (by decide),
      tame_ofList (by decide), tame_ofList (by decide), tame_ofList (by decide), nofun⟩
  · exact ⟨.code, (leads_literal _).behind (by decide), rfl⟩

def providerHeader : String :=
  "struct GeneratedAppShortcutsProvider: AppShortcutsProvider \x7b"

/-- The lines of the file: the types of the shortcuts, the header of the provider and their
registrations, and other lines that begin no declaration of a type and leave no literal open. -/
theorem file_parts {c : Config} {source text : String} (whole : Unbroken source)
    (made : file c useKeys source = .ok text) :
    ∃ intents front back, mapPositions (fun _ s => intentStruct s useKeys) 0 c.shortcuts = .ok intents ∧
      text = joinLines (front ++ joinLines intents :: "" :: "@available(iOS 16.0, *)" ::
        providerHeader :: "    static var appShortcuts: [AppShortcut] \x7b" ::
        joinLines (c.shortcuts.map (appShortcut · useKeys)) :: back) ∧
      (∀ t ∈ front, Tame t) ∧ ∀ t ∈ back, Tame t := by
  unfold file at made
  obtain ⟨intents, found, made⟩ := of_bind_eq_ok made
  refine ⟨intents, [_, _, _, _, _, _, _, _, _, _, _, _, _, _, _, _, _], _, found,
    (Except.ok.inj made).symm, ?_, ?_⟩
  · simp only [List.forall_mem_cons]
    exact ⟨tame_ofList (by decide), tame_ofList (by decide),
      tame_ofList (by decide), tame_ofList (by decide),
      ⟨.comment, (leads_comment whole).behind (by decide), rfl⟩,
      tame_ofList (by decide), tame_ofList (by decide), tame_empty,
      tame_ofList (by decide), tame_ofList (by decide), tame_empty,
      tame_ofList (by decide), tame_ofList (by decide),
      tame_ofList (by decide), tame_ofList (by decide), tame_appGroupDeclaration _,
      tame_empty, nofun⟩
  · simp only [List.forall_mem_cons]
    exact ⟨tame_ofList (by decide), tame_ofList (by decide), tame_empty, nofun⟩

end ShortcutRelay.Swift
