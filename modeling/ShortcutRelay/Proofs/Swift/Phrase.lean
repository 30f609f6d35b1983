import ShortcutRelay.Proofs.Except
import ShortcutRelay.Proofs.Swift.Literal
import ShortcutRelay.Proofs.Template.Tokens
import ShortcutRelay.Proofs.Text.Pieces
import ShortcutRelay.Swift.File

/-!
# Phrases in Swift

* `nameText` : what the mention of the application in a literal stands for;
* `readLiteral_phrase` : the literal of a phrase is read as the phrase of the phrase table;
* `tableToken_infix` : a phrase of the table mentions the application; `tablePhrase_normal_form` : in the
  first spelling only, as often as the phrase, and nothing else tells the two apart;
* `phrase_infix_appShortcut`, `appShortcut_infix_file` : where the literal stands.
-/

namespace ShortcutRelay.Swift
open Text Template

/-! ## The literal -/

/-- The text of the expression that mentions the application, as phrase tables write it. -/
def nameText (expression : List Char) : Option (List Char) :=
  if expression = ".applicationName".toList then some tableToken.toList else none

theorem readBody_expression (value : List Char → Option (List Char)) {expression : List Char}
    (closed : ')' ∉ expression) (before cs : List Char) :
    readBody value (some before) (expression ++ ')' :: cs) =
      (value (before ++ expression)).bind fun inserted =>
        (readBody value none cs).map fun (text, rest) => (inserted ++ text, rest) := by
  induction expression generalizing before with
  | nil => simp [readBody]
  | cons c expression ih =>
    simp only [List.mem_cons, not_or] at closed
    have later := ih closed.2 (before ++ [c])
    rw [List.append_assoc, List.singleton_append] at later
    rw [← later]
    exact readBody.eq_3 value before c _ fun same => closed.1 same.symm

theorem readBody_applicationName (cs : List Char) :
    readBody nameText none (applicationName.toList ++ cs) =
      (readBody nameText none cs).map fun (text, rest) => (tableToken.toList ++ text, rest) := by
  have spelled : applicationName.toList ++ cs =
      '\\' :: '(' :: (".applicationName".toList ++ ')' :: cs) := rfl
  have closed : ')' ∉ ".applicationName".toList := by decide
  have mentions : nameText ".applicationName".toList = some tableToken.toList := if_pos rfl
  rw [spelled]
  show readBody nameText (some []) (".applicationName".toList ++ ')' :: cs) = _
  rw [readBody_expression nameText closed, List.nil_append, mentions, Option.bind_some]

/-- Escaped pieces with the application's name between them are read as the pieces with its token
between them. -/
theorem readBody_pieces (pieces : List String) (rest : List Char) :
    readBody nameText none
        ((joinWith applicationName (pieces.map escape)).toList ++ '"' :: rest) =
      some ((joinWith tableToken pieces).toList, rest) := by
  have tail (others : List String) : readBody nameText none
      (((others.map escape).flatMap fun t => applicationName.toList ++ t.toList) ++ '"' :: rest) =
        some (others.flatMap fun t => tableToken.toList ++ t.toList, rest) := by
    induction others with
    | nil => rfl
    | cons t others ih =>
      simp only [List.map_cons, List.flatMap_cons, List.append_assoc, toList_escape]
      rw [readBody_applicationName, readBody_escape, ih]
      rfl
  cases pieces with
  | nil => rfl
  | cons piece others =>
    rw [List.map_cons, toList_joinWith_cons, toList_joinWith_cons, toList_escape,
      List.append_assoc, readBody_escape, tail others]
    rfl

/-- A phrase without a token has the application's name added in both files. -/
theorem phrase_cases (text : String) :
    phrase text = inQuotes (escape text ++ " in " ++ applicationName) ∧
        tablePhrase text = text ++ " in " ++ tableToken ∨
      phrase text = inQuotes (joinWith applicationName ((aroundTokens text).map escape)) ∧
        tablePhrase text = joinWith tableToken (aroundTokens text) := by
  unfold phrase tablePhrase
  rcases aroundTokens text with _ | ⟨piece, _ | ⟨next, others⟩⟩
  · exact .inr ⟨rfl, rfl⟩
  · exact .inl ⟨rfl, rfl⟩
  · exact .inr ⟨rfl, rfl⟩

/-- The literal of a phrase is read as the phrase of the phrase table, whatever follows it. -/
theorem readLiteral_phrase (text : String) (rest : List Char) :
    readLiteral nameText ((phrase text).toList ++ rest) =
      some ((tablePhrase text).toList, rest) := by
  have quoted (body : String) : readLiteral nameText ((inQuotes body).toList ++ rest) =
      readBody nameText none (body.toList ++ '"' :: rest) := by
    simp [inQuotes, readLiteral]
  rcases phrase_cases text with ⟨literal, key⟩ | ⟨literal, key⟩
  · have ending : (escape text ++ " in " ++ applicationName).toList ++ '"' :: rest =
        (text.toList ++ " in ".toList).flatMap escapeChar ++
          (applicationName.toList ++ '"' :: rest) := by
      have plain : " in ".toList.flatMap escapeChar = " in ".toList := by decide
      rw [List.flatMap_append, plain, ← toList_escape]
      simp
    rw [literal, key, quoted, ending, readBody_escape, readBody_applicationName]
    simp [readBody]
  · rw [literal, key, quoted, readBody_pieces]

/-- A phrase of the phrase table mentions the application. -/
theorem tableToken_infix (text : String) :
    tableToken.toList <:+: (tablePhrase text).toList := by
  unfold tablePhrase
  split
  · rw [String.toList_append]
    exact (List.suffix_append _ _).isInfix
  · next several =>
    cases found : aroundTokens text with
    | nil => exact absurd (List.map_eq_nil_iff.mp found) (splitTokens_ne_nil _ _)
    | cons first others =>
      cases others with
      | nil => exact absurd found (several first)
      | cons second others =>
        rw [toList_joinWith_cons, List.flatMap_cons, List.append_assoc]
        exact List.infix_append' _ _ _

/-! ## The normal form -/

theorem phrase_of_token {text : String} (several : 1 < (aroundTokens text).length) :
    phrase text = inQuotes (joinWith applicationName ((aroundTokens text).map escape)) := by
  unfold phrase
  split
  · next single =>
    rw [single] at several
    exact absurd several (Nat.lt_irrefl 1)
  · rfl

/-- A phrase and the one of the table have the same literal. -/
theorem phrase_tablePhrase (text : String) : phrase (tablePhrase text) = phrase text := by
  obtain ⟨texts, -, cut, several, same | ⟨whole, added⟩⟩ := tablePhrase_cases text
  · rw [phrase_of_token (cut ▸ several), phrase_of_token (same ▸ several), cut, same]
  · have plain : escape " in " = " in " := by decide
    have literal : phrase text = inQuotes (escape text ++ " in " ++ applicationName) := by
      rw [phrase, whole]
    have ending : joinWith applicationName [escape (text ++ " in "), escape ""] =
        escape text ++ " in " ++ applicationName := by
      rw [escape_append, plain, ← String.toList_inj]
      simp [joinWith, toList_escape]
    rw [literal, phrase_of_token (cut ▸ several), cut, added, ← ending]
    rfl

/-- A phrase of the table is in normal form: it has the first token and none of the others, it is its own
phrase of the table and has the literal of the phrase, and it has as many tokens as the phrase has from
left to right without overlaps, but at least one. -/
theorem tablePhrase_normal_form (text : String) :
    tableToken.toList <:+: (tablePhrase text).toList ∧
    ¬ "\\(.applicationName)".toList <:+: (tablePhrase text).toList ∧
    ¬ "(.applicationName)".toList <:+: (tablePhrase text).toList ∧
    tablePhrase (tablePhrase text) = tablePhrase text ∧
    phrase (tablePhrase text) = phrase text ∧
    ∃ found, (∀ ts, Tokens text.toList ts ↔ ts = found) ∧
      ∀ ts, Tokens (tablePhrase text).toList ts ↔
        ts = List.replicate (max found.length 1) tableToken.toList := by
  obtain ⟨found, read⟩ := exists_tokens text.toList
  have other {t : List Char} (listed : t ∈ nameTokens) (apart : t ≠ tableToken.toList) :
      ¬ t <:+: (tablePhrase text).toList :=
    fun inside => apart (eq_tableToken_of_infix_tablePhrase listed inside)
  have mentioned := tableToken_infix text
  refine ⟨mentioned, other (by decide) (by decide), other (by decide) (by decide),
    tablePhrase_tablePhrase text, phrase_tablePhrase text, found, fun ts => read.iff_eq, fun ts => ?_⟩
  exact (tokens_tablePhrase read).iff_eq

/-- A backslash in front of a parenthesis belongs to the token, one in front of that does not. -/
example : tablePhrase "\\\\(.applicationName)(.applicationName)" =
    "\\$\x7bapplicationName\x7d$\x7bapplicationName\x7d" := by
  decide

/-! ## Where it stands -/

theorem phrase_infix_appShortcut {s : Shortcut} {text : String} (h : text ∈ s.phrases)
    (useKeys : Bool) : (phrase text).toList <:+: (appShortcut s useKeys).toList := by
  have listed := infix_joinWith ",\n                " (List.mem_map_of_mem (f := phrase) h)
  have line : (phrase text).toList <:+:
      ("                " ++ joinWith ",\n                " (s.phrases.map phrase)).toList := by
    rw [String.toList_append]
    exact listed.trans (List.suffix_append _ _).isInfix
  refine line.trans ?_
  unfold appShortcut
  exact infix_joinLines (by simp)

theorem appShortcut_infix_file {c : Config} {s : Shortcut} (h : s ∈ c.shortcuts) {useKeys : Bool}
    {source text : String} (made : file c useKeys source = .ok text) :
    (appShortcut s useKeys).toList <:+: text.toList := by
  obtain ⟨intents, -, made⟩ := of_bind_eq_ok made
  cases made
  have listed : appShortcut s useKeys ∈ c.shortcuts.map (appShortcut · useKeys) :=
    List.mem_map_of_mem h
  refine (infix_joinLines listed).trans ?_
  exact infix_joinLines (by simp)

end ShortcutRelay.Swift
