import ShortcutRelay.Proofs.Except
import ShortcutRelay.Proofs.Json.Spelling
import ShortcutRelay.Proofs.Json.Readable
import ShortcutRelay.Proofs.Json.RoundTrip
import ShortcutRelay.Proofs.Localization.Texts

/-!
# Merges of a catalog

* `Hereditary K P` : a property of values that objects have from their keys and values, so that source
  texts keep it;
* `Settled c` : the parts of `c` are written and read back as they are, kept by source texts in
  `Settled.putTexts`;
* `ofFile_render` : a settled catalog is found again in its file;
* `merge_spelled` : when what is written is made of characters;
* `merge_keeps_translations` : what is written for an existing catalog;
* `merge_merge` : merges compose, and the second of two equal ones changes nothing;
* `parse_ones`, `long_number_has_no_merge` : nothing is merged into a file with a long number.
-/

namespace ShortcutRelay.Localization.Catalog
open Text
open Json (Exact Whole)

/-! ## Parts of a file -/

theorem presentOr_of_truthy {value : Json} (h : value.truthy = true) (default : Json) :
    presentOr (some value) default = value := by
  rw [presentOr, if_pos h]

theorem presentOr_truthy (value : Option Json) {default : Json} (h : default.truthy = true) :
    (presentOr value default).truthy = true := by
  unfold presentOr
  split
  · split
    · assumption
    · exact h
  · exact h

theorem load_object {text : List CodePoint} {members : List (List CodePoint × Json)}
    (h : Json.parse text = .ok (.object members)) : load text = .ok (some members) := by
  have some_text : text ≠ [] := by
    rintro rfl
    cases h
  rw [load, if_neg some_text, h]
  rfl

theorem ofFile_object {text : List CodePoint} {members : List (List CodePoint × Json)}
    (h : Json.parse text = .ok (.object members)) : ofFile (some text) = .ok (ofMembers members) := by
  change (load text >>= _) = _
  rw [load_object h]
  rfl

theorem strings_ofMembers {members old : List (List CodePoint × Json)}
    (h : valueAt? (codePoints "strings") members = some (.object old)) :
    (ofMembers members).strings = old := by
  rw [ofMembers, h]
  rfl

theorem isUnreadable_object {text : List CodePoint} {members : List (List CodePoint × Json)}
    (h : Json.parse text = .ok (.object members)) : isUnreadable (some text) = .ok false := by
  have loaded := load_object h
  have opened : isUnreadable (some text) =
      (load text).map fun found => (some text).any (· ≠ []) && found.isNone := by
    change (load text >>= _) = _
    cases load text <;> rfl
  rw [opened, loaded, Except.map, Option.isNone_some, Bool.and_false]

/-- A file that is merged into is either read or found to be no catalog. -/
theorem isUnreadable_of_merge {texts : OrderedMap String} {existing : Option (List CodePoint)}
    {once : List CodePoint} (h : merge texts existing = .ok once) :
    ∃ replaced, isUnreadable existing = .ok replaced := by
  obtain ⟨c, opened, -⟩ := of_bind_eq_ok h
  obtain ⟨members, loaded, -⟩ := of_bind_eq_ok opened
  unfold isUnreadable
  rw [loaded]
  exact ⟨_, rfl⟩

/-! ## Inherited properties -/

/-- The property holds of texts, and of an object where it holds of the values, `K` of the keys, and no
key is repeated. -/
structure Hereditary (K : List CodePoint → Prop) (P : Json → Prop) : Prop where
  text : ∀ s, P (.ofString s)
  key : ∀ s, K (codePoints s)
  object : ∀ members, P (.object members) ↔
    (entryKeys members).Nodup ∧ (∀ k ∈ entryKeys members, K k) ∧ ∀ e ∈ members, P e.2

namespace Hereditary

variable {K : List CodePoint → Prop} {P : Json → Prop} (inherited : Hereditary K P)
  {members : List (List CodePoint × Json)}
include inherited

theorem empty : P (.object []) :=
  (inherited.object []).mpr ⟨.nil, nofun, nofun⟩

theorem value (given : P (.object members)) {key : List CodePoint} {j : Json}
    (found : valueAt? key members = some j) : P j :=
  ((inherited.object members).mp given).2.2 _ (mem_of_valueAt? found)

theorem put (given : P (.object members)) {key : List CodePoint} (named : K key) {value : Json}
    (h : P value) : P (.object (putEntry key value members)) := by
  obtain ⟨distinct, keys, values⟩ := (inherited.object members).mp given
  refine (inherited.object _).mpr ⟨nodup_putEntry distinct key value, ?_, ?_⟩
  · intro k mem
    obtain ⟨e, inside, rfl⟩ := List.mem_map.mp mem
    rcases mem_putEntry inside with rfl | old
    · exact named
    · exact keys e.1 (List.mem_map_of_mem old)
  · intro e mem
    rcases mem_putEntry mem with rfl | old
    · exact h
    · exact values e old

theorem present (given : P (.object members)) (key : List CodePoint) (default : String) :
    P (presentOr (valueAt? key members) (.ofString default)) := by
  cases found : valueAt? key members with
  | none => exact inherited.text _
  | some v =>
    rw [presentOr]
    split
    · exact inherited.value given found
    · exact inherited.text _

theorem inside (given : P (.object members)) (key : List CodePoint) :
    P (.object (((valueAt? key members).bind Json.members?).getD [])) := by
  cases found : valueAt? key members with
  | none => exact inherited.empty
  | some j =>
    have inner := inherited.value given found
    cases j with
    | object members => exact inner
    | null | bool | int | float | text | array => exact inherited.empty

theorem translation (text : String) : P (unit text) := by
  have value := inherited.put (inherited.put inherited.empty (inherited.key "state")
    (inherited.text "translated")) (inherited.key "value") (inherited.text text)
  exact inherited.put inherited.empty (inherited.key "stringUnit") value

theorem refreshed {entry : Option Json} (h : ∀ j, entry = some j → P j) (text : String) :
    P (refresh entry text) := by
  have language := inherited.translation text
  by_cases isEntry : ∃ members, entry = some (.object members)
  · obtain ⟨members, rfl⟩ := isEntry
    have given := h _ rfl
    have languages := inherited.inside given (codePoints "localizations")
    exact inherited.put given (inherited.key _)
      (inherited.put languages (inherited.key _) language)
  · rw [refresh_other text fun members same => isEntry ⟨members, same⟩]
    have languages := inherited.put inherited.empty (inherited.key "en") language
    have state := inherited.put inherited.empty (inherited.key "extractionState")
      (inherited.text "manual")
    exact inherited.put state (inherited.key "localizations") languages

theorem toJson_iff (c : Catalog) :
    P c.toJson ↔ P c.sourceLanguage ∧ P (.object c.strings) ∧ P c.version := by
  have keys : ∀ k ∈ [codePoints "sourceLanguage", codePoints "strings", codePoints "version"], K k := by
    simp [inherited.key]
  refine (inherited.object _).trans ⟨?_, ?_⟩
  · rintro ⟨-, -, values⟩
    exact ⟨values (Json.named "sourceLanguage" c.sourceLanguage) (by simp),
      values (Json.named "strings" (.object c.strings)) (by simp),
      values (Json.named "version" c.version) (by simp)⟩
  · rintro ⟨language, strings, version⟩
    refine ⟨by simp, keys, fun e mem => ?_⟩
    simp only [List.mem_cons, List.not_mem_nil, or_false] at mem
    rcases mem with rfl | rfl | rfl
    · exact language
    · exact strings
    · exact version

theorem toJson_putTexts {c : Catalog} (h : P c.toJson) (texts : List (String × String)) :
    P (putTexts texts c).toJson := by
  induction texts generalizing c with
  | nil => exact h
  | cons t texts ih =>
    obtain ⟨language, strings, version⟩ := (inherited.toJson_iff c).mp h
    have old : ∀ j, valueAt? (codePoints t.1) c.strings = some j → P j := fun _ found =>
      inherited.value strings found
    have entry := inherited.refreshed old t.2
    have put := inherited.put strings (inherited.key t.1) entry
    exact ih ((inherited.toJson_iff (putText c t)).mpr ⟨language, put, version⟩)

theorem toJson_empty : P Catalog.empty.toJson :=
  (inherited.toJson_iff _).mpr ⟨inherited.text _, inherited.empty, inherited.text _⟩

theorem toJson_ofMembers (given : P (.object members)) : P (ofMembers members).toJson :=
  (inherited.toJson_iff _).mpr ⟨inherited.present given _ _,
    inherited.inside given (codePoints "strings"), inherited.present given _ _⟩

end Hereditary

theorem hereditary_exact : Hereditary (fun _ => True) Exact where
  text s := .text _
  key _ := trivial
  object members := by
    constructor
    · intro h
      exact ⟨h.distinct _ (.self _), fun _ _ => trivial, fun _ mem => h.member mem⟩
    · rintro ⟨distinct, -, values⟩
      exact .object distinct values

/-! ## Settled catalogs -/

/-- The parts of the catalog are found again where they are written. -/
structure Settled (c : Catalog) : Prop where
  sourceLanguage : c.sourceLanguage.truthy = true
  version : c.version.truthy = true
  exact : Exact c.toJson

theorem Settled.putTexts {c : Catalog} (h : Settled c) (texts : List (String × String)) :
    Settled (putTexts texts c) where
  sourceLanguage := by
    rw [putTexts_sourceLanguage]
    exact h.sourceLanguage
  version := by
    rw [putTexts_version]
    exact h.version
  exact := hereditary_exact.toJson_putTexts h.exact texts

theorem settled_empty : Settled empty :=
  ⟨by decide, by decide, hereditary_exact.toJson_empty⟩

theorem settled_ofMembers {members : List (List CodePoint × Json)} (exact : Exact (.object members)) :
    Settled (ofMembers members) :=
  ⟨presentOr_truthy _ settled_empty.sourceLanguage, presentOr_truthy _ settled_empty.version,
    hereditary_exact.toJson_ofMembers exact⟩

/-- A catalog with texts is read back from its file, where all numbers in the members are whole. -/
theorem parse_putTexts {text : List CodePoint} {members : List (List CodePoint × Json)}
    (file : Json.parse text = .ok (.object members)) (whole : Whole (.object members))
    (texts : List (String × String)) :
    Json.parse (putTexts texts (ofMembers members)).render =
      .ok (putTexts texts (ofMembers members)).toJson :=
  have settled := settled_ofMembers (Json.exact_of_parse file whole)
  Json.parse_pretty (settled.putTexts texts).exact

/-! ## Files -/

/-- The existing file is no JSON object, or all numbers in it are whole. -/
def WholeFile (existing : Option (List CodePoint)) : Prop :=
  ∀ text members, existing = some text → Json.parse text = .ok (.object members) →
    Whole (.object members)

theorem ofFile_cases (existing : Option (List CodePoint)) :
    ofFile existing = .ok empty ∨
    (∃ text members, existing = some text ∧ Json.parse text = .ok (.object members) ∧
      ofFile existing = .ok (ofMembers members)) ∨
    ∃ text count, existing = some text ∧ Json.parse text = .error (.tooManyDigits count) ∧
      ofFile existing = .error (.tooManyDigits count) := by
  cases existing with
  | none => exact .inl rfl
  | some text =>
    by_cases blank : text = []
    · subst blank
      exact .inl rfl
    · have opened : ofFile (some text) =
          (load text).map fun members => (members.map ofMembers).getD empty := by
        change (load text >>= _) = _
        cases load text <;> rfl
      rw [load, if_neg blank] at opened
      cases parsed : Json.parse text with
      | error e =>
        cases e with
        | malformed =>
          rw [parsed] at opened
          exact .inl opened
        | tooManyDigits count =>
          rw [parsed] at opened
          exact .inr (.inr ⟨text, count, rfl, parsed, opened⟩)
      | ok j =>
        rw [parsed] at opened
        cases j with
        | object members => exact .inr (.inl ⟨text, members, rfl, parsed, opened⟩)
        | null | bool | int | float | text | array => exact .inl opened

/-- A settled catalog is found again in its file. -/
theorem ofFile_render {c : Catalog} (h : Settled c) : ofFile (some c.render) = .ok c := by
  have read : Json.parse c.render = .ok c.toJson := Json.parse_pretty h.exact
  have parts : ofMembers [Json.named "sourceLanguage" c.sourceLanguage,
      Json.named "strings" (.object c.strings), Json.named "version" c.version] = c := by
    have language := presentOr_of_truthy h.sourceLanguage empty.sourceLanguage
    have version := presentOr_of_truthy h.version empty.version
    simp [ofMembers, valueAt?, Json.named, codePoints_inj, language, version, Json.members?]
  rw [ofFile_object read, parts]

theorem merge_eq (texts : OrderedMap String) {existing : Option (List CodePoint)} {c : Catalog}
    (h : ofFile existing = .ok c) :
    merge texts existing = .ok (putTexts texts.toList c).render := by
  rw [merge, h]
  rfl

/-- What a merge writes is a settled catalog that a second merge of the same texts leaves as it is. -/
theorem merge_settled (texts : OrderedMap String) {existing : Option (List CodePoint)}
    (whole : WholeFile existing) {once : List CodePoint} (h : merge texts existing = .ok once) :
    ∃ c : Catalog, Settled c ∧ once = c.render ∧ putTexts texts.toList c = c := by
  have written {c : Catalog} (opened : ofFile existing = .ok c) (settled : Settled c) :
      ∃ c : Catalog, Settled c ∧ once = c.render ∧ putTexts texts.toList c = c := by
    rw [merge_eq texts opened] at h
    cases h
    refine ⟨_, settled.putTexts texts.toList, rfl, ?_⟩
    rw [putTexts_putAll, texts.putAll_self]
  rcases ofFile_cases existing with opened | ⟨text, members, same, parsed, opened⟩ |
    ⟨text, count, -, -, failed⟩
  · exact written opened settled_empty
  · have exact := Json.exact_of_parse parsed (whole text members same parsed)
    exact written opened (settled_ofMembers exact)
  · rw [merge, failed] at h
    cases h

theorem merge_again (texts : OrderedMap String) {existing : Option (List CodePoint)}
    (whole : WholeFile existing) {once : List CodePoint} (h : merge texts existing = .ok once) :
    merge texts (some once) = .ok once ∧ isUnreadable (some once) = .ok false ∧
      .char '\r' ∉ once := by
  obtain ⟨c, settled, rfl, same⟩ := merge_settled texts whole h
  refine ⟨?_, ?_, Json.notMem_pretty settled.exact.whole⟩
  · rw [merge_eq texts (ofFile_render settled), same]
  · exact isUnreadable_object (Json.parse_pretty settled.exact)

/-! ## Characters -/

theorem hereditary_spelled : Hereditary (fun k => ∃ s, k = codePoints s)
    (fun j => Json.Readable j ∧ Json.Spelled j) where
  text s := ⟨.text _, .ofString s⟩
  key s := ⟨s, rfl⟩
  object members := by
    rw [Json.readable_object_iff, Json.spelled_object_iff]
    constructor
    · rintro ⟨⟨distinct, readable⟩, keys, spelled⟩
      exact ⟨distinct, keys, fun e mem => ⟨readable e mem, spelled e mem⟩⟩
    · rintro ⟨distinct, keys, values⟩
      exact ⟨⟨distinct, fun e mem => (values e mem).1⟩, keys, fun e mem => (values e mem).2⟩

/-- What is written for a file is made of characters, unless there is something else in the file. -/
theorem merge_spelled (texts : OrderedMap String) {existing : Option (List CodePoint)}
    {once : List CodePoint} (h : merge texts existing = .ok once) :
    (∃ s, once = codePoints s) ∨ ∃ text members, existing = some text ∧
      Json.parse text = .ok (.object members) ∧ ¬ Json.Spelled (.object members) := by
  have written {c : Catalog} (opened : ofFile existing = .ok c)
      (spelled : Json.Readable c.toJson ∧ Json.Spelled c.toJson) : ∃ s, once = codePoints s := by
    rw [merge_eq texts opened] at h
    cases h
    exact Json.exists_codePoints_eq_pretty (hereditary_spelled.toJson_putTexts spelled texts.toList).2
  rcases ofFile_cases existing with opened | ⟨text, members, same, parsed, opened⟩ |
    ⟨text, count, -, -, failed⟩
  · exact .inl (written opened hereditary_spelled.toJson_empty)
  · by_cases spelled : Json.Spelled (.object members)
    · have given := And.intro (Json.readable_of_parse parsed) spelled
      exact .inl (written opened (hereditary_spelled.toJson_ofMembers given))
    · exact .inr ⟨text, members, same, parsed, spelled⟩
  · rw [merge, failed] at h
    cases h

/-! ## Merges -/

/-- A merge into a catalog loses no translation: the known keys keep their places, the entries of
other keys are as they were, and an entry with a new source text keeps its other fields and its other
languages. -/
theorem merge_keeps_translations (texts : OrderedMap String) {text : List CodePoint}
    {members old : List (List CodePoint × Json)} (file : Json.parse text = .ok (.object members))
    (strings : valueAt? (codePoints "strings") members = some (.object old)) :
    ∃ c : Catalog, merge texts (some text) = .ok c.render ∧
      (Whole (.object members) → Json.parse c.render = .ok c.toJson) ∧
      Merged texts old c.strings ∧
      (∀ j, valueAt? (codePoints "sourceLanguage") members = some j → j.truthy = true →
        c.sourceLanguage = j) ∧
      ∀ j, valueAt? (codePoints "version") members = some j → j.truthy = true → c.version = j := by
  have opened := ofFile_object file
  have entries : (ofMembers members).strings = old := strings_ofMembers strings
  refine ⟨putTexts texts.toList (ofMembers members), merge_eq texts opened,
    fun whole => parse_putTexts file whole _, ?_, ?_, ?_⟩
  · have merged := merged_putTexts texts (ofMembers members)
    rwa [entries] at merged
  · intro j found present
    rw [putTexts_sourceLanguage, ofMembers, found]
    exact presentOr_of_truthy present _
  · intro j found present
    rw [putTexts_version, ofMembers, found]
    exact presentOr_of_truthy present _

def polishText : String :=
  "\x7b\"strings\": \x7b\"a\": \x7b\"localizations\": \x7b\"pl\": \"Zacznij\"\x7d\x7d\x7d\x7d"

def polishMembers : List (List CodePoint × Json) :=
  [Json.named "strings" (.object [Json.named "a" (.object [Json.named "localizations"
    (.object [Json.named "pl" (.ofString "Zacznij")])])])]

set_option maxRecDepth 20000 in
theorem parse_polishText : Json.parse (codePoints polishText) = .ok (.object polishMembers) := by
  cbv

theorem whole_polishMembers : Whole (.object polishMembers) := by
  intro x p
  have inner : ∀ {key : List CodePoint} {j : Json}, Json.Part (.float x) (.object [(key, j)]) →
      Json.Part (.float x) j := by
    intro key j p
    cases p with
    | member mem part =>
      cases List.mem_singleton.mp mem
      exact part
  nomatch inner (inner (inner (inner p)))

/-- The Polish text stays beside the English one. -/
theorem merge_keeps_translations_polish :
    ∃ (c : Catalog) (entry langs : List (List CodePoint × Json)),
      merge (.ofList [("a", "Begin"), ("b", "End")]) (some (codePoints polishText)) = .ok c.render ∧
      Json.parse c.render = .ok c.toJson ∧
      entryKeys c.strings = [codePoints "a", codePoints "b"] ∧
      valueAt? (codePoints "a") c.strings = some (.object entry) ∧
      valueAt? (codePoints "localizations") entry = some (.object langs) ∧
      valueAt? (codePoints "pl") langs = some (.ofString "Zacznij") ∧
      valueAt? (codePoints "en") langs = some (unit "Begin") := by
  obtain ⟨c, written, read, merged, -, -⟩ :=
    merge_keeps_translations (.ofList [("a", "Begin"), ("b", "End")]) parse_polishText rfl
  obtain ⟨entry, found, refreshed⟩ := merged.entries "a" "Begin" _ rfl rfl
  obtain ⟨langs, here, english, others⟩ := refreshed.languages
  refine ⟨c, entry, langs, written, read whole_polishMembers, merged.keys, found, here, ?_, english⟩
  have same := congrArg (valueAt? (codePoints "pl")) (others _ rfl)
  rwa [valueAt?_eraseEntry, valueAt?_eraseEntry] at same

/-- Merges compose: two of them write what one does with the texts of both, and so the second of two
equal ones changes nothing. A merge fails on a number with too many digits only. -/
theorem merge_merge (first second : OrderedMap String) {existing : Option (List CodePoint)}
    (whole : WholeFile existing) :
    (merge first existing >>= fun once => merge second (some once)) =
      merge (first.putAll second.toList) existing ∧
    (merge first existing >>= fun once => merge first (some once)) = merge first existing ∧
    ((∃ once, merge first existing = .ok once) ∨
      ∃ text count, existing = some text ∧ Json.parse text = .error (.tooManyDigits count) ∧
        merge first existing = .error (.tooManyDigits count)) := by
  have composed : ∀ {c : Catalog}, ofFile existing = .ok c → Settled c → ∀ second : OrderedMap String,
      (merge first existing >>= fun once => merge second (some once)) =
        merge (first.putAll second.toList) existing := by
    intro c opened settled second
    have again := merge_eq second (ofFile_render (settled.putTexts first.toList))
    rw [merge_eq first opened, merge_eq _ opened, ok_bind, again, putTexts_putAll]
  have settled : ∀ {c : Catalog}, ofFile existing = .ok c → Settled c →
      ((merge first existing >>= fun once => merge second (some once)) =
        merge (first.putAll second.toList) existing) ∧
      (merge first existing >>= fun once => merge first (some once)) = merge first existing ∧
      ∃ once, merge first existing = .ok once := by
    intro c opened settled
    refine ⟨composed opened settled second, ?_, _, merge_eq first opened⟩
    rw [composed opened settled first, first.putAll_self]
  rcases ofFile_cases existing with opened | ⟨text, members, rfl, parsed, opened⟩ |
    ⟨text, count, same, parsed, opened⟩
  · obtain ⟨both, same, once⟩ := settled opened settled_empty
    exact ⟨both, same, .inl once⟩
  · have exact := Json.exact_of_parse parsed (whole text members rfl parsed)
    obtain ⟨both, same, once⟩ := settled opened (settled_ofMembers exact)
    exact ⟨both, same, .inl once⟩
  · have failed : ∀ texts, merge texts existing = .error (.tooManyDigits count) := by
      intro texts
      rw [merge, opened]
      rfl
    rw [failed, failed]
    exact ⟨rfl, rfl, .inr ⟨text, count, same, parsed, rfl⟩⟩

/-- A second merge renames one text and adds another. -/
theorem merge_merge_polish :
    (merge (.ofList [("a", "Begin")]) (some (codePoints polishText)) >>= fun once =>
      merge (.ofList [("b", "End"), ("a", "Start")]) (some once)) =
        merge (.ofList [("a", "Start"), ("b", "End")]) (some (codePoints polishText)) ∧
    ∃ once, merge (.ofList [("a", "Begin")]) (some (codePoints polishText)) = .ok once ∧
      merge (.ofList [("a", "Begin")]) (some once) = .ok once := by
  have whole : WholeFile (some (codePoints polishText)) := by
    intro text members same parsed
    cases same
    rw [parse_polishText] at parsed
    cases parsed
    exact whole_polishMembers
  obtain ⟨both, again, done | ⟨text, count, same, parsed, -⟩⟩ :=
    merge_merge (.ofList [("a", "Begin")]) (.ofList [("b", "End"), ("a", "Start")]) whole
  · obtain ⟨once, done⟩ := done
    rw [done] at again
    exact ⟨both, once, done, again⟩
  · cases same
    rw [parse_polishText] at parsed
    cases parsed

/-! ## Long numbers -/

def ones (count : Nat) : List CodePoint :=
  (List.replicate count '1').map .char

theorem readNumber_ones {n : Nat} (long : Decimal.digitLimit < n + 1) :
    Json.readNumber (List.replicate (n + 1) '1') = .error (.tooManyDigits (n + 1)) := by
  have digits : ∀ c ∈ List.replicate (n + 1) '1', Decimal.isDigit c = true := by
    intro c mem
    rw [List.eq_of_mem_replicate mem]
    rfl
  have ends : Json.EndsNumber [] := nofun
  have taken := Json.takeWhile_digits digits ends
  have left := Json.dropWhile_digits digits ends
  rw [List.append_nil] at taken left
  have whole : Json.wholeOf? (List.replicate (n + 1) '1') = some (List.replicate (n + 1) '1', []) := by
    unfold Json.wholeOf?
    rw [taken, left]
    rfl
  have unsigned : ∀ rest, List.replicate (n + 1) '1' ≠ '-' :: rest := by
    simp [List.replicate_succ]
  simp only [Json.readNumber, whole, Json.fractionOf_of_ends ends, Json.exponentOf_of_ends ends,
    List.length_replicate, if_pos long]
  rfl

/-- A whole number with too many digits has no value. -/
theorem parse_ones {n : Nat} (long : Decimal.digitLimit < n + 1) :
    Json.parse (ones (n + 1)) = .error (.tooManyDigits (n + 1)) := by
  have lexical : ∀ c ∈ List.replicate (n + 1) '1', Json.isLexical c = true := by
    intro c mem
    rw [List.eq_of_mem_replicate mem]
    rfl
  have word : Json.readWord? (List.replicate (n + 1) '1') = none := by
    simp [Json.readWord?, Json.words, List.replicate_succ]
  have lexeme : Json.readLexeme (ones (n + 1)) = .error (.tooManyDigits (n + 1)) := by
    have read : Json.readLexeme (ones (n + 1) ++ []) = _ := Json.readLexeme_append lexical (by rintro _ ⟨⟩)
    rw [List.append_nil, Json.readPlain, word] at read
    exact read.trans (congrArg (Except.map _) (readNumber_ones long))
  have first : ones (n + 1) = .char '1' :: ones n := rfl
  rw [Json.parse, first, Json.skipSpace_cons rfl, Json.readValue_lexeme (by decide), ← first, lexeme]
  rfl

theorem merge_of_tooManyDigits (texts : OrderedMap String) {text : List CodePoint} {count : Nat}
    (long : Json.parse text = .error (.tooManyDigits count)) :
    merge texts (some text) = .error (.tooManyDigits count) := by
  have some_text : text ≠ [] := by
    rintro rfl
    cases long
  have loaded : load text = .error (.tooManyDigits count) := by
    rw [load, if_neg some_text, long]
  show (load text >>= _) >>= _ = _
  rw [loaded]
  rfl

/-- A number of `4301` digits is no catalog, but nothing is merged into it, not even once. -/
theorem long_number_has_no_merge :
    ¬ ∀ (first second : OrderedMap String) (existing : Option (List CodePoint)), WholeFile existing →
      ∃ once both, merge first existing = .ok once ∧ merge second (some once) = .ok both ∧
        merge (first.putAll second.toList) existing = .ok both := by
  intro composed
  have long : Json.parse (ones 4301) = .error (.tooManyDigits 4301) := parse_ones (by decide)
  have whole : WholeFile (some (ones 4301)) := by
    intro text members same parsed
    cases same
    rw [long] at parsed
    cases parsed
  obtain ⟨once, -, merged, -⟩ := composed .empty .empty (some (ones 4301)) whole
  rw [merge_of_tooManyDigits .empty long] at merged
  cases merged

end ShortcutRelay.Localization.Catalog
