import ShortcutRelay.Proofs.CommandLine.Places

/-!
# Generating again

* `existingFor_after` : after the files were written, the localization files are found as they were
  generated;
* `renew_again` : the same files are written again.
-/

namespace ShortcutRelay.CommandLine
open ShortcutRelay.Localization Terminal

variable {c : Config} {outputDir typesPath : Path} {source name : String} {s t : Terminal}
  {catalog phrases : Option String × List String} {a : Artifacts}

/-- After the files were written, a localization file is found as it was generated. Without
localization there is none among the texts. -/
theorem existingFor_after (listed : name ∈ [Artifacts.catalogName, Artifacts.phrasesName])
    (made : Artifacts.generate c (catalog.1.map Text.codePoints) phrases.1 source = .ok a)
    (clean : ∀ text, a.appText? name = some text → .char '\r' ∉ text)
    (base : t.base = s.base)
    (written : s.tree.writeTexts s.base (a.files outputDir typesPath) = .ok t.tree)
    (apart : s.tree.Apart s.base typesPath (outputDir.child name)) :
    ∃ found, existingFor c t.tree t.base outputDir name = .ok (found, []) ∧
      found.map Text.codePoints = a.appText? name := by
  unfold existingFor
  rcases Artifacts.appText?_of_generate listed made with ⟨localized, text, given⟩ | ⟨plain, none⟩
  · have mem : (name, text) ∈ a.appFiles := Artifacts.mem_appFiles.mpr given
    obtain ⟨-, place, led, -⟩ := FileTree.writeTexts_ok_iff.mp ⟨t.tree, written⟩
      (outputDir.child name, text) (mem_files.mpr (.inl ⟨_, mem, rfl⟩))
    obtain ⟨bytes, encoded, here⟩ := node?_appFile mem written apart led
    obtain ⟨found, rfl, rfl⟩ := Text.encodeCodePoints_eq_ok_iff.mp encoded
    have led' := (FileTree.locate_congr (FileTree.sameDirectories_writeTexts written)).mp led
    have returns : ∀ text, some found = some text → '\r' ∉ text.toList := by
      rintro _ ⟨⟩ inside
      exact clean _ given (List.mem_map_of_mem inside)
    rw [if_pos localized, base]
    exact ⟨some found, existing?_of_holds returns ⟨place, led', here⟩, given.symm⟩
  · rw [plain, if_neg Bool.false_ne_true]
    exact ⟨Option.none, rfl, none.symm⟩

/-- Generating again from the files that were written writes the same files and has no warnings. -/
theorem renew_again {verbose : Bool} {s' t : Terminal} {written : List Path}
    {result : Except OutputFailure (Artifacts × List Path)}
    (whole : ∀ bytes text, s.tree.read s.base (outputDir.child Artifacts.catalogName) = .ok bytes →
      Text.readTextFile? bytes = some text → Catalog.WholeFile (some (Text.codePoints text)))
    (apart : ∀ name ∈ [Artifacts.catalogName, Artifacts.phrasesName],
      s.tree.Apart s.base typesPath (outputDir.child name))
    (first : Terminal.run (renew verbose c outputDir typesPath source).run s = (.ok (a, written), s'))
    (second : Terminal.run (renew verbose c outputDir typesPath source).run s' = (result, t)) :
    result = .ok ({ a with warnings := [] }, written) ∧ t.base = s'.base ∧
      ∀ place, t.tree.node? place = s'.tree.node? place := by
  have sound : ¬ False := not_false
  generalize outcome : (Except.ok (a, written) : Except OutputFailure (Artifacts × List Path)) = r
    at first
  cases renewed_of_runs (runs_iff_run.mpr first) with
  | unread | unmade | unwritten => cases outcome
  | done a₀ catalog phrases base found made put =>
    cases outcome
    obtain ⟨foundCatalog, foundPhrases⟩ := found sound
    have wholeCatalog : Catalog.WholeFile (catalog.1.map Text.codePoints) := by
      intro points members same
      obtain ⟨text, here, rfl⟩ := Option.map_eq_some_iff.mp same
      obtain ⟨bytes, read, decoded⟩ := read_of_existingFor foundCatalog here
      exact whole bytes text read decoded _ members rfl
    have returns : ∀ text, phrases.1 = some text → '\r' ∉ text.toList := by
      intro text same
      obtain ⟨bytes, -, decoded⟩ := read_of_existingFor foundPhrases same
      exact Text.notMem_of_readTextFile? decoded
    obtain ⟨cleanCatalog, cleanPhrases⟩ := Artifacts.notMem_of_generate wholeCatalog returns made
    have cleanTable : ∀ text, a₀.phrases.map Text.codePoints = some text → .char '\r' ∉ text := by
      intro points same inside
      obtain ⟨text, here, rfl⟩ := Option.map_eq_some_iff.mp same
      obtain ⟨c, mem, ⟨⟩⟩ := List.mem_map.mp inside
      exact cleanPhrases text here mem
    obtain ⟨catalog', lookCatalog, sameCatalog⟩ := existingFor_after (List.mem_cons_self ..) made
      (by rwa [Artifacts.appText?_catalogName]) base put (apart _ (List.mem_cons_self ..))
    obtain ⟨phrases', lookPhrases, samePhrases⟩ :=
      existingFor_after (List.mem_cons_of_mem _ (List.mem_cons_self ..)) made
        (by rwa [Artifacts.appText?_phrasesName]) base put
        (apart _ (List.mem_cons_of_mem _ (List.mem_cons_self ..)))
    rw [Artifacts.appText?_catalogName] at sameCatalog
    rw [Artifacts.appText?_phrasesName, Text.map_codePoints_inj] at samePhrases
    obtain ⟨tree, putAgain, same⟩ := FileTree.writeTexts_again put
    obtain ⟨base', renewed⟩ := renew_found lookCatalog lookPhrases second
    have files : Artifacts.files { a₀ with warnings := [] } outputDir typesPath =
        a₀.files outputDir typesPath := rfl
    rw [sameCatalog, samePhrases, Artifacts.generate_again wholeCatalog made] at renewed
    dsimp only at renewed
    rw [files, base, putAgain] at renewed
    obtain ⟨ended, rfl⟩ := renewed
    exact ⟨ended, base', same⟩

/-- A directory with a catalog that is no text, and a phrase table. -/
def spoiledCatalog : Terminal where
  base := { root := "/" }
  tree := { nodes := [([Artifacts.catalogName], .file [0xff]),
    ([Artifacts.phrasesName], .file (Text.encodeUtf8 "\"Go\" = \"Los\";"))] }

def localizedConfig : Config where
  shortcuts := [{ identifier := "a", title := "A", phrases := ["Go"] }]
  localization := true

theorem typed_localizedConfig : localizedConfig.Typed := by
  intro shortcut mem p parameter
  obtain rfl := List.mem_singleton.mp mem
  cases parameter

theorem showable_localizedConfig : localizedConfig.Showable := by
  intro shortcut mem d dialog
  obtain rfl := List.mem_singleton.mp mem
  cases dialog

/-- Every file can be written beside the spoiled catalog. -/
theorem writable_spoiledCatalog {name : String} (listed : name ∈ Artifacts.appNames) :
    spoiledCatalog.tree.locate spoiledCatalog.base (Path.child {} name) = .ok [name] ∧
      spoiledCatalog.tree.Writable [name] := by
  have located : ∀ name ∈ Artifacts.appNames,
      (spoiledCatalog.tree.locate spoiledCatalog.base (Path.child {} name)).toOption = some [name] := by
    decide +kernel
  have free : ∀ name ∈ Artifacts.appNames, spoiledCatalog.tree.node? [name] ≠ some .directory := by
    decide
  exact ⟨toOption_eq_some_iff.mp (located name listed), FileTree.writable_of_above rfl (free name listed)⟩

theorem types_spoiledCatalog :
    spoiledCatalog.tree.locate spoiledCatalog.base (.ofText "types.d.ts") = .ok ["types.d.ts"] :=
  toOption_eq_some_iff.mp (by decide +kernel)

/-- A localized configuration is generated beside the spoiled catalog, with a warning. -/
theorem renew_spoiledCatalog {c : Config} (typed : c.Typed) (shown : c.Showable)
    (localized : c.localization = true) {source : String}
    {result : Except OutputFailure (Artifacts × List Path)} {t : Terminal}
    (run : Terminal.run (renew false c {} (.ofText "types.d.ts") source).run spoiledCatalog =
      (result, t)) :
    ∃ a written, result = .ok (a, written) ∧ a.warnings ≠ [] := by
  have lookCatalog : existingFor c spoiledCatalog.tree spoiledCatalog.base {}
      Artifacts.catalogName =
        .ok (none, [(LogLine.unreadable Artifacts.catalogName "<decode error>").message]) := by
    rw [existingFor, if_pos localized]
    exact toOption_eq_some_iff.mp (by decide +kernel)
  have lookPhrases : existingFor c spoiledCatalog.tree spoiledCatalog.base {}
      Artifacts.phrasesName = .ok (some "\"Go\" = \"Los\";", []) := by
    rw [existingFor, if_pos localized]
    exact toOption_eq_some_iff.mp (by decide +kernel)
  obtain ⟨a, made⟩ : ∃ a, Artifacts.generate c none (some "\"Go\" = \"Los\";") source = .ok a := by
    rcases Artifacts.generate_cases typed shown none (some "\"Go\" = \"Los\";") source with
      made | ⟨_, _, -, ⟨⟩, -⟩
    exact made
  obtain ⟨tree, put⟩ : ∃ tree, spoiledCatalog.tree.writeTexts spoiledCatalog.base
      (a.files {} (.ofText "types.d.ts")) = .ok tree := by
    rw [FileTree.writeTexts_ok_iff]
    intro e mem
    rcases mem_files.mp mem with ⟨e', isApp, rfl⟩ | rfl
    · rcases Artifacts.characters_of_generate made with texts | ⟨-, _, _, ⟨⟩, -⟩
      obtain ⟨s, same⟩ := texts e' isApp
      refine ⟨⟨_, Text.encodeCodePoints_eq_ok_iff.mpr ⟨s, same, rfl⟩⟩, [e'.1], ?_⟩
      exact writable_spoiledCatalog (Artifacts.mem_appNames isApp)
    · exact ⟨⟨_, Text.encodeCodePoints_codePoints _⟩, ["types.d.ts"], types_spoiledCatalog,
        FileTree.writable_of_above rfl (by decide)⟩
  obtain ⟨-, ended⟩ := renew_found lookCatalog lookPhrases run
  rw [Option.map_none, made] at ended
  dsimp only at ended
  rw [put] at ended
  exact ⟨_, _, ended.1, List.cons_ne_nil _ _⟩

/-- The warning about the catalog is given once. -/
theorem renew_again_spoiled : ∃ a written s' t,
    Terminal.run (renew false localizedConfig {} (.ofText "types.d.ts") "a.json").run
      spoiledCatalog = (.ok (a, written), s') ∧ a.warnings ≠ [] ∧
    Terminal.run (renew false localizedConfig {} (.ofText "types.d.ts") "a.json").run s' =
      (.ok ({ a with warnings := [] }, written), t) ∧
    ∀ place, t.tree.node? place = s'.tree.node? place := by
  rcases first : Terminal.run (renew false localizedConfig {} (.ofText "types.d.ts") "a.json").run
    spoiledCatalog with ⟨result, s'⟩
  obtain ⟨a, written, rfl, warned⟩ :=
    renew_spoiledCatalog typed_localizedConfig showable_localizedConfig rfl first
  have spoiled : ∀ bytes text, spoiledCatalog.tree.read spoiledCatalog.base
      (Path.child {} Artifacts.catalogName) = .ok bytes → Text.readTextFile? bytes = some text →
      Catalog.WholeFile (some (Text.codePoints text)) := by
    intro bytes text read decoded
    have there : (spoiledCatalog.tree.read spoiledCatalog.base
        (Path.child {} Artifacts.catalogName)).toOption = some [0xff] := by decide +kernel
    rw [read] at there
    cases there
    have undecodable : Text.readTextFile? [0xff] = none := by decide
    rw [undecodable] at decoded
    cases decoded
  have apart : ∀ name ∈ [Artifacts.catalogName, Artifacts.phrasesName],
      spoiledCatalog.tree.Apart spoiledCatalog.base (.ofText "types.d.ts") (Path.child {} name) := by
    intro name listed place led led'
    have other : ∀ name ∈ [Artifacts.catalogName, Artifacts.phrasesName], name ≠ "types.d.ts" := by
      decide
    rw [types_spoiledCatalog] at led
    cases led
    rw [(writable_spoiledCatalog (List.mem_cons_of_mem _ listed)).1] at led'
    cases led'
    exact other _ listed rfl
  rcases second : Terminal.run (renew false localizedConfig {} (.ofText "types.d.ts") "a.json").run
    s' with ⟨result, t⟩
  obtain ⟨rfl, -, unchanged⟩ := renew_again spoiled apart first second
  exact ⟨a, written, s', t, rfl, warned, second, unchanged⟩

end ShortcutRelay.CommandLine
