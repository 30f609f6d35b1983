import ShortcutRelay.Proofs.CommandLine.Output
import ShortcutRelay.Proofs.Text.Utf8

/-!
# Where the generated files are

* `Artifacts.mem_appFiles` : the files of the application by name;
* `node?_appFile` : what stands in the place of such a file after it was written;
* `Holds t base path existing` : a file with a text, or none, is at a path, and `existing?_of_holds` :
  this is found.
-/

namespace ShortcutRelay

def Artifacts.appNames : List String :=
  [intentsName, catalogName, phrasesName]

theorem Artifacts.isName_of_appName {name : String} (h : name ∈ appNames) :
    FileTree.IsName name := by
  simp only [appNames, List.mem_cons, List.not_mem_nil, or_false] at h
  rcases h with rfl | rfl | rfl <;>
    exact ⟨by decide +kernel, by decide +kernel, by decide +kernel, by decide +kernel⟩

def Artifacts.appText? (a : Artifacts) (name : String) : Option (List CodePoint) :=
  if name = intentsName then some (Text.codePoints a.swift)
  else if name = catalogName then a.catalog
  else if name = phrasesName then a.phrases.map Text.codePoints
  else none

namespace Artifacts

theorem catalogName_ne_intentsName : catalogName ≠ intentsName := by
  decide

theorem phrasesName_ne_intentsName : phrasesName ≠ intentsName := by
  decide

theorem phrasesName_ne_catalogName : phrasesName ≠ catalogName := by
  decide

variable {a : Artifacts}

theorem appText?_intentsName (a : Artifacts) :
    a.appText? intentsName = some (Text.codePoints a.swift) :=
  if_pos rfl

theorem appText?_catalogName (a : Artifacts) : a.appText? catalogName = a.catalog := by
  rw [appText?, if_neg catalogName_ne_intentsName, if_pos rfl]

theorem appText?_phrasesName (a : Artifacts) :
    a.appText? phrasesName = a.phrases.map Text.codePoints := by
  rw [appText?, if_neg phrasesName_ne_intentsName, if_neg phrasesName_ne_catalogName, if_pos rfl]

theorem mem_appFiles {e : String × List CodePoint} : e ∈ a.appFiles ↔ a.appText? e.1 = some e.2 := by
  have catalog := catalogName_ne_intentsName
  have phrases := phrasesName_ne_intentsName
  have other := phrasesName_ne_catalogName
  obtain ⟨name, text⟩ := e
  have listed : a.appFiles = [(intentsName, Text.codePoints a.swift)] ++
      (a.catalog.map (catalogName, ·)).toList ++
      ((a.phrases.map Text.codePoints).map (phrasesName, ·)).toList := by
    rw [appFiles, Option.map_map]
    rfl
  rw [listed]
  by_cases first : name = intentsName
  · simp [first, appText?_intentsName, catalog, phrases.symm, eq_comm]
  · by_cases second : name = catalogName
    · simp [second, appText?_catalogName, catalog, other]
    · by_cases third : name = phrasesName
      · simp [third, appText?_phrasesName, phrases, other.symm, -Option.map_map]
      · simp [appText?, first, second, third, Ne.symm second, Ne.symm third]

theorem mem_appNames {e : String × List CodePoint} (h : e ∈ a.appFiles) : e.1 ∈ appNames := by
  rw [mem_appFiles, appText?] at h
  split at h
  · next first => simp [appNames, first]
  · split at h
    · next second => simp [appNames, second]
    · split at h
      · next third => simp [appNames, third]
      · cases h

/-- The localization files are among the texts where the configuration asks for them. -/
theorem appText?_of_generate {c : Config} {oldCatalog : Option (List CodePoint)}
    {oldPhrases : Option String} {source name : String} (listed : name ∈ [catalogName, phrasesName])
    (h : generate c oldCatalog oldPhrases source = .ok a) :
    c.localization = true ∧ (∃ text, a.appText? name = some text) ∨
      c.localization = false ∧ a.appText? name = none := by
  obtain ⟨-, -, rest⟩ := generate_eq_ok_iff.mp h
  simp only [List.mem_cons, List.not_mem_nil, or_false] at listed
  cases localized : c.localization with
  | true =>
    rw [if_pos localized] at rest
    left
    refine ⟨rfl, ?_⟩
    rcases listed with rfl | rfl
    · obtain ⟨text, -, catalog⟩ := rest.catalog
      exact ⟨text, (appText?_catalogName a).trans catalog⟩
    · exact ⟨_, (appText?_phrasesName a).trans (congrArg _ rest.phrases)⟩
  | false =>
    rw [localized, if_neg Bool.false_ne_true] at rest
    right
    refine ⟨rfl, ?_⟩
    rcases listed with rfl | rfl
    · rw [appText?_catalogName, rest]
      rfl
    · rw [appText?_phrasesName, rest]
      rfl

end Artifacts

/-- The paths do not lead to the same place. -/
def FileTree.Apart (t : FileTree) (base p q : Path) : Prop :=
  ∀ place, t.locate base p = .ok place → t.locate base q ≠ .ok place

namespace CommandLine

variable {t t' : FileTree} {base outputDir typesPath : Path} {a : Artifacts} {name : String}
  {place : List String}

theorem mem_files {e : Path × List CodePoint} : e ∈ a.files outputDir typesPath ↔
    (∃ e' ∈ a.appFiles, e = (outputDir.child e'.1, e'.2)) ∨
      e = (typesPath, Text.codePoints a.types) := by
  simp [Artifacts.files, eq_comm]

/-- Of the files in one directory, only one is at a place. -/
theorem eq_of_locate_appFile {e e' : String × List CodePoint} (mem : e ∈ a.appFiles)
    (mem' : e' ∈ a.appFiles) (led : t.locate base (outputDir.child e.1) = .ok place)
    (led' : t.locate base (outputDir.child e'.1) = .ok place) : e' = e := by
  have isName {e : String × List CodePoint} (mem : e ∈ a.appFiles) : FileTree.IsName e.1 :=
    Artifacts.isName_of_appName (Artifacts.mem_appNames mem)
  obtain ⟨dir, -, -, same⟩ := (FileTree.locate_child (isName mem)).mp led
  obtain ⟨dir', -, -, same'⟩ := (FileTree.locate_child (isName mem')).mp led'
  have keys : e'.1 = e.1 := by
    rw [same] at same'
    have last := congrArg List.getLast? same'
    simpa using last.symm
  rw [Artifacts.mem_appFiles] at mem mem'
  rw [keys, mem, Option.some.injEq] at mem'
  exact Prod.ext keys mem'.symm

/-- A file of the application has the bytes of its text after it was written, unless the type
declarations are written to the same place. -/
theorem node?_appFile {text : List CodePoint} (mem : (name, text) ∈ a.appFiles)
    (written : t.writeTexts base (a.files outputDir typesPath) = .ok t')
    (apart : t.Apart base typesPath (outputDir.child name))
    (led : t.locate base (outputDir.child name) = .ok place) :
    ∃ bytes, Text.encodeCodePoints text = .ok bytes ∧ t'.node? place = some (.file bytes) := by
  have listed : (outputDir.child name, text) ∈ a.files outputDir typesPath :=
    mem_files.mpr (.inl ⟨_, mem, rfl⟩)
  have alone : ∀ e ∈ a.files outputDir typesPath, t.locate base e.1 = .ok place →
      e = (outputDir.child name, text) := by
    intro e isFile led'
    rcases mem_files.mp isFile with ⟨e', mem', rfl⟩ | rfl
    · rw [eq_of_locate_appFile mem mem' led led']
    · exact absurd led (apart place led')
  obtain ⟨⟨bytes, encoded⟩, _, led', writable⟩ :=
    FileTree.writeTexts_ok_iff.mp ⟨t', written⟩ _ listed
  obtain rfl := Except.ok.inj (led'.symm.trans led)
  refine ⟨bytes, encoded, ?_⟩
  rw [FileTree.node?_writeTexts written writable.ne_nil, FileTree.lastAt_of_mem listed led alone]
  dsimp only
  rw [encoded]
  rfl

/-! ## Localization files -/

/-- At a path is a file with a text, or none. -/
def Holds (t : FileTree) (base path : Path) (existing : Option String) : Prop :=
  ∃ place, t.locate base path = .ok place ∧
    t.node? place = existing.map fun text => .file (Text.encodeUtf8 text)

theorem existing?_of_holds {path : Path} {existing : Option String}
    (returns : ∀ text, existing = some text → '\r' ∉ text.toList)
    (h : Holds t base path existing) : existing? t base path = .ok (existing, []) := by
  obtain ⟨place, led, here⟩ := h
  cases existing with
  | none =>
    rw [Option.map_none] at here
    have kind : t.kind base path = .ok .missing := by
      rw [FileTree.kind, led]
      dsimp only
      rw [here]
    rw [existing?, kind]
    rfl
  | some text =>
    rw [Option.map_some] at here
    have kind : t.kind base path = .ok .file := by
      rw [FileTree.kind, led]
      dsimp only
      rw [here]
    have bytes : t.read base path = .ok (Text.encodeUtf8 text) := by
      rw [FileTree.read, led, ok_bind, here]
      rfl
    have decoded : textOf path (.ok (Text.encodeUtf8 text)) = .ok text := by
      simp only [textOf, Text.readTextFile?_encodeUtf8 (returns text rfl)]
    rw [existing?, kind, bytes, decoded]
    rfl

/-- A text that is found stands in a file. -/
theorem read_of_existing? {path : Path} {text : String} {warnings : List String}
    (h : existing? t base path = .ok (some text, warnings)) :
    ∃ bytes, t.read base path = .ok bytes ∧ Text.readTextFile? bytes = some text := by
  obtain ⟨kind, -, found⟩ := of_map_eq_ok h
  split at found
  · cases found
  · cases read : t.read base path with
    | error e =>
      rw [read] at found
      cases found
    | ok bytes =>
      rw [read] at found
      cases decoded : Text.readTextFile? bytes with
      | none =>
        simp only [textOf, decoded] at found
        cases found
      | some decodedText =>
        simp only [textOf, decoded] at found
        cases found
        exact ⟨bytes, rfl, decoded⟩

theorem read_of_existingFor {c : Config} {found : Option String × List String} {text : String}
    (h : existingFor c t base outputDir name = .ok found) (same : found.1 = some text) :
    ∃ bytes, t.read base (outputDir.child name) = .ok bytes ∧
      Text.readTextFile? bytes = some text := by
  obtain ⟨given, warnings⟩ := found
  obtain rfl : given = some text := same
  unfold existingFor at h
  split at h
  · exact read_of_existing? h
  · cases h

end CommandLine

end ShortcutRelay
