import ShortcutRelay.Preview
import ShortcutRelay.Proofs.CommandLine.Places
import ShortcutRelay.Yaml.Value

/-!
# The preview and the files

* `Ready` : a directory that the files of the application can be written to, with the localization
  files that are there already;
* `Left` : the files of an answer stand in their places and nothing else has changed;
* `asks_unlocalized` : without localization no file is read;
* `Unmade`, `Unencoded` : when nothing can be generated, and when the catalog cannot be written;
* `preview_agrees` : the answer of the preview is what is written to the directory;
* `long_number_has_no_answer` : there is no answer for a catalog with a long number.
-/

namespace ShortcutRelay

def Artifacts.listing (a : Artifacts) : List (String × List CodePoint) :=
  a.appFiles ++ [(typesName, Text.codePoints a.types)]

namespace CommandLine
open ShortcutRelay.Localization Terminal

/-- The directory is there, it holds the localization files with the given texts, if any, and the
other files can be written. The type declarations have a place of their own. -/
structure Ready (s : Terminal) (outputDir typesPath : Path) (dir typesPlace : List String)
    (catalog phrases : Option String) : Prop where
  directory : s.tree.locate s.base outputDir = .ok dir
  isDirectory : s.tree.node? dir = some .directory
  intents : s.tree.Writable (dir ++ [Artifacts.intentsName])
  catalog : s.tree.node? (dir ++ [Artifacts.catalogName]) =
    catalog.map fun text => .file (Text.encodeUtf8 text)
  phrases : s.tree.node? (dir ++ [Artifacts.phrasesName]) =
    phrases.map fun text => .file (Text.encodeUtf8 text)
  types : s.tree.locate s.base typesPath = .ok typesPlace
  typesWritable : s.tree.Writable typesPlace
  apart : ∀ name ∈ Artifacts.appNames, typesPlace ≠ dir ++ [name]

/-- The place of an artifact: in the directory, but for the type declarations. -/
def placeOf (dir typesPlace : List String) (name : String) : List String :=
  if name = Artifacts.typesName then typesPlace else dir ++ [name]

/-- The artifacts stand in their places, and what stands elsewhere is as it was. -/
structure Left (dir typesPlace : List String) (artifacts : List (String × List CodePoint))
    (before after : FileTree) : Prop where
  there : ∀ e ∈ artifacts, ∃ bytes, Text.encodeCodePoints e.2 = .ok bytes ∧
    after.node? (placeOf dir typesPlace e.1) = some (.file bytes)
  elsewhere : ∀ place, (∀ e ∈ artifacts, place ≠ placeOf dir typesPlace e.1) →
    after.node? place = before.node? place

variable {s t : Terminal} {outputDir typesPath : Path} {dir typesPlace : List String}
  {catalog phrases : Option String} {c : Config} {source : String} {a : Artifacts}

section Ready

variable (ready : Ready s outputDir typesPath dir typesPlace catalog phrases)
include ready

theorem Ready.locate_app {name : String} (h : name ∈ Artifacts.appNames) :
    s.tree.locate s.base (outputDir.child name) = .ok (dir ++ [name]) :=
  (FileTree.locate_child (Artifacts.isName_of_appName h)).mpr
    ⟨dir, ready.directory, ready.isDirectory, rfl⟩

/-- What is there or missing in the directory can be written. -/
theorem Ready.writable_of_existing {name : String} {existing : Option String}
    (here : s.tree.node? (dir ++ [name]) = existing.map fun text => .file (Text.encodeUtf8 text)) :
    s.tree.Writable (dir ++ [name]) := by
  refine FileTree.writable_of_above ?_ ?_
  · rw [List.dropLast_concat]
    exact ready.isDirectory
  · rw [here]
    cases existing <;> nofun

theorem Ready.writable_app {name : String} (h : name ∈ Artifacts.appNames) :
    s.tree.Writable (dir ++ [name]) := by
  simp only [Artifacts.appNames, List.mem_cons, List.not_mem_nil, or_false] at h
  rcases h with rfl | rfl | rfl
  · exact ready.intents
  · exact ready.writable_of_existing ready.catalog
  · exact ready.writable_of_existing ready.phrases

end Ready

def pathOf (outputDir typesPath : Path) (name : String) : Path :=
  if name = Artifacts.typesName then typesPath else outputDir.child name

theorem typesName_notMem_appNames : Artifacts.typesName ∉ Artifacts.appNames := by
  decide

/-- An artifact of the application, or the type declarations. -/
theorem listing_cases {e : String × List CodePoint} (h : e ∈ a.listing) :
    e.1 ∈ Artifacts.appNames ∧ e.1 ≠ Artifacts.typesName ∧ e ∈ a.appFiles ∨
      e = (Artifacts.typesName, Text.codePoints a.types) := by
  rcases List.mem_append.mp h with app | types
  · left
    have isApp := Artifacts.mem_appNames app
    refine ⟨isApp, ?_, app⟩
    intro same
    rw [same] at isApp
    exact typesName_notMem_appNames isApp
  · exact .inr (List.mem_singleton.mp types)

theorem files_eq (a : Artifacts) (outputDir typesPath : Path) :
    a.files outputDir typesPath = a.listing.map fun e => (pathOf outputDir typesPath e.1, e.2) := by
  unfold Artifacts.files Artifacts.listing
  rw [List.map_append, List.map_singleton, pathOf, if_pos rfl]
  refine congrArg (· ++ _) (List.map_congr_left fun e mem => ?_)
  rcases listing_cases (List.mem_append_left _ mem) with ⟨-, other, -⟩ | rfl
  · rw [pathOf, if_neg other]
  · exact absurd (Artifacts.mem_appNames mem) typesName_notMem_appNames

section Ready

variable (ready : Ready s outputDir typesPath dir typesPlace catalog phrases)
include ready

theorem Ready.locate_artifact {e : String × List CodePoint} (h : e ∈ a.listing) :
    s.tree.locate s.base (pathOf outputDir typesPath e.1) = .ok (placeOf dir typesPlace e.1) ∧
      s.tree.Writable (placeOf dir typesPlace e.1) := by
  unfold pathOf placeOf
  rcases listing_cases h with ⟨isApp, other, -⟩ | rfl
  · rw [if_neg other, if_neg other]
    exact ⟨ready.locate_app isApp, ready.writable_app isApp⟩
  · rw [if_pos rfl, if_pos rfl]
    exact ⟨ready.types, ready.typesWritable⟩

/-- No two artifacts have the same place. -/
theorem Ready.eq_of_placeOf {e e' : String × List CodePoint} (mem : e ∈ a.listing) (mem' : e' ∈ a.listing)
    (same : placeOf dir typesPlace e'.1 = placeOf dir typesPlace e.1) : e' = e := by
  unfold placeOf at same
  rcases listing_cases mem with ⟨isApp, other, app⟩ | rfl
  · rw [if_neg other] at same
    rcases listing_cases mem' with ⟨isApp', other', app'⟩ | rfl
    · rw [if_neg other'] at same
      have names : e'.1 = e.1 := by simpa using same
      rw [Artifacts.mem_appFiles] at app app'
      rw [names, app, Option.some.injEq] at app'
      exact Prod.ext names app'.symm
    · rw [if_pos rfl] at same
      exact absurd same (ready.apart _ isApp)
  · rw [if_pos rfl] at same
    rcases listing_cases mem' with ⟨isApp', other', -⟩ | rfl
    · rw [if_neg other'] at same
      exact absurd same.symm (ready.apart _ isApp')
    · rfl

/-- The generated files have places, where they can be written. -/
theorem Ready.locate_file {e : Path × List CodePoint} (h : e ∈ a.files outputDir typesPath) :
    ∃ e' ∈ a.listing, e = (pathOf outputDir typesPath e'.1, e'.2) ∧
      s.tree.locate s.base e.1 = .ok (placeOf dir typesPlace e'.1) ∧
      s.tree.Writable (placeOf dir typesPlace e'.1) := by
  rw [files_eq] at h
  obtain ⟨e', mem, rfl⟩ := List.mem_map.mp h
  exact ⟨e', mem, rfl, ready.locate_artifact mem⟩

/-- The files that were written stand in their places. -/
theorem Ready.left {tree : FileTree}
    (written : s.tree.writeTexts s.base (a.files outputDir typesPath) = .ok tree) :
    Left dir typesPlace a.listing s.tree tree := by
  constructor
  · intro e mem
    obtain ⟨led, writable⟩ := ready.locate_artifact mem
    have listed : (pathOf outputDir typesPath e.1, e.2) ∈ a.files outputDir typesPath := by
      rw [files_eq]
      exact List.mem_map_of_mem mem
    have alone : ∀ f ∈ a.files outputDir typesPath,
        s.tree.locate s.base f.1 = .ok (placeOf dir typesPlace e.1) →
        f = (pathOf outputDir typesPath e.1, e.2) := by
      intro f isFile led'
      obtain ⟨e', mem', rfl, there, -⟩ := ready.locate_file isFile
      have same := Except.ok.inj (there.symm.trans led')
      rw [ready.eq_of_placeOf mem mem' same]
    obtain ⟨⟨bytes, encoded⟩, -⟩ := FileTree.writeTexts_ok_iff.mp ⟨tree, written⟩ _ listed
    refine ⟨bytes, encoded, ?_⟩
    rw [FileTree.node?_writeTexts written writable.ne_nil,
      FileTree.lastAt_of_mem listed led alone]
    dsimp only
    rw [encoded]
    rfl
  · intro place other
    by_cases root : place = []
    · rw [root]
      rfl
    · rw [FileTree.node?_writeTexts written root, FileTree.lastAt_eq_none]
      intro f isFile led
      obtain ⟨e, mem, rfl, there, -⟩ := ready.locate_file isFile
      exact other e mem (Except.ok.inj (led.symm.trans there))

/-- Where not all files are written, one of them has no bytes and is left empty. -/
theorem Ready.left_empty {tree : FileTree} {failure : FileError}
    (left : s.tree.FirstWritten False s.base (a.files outputDir typesPath) tree failure) :
    ∃ e ∈ a.listing, ∃ b, Text.encodeCodePoints e.2 = .error b ∧ failure = .noBytes b ∧
      tree.node? (placeOf dir typesPlace e.1) = some (.file []) := by
  obtain ⟨done, path, text, rest, u, files, written, next⟩ := left
  have listed : (path, text) ∈ a.files outputDir typesPath := by
    rw [files]
    simp
  obtain ⟨e, mem, same, led, writable⟩ := ready.locate_file listed
  cases same
  have led' := (FileTree.locate_congr (FileTree.sameDirectories_writeTexts written)).mp led
  have writable' := (FileTree.writable_writeTexts written).mpr writable
  have emptied : u.write s.base (pathOf outputDir typesPath e.1) [] = .ok _ :=
    FileTree.write_eq_ok_iff.mpr ⟨_, led', writable', rfl⟩
  cases next with
  | closed _ failed => cases emptied.symm.trans (failed not_false)
  | begun broken => exact broken.elim
  | emptied b _ none there =>
    cases emptied.symm.trans there
    refine ⟨e, mem, b, none, rfl, ?_⟩
    rw [FileTree.node?_put _ _ _ writable.ne_nil, if_pos rfl]

end Ready

/-! ## Without localization -/

/-- The request writes to one of some paths, or to the terminal. -/
def WritesOnly (paths : List Path) : FileRequest → Prop
  | .clear path | .write path _ => path ∈ paths
  | .complain _ => True
  | _ => False

theorem asks_writeText {paths : List Path} {path : Path} (h : path ∈ paths) (verbose : Bool)
    (text : List CodePoint) : (writeText verbose path text).run.Asks (WritesOnly paths) := by
  have filled : (Files.writeFile path text).run.Asks (WritesOnly paths) := by
    refine Program.asks_except_bind ⟨h, fun _ => trivial⟩ fun _ => ?_
    cases Text.encodeCodePoints text with
    | ok bytes => exact ⟨h, fun _ => trivial⟩
    | error e => trivial
  exact Program.asks_except_bind filled fun _ =>
    Program.asks_lift (asks_log (fun _ => trivial) verbose _)

/-- Without localization no file is read, and only the two others are written. -/
theorem asks_unlocalized (unlocalized : c.localization = false) (verbose : Bool)
    (outputDir typesPath : Path) (source : String) :
    (renew verbose c outputDir typesPath source).run.Asks
      (WritesOnly [outputDir.child Artifacts.intentsName, typesPath]) := by
  have look (name : String) : ((lookFor verbose c outputDir name).adapt OutputFailure.device).run.Asks
      (WritesOnly [outputDir.child Artifacts.intentsName, typesPath]) := by
    rw [lookFor, unlocalized, if_neg Bool.false_ne_true]
    trivial
  rw [renew_eq]
  refine Program.asks_except_bind (look _) fun catalog => ?_
  refine Program.asks_except_bind (look _) fun phrases => ?_
  cases made : Artifacts.generate c (catalog.1.map Text.codePoints) phrases.1 source with
  | error e => trivial
  | ok a =>
    obtain ⟨-, -, rest⟩ := Artifacts.generate_eq_ok_iff.mp made
    rw [unlocalized, if_neg Bool.false_ne_true] at rest
    rw [rest]
    refine Program.asks_except_bind (Program.asks_lift (asks_logReplaced (fun _ => trivial) _ _)) fun _ => ?_
    refine Program.asks_except_bind (Program.asks_adapt ?_ _) fun _ => trivial
    refine Program.asks_except_bind ?_ fun _ => ?_
    · have one : outputDir.child Artifacts.intentsName ∈
          [outputDir.child Artifacts.intentsName, typesPath] := by simp
      exact Program.asks_except_bind (asks_writeText one _ _) fun _ => trivial
    · have other : typesPath ∈ [outputDir.child Artifacts.intentsName, typesPath] := by simp
      exact Program.asks_except_bind (asks_writeText other _ _) fun _ => trivial

/-! ## The answer -/

/-- The names of the artifacts. -/
theorem names_listing {oldCatalog : Option (List CodePoint)} {oldPhrases : Option String}
    (made : Artifacts.generate c oldCatalog oldPhrases source = .ok a) :
    a.listing.map Prod.fst = [Artifacts.intentsName] ++
      (if c.localization then [Artifacts.catalogName, Artifacts.phrasesName] else []) ++
      [Artifacts.typesName] := by
  obtain ⟨-, -, rest⟩ := Artifacts.generate_eq_ok_iff.mp made
  unfold Artifacts.listing Artifacts.appFiles
  split at rest
  · next localized =>
    obtain ⟨text, -, catalog⟩ := rest.catalog
    rw [if_pos localized, catalog, rest.phrases]
    rfl
  · next unlocalized =>
    rw [if_neg unlocalized, rest]
    rfl

/-- The answer of the preview to a configuration that is accepted. -/
theorem preview_eq {read : Reader} {r : Preview.Request} {d : Document}
    (opened : r.config.document? read = .ok d) (accepted : Config.ofDocument d = .ok c) :
    Preview.generate read r =
      ((Artifacts.generate c r.existingCatalog r.existingPhrases r.sourceName).mapError
        .artifacts).map fun a =>
        { shortcuts := c.shortcuts.map (·.identifier), localization := c.localization,
          artifacts := a.listing, warnings := a.warnings } := by
  unfold Preview.generate
  rw [opened]
  show ((Config.ofDocument d).mapError _ >>= _) = _
  rw [accepted]
  show ((Artifacts.generate c r.existingCatalog r.existingPhrases r.sourceName).mapError _ >>= _) = _
  cases Artifacts.generate c r.existingCatalog r.existingPhrases r.sourceName <;> rfl

theorem generate_unlocalized (unlocalized : c.localization = false)
    (oldCatalog : Option (List CodePoint)) (oldPhrases : Option String) (source : String) :
    Artifacts.generate c oldCatalog oldPhrases source = Artifacts.generate c none none source := by
  unfold Artifacts.generate
  rw [unlocalized]
  rfl

section Ready

variable (ready : Ready s outputDir typesPath dir typesPlace catalog phrases)
include ready

/-- What is found in the directory. -/
theorem Ready.existingFor_eq {name : String} (listed : name ∈ Artifacts.appNames)
    {existing : Option String} (returns : ∀ text, existing = some text → '\r' ∉ text.toList)
    (here : s.tree.node? (dir ++ [name]) = existing.map fun text => .file (Text.encodeUtf8 text)) :
    existingFor c s.tree s.base outputDir name =
      .ok (if c.localization then existing else none, []) := by
  unfold existingFor
  split
  · exact existing?_of_holds returns ⟨_, ready.locate_app listed, here⟩
  · rfl

/-- Without localization the localization files stay as they are. -/
theorem Ready.kept {oldCatalog : Option (List CodePoint)} {oldPhrases : Option String} {name : String}
    (listed : name ∈ [Artifacts.catalogName, Artifacts.phrasesName])
    (unlocalized : c.localization = false)
    (made : Artifacts.generate c oldCatalog oldPhrases source = .ok a) {tree : FileTree}
    (left : Left dir typesPlace a.listing s.tree tree) :
    tree.node? (dir ++ [name]) = s.tree.node? (dir ++ [name]) := by
  have nothing : a.appText? name = none := by
    rcases Artifacts.appText?_of_generate listed made with ⟨localized, -⟩ | ⟨-, nothing⟩
    · rw [unlocalized] at localized
      cases localized
    · exact nothing
  refine left.elsewhere _ fun e mem same => ?_
  unfold placeOf at same
  rcases listing_cases mem with ⟨isApp, other, app⟩ | rfl
  · rw [if_neg other] at same
    have names : name = e.1 := by simpa using same
    rw [Artifacts.mem_appFiles, ← names, nothing] at app
    cases app
  · rw [if_pos rfl] at same
    exact ready.apart name (List.mem_cons_of_mem _ listed) same.symm

end Ready

/-- Only the catalog may have no bytes. -/
theorem catalog_of_noBytes {e : String × List CodePoint} (mem : e ∈ a.listing) {b : Text.NoBytes}
    (none : Text.encodeCodePoints e.2 = .error b) : e.1 = Artifacts.catalogName ∧ e ∈ a.appFiles := by
  have other (s : String) : e.2 ≠ Text.codePoints s := by
    intro same
    rw [same, Text.encodeCodePoints_codePoints] at none
    cases none
  rcases listing_cases mem with ⟨-, -, app⟩ | rfl
  · refine ⟨?_, app⟩
    rw [Artifacts.mem_appFiles, Artifacts.appText?] at app
    split at app
    · exact absurd (Option.some.inj app).symm (other _)
    · split at app
      · assumption
      · split at app
        · obtain ⟨s, -, same⟩ := Option.map_eq_some_iff.mp app
          exact absurd same.symm (other s)
        · cases app
  · exact absurd rfl (other _)

/-- Nothing is generated: a dialog waits for a number that cannot be shown, or there is one with too many
digits in the existing catalog. -/
inductive Unmade (c : Config) (catalog : Option (List CodePoint)) : ArtifactError → Prop
  | dialog (unshown : ¬ c.Showable) : Unmade c catalog (.number .tooManyDigits)
  | catalog (localized : c.localization = true) (old : List CodePoint) (count : Nat)
      (given : catalog = some old) (long : Json.parse old = .error (.tooManyDigits count)) :
      Unmade c catalog (.catalog (.tooManyDigits count))

/-- The catalog among the artifacts has no bytes, as there is something else than characters in the
existing one. Its file is left empty. -/
structure Unencoded (dir : List String) (catalog : Option (List CodePoint))
    (artifacts : List (String × List CodePoint)) (after : FileTree) (e : Text.NoBytes) : Prop where
  text : ∃ text, (Artifacts.catalogName, text) ∈ artifacts ∧ Text.encodeCodePoints text = .error e
  existing : ∃ old members, catalog = some old ∧ Json.parse old = .ok (.object members) ∧
    ¬ Json.Spelled (.object members)
  empty : after.node? (dir ++ [Artifacts.catalogName]) = some (.file [])

/-- Where not all files are written, it is for the catalog, which has no bytes. -/
theorem Ready.unencoded (ready : Ready s outputDir typesPath dir typesPlace catalog phrases)
    {oldCatalog : Option (List CodePoint)} {oldPhrases : Option String}
    (made : Artifacts.generate c oldCatalog oldPhrases source = .ok a)
    {tree : FileTree} {failure : FileError}
    (left : s.tree.FirstWritten False s.base (a.files outputDir typesPath) tree failure) :
    ∃ e, failure = .noBytes e ∧ c.localization = true ∧ Unencoded dir oldCatalog a.listing tree e := by
  obtain ⟨e, mem, b, none, rfl, empty⟩ := ready.left_empty left
  obtain ⟨isCatalog, app⟩ := catalog_of_noBytes mem none
  have other : Artifacts.catalogName ≠ Artifacts.typesName := by decide
  rw [isCatalog, placeOf, if_neg other] at empty
  rcases Artifacts.characters_of_generate made with characters | ⟨localized, existing⟩
  · obtain ⟨s, same⟩ := characters e app
    rw [same, Text.encodeCodePoints_codePoints] at none
    cases none
  · exact ⟨b, rfl, localized, ⟨e.2, isCatalog ▸ mem, none⟩, existing, empty⟩

theorem made_or_unmade (typed : c.Typed) (oldCatalog : Option (List CodePoint))
    (oldPhrases : Option String) (source : String) :
    (∃ a, Artifacts.generate c oldCatalog oldPhrases source = .ok a) ∨
      ∃ e, Unmade c oldCatalog e ∧ Artifacts.generate c oldCatalog oldPhrases source = .error e := by
  by_cases shown : c.Showable
  · rcases Artifacts.generate_cases typed shown oldCatalog oldPhrases source with
      made | ⟨old, count, localized, given, long, failed⟩
    · exact .inl made
    · exact .inr ⟨_, .catalog localized old count given long, failed⟩
  · exact .inr ⟨_, .dialog shown, Artifacts.generate_unshowable typed shown oldCatalog oldPhrases source⟩

/-- The answer of the preview is what is written to a directory that holds the same localization
files: the same texts under the same names, with the same warnings, and nothing else is changed. A
catalog without bytes is answered but not written, and both fail where nothing can be generated.
Without localization no file is read, and the localization files stay as they are. -/
theorem preview_agrees {read : Reader} {r : Preview.Request} {d : Document}
    (opened : r.config.document? read = .ok d) (accepted : Config.ofDocument d = .ok c)
    (given : r.existingCatalog = catalog.map Text.codePoints)
    (cleanCatalog : ∀ text, catalog = some text → '\r' ∉ text.toList)
    (cleanPhrases : ∀ text, r.existingPhrases = some text → '\r' ∉ text.toList)
    (ready : Ready s outputDir typesPath dir typesPlace catalog r.existingPhrases)
    {verbose : Bool} {result : Except OutputFailure (Artifacts × List Path)}
    (run : Terminal.run (renew verbose c outputDir typesPath r.sourceName).run s = (result, t)) :
    ((∃ answer, Preview.generate read r = .ok answer ∧
        answer.artifacts.map Prod.fst = [Artifacts.intentsName] ++
          (if c.localization then [Artifacts.catalogName, Artifacts.phrasesName] else []) ++
          [Artifacts.typesName] ∧
        ((∃ a, result = .ok (a, (a.files outputDir typesPath).map Prod.fst) ∧
            answer.warnings = a.warnings ∧ Left dir typesPlace answer.artifacts s.tree t.tree) ∨
          ∃ e, result = .error (.device (.noBytes e)) ∧ c.localization = true ∧
            Unencoded dir r.existingCatalog answer.artifacts t.tree e)) ∨
      ∃ e, Unmade c r.existingCatalog e ∧ Preview.generate read r = .error (.artifacts e) ∧
        result = .error (.artifacts e) ∧ t.tree = s.tree) ∧
    (c.localization = false →
      (renew verbose c outputDir typesPath r.sourceName).run.Asks
        (WritesOnly [outputDir.child Artifacts.intentsName, typesPath]) ∧
      ∀ name ∈ [Artifacts.catalogName, Artifacts.phrasesName],
        t.tree.node? (dir ++ [name]) = s.tree.node? (dir ++ [name])) := by
  have foundCatalog := ready.existingFor_eq (c := c) (by simp [Artifacts.appNames]) cleanCatalog
    ready.catalog
  have foundPhrases := ready.existingFor_eq (c := c) (by simp [Artifacts.appNames]) cleanPhrases
    ready.phrases
  obtain ⟨-, renewed⟩ := renew_found foundCatalog foundPhrases run
  have same : Artifacts.generate c ((if c.localization then catalog else none).map Text.codePoints)
      (if c.localization then r.existingPhrases else none) r.sourceName =
      Artifacts.generate c r.existingCatalog r.existingPhrases r.sourceName := by
    rw [given]
    split
    · rfl
    · next unlocalized =>
      exact (generate_unlocalized (Bool.eq_false_iff.mpr unlocalized) _ _ _).symm
  rw [same] at renewed
  have answered := preview_eq opened accepted
  rcases made_or_unmade (typed_of_ofDocument accepted) r.existingCatalog r.existingPhrases
    r.sourceName with ⟨a, made⟩ | ⟨e, unmade, failed⟩
  · rw [made] at renewed answered
    dsimp only at renewed
    cases put : s.tree.writeTexts s.base (a.files outputDir typesPath) with
    | ok tree =>
      rw [put] at renewed
      obtain ⟨rfl, rfl⟩ := renewed
      have left := ready.left put
      refine ⟨.inl ⟨_, answered, names_listing made, .inl ⟨_, rfl, rfl, left⟩⟩, fun unlocalized => ?_⟩
      exact ⟨asks_unlocalized unlocalized _ _ _ _, fun name listed =>
        ready.kept listed unlocalized made left⟩
    | error failure =>
      rw [put] at renewed
      obtain ⟨rfl, left⟩ := renewed
      obtain ⟨e, rfl, localized, unencoded⟩ := ready.unencoded made left
      refine ⟨.inl ⟨_, answered, names_listing made, .inr ⟨e, rfl, localized, unencoded⟩⟩, ?_⟩
      intro unlocalized
      rw [unlocalized] at localized
      cases localized
  · rw [failed] at renewed answered
    obtain ⟨rfl, tree⟩ := renewed
    refine ⟨.inr ⟨e, unmade, answered, rfl, tree⟩, fun unlocalized => ?_⟩
    refine ⟨asks_unlocalized unlocalized _ _ _ _, fun name _ => ?_⟩
    rw [tree]

def translatedRequest : Preview.Request where
  config := .document (.map [
    (.text "shortcuts", .list [.map [(.text "identifier", .text "a"), (.text "title", .text "A"),
      (.text "phrases", .list [.text "Go"])]]),
    (.text "localization", .bool true)])
  existingPhrases := some "\"Go in $\x7bapplicationName\x7d\" = \"Los\";"

def translatedFiles : Terminal where
  base := { root := "/" }
  tree := { nodes := [([Artifacts.phrasesName],
    .file (Text.encodeUtf8 "\"Go in $\x7bapplicationName\x7d\" = \"Los\";"))] }

def translatedConfig : Config where
  shortcuts := [{ identifier := "a", title := "A", phrases := ["Go"] }]
  localization := true

theorem ready_translatedFiles : Ready translatedFiles {} (.ofText "types.d.ts") [] ["types.d.ts"]
    none translatedRequest.existingPhrases where
  directory := by rfl
  isDirectory := by rfl
  intents := .inr ⟨by decide, by decide⟩
  catalog := by rfl
  phrases := by rfl
  types := toOption_eq_some_iff.mp (by decide +kernel)
  typesWritable := .inr ⟨by decide, by decide⟩
  apart := by decide

theorem showable_translatedConfig : translatedConfig.Showable := by
  intro shortcut mem d dialog
  obtain rfl := List.mem_singleton.mp mem
  cases dialog

/-- All four artifacts are answered and written, the phrase table among them. -/
theorem preview_agrees_translated : ∃ answer a t,
    Preview.generate Yaml.reader translatedRequest = .ok answer ∧
    Terminal.run (renew false translatedConfig {} (.ofText "types.d.ts")
      translatedRequest.sourceName).run translatedFiles =
        (.ok (a, (a.files {} (.ofText "types.d.ts")).map Prod.fst), t) ∧
    answer.warnings = a.warnings ∧
    answer.artifacts.map Prod.fst = [Artifacts.intentsName, Artifacts.catalogName,
      Artifacts.phrasesName, Artifacts.typesName] ∧
    Left [] ["types.d.ts"] answer.artifacts translatedFiles.tree t.tree := by
  have cleanPhrases : ∀ text, translatedRequest.existingPhrases = some text → '\r' ∉ text.toList := by
    rintro text ⟨⟩
    decide
  rcases run : Terminal.run (renew false translatedConfig {} (.ofText "types.d.ts")
    translatedRequest.sourceName).run translatedFiles with ⟨result, t⟩
  obtain ⟨d, opened, accepted⟩ : ∃ d, translatedRequest.config.document? Yaml.reader = .ok d ∧
      Config.ofDocument d = .ok translatedConfig := ⟨_, rfl, rfl⟩
  have given : translatedRequest.existingCatalog = Option.map Text.codePoints none := rfl
  obtain ⟨agreed, -⟩ :=
    preview_agrees opened accepted given nofun cleanPhrases ready_translatedFiles run
  rcases agreed with ⟨answer, answered, names, written | ⟨_, _, _, ⟨_, ⟨_, _, ⟨⟩, _⟩, _⟩⟩⟩ | ⟨_, unmade, _⟩
  · obtain ⟨a, rfl, warnings, left⟩ := written
    exact ⟨answer, a, t, answered, rfl, warnings, names, left⟩
  · cases unmade with
    | dialog unshown => exact absurd showable_translatedConfig unshown
    | catalog _ _ _ given => cases given

/-- A request for the configuration of `translatedRequest` and a catalog of `4301` ones. -/
def longRequest : Preview.Request :=
  { translatedRequest with existingCatalog := some (Catalog.ones 4301) }

/-- A number of `4301` digits is no catalog, but there is no answer for it. -/
theorem long_number_has_no_answer :
    ¬ ∀ (read : Reader) (r : Preview.Request) (d : Document) (c : Config),
      r.config.document? read = .ok d → Config.ofDocument d = .ok c →
      (∀ text, r.existingCatalog = some text → .char '\r' ∉ text) →
      ∃ answer, Preview.generate read r = .ok answer := by
  intro answers
  have clean : ∀ text, longRequest.existingCatalog = some text → .char '\r' ∉ text := by
    rintro text ⟨⟩ mem
    obtain ⟨c, one, ⟨⟩⟩ := List.mem_map.mp mem
    exact absurd (List.eq_of_mem_replicate one) (by decide)
  obtain ⟨answer, answered⟩ := answers Yaml.reader longRequest _ translatedConfig rfl rfl clean
  rw [preview_eq rfl (c := translatedConfig) rfl] at answered
  obtain ⟨a, made, -⟩ := of_map_eq_ok answered
  obtain ⟨-, -, rest⟩ := Artifacts.generate_eq_ok_iff.mp (of_mapError_eq_ok made)
  rw [if_pos (show translatedConfig.localization = true from rfl)] at rest
  obtain ⟨text, merged, -⟩ := rest.catalog
  rw [longRequest, Catalog.merge_of_tooManyDigits _ (Catalog.parse_ones (by decide))] at merged
  cases merged

end CommandLine

end ShortcutRelay
