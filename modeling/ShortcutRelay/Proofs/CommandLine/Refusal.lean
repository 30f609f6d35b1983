import ShortcutRelay.CommandLine.Generate
import ShortcutRelay.Preview
import ShortcutRelay.Proofs.Config.Refused
import ShortcutRelay.Proofs.Files.Runs
import ShortcutRelay.Proofs.Text.Utf8
import ShortcutRelay.Yaml.Value

/-!
# How a refused document is answered

* `Finds` : the command finds a file that holds a document;
* `Reported`, `Escapes` : what the preview service and the command do with a document that breaks a
  rule, and with one that strays;
* `openConfig_refused`, `generate_refused` : the command on a file that holds a refused document;
* `document_answered_or_strays` : every document is a configuration, or is reported, or strays;
* `number_for_parameters_escapes` : a document that strays.
-/

namespace ShortcutRelay.CommandLine
open Files Terminal

/-- The command finds a configuration file at a path, and the reader finds a document in the file. -/
structure Finds (read : Reader) (base : Path) (o : Options) (s : Terminal) (path : Path)
    (d : Document) : Prop where
  located : ∃ project, Terminal.run (resolveProject base o).run s = (.ok project, s) ∧
    Terminal.run (if o.config = "" then locateConfig project configNames
      else pure (some (Path.ofText o.config)) : CommandM (Option Path)).run s = (.ok (some path), s)
  isFile : s.tree.kind s.base path = .ok .file
  holds : ∃ bytes text, s.tree.read s.base path = .ok bytes ∧
    Text.readTextFile? bytes = some text ∧ read text = .ok d

/-- The terminal after a command has said that it reads a file, and has complained. -/
def afterReading (s : Terminal) (path : Path) (complaint : String) : Terminal :=
  { s with
    said := s.said ++ ("Reading shortcuts configuration: " ++ path.text ++ "\n")
    complained := s.complained ++ complaint }

/-- The document breaks a rule. The service answers with status 422 and what is wrong, and the
command says it behind its word for errors and ends with status 1. -/
structure Reported (read : Reader) (d : Document) (e : ConfigFault) : Prop where
  refused : Config.ofDocument d = .error (.invalid e)
  service : ∀ r : Preview.Request, r.config.document? read = .ok d →
    ∃ failure, Preview.generate read r = .error failure ∧ failure.reply? = some (422, e.message)
  command : ∀ base o s path, Finds read base o s path d →
    Terminal.run (generate read base o).run s =
      (.error (.exit 1), afterReading s path ("Error: " ++ e.message ++ "\n"))

/-- The document is refused without a rule that it breaks. The service has no answer of its own, and
the command ends without an exit status and without a word about it. -/
structure Escapes (read : Reader) (d : Document) (f : ConfigFailure) : Prop where
  refused : Config.ofDocument d = .error f
  service : ∀ r : Preview.Request, r.config.document? read = .ok d →
    ∃ failure, Preview.generate read r = .error failure ∧ failure.reply? = none
  command : ∀ base o s path, Finds read base o s path d →
    Terminal.run (generate read base o).run s =
      (.error (.crash (.load (.config f))), afterReading s path "")

variable {read : Reader} {base path : Path} {o : Options} {s : Terminal} {d : Document} {f : ConfigFailure}

/-- The preview answers with the failure of the document. -/
theorem preview_refused {r : Preview.Request} (opened : r.config.document? read = .ok d)
    (refused : Config.ofDocument d = .error f) :
    Preview.generate read r = .error (.ofLoad (.config f)) := by
  unfold Preview.generate
  rw [opened]
  show ((Config.ofDocument d).mapError _ >>= _) = _
  rw [refused]
  rfl

theorem run_say (line : String) :
    Terminal.run (say line).run s = (.ok (), { s with said := s.said ++ (line ++ "\n") }) := rfl

/-- A file that holds a refused document fails to load. -/
theorem openConfig_refused (found : Finds read base o s path d)
    (refused : Config.ofDocument d = .error f) (said : String) :
    Terminal.run (openConfig read path).run { s with said } =
      Terminal.run (failToLoad (.config f) : CommandM Config).run { s with said } := by
  obtain ⟨bytes, text, opened, decoded, parsed⟩ := found.holds
  have kind : Terminal.run (kindOf path).run { s with said } = (.ok .file, { s with said }) :=
    run_kind _ found.isFile
  have load : Config.load read path.text (some bytes) = .error (.config f) := by
    simp only [Config.load, decoded, Config.ofText, documentOfText, parsed, ok_bind, refused]
    rfl
  have loading : Terminal.run (ExceptT.lift (request (.read path)) : CommandM _).run
      { s with said } = (.ok (.ok bytes), { s with said }) := by
    show (Except.ok (s.tree.read s.base path), { s with said }) = _
    rw [opened]
    rfl
  unfold openConfig
  rw [run_bind_ok kind]
  refine (run_bind_ok loading).trans ?_
  have given : Terminal.run (ExceptT.run (pure (some bytes) : CommandM _)) { s with said } =
      (.ok (some bytes), { s with said }) := rfl
  refine (run_bind_ok given).trans ?_
  dsimp only
  rw [load]

theorem generate_refused (found : Finds read base o s path d)
    (refused : Config.ofDocument d = .error f) {ending : Ending} {complaint : String}
    (ends : ∀ said, Terminal.run (failToLoad (.config f) : CommandM Config).run { s with said } =
      (.error ending, { s with said, complained := s.complained ++ complaint })) :
    Terminal.run (generate read base o).run s = (.error ending, afterReading s path complaint) := by
  obtain ⟨project, resolved, located⟩ := found.located
  unfold generate
  rw [run_bind_ok resolved]
  dsimp only
  rw [run_ite_bind_ok located]
  have opened := openConfig_refused found refused
    (s.said ++ ("Reading shortcuts configuration: " ++ path.text ++ "\n"))
  have prepared : Terminal.run (prepare read o project path).run s =
      (.error ending, afterReading s path complaint) :=
    (run_bind_ok (run_say _)).trans (run_bind_error (opened.trans (ends _)))
  exact run_bind_error prepared

theorem reported {e : ConfigFault} (refused : Config.ofDocument d = .error (.invalid e)) :
    Reported read d e where
  refused := refused
  service _ opened := ⟨_, preview_refused opened refused, rfl⟩
  command _ _ _ _ found := generate_refused found refused fun _ => rfl

theorem escapes (stray : f.IsStray) (refused : Config.ofDocument d = .error f) :
    Escapes read d f where
  refused := refused
  service r opened := by
    refine ⟨_, preview_refused opened refused, ?_⟩
    cases f with
    | invalid e => exact absurd rfl (stray e)
    | notIterable | tooManyDigits => rfl
  command _ _ s path found := by
    refine generate_refused found refused fun said => ?_
    rw [String.append_empty]
    cases f with
    | invalid e => exact absurd rfl (stray e)
    | notIterable | tooManyDigits => rfl

/-- Every document is a configuration, or breaks a rule and is reported, or strays, however it is read
from its text. Which documents stray is told from the values in them. -/
theorem document_answered_or_strays (read : Reader) (d : Document) :
    ((∃ c, Config.ofDocument d = .ok c) ∨ (∃ e, Reported read d e) ∨
        ∃ f, Strays d f ∧ Escapes read d f) ∧
      ∀ f, Strays d f → Escapes read d f := by
  have strays_escapes : ∀ f, Strays d f → Escapes read d f := fun f strays =>
    escapes strays.isStray ((ofDocument_eq_stray_iff strays.isStray).mpr strays)
  refine ⟨?_, strays_escapes⟩
  cases answer : Config.ofDocument d with
  | ok c => exact .inl ⟨c, rfl⟩
  | error f =>
    rcases invalid_or_isStray f with ⟨e, rfl⟩ | stray
    · exact .inr (.inl ⟨e, reported answer⟩)
    · have strays := (ofDocument_eq_stray_iff stray).mp answer
      exact .inr (.inr ⟨f, strays, strays_escapes f strays⟩)

def numberShortcut : Fields :=
  [(.text "identifier", .text "a"), (.text "title", .text "A"), (.text "phrases", .list [.text "Go"]),
    (.text "parameters", .int 5)]

def numberForParameters : Document :=
  .map [(.text "shortcuts", .list [.map numberShortcut])]

def numberText : String :=
  "\x7b\"shortcuts\": [\x7b\"identifier\": \"a\", \"title\": \"A\", " ++
    "\"phrases\": [\"Go\"], \"parameters\": 5\x7d]\x7d"

def numberProject : Terminal where
  base := { root := "/" }
  tree := { nodes := [(["a.json"], .file (Text.encodeUtf8 numberText))] }

theorem strays_numberForParameters : Strays numberForParameters (.notIterable "int") := by
  have head : Headed 0 numberShortcut "a" := ⟨rfl, by decide, ["Go"], rfl⟩
  have strays : ShortcutStrays 0 numberShortcut (.notIterable (Document.int 5).fullKind) :=
    .parameters head rfl rfl
  exact @Strays.shortcut _ _ [] [] _ _ rfl rfl strays

/-- The texts and the number in a document of the shape of `numberForParameters`. -/
def numberParts? : Document → Option (List String × Int)
  | .map [(.text key, .list [.map [(.text k₁, .text v₁), (.text k₂, .text v₂),
      (.text k₃, .list [.text v₃]), (.text k₄, .int v₄)]])] =>
    some ([key, k₁, v₁, k₂, v₂, k₃, v₃, k₄], v₄)
  | _ => none

theorem readDocument_numberText : Yaml.readDocument numberText = .ok numberForParameters := by
  have read : (Yaml.readDocument numberText).toOption.bind numberParts? =
      some (["shortcuts", "identifier", "a", "title", "A", "phrases", "Go", "parameters"], 5) := by
    decide +kernel
  obtain ⟨d, found, parts⟩ := Option.bind_eq_some_iff.mp read
  unfold numberParts? at parts
  split at parts
  · cases parts
    exact toOption_eq_some_iff.mp found
  · cases parts

theorem reader_numberText : Yaml.reader numberText = .ok numberForParameters := by
  rw [Yaml.reader, readDocument_numberText]
  rfl

theorem finds_numberProject : Finds Yaml.reader numberProject.base { config := "a.json" } numberProject
    (.ofText "a.json") numberForParameters where
  located := ⟨_, rfl, rfl⟩
  isFile := toOption_eq_some_iff.mp (by decide +kernel)
  holds := ⟨Text.encodeUtf8 numberText, numberText, toOption_eq_some_iff.mp (by decide +kernel),
    Text.readTextFile?_encodeUtf8 (by decide), reader_numberText⟩

/-- The failure of a document that strays is told to nobody. -/
theorem document_answered_or_strays_number : ∃ t,
    Strays numberForParameters (.notIterable "int") ∧
    Terminal.run (generate Yaml.reader numberProject.base { config := "a.json" }).run numberProject =
      (.error (.crash (.load (.config (.notIterable "int")))), t) ∧ t.complained = "" :=
  have escaped := (document_answered_or_strays Yaml.reader numberForParameters).2 _ strays_numberForParameters
  ⟨_, strays_numberForParameters, escaped.command _ _ _ _ finds_numberProject, rfl⟩

/-- A document that is neither a configuration nor breaks a rule. -/
theorem number_for_parameters_escapes :
    Config.ofDocument numberForParameters = .error (.notIterable "int") ∧
    ¬ ∀ d, (∃ c, Config.ofDocument d = .ok c) ∨ ∃ e, Config.ofDocument d = .error (.invalid e) := by
  have escaped : Config.ofDocument numberForParameters = .error (.notIterable "int") :=
    (ofDocument_eq_stray_iff strays_numberForParameters.isStray).mpr strays_numberForParameters
  refine ⟨escaped, fun answered => ?_⟩
  rcases answered numberForParameters with ⟨c, accepted⟩ | ⟨e, refused⟩
  · cases escaped.symm.trans accepted
  · cases escaped.symm.trans refused

end ShortcutRelay.CommandLine
