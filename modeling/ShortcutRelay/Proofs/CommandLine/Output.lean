import ShortcutRelay.CommandLine.Output
import ShortcutRelay.Proofs.Artifacts.Assembly
import ShortcutRelay.Proofs.Files.Runs

/-!
# How the generated files are written

* `Artifacts.files a outputDir typesPath` : the generated files in the order in which they are
  written;
* `Written faulty files s t r` : which files have been written at the end of a program;
* `written_writeOut` : this is so for the generated files;
* `existing?` : the text of a localization file that is there already, as `runs_existingText` finds
  it;
* `Renewed` : how generating with the files that are there ends, `renewed_of_runs`.
-/

namespace ShortcutRelay

/-- The generated files in the order in which they are written, each with its text. -/
def Artifacts.files (a : Artifacts) (outputDir typesPath : Path) : List (Path × List CodePoint) :=
  a.appFiles.map (fun e => (outputDir.child e.1, e.2)) ++ [(typesPath, Text.codePoints a.types)]

namespace CommandLine
open Files Terminal

variable {faulty : Prop} {s t u : Terminal} {α β : Type}

/-! ## Writing -/

/-- What has been written when a program ends: all files, or the first few of them where it ends with
an error. -/
structure Written (faulty : Prop) (files : List (Path × List CodePoint)) (s t : Terminal)
    (r : Except FileError α) : Prop where
  base : t.base = s.base
  all : ∀ a, r = .ok a → s.tree.writeTexts s.base files = .ok t.tree
  first : ∀ e, r = .error e → s.tree.FirstWritten faulty s.base files t.tree e

namespace Written

variable {files files' : List (Path × List CodePoint)} {r : Except FileError α} {e : FileError}

theorem of_sameFiles (same : SameFiles s u) (h : Written faulty files u t r) :
    Written faulty files s t r := by
  obtain ⟨base, all, first⟩ := h
  rw [same.base, same.tree] at all first
  exact ⟨base.trans same.base, all, first⟩

theorem map (f : α → β) (h : Written faulty files s t r) : Written faulty files s t (r.map f) := by
  cases r with
  | error e => exact ⟨h.base, nofun, fun e' same => h.first e' (by cases same; rfl)⟩
  | ok a => exact ⟨h.base, fun _ _ => h.all a rfl, nofun⟩

theorem append {a : α} {r : Except FileError β}
    (one : Written faulty files s u (.ok a : Except FileError α))
    (other : Written faulty files' u t r) : Written faulty (files ++ files') s t r := by
  have written := one.all a rfl
  obtain ⟨base, all, first⟩ := other
  rw [one.base] at all first
  refine ⟨base.trans one.base, ?_, fun e h => (first e h).after written⟩
  intro b h
  rw [FileTree.writeTexts_append, written]
  exact all b h

theorem append_error (h : Written faulty files s t (.error e : Except FileError α)) :
    Written faulty (files ++ files') s t (.error e : Except FileError β) := by
  refine ⟨h.base, nofun, ?_⟩
  rintro _ ⟨⟩
  exact (h.first e rfl).append

end Written

/-- Nothing but lines for the terminal is asked for to log something. -/
theorem asks_log {P : FileRequest → Prop} (complains : ∀ text, P (.complain text)) (verbose : Bool)
    (line : LogLine) : (log verbose line).Asks P := by
  unfold log
  split
  · exact ⟨complains _, fun _ => trivial⟩
  · split
    · trivial
    · exact ⟨complains _, fun _ => trivial⟩

theorem quiet_log (verbose : Bool) (line : LogLine) :
    (log verbose line).Asks FileRequest.IsQuiet :=
  asks_log (fun _ => trivial) verbose line

theorem written_writeText {verbose : Bool} {path : Path} {text : List CodePoint}
    {r : Except FileError Unit} (h : Runs faulty (writeText verbose path text).run s r t) :
    Written faulty [(path, text)] s t r := by
  rcases Program.runs_except_bind.mp h with ⟨⟨⟩, u, written, logged⟩ | ⟨e, failed, rfl⟩
  · obtain ⟨⟨⟩, said, rfl⟩ := Program.runs_lift.mp logged
    have same := sameFiles_of_quiet (quiet_log _ _) said
    obtain ⟨base, ⟨-, put⟩ | ⟨_, failed, -⟩⟩ := writeFile_cases written
    · refine ⟨same.base.trans base, ?_, by rintro _ ⟨⟩⟩
      intro _ _
      rw [FileTree.writeTexts, put, same.tree]
      rfl
    · cases failed
  · obtain ⟨base, ⟨done, -⟩ | ⟨e', failed, left⟩⟩ := writeFile_cases failed
    · cases done
    · cases failed
      refine ⟨base, by rintro _ ⟨⟩, ?_⟩
      rintro _ ⟨⟩
      exact .of_unwritten left

theorem written_writeTexts {verbose : Bool} {directory : Path}
    {texts : List (String × List CodePoint)} {r : Except FileError Unit}
    (h : Runs faulty (writeTexts verbose directory texts).run s r t) :
    Written faulty (texts.map fun e => (directory.child e.1, e.2)) s t r := by
  induction texts generalizing s with
  | nil =>
    obtain ⟨rfl, rfl⟩ := h
    exact ⟨rfl, fun _ _ => rfl, nofun⟩
  | cons e rest ih =>
    rcases Program.runs_except_bind.mp h with ⟨a, u, written, others⟩ | ⟨e', failed, rfl⟩
    · exact (written_writeText written).append (ih others)
    · exact (written_writeText failed).append_error

/-- The generated files are written in order, and the paths of all of them are given. -/
theorem written_writeOut {verbose : Bool} {a : Artifacts} {outputDir typesPath : Path}
    {r : Except FileError (List Path)}
    (h : Runs faulty (writeOut verbose a outputDir typesPath).run s r t) :
    Written faulty (a.files outputDir typesPath) s t r ∧
      ∀ paths, r = .ok paths → paths = (a.files outputDir typesPath).map Prod.fst := by
  rcases Program.runs_except_bind.mp h with ⟨_, u, app, others⟩ | ⟨e, failed, rfl⟩
  · have written {r : Except FileError Unit} {v : Terminal}
        (types : Runs faulty (writeText verbose typesPath (Text.codePoints a.types)).run u r v) :
        Written faulty (a.files outputDir typesPath) s v r :=
      (written_writeTexts app).append (written_writeText types)
    rcases Program.runs_except_bind.mp others with ⟨_, v, types, last⟩ | ⟨e, types, rfl⟩
    · obtain ⟨rfl, rfl⟩ := last
      refine ⟨(written types).map fun _ => _, ?_⟩
      rintro _ ⟨⟩
      simp [Artifacts.files]
    · exact ⟨(written types).map fun _ => [], nofun⟩
  · exact ⟨(written_writeTexts failed).append_error, nofun⟩

/-! ## Reading -/

/-- The text in the bytes of a localization file, or what is logged where they hold none. -/
def textOf (path : Path) : Except FileError (List UInt8) → Except LogLine String
  | .error _ => .error (.unreadable path.name "<os error>")
  | .ok bytes =>
    match Text.readTextFile? bytes with
    | some text => .ok text
    | none => .error (.unreadable path.name "<decode error>")

def warned : Except LogLine String → Option String × List String
  | .ok text => (some text, [])
  | .error line => (none, [line.message])

/-- The text of a localization file, with the warning about a file that cannot be read. -/
def existing? (t : FileTree) (base path : Path) : Except FileError (Option String × List String) :=
  (t.kind base path).map fun kind =>
    if kind = .missing then (none, []) else warned (textOf path (t.read base path))

def warn (verbose : Bool) : Except LogLine String → FileM Unit
  | .ok _ => return ()
  | .error line => log verbose line

theorem existingText_eq (verbose : Bool) (path : Path) : existingText verbose path = (do
    let kind ← ExceptT.mk (request (.kind path))
    if kind = .missing then return (none, [])
    else do
      let bytes ← ExceptT.lift (request (.read path))
      ExceptT.lift (warn verbose (textOf path bytes))
      return warned (textOf path bytes)) := by
  have finished (bytes : Except FileError (List UInt8)) : (match bytes with
      | .error _ => do
        ExceptT.lift (log verbose (.unreadable path.name "<os error>"))
        return (none, [(LogLine.unreadable path.name "<os error>").message])
      | .ok bytes =>
        match Text.readTextFile? bytes with
        | some text => return (some text, [])
        | none => do
          ExceptT.lift (log verbose (.unreadable path.name "<decode error>"))
          return (none, [(LogLine.unreadable path.name "<decode error>").message]) :
        OutputM (Option String × List String)) = (do
      ExceptT.lift (warn verbose (textOf path bytes))
      return warned (textOf path bytes)) := by
    cases bytes with
    | error e => rfl
    | ok bytes =>
      cases decoded : Text.readTextFile? bytes <;> simp only [textOf, decoded] <;> rfl
  unfold existingText
  refine congrArg _ (funext fun kind => ?_)
  cases kind with
  | missing => rfl
  | file => exact congrArg _ (funext finished)
  | directory => exact congrArg _ (funext finished)

theorem quiet_warn (verbose : Bool) (found : Except LogLine String) :
    (warn verbose found).Asks FileRequest.IsQuiet := by
  cases found with
  | ok text => trivial
  | error line => exact quiet_log verbose line

theorem quiet_existingText (verbose : Bool) (path : Path) :
    (existingText verbose path).run.Asks FileRequest.IsQuiet := by
  rw [existingText_eq]
  refine Program.asks_except_bind ⟨trivial, fun _ => trivial⟩ fun kind => ?_
  split
  · trivial
  · refine Program.asks_except_bind (Program.asks_lift ⟨trivial, fun _ => trivial⟩) fun bytes => ?_
    exact Program.asks_except_bind (Program.asks_lift (quiet_warn _ _)) fun _ => trivial

theorem runs_existingText {verbose : Bool} {path : Path}
    {r : Except FileError (Option String × List String)}
    (h : Runs faulty (existingText verbose path).run s r t) :
    SameFiles s t ∧ (¬ faulty → r = existing? s.tree s.base path) := by
  refine ⟨sameFiles_of_quiet (quiet_existingText verbose path) h, fun sound => ?_⟩
  rw [existingText_eq] at h
  unfold existing?
  rcases Program.runs_except_bind.mp h with ⟨kind, u, first, second⟩ | ⟨e, first, rfl⟩
  · have asked := Program.runs_request.mp first
    have same := sameFiles_of_step (r := .kind path) trivial asked
    rw [← kind_step asked sound, Except.map]
    split at second
    · next missing =>
      obtain ⟨rfl, rfl⟩ := second
      rw [if_pos missing]
    · next there =>
      rw [if_neg there]
      obtain ⟨bytes, v, read, third⟩ := Program.runs_lift_bind.mp second
      obtain ⟨⟨⟩, w, -, rfl, rfl⟩ := Program.runs_lift_bind.mp third
      have here := read_step (Program.runs_request.mp read) sound
      rw [same.base, same.tree] at here
      rw [here]
  · rw [← kind_step (Program.runs_request.mp first) sound]
    rfl

/-! ## Generating with the files that are there -/

variable {c : Config} {outputDir typesPath : Path} {source : String}

/-- What is found under the name of a localization file. Without localization none is looked for. -/
def existingFor (c : Config) (t : FileTree) (base outputDir : Path) (name : String) :
    Except FileError (Option String × List String) :=
  if c.localization then existing? t base (outputDir.child name) else .ok (none, [])

def lookFor (verbose : Bool) (c : Config) (outputDir : Path) (name : String) :
    OutputM (Option String × List String) :=
  if c.localization then existingText verbose (outputDir.child name) else return (none, [])

theorem runs_lookFor {verbose : Bool} {name : String}
    {r : Except FileError (Option String × List String)}
    (h : Runs faulty (lookFor verbose c outputDir name).run s r t) :
    SameFiles s t ∧ (¬ faulty → r = existingFor c s.tree s.base outputDir name) := by
  unfold existingFor
  unfold lookFor at h
  split at h
  · next localized =>
    rw [if_pos localized]
    exact runs_existingText h
  · next unlocalized =>
    obtain ⟨rfl, rfl⟩ := h
    rw [if_neg unlocalized]
    exact ⟨.refl _, fun _ => rfl⟩

/-- How generating with the files that are there ends: they cannot be read, no texts are made of
them, the texts are not all written, or they are. Without faults what is found is in the files. -/
inductive Renewed (faulty : Prop) (c : Config) (outputDir typesPath : Path) (source : String)
    (s t : Terminal) : Except OutputFailure (Artifacts × List Path) → Prop
  | unread (e : FileError) (same : SameFiles s t)
      (failed : ¬ faulty → ∃ name ∈ [Artifacts.catalogName, Artifacts.phrasesName],
        existingFor c s.tree s.base outputDir name = .error e) :
      Renewed faulty c outputDir typesPath source s t (.error (.device e))
  | unmade (e : ArtifactError) (catalog phrases : Option String × List String)
      (same : SameFiles s t)
      (found : ¬ faulty → existingFor c s.tree s.base outputDir Artifacts.catalogName = .ok catalog ∧
        existingFor c s.tree s.base outputDir Artifacts.phrasesName = .ok phrases)
      (failed : Artifacts.generate c (catalog.1.map Text.codePoints) phrases.1 source = .error e) :
      Renewed faulty c outputDir typesPath source s t (.error (.artifacts e))
  | unwritten (e : FileError) (a : Artifacts) (catalog phrases : Option String × List String)
      (found : ¬ faulty → existingFor c s.tree s.base outputDir Artifacts.catalogName = .ok catalog ∧
        existingFor c s.tree s.base outputDir Artifacts.phrasesName = .ok phrases)
      (made : Artifacts.generate c (catalog.1.map Text.codePoints) phrases.1 source = .ok a)
      (written : Written faulty (a.files outputDir typesPath) s t
        (.error e : Except FileError (List Path))) :
      Renewed faulty c outputDir typesPath source s t (.error (.device e))
  | done (a : Artifacts) (catalog phrases : Option String × List String) (base : t.base = s.base)
      (found : ¬ faulty → existingFor c s.tree s.base outputDir Artifacts.catalogName = .ok catalog ∧
        existingFor c s.tree s.base outputDir Artifacts.phrasesName = .ok phrases)
      (made : Artifacts.generate c (catalog.1.map Text.codePoints) phrases.1 source = .ok a)
      (written : s.tree.writeTexts s.base (a.files outputDir typesPath) = .ok t.tree) :
      Renewed faulty c outputDir typesPath source s t
        (.ok ({ a with warnings := catalog.2 ++ phrases.2 ++ a.warnings },
          (a.files outputDir typesPath).map Prod.fst))

def logReplaced (verbose : Bool) (warnings : List String) : FileM Unit :=
  if warnings ≠ [] then log verbose .catalogReplaced else return ()

theorem asks_logReplaced {P : FileRequest → Prop} (complains : ∀ text, P (.complain text))
    (verbose : Bool) (warnings : List String) : (logReplaced verbose warnings).Asks P := by
  unfold logReplaced
  split
  · exact asks_log complains verbose _
  · trivial

theorem renew_eq (verbose : Bool) (c : Config) (outputDir typesPath : Path) (source : String) :
    renew verbose c outputDir typesPath source = (do
      let catalog ← (lookFor verbose c outputDir Artifacts.catalogName).adapt OutputFailure.device
      let phrases ← (lookFor verbose c outputDir Artifacts.phrasesName).adapt OutputFailure.device
      match Artifacts.generate c (catalog.1.map Text.codePoints) phrases.1 source with
      | .error e => throw (.artifacts e)
      | .ok a =>
        ExceptT.lift (logReplaced verbose a.warnings)
        let a := { a with warnings := catalog.2 ++ phrases.2 ++ a.warnings }
        let written ← (writeOut verbose a outputDir typesPath).adapt OutputFailure.device
        return (a, written)) := by
  unfold renew
  refine bind_congr fun catalog => bind_congr fun phrases => ?_
  obtain ⟨catalog, catalogWarnings⟩ := catalog
  obtain ⟨phrases, phraseWarnings⟩ := phrases
  dsimp only
  cases Artifacts.generate c (catalog.map Text.codePoints) phrases source with
  | error e => rfl
  | ok a =>
    unfold logReplaced
    dsimp only
    split <;> rfl

theorem renewed_of_runs {verbose : Bool} {r : Except OutputFailure (Artifacts × List Path)}
    (h : Runs faulty (renew verbose c outputDir typesPath source).run s r t) :
    Renewed faulty c outputDir typesPath source s t r := by
  rw [renew_eq] at h
  rcases Program.runs_adapt_bind.mp h with ⟨catalog, u, first, h⟩ | ⟨e, first, rfl⟩
  · obtain ⟨same, found₁⟩ := runs_lookFor first
    rcases Program.runs_adapt_bind.mp h with ⟨phrases, v, second, h⟩ | ⟨e, second, rfl⟩
    · obtain ⟨same', found₂⟩ := runs_lookFor second
      rw [same.base, same.tree] at found₂
      have found (sound : ¬ faulty) := And.intro (found₁ sound).symm (found₂ sound).symm
      have unchanged := same.trans same'
      cases made : Artifacts.generate c (catalog.1.map Text.codePoints) phrases.1 source with
      | error e =>
        rw [made] at h
        obtain ⟨rfl, rfl⟩ := h
        exact .unmade e catalog phrases unchanged found made
      | ok a =>
        rw [made] at h
        obtain ⟨⟨⟩, w, logged, h⟩ := Program.runs_lift_bind.mp h
        have unchanged' := unchanged.trans
          (sameFiles_of_quiet (asks_logReplaced (fun _ => trivial) _ _) logged)
        rcases Program.runs_adapt_bind.mp h with ⟨paths, x, third, last⟩ | ⟨e, third, rfl⟩
        · obtain ⟨rfl, rfl⟩ := last
          obtain ⟨written, given⟩ := written_writeOut third
          have here := written.of_sameFiles unchanged'
          rw [given paths rfl]
          exact .done a catalog phrases here.base found made (here.all _ rfl)
        · have here := (written_writeOut third).1.of_sameFiles unchanged'
          exact .unwritten e a catalog phrases found made here
    · obtain ⟨same', found₂⟩ := runs_lookFor second
      rw [same.base, same.tree] at found₂
      refine .unread e (same.trans same') fun sound => ?_
      exact ⟨_, List.mem_cons_of_mem _ (List.mem_cons_self ..), (found₂ sound).symm⟩
  · obtain ⟨same, found₁⟩ := runs_lookFor first
    refine .unread e same fun sound => ?_
    exact ⟨_, List.mem_cons_self .., (found₁ sound).symm⟩

/-- Texts are made of the localization files that are found, and all of them are written unless one
cannot be. -/
theorem renew_found {verbose : Bool} {catalog phrases : Option String × List String}
    {result : Except OutputFailure (Artifacts × List Path)}
    (foundCatalog : existingFor c s.tree s.base outputDir Artifacts.catalogName = .ok catalog)
    (foundPhrases : existingFor c s.tree s.base outputDir Artifacts.phrasesName = .ok phrases)
    (run : Terminal.run (renew verbose c outputDir typesPath source).run s = (result, t)) :
    t.base = s.base ∧
      match Artifacts.generate c (catalog.1.map Text.codePoints) phrases.1 source with
      | .error e => result = .error (.artifacts e) ∧ t.tree = s.tree
      | .ok a =>
        match s.tree.writeTexts s.base (a.files outputDir typesPath) with
        | .error e => result = .error (.device e) ∧
          s.tree.FirstWritten False s.base (a.files outputDir typesPath) t.tree e
        | .ok tree =>
          result = .ok ({ a with warnings := catalog.2 ++ phrases.2 ++ a.warnings },
            (a.files outputDir typesPath).map Prod.fst) ∧ t.tree = tree := by
  have sound : ¬ False := not_false
  cases renewed_of_runs (runs_iff_run.mpr run) with
  | unread e same failed =>
    obtain ⟨name, listed, failed⟩ := failed sound
    simp only [List.mem_cons, List.not_mem_nil, or_false] at listed
    rcases listed with rfl | rfl
    · rw [foundCatalog] at failed
      cases failed
    · rw [foundPhrases] at failed
      cases failed
  | unmade e catalog' phrases' same found failed =>
    rw [foundCatalog, foundPhrases] at found
    obtain ⟨⟨⟩, ⟨⟩⟩ := found sound
    rw [failed]
    exact ⟨same.base, rfl, same.tree⟩
  | unwritten e a catalog' phrases' found made written =>
    rw [foundCatalog, foundPhrases] at found
    obtain ⟨⟨⟩, ⟨⟩⟩ := found sound
    rw [made]
    refine ⟨written.base, ?_⟩
    have left := written.first e rfl
    dsimp only
    rw [left.writeTexts_eq_error sound]
    exact ⟨rfl, left⟩
  | done a catalog' phrases' base found made put =>
    rw [foundCatalog, foundPhrases] at found
    obtain ⟨⟨⟩, ⟨⟩⟩ := found sound
    rw [made]
    refine ⟨base, ?_⟩
    dsimp only
    rw [put]
    exact ⟨rfl, rfl⟩

end CommandLine

end ShortcutRelay
