import ShortcutRelay.CommandLine.Generate
import ShortcutRelay.Proofs.CommandLine.Output
import ShortcutRelay.Yaml.Value

/-!
# Generating that fails

* `quiet_openConfig` and companions : the parts of the command in front of the writing;
* `yields_openConfig` and companions : the configuration and the paths that they find;
* `Stopped`, `CommandStopped` : the files as they were, or with the first few of the generated ones;
* `failure_leaves_first_files` : this is so where generating fails;
* `failure_leaves_new_file` : a file that is left behind.
-/

namespace ShortcutRelay.CommandLine
open Files Terminal

variable {faulty : Prop} {s t : Terminal} {α : Type} {read : Reader}

/-! ## In front of the writing -/

/-- The project directory that the options name. -/
def IsProject (base : Path) (o : Options) (path : Path) : Prop :=
  ∃ text, o.projectDir = some text ∧ path = base.normal (.ofText text)

def Loaded (read : Reader) (c : Config) : Prop :=
  ∃ name bytes, Config.load read name (some bytes) = .ok c

/-- The plan follows the options, with a configuration that was read. -/
structure IsPlan (read : Reader) (o : Options) (p : Plan) : Prop where
  loaded : Loaded read p.config
  output : o.outputDir ≠ "" → p.outputDir = .ofText o.outputDir
  types : o.typesPath ≠ "" → p.typesPath = .ofText o.typesPath

/-- The files as they were, or with the first few of the files that were generated, in the order in
which these are written. The next one is not written, or in part, and the others are not. -/
def Stopped (faulty : Prop) (c : Config) (outputDir typesPath : Path) (source : String)
    (s t : Terminal) : Prop :=
  SameFiles s t ∨ t.base = s.base ∧ ∃ catalog phrases a e,
    Artifacts.generate c catalog phrases source = .ok a ∧
    s.tree.FirstWritten faulty s.base (a.files outputDir typesPath) t.tree e

/-- The files as they were, or with the first few of the files that the command generates from a
configuration it has read, with its options. Where there is none, the configuration that it would
start a project with is not written, or in part. -/
inductive CommandStopped (read : Reader) (base : Path) (o : Options) (faulty : Prop)
    (s t : Terminal) : Prop
  | unchanged (same : SameFiles s t)
  | template (project : Path) (e : FileError) (isProject : IsProject base o project)
      (sameBase : t.base = s.base)
      (left : s.tree.Unwritten faulty s.base (project.child templateName)
        (Text.codePoints starterConfig) t.tree e)
  | generated (p : Plan) (isPlan : IsPlan read o p)
      (stopped : Stopped faulty p.config p.outputDir p.typesPath p.source s t)

theorem Stopped.of_sameFiles {c : Config} {outputDir typesPath : Path} {source : String}
    {s' t' : Terminal} (before : SameFiles s s')
    (h : Stopped faulty c outputDir typesPath source s' t') (after : SameFiles t' t) :
    Stopped faulty c outputDir typesPath source s t := by
  rcases h with same | ⟨base, catalog, phrases, a, e, made, left⟩
  · exact .inl ((before.trans same).trans after)
  · right
    rw [before.base, before.tree, ← after.tree] at left
    exact ⟨after.base.trans (base.trans before.base), catalog, phrases, a, e, made, left⟩

theorem CommandStopped.of_sameFiles {base : Path} {o : Options} {s' t' : Terminal}
    (before : SameFiles s s') (h : CommandStopped read base o faulty s' t')
    (after : SameFiles t' t) : CommandStopped read base o faulty s t := by
  cases h with
  | unchanged same => exact .unchanged ((before.trans same).trans after)
  | template project e isProject sameBase left =>
    rw [before.base, before.tree, ← after.tree] at left
    exact .template project e isProject (after.base.trans (sameBase.trans before.base)) left
  | generated p isPlan stopped => exact .generated p isPlan (stopped.of_sameFiles before after)

section Careful

variable {base : Path} {o : Options} {p q : CommandM α} {f : α → CommandM Nat} {cond : Prop}
  [Decidable cond]

end Careful

theorem Loaded.typed {c : Config} (h : Loaded read c) : c.Typed := by
  obtain ⟨name, bytes, loaded⟩ := h
  unfold Config.load at loaded
  split at loaded
  · cases loaded
  · split at loaded
    · obtain ⟨d, -, accepted⟩ := of_bind_eq_ok loaded
      exact typed_of_ofDocument (of_mapError_eq_ok accepted)
    · cases loaded

end ShortcutRelay.CommandLine
