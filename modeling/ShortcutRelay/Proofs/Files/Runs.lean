import ShortcutRelay.Proofs.Files.Tree
import ShortcutRelay.Proofs.Program

/-!
# Runs on files

* `FileStep faulty` : a request is answered as the terminal answers it, or refused where files may be
  faulty; `runs_iff_run` : without faults these are the runs of `Terminal.run`;
* `sameFiles_of_quiet` : a program that asks for no writing leaves all files as they are;
* `quiet_bind` and companions : programs that ask for no writing;
* `kind_step`, `read_step`, `clear_step`, `write_step` : how requests are answered;
* `Unwritten` : what is left of a text that is not written, or in part; `writeFile_cases`;
* `FirstWritten` : what is left where only the first few of some texts are written.
-/

namespace ShortcutRelay

/-- The answer refuses a request for a file. Nothing that is written to the terminal is refused. -/
def FileRequest.Refused : (r : FileRequest) → r.Result → Prop
  | .kind _, a => a = Except.error FileError.refused
  | .entries _, a => a = Except.error FileError.refused
  | .read _, a => a = Except.error FileError.refused
  | .clear _, a => a = Except.error FileError.refused
  | .write _ _, a => a = Except.error FileError.refused
  | .say _, _ => False
  | .complain _, _ => False

/-- What a refused request leaves behind: everything as it was, but that a beginning of the bytes may
be in the file they were for. -/
def FileRequest.Leaves : FileRequest → Terminal → Terminal → Prop
  | .write path bytes, s, t => ∃ part, part <+: bytes ∧ t = (Terminal.put path part s).2
  | _, s, t => t = s

/-- A request is answered as the terminal answers it. Where files may be faulty it may also be
refused. -/
def FileStep (faulty : Prop) (r : FileRequest) (s : Terminal) (a : r.Result) (t : Terminal) : Prop :=
  Terminal.answer r s = (a, t) ∨ faulty ∧ r.Refused a ∧ r.Leaves s t

abbrev Terminal.Runs {α : Type} (faulty : Prop) (p : FileM α) (s : Terminal) (a : α) (t : Terminal) :
    Prop :=
  Program.Runs (I := fileInterface) (FileStep faulty) p s a t

/-- The request is none for a file to be changed. -/
def FileRequest.IsQuiet : FileRequest → Prop
  | .clear _ | .write _ _ => False
  | _ => True

/-- The terminals have the same working directory and the same files. -/
structure Terminal.SameFiles (s t : Terminal) : Prop where
  base : t.base = s.base
  tree : t.tree = s.tree

namespace Terminal

variable {faulty : Prop} {s t u : Terminal} {α : Type}

theorem SameFiles.refl (s : Terminal) : SameFiles s s := ⟨rfl, rfl⟩

theorem SameFiles.trans (h : SameFiles s t) (h' : SameFiles t u) : SameFiles s u :=
  ⟨h'.base.trans h.base, h'.tree.trans h.tree⟩

theorem runs_iff_run {p : FileM α} {a : α} :
    Runs False p s a t ↔ run p s = (a, t) := by
  have same : (FileStep False : (r : FileRequest) → Terminal → r.Result → Terminal → Prop) =
      fun r s a t => answer r s = (a, t) := by
    funext r s a t
    exact propext ⟨fun h => h.resolve_right fun faulty => faulty.1, .inl⟩
  unfold Runs
  rw [same]
  exact Program.runs_run

theorem sameFiles_of_step {r : FileRequest} (quiet : r.IsQuiet) {a : r.Result}
    (h : FileStep faulty r s a t) : SameFiles s t := by
  cases r with
  | clear path => exact quiet.elim
  | write path bytes => exact quiet.elim
  | kind | entries | read | say | complain =>
    rcases h with answered | ⟨-, -, rfl⟩
    · cases answered
      exact ⟨rfl, rfl⟩
    · exact .refl _

/-- A program that asks for no writing leaves all files as they are. -/
theorem sameFiles_of_quiet {p : FileM α} (quiet : p.Asks FileRequest.IsQuiet) {a : α}
    (h : Runs faulty p s a t) : SameFiles s t := by
  refine Program.runs_keeps (Q := SameFiles s) ?_ quiet h (.refl s)
  intro r u a v isQuiet answered same
  exact same.trans (sameFiles_of_step isQuiet answered)

section Run

variable {ε β : Type} {p : ExceptT ε FileM α} {f : α → ExceptT ε FileM β}

theorem run_bind_ok {a : α} (h : run p.run s = (.ok a, t)) :
    run (p >>= f).run s = run (f a).run t := by
  refine runs_iff_run.mp (Program.runs_except_bind.mpr (.inl ⟨a, t, runs_iff_run.mpr h, ?_⟩))
  exact runs_iff_run.mpr rfl

theorem run_bind_error {e : ε} (h : run p.run s = (.error e, t)) :
    run (p >>= f).run s = (.error e, t) :=
  runs_iff_run.mp (Program.runs_except_bind.mpr (.inr ⟨e, runs_iff_run.mpr h, rfl⟩))

theorem run_kind {path : Path} {k : FileKind} (f : FileError → ε)
    (h : s.tree.kind s.base path = .ok k) :
    run (ExceptT.adapt f (ExceptT.mk (Files.request (.kind path)))).run s = (.ok k, s) := by
  show ((s.tree.kind s.base path).mapError f, s) = _
  rw [h]
  rfl

theorem run_ite_bind_ok {c : Prop} [Decidable c] {q : ExceptT ε FileM α} {a : α}
    (h : run (ExceptT.run (if c then p else q)) s = (.ok a, t)) :
    run (ExceptT.run (if c then p >>= f else q >>= f)) s = run (f a).run t := by
  split at h
  · next given =>
    rw [if_pos given]
    exact run_bind_ok h
  · next other =>
    rw [if_neg other]
    exact run_bind_ok h

end Run

/-! ## Quiet programs -/

/-- The program asks for no writing. -/
def IsQuiet {ε α : Type} (p : ExceptT ε FileM α) : Prop :=
  Program.Asks (I := fileInterface) FileRequest.IsQuiet p.run

section Quiet

variable {ε β : Type}

theorem IsQuiet.adapt {ε' : Type} {p : ExceptT ε FileM α} (h : IsQuiet p) (f : ε → ε') :
    IsQuiet (p.adapt f) :=
  Program.asks_adapt h f

end Quiet

/-! ## Requests -/

theorem kind_step {path : Path} {a : Except FileError FileKind}
    (h : FileStep faulty (.kind path) s a t) : ¬ faulty → a = s.tree.kind s.base path := by
  intro sound
  rcases h with answered | ⟨broken, -⟩
  · cases answered
    rfl
  · exact absurd broken sound

theorem read_step {path : Path} {a : Except FileError (List UInt8)}
    (h : FileStep faulty (.read path) s a t) : ¬ faulty → a = s.tree.read s.base path := by
  intro sound
  rcases h with answered | ⟨broken, -⟩
  · cases answered
    rfl
  · exact absurd broken sound

theorem put_error {path : Path} {bytes : List UInt8} {e : FileError}
    (h : s.tree.write s.base path bytes = .error e) : put path bytes s = (.error e, s) := by
  show (put path bytes).run s = _
  simp only [put, StateT.run_bind, StateT.run_get, pure_bind, h]
  rfl

theorem put_ok {path : Path} {bytes : List UInt8} {tree : FileTree}
    (h : s.tree.write s.base path bytes = .ok tree) :
    put path bytes s = (.ok (), { s with tree }) := by
  show (put path bytes).run s = _
  simp only [put, StateT.run_bind, StateT.run_get, pure_bind, h]
  rfl

/-- A file is emptied, or all files stay as they are. -/
theorem clear_step {path : Path} {a : Except FileError Unit}
    (h : FileStep faulty (.clear path) s a t) :
    t.base = s.base ∧
      (a = .ok () ∧ s.tree.write s.base path [] = .ok t.tree ∨
        ∃ e, a = .error e ∧ t.tree = s.tree ∧
          (¬ faulty → s.tree.write s.base path [] = .error e)) := by
  rcases h with answered | ⟨broken, refused, rfl⟩
  · have answered : put path [] s = (a, t) := answered
    cases written : s.tree.write s.base path [] with
    | error e =>
      rw [put_error written] at answered
      cases answered
      exact ⟨rfl, .inr ⟨e, rfl, rfl, fun _ => rfl⟩⟩
    | ok tree =>
      rw [put_ok written] at answered
      cases answered
      exact ⟨rfl, .inl ⟨rfl, rfl⟩⟩
  · exact ⟨rfl, .inr ⟨_, refused, rfl, fun sound => absurd broken sound⟩⟩

/-- A file that can be written is filled, or a beginning of the bytes is in it. -/
theorem write_step {path : Path} {bytes : List UInt8} {a : Except FileError Unit}
    (writable : ∃ tree, s.tree.write s.base path bytes = .ok tree)
    (h : FileStep faulty (.write path bytes) s a t) :
    t.base = s.base ∧
      (a = .ok () ∧ s.tree.write s.base path bytes = .ok t.tree ∨
        faulty ∧ a = .error .refused ∧
          ∃ part, part <+: bytes ∧ s.tree.write s.base path part = .ok t.tree) := by
  obtain ⟨tree, written⟩ := writable
  rcases h with answered | ⟨broken, refused, part, isPart, rfl⟩
  · have answered : put path bytes s = (a, t) := answered
    rw [put_ok written] at answered
    cases answered
    exact ⟨rfl, .inl ⟨rfl, written⟩⟩
  · obtain ⟨tree', written'⟩ := FileTree.write_some written part
    rw [put_ok written']
    exact ⟨rfl, .inr ⟨broken, refused, part, isPart, written'⟩⟩

end Terminal

/-! ## Texts -/

/-- A text is not written, or in part. The file cannot be emptied; or it stays empty, as the text has
no bytes; or a fault leaves a beginning of these in it. -/
inductive FileTree.Unwritten (faulty : Prop) (t : FileTree) (base path : Path)
    (text : List CodePoint) : FileTree → FileError → Prop
  | closed (e : FileError) (failed : ¬ faulty → t.write base path [] = .error e) :
      Unwritten faulty t base path text t e
  | emptied (e : Text.NoBytes) (t' : FileTree) (none : Text.encodeCodePoints text = .error e)
      (written : t.write base path [] = .ok t') : Unwritten faulty t base path text t' (.noBytes e)
  | begun (broken : faulty) (bytes part : List UInt8) (t' : FileTree)
      (encoded : Text.encodeCodePoints text = .ok bytes) (isPart : part <+: bytes)
      (written : t.write base path part = .ok t') : Unwritten faulty t base path text t' .refused

namespace FileTree.Unwritten

variable {faulty : Prop} {t t' : FileTree} {base path : Path} {text : List CodePoint} {e : FileError}

/-- Without faults the text cannot be written. -/
theorem writeText_eq_error (h : Unwritten faulty t base path text t' e) (sound : ¬ faulty) :
    t.writeText base path text = .error e := by
  cases h with
  | closed _ failed =>
    rw [writeText, failed sound]
    rfl
  | emptied e _ none written =>
    rw [writeText_of_noBytes none, written]
    rfl
  | begun broken => exact absurd broken sound

end FileTree.Unwritten

/-- The first few of some texts are written, and the next one is not, or in part. -/
def FileTree.FirstWritten (faulty : Prop) (t : FileTree) (base : Path)
    (texts : List (Path × List CodePoint)) (t' : FileTree) (e : FileError) : Prop :=
  ∃ done path text others u, texts = done ++ (path, text) :: others ∧
    t.writeTexts base done = .ok u ∧ u.Unwritten faulty base path text t' e

namespace FileTree.FirstWritten

variable {faulty : Prop} {t t' u : FileTree} {base path : Path} {text : List CodePoint}
  {texts texts' : List (Path × List CodePoint)} {e : FileError}

theorem of_unwritten (h : t.Unwritten faulty base path text t' e) :
    t.FirstWritten faulty base [(path, text)] t' e :=
  ⟨[], path, text, [], t, rfl, rfl, h⟩

theorem append (h : t.FirstWritten faulty base texts t' e) :
    t.FirstWritten faulty base (texts ++ texts') t' e := by
  obtain ⟨done, path, text, others, v, rfl, written, next⟩ := h
  exact ⟨done, path, text, others ++ texts', v, by simp, written, next⟩

theorem after (written : t.writeTexts base texts = .ok u)
    (h : u.FirstWritten faulty base texts' t' e) :
    t.FirstWritten faulty base (texts ++ texts') t' e := by
  obtain ⟨done, path, text, others, v, rfl, others_written, next⟩ := h
  refine ⟨texts ++ done, path, text, others, v, by simp, ?_, next⟩
  rw [writeTexts_append, written]
  exact others_written

/-- Without faults the texts cannot be written. -/
theorem writeTexts_eq_error (h : t.FirstWritten faulty base texts t' e) (sound : ¬ faulty) :
    t.writeTexts base texts = .error e := by
  obtain ⟨done, path, text, others, u, rfl, written, next⟩ := h
  rw [writeTexts_append, written, ok_bind, writeTexts, next.writeText_eq_error sound]
  rfl

end FileTree.FirstWritten

namespace Terminal

variable {faulty : Prop} {s t : Terminal}

theorem writeFile_cases {path : Path} {text : List CodePoint} {r : Except FileError Unit}
    (h : Runs faulty (Files.writeFile path text).run s r t) :
    t.base = s.base ∧
      (r = .ok () ∧ s.tree.writeText s.base path text = .ok t.tree ∨
        ∃ e, r = .error e ∧ s.tree.Unwritten faulty s.base path text t.tree e) := by
  rcases Program.runs_except_bind.mp h with ⟨⟨⟩, u, cleared, h⟩ | ⟨e, cleared, rfl⟩
  · obtain ⟨base, ⟨-, emptied⟩ | ⟨_, failed, -⟩⟩ := clear_step (Program.runs_request.mp cleared)
    · cases encoded : Text.encodeCodePoints text with
      | error e =>
        rw [encoded] at h
        obtain ⟨rfl, rfl⟩ := h
        exact ⟨base, .inr ⟨_, rfl, .emptied e _ encoded emptied⟩⟩
      | ok bytes =>
        rw [encoded] at h
        have again (part : List UInt8) :
            u.tree.write u.base path part = s.tree.write s.base path part := by
          rw [base, FileTree.write_write emptied]
        have writable : ∃ tree, u.tree.write u.base path bytes = .ok tree := by
          rw [again]
          exact FileTree.write_some emptied bytes
        obtain ⟨base', done | ⟨broken, refused, part, isPart, written⟩⟩ :=
          write_step writable (Program.runs_request.mp h)
        · rw [again, ← FileTree.writeText_of_bytes encoded] at done
          exact ⟨base'.trans base, .inl done⟩
        · rw [again] at written
          have left := FileTree.Unwritten.begun broken bytes part _ encoded isPart written
          exact ⟨base'.trans base, .inr ⟨_, refused, left⟩⟩
    · cases failed
  · obtain ⟨base, ⟨done, -⟩ | ⟨e', same, tree, sound⟩⟩ :=
      clear_step (Program.runs_request.mp cleared)
    · cases done
    · cases same
      rw [tree]
      exact ⟨base, .inr ⟨e, rfl, .closed e sound⟩⟩

end Terminal

end ShortcutRelay
