import ShortcutRelay.Program

/-!
# Requests and runs of programs

* `Asks P p` : every request that the program can make has a property, whatever the answers are;
* `Runs step p s a t` : the program leads from the state `s` to `t` and ends with `a`, where each of
  its requests is answered in a step;
* `runs_bind`, `runs_except_bind` : the parts of a run;
* `runs_run` : the runs of a program whose requests are answered in a state monad;
* `runs_keeps` : what the steps of its requests keep is kept by a run.
-/

namespace ShortcutRelay.Program

variable {I : Interface} {S α β ε ε' : Type}

/-- Every request that the program can make has a property. -/
def Asks (P : I.Request → Prop) : Program I α → Prop
  | .done _ => True
  | .ask r next => P r ∧ ∀ a, (next a).Asks P

section Asks

variable {P : I.Request → Prop}

theorem asks_bind {p : Program I α} {f : α → Program I β} (hp : p.Asks P)
    (hf : ∀ a, (f a).Asks P) : (p >>= f).Asks P := by
  induction p with
  | done a => exact hf a
  | ask r next ih => exact ⟨hp.1, fun a => ih a (hp.2 a)⟩

theorem asks_except_bind {p : ExceptT ε (Program I) α} {f : α → ExceptT ε (Program I) β}
    (hp : p.run.Asks P) (hf : ∀ a, (f a).run.Asks P) : (p >>= f).run.Asks P := by
  refine asks_bind hp fun r => ?_
  cases r with
  | ok a => exact hf a
  | error e => trivial

theorem asks_lift {p : Program I α} (hp : p.Asks P) :
    (ExceptT.lift p : ExceptT ε (Program I) α).run.Asks P :=
  asks_bind hp fun _ => trivial

theorem asks_adapt {p : ExceptT ε (Program I) α} (hp : p.run.Asks P) (f : ε → ε') :
    (p.adapt f).run.Asks P :=
  asks_bind hp fun _ => trivial

end Asks

/-! ## Runs -/

/-- The program leads from one state to another and ends with a result, where each request is
answered in a step. -/
def Runs (step : (r : I.Request) → S → I.Answer r → S → Prop) :
    Program I α → S → α → S → Prop
  | .done a, s, b, t => b = a ∧ t = s
  | .ask r next, s, b, u => ∃ a t, step r s a t ∧ (next a).Runs step t b u

variable {step : (r : I.Request) → S → I.Answer r → S → Prop}

theorem runs_bind {p : Program I α} {f : α → Program I β} {s u : S} {b : β} :
    (p >>= f).Runs step s b u ↔ ∃ a t, p.Runs step s a t ∧ (f a).Runs step t b u := by
  induction p generalizing s with
  | done a =>
    constructor
    · intro h
      exact ⟨a, s, ⟨rfl, rfl⟩, h⟩
    · rintro ⟨_, _, ⟨rfl, rfl⟩, h⟩
      exact h
  | ask r next ih =>
    constructor
    · rintro ⟨answer, t, answered, h⟩
      obtain ⟨a, t', first, second⟩ := (ih answer).mp h
      exact ⟨a, t', ⟨answer, t, answered, first⟩, second⟩
    · rintro ⟨a, t', ⟨answer, t, answered, first⟩, second⟩
      exact ⟨answer, t, answered, (ih answer).mpr ⟨a, t', first, second⟩⟩

theorem runs_request {r : I.Request} {s t : S} {a : I.Answer r} :
    (request r).Runs step s a t ↔ step r s a t := by
  constructor
  · rintro ⟨_, _, answered, rfl, rfl⟩
    exact answered
  · intro answered
    exact ⟨a, t, answered, rfl, rfl⟩

/-- A computation goes on where its first part succeeds, and ends with the error of that part where
it fails. -/
theorem runs_except_bind {p : ExceptT ε (Program I) α} {f : α → ExceptT ε (Program I) β} {s u : S}
    {r : Except ε β} : (p >>= f).run.Runs step s r u ↔
      (∃ a t, p.run.Runs step s (.ok a) t ∧ (f a).run.Runs step t r u) ∨
        ∃ e, p.run.Runs step s (.error e) u ∧ r = .error e := by
  refine Iff.trans runs_bind ?_
  constructor
  · rintro ⟨e | a, t, first, second⟩
    · obtain ⟨rfl, rfl⟩ := second
      exact .inr ⟨e, first, rfl⟩
    · exact .inl ⟨a, t, first, second⟩
  · rintro (⟨a, t, first, second⟩ | ⟨e, first, rfl⟩)
    · exact ⟨.ok a, t, first, second⟩
    · exact ⟨.error e, u, first, rfl, rfl⟩

theorem runs_lift {p : Program I α} {s t : S} {r : Except ε α} :
    (ExceptT.lift p : ExceptT ε (Program I) α).run.Runs step s r t ↔
      ∃ a, p.Runs step s a t ∧ r = .ok a := by
  refine Iff.trans runs_bind ?_
  constructor
  · rintro ⟨a, _, first, rfl, rfl⟩
    exact ⟨a, first, rfl⟩
  · rintro ⟨a, first, rfl⟩
    exact ⟨a, t, first, rfl, rfl⟩

theorem runs_lift_bind {p : Program I α} {f : α → ExceptT ε (Program I) β} {s u : S}
    {r : Except ε β} : (ExceptT.lift p >>= f : ExceptT ε (Program I) β).run.Runs step s r u ↔
      ∃ a t, p.Runs step s a t ∧ (f a).run.Runs step t r u := by
  rw [runs_except_bind]
  constructor
  · rintro (⟨a, t, first, second⟩ | ⟨e, first, -⟩)
    · obtain ⟨_, first, ⟨⟩⟩ := runs_lift.mp first
      exact ⟨a, t, first, second⟩
    · obtain ⟨_, -, ⟨⟩⟩ := runs_lift.mp first
  · rintro ⟨a, t, first, second⟩
    exact .inl ⟨a, t, runs_lift.mpr ⟨a, first, rfl⟩, second⟩

theorem runs_adapt {p : ExceptT ε (Program I) α} {f : ε → ε'} {s t : S} {r : Except ε' α} :
    (p.adapt f).run.Runs step s r t ↔ ∃ r', p.run.Runs step s r' t ∧ r = r'.mapError f := by
  refine Iff.trans runs_bind ?_
  constructor
  · rintro ⟨r', _, first, rfl, rfl⟩
    exact ⟨r', first, rfl⟩
  · rintro ⟨r', first, rfl⟩
    exact ⟨r', t, first, rfl, rfl⟩

theorem runs_adapt_bind {p : ExceptT ε (Program I) α} {f : ε → ε'}
    {g : α → ExceptT ε' (Program I) β} {s u : S} {r : Except ε' β} :
    (p.adapt f >>= g).run.Runs step s r u ↔
      (∃ a t, p.run.Runs step s (.ok a) t ∧ (g a).run.Runs step t r u) ∨
        ∃ e, p.run.Runs step s (.error e) u ∧ r = .error (f e) := by
  rw [runs_except_bind]
  refine or_congr (exists_congr fun a => exists_congr fun t => and_congr ?_ Iff.rfl) ?_
  · rw [runs_adapt]
    constructor
    · rintro ⟨r', first, same⟩
      cases r' <;> cases same
      exact first
    · exact fun first => ⟨_, first, rfl⟩
  · constructor
    · rintro ⟨e', adapted, rfl⟩
      obtain ⟨r', first, same⟩ := runs_adapt.mp adapted
      cases r' <;> cases same
      exact ⟨_, first, rfl⟩
    · rintro ⟨e, first, rfl⟩
      exact ⟨f e, runs_adapt.mpr ⟨_, first, rfl⟩, rfl⟩

/-- Where requests are answered in a state monad, the runs of a program are what it computes. -/
theorem runs_run {answer : (r : I.Request) → StateM S (I.Answer r)} {p : Program I α} {s t : S}
    {a : α} : p.Runs (fun r s a t => answer r s = (a, t)) s a t ↔ p.run answer s = (a, t) := by
  induction p generalizing s with
  | done b =>
    constructor
    · rintro ⟨rfl, rfl⟩
      rfl
    · intro h
      cases h
      exact ⟨rfl, rfl⟩
  | ask r next ih =>
    show (∃ b u, answer r s = (b, u) ∧ _) ↔ (next (answer r s).1).run answer (answer r s).2 = _
    rw [← ih]
    constructor
    · rintro ⟨b, u, answered, h⟩
      rwa [answered]
    · intro h
      exact ⟨_, _, rfl, h⟩

/-- What the steps of its requests keep is kept by a run. -/
theorem runs_keeps {P : I.Request → Prop} {Q : S → Prop}
    (keeps : ∀ r s a t, P r → step r s a t → Q s → Q t) {p : Program I α} (asks : p.Asks P)
    {s t : S} {a : α} (h : p.Runs step s a t) (start : Q s) : Q t := by
  induction p generalizing s with
  | done b =>
    obtain ⟨-, rfl⟩ := h
    exact start
  | ask r next ih =>
    obtain ⟨b, u, answered, h⟩ := h
    exact ih b (asks.2 b) h (keeps r s b u asks.1 answered start)

end ShortcutRelay.Program
