/-!
# Results that may be errors

* `of_bind_eq_ok`, `of_map_eq_ok`, `of_mapError_eq_ok` and companions : the parts of a computation
  that succeeds;
* `Matching R` : two results are related values or the same error;
* `OkWhere P e` : a result is a value where `P` holds, and otherwise the error `e`.
-/

namespace ShortcutRelay

variable {ε ε' α β : Type}

theorem mapError_ok (a : α) (f : ε → ε') : (Except.ok a).mapError f = .ok a := rfl

theorem ok_bind (a : α) (f : α → Except ε β) : (Except.ok a >>= f) = f a := rfl

theorem of_bind_eq_ok {x : Except ε α} {f : α → Except ε β} {b : β} (h : x >>= f = .ok b) :
    ∃ a, x = .ok a ∧ f a = .ok b := by
  cases x with
  | error e => cases h
  | ok a => exact ⟨a, rfl, h⟩

theorem bind_eq_ok_iff {x : Except ε α} {f : α → Except ε β} {b : β} :
    x >>= f = .ok b ↔ ∃ a, x = .ok a ∧ f a = .ok b := by
  constructor
  · exact of_bind_eq_ok
  · rintro ⟨a, rfl, h⟩
    exact h

theorem bind_eq_error_iff {x : Except ε α} {f : α → Except ε β} {e : ε} :
    x >>= f = .error e ↔ x = .error e ∨ ∃ a, x = .ok a ∧ f a = .error e := by
  cases x with
  | error e' =>
    constructor
    · rintro ⟨⟩
      exact .inl rfl
    · rintro (⟨⟨⟩⟩ | ⟨a, ⟨⟩, -⟩)
      rfl
  | ok a =>
    constructor
    · intro h
      exact .inr ⟨a, rfl, h⟩
    · rintro (⟨⟨⟩⟩ | ⟨a, ⟨⟩, h⟩)
      exact h

theorem of_map_eq_ok {x : Except ε α} {f : α → β} {b : β} (h : x.map f = .ok b) :
    ∃ a, x = .ok a ∧ f a = b := by
  cases x with
  | error e => cases h
  | ok a =>
    cases h
    exact ⟨a, rfl, rfl⟩

theorem of_mapError_eq_ok {x : Except ε α} {f : ε → ε'} {a : α} (h : x.mapError f = .ok a) :
    x = .ok a := by
  cases x with
  | error e => cases h
  | ok a =>
    cases h
    rfl

/-- Two results are related values or the same error. -/
inductive Matching (R : α → β → Prop) : Except ε α → Except ε β → Prop
  | ok {a b} : R a b → Matching R (.ok a) (.ok b)
  | error (e) : Matching R (.error e) (.error e)

namespace Matching

variable {γ δ : Type} {R : α → β → Prop} {T : γ → δ → Prop} {x : Except ε α} {y : Except ε β}

theorem bind (h : Matching R x y) {f : α → Except ε γ} {g : β → Except ε δ}
    (next : ∀ a b, R a b → Matching T (f a) (g b)) : Matching T (x >>= f) (y >>= g) := by
  cases h with
  | ok related => exact next _ _ related
  | error e => exact .error e

theorem map (h : Matching R x y) {f : α → γ} {g : β → δ} (next : ∀ a b, R a b → T (f a) (g b)) :
    Matching T (f <$> x) (g <$> y) := by
  cases h with
  | ok related => exact .ok (next _ _ related)
  | error e => exact .error e

theorem mapError (h : Matching R x y) (f : ε → ε') :
    Matching R (x.mapError f) (y.mapError f) := by
  cases h with
  | ok related => exact .ok related
  | error e => exact .error (f e)

theorem of_eq {R : α → α → Prop} (reflexive : ∀ a, R a a) {x y : Except ε α} (h : x = y) :
    Matching R x y := by
  subst h
  cases x with
  | ok a => exact .ok (reflexive a)
  | error e => exact .error e

theorem eq {x y : Except ε α} (h : Matching Eq x y) : x = y := by
  cases h with
  | ok same => exact congrArg Except.ok same
  | error e => rfl

end Matching

/-- A result is a value where a condition holds, and otherwise the one error that there is. -/
structure OkWhere (P : Prop) (e : ε) (x : Except ε α) : Prop where
  ok : P → ∃ a, x = .ok a
  error : ¬P → x = .error e

namespace OkWhere

variable {P : Prop} {e : ε} {x : Except ε α}

theorem of_ok (holds : P) (a : α) : OkWhere P e (.ok a) :=
  ⟨fun _ => ⟨a, rfl⟩, fun fails => absurd holds fails⟩

theorem ite [Decidable P] (a : α) : OkWhere P e (if P then .ok a else .error e) :=
  ⟨fun holds => ⟨a, if_pos holds⟩, fun fails => if_neg fails⟩

theorem iff (h : OkWhere P e x) : (∃ a, x = .ok a) ↔ P := by
  refine ⟨fun ⟨a, done⟩ => Classical.byContradiction fun fails => ?_, h.ok⟩
  rw [h.error fails] at done
  cases done

theorem error_eq (h : OkWhere P e x) {e' : ε} (failed : x = .error e') : e' = e := by
  by_cases holds : P
  · obtain ⟨a, done⟩ := h.ok holds
    rw [done] at failed
    cases failed
  · rw [h.error holds] at failed
    exact (Except.error.inj failed).symm

theorem bind (h : OkWhere P e x) {f : α → Except ε β} (next : ∀ a, P → ∃ b, f a = .ok b) :
    OkWhere P e (x >>= f) where
  ok holds := by
    obtain ⟨a, done⟩ := h.ok holds
    rw [done]
    exact next a holds
  error fails := by
    rw [h.error fails]
    rfl

theorem map (h : OkWhere P e x) (f : α → β) : OkWhere P e (f <$> x) where
  ok holds := by
    obtain ⟨a, done⟩ := h.ok holds
    rw [done]
    exact ⟨f a, rfl⟩
  error fails := by
    rw [h.error fails]
    rfl

theorem mapError (h : OkWhere P e x) (f : ε → ε') : OkWhere P (f e) (x.mapError f) where
  ok holds := by
    obtain ⟨a, done⟩ := h.ok holds
    rw [done]
    exact ⟨a, rfl⟩
  error fails := by
    rw [h.error fails]
    rfl

end OkWhere

theorem toOption_eq_some_iff {x : Except ε α} {a : α} : x.toOption = some a ↔ x = .ok a := by
  cases x <;> simp [Except.toOption]

end ShortcutRelay
