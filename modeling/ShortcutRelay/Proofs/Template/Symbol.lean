import Mathlib.Data.List.Basic
import ShortcutRelay.Template.Symbol

/-!
# Symbols

* `IsIdentifier` : the text is an identifier; `isIdentifier_iff` : the check takes identifiers, and those
  that one line break follows;
* `isPart_or_lineBreak`, `isPart_of_isIdentifier` : the characters of what it takes;
* `isPart_of_symbolCase` : the characters of a symbol that is an identifier;
* `mem_symbolCase` : a character without a case stays in a symbol, unless it is a separator,
  `notMem_of_symbolCase` : so it is none that identifiers do not have;
* `symbolCase_injective` : identifiers in camel case have different symbols.
-/

namespace ShortcutRelay.Template
open Text

/-! ## Upper case -/

theorem ofNat_eq_lineBreak {n : Nat} (h : Char.ofNat n = '\n') : n = 10 := by
  have value := congrArg Char.toNat h
  unfold Char.ofNat at value
  by_cases valid : n.isValidChar
  · rw [dif_pos valid] at value
    exact value
  · rw [dif_neg valid] at value
    cases value

/-- Only a line break has an upper-case form with a line break. -/
theorem lineBreak_notMem_upperOf {c : Char} (h : c ≠ '\n') : '\n' ∉ upperOf c := by
  have expanded : ∀ e ∈ upperExpansions, 10 ∉ e.2 := by decide
  have shifted : ∀ r ∈ upperShifts, 10 < r.first + r.delta := by decide +kernel
  unfold upperOf mapCase
  split
  · next codes found =>
    intro mem
    obtain ⟨n, listed, same⟩ := List.mem_map.mp mem
    obtain ⟨before, after, entries, -⟩ := List.lookup_eq_some_iff.mp found
    have entry : (c.toNat, codes) ∈ upperExpansions := by
      rw [entries]
      simp
    exact expanded _ entry (ofNat_eq_lineBreak same ▸ listed)
  · intro mem
    have value := ofNat_eq_lineBreak (List.mem_singleton.mp mem).symm
    unfold shiftCase at value
    split at value
    · next r found =>
      have above := shifted r (List.mem_of_find?_eq_some found)
      have covered := List.find?_some found
      simp only [CaseShift.covers, Bool.and_eq_true, decide_eq_true_eq] at covered
      omega
    · exact h (Char.toNat_inj.mp value)

/-! ## Characters of symbols -/

/-- A character without a case stays where words are joined, unless it is a separator. -/
theorem mem_joinWords {c : Char} (caseless : upperOf c = [c]) (inside : isSeparator c = false)
    {cs : List Char} (h : c ∈ cs) (after : Bool) : c ∈ joinWords after cs := by
  induction cs generalizing after with
  | nil => cases h
  | cons x cs ih =>
    unfold joinWords
    rcases List.mem_cons.mp h with rfl | later
    · rw [inside, if_neg Bool.false_ne_true]
      cases after <;> simp [caseless]
    · split
      · exact ih later true
      · exact List.mem_append_right _ (ih later false)

theorem mem_symbolCase {c : Char} (caseless : upperOf c = [c]) (inside : isSeparator c = false)
    {s : String} (h : c ∈ s.toList) : c ∈ (symbolCase s).toList := by
  have joined := mem_joinWords caseless inside h false
  unfold symbolCase
  rw [String.toList_ofList]
  cases words : joinWords false s.toList with
  | nil =>
    rw [words] at joined
    cases joined
  | cons x cs =>
    rw [words] at joined
    show c ∈ upperOf x ++ cs
    rcases List.mem_cons.mp joined with rfl | later
    · rw [caseless]
      exact List.mem_append_left _ (List.mem_singleton_self _)
    · exact List.mem_append_right _ later

theorem lineBreak_notMem_joinWords (after : Bool) (cs : List Char) : '\n' ∉ joinWords after cs := by
  induction cs generalizing after with
  | nil => exact List.not_mem_nil
  | cons c cs ih =>
    unfold joinWords
    split
    · exact ih true
    · next inside =>
      have other : c ≠ '\n' := by
        rintro rfl
        exact inside (by decide)
      rw [List.mem_append]
      rintro (here | later)
      · split at here
        · exact lineBreak_notMem_upperOf other here
        · exact other (List.mem_singleton.mp here).symm
      · exact ih false later

theorem lineBreak_notMem_symbolCase (s : String) : '\n' ∉ (symbolCase s).toList := by
  have joined := lineBreak_notMem_joinWords false s.toList
  unfold symbolCase
  rw [String.toList_ofList]
  cases words : joinWords false s.toList with
  | nil => exact List.not_mem_nil
  | cons x cs =>
    rw [words, List.mem_cons, not_or] at joined
    show '\n' ∉ upperOf x ++ cs
    rw [List.mem_append, not_or]
    exact ⟨lineBreak_notMem_upperOf (Ne.symm joined.1), joined.2⟩

/-! ## Identifiers -/

/-- The text is an identifier: an ASCII letter or an underscore stands in front, and there are only ASCII
letters, digits and underscores. -/
structure IsIdentifier (s : String) : Prop where
  first : ∃ c ∈ s.toList.head?, c.isAlpha = true ∨ c = '_'
  each : ∀ c ∈ s.toList, c.isAlphanum = true ∨ c = '_'

theorem isIdentifierStart_iff (c : Char) :
    isIdentifierStart c = true ↔ c.isAlpha = true ∨ c = '_' := by
  have letter : c.isAlpha = (c.isUpper || c.isLower) := rfl
  have upper : c.isUpper = ('A' ≤ c && c ≤ 'Z') := Bool.decide_and _ _
  have either : isIdentifierStart c = (c.isLower || ('A' ≤ c && c ≤ 'Z') || c == '_') := rfl
  rw [either, ← upper, letter, Bool.or_comm c.isUpper, Bool.or_eq_true, beq_iff_eq]

theorem isIdentifierPart_iff (c : Char) :
    isIdentifierPart c = true ↔ c.isAlphanum = true ∨ c = '_' := by
  have letterOrDigit : c.isAlphanum = (c.isAlpha || c.isDigit) := rfl
  have either : isIdentifierPart c = (isIdentifierStart c || c.isDigit) := rfl
  rw [either, letterOrDigit, Bool.or_eq_true, Bool.or_eq_true, isIdentifierStart_iff, or_right_comm]

variable {s : String}

theorem IsIdentifier.lineBreak_notMem (h : IsIdentifier s) : '\n' ∉ s.toList :=
  fun mem => absurd (h.each _ mem) (by decide)

theorem isIdentifier_iff_withoutFinalBreak :
    isIdentifier s = true ↔ IsIdentifier (String.ofList (withoutFinalBreak s.toList)) := by
  unfold isIdentifier
  split
  · next empty =>
    rw [empty]
    exact ⟨nofun, fun h => absurd h.first (by simp)⟩
  · next c cs spelled =>
    rw [spelled, Bool.and_eq_true, List.all_eq_true]
    constructor
    · rintro ⟨start, parts⟩
      have first := (isIdentifierStart_iff c).mp start
      refine ⟨⟨c, by simp, first⟩, ?_⟩
      rw [String.toList_ofList, List.forall_mem_cons]
      refine ⟨(isIdentifierPart_iff c).mp ?_, fun x mem => (isIdentifierPart_iff x).mp (parts x mem)⟩
      simp [isIdentifierPart, start]
    · rintro ⟨⟨x, begins, first⟩, each⟩
      rw [String.toList_ofList] at begins each
      cases begins
      exact ⟨(isIdentifierStart_iff c).mpr first,
        fun x mem => (isIdentifierPart_iff x).mpr (each x (.tail c mem))⟩

/-- The check takes identifiers, and those that one line break follows. -/
theorem isIdentifier_iff :
    isIdentifier s = true ↔ IsIdentifier s ∨ ∃ t, IsIdentifier t ∧ s = t ++ "\n" := by
  rw [isIdentifier_iff_withoutFinalBreak]
  unfold withoutFinalBreak
  split
  · next last =>
    have ends : s = String.ofList s.toList.dropLast ++ "\n" := by
      rw [← String.toList_inj, String.toList_append, String.toList_ofList]
      exact (List.dropLast_append_getLast? _ last).symm
    constructor
    · exact fun h => .inr ⟨_, h, ends⟩
    · rintro (h | ⟨t, h, same⟩)
      · exact absurd (List.mem_of_getLast? last) h.lineBreak_notMem
      · rw [ends, String.append_left_inj] at same
        exact same ▸ h
  · next other =>
    rw [String.ofList_toList]
    refine ⟨.inl, ?_⟩
    rintro (h | ⟨t, -, rfl⟩)
    · exact h
    · exact absurd (by simp) other

theorem isPart_or_lineBreak (h : isIdentifier s = true) :
    ∀ c ∈ s.toList, isIdentifierPart c = true ∨ c = '\n' := by
  intro c mem
  rw [isIdentifierPart_iff]
  rcases isIdentifier_iff.mp h with named | ⟨t, named, rfl⟩
  · exact .inl (named.each c mem)
  · rw [String.toList_append, List.mem_append] at mem
    exact mem.imp (named.each c) List.mem_singleton.mp

theorem isPart_of_isIdentifier (h : isIdentifier s = true)
    (whole : '\n' ∉ s.toList) : ∀ c ∈ s.toList, isIdentifierPart c = true :=
  fun c mem => (isPart_or_lineBreak h c mem).resolve_right fun broken => whole (broken ▸ mem)

theorem isPart_of_symbolCase (h : isIdentifier (symbolCase s) = true) :
    ∀ c ∈ (symbolCase s).toList, isIdentifierPart c = true :=
  isPart_of_isIdentifier h (lineBreak_notMem_symbolCase s)

/-- A character that no identifier has stands in no text whose symbol is one, unless it has a case or
is a separator. -/
theorem notMem_of_symbolCase (h : isIdentifier (symbolCase s) = true) {c : Char}
    (caseless : upperOf c = [c]) (inside : isSeparator c = false)
    (noPart : isIdentifierPart c = false) : c ∉ s.toList := by
  intro mem
  have part := isPart_of_symbolCase h c (mem_symbolCase caseless inside mem)
  cases part.symm.trans noPart

/-! ## Camel case -/

/-- A name of words without separators between them, of which the first begins with a small letter of
ASCII. -/
def IsCamel (s : String) : Prop :=
  ∃ c cs, s.toList = c :: cs ∧ 'a' ≤ c ∧ c ≤ 'z' ∧ ∀ x ∈ c :: cs, isSeparator x = false

theorem joinWords_of_noSeparator {cs : List Char} (h : ∀ x ∈ cs, isSeparator x = false) :
    joinWords false cs = cs := by
  induction cs with
  | nil => rfl
  | cons c cs ih =>
    have here := h c (List.mem_cons_self ..)
    have later := ih fun x mem => h x (List.mem_cons_of_mem _ mem)
    simp [joinWords, here, later]

theorem upperOf_small {c : Char} (from_a : 'a' ≤ c) (to_z : c ≤ 'z') :
    ∃ x, upperOf c = [x] ∧ x.toNat + 32 = c.toNat := by
  have each : ∀ n < 123, 97 ≤ n → upperOf (Char.ofNat n) = [Char.ofNat (n - 32)] ∧
      (Char.ofNat (n - 32)).toNat + 32 = n := by decide
  have low : 97 ≤ c.toNat := from_a
  have high : c.toNat ≤ 122 := to_z
  have found := each c.toNat (by omega) low
  rw [Char.ofNat_toNat] at found
  exact ⟨_, found⟩

/-- Names in camel case have different symbols. -/
theorem symbolCase_injective {s t : String} (hs : IsCamel s) (ht : IsCamel t)
    (same : symbolCase s = symbolCase t) : s = t := by
  obtain ⟨c, cs, spelled, from_a, to_z, words⟩ := hs
  obtain ⟨c', cs', spelled', from_a', to_z', words'⟩ := ht
  obtain ⟨x, upper, value⟩ := upperOf_small from_a to_z
  obtain ⟨x', upper', value'⟩ := upperOf_small from_a' to_z'
  have symbol : (symbolCase s).toList = x :: cs := by
    unfold symbolCase
    rw [String.toList_ofList, spelled, joinWords_of_noSeparator words, capitalize, upper]
    rfl
  have symbol' : (symbolCase t).toList = x' :: cs' := by
    unfold symbolCase
    rw [String.toList_ofList, spelled', joinWords_of_noSeparator words', capitalize, upper']
    rfl
  rw [same, symbol'] at symbol
  obtain ⟨rfl, rfl⟩ := List.cons.inj symbol
  have first : c = c' := Char.toNat_inj.mp (value.symm.trans value')
  rw [← String.toList_inj, spelled, spelled', first]

end ShortcutRelay.Template
