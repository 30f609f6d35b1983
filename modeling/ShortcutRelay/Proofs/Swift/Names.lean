import ShortcutRelay.Proofs.Config.Accepted
import ShortcutRelay.Proofs.Decimal.Written
import ShortcutRelay.Proofs.Swift.Lines
import ShortcutRelay.Proofs.Template.Symbol

/-!
# Names in Swift

* `plain_className` : the name of a type means nothing to a reader of lines;
* `Shortcut.Unbroken` : the names that a shortcut brings have no line breaks, and `Shortcut.Neat` : they
  mean nothing to a reader, so in `Shortcut.Checked.neat`;
* `plain_formatFloat` : nor do numbers.
-/

namespace ShortcutRelay
open Template

namespace Swift

variable {s : String}

theorem plain_of_isPart (h : ∀ c ∈ s.toList, isIdentifierPart c = true) : Plain s := by
  have none_part : ∀ m ∈ marks, isIdentifierPart m = false :=
    List.all_iff_forall_prop.mp (by decide)
  intro c mem marked
  cases (h c mem).symm.trans (none_part c marked)

theorem plain_of_numeral (h : Decimal.Numeral s) : Plain s := by
  have apart : ∀ c ∈ Decimal.numeralChars, c ∉ marks := List.all_iff_forall_prop.mp (by decide)
  exact fun c mem => apart c (h c mem)

theorem plain_toString (n : Nat) : Plain (toString n) :=
  plain_of_numeral (Decimal.numeral_toString n)

theorem plain_formatFloat (x : Float) : Plain (formatFloat x) := by
  unfold formatFloat
  split
  · exact plain_ofList (by decide)
  · split <;> exact plain_ofList (by decide)
  · split
    · split
      · exact plain_of_numeral (Decimal.numeral_toString _)
      · exact plain_of_numeral (Decimal.numeral_write x)
    · exact plain_of_numeral (Decimal.numeral_write x)

end Swift

open Swift

/-- The names that a shortcut brings have no line breaks. -/
structure Shortcut.Unbroken (s : Shortcut) : Prop where
  identifier : Swift.Unbroken s.identifier
  names : ∀ p ∈ s.parameters, Swift.Unbroken p.name

/-- The names that a shortcut brings mean nothing to a reader of lines. -/
structure Shortcut.Neat (s : Shortcut) : Prop where
  identifier : Plain s.identifier
  className : Plain s.className
  names : ∀ p ∈ s.parameters, Plain p.name

variable {s : Shortcut}

theorem isPart_of_className (h : s.Checked) :
    ∀ c ∈ s.className.toList, isIdentifierPart c = true := by
  have ending : ∀ c ∈ "Intent".toList, isIdentifierPart c = true :=
    List.all_iff_forall_prop.mp (by decide)
  intro c mem
  rw [Shortcut.className, String.toList_append, List.mem_append] at mem
  exact mem.elim (isPart_of_symbolCase h.symbol c) (ending c)

theorem plain_className (h : s.Checked) : Plain s.className :=
  plain_of_isPart (isPart_of_className h)

/-- No quotation mark, backslash or slash stands in an identifier: it would stand in the symbol. -/
theorem notMem_identifier (h : s.Checked) {c : Char} (quotes : c ∈ ['"', '\\', '/']) :
    c ∉ s.identifier.toList := by
  have kept : ∀ c ∈ ['"', '\\', '/'], Text.upperOf c = [c] ∧ isSeparator c = false ∧
      isIdentifierPart c = false := List.all_iff_forall_prop.mp (by decide)
  obtain ⟨caseless, inside, noPart⟩ := kept c quotes
  exact notMem_of_symbolCase h.symbol caseless inside noPart

/-- Where names have no line breaks, they mean nothing to a reader of lines. -/
theorem Shortcut.Checked.neat (h : s.Checked) (whole : s.Unbroken) : s.Neat where
  identifier := by
    intro c mem marked
    have sorted : ∀ c ∈ marks, c ∈ ['"', '\\', '/'] ∨ isLineBreak c = true :=
      List.all_iff_forall_prop.mp (by decide)
    rcases sorted c marked with quotes | broken
    · exact notMem_identifier h quotes mem
    · cases broken.symm.trans (whole.identifier c mem)
  className := plain_className h
  names := by
    intro p mem
    refine plain_of_isPart (isPart_of_isIdentifier (h.parameters p mem).named fun broken => ?_)
    cases whole.names p mem _ broken

end ShortcutRelay
