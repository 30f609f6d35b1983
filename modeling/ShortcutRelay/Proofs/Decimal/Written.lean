import ShortcutRelay.Decimal.Shortest
import ShortcutRelay.Proofs.Json.Lexeme

/-!
# The characters of numbers

* `Numeral s` : a text has no other characters than those that numbers are written with;
* `numeral_toString`, `numeral_write` : whole numbers and doubles are such texts.
-/

namespace ShortcutRelay.Decimal

/-- The characters that numbers are written with, the words for what is not finite included. -/
def numeralChars : List Char :=
  "0123456789+-.aefintyIN".toList

/-- The text has no other characters than numbers have. -/
def Numeral (s : String) : Prop :=
  ∀ c ∈ s.toList, c ∈ numeralChars

instance (s : String) : Decidable (Numeral s) :=
  List.decidableBAll (· ∈ numeralChars) s.toList

variable {s t : String}

theorem Numeral.append (h : Numeral s) (h' : Numeral t) : Numeral (s ++ t) := by
  intro c mem
  rw [String.toList_append, List.mem_append] at mem
  exact mem.elim (h c) (h' c)

theorem mem_numeralChars_of_isDigit {c : Char} (h : isDigit c = true) : c ∈ numeralChars := by
  simp only [isDigit, Bool.and_eq_true, decide_eq_true_eq] at h
  have digit : ∀ n < 58, 48 ≤ n → Char.ofNat n ∈ numeralChars := by decide
  have low : 48 ≤ c.toNat := h.1
  have high : c.toNat ≤ 57 := h.2
  have found := digit c.toNat (by omega) low
  rwa [Char.ofNat_toNat] at found

theorem numeral_toString (n : Int) : Numeral (toString n) := by
  intro c mem
  rw [Json.toList_int, List.mem_append] at mem
  rcases mem with sign | digit
  · split at sign
    · obtain rfl := List.mem_singleton.mp sign
      decide
    · cases sign
  · exact mem_numeralChars_of_isDigit (Json.isDigit_of_mem_toDigits digit)

/-! ## Doubles -/

theorem lt_ten_of_mem_digitsOf {n d : Nat} (h : d ∈ digitsOf n) : d < 10 := by
  obtain ⟨c, mem, rfl⟩ := List.mem_map.mp h
  have digit := Json.isDigit_of_mem_toDigits mem
  simp only [isDigit, Bool.and_eq_true, decide_eq_true_eq] at digit
  have high : c.toNat ≤ 57 := digit.2
  omega

theorem lt_ten_of_mem_shortest {mantissa : Nat} {exponent : Int} {d : Nat}
    (h : d ∈ (shortest mantissa exponent).digits) : d < 10 := by
  unfold shortest at h
  dsimp only at h
  generalize found : List.findSome? _ (List.range' 1 17) = first at h
  cases first with
  | none =>
    obtain rfl := List.mem_singleton.mp h
    decide
  | some digits =>
    obtain ⟨before, count, after, -, fits, -⟩ := List.findSome?_eq_some_iff.mp found
    obtain ⟨n, -, rfl⟩ := Option.map_eq_some_iff.mp fits
    refine lt_ten_of_mem_digitsOf (n := n) ?_
    have kept := (List.dropWhile_suffix _).subset (List.mem_reverse.mp h)
    exact List.mem_reverse.mp kept

theorem digitChar_mem {d : Nat} (h : d < 10) : digitChar d ∈ numeralChars := by
  have each : ∀ d < 10, digitChar d ∈ numeralChars := by decide
  exact each d h

section Notation

variable {d : Digits} (digits : ∀ x ∈ d.digits, x < 10)
include digits

theorem digitChars_mem : ∀ c ∈ d.digits.map digitChar, c ∈ numeralChars := by
  intro c mem
  obtain ⟨x, listed, rfl⟩ := List.mem_map.mp mem
  exact digitChar_mem (digits x listed)

theorem numeral_positional : Numeral (positional d) := by
  have chars := digitChars_mem digits
  have zero : '0' ∈ numeralChars := by decide
  have point : '.' ∈ numeralChars := by decide
  have zeros (n : Nat) : ∀ c ∈ List.replicate n '0', c ∈ numeralChars := by
    intro c mem
    rwa [List.eq_of_mem_replicate mem]
  unfold Numeral positional
  rw [String.toList_ofList]
  dsimp only
  split
  · simp only [List.cons_append, List.forall_mem_cons, List.forall_mem_append]
    exact ⟨zero, point, zeros _, chars⟩
  · split
    · simp only [List.forall_mem_append, List.forall_mem_cons]
      exact ⟨⟨chars, zeros _⟩, point, zero, nofun⟩
    · simp only [List.forall_mem_append, List.forall_mem_cons]
      refine ⟨fun c mem => chars c (List.mem_of_mem_take mem), point, fun c mem => ?_⟩
      exact chars c (List.mem_of_mem_drop mem)

theorem numeral_scientific : Numeral (scientific d) := by
  have chars := digitChars_mem digits
  have zero : '0' ∈ numeralChars := by decide
  have point : '.' ∈ numeralChars := by decide
  have mark : 'e' ∈ numeralChars := by decide
  have sign (negative : Prop) [Decidable negative] :
      (if negative then '-' else '+') ∈ numeralChars := by split <;> decide
  have size (n : Nat) : ∀ c ∈ Nat.toDigits 10 n, c ∈ numeralChars := fun c mem =>
    mem_numeralChars_of_isDigit (Json.isDigit_of_mem_toDigits mem)
  unfold Numeral scientific
  rw [String.toList_ofList]
  simp only [List.forall_mem_append, List.forall_mem_cons]
  refine ⟨?_, mark, sign _, ?_⟩
  · split
    · exact chars
    · simp only [List.forall_mem_append, List.forall_mem_cons]
      refine ⟨fun c mem => chars c (List.mem_of_mem_take mem), point, fun c mem => ?_⟩
      exact chars c (List.mem_of_mem_drop mem)
  · split
    · exact List.forall_mem_cons.mpr ⟨zero, size _⟩
    · exact size _

end Notation

theorem numeral_write (x : Float) : Numeral (plain.write x) := by
  unfold Layout.write
  split
  · decide
  · split <;> decide
  · next negative mantissa exponent _ =>
    dsimp only
    generalize chosen : (if mantissa = 0 then (⟨[0], 1⟩ : Digits) else shortest mantissa exponent) = d
    have digits : ∀ x ∈ d.digits, x < 10 := by
      intro x mem
      rw [← chosen] at mem
      split at mem
      · obtain rfl := List.mem_singleton.mp mem
        decide
      · exact lt_ten_of_mem_shortest mem
    have minus : Numeral "-" := by decide
    split
    · refine minus.append ?_
      split
      · exact numeral_positional digits
      · exact numeral_scientific digits
    · split
      · exact numeral_positional digits
      · exact numeral_scientific digits

end ShortcutRelay.Decimal
