import ShortcutRelay.Json.Printer
import ShortcutRelay.Json.Reader

/-!
# Texts and whole numbers of JSON read back

* `readText_quoted` : what stands between the quotes of a text is read as that text;
* `EndsNumber rest` : a number in front of `rest` is not continued by it;
* `readNumber_whole` : a whole number is read as itself, where it has no more digits than a reader
  takes;
* `EndsLexeme rest`, `readLexeme_append` : a word or a number is read up to what cannot stand in one;
* `digitCount_le_of_readNumber` : no whole number with more digits is read.
-/

namespace ShortcutRelay.Json
open Decimal Text

/-! ## Texts -/

theorem escapeOf?_shortEscape {c e : Char} (h : shortEscape? c = some e) :
    escapeOf? e = some c ∧ e ≠ 'u' := by
  have listed : ∀ p ∈ [('"', '"'), ('\\', '\\'), ('\n', 'n'), ('\r', 'r'), ('\t', 't'), ('\x0c', 'f'),
      ('\x08', 'b')], escapeOf? p.2 = some p.1 ∧ p.2 ≠ 'u' := by decide
  obtain ⟨before, after, entries, -⟩ := List.lookup_eq_some_iff.mp h
  exact listed (c, e) (entries ▸ by simp)

theorem ofNat_toNat {p : CodePoint} (control : p.toNat < 32) : CodePoint.ofNat p.toNat = p := by
  cases p with
  | char c =>
    have low : ¬ (0xd800 ≤ c.toNat ∧ c.toNat < 0xe000) := by
      change c.toNat < 32 at control
      omega
    rw [CodePoint.toNat, CodePoint.ofNat, dif_neg low, Char.ofNat_toNat]
  | surrogate offset =>
    rw [CodePoint.toNat] at control
    omega

theorem unicodeEscape?_hexDigits {n : Nat} (h : n < 32) (rest : List CodePoint) :
    unicodeEscape? ((hexDigits 4 n).map .char ++ rest) = some (CodePoint.ofNat n, rest) := by
  have number : ∀ n < 32, hexNumber? (hexDigits 4 n) = some n := by decide
  have four : fourDigits? ((hexDigits 4 n).map .char ++ rest) = some (n, rest) := by
    change (hexNumber? (hexDigits 4 n)).map (·, rest) = _
    rw [number n h]
    rfl
  have low : ¬ (0xd800 ≤ n ∧ n < 0xdc00) := by omega
  simp [unicodeEscape?, four, low]

/-- One code point is read from what is written for it. -/
theorem readTextBody_escape (p : CodePoint) (fuel : Nat) (rest : List CodePoint) :
    readTextBody (fuel + 1) (Script.full.escape p ++ rest) = (do
      let (xs, rest) ← readTextBody fuel rest
      return (p :: xs, rest)) := by
  cases short : p.char?.bind shortEscape? with
  | some e =>
    obtain ⟨c, isChar, escape⟩ := Option.bind_eq_some_iff.mp short
    obtain rfl : p = .char c := by cases p <;> cases isChar; rfl
    obtain ⟨read, notUnicode⟩ := escapeOf?_shortEscape escape
    have escaped : Script.full.escape (.char c) = [.char '\\', .char e] := by
      rw [Script.escape, short]
      rfl
    rw [escaped]
    simp [readTextBody, read]
  | none =>
    by_cases control : p.toNat < 32
    · have escaped : Script.full.escape p =
          .char '\\' :: .char 'u' :: (hexDigits 4 p.toNat).map .char := by
        rw [Script.escape, short]
        simp [control, unicodeEscape, Script.full]
      have read := unicodeEscape?_hexDigits control rest
      rw [ofNat_toNat control] at read
      rw [escaped]
      simp [readTextBody, read]
    · have plain : Script.full.escape p = [p] := by
        rw [Script.escape, short]
        simp [control, Script.full]
      have others : p ≠ .char '"' ∧ p ≠ .char '\\' := by
        constructor <;> rintro rfl <;> cases short
      rw [plain]
      simp [readTextBody, others, control]

theorem readTextBody_escaped (ps rest : List CodePoint) {fuel : Nat} (enough : ps.length < fuel) :
    readTextBody fuel (ps.flatMap Script.full.escape ++ .char '"' :: rest) = some (ps, rest) := by
  induction ps generalizing fuel with
  | nil =>
    obtain ⟨fuel, rfl⟩ := Nat.exists_eq_add_one_of_ne_zero (Nat.ne_of_gt enough)
    rfl
  | cons p ps ih =>
    obtain ⟨fuel, rfl⟩ := Nat.exists_eq_add_one_of_ne_zero (Nat.ne_of_gt (Nat.zero_lt_of_lt enough))
    have rest_read := @ih fuel (by simpa using enough)
    rw [List.flatMap_cons, List.append_assoc, readTextBody_escape, rest_read]
    rfl

theorem length_le_escaped (ps : List CodePoint) :
    ps.length ≤ (ps.flatMap Script.full.escape).length := by
  induction ps with
  | nil => simp
  | cons p ps ih =>
    have one : 1 ≤ (Script.full.escape p).length := by
      unfold Script.escape
      split
      · simp
      · by_cases control : p.toNat < 32 <;> simp [control, unicodeEscape, Script.full]
    simp only [List.flatMap_cons, List.length_append, List.length_cons]
    omega

/-- What stands between the quotes of a text is read as that text. -/
theorem readText_quoted (ps rest : List CodePoint) :
    readText (ps.flatMap Script.full.escape ++ .char '"' :: rest) = some (ps, rest) := by
  have := length_le_escaped ps
  refine readTextBody_escaped ps rest ?_
  simp only [List.length_append]
  omega

/-! ## Whole numbers -/

/-- What does not continue a number in front of it. -/
def EndsNumber (rest : List Char) : Prop :=
  ∀ c ∈ rest.head?, isDigit c = false ∧ c ≠ '.' ∧ c ≠ 'e' ∧ c ≠ 'E'

def digitCount (n : Int) : Nat :=
  (Nat.toDigits 10 n.natAbs).length

theorem numberOf_toDigits (n : Nat) : numberOf (Nat.toDigits 10 n) = n :=
  Nat.ofDigitChars_ten_toDigits

theorem isDigit_of_mem_toDigits {n : Nat} {c : Char} (h : c ∈ Nat.toDigits 10 n) : isDigit c = true :=
  Nat.isDigit_of_mem_toDigits (by decide) (by decide) h

/-- Only zero begins with a zero. -/
theorem head_toDigits_ne_zero {n : Nat} (positive : 0 < n) : (Nat.toDigits 10 n).head? ≠ some '0' := by
  induction n using Nat.strongRecOn with
  | _ n ih =>
    by_cases small : n < 10
    · rw [Nat.toDigits_of_lt_base small]
      have : ∀ n < 10, 0 < n → some n.digitChar ≠ some '0' := by decide
      exact this n small positive
    · have more := ih (n / 10) (by omega) (by omega)
      rw [Nat.toDigits_of_base_le (by decide) (by omega), List.head?_append]
      cases first : (Nat.toDigits 10 (n / 10)).head? with
      | none => exact absurd (List.head?_eq_none_iff.mp first) Nat.toDigits_ne_nil
      | some d =>
        rw [first] at more
        exact more

theorem takeWhile_digits {ds rest : List Char} (digits : ∀ c ∈ ds, isDigit c = true)
    (ends : EndsNumber rest) : (ds ++ rest).takeWhile isDigit = ds := by
  have none_left : rest.takeWhile isDigit = [] := by
    cases rest with
    | nil => rfl
    | cons c rest => simp [(ends c rfl).1]
  rw [List.takeWhile_append_of_pos digits, none_left, List.append_nil]

theorem dropWhile_digits {ds rest : List Char} (digits : ∀ c ∈ ds, isDigit c = true)
    (ends : EndsNumber rest) : (ds ++ rest).dropWhile isDigit = rest := by
  have all_left : rest.dropWhile isDigit = rest := by
    cases rest with
    | nil => rfl
    | cons c rest => simp [(ends c rfl).1]
  rw [List.dropWhile_append_of_pos digits, all_left]

theorem wholeOf?_toDigits (n : Nat) {rest : List Char} (ends : EndsNumber rest) :
    wholeOf? (Nat.toDigits 10 n ++ rest) = some (Nat.toDigits 10 n, rest) := by
  have digits : ∀ c ∈ Nat.toDigits 10 n, isDigit c = true := fun c => isDigit_of_mem_toDigits
  by_cases zero : n = 0
  · subst zero
    rfl
  · have first := head_toDigits_ne_zero (Nat.pos_of_ne_zero zero)
    have some_digits : (Nat.toDigits 10 n).isEmpty = false := by
      simp [Nat.toDigits_ne_nil]
    unfold wholeOf?
    split
    · next rest' same =>
      cases ds : Nat.toDigits 10 n with
      | nil => exact absurd ds Nat.toDigits_ne_nil
      | cons d ds' =>
        rw [ds, List.cons_append, List.cons.injEq] at same
        rw [ds, same.1] at first
        exact absurd rfl first
    · rw [takeWhile_digits digits ends, dropWhile_digits digits ends]
      simp [Nat.toDigits_ne_nil]

theorem fractionOf_of_ends {rest : List Char} (ends : EndsNumber rest) :
    fractionOf rest = ([], rest) := by
  cases rest with
  | nil => rfl
  | cons c rest =>
    have := (ends c rfl).2.1
    unfold fractionOf
    split
    · next same => cases same; exact absurd rfl this
    · rfl

theorem exponentOf_of_ends {rest : List Char} (ends : EndsNumber rest) :
    exponentOf rest = (none, rest) := by
  cases rest with
  | nil => rfl
  | cons c rest =>
    obtain ⟨-, -, small, great⟩ := ends c rfl
    simp [exponentOf, small, great]

theorem readNumber_digits (negative : Bool) (n : Nat) (short : (Nat.toDigits 10 n).length ≤ digitLimit)
    {rest : List Char} (ends : EndsNumber rest) :
    readNumber ((if negative then ['-'] else []) ++ Nat.toDigits 10 n ++ rest) =
      .ok (.int (if negative then -n else n), rest) := by
  have whole := wholeOf?_toDigits n ends
  have fits : ¬ digitLimit < (Nat.toDigits 10 n).length := by omega
  cases negative with
  | true =>
    simp only [if_true, List.cons_append, List.nil_append, readNumber, whole, fractionOf_of_ends ends,
      exponentOf_of_ends ends, if_neg fits, numberOf_toDigits]
    rfl
  | false =>
    have unsigned : ∀ rest', Nat.toDigits 10 n ++ rest ≠ '-' :: rest' := by
      intro rest' same
      cases ds : Nat.toDigits 10 n with
      | nil => exact Nat.toDigits_ne_nil ds
      | cons d ds' =>
        rw [ds, List.cons_append, List.cons.injEq] at same
        have digit : isDigit d = true := isDigit_of_mem_toDigits (n := n) (by rw [ds]; simp)
        rw [same.1] at digit
        cases digit
    simp only [Bool.false_eq_true, if_false, List.nil_append, readNumber, whole,
      fractionOf_of_ends ends, exponentOf_of_ends ends, if_neg fits, numberOf_toDigits]
    rfl

theorem toList_int (n : Int) : (toString n).toList =
    (if n < 0 then ['-'] else []) ++ Nat.toDigits 10 n.natAbs := by
  cases n with
  | ofNat n =>
    change n.repr.toList = _
    simp
  | negSucc n =>
    change ("-" ++ (n + 1).repr).toList = _
    simp [Int.negSucc_lt_zero]

/-- A whole number is read as itself. -/
theorem readNumber_whole {n : Int} (short : digitCount n ≤ digitLimit) {rest : List Char}
    (ends : EndsNumber rest) : readNumber ((toString n).toList ++ rest) = .ok (.int n, rest) := by
  have read := readNumber_digits (decide (n < 0)) n.natAbs short ends
  rw [toList_int]
  simp only [decide_eq_true_eq] at read
  rw [read]
  have value : (if n < 0 then -(n.natAbs : Int) else n.natAbs) = n := by
    split <;> omega
  rw [value]

/-! ## Words and numbers in a text -/

/-- What does not continue a word or a number in front of it. -/
def EndsLexeme (rest : List CodePoint) : Prop :=
  ∀ c, rest.head? = some (.char c) → isLexical c = false

theorem splitLexeme_append {cs : List Char} (lexical : ∀ c ∈ cs, isLexical c = true)
    {rest : List CodePoint} (ends : EndsLexeme rest) :
    splitLexeme (cs.map .char ++ rest) = (cs, rest) := by
  induction cs with
  | nil =>
    rw [List.map_nil, List.nil_append]
    unfold splitLexeme
    split
    · next c ps => rw [if_neg (Bool.eq_false_iff.mp (ends c rfl))]
    · rfl
  | cons c cs ih =>
    have others := ih fun d mem => lexical d (List.mem_cons_of_mem c mem)
    rw [List.map_cons, List.cons_append, splitLexeme, if_pos (lexical c List.mem_cons_self), others]

/-- A word or a number is read up to what cannot stand in one. -/
theorem readLexeme_append {cs : List Char} (lexical : ∀ c ∈ cs, isLexical c = true)
    {rest : List CodePoint} (ends : EndsLexeme rest) :
    readLexeme (cs.map .char ++ rest) =
      (readPlain cs).map fun (j, left) => (j, left.map .char ++ rest) := by
  unfold readLexeme
  rw [splitLexeme_append lexical ends]
  dsimp only
  cases readPlain cs <;> rfl

/-! ### What is read -/

theorem digits_of_wholeOf? {cs whole rest : List Char} (h : wholeOf? cs = some (whole, rest)) :
    whole ≠ [] ∧ ∀ c ∈ whole, isDigit c = true := by
  unfold wholeOf? at h
  split at h
  · cases h
    exact ⟨by simp, by simp [isDigit]⟩
  · dsimp only at h
    split at h
    · cases h
    · next some_digit =>
      cases h
      exact ⟨by simpa using some_digit, List.all_eq_true.mp List.all_takeWhile⟩

theorem digit_lt_ten {c : Char} (h : isDigit c = true) : c.toNat - 48 < 10 := by
  have upper : c ≤ '9' := by
    simp only [isDigit, Bool.and_eq_true, decide_eq_true_eq] at h
    exact h.2
  have : c.toNat ≤ '9'.toNat := upper
  have nine : '9'.toNat = 57 := rfl
  omega

/-- Digits make a number that needs no more of them. -/
theorem length_toDigits_numberOf {ds : List Char} (some_digit : ds ≠ [])
    (digits : ∀ c ∈ ds, isDigit c = true) :
    (Nat.toDigits 10 (numberOf ds)).length ≤ ds.length := by
  have bound : ∀ (ds : List Char) (n : Nat), (∀ c ∈ ds, isDigit c = true) →
      ds.foldl (fun n c => 10 * n + (c.toNat - 48)) n < (n + 1) * 10 ^ ds.length := by
    intro ds
    induction ds with
    | nil => intro n _; simp
    | cons d ds ih =>
      intro n digits
      have digit := digit_lt_ten (digits d List.mem_cons_self)
      have rest := ih (10 * n + (d.toNat - 48)) fun c hc => digits c (List.mem_cons_of_mem d hc)
      have more : 10 * n + (d.toNat - 48) + 1 ≤ 10 * (n + 1) := by omega
      calc _ < (10 * n + (d.toNat - 48) + 1) * 10 ^ ds.length := rest
        _ ≤ 10 * (n + 1) * 10 ^ ds.length := Nat.mul_le_mul_right _ more
        _ = (n + 1) * 10 ^ (d :: ds).length := by
          rw [List.length_cons, Nat.pow_succ, Nat.mul_comm 10, Nat.mul_assoc, Nat.mul_comm 10]
  have small := bound ds 0 digits
  rw [Nat.zero_add, Nat.one_mul] at small
  exact (Nat.length_toDigits_le_iff (by decide) (List.length_pos_iff.mpr some_digit)).mpr small

/-- No whole number with more digits than a reader takes is read. -/
theorem digitCount_le_of_readNumber {cs rest : List Char} {n : Int}
    (h : readNumber cs = .ok (.int n, rest)) : digitCount n ≤ digitLimit := by
  unfold readNumber at h
  dsimp only at h
  split at h
  · cases h
  · next whole more found =>
    obtain ⟨some_digit, digits⟩ := digits_of_wholeOf? found
    have fewer := length_toDigits_numberOf some_digit digits
    split at h
    · split at h
      · cases h
      · have same : n.natAbs = numberOf whole := by
          cases h
          split <;> simp
        rw [digitCount, same]
        omega
    · cases h

end ShortcutRelay.Json
