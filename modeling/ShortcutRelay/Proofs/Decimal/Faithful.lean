import ShortcutRelay.Document.Number
import ShortcutRelay.Proofs.Decimal.WholeDouble
import ShortcutRelay.Proofs.Decimal.Order

/-!
# Whole numbers that doubles tell apart

Doubles hold every whole number up to `2 ^ 53` in magnitude.

* `Faithful n` : the double of `n` is finite and stands for `n` again;
* `faithful_of_le` : it is so up to `2 ^ 53`;
* `Faithful.beq_iff` : the doubles of such numbers are equal where the numbers are;
* `Document.whole?` : the whole number that a document counts as, `Document.toFloat_of_whole` : its
  double.
-/

namespace ShortcutRelay.Decimal
open Float.Model Float.Model.UnpackedFloat

/-- The double of a whole number is finite, is the one that its parts make up, and stands for the
number. -/
structure Faithful (n : Int) : Prop where
  finite : (Float.ofInt n).toModel.unpack.isFinite = true
  packed : Float.ofInt n = .ofModel (.pack (Float.ofInt n).toModel.unpack)
  whole : integer? (Float.ofInt n) = some n

theorem wholeValue?_mul_two_pow (k j : Nat) : wholeValue? (k * 2 ^ j) (-(j : Int)) = some k := by
  unfold wholeValue?
  simp only [Int.natAbs_neg, Int.natAbs_natCast, Nat.pow_eq]
  split
  · next nonneg =>
    obtain rfl : j = 0 := by omega
    simp
  · rw [if_pos (Nat.mul_mod_left k _), Nat.mul_div_cancel k (Nat.two_pow_pos j)]

theorem integer?_wholeDouble (s : Sign) {k : Nat} (positive : 0 < k) (small : k < 2 ^ 53) :
    integer? (wholeDouble s positive) = some (if s.toBitVec.toNat == 1 then -(k : Int) else k) := by
  have bits := log2_le_of_lt positive small
  have exponent : (k.log2 : Int) - 52 = -((52 - k.log2 : Nat) : Int) := by omega
  unfold integer?
  rw [ofFloat_wholeDouble s positive small, exponent]
  simp only [wholeValue?_mul_two_pow]
  rfl

theorem packed_wholeDouble (s : Sign) {k : Nat} (positive : 0 < k) (small : k < 2 ^ 53) :
    wholeDouble s positive = .ofModel (.pack (wholeDouble s positive).toModel.unpack) := by
  rw [unpack_wholeDouble s positive small]
  rfl

theorem finite_wholeDouble (s : Sign) {k : Nat} (positive : 0 < k) (small : k < 2 ^ 53) :
    (wholeDouble s positive).toModel.unpack.isFinite = true := by
  rw [unpack_wholeDouble s positive small]
  rfl

/-- Doubles hold the whole numbers up to `2 ^ 53` in magnitude. -/
theorem faithful_of_le {n : Int} (h : n.natAbs ≤ 2 ^ 53) : Faithful n := by
  -- the greatest mantissa is `2 ^ 53 - 1`, so that the ends of the range stand apart
  by_cases small : n.natAbs < 2 ^ 53
  · rcases Int.lt_trichotomy n 0 with negative | rfl | positive
    · obtain ⟨k, rfl⟩ : ∃ k : Nat, n = -k := ⟨n.natAbs, by omega⟩
      have nonzero : 0 < k := by omega
      have bound : k < 2 ^ 53 := by omega
      have double := ofInt_negative nonzero bound
      exact ⟨double ▸ finite_wholeDouble _ nonzero bound, double ▸ packed_wholeDouble _ nonzero bound,
        double ▸ integer?_wholeDouble _ nonzero bound⟩
    · exact ⟨by decide +kernel, eq_of_bits (by decide +kernel), by decide +kernel⟩
    · obtain ⟨k, rfl⟩ : ∃ k : Nat, n = k := ⟨n.natAbs, by omega⟩
      have nonzero : 0 < k := by omega
      have bound : k < 2 ^ 53 := by omega
      have double := ofInt_positive nonzero bound
      exact ⟨double ▸ finite_wholeDouble _ nonzero bound, double ▸ packed_wholeDouble _ nonzero bound,
        double ▸ integer?_wholeDouble _ nonzero bound⟩
  · have ends : n = 2 ^ 53 ∨ n = -2 ^ 53 := by omega
    rcases ends with rfl | rfl <;>
      exact ⟨by decide, eq_of_bits (by decide), by decide⟩

theorem Faithful.ofInteger? {n : Int} (h : Faithful n) : ofInteger? n = some (Float.ofInt n) :=
  if_pos h.finite

/-! ## Equality -/

theorem beq_iff_compare {x y : Float} :
    (x == y) = true ↔ x.toModel.unpack.compare y.toModel.unpack = some .eq := by
  change (x.toModel.unpack.compare y.toModel.unpack == some .eq) = true ↔ _
  rw [beq_iff_eq]

/-- Parts that compare as equal are the same, or zeros both of them. -/
theorem eq_or_zeros_of_compare {u v : UnpackedFloat} (h : u.compare v = some .eq) :
    u = v ∨ (∃ s, u = .zero s) ∧ ∃ t, v = .zero t := by
  cases u with
  | notANumber => cases v <;> cases h
  | infinity s =>
    cases v with
    | infinity t => cases s <;> cases t <;> first | exact .inl rfl | cases h
    | _ => cases s <;> cases h
  | zero s =>
    cases v with
    | zero t => exact .inr ⟨⟨s, rfl⟩, t, rfl⟩
    | notANumber => cases h
    | infinity t | finite t => cases t <;> cases h
  | finite s m e p =>
    cases v with
    | notANumber => cases h
    | zero t => cases s <;> cases h
    | infinity t => cases t <;> cases h
    | finite t n f q =>
      have parts (same : (compare e f).then (compare m n) = .eq) : e = f ∧ m = n := by
        rw [Ordering.then_eq_eq, Int.compare_eq_eq, Nat.compare_eq_eq] at same
        exact same
      cases s with
      | positive =>
        cases t with
        | positive =>
          obtain ⟨rfl, rfl⟩ := parts (Option.some.inj h)
          exact .inl rfl
        | negative => cases h
      | negative =>
        cases t with
        | positive => cases h
        | negative =>
          obtain ⟨rfl, rfl⟩ := parts (Ordering.swap_eq_eq.mp (Option.some.inj h))
          exact .inl rfl

theorem compare_self {u : UnpackedFloat} (finite : u.isFinite = true) : u.compare u = some .eq := by
  cases u with
  | notANumber => cases finite
  | infinity s => cases finite
  | zero s => rfl
  | finite s m e p =>
    have exponents : compare e e = .eq := Int.compare_eq_eq.mpr rfl
    have mantissas : compare m m = .eq := Nat.compare_eq_eq.mpr rfl
    have parts : (compare e e).then (compare m m) = .eq := by rw [exponents, mantissas]; rfl
    cases s with
    | positive => exact congrArg some parts
    | negative => exact congrArg (fun o => some o.swap) parts

theorem beq_zero_of_unpack {x : Float} {s : Sign} (h : x.toModel.unpack = .zero s) :
    (x == 0.0) = true := by
  rw [beq_iff_compare, h, unpack_zero]
  rfl

/-- The doubles of whole numbers that doubles tell apart are equal where the numbers are. -/
theorem Faithful.beq_iff {n m : Int} (hn : Faithful n) (hm : Faithful m) :
    (Float.ofInt n == Float.ofInt m) = true ↔ n = m := by
  constructor
  · intro equal
    have whole : integer? (Float.ofInt n) = integer? (Float.ofInt m) := by
      rcases eq_or_zeros_of_compare (beq_iff_compare.mp equal) with same | ⟨⟨_, left⟩, _, right⟩
      · rw [hn.packed, same, ← hm.packed]
      · rw [integer?_of_zero (beq_zero_of_unpack left), integer?_of_zero (beq_zero_of_unpack right)]
    rw [hn.whole, hm.whole] at whole
    exact Option.some.inj whole
  · rintro rfl
    exact beq_iff_compare.mpr (compare_self hn.finite)

end ShortcutRelay.Decimal

namespace ShortcutRelay.Document

/-! ## Documents -/

/-- The whole number that a truth value or a whole number counts as. -/
def whole? : Document → Option Int
  | .bool b => some (if b then 1 else 0)
  | .int n => some n
  | _ => none

variable {v : Document} {n : Int}

theorem toFloat_of_whole (h : v.whole? = some n) (exact : Decimal.Faithful n) :
    v.toFloat = .ok (Float.ofInt n) := by
  have one : (1.0 : Float) = Float.ofInt 1 := Decimal.eq_of_bits (by decide)
  have zero : (0.0 : Float) = Float.ofInt 0 := Decimal.eq_of_bits (by decide)
  cases v with
  | bool b =>
    cases b with
    | true =>
      cases h
      exact congrArg Except.ok one
    | false =>
      cases h
      exact congrArg Except.ok zero
  | int m =>
    cases h
    rw [toFloat, floatOfInt, exact.ofInteger?]
  | _ => cases h

end ShortcutRelay.Document
