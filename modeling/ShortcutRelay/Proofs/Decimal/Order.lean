import Mathlib
import ShortcutRelay.Decimal.Binary

/-!
# Doubles in order

Doubles other than NaN are in order, and nothing is less or greater than a NaN. They have a zero of
either sign; the two are equal as numbers and differ as values.

* `compare_swap` : what is less one way is greater the other way;
* `le_of_not_lt` : of two doubles one is at most the other;
* `zero_cases` : what equals zero is one of the two zeros;
* `beq_of_zeros` : they compare alike with every double;
* `integer?_of_zero` : either of them is the whole number zero.
-/

namespace ShortcutRelay.Decimal
open Float.Model

/-! ## Order -/

/-- What is less one way is greater the other way. -/
theorem compare_swap (u v : UnpackedFloat) : (u.compare v).map Ordering.swap = v.compare u := by
  cases u with
  | notANumber => cases v <;> rfl
  | infinity s =>
    cases v with
    | infinity t => cases s <;> cases t <;> rfl
    | _ => cases s <;> rfl
  | zero s =>
    cases v with
    | infinity t => cases t <;> rfl
    | finite t m e p => cases t <;> rfl
    | _ => rfl
  | finite s m e p =>
    cases v with
    | notANumber => rfl
    | infinity t => cases t <;> rfl
    | zero t => cases s <;> rfl
    | finite t n f q =>
      have exponents : (compare e f).swap = compare f e := Std.OrientedCmp.eq_swap.symm
      have mantissas : (compare m n).swap = compare n m := Std.OrientedCmp.eq_swap.symm
      have parts : ((compare e f).then (compare m n)).swap = (compare f e).then (compare n m) := by
        rw [Ordering.swap_then, exponents, mantissas]
      cases s with
      | positive =>
        cases t with
        | positive => exact congrArg some parts
        | negative => rfl
      | negative =>
        cases t with
        | positive => rfl
        | negative => exact congrArg (fun o => some o.swap) parts

theorem compare_isSome {u v : UnpackedFloat} (hu : u.isNaN = false) (hv : v.isNaN = false) :
    (u.compare v).isSome := by
  cases u with
  | notANumber => cases hu
  | infinity s => cases v <;> cases s <;> first | rfl | cases hv
  | zero s =>
    cases v with
    | notANumber => cases hv
    | zero t => rfl
    | infinity t | finite t => cases t <;> rfl
  | finite s m e p =>
    cases v with
    | notANumber => cases hv
    | zero t => cases s <;> rfl
    | infinity t => cases t <;> rfl
    | finite t => cases s <;> cases t <;> rfl

theorem lt_iff {x y : Float} : x < y ↔ x.toModel.unpack.compare y.toModel.unpack = some .lt := by
  change decide (x.toModel.unpack.lt y.toModel.unpack = true) = true ↔ _
  rw [decide_eq_true_iff, UnpackedFloat.lt, beq_iff_eq]

theorem le_iff {x y : Float} :
    x ≤ y ↔ (x.toModel.unpack.compare y.toModel.unpack).any (·.isLE) = true := by
  change decide (x.toModel.unpack.le y.toModel.unpack = true) = true ↔ _
  rw [decide_eq_true_iff, UnpackedFloat.le]

/-- Of two doubles that are not NaN one is at most the other. -/
theorem le_of_not_lt {x y : Float} (hx : x.isNaN = false) (hy : y.isNaN = false) (h : ¬ x < y) :
    y ≤ x := by
  have comparable : (y.toModel.unpack.compare x.toModel.unpack).isSome := compare_isSome hy hx
  obtain ⟨o, order⟩ := Option.isSome_iff_exists.mp comparable
  rw [lt_iff, ← compare_swap, order] at h
  rw [le_iff, order]
  cases o with
  | gt => exact absurd rfl h
  | lt | eq => rfl

/-! ## The two zeros -/

open UnpackedFloat

theorem unpack_zero : (Float.toModel 0.0).unpack = .zero .positive := by
  have bits : (Float.toModel 0.0).toBits = 0 := by decide
  unfold Float.Model.unpack
  rw [bits]
  rfl

theorem unpack_of_beq_zero {x : Float} (h : (x == 0.0) = true) :
    ∃ s, x.toModel.unpack = .zero s := by
  change (x.toModel.unpack.compare (Float.toModel 0.0).unpack == some .eq) = true at h
  rw [unpack_zero] at h
  generalize x.toModel.unpack = u at h ⊢
  cases u with
  | zero s => exact ⟨s, rfl⟩
  | finite s m e p => cases s <;> cases h
  | infinity s => cases s <;> cases h
  | notANumber => cases h

/-- Zeros compare alike with every double. -/
theorem beq_of_zeros {x y : Float} (hx : (x == 0.0) = true) (hy : (y == 0.0) = true) (z : Float) :
    (x == z) = (y == z) := by
  obtain ⟨s, unpackedX⟩ := unpack_of_beq_zero hx
  obtain ⟨t, unpackedY⟩ := unpack_of_beq_zero hy
  change (x.toModel.unpack.compare z.toModel.unpack == some .eq) =
    (y.toModel.unpack.compare z.toModel.unpack == some .eq)
  rw [unpackedX, unpackedY]
  cases z.toModel.unpack with
  | infinity u => cases u <;> rfl
  | finite u m e p => cases u <;> rfl
  | _ => rfl

/-! ### Bits -/

/-- Without exponent and mantissa only the sign is left. -/
theorem eq_sign_of_parts {b : BitVec 64} (exponent : @unpackExponent Format.binary64 b = 0#11)
    (mantissa : @unpackMantissa Format.binary64 b = 0#52) : b = 0#64 ∨ b = 1#64 <<< 63 := by
  have low : b.toNat % 2 ^ 52 = 0 := congrArg BitVec.toNat mantissa
  have middle : b.toNat / 2 ^ 52 % 2 ^ 11 = 0 := by
    rw [← Nat.shiftRight_eq_div_pow]
    exact congrArg BitVec.toNat exponent
  have bound := b.isLt
  have top : b.toNat = 0 ∨ b.toNat = 2 ^ 63 := by omega
  exact top.imp BitVec.eq_of_toNat_eq BitVec.eq_of_toNat_eq

theorem bits_of_beq_zero {x : Float} (h : (x == 0.0) = true) :
    x.toBits.toBitVec = 0#64 ∨ x.toBits.toBitVec = 1#64 <<< 63 := by
  obtain ⟨s, zero⟩ := unpack_of_beq_zero h
  unfold Float.Model.unpack UnpackedFloat.unpack at zero
  simp only at zero
  split at zero
  · split at zero <;> cases zero
  · split at zero
    · next exponent =>
      split at zero
      · next mantissa => exact eq_sign_of_parts exponent mantissa
      · cases zero
    · cases zero

theorem eq_of_bits {x y : Float} (h : x.toBits.toBitVec = y.toBits.toBitVec) : x = y := by
  obtain ⟨⟨u, validX⟩⟩ := x
  obtain ⟨⟨v, validY⟩⟩ := y
  congr 2
  exact UInt64.toBitVec_inj.mp h

/-- What equals zero is one of the two zeros. -/
theorem zero_cases {x : Float} (h : (x == 0.0) = true) : x = 0.0 ∨ x = -0.0 := by
  rcases bits_of_beq_zero h with positive | negative
  · exact .inl (eq_of_bits (positive.trans (by decide)))
  · exact .inr (eq_of_bits (negative.trans (by decide)))

theorem integer?_of_zero {x : Float} (h : (x == 0.0) = true) : integer? x = some 0 := by
  rcases zero_cases h with rfl | rfl <;> decide +kernel

end ShortcutRelay.Decimal
