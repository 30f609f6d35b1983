import ShortcutRelay.Proofs.Decimal.Order
import ShortcutRelay.Proofs.Except
import ShortcutRelay.Proofs.Store.Effect

/-!
# Contents that agree

A store need not give back the very value that was written: of the two zeros it may keep either.

* `Document.Alike` : values that are equal as data;
* `Tolerance Like` : a relation between sameness and likeness, by which a store may replace values;
* `AgreeOn Like P` : contents have like values under all keys with a property, `Agree` under all;
  `AgreeOn.put`, `AgreeOn.erase` and companions : writes on both sides;
* `Tolerance.storedText`, `Tolerance.toFloat` and companions : typed reads of like values.
-/

namespace ShortcutRelay

/-- Values are equal as data: the same, or zero both of them. -/
inductive Document.Alike : Document → Document → Prop
  | same (d : Document) : Alike d d
  | zeros {x y : Float} (hx : (x == 0.0) = true) (hy : (y == 0.0) = true) :
      Alike (.float x) (.float y)

theorem Document.alike_equivalence : Equivalence Document.Alike where
  refl := .same
  symm := by
    intro d e h
    cases h with
    | same => exact .same d
    | zeros hx hy => exact .zeros hy hx
  trans := by
    intro d e f first second
    cases first with
    | same => exact second
    | zeros hx hy =>
      cases second with
      | same => exact .zeros hx hy
      | zeros _ hz => exact .zeros hx hz

/-- A relation between sameness and likeness. -/
structure Tolerance (Like : Document → Document → Prop) : Prop where
  equivalence : Equivalence Like
  alike : ∀ {d e}, Like d e → d.Alike e

theorem tolerance_eq : Tolerance Eq where
  equivalence := eq_equivalence
  alike := by
    rintro d _ rfl
    exact .same d

theorem tolerance_alike : Tolerance Document.Alike :=
  ⟨Document.alike_equivalence, id⟩

/-! ## Contents -/

/-- Contents have like values under all keys with a property. -/
def AgreeOn (Like : Document → Document → Prop) (P : String → Prop) (c d : Contents) : Prop :=
  ∀ key, P key → Option.Rel Like (c.get? key) (d.get? key)

/-- Contents have like values under all keys. -/
def Agree (Like : Document → Document → Prop) (c d : Contents) : Prop :=
  ∀ key, Option.Rel Like (c.get? key) (d.get? key)

variable {Like : Document → Document → Prop} {P Q : String → Prop} {b c d : Contents}

theorem Agree.on (h : Agree Like c d) : AgreeOn Like P c d :=
  fun key _ => h key

theorem Agree.replace (h : Agree Like c d) (same : b = c) : Agree Like b d := by
  rw [same]
  exact h

theorem AgreeOn.mono (h : AgreeOn Like P c d) (weaker : ∀ key, Q key → P key) :
    AgreeOn Like Q c d :=
  fun key hq => h key (weaker key hq)

theorem optionRel_refl {α : Type} {R : α → α → Prop} (reflexive : ∀ d, R d d) (v : Option α) :
    Option.Rel R v v := by
  cases v with
  | none => exact .none
  | some d => exact .some (reflexive d)

theorem optionRel_none_iff {v w : Option Document} (h : Option.Rel Like v w) :
    v = none ↔ w = none := by
  cases h with
  | some like => simp
  | none => simp

/-! ### Writes on both sides -/

theorem AgreeOn.put (h : AgreeOn Like P c d) (key : String) {v w : Document} (like : Like v w) :
    AgreeOn Like P (c.put key v) (d.put key w) := by
  intro k hk
  rw [OrderedMap.get?_put, OrderedMap.get?_put]
  split
  · exact .some like
  · exact h k hk

/-- Two removals of the same keys. -/
theorem AgreeOn.eraseAll (h : AgreeOn Like P c d) {ks ls : List String}
    (same : ∀ k, P k → (k ∈ ks ↔ k ∈ ls)) :
    AgreeOn Like P (ks.foldl OrderedMap.erase c) (ls.foldl OrderedMap.erase d) := by
  intro k hk
  rw [OrderedMap.get?_eraseAll, OrderedMap.get?_eraseAll]
  by_cases mem : k ∈ ks
  · rw [if_pos mem, if_pos ((same k hk).mp mem)]
    exact .none
  · rw [if_neg mem, if_neg fun there => mem ((same k hk).mpr there)]
    exact h k hk

theorem AgreeOn.erase (h : AgreeOn Like P c d) (key : String) :
    AgreeOn Like P (c.erase key) (d.erase key) := by
  show AgreeOn Like P ([key].foldl OrderedMap.erase c) ([key].foldl OrderedMap.erase d)
  exact h.eraseAll fun _ _ => Iff.rfl

namespace Tolerance

variable (tolerance : Tolerance Like)
include tolerance

theorem optionRel_symm {v w : Option Document} (h : Option.Rel Like v w) :
    Option.Rel Like w v := by
  cases h with
  | some like => exact .some (tolerance.equivalence.symm like)
  | none => exact .none

theorem optionRel_trans {u v w : Option Document} (first : Option.Rel Like u v)
    (second : Option.Rel Like v w) : Option.Rel Like u w := by
  cases first with
  | some like =>
    cases second with
    | some like' => exact .some (tolerance.equivalence.trans like like')
  | none => exact second

theorem agreeOn_refl (c : Contents) : AgreeOn Like P c c :=
  fun _ _ => optionRel_refl tolerance.equivalence.refl _

theorem agreeOn_symm (h : AgreeOn Like P c d) : AgreeOn Like P d c :=
  fun key hp => tolerance.optionRel_symm (h key hp)

theorem agreeOn_trans (first : AgreeOn Like P b c) (second : AgreeOn Like P c d) :
    AgreeOn Like P b d :=
  fun key hp => tolerance.optionRel_trans (first key hp) (second key hp)

/-! ### Writes under other keys -/

theorem agreeOn_put {key : String} (other : ¬ P key) (v : Document) :
    AgreeOn Like P c (c.put key v) := by
  intro k hk
  have different : k ≠ key := by
    rintro rfl
    exact other hk
  rw [OrderedMap.get?_put_of_ne c different]
  exact optionRel_refl tolerance.equivalence.refl _

theorem agreeOn_eraseAll {ks : List String} (others : ∀ k ∈ ks, ¬ P k) :
    AgreeOn Like P c (ks.foldl OrderedMap.erase c) := by
  intro k hk
  rw [OrderedMap.get?_eraseAll, if_neg fun mem => others k mem hk]
  exact optionRel_refl tolerance.equivalence.refl _

/-! ## Reads by type -/

variable {v w : Document}

theorem getD_null {u u' : Option Document} (h : Option.Rel Like u u') :
    Like (u.getD .null) (u'.getD .null) := by
  cases h with
  | some like => exact like
  | none => exact tolerance.equivalence.refl _

theorem storedText (h : Like v w) : v.storedText = w.storedText := by
  cases tolerance.alike h with
  | same => rfl
  | zeros hx hy =>
    simp only [Document.storedText, Decimal.integer?_of_zero hx, Decimal.integer?_of_zero hy]

theorem textAt_eq {key : String} (h : Option.Rel Like (c.get? key) (d.get? key)) :
    textAt c key = textAt d key := by
  unfold textAt
  generalize c.get? key = v at h
  generalize d.get? key = w at h
  cases h with
  | some like => exact tolerance.storedText like
  | none => rfl

theorem isNumeric_eq (h : Like v w) : v.isNumeric = w.isNumeric := by
  cases tolerance.alike h <;> rfl

theorem truthy_eq (h : Like v w) : v.truthy = w.truthy := by
  cases tolerance.alike h with
  | same => rfl
  | zeros hx hy => simp only [Document.truthy, bne, hx, hy]

theorem toFloat (h : Like v w) :
    Matching (fun x y => Like (.float x) (.float y)) v.toFloat w.toFloat := by
  cases tolerance.alike h with
  | same => exact Matching.of_eq (fun x => tolerance.equivalence.refl (.float x)) rfl
  | zeros hx hy => exact .ok h

theorem storedNumber (h : Like v w) :
    Matching (Option.Rel fun x y => Like (.float x) (.float y)) v.storedNumber w.storedNumber := by
  unfold Document.storedNumber
  rw [tolerance.isNumeric_eq h]
  split
  · exact (tolerance.toFloat h).map fun _ _ like => .some like
  · exact .ok .none

theorem doubleAt {key : String} (h : Option.Rel Like (c.get? key) (d.get? key)) :
    Matching (fun x y => Like (.float x) (.float y)) (doubleAt c key) (doubleAt d key) := by
  have like := tolerance.getD_null h
  have number := (tolerance.storedNumber like).bind
    (f := fun n => .ok (n.getD 0.0)) (g := fun n => .ok (n.getD 0.0))
    (T := fun x y => Like (.float x) (.float y)) fun a b related => by
      cases related with
      | some related => exact .ok related
      | none => exact .ok (tolerance.equivalence.refl _)
  unfold ShortcutRelay.doubleAt
  generalize (c.get? key).getD .null = v at like number
  generalize (d.get? key).getD .null = w at like number
  cases tolerance.alike like with
  | zeros _ _ => exact number
  | same =>
    cases v with
    | text s => exact .ok (tolerance.equivalence.refl _)
    | _ => exact number

end Tolerance

end ShortcutRelay
