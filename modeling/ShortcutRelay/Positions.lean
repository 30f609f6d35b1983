/-!
# Items with their positions

* `mapPositions` : the results of a function that can fail on the items of a list and their
  positions.
-/

namespace ShortcutRelay

variable {α β ε : Type}

/-- The results of a function on the items of a list, the first of which has position `i`; the
first failure ends the walk. -/
def mapPositions (f : Nat → α → Except ε β) : Nat → List α → Except ε (List β)
  | _, [] => .ok []
  | i, x :: xs => do
    let y ← f i x
    let ys ← mapPositions f (i + 1) xs
    return y :: ys

theorem length_mapPositions {f : Nat → α → Except ε β} {i : Nat} {xs : List α} {ys : List β}
    (h : mapPositions f i xs = .ok ys) : ys.length = xs.length := by
  induction xs generalizing i ys with
  | nil => cases h; rfl
  | cons x xs ih =>
    simp only [mapPositions, bind, Except.bind] at h
    split at h
    · simp at h
    · split at h
      · simp at h
      · rename_i y _ zs hz
        cases h
        simp [ih hz]

end ShortcutRelay
