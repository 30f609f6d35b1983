import ShortcutRelay.Proofs.Json.Parts
import ShortcutRelay.Proofs.Text.Pieces
import ShortcutRelay.Proofs.Text.Utf8

/-!
# What a value is written in

* `Spells P j` : the texts and the doubles in `j` are written in code points where `P` holds; all of
  `j` is, in `forall_mem_pretty`;
* `notMem_pretty` : a value without doubles is written without carriage returns, so that a file keeps
  its text;
* `Spelled j` : the texts in `j` are texts of characters, and `j` is written as one in
  `exists_codePoints_eq_pretty`.
-/

namespace ShortcutRelay.Json
open Text

/-- The texts and the doubles in the value are written in code points where `P` holds, as it does of
all that the layout is made of. -/
structure Spells (P : CodePoint → Prop) (j : Json) : Prop where
  layout : ∀ c, c ≠ '\r' → P (.char c)
  double : ∀ x, Part (.float x) j → ∀ p ∈ codePoints (Decimal.inJson.write x), P p
  text : ∀ ps, Part (.text ps) j → ∀ p ∈ Script.full.quoted ps, P p
  key : ∀ members, Part (.object members) j →
    ∀ ps ∈ entryKeys members, ∀ p ∈ Script.full.quoted ps, P p

theorem notMem_toString (n : Int) : '\r' ∉ (toString n).toList := by
  have digits : '\r' ∉ Nat.toDigits 10 n.natAbs := by
    intro mem
    cases isDigit_of_mem_toDigits mem
  rw [toList_int]
  split <;> simp [digits]

section Spells

variable {P : CodePoint → Prop}

theorem Spells.item {items : List Json} (h : Spells P (.array items)) : ∀ j ∈ items, Spells P j :=
  fun _ mem => ⟨h.layout, fun x part => h.double x (.item mem part),
    fun ps part => h.text ps (.item mem part), fun members part => h.key members (.item mem part)⟩

theorem Spells.member {members : List (List CodePoint × Json)} (h : Spells P (.object members)) :
    ∀ e ∈ members, (∀ p ∈ Script.full.quoted e.1, P p) ∧ Spells P e.2 :=
  fun e mem => ⟨h.key members (.self _) e.1 (List.mem_map_of_mem mem), h.layout,
    fun x part => h.double x (.member mem part), fun ps part => h.text ps (.member mem part),
    fun members part => h.key members (.member mem part)⟩

section Layout

variable (plain : ∀ c, c ≠ '\r' → P (.char c))
include plain

theorem forall_mem_codePoints {s : String} (h : '\r' ∉ s.toList) : ∀ p ∈ codePoints s, P p := by
  intro p mem
  obtain ⟨c, inside, rfl⟩ := List.mem_map.mp mem
  exact plain c fun same => h (same ▸ inside)

theorem forall_mem_lineBreak (depth : Nat) : ∀ p ∈ lineBreak depth, P p := by
  intro p mem
  rcases List.mem_cons.mp mem with rfl | blank
  · exact plain _ (by decide)
  · rw [List.eq_of_mem_replicate blank]
    exact plain _ (by decide)

/-- What holds of the parts holds of the parts on lines of their own. -/
theorem forall_mem_parts (depth : Nat) {parts : List (List CodePoint)}
    (each : ∀ part ∈ parts, ∀ p ∈ part, P p) {opening closing : Char} (opens : opening ≠ '\r')
    (closes : closing ≠ '\r') : ∀ p ∈ .char opening :: lineBreak (depth + 1) ++
      List.intercalate (.char ',' :: lineBreak (depth + 1)) parts ++
      lineBreak depth ++ [.char closing], P p := by
  have between : ∀ p ∈ .char ',' :: lineBreak (depth + 1), P p :=
    List.forall_mem_cons.mpr ⟨plain _ (by decide), forall_mem_lineBreak plain _⟩
  have inside := forall_mem_intercalate between each
  have before := List.forall_mem_cons.mpr ⟨plain _ opens, forall_mem_lineBreak plain (depth + 1)⟩
  have behind := forall_mem_lineBreak plain depth
  have last := List.forall_mem_singleton.mpr (plain _ closes)
  exact List.forall_mem_append.mpr ⟨List.forall_mem_append.mpr
    ⟨List.forall_mem_append.mpr ⟨before, inside⟩, behind⟩, last⟩

theorem forall_mem_membered {key value : List CodePoint}
    (name : ∀ p ∈ Script.full.quoted key, P p) (h : ∀ p ∈ value, P p) :
    ∀ p ∈ membered key value, P p := by
  have between : ∀ p ∈ codePoints ": ", P p := forall_mem_codePoints plain (by decide)
  exact List.forall_mem_append.mpr ⟨List.forall_mem_append.mpr ⟨name, between⟩, h⟩

end Layout

mutual

theorem forall_mem_prettyAt (depth : Nat) : (j : Json) → Spells P j → ∀ p ∈ prettyAt depth j, P p
  | .null, h => by
    rw [prettyAt]
    exact forall_mem_codePoints h.layout (by decide)
  | .bool b, h => by
    rw [prettyAt]
    exact forall_mem_codePoints h.layout (by cases b <;> decide)
  | .int n, h => by
    rw [prettyAt]
    exact forall_mem_codePoints h.layout (notMem_toString n)
  | .float x, h => by
    rw [prettyAt]
    exact h.double x (.self _)
  | .text s, h => by
    rw [prettyAt]
    exact h.text s (.self _)
  | .array [], h => by
    rw [prettyAt]
    exact forall_mem_codePoints h.layout (by decide)
  | .array (item :: items), h => by
    have first := forall_mem_prettyAt (depth + 1) item (h.item item (List.mem_cons_self ..))
    have others := forall_mem_prettyItems (depth + 1) items fun j mem =>
      h.item j (List.mem_cons_of_mem _ mem)
    rw [prettyAt]
    exact forall_mem_parts h.layout depth (List.forall_mem_cons.mpr ⟨first, others⟩) (by decide)
      (by decide)
  | .object [], h => by
    rw [prettyAt]
    exact forall_mem_codePoints h.layout (by decide)
  | .object ((key, value) :: members), h => by
    have here := h.member _ (List.mem_cons_self ..)
    have first := forall_mem_prettyAt (depth + 1) value here.2
    have others := forall_mem_prettyMembers (depth + 1) members fun e mem =>
      h.member e (List.mem_cons_of_mem _ mem)
    have named := forall_mem_membered h.layout here.1 first
    rw [prettyAt]
    exact forall_mem_parts h.layout depth (List.forall_mem_cons.mpr ⟨named, others⟩) (by decide)
      (by decide)

theorem forall_mem_prettyItems (depth : Nat) : (items : List Json) → (∀ j ∈ items, Spells P j) →
    ∀ part ∈ prettyItems depth items, ∀ p ∈ part, P p
  | [], _ => by simp [prettyItems]
  | item :: items, h => by
    rw [prettyItems]
    exact List.forall_mem_cons.mpr ⟨forall_mem_prettyAt depth item (h item (List.mem_cons_self ..)),
      forall_mem_prettyItems depth items fun j mem => h j (List.mem_cons_of_mem _ mem)⟩

theorem forall_mem_prettyMembers (depth : Nat) : (members : List (List CodePoint × Json)) →
    (∀ e ∈ members, (∀ p ∈ Script.full.quoted e.1, P p) ∧ Spells P e.2) →
    ∀ part ∈ prettyMembers depth members, ∀ p ∈ part, P p
  | [], _ => by simp [prettyMembers]
  | (key, value) :: members, h => by
    have here := h (key, value) (List.mem_cons_self ..)
    have named := forall_mem_membered here.2.layout here.1 (forall_mem_prettyAt depth value here.2)
    rw [prettyMembers]
    refine List.forall_mem_cons.mpr ⟨named, ?_⟩
    exact forall_mem_prettyMembers depth members fun e mem => h e (List.mem_cons_of_mem _ mem)

end

theorem forall_mem_pretty {j : Json} (h : Spells P j) : ∀ p ∈ j.pretty, P p :=
  forall_mem_prettyAt 0 j h

end Spells

/-! ## Carriage returns -/

theorem notMem_hexDigits (count n : Nat) : '\r' ∉ hexDigits count n := by
  have digits : ∀ m < 16, '\r' ≠ hexDigit m := by decide
  induction count generalizing n with
  | zero => exact List.not_mem_nil
  | succ count ih =>
    rw [hexDigits, List.mem_append, List.mem_singleton, not_or]
    exact ⟨ih (n / 16), digits (n % 16) (Nat.mod_lt n (by decide))⟩

theorem notMem_escape (p : CodePoint) : .char '\r' ∉ Script.full.escape p := by
  have listed : ∀ p ∈ [('"', '"'), ('\\', '\\'), ('\n', 'n'), ('\r', 'r'), ('\t', 't'), ('\x0c', 'f'),
      ('\x08', 'b')], '\r' ≠ p.2 := by decide
  unfold Script.escape
  split
  · next e short =>
    obtain ⟨c, -, escape⟩ := Option.bind_eq_some_iff.mp short
    obtain ⟨before, after, entries, -⟩ := List.lookup_eq_some_iff.mp escape
    have other := listed (c, e) (entries ▸ by simp)
    simp [Script.full, other]
  · by_cases control : p.toNat < 32
    · simp [control, Script.full, unicodeEscape, notMem_hexDigits]
    · have other : .char '\r' ≠ p := by
        rintro rfl
        exact control (by decide)
      simp [control, Script.full, other]

theorem notMem_quoted (ps : List CodePoint) : .char '\r' ∉ Script.full.quoted ps := by
  have inside : .char '\r' ∉ ps.flatMap Script.full.escape := by
    rw [List.mem_flatMap]
    rintro ⟨p, -, mem⟩
    exact notMem_escape p mem
  have plain : Script.full.plain = CodePoint.char := rfl
  simp [Script.quoted, plain, inside]

/-- A value without doubles is written without carriage returns. -/
theorem notMem_pretty {j : Json} (h : Whole j) : .char '\r' ∉ j.pretty := by
  have spells : Spells (· ≠ .char '\r') j :=
    ⟨fun c other same => other (CodePoint.char.inj same), fun x part => absurd part (h x),
      fun ps _ p mem same => notMem_quoted ps (same ▸ mem),
      fun _ _ ps _ p mem same => notMem_quoted ps (same ▸ mem)⟩
  exact fun mem => forall_mem_pretty spells _ mem rfl

/-! ## Characters -/

/-- The texts and the keys in the value are texts of characters. -/
structure Spelled (j : Json) : Prop where
  text : ∀ ps, Part (.text ps) j → ∃ s, ps = codePoints s
  key : ∀ members, Part (.object members) j → ∀ ps ∈ entryKeys members, ∃ s, ps = codePoints s

theorem Spelled.ofString (s : String) : Spelled (.ofString s) where
  text ps p := by
    cases p
    exact ⟨s, rfl⟩
  key members p := by cases p

theorem spelled_object_iff {members : List (List CodePoint × Json)} : Spelled (.object members) ↔
    (∀ ps ∈ entryKeys members, ∃ s, ps = codePoints s) ∧ ∀ e ∈ members, Spelled e.2 := by
  constructor
  · intro h
    exact ⟨h.key members (.self _), fun e mem =>
      ⟨fun ps part => h.text ps (.member mem part), fun ms part => h.key ms (.member mem part)⟩⟩
  · rintro ⟨keys, values⟩
    constructor
    · intro ps part
      cases part with
      | member mem part => exact (values _ mem).text ps part
    · intro ms part
      cases part with
      | self => exact keys
      | member mem part => exact (values _ mem).key ms part

theorem exists_char_of_mem_escape {c : Char} {p : CodePoint}
    (h : p ∈ Script.full.escape (.char c)) : ∃ c', p = .char c' := by
  unfold Script.escape at h
  split at h
  · simp only [Script.full, List.mem_cons, List.not_mem_nil, or_false] at h
    rcases h with rfl | rfl <;> exact ⟨_, rfl⟩
  · split at h
    · obtain ⟨c', -, rfl⟩ := List.mem_map.mp h
      exact ⟨c', rfl⟩
    · exact ⟨c, List.mem_singleton.mp h⟩

theorem exists_char_of_mem_quoted {s : String} {p : CodePoint}
    (h : p ∈ Script.full.quoted (codePoints s)) : ∃ c, p = .char c := by
  simp only [Script.quoted, List.cons_append, List.mem_cons, List.mem_append, List.mem_flatMap,
    List.not_mem_nil, or_false] at h
  rcases h with rfl | ⟨q, inside, mem⟩ | rfl
  · exact ⟨_, rfl⟩
  · obtain ⟨c, -, rfl⟩ := List.mem_map.mp inside
    exact exists_char_of_mem_escape mem
  · exact ⟨_, rfl⟩

/-- A value whose texts are made of characters is written in characters. -/
theorem exists_codePoints_eq_pretty {j : Json} (h : Spelled j) : ∃ s, j.pretty = codePoints s := by
  have quoted {ps : List CodePoint} (spelled : ∃ s, ps = codePoints s) :
      ∀ p ∈ Script.full.quoted ps, ∃ c, p = .char c := by
    obtain ⟨s, rfl⟩ := spelled
    exact fun p mem => exists_char_of_mem_quoted mem
  have spells : Spells (fun p => ∃ c, p = .char c) j := by
    refine ⟨fun c _ => ⟨c, rfl⟩, fun x _ p mem => ?_, fun ps part => quoted (h.text ps part),
      fun members part ps mem => quoted (h.key members part ps mem)⟩
    obtain ⟨c, -, rfl⟩ := List.mem_map.mp mem
    exact ⟨c, rfl⟩
  exact exists_codePoints_eq (forall_mem_pretty spells)

end ShortcutRelay.Json
