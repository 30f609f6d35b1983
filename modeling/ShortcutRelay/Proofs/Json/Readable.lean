import ShortcutRelay.Proofs.Except
import ShortcutRelay.Proofs.Json.Parts

/-!
# What is read from a text

* `ReadsReadable fuel` : a reader with `fuel` steps left returns readable values only, kept by one
  more step;
* `exact_of_parse` : what is read from a text is exact, where no part of it is a double.
-/

namespace ShortcutRelay.Json
open Decimal

theorem readable_of_readNumber {cs rest : List Char} {j : Json}
    (h : readNumber cs = .ok (j, rest)) : Readable j := by
  cases j with
  | int n =>
    refine ⟨fun m p => ?_, fun _ p => (nomatch p)⟩
    cases p
    exact digitCount_le_of_readNumber h
  | float x => exact ⟨fun _ p => (nomatch p), fun _ p => (nomatch p)⟩
  | null | bool | text | array | object =>
    unfold readNumber at h
    dsimp only at h
    split at h
    · cases h
    · split at h
      · split at h <;> cases h
      · cases h

theorem readable_of_readWord? {cs rest : List Char} {j : Json}
    (h : readWord? cs = some (j, rest)) : Readable j := by
  have listed : ∀ w ∈ words, Readable w.2 := by
    intro w mem
    simp only [words, List.mem_cons, List.not_mem_nil, or_false] at mem
    rcases mem with rfl | rfl | rfl | rfl | rfl | rfl <;>
      exact ⟨fun _ p => (nomatch p), fun _ p => (nomatch p)⟩
  obtain ⟨w, found, same⟩ := Option.map_eq_some_iff.mp h
  cases same
  exact listed w (List.mem_of_find?_eq_some found)

theorem readable_of_readPlain {cs rest : List Char} {j : Json} (h : readPlain cs = .ok (j, rest)) :
    Readable j := by
  unfold readPlain at h
  split at h
  · next found =>
    cases h
    exact readable_of_readWord? found
  · exact readable_of_readNumber h

theorem readable_of_readLexeme {ps rest : List CodePoint} {j : Json}
    (h : readLexeme ps = .ok (j, rest)) : Readable j := by
  obtain ⟨⟨j', left⟩, read, same⟩ := of_bind_eq_ok h
  cases same
  exact readable_of_readPlain read

/-- All that a reader with some steps left returns. -/
structure ReadsReadable (fuel : Nat) : Prop where
  value : ∀ {cs rest : List CodePoint} {j : Json}, readValue fuel cs = .ok (j, rest) → Readable j
  items : ∀ {cs rest : List CodePoint} {items : List Json}, readItems fuel cs = .ok (items, rest) →
    ∀ j ∈ items, Readable j
  members : ∀ {cs rest : List CodePoint} {read members : List (List CodePoint × Json)},
    readMembers fuel read cs = .ok (members, rest) → (entryKeys read).Nodup →
    (∀ e ∈ read, Readable e.2) → (entryKeys members).Nodup ∧ ∀ e ∈ members, Readable e.2

theorem value_of_readsReadable {fuel : Nat} (ih : ReadsReadable fuel) {cs rest : List CodePoint} {j : Json}
    (h : readValue (fuel + 1) cs = .ok (j, rest)) : Readable j := by
  rw [readValue.eq_def] at h
  split at h
  · cases h
  · cases h
  · split at h <;> cases h
    exact .text _
  · next fuel cs same =>
    cases same
    split at h
    · cases h
      exact .array fun j mem => (nomatch mem)
    · obtain ⟨⟨items, rest'⟩, found, same⟩ := of_map_eq_ok h
      cases same
      exact .array (ih.items found)
  · next fuel cs same =>
    cases same
    split at h
    · cases h
      exact .object .nil fun e mem => (nomatch mem)
    · obtain ⟨⟨members, rest'⟩, found, same⟩ := of_map_eq_ok h
      cases same
      obtain ⟨keys, values⟩ := ih.members found .nil fun e mem => (nomatch mem)
      exact .object keys values
  · exact readable_of_readLexeme h

theorem items_of_readsReadable {fuel : Nat} (ih : ReadsReadable fuel) {cs rest : List CodePoint}
    {items : List Json} (h : readItems (fuel + 1) cs = .ok (items, rest)) :
    ∀ j ∈ items, Readable j := by
  rw [readItems] at h
  obtain ⟨⟨item, more⟩, first, h⟩ := of_bind_eq_ok h
  have first_readable := ih.value first
  dsimp only at h
  split at h
  · cases h
    exact List.forall_mem_singleton.mpr first_readable
  · obtain ⟨⟨others, rest'⟩, found, h⟩ := of_bind_eq_ok h
    cases h
    exact List.forall_mem_cons.mpr ⟨first_readable, ih.items found⟩
  · cases h

theorem members_of_readsReadable {fuel : Nat} (ih : ReadsReadable fuel) {cs rest : List CodePoint}
    {read members : List (List CodePoint × Json)}
    (h : readMembers (fuel + 1) read cs = .ok (members, rest)) (keys : (entryKeys read).Nodup)
    (values : ∀ e ∈ read, Readable e.2) :
    (entryKeys members).Nodup ∧ ∀ e ∈ members, Readable e.2 := by
  rw [readMembers.eq_def] at h
  split at h
  · next cs same =>
    cases same
    split at h
    · cases h
    · next key _ _ =>
      split at h
      · obtain ⟨⟨value, more⟩, found, h⟩ := of_bind_eq_ok h
        have value_readable := ih.value found
        have keys' := nodup_putEntry keys key value
        have values' : ∀ e ∈ putEntry key value read, Readable e.2 := fun e mem =>
          (mem_putEntry mem).elim (fun new => new ▸ value_readable) (values e)
        dsimp only at h
        split at h
        · cases h
          exact ⟨keys', values'⟩
        · exact ih.members h keys' values'
        · cases h
      · cases h
  · cases h

/-- By induction on the steps that are left: a reader puts together what it has read. -/
theorem readsReadable (fuel : Nat) : ReadsReadable fuel := by
  induction fuel with
  | zero =>
    refine ⟨fun h => ?_, fun h => ?_, fun h => ?_⟩
    · rw [readValue] at h
      cases h
    · rw [readItems] at h
      cases h
    · simp [readMembers] at h
  | succ fuel ih =>
    exact ⟨value_of_readsReadable ih, items_of_readsReadable ih, members_of_readsReadable ih⟩

theorem readable_of_parse {s : List CodePoint} {j : Json} (h : parse s = .ok j) : Readable j := by
  obtain ⟨⟨value, rest⟩, read, h⟩ := of_bind_eq_ok h
  have value_readable := (readsReadable _).value read
  dsimp only at h
  split at h
  · cases h
    exact value_readable
  · cases h

/-- What is read from a text is exact, where no part of it is a double. -/
theorem exact_of_parse {s : List CodePoint} {j : Json} (h : parse s = .ok j) (whole : Whole j) : Exact j :=
  { readable_of_parse h with whole }

end ShortcutRelay.Json
