import ShortcutRelay.Config.Parse
import ShortcutRelay.Proofs.Except

/-!
# Configurations that are accepted

* `mem_of_mapPositions`, `mem_mapPositions`, `mapPositions_ok`, `okWhere_mapPositions`,
  `mapPositions_eq_error_iff` : a function on the items of a list and their positions;
* `Parameter.Checked`, `Shortcut.Checked`, `Config.Checked` : what the rules ask of the parts of a
  configuration;
* `checked_of_ofDocument` : a configuration that was read from a document keeps the rules;
* `typed_of_ofDocument` : every parameter has one of the four types;
* `Document.ofShortcuts`, `Document.spoken` : documents with shortcuts.
-/

namespace ShortcutRelay
open Template

section Positions

variable {α β ε : Type} {f : Nat → α → Except ε β}

/-- Each result comes from an item. -/
theorem mem_of_mapPositions {i : Nat} {xs : List α} {ys : List β}
    (h : mapPositions f i xs = .ok ys) {y : β} (mem : y ∈ ys) :
    ∃ x ∈ xs, ∃ j, f j x = .ok y := by
  induction xs generalizing i ys with
  | nil =>
    cases h
    cases mem
  | cons x xs ih =>
    obtain ⟨first, made, h⟩ := of_bind_eq_ok h
    obtain ⟨others, rest, h⟩ := of_bind_eq_ok h
    cases h
    rcases List.mem_cons.mp mem with rfl | later
    · exact ⟨x, List.mem_cons_self .., i, made⟩
    · obtain ⟨x', there, found⟩ := ih rest later
      exact ⟨x', List.mem_cons_of_mem _ there, found⟩

theorem mapPositions_ok {xs : List α} (h : ∀ x ∈ xs, ∀ i, ∃ y, f i x = .ok y) (i : Nat) :
    ∃ ys, mapPositions f i xs = .ok ys := by
  induction xs generalizing i with
  | nil => exact ⟨[], rfl⟩
  | cons x xs ih =>
    obtain ⟨y, made⟩ := h x (List.mem_cons_self ..) i
    obtain ⟨ys, rest⟩ := ih (fun x mem => h x (List.mem_cons_of_mem _ mem)) (i + 1)
    refine ⟨y :: ys, ?_⟩
    rw [mapPositions, made, ok_bind, rest]
    rfl

/-- There are results where each item has one, if all items fail alike. -/
theorem okWhere_mapPositions {P : α → Prop} {e : ε} {xs : List α}
    (each : ∀ x ∈ xs, ∀ i, OkWhere (P x) e (f i x)) (i : Nat) :
    OkWhere (∀ x ∈ xs, P x) e (mapPositions f i xs) := by
  induction xs generalizing i with
  | nil => exact .of_ok nofun _
  | cons x xs ih =>
    have first := each x (List.mem_cons_self ..) i
    have rest := ih (fun x mem => each x (List.mem_cons_of_mem _ mem)) (i + 1)
    constructor
    · intro all
      obtain ⟨y, made⟩ := first.ok (all x (List.mem_cons_self ..))
      obtain ⟨ys, others⟩ := rest.ok fun x mem => all x (List.mem_cons_of_mem _ mem)
      refine ⟨y :: ys, ?_⟩
      rw [mapPositions, made, ok_bind, others]
      rfl
    · intro fails
      rw [mapPositions]
      cases made : f i x with
      | error e' =>
        rw [first.error_eq made]
        rfl
      | ok y =>
        have here := first.iff.mp ⟨y, made⟩
        rw [ok_bind, rest.error fun others => fails (List.forall_mem_cons.mpr ⟨here, others⟩)]
        rfl

/-- Each item has a result. -/
theorem mem_mapPositions {i : Nat} {xs : List α} {ys : List β} (h : mapPositions f i xs = .ok ys)
    {k : Nat} (bound : k < xs.length) : ∃ y ∈ ys, f (i + k) xs[k] = .ok y := by
  induction xs generalizing i ys k with
  | nil => cases bound
  | cons x xs ih =>
    obtain ⟨y, made, h⟩ := of_bind_eq_ok h
    obtain ⟨others, rest, h⟩ := of_bind_eq_ok h
    cases h
    cases k with
    | zero => exact ⟨y, List.mem_cons_self .., made⟩
    | succ k =>
      obtain ⟨y', mem, later⟩ := ih rest (Nat.lt_of_succ_lt_succ bound)
      refine ⟨y', List.mem_cons_of_mem _ mem, ?_⟩
      rw [← Nat.add_assoc, Nat.add_right_comm]
      exact later

/-- What is read off from the results is read off from the items. -/
theorem flatMap_mapPositions {γ : Type} {g : β → List γ} {g' : α → List γ} {i : Nat} {xs : List α}
    {ys : List β} (h : mapPositions f i xs = .ok ys)
    (each : ∀ x ∈ xs, ∀ j y, f j x = .ok y → g y = g' x) : ys.flatMap g = xs.flatMap g' := by
  induction xs generalizing i ys with
  | nil =>
    cases h
    rfl
  | cons x xs ih =>
    obtain ⟨y, made, h⟩ := of_bind_eq_ok h
    obtain ⟨others, rest, h⟩ := of_bind_eq_ok h
    cases h
    rw [List.flatMap_cons, List.flatMap_cons, each x (List.mem_cons_self ..) i y made,
      ih rest fun x mem => each x (List.mem_cons_of_mem _ mem)]

/-- The function fails on the first item on which it can fail. -/
theorem mapPositions_eq_error_iff {i : Nat} {xs : List α} {e : ε} :
    mapPositions f i xs = .error e ↔ ∃ before x after ys, xs = before ++ x :: after ∧
      mapPositions f i before = .ok ys ∧ f (i + before.length) x = .error e := by
  induction xs generalizing i with
  | nil =>
    constructor
    · rintro ⟨⟩
    · rintro ⟨before, x, after, ys, same, -⟩
      simp at same
  | cons x xs ih =>
    unfold mapPositions
    rw [bind_eq_error_iff]
    constructor
    · rintro (here | ⟨y, made, rest⟩)
      · exact ⟨[], x, xs, [], rfl, rfl, here⟩
      · rcases bind_eq_error_iff.mp rest with later | ⟨ys, -, ⟨⟩⟩
        obtain ⟨before, x', after, ys, rfl, read, failed⟩ := ih.mp later
        refine ⟨x :: before, x', after, y :: ys, rfl, ?_, ?_⟩
        · show f i x >>= _ = _
          rw [made, ok_bind, read]
          rfl
        · rw [List.length_cons, Nat.add_comm before.length, ← Nat.add_assoc]
          exact failed
    · rintro ⟨before, x', after, ys, same, read, failed⟩
      cases before with
      | nil =>
        cases same
        exact .inl failed
      | cons first before =>
        obtain ⟨rfl, rfl⟩ := List.cons.inj same
        obtain ⟨y, made, read⟩ := of_bind_eq_ok read
        obtain ⟨ys', read, -⟩ := of_bind_eq_ok read
        refine .inr ⟨y, made, bind_eq_error_iff.mpr (.inl (ih.mpr ?_))⟩
        refine ⟨before, x', after, ys', rfl, read, ?_⟩
        rw [List.length_cons, Nat.add_comm before.length, ← Nat.add_assoc] at failed
        exact failed

end Positions

def ValueType.IsKnown (t : ValueType) : Prop :=
  ∀ name, t ≠ .other name

theorem isKnown_of_valueType? {d : Option Document} {t : ValueType} (h : valueType? d = some t) :
    t.IsKnown := by
  have listed : ∀ p ∈ ValueType.known, p.2.IsKnown := by
    unfold ValueType.known
    simp [ValueType.IsKnown]
  unfold valueType? at h
  split at h
  · next name =>
    obtain ⟨before, after, entries, -⟩ := List.lookup_eq_some_iff.mp h
    have mem : (name, t) ∈ ValueType.known := by
      rw [entries]
      simp
    exact listed _ mem
  · cases h

/-! ## What is checked -/

structure Parameter.Checked (p : Parameter) : Prop where
  named : isIdentifier p.name = true
  type : p.type.IsKnown

structure Shortcut.Checked (s : Shortcut) : Prop where
  symbol : isIdentifier (symbolCase s.identifier) = true
  parameters : ∀ p ∈ s.parameters, p.Checked
  names : (s.parameters.map (·.name)).Nodup

structure Config.Checked (c : Config) : Prop where
  shortcuts : ∀ s ∈ c.shortcuts, s.Checked
  some_shortcut : c.shortcuts ≠ []
  identifiers : (c.shortcuts.map (·.identifier)).Nodup

def Config.Typed (c : Config) : Prop :=
  ∀ s ∈ c.shortcuts, ∀ p ∈ s.parameters, p.type.IsKnown

/-- What goes on after a check was not rejected. -/
theorem of_check_eq_ok {α : Type} {broken : Prop} [Decidable broken] {e : ConfigFault}
    {next : Unit → Parsed α} {a : α}
    (h : (if broken then reject e >>= next else next ()) = .ok a) : ¬ broken ∧ next () = .ok a := by
  split at h
  · cases h
  · next fine => exact ⟨fine, h⟩

theorem checked_of_readParameter {identifier : String} {index : Nat} {d : Document} {p : Parameter}
    (h : readParameter identifier index d = .ok p) : p.Checked := by
  unfold readParameter at h
  split at h
  · obtain ⟨name, -, h⟩ := of_bind_eq_ok h
    obtain ⟨named, h⟩ := of_check_eq_ok h
    dsimp only at h
    split at h
    · next type known =>
      obtain ⟨title, -, h⟩ := of_bind_eq_ok h
      obtain ⟨isOptional, -, h⟩ := of_bind_eq_ok h
      obtain ⟨description, -, h⟩ := of_bind_eq_ok h
      cases h
      exact ⟨by simpa using named, isKnown_of_valueType? known⟩
    · unfold rejectType at h
      split at h <;> cases h
  · cases h

/-- Where no text is repeated, the texts differ from each other and from those seen before. -/
theorem nodup_of_firstRepeated? {seen texts : List String} (h : firstRepeated? seen texts = none) :
    texts.Nodup ∧ ∀ text ∈ texts, text ∉ seen := by
  induction texts generalizing seen with
  | nil => exact ⟨List.nodup_nil, nofun⟩
  | cons text rest ih =>
    unfold firstRepeated? at h
    split at h
    · cases h
    · next new =>
      obtain ⟨distinct, others⟩ := ih h
      have apart : ∀ other ∈ rest, other ≠ text ∧ other ∉ seen := fun other mem => by
        simpa using others other mem
      constructor
      · exact List.nodup_cons.mpr ⟨fun mem => (apart text mem).1 rfl, distinct⟩
      · intro other mem
        rcases List.mem_cons.mp mem with rfl | later
        · exact new
        · exact (apart other later).2

theorem checked_of_readShortcut {index : Nat} {d : Document} {s : Shortcut}
    (h : readShortcut index d = .ok s) : s.Checked := by
  unfold readShortcut at h
  split at h
  · obtain ⟨identifier, -, h⟩ := of_bind_eq_ok h
    obtain ⟨symbol, h⟩ := of_check_eq_ok h
    obtain ⟨phrases, -, h⟩ := of_bind_eq_ok h
    obtain ⟨items, -, h⟩ := of_bind_eq_ok h
    obtain ⟨parameters, parsed, h⟩ := of_bind_eq_ok h
    dsimp only at h
    split at h
    · cases h
    · next unmatched =>
      have unrepeated := Option.eq_none_iff_forall_ne_some.mpr fun name found => unmatched name found
      obtain ⟨fields, -, h⟩ := of_bind_eq_ok h
      obtain ⟨stateDialogs, -, h⟩ := of_bind_eq_ok h
      obtain ⟨title, -, h⟩ := of_bind_eq_ok h
      obtain ⟨image, -, h⟩ := of_bind_eq_ok h
      obtain ⟨description, -, h⟩ := of_bind_eq_ok h
      cases h
      refine ⟨by simpa using symbol, fun p mem => ?_, (nodup_of_firstRepeated? unrepeated).1⟩
      obtain ⟨item, -, position, made⟩ := mem_of_mapPositions parsed mem
      exact checked_of_readParameter made
  · cases h

/-- Where no clash is found, the identifiers differ from each other and from those seen before. -/
theorem nodup_of_firstClash? {seen : List (String × Nat)} {i : Nat} {identifiers : List String}
    (h : firstClash? seen i identifiers = none) :
    identifiers.Nodup ∧ ∀ id ∈ identifiers, seen.lookup id = none := by
  induction identifiers generalizing seen i with
  | nil => exact ⟨List.nodup_nil, nofun⟩
  | cons id rest ih =>
    unfold firstClash? at h
    split at h
    · cases h
    · next new =>
      obtain ⟨distinct, others⟩ := ih h
      have apart : ∀ other ∈ rest, other ≠ id ∧ seen.lookup other = none := by
        intro other mem
        have unseen := others other mem
        rw [List.lookup_cons] at unseen
        split at unseen
        · cases unseen
        · next differs => exact ⟨by simpa using differs, unseen⟩
      constructor
      · exact List.nodup_cons.mpr ⟨fun mem => (apart id mem).1 rfl, distinct⟩
      · intro other mem
        rcases List.mem_cons.mp mem with rfl | later
        · exact new
        · exact (apart other later).2

/-- A configuration that was read from a document keeps the rules. -/
theorem checked_of_ofDocument {d : Document} {c : Config} (h : Config.ofDocument d = .ok c) :
    c.Checked := by
  unfold Config.ofDocument at h
  split at h
  · split at h
    · split at h
      · obtain ⟨someItem, h⟩ := of_check_eq_ok h
        obtain ⟨shortcuts, read, h⟩ := of_bind_eq_ok h
        dsimp only at h
        split at h
        · cases h
        · next unmatched =>
          have unclashed := Option.eq_none_iff_forall_ne_some.mpr fun e found => unmatched e found
          obtain ⟨group, -, h⟩ := of_bind_eq_ok h
          obtain ⟨localization, -, h⟩ := of_bind_eq_ok h
          cases h
          refine ⟨fun s mem => ?_, ?_, (nodup_of_firstClash? unclashed).1⟩
          · obtain ⟨item, -, index, found⟩ := mem_of_mapPositions read mem
            exact checked_of_readShortcut found
          · rintro rfl
            have none_given := (length_mapPositions read).symm
            exact someItem (List.isEmpty_iff.mpr (List.length_eq_zero_iff.mp none_given))
      · cases h
    · cases h
  · cases h

theorem Config.Checked.typed {c : Config} (h : c.Checked) : c.Typed :=
  fun s mem p there => ((h.shortcuts s mem).parameters p there).type

theorem typed_of_ofDocument {d : Document} {c : Config} (h : Config.ofDocument d = .ok c) :
    c.Typed :=
  (checked_of_ofDocument h).typed

/-! ## Documents with shortcuts -/

def Document.spoken (identifier title phrase : String) (others : List (String × Document)) : Document :=
  .ofFields (("identifier", .text identifier) :: ("title", .text title) ::
    ("phrases", .list [.text phrase]) :: others)

def Document.ofShortcuts (shortcuts : List Document) : Document :=
  .ofFields [("shortcuts", .list shortcuts)]

end ShortcutRelay
