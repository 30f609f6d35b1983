import ShortcutRelay.Localization.Catalog
import ShortcutRelay.Proofs.Store.Contents
import ShortcutRelay.Proofs.Text.Utf8

/-!
# Source texts of a catalog

* `Refreshed text old new` : `new` is the entry `old` with a new source text and nothing else
  changed;
* `entryKeys_putTexts`, `valueAt?_putTexts` : the keys and the entries of a catalog with several source
  texts;
* `Merged texts old new` : the entries of a catalog with source texts beside those that it had;
* `putTexts_putAll` : source texts in two turns are those of both together in one.
-/

namespace ShortcutRelay

variable {α κ : Type} [DecidableEq κ]

theorem eraseEntry_putEntry (key : κ) (value : α) (es : List (κ × α)) :
    eraseEntry key (putEntry key value es) = eraseEntry key es := by
  induction es with
  | nil => simp [putEntry, eraseEntry]
  | cons e es ih =>
    obtain ⟨k, v⟩ := e
    unfold eraseEntry at ih ⊢
    by_cases h : k = key
    · simp [putEntry, h]
    · simp [putEntry, h, ih]

theorem putEntry_comm {key key' : κ} (other : key ≠ key') {es : List (κ × α)}
    (known : key ∈ entryKeys es) (v v' : α) :
    putEntry key v (putEntry key' v' es) = putEntry key' v' (putEntry key v es) := by
  induction es with
  | nil => cases known
  | cons e es ih =>
    obtain ⟨k, w⟩ := e
    by_cases here : k = key
    · subst here
      simp [putEntry, other]
    · have later : key ∈ entryKeys es := by
        simpa [Ne.symm here] using known
      by_cases there : k = key'
      · simp [putEntry, there, Ne.symm other]
      · simp [putEntry, here, there, ih later]

namespace Localization.Catalog
open Text

/-! ## One source text -/

/-- `new` is the entry `old` with a source text: its other fields, and the other languages where
there were any, are as they were and in the same order. -/
structure Refreshed (text : String) (old new : List (List CodePoint × Json)) : Prop where
  fields : eraseEntry (codePoints "localizations") new = eraseEntry (codePoints "localizations") old
  languages : ∃ langs, valueAt? (codePoints "localizations") new = some (.object langs) ∧
    valueAt? (codePoints "en") langs = some (unit text) ∧
    ∀ before, valueAt? (codePoints "localizations") old = some (.object before) →
      eraseEntry (codePoints "en") langs = eraseEntry (codePoints "en") before

def manualEntry (text : String) : Json :=
  .object [Json.named "extractionState" (.ofString "manual"),
    Json.named "localizations" (.object [Json.named "en" (unit text)])]

theorem refresh_object (text : String) (old : List (List CodePoint × Json)) :
    ∃ new, refresh (some (.object old)) text = .object new ∧ Refreshed text old new := by
  refine ⟨_, rfl, eraseEntry_putEntry _ _ _, _, valueAt?_putEntry _ _ _ _, ?_, ?_⟩
  · exact valueAt?_putEntry _ _ _ _
  · intro before h
    rw [h]
    exact eraseEntry_putEntry _ _ _

theorem refresh_other (text : String) {old : Option Json} (h : ∀ members, old ≠ some (.object members)) :
    refresh old text = manualEntry text := by
  unfold refresh
  split
  · exact absurd rfl (h _)
  · rfl

/-! ## Several source texts -/

@[simp] theorem putTexts_sourceLanguage (texts : List (String × String)) (c : Catalog) :
    (putTexts texts c).sourceLanguage = c.sourceLanguage := by
  induction texts generalizing c with
  | nil => rfl
  | cons t texts ih => exact ih (putText c t)

@[simp] theorem putTexts_version (texts : List (String × String)) (c : Catalog) :
    (putTexts texts c).version = c.version := by
  induction texts generalizing c with
  | nil => rfl
  | cons t texts ih => exact ih (putText c t)

def catalogKeys (texts : List (String × String)) : List (List CodePoint) :=
  (entryKeys texts).map codePoints

theorem mem_catalogKeys {texts : List (String × String)} {key : String} :
    codePoints key ∈ catalogKeys texts ↔ key ∈ entryKeys texts := by
  simp [catalogKeys, codePoints_inj]

/-- The known keys keep their places, and the new ones follow in their order. -/
theorem entryKeys_putTexts {texts : List (String × String)} (distinct : (entryKeys texts).Nodup)
    (c : Catalog) : entryKeys (putTexts texts c).strings =
      entryKeys c.strings ++ (catalogKeys texts).filter fun k => k ∉ entryKeys c.strings := by
  induction texts generalizing c with
  | nil => simp [putTexts, catalogKeys]
  | cons t texts ih =>
    rw [entryKeys_cons, List.nodup_cons] at distinct
    have after : entryKeys (putText c t).strings = _ := entryKeys_putEntry (codePoints t.1) _ c.strings
    have rest := ih distinct.2 (putText c t)
    have split : catalogKeys (t :: texts) = codePoints t.1 :: catalogKeys texts := rfl
    change entryKeys (putTexts texts (putText c t)).strings = _
    rw [rest, after, split]
    by_cases known : codePoints t.1 ∈ entryKeys c.strings
    · simp [known]
    · have same : (catalogKeys texts).filter (fun k => k ∉ entryKeys c.strings ++ [codePoints t.1]) =
          (catalogKeys texts).filter fun k => k ∉ entryKeys c.strings := by
        refine List.filter_congr fun k mem => ?_
        have other : k ≠ codePoints t.1 := fun same => distinct.1 (mem_catalogKeys.mp (same ▸ mem))
        simp [other]
      rw [if_neg known, same, List.filter_cons_of_pos (by simpa using known), List.append_assoc]
      rfl

/-- Each entry depends on its own text and on what it was. -/
theorem valueAt?_putTexts {texts : List (String × String)} (distinct : (entryKeys texts).Nodup)
    (c : Catalog) (k : String) : valueAt? (codePoints k) (putTexts texts c).strings =
      match valueAt? k texts with
      | some text => some (refresh (valueAt? (codePoints k) c.strings) text)
      | none => valueAt? (codePoints k) c.strings := by
  induction texts generalizing c with
  | nil => rfl
  | cons t texts ih =>
    obtain ⟨key, text⟩ := t
    rw [entryKeys_cons, List.nodup_cons] at distinct
    have here : valueAt? (codePoints k) (putText c (key, text)).strings =
        if codePoints k = codePoints key then some (refresh (valueAt? (codePoints key) c.strings) text)
        else valueAt? (codePoints k) c.strings :=
      valueAt?_putEntry (codePoints key) (codePoints k) _ c.strings
    have rest := ih distinct.2 (putText c (key, text))
    change valueAt? (codePoints k) (putTexts texts (putText c (key, text))).strings = _
    rw [rest, here, valueAt?]
    simp only [codePoints_inj]
    by_cases same : k = key
    · subst same
      have last : valueAt? k texts = none := (valueAt?_eq_none_iff k texts).mpr distinct.1
      simp [last]
    · simp [same, Ne.symm same]

theorem valueAt?_putTexts_other {texts : List (String × String)} {k : List CodePoint}
    (other : k ∉ catalogKeys texts) (c : Catalog) :
    valueAt? k (putTexts texts c).strings = valueAt? k c.strings := by
  induction texts generalizing c with
  | nil => rfl
  | cons t texts ih =>
    have first : k ≠ codePoints t.1 := fun same => other (same ▸ List.mem_cons_self)
    have here : valueAt? k (putText c t).strings = valueAt? k c.strings :=
      (valueAt?_putEntry (codePoints t.1) k _ c.strings).trans (if_neg first)
    exact (ih (fun mem => other (List.mem_cons_of_mem _ mem)) (putText c t)).trans here

/-! ## Before and after -/

/-- The entries of a catalog with source texts beside those that it had. -/
structure Merged (texts : OrderedMap String) (old new : List (List CodePoint × Json)) : Prop where
  keys : entryKeys new =
    entryKeys old ++ (catalogKeys texts.toList).filter fun k => k ∉ entryKeys old
  others : ∀ k ∉ catalogKeys texts.toList, valueAt? k new = valueAt? k old
  entries : ∀ k text entry, texts.get? k = some text →
    valueAt? (codePoints k) old = some (.object entry) →
    ∃ entry', valueAt? (codePoints k) new = some (.object entry') ∧ Refreshed text entry entry'
  fresh : ∀ k text, texts.get? k = some text →
    (∀ entry, valueAt? (codePoints k) old ≠ some (.object entry)) →
    valueAt? (codePoints k) new = some (manualEntry text)

theorem merged_putTexts (texts : OrderedMap String) (c : Catalog) :
    Merged texts c.strings (putTexts texts.toList c).strings := by
  have values := valueAt?_putTexts texts.nodup c
  refine ⟨entryKeys_putTexts texts.nodup c, fun k other => valueAt?_putTexts_other other c, ?_, ?_⟩
  · intro k text entry given old
    have given : valueAt? k texts.toList = some text := given
    obtain ⟨entry', made, refreshed⟩ := refresh_object text entry
    refine ⟨entry', ?_, refreshed⟩
    rw [values k, given, old, ← made]
  · intro k text given old
    have given : valueAt? k texts.toList = some text := given
    rw [values k, given, ← refresh_other text old]

/-! ## Two turns -/

theorem refresh_refresh (entry : Option Json) (text text' : String) :
    refresh (some (refresh entry text)) text' = refresh entry text' := by
  by_cases isEntry : ∃ members, entry = some (.object members)
  · obtain ⟨members, rfl⟩ := isEntry
    simp only [refresh, valueAt?_putEntry, if_true, Option.bind_some, Json.members?,
      Option.getD_some, putEntry_putEntry]
  · have other : ∀ members, entry ≠ some (.object members) := by
      intro members same
      exact isEntry ⟨members, same⟩
    rw [refresh_other text other, refresh_other text' other]
    rfl

/-- The later text of a key replaces the earlier one. -/
theorem putText_putText (c : Catalog) (key text text' : String) :
    putText (putText c (key, text)) (key, text') = putText c (key, text') := by
  simp only [putText, valueAt?_putEntry, if_true, putEntry_putEntry, refresh_refresh]

/-- A key that is known already keeps its place, so its text may as well come first. -/
theorem putText_comm {c : Catalog} {key key' : String} (other : key ≠ key')
    (known : codePoints key ∈ entryKeys c.strings) (text text' : String) :
    putText (putText c (key', text')) (key, text) = putText (putText c (key, text)) (key', text') := by
  have other : codePoints key ≠ codePoints key' := fun same => other (codePoints_inj.mp same)
  simp only [putText, valueAt?_putEntry, if_neg other, if_neg (Ne.symm other)]
  rw [putEntry_comm other known]

theorem putText_putTexts {texts : List (String × String)} {c : Catalog} {key : String}
    (other : key ∉ entryKeys texts) (known : codePoints key ∈ entryKeys c.strings) (text : String) :
    putText (putTexts texts c) (key, text) = putTexts texts (putText c (key, text)) := by
  induction texts generalizing c with
  | nil => rfl
  | cons t texts ih =>
    rw [entryKeys_cons, List.mem_cons, not_or] at other
    have still : codePoints key ∈ entryKeys (putText c t).strings := by
      rw [putText, entryKeys_putEntry]
      split
      · exact known
      · exact List.mem_append_left _ known
    calc putText (putTexts texts (putText c t)) (key, text)
        = putTexts texts (putText (putText c t) (key, text)) := ih other.2 still
      _ = putTexts texts (putText (putText c (key, text)) t) := by
        rw [putText_comm other.1 known]

/-- One more text comes to the same as a map that has it. -/
theorem putTexts_putEntry {texts : List (String × String)} (distinct : (entryKeys texts).Nodup)
    (c : Catalog) (key text : String) :
    putTexts (putEntry key text texts) c = putText (putTexts texts c) (key, text) := by
  induction texts generalizing c with
  | nil => rfl
  | cons t texts ih =>
    obtain ⟨k, before⟩ := t
    rw [entryKeys_cons, List.nodup_cons] at distinct
    by_cases same : k = key
    · subst same
      have known : codePoints k ∈ entryKeys (putText c (k, before)).strings := by
        rw [putText, entryKeys_putEntry]
        split
        · assumption
        · simp
      calc putTexts (putEntry k text ((k, before) :: texts)) c
          = putTexts texts (putText c (k, text)) := by simp [putEntry, putTexts]
        _ = putTexts texts (putText (putText c (k, before)) (k, text)) := by
          rw [putText_putText]
        _ = putText (putTexts texts (putText c (k, before))) (k, text) :=
          (putText_putTexts distinct.1 known text).symm
    · have step := ih distinct.2 (putText c (k, before))
      simpa [putEntry, same, putTexts] using step

/-- Source texts in two turns are those of both together in one. -/
theorem putTexts_putAll (first second : OrderedMap String) (c : Catalog) :
    putTexts second.toList (putTexts first.toList c) =
      putTexts (first.putAll second.toList).toList c := by
  have later (texts : List (String × String)) (first : OrderedMap String) :
      putTexts texts (putTexts first.toList c) = putTexts (first.putAll texts).toList c := by
    induction texts generalizing first with
    | nil => rfl
    | cons t texts ih =>
      have one := putTexts_putEntry first.nodup c t.1 t.2
      rw [OrderedMap.putAll_cons, ← ih, OrderedMap.toList_put, one]
      rfl
  exact later second.toList first

end Localization.Catalog

end ShortcutRelay
