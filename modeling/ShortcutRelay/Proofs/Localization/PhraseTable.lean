import ShortcutRelay.Localization.PhraseTable
import ShortcutRelay.Proofs.Swift.Literal
import ShortcutRelay.Proofs.Text.Pieces

/-!
# Entries of a phrase table

* `entryKey?_identityLine` : an identity line is an entry of its key;
* `Keyed es` : the lines of `es` are entries of their keys, and no key is repeated;
* `entries phrases existing` : the entries of a merged table, keyed in `keyed_entries`;
* `keptLines_merge` : they are found again in the text of the table, and so a second merge of the
  same phrases changes nothing (`merge_again`), and phrases may be merged in turn (`merge_in_turn`);
* `countP_merge` : one line of a merged table belongs to each phrase.
-/

namespace ShortcutRelay.Localization.PhraseTable
open Text

/-! ## Identity lines -/

theorem readQuoted_escapeChar (c : Char) (cs : List Char) :
    readQuoted (Swift.escapeChar c ++ cs) =
      (readQuoted cs).map fun (s, rest) => (Swift.escapeChar c ++ s, rest) := by
  rcases Swift.escapeChar_cases c with ⟨e, -, other, same⟩ | ⟨other, same⟩
  · simp only [List.mem_cons, List.not_mem_nil, or_false, not_or] at other
    simp [same, readQuoted, other]
  · simp only [List.mem_cons, List.not_mem_nil, or_false, not_or] at other
    simp [same, readQuoted, other]

theorem readQuoted_escape (s cs : List Char) :
    readQuoted (s.flatMap Swift.escapeChar ++ '"' :: cs) =
      some (s.flatMap Swift.escapeChar, cs) := by
  induction s with
  | nil => rfl
  | cons c s ih =>
    rw [List.flatMap_cons, List.append_assoc, readQuoted_escapeChar, ih]
    rfl

def keyOf (phrase : String) : List Char :=
  (Swift.escape phrase).toList

/-- No two phrases have one key. -/
theorem keyOf_injective : Function.Injective keyOf :=
  fun _ _ same => Swift.escape_injective (String.toList_inj.mp same)

theorem quotedAt?_keyOf (phrase : String) (cs : List Char) :
    quotedAt? ('"' :: (keyOf phrase ++ '"' :: cs)) = some (keyOf phrase, cs) := by
  rw [keyOf, Swift.toList_escape, quotedAt?, readQuoted_escape]

theorem identityLine_eq (key : List Char) :
    identityLine key =
      '"' :: (key ++ '"' :: ' ' :: '=' :: ' ' :: '"' :: (key ++ '"' :: [';'])) := by
  simp [identityLine]

theorem entryKey?_identityLine (phrase : String) :
    entryKey? (identityLine (keyOf phrase)) = some (keyOf phrase) := by
  have blank : isBlank ' ' = true := by decide
  have equals : isBlank '=' = false := by decide
  have quote : isBlank '"' = false := by decide
  rw [identityLine_eq, entryKey?, quotedAt?_keyOf]
  simp [blank, equals, quote, quotedAt?_keyOf]

theorem notMem_identityLine (phrase : String) {c : Char} (h : c ∈ ['\n', '\r', '\t']) :
    c ∉ identityLine (keyOf phrase) := by
  have inside : c ∉ keyOf phrase := Swift.notMem_escape phrase h
  rw [identityLine_eq]
  simp only [List.mem_cons, List.not_mem_nil, or_false] at h
  rcases h with rfl | rfl | rfl <;> simp [inside]

/-! ## Tables -/

/-- The lines, each with its key, are entries on one line each, and no key is repeated. -/
structure Keyed (es : List (List Char × List Char)) : Prop where
  key : ∀ e ∈ es, entryKey? e.2 = some e.1
  line : ∀ e ∈ es, '\n' ∉ e.2
  distinct : (es.map Prod.fst).Nodup

theorem mem_keptFrom {seen lines : List (List Char)} {e : List Char × List Char}
    (h : e ∈ keptFrom seen lines) : entryKey? e.2 = some e.1 ∧ e.2 ∈ lines ∧ e.1 ∉ seen := by
  induction lines generalizing seen with
  | nil => cases h
  | cons line lines ih =>
    unfold keptFrom at h
    split at h
    · next key found =>
      split at h
      · have later := ih h
        exact ⟨later.1, List.mem_cons_of_mem _ later.2.1, later.2.2⟩
      · next new =>
        rcases List.mem_cons.mp h with rfl | h
        · exact ⟨found, List.mem_cons_self .., new⟩
        · obtain ⟨key, mem, other⟩ := ih h
          exact ⟨key, List.mem_cons_of_mem _ mem, fun m => other (List.mem_cons_of_mem _ m)⟩
    · have later := ih h
      exact ⟨later.1, List.mem_cons_of_mem _ later.2.1, later.2.2⟩

theorem nodup_keptFrom (seen lines : List (List Char)) :
    ((keptFrom seen lines).map Prod.fst).Nodup := by
  induction lines generalizing seen with
  | nil => exact .nil
  | cons line lines ih =>
    unfold keptFrom
    split
    · next key found =>
      split
      · exact ih seen
      · rw [List.map_cons, List.nodup_cons]
        refine ⟨?_, ih _⟩
        intro mem
        obtain ⟨e, kept, same⟩ := List.mem_map.mp mem
        exact (mem_keptFrom kept).2.2 (same ▸ List.mem_cons_self ..)
    · exact ih seen

theorem keyed_keptLines (existing : Option String) : Keyed (keptLines existing) := by
  cases existing with
  | none => exact ⟨nofun, nofun, .nil⟩
  | some text =>
    refine ⟨?_, ?_, nodup_keptFrom _ _⟩
    · intro e mem
      exact (mem_keptFrom mem).1
    · intro e mem
      exact notMem_of_mem_splitOn (mem_keptFrom mem).2.1

/-- All lines of a keyed list are kept, where no key was seen before. -/
theorem keptFrom_keyed {es : List (List Char × List Char)} (keyed : Keyed es)
    {seen : List (List Char)} (new : ∀ e ∈ es, e.1 ∉ seen) :
    keptFrom seen (es.map Prod.snd) = es := by
  induction es generalizing seen with
  | nil => rfl
  | cons e es ih =>
    obtain ⟨key, line, distinct⟩ := keyed
    rw [List.map_cons, List.nodup_cons] at distinct
    have others : Keyed es := ⟨fun e mem => key e (List.mem_cons_of_mem _ mem),
      fun e mem => line e (List.mem_cons_of_mem _ mem), distinct.2⟩
    have new' : ∀ e' ∈ es, e'.1 ∉ e.1 :: seen := by
      intro e' mem
      rw [List.mem_cons, not_or]
      refine ⟨fun same => distinct.1 (same ▸ List.mem_map_of_mem mem), ?_⟩
      exact new e' (List.mem_cons_of_mem _ mem)
    simp [keptFrom, key e (List.mem_cons_self ..), new e (List.mem_cons_self ..), ih others new']

/-! ## Merged tables -/

def newKeys (seen : List (List Char)) : List String → List (List Char)
  | [] => []
  | phrase :: phrases =>
    if seen.contains (keyOf phrase) then newKeys seen phrases
    else keyOf phrase :: newKeys (keyOf phrase :: seen) phrases

section NewKeys

variable {seen : List (List Char)} {phrase : String} {phrases : List String} {key : List Char}

theorem newKeys_known (h : keyOf phrase ∈ seen) :
    newKeys seen (phrase :: phrases) = newKeys seen phrases :=
  if_pos (List.contains_iff_mem.mpr h)

theorem newKeys_new (h : keyOf phrase ∉ seen) :
    newKeys seen (phrase :: phrases) = keyOf phrase :: newKeys (keyOf phrase :: seen) phrases :=
  if_neg fun known => h (List.contains_iff_mem.mp known)

theorem newLines_eq (seen : List (List Char)) (phrases : List String) :
    newLines seen phrases = (newKeys seen phrases).map identityLine := by
  induction phrases generalizing seen with
  | nil => rfl
  | cons phrase phrases ih =>
    unfold newLines
    by_cases known : keyOf phrase ∈ seen
    · rw [newKeys_known known, ← ih]
      exact if_pos known
    · rw [newKeys_new known, List.map_cons, ← ih]
      exact if_neg known

/-- The new keys are those of the phrases whose keys are not known, each at its first place. -/
theorem newKeys_eq_eraseDups (seen : List (List Char)) (phrases : List String) :
    newKeys seen phrases =
      (phrases.filter fun phrase => keyOf phrase ∉ seen).eraseDups.map keyOf := by
  induction phrases generalizing seen with
  | nil => rfl
  | cons phrase phrases ih =>
    by_cases known : keyOf phrase ∈ seen
    · rw [newKeys_known known, ih, List.filter_cons_of_neg (by simpa using known)]
    · have later : (phrases.filter fun other => keyOf other ∉ keyOf phrase :: seen) =
          phrases.filter fun other => (!other == phrase) && decide (keyOf other ∉ seen) := by
        apply List.filter_congr
        intro other _
        have keys : keyOf other = keyOf phrase ↔ other = phrase := keyOf_injective.eq_iff
        by_cases same : other = phrase <;> simp [keys, same]
      rw [newKeys_new known, ih, List.filter_cons_of_pos (by simpa using known), List.eraseDups_cons,
        List.map_cons, List.filter_filter, later]

theorem mem_newKeys :
    key ∈ newKeys seen phrases ↔ ∃ phrase ∈ phrases, keyOf phrase ∉ seen ∧ keyOf phrase = key := by
  simp [newKeys_eq_eraseDups, List.mem_eraseDups, and_assoc]

theorem nodup_newKeys (seen : List (List Char)) (phrases : List String) :
    (newKeys seen phrases).Nodup := by
  induction phrases generalizing seen with
  | nil => exact .nil
  | cons phrase phrases ih =>
    by_cases known : keyOf phrase ∈ seen
    · rw [newKeys_known known]
      exact ih seen
    · rw [newKeys_new known]
      refine List.nodup_cons.mpr ⟨?_, ih _⟩
      intro mem
      obtain ⟨other, -, unknown, same⟩ := mem_newKeys.mp mem
      exact unknown (same ▸ List.mem_cons_self ..)

theorem newKeys_of_known (known : ∀ phrase ∈ phrases, keyOf phrase ∈ seen) :
    newKeys seen phrases = [] := by
  rw [List.eq_nil_iff_forall_not_mem]
  intro key mem
  obtain ⟨phrase, here, unknown, -⟩ := mem_newKeys.mp mem
  exact unknown (known phrase here)

/-- Keys that come first are known to those that come later. -/
theorem newKeys_append (others : List String) :
    newKeys seen (phrases ++ others) =
      newKeys seen phrases ++ newKeys (seen ++ newKeys seen phrases) others := by
  have later : (others.filter fun phrase => keyOf phrase ∉ seen).removeAll
      (phrases.filter fun phrase => keyOf phrase ∉ seen) =
        others.filter fun phrase => keyOf phrase ∉ seen ++ newKeys seen phrases := by
    rw [List.removeAll, List.filter_filter]
    apply List.filter_congr
    intro other _
    by_cases known : keyOf other ∈ seen
    · simp [known]
    · simp [known, mem_newKeys, keyOf_injective.eq_iff]
  simp only [newKeys_eq_eraseDups] at later ⊢
  rw [List.filter_append, List.eraseDups_append, List.map_append, later]

end NewKeys

/-- The entries of a merged table: those that are kept, then an identity line for each new key. -/
def entries (phrases : List String) (existing : Option String) : List (List Char × List Char) :=
  keptLines existing ++
    (newKeys ((keptLines existing).map Prod.fst) phrases).map fun key => (key, identityLine key)

theorem merge_eq_entries (phrases : List String) (existing : Option String) :
    merge phrases existing =
      joinLines (((entries phrases existing).map Prod.snd).map String.ofList) := by
  simp [merge, entries, newLines_eq, Function.comp_def]

theorem mem_entries {phrases : List String} {existing : Option String}
    {e : List Char × List Char} (h : e ∈ entries phrases existing) :
    e ∈ keptLines existing ∨ ∃ phrase, e = (keyOf phrase, identityLine (keyOf phrase)) := by
  refine (List.mem_append.mp h).imp_right fun new => ?_
  obtain ⟨key, isNew, rfl⟩ := List.mem_map.mp new
  obtain ⟨phrase, -, -, rfl⟩ := mem_newKeys.mp isNew
  exact ⟨phrase, rfl⟩

theorem entries_keys (phrases : List String) (existing : Option String) :
    (entries phrases existing).map Prod.fst = (keptLines existing).map Prod.fst ++
      newKeys ((keptLines existing).map Prod.fst) phrases := by
  simp [entries, Function.comp_def]

theorem keyed_entries (phrases : List String) (existing : Option String) :
    Keyed (entries phrases existing) := by
  obtain ⟨key, line, distinct⟩ := keyed_keptLines existing
  refine ⟨?_, ?_, ?_⟩
  · intro e mem
    rcases mem_entries mem with kept | ⟨phrase, rfl⟩
    · exact key e kept
    · dsimp only
      exact entryKey?_identityLine phrase
  · intro e mem
    rcases mem_entries mem with kept | ⟨phrase, rfl⟩
    · exact line e kept
    · exact notMem_identityLine phrase (by simp)
  · rw [entries_keys, List.nodup_append]
    refine ⟨distinct, nodup_newKeys _ _, ?_⟩
    rintro k kept _ new rfl
    obtain ⟨phrase, -, unknown, rfl⟩ := mem_newKeys.mp new
    exact unknown kept

theorem keyOf_mem_entries {phrases : List String} {phrase : String} (h : phrase ∈ phrases)
    (existing : Option String) : keyOf phrase ∈ (entries phrases existing).map Prod.fst := by
  rw [entries_keys, List.mem_append]
  by_cases known : keyOf phrase ∈ (keptLines existing).map Prod.fst
  · exact .inl known
  · exact .inr (mem_newKeys.mpr ⟨phrase, h, known, rfl⟩)

/-- The lines of a merged table; the text of an empty one is an empty line. -/
theorem splitOn_merge (phrases : List String) (existing : Option String) :
    splitOn '\n' (merge phrases existing).toList =
      if entries phrases existing = [] then [[]] else (entries phrases existing).map Prod.snd := by
  rw [merge_eq_entries]
  split
  · next nothing =>
    rw [nothing]
    rfl
  · next something =>
    refine splitOn_joinLines (by simpa using something) ?_
    intro line mem
    obtain ⟨e, entry, rfl⟩ := List.mem_map.mp mem
    exact (keyed_entries phrases existing).line e entry

/-- The entries of a merged table are found again in its text. -/
theorem keptLines_merge (phrases : List String) (existing : Option String) :
    keptLines (some (merge phrases existing)) = entries phrases existing := by
  show keptFrom [] (splitOn '\n' (merge phrases existing).toList) = _
  rw [splitOn_merge]
  split
  · next nothing =>
    rw [nothing]
    rfl
  · exact keptFrom_keyed (keyed_entries phrases existing) fun _ _ => List.not_mem_nil

/-- A second merge of the same phrases changes nothing. -/
theorem merge_again (phrases : List String) (existing : Option String) :
    merge phrases (some (merge phrases existing)) = merge phrases existing := by
  have known : newKeys ((entries phrases existing).map Prod.fst) phrases = [] :=
    newKeys_of_known fun phrase mem => keyOf_mem_entries mem existing
  have same : entries phrases (some (merge phrases existing)) = entries phrases existing := by
    rw [entries, keptLines_merge, known, List.map_nil, List.append_nil]
  rw [merge_eq_entries, same, ← merge_eq_entries]

theorem entries_append (phrases others : List String) (existing : Option String) :
    entries others (some (merge phrases existing)) = entries (phrases ++ others) existing := by
  rw [entries, keptLines_merge, entries_keys, entries, entries, newKeys_append, List.map_append,
    List.append_assoc]

/-- Phrases that are merged in turn make the table of all of them. -/
theorem merge_append (phrases others : List String) (existing : Option String) :
    merge others (some (merge phrases existing)) = merge (phrases ++ others) existing := by
  rw [merge_eq_entries, entries_append, ← merge_eq_entries]

/-- Phrases that are merged in turn make the table of all of them, and so merging the same phrases again
changes nothing. A table made of phrases alone is read back in full: its entries are the phrases by
themselves, each at its first place, and a merge of no phrases keeps its text. -/
theorem merge_in_turn (phrases others : List String) (existing : Option String) :
    merge others (some (merge phrases existing)) = merge (phrases ++ others) existing ∧
      merge phrases (some (merge phrases existing)) = merge phrases existing ∧
      keptLines (some (merge phrases none)) =
        phrases.eraseDups.map (fun phrase => (keyOf phrase, identityLine (keyOf phrase))) ∧
      merge [] (some (merge phrases none)) = merge phrases none := by
  refine ⟨merge_append phrases others existing, merge_again phrases existing, ?_, ?_⟩
  · have all : (phrases.filter fun phrase => keyOf phrase ∉ ([] : List (List Char))) = phrases :=
      List.filter_eq_self.mpr fun _ _ => by simp
    rw [keptLines_merge, entries, show keptLines none = [] from rfl, List.map_nil,
      newKeys_eq_eraseDups, all, List.nil_append, List.map_map]
    rfl
  · rw [merge_append, List.append_nil]

/-- One line of a merged table belongs to each phrase. -/
theorem countP_merge {phrases : List String} {phrase : String} (h : phrase ∈ phrases)
    (existing : Option String) :
    (splitOn '\n' (merge phrases existing).toList).countP
      (entryKey? · = some (keyOf phrase)) = 1 := by
  have mem := keyOf_mem_entries h existing
  obtain ⟨key, -, distinct⟩ := keyed_entries phrases existing
  have something : entries phrases existing ≠ [] := by
    intro nothing
    rw [nothing] at mem
    cases mem
  have once : ((entries phrases existing).map Prod.fst).count (keyOf phrase) = 1 := by
    rw [distinct.count, if_pos mem]
  rw [splitOn_merge, if_neg something, List.countP_map, ← once, List.count, List.countP_map]
  refine List.countP_congr fun e entry => ?_
  simp [key e entry]

/-- No carriage return gets into a table from a text without one. -/
theorem notMem_merge (phrases : List String) {existing : Option String}
    (h : ∀ text, existing = some text → '\r' ∉ text.toList) :
    '\r' ∉ (merge phrases existing).toList := by
  have lines : ∀ e ∈ entries phrases existing, '\r' ∉ e.2 := by
    intro e mem
    rcases mem_entries mem with kept | ⟨phrase, rfl⟩
    · cases existing with
      | none => cases kept
      | some text =>
        intro inside
        exact h text rfl (mem_of_mem_splitOn (mem_keptFrom kept).2.1 inside)
    · exact notMem_identityLine phrase (by simp)
  rw [merge_eq_entries]
  refine notMem_joinWith (by decide) fun line mem => ?_
  obtain ⟨cs, isLine, rfl⟩ := List.mem_map.mp mem
  obtain ⟨e, entry, rfl⟩ := List.mem_map.mp isLine
  simpa using lines e entry

end ShortcutRelay.Localization.PhraseTable
