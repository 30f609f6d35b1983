import ShortcutRelay.Proofs.Localization.PhraseTable

/-!
# The lines of a phrase table

The lines that a merge keeps and adds, said by the grammar of entries and by what stands in front of
each line.

* `Quoted cs` : `cs` may stand between quotes, `IsEntry line key` : `line` begins with an entry of `key`;
* `entryKey?_eq_some_iff` : the key of a line is read exactly where the line begins with an entry of it;
* `picked new front xs` : the elements of `xs` that are new after those in front of them;
* `keptFrom_eq_picked`, `newKeys_eq_picked` : the lines that are kept and the keys that are added;
* `merge_lines` : the lines of a merged table, whose keys are distinct and which has one line for each
  phrase.
-/

namespace ShortcutRelay.Localization.PhraseTable
open Text

/-! ## Entries -/

/-- What may stand between quotes: characters that are no quotes and no backslashes, and backslashes,
each with the character behind it. -/
inductive Quoted : List Char → Prop
  | nil : Quoted []
  | plain {c : Char} {cs : List Char} (other : c ∉ ['"', '\\']) (rest : Quoted cs) : Quoted (c :: cs)
  | escaped (c : Char) {cs : List Char} (rest : Quoted cs) : Quoted ('\\' :: c :: cs)

/-- The line begins with an entry `"key" = "value";`, with any blanks around the sign. -/
inductive IsEntry : List Char → List Char → Prop
  | intro {key value before after : List Char} (rest : List Char) (quotedKey : Quoted key)
    (quotedValue : Quoted value) (blankBefore : ∀ c ∈ before, isBlank c = true)
    (blankAfter : ∀ c ∈ after, isBlank c = true) :
    IsEntry ('"' :: (key ++ '"' :: (before ++ '=' :: (after ++ '"' :: (value ++ '"' :: ';' :: rest))))) key

theorem readQuoted_of_quoted {cs : List Char} (quoted : Quoted cs) (unbroken : '\n' ∉ cs)
    (rest : List Char) : readQuoted (cs ++ '"' :: rest) = some (cs, rest) := by
  induction quoted with
  | nil => rfl
  | @plain c cs other _ ih =>
    simp only [List.mem_cons, List.not_mem_nil, or_false, not_or] at other
    have later := ih fun mem => unbroken (.tail c mem)
    simp [readQuoted, other, later]
  | @escaped c cs _ ih =>
    have later := ih fun mem => unbroken (.tail _ (.tail _ mem))
    have same_line : c ≠ '\n' := fun same => unbroken (same ▸ .tail _ (.head _))
    simp [readQuoted, same_line, later]

theorem quoted_of_readQuoted {cs text rest : List Char} (read : readQuoted cs = some (text, rest)) :
    Quoted text ∧ cs = text ++ '"' :: rest := by
  fun_induction readQuoted cs generalizing text rest with
  | case1 => cases read
  | case2 cs =>
    cases read
    exact ⟨.nil, rfl⟩
  | case3 => cases read
  | case4 => cases read
  | case5 c cs _ ih =>
    obtain ⟨⟨inner, left⟩, found, same⟩ := Option.map_eq_some_iff.mp read
    cases same
    obtain ⟨quoted, rfl⟩ := ih found
    exact ⟨.escaped c quoted, rfl⟩
  | case6 c cs noQuote _ noBackslash ih =>
    obtain ⟨⟨inner, left⟩, found, same⟩ := Option.map_eq_some_iff.mp read
    cases same
    obtain ⟨quoted, rfl⟩ := ih found
    have backslash : c ≠ '\\' := by
      intro same
      cases inner with
      | nil => exact noBackslash _ _ same rfl
      | cons d inner => exact noBackslash _ _ same rfl
    exact ⟨.plain (by simpa using ⟨noQuote, backslash⟩) quoted, rfl⟩

theorem dropWhile_blanks {blanks : List Char} (blank : ∀ c ∈ blanks, isBlank c = true) {c : Char}
    (other : isBlank c = false) (rest : List Char) :
    (blanks ++ c :: rest).dropWhile isBlank = c :: rest := by
  rw [List.dropWhile_append_of_pos blank, List.dropWhile_cons_of_neg (by rw [other]; exact Bool.false_ne_true)]

theorem quotedAt?_eq_some {cs text rest : List Char} (read : quotedAt? cs = some (text, rest)) :
    Quoted text ∧ cs = '"' :: (text ++ '"' :: rest) := by
  unfold quotedAt? at read
  split at read
  · obtain ⟨quoted, rfl⟩ := quoted_of_readQuoted read
    exact ⟨quoted, rfl⟩
  · cases read

/-- The key of a line is read exactly where the line begins with an entry of it. -/
theorem entryKey?_eq_some_iff {line key : List Char} (unbroken : '\n' ∉ line) :
    entryKey? line = some key ↔ IsEntry line key := by
  constructor
  · intro read
    obtain ⟨⟨found, rest⟩, first, behindKey⟩ := Option.bind_eq_some_iff.mp read
    obtain ⟨quotedKey, rfl⟩ := quotedAt?_eq_some first
    dsimp only at behindKey
    split at behindKey
    · next behind sign =>
      obtain ⟨⟨value, tail⟩, second, behindValue⟩ := Option.bind_eq_some_iff.mp behindKey
      obtain ⟨quotedValue, opens⟩ := quotedAt?_eq_some second
      split at behindValue
      · next closes =>
        obtain ⟨rfl, rfl⟩ := Prod.mk.inj closes
        cases behindValue
        have before := List.takeWhile_append_dropWhile (p := isBlank) (l := rest)
        have after := List.takeWhile_append_dropWhile (p := isBlank) (l := behind)
        rw [sign] at before
        rw [opens] at after
        rw [← before, ← after]
        exact .intro _ quotedKey quotedValue (List.all_eq_true.mp List.all_takeWhile)
          (List.all_eq_true.mp List.all_takeWhile)
      · cases behindValue
    · cases behindKey
  · rintro ⟨rest, quotedKey, quotedValue, blankBefore, blankAfter⟩
    simp only [List.mem_cons, List.mem_append, not_or] at unbroken
    obtain ⟨-, keyLine, -, -, -, -, -, valueLine, -⟩ := unbroken
    have equals : isBlank '=' = false := by decide
    have quote : isBlank '"' = false := by decide
    simp [entryKey?, quotedAt?, readQuoted_of_quoted, quotedKey, keyLine, quotedValue, valueLine,
      dropWhile_blanks blankBefore equals, dropWhile_blanks blankAfter quote]

/-! ## What is new -/

section Picked
open Classical

variable {α : Type} (new : List α → α → Prop)

/-- The elements of a list that are new after all those in front of them; `front` precedes the list. -/
noncomputable def picked (front xs : List α) : List α :=
  (xs.zipIdx.filter fun x => new (front ++ xs.take x.2) x.1).map Prod.fst

theorem picked_cons (front : List α) (x : α) (xs : List α) :
    picked new front (x :: xs) = (if new front x then [x] else []) ++ picked new (front ++ [x]) xs := by
  have later : ((xs.zipIdx 1).filter fun y => new (front ++ (x :: xs).take y.2) y.1).map Prod.fst =
      picked new (front ++ [x]) xs := by
    rw [List.zipIdx_succ, List.filter_map, List.map_map]
    simp only [picked, Function.comp_def, List.take_succ_cons, List.append_assoc, List.cons_append,
      List.nil_append]
    rfl
  unfold picked at later ⊢
  rw [List.zipIdx_cons, ← later]
  by_cases isNew : new front x <;> simp [isNew]

theorem mem_picked {front before after : List α} {x : α} (isNew : new (front ++ before) x) :
    x ∈ picked new front (before ++ x :: after) := by
  induction before generalizing front with
  | nil =>
    rw [List.append_nil] at isNew
    rw [List.nil_append, picked_cons, if_pos isNew]
    exact .head _
  | cons y before ih =>
    rw [List.cons_append, picked_cons]
    apply List.mem_append_right
    apply ih
    rwa [List.append_assoc, List.singleton_append]

end Picked

/-- The line begins with an entry of a key that no line in front of it has. -/
def IsNewEntry (front : List (List Char)) (line : List Char) : Prop :=
  ∃ key, IsEntry line key ∧ ∀ earlier ∈ front, ¬ IsEntry earlier key

/-- The phrase has a key that no line of a table and no phrase in front of it has. -/
def IsNewPhrase (table : List (List Char)) (front : List String) (phrase : String) : Prop :=
  (∀ line ∈ table, ¬ IsEntry line (keyOf phrase)) ∧ ∀ earlier ∈ front, keyOf earlier ≠ keyOf phrase

/-- The lines that are kept are the new entries. The keys that were seen are those of the lines in
front. -/
theorem keptFrom_eq_picked {seen front lines : List (List Char)} (unbroken : ∀ line ∈ lines, '\n' ∉ line)
    (known : ∀ key, key ∈ seen ↔ ∃ line ∈ front, IsEntry line key) :
    (keptFrom seen lines).map Prod.snd = picked IsNewEntry front lines := by
  induction lines generalizing seen front with
  | nil => rfl
  | cons line lines ih =>
    have here {key : List Char} : entryKey? line = some key ↔ IsEntry line key :=
      entryKey?_eq_some_iff (unbroken line (.head _))
    have others : ∀ l ∈ lines, '\n' ∉ l := fun l mem => unbroken l (.tail line mem)
    have more (other : List Char) :
        (∃ l ∈ front ++ [line], IsEntry l other) ↔ other ∈ seen ∨ IsEntry line other := by
      simp [known, or_and_right, exists_or]
    rw [picked_cons]
    unfold keptFrom
    cases found : entryKey? line with
    | none =>
      have noEntry (key : List Char) : ¬ IsEntry line key := fun entry => by simp [here.mpr entry] at found
      have old : ¬ IsNewEntry front line := by
        rintro ⟨key, entry, -⟩
        exact noEntry key entry
      rw [if_neg old, List.nil_append]
      apply ih others
      intro key
      rw [more, or_iff_left (noEntry key)]
    | some key =>
      have only {other : List Char} : IsEntry line other ↔ other = key := by
        rw [← here, found, Option.some.injEq, eq_comm]
      dsimp only
      split
      · next seenBefore =>
        have old : ¬ IsNewEntry front line := by
          rintro ⟨other, entry, first⟩
          obtain rfl := only.mp entry
          obtain ⟨earlier, mem, same⟩ := (known _).mp seenBefore
          exact first earlier mem same
        rw [if_neg old, List.nil_append]
        apply ih others
        intro other
        rw [more, only, or_iff_left_of_imp]
        rintro rfl
        exact seenBefore
      · next unseen =>
        have new : IsNewEntry front line :=
          ⟨key, only.mpr rfl, fun earlier mem entry => unseen ((known key).mpr ⟨earlier, mem, entry⟩)⟩
        rw [if_pos new, List.map_cons, List.singleton_append]
        congr 1
        apply ih others
        intro other
        rw [more, only, List.mem_cons, or_comm]

/-- The keys that are added are those of the new phrases. The keys that are known are those of the table
and of the phrases in front. -/
theorem newKeys_eq_picked {seen table : List (List Char)} {front phrases : List String}
    (known : ∀ key, key ∈ seen ↔ (∃ line ∈ table, IsEntry line key) ∨ ∃ earlier ∈ front, keyOf earlier = key) :
    newKeys seen phrases = (picked (IsNewPhrase table) front phrases).map keyOf := by
  induction phrases generalizing seen front with
  | nil => rfl
  | cons phrase phrases ih =>
    have isNew : IsNewPhrase table front phrase ↔ keyOf phrase ∉ seen := by
      simp [IsNewPhrase, known]
    have more (key : List Char) : ((∃ line ∈ table, IsEntry line key) ∨
        ∃ earlier ∈ front ++ [phrase], keyOf earlier = key) ↔ key ∈ seen ∨ keyOf phrase = key := by
      simp [known, or_and_right, exists_or, or_assoc]
    rw [picked_cons]
    by_cases seenBefore : keyOf phrase ∈ seen
    · rw [newKeys_known seenBefore, if_neg (mt isNew.mp (not_not_intro seenBefore)), List.nil_append]
      apply ih
      intro key
      rw [more, or_iff_left_of_imp]
      rintro rfl
      exact seenBefore
    · rw [newKeys_new seenBefore, if_pos (isNew.mpr seenBefore), List.singleton_append, List.map_cons]
      congr 1
      apply ih
      intro key
      rw [more, List.mem_cons, or_comm, eq_comm]

/-! ## Merged tables -/

def oldLines (existing : Option String) : List (List Char) :=
  match existing with
  | some text => splitOn '\n' text.toList
  | none => []

theorem notMem_oldLines {existing : Option String} : ∀ line ∈ oldLines existing, '\n' ∉ line := by
  cases existing with
  | none => exact nofun
  | some text => exact fun line mem => notMem_of_mem_splitOn mem

theorem keptLines_eq (existing : Option String) : keptLines existing = keptFrom [] (oldLines existing) := by
  cases existing <;> rfl

theorem keptLines_eq_picked (existing : Option String) :
    (keptLines existing).map Prod.snd = picked IsNewEntry [] (oldLines existing) := by
  rw [keptLines_eq]
  exact keptFrom_eq_picked notMem_oldLines (by simp)

theorem mem_keys_keptFrom {seen lines : List (List Char)} {key : List Char} :
    key ∈ (keptFrom seen lines).map Prod.fst ↔
      key ∉ seen ∧ ∃ line ∈ lines, entryKey? line = some key := by
  induction lines generalizing seen with
  | nil => simp [keptFrom]
  | cons line lines ih =>
    unfold keptFrom
    cases found : entryKey? line with
    | none => simp [ih, found]
    | some first =>
      dsimp only
      split
      · next known =>
        rw [ih]
        simp only [List.mem_cons, exists_eq_or_imp, found, Option.some.injEq]
        constructor
        · rintro ⟨unseen, later⟩
          exact ⟨unseen, .inr later⟩
        · rintro ⟨unseen, rfl | later⟩
          · exact absurd known unseen
          · exact ⟨unseen, later⟩
      · next unknown =>
        simp only [List.map_cons, List.mem_cons, ih, exists_eq_or_imp, found, Option.some.injEq, not_or]
        constructor
        · rintro (rfl | ⟨⟨-, unseen⟩, later⟩)
          · exact ⟨unknown, .inl rfl⟩
          · exact ⟨unseen, .inr later⟩
        · rintro ⟨unseen, rfl | later⟩
          · exact .inl rfl
          · by_cases same : key = first
            · exact .inl same
            · exact .inr ⟨⟨same, unseen⟩, later⟩

theorem mem_keys_keptLines {existing : Option String} {key : List Char} :
    key ∈ (keptLines existing).map Prod.fst ↔ ∃ line ∈ oldLines existing, IsEntry line key := by
  rw [keptLines_eq, mem_keys_keptFrom, and_iff_right List.not_mem_nil]
  exact exists_congr fun line => and_congr_right fun mem => entryKey?_eq_some_iff (notMem_oldLines line mem)

/-- The lines of a merged table, those of the new entries and those of the new phrases. -/
theorem entries_lines (phrases : List String) (existing : Option String) :
    (entries phrases existing).map Prod.snd = picked IsNewEntry [] (oldLines existing) ++
      (picked (IsNewPhrase (oldLines existing)) [] phrases).map fun phrase => identityLine (keyOf phrase) := by
  have known (key : List Char) : key ∈ (keptLines existing).map Prod.fst ↔
      (∃ line ∈ oldLines existing, IsEntry line key) ∨ ∃ earlier ∈ [], keyOf earlier = key := by
    simp [mem_keys_keptLines]
  rw [entries, List.map_append, keptLines_eq_picked, newKeys_eq_picked known]
  simp only [List.map_map, Function.comp_def]

theorem filter_eq_singleton {α β : Type} [DecidableEq β] {f : α → β} {xs : List α} {x : α}
    (distinct : (xs.map f).Nodup) (mem : x ∈ xs) : xs.filter (fun y => f y = f x) = [x] := by
  induction xs with
  | nil => cases mem
  | cons y ys ih =>
    rw [List.map_cons, List.nodup_cons] at distinct
    rcases List.mem_cons.mp mem with rfl | later
    · have none_left : ys.filter (fun y => f y = f x) = [] := by
        rw [List.filter_eq_nil_iff]
        intro z here same
        exact distinct.1 (of_decide_eq_true same ▸ List.mem_map_of_mem here)
      rw [List.filter_cons_of_pos (by simp), none_left]
    · have other : f y ≠ f x := fun same => distinct.1 (same ▸ List.mem_map_of_mem later)
      rw [List.filter_cons_of_neg (by simpa using other), ih distinct.2 later]

section Entries
open Classical

variable {phrases : List String} {existing : Option String} {e : List Char × List Char}

theorem isEntry_entries (mem : e ∈ entries phrases existing) {key : List Char} :
    IsEntry e.2 key ↔ e.1 = key := by
  obtain ⟨keys, lines, -⟩ := keyed_entries phrases existing
  rw [← entryKey?_eq_some_iff (lines e mem), keys e mem, Option.some.injEq]

/-- No other line of a merged table has the key of an entry. -/
theorem filter_entries (mem : e ∈ entries phrases existing) :
    ((entries phrases existing).map Prod.snd).filter (fun line => IsEntry line e.1) = [e.2] := by
  have same : (entries phrases existing).filter ((fun line => decide (IsEntry line e.1)) ∘ Prod.snd) =
      (entries phrases existing).filter fun d => d.1 = e.1 :=
    List.filter_congr fun d mem => decide_eq_decide.mpr (isEntry_entries mem)
  have alone := filter_eq_singleton (keyed_entries phrases existing).distinct mem
  rw [List.filter_map, same, alone, List.map_singleton]

/-- The first old line with the key of an entry is its line. Where there is none, its line is the identity
line of its key. -/
theorem line_of_entry (mem : e ∈ entries phrases existing) :
    e.2 = ((oldLines existing).find? fun line => IsEntry line e.1).getD (identityLine e.1) := by
  cases found : (oldLines existing).find? fun line => IsEntry line e.1 with
  | none =>
    rcases mem_entries mem with kept | ⟨phrase, rfl⟩
    · obtain ⟨line, old, isEntry⟩ := mem_keys_keptLines.mp (List.mem_map_of_mem kept)
      exact absurd (decide_eq_true isEntry) (List.find?_eq_none.mp found line old)
    · rfl
  | some line =>
    obtain ⟨isEntry, front, behind, split, others⟩ := List.find?_eq_some_iff_append.mp found
    have new : IsNewEntry ([] ++ front) line :=
      ⟨e.1, of_decide_eq_true isEntry, fun earlier here => by simpa using others earlier here⟩
    have kept : line ∈ picked IsNewEntry [] (oldLines existing) := by
      rw [split]
      exact mem_picked IsNewEntry new
    have listed : line ∈ (entries phrases existing).map Prod.snd := by
      rw [entries_lines]
      exact List.mem_append_left _ kept
    have only : line ∈ [e.2] := by
      rw [← filter_entries mem]
      exact List.mem_filter.mpr ⟨listed, isEntry⟩
    exact (List.mem_singleton.mp only).symm

end Entries

open Classical in
/-- The lines of a merged table: first the old lines that begin with an entry of a key that no old line in
front has, as they are, then an identity line for each phrase whose key no old line and no earlier phrase
has. The keys of the lines are distinct. Each phrase has a key of its own and one line, and this is the
first old one with its key where there is one. -/
theorem merge_lines (phrases : List String) (existing : Option String) :
    ∃ kept added, kept = picked IsNewEntry [] (oldLines existing) ∧
      added = (picked (IsNewPhrase (oldLines existing)) [] phrases).map
        (fun phrase => identityLine (keyOf phrase)) ∧
      merge phrases existing = joinLines ((kept ++ added).map String.ofList) ∧
      (kept ++ added ≠ [] → splitOn '\n' (merge phrases existing).toList = kept ++ added) ∧
      (∀ line ∈ kept ++ added, ∃ key, IsEntry line key) ∧
      (kept ++ added).Pairwise (fun line later => ∀ key, IsEntry line key → ¬ IsEntry later key) ∧
      ∀ phrase ∈ phrases, (∀ other, keyOf other = keyOf phrase → other = phrase) ∧
        (kept ++ added).filter (fun line => IsEntry line (keyOf phrase)) =
          [((oldLines existing).find? fun line => IsEntry line (keyOf phrase)).getD
            (identityLine (keyOf phrase))] := by
  refine ⟨_, _, rfl, rfl, ?_⟩
  rw [← entries_lines]
  refine ⟨merge_eq_entries phrases existing, ?_, ?_, ?_, ?_⟩
  · intro some_line
    rw [splitOn_merge, if_neg (by simpa using some_line)]
  · intro line mem
    obtain ⟨e, here, rfl⟩ := List.mem_map.mp mem
    exact ⟨e.1, (isEntry_entries here).mpr rfl⟩
  · have distinct := List.pairwise_map.mp (keyed_entries phrases existing).distinct
    rw [List.pairwise_map]
    refine distinct.imp_of_mem fun first second apart key one other => apart ?_
    exact ((isEntry_entries first).mp one).trans ((isEntry_entries second).mp other).symm
  · intro phrase mem
    refine ⟨fun other same => keyOf_injective same, ?_⟩
    obtain ⟨e, here, own⟩ := List.mem_map.mp (keyOf_mem_entries mem existing)
    rw [← own, filter_entries here, ← line_of_entry here]

end ShortcutRelay.Localization.PhraseTable
