import ShortcutRelay.Text.Pieces

/-!
# Lines and replacements

* `splitOn_eq` : the pieces of a text as the library of lists has them;
* `splitOn_joinWith`, `splitOn_joinLines` : texts and lines that are joined are found again, unless
  there are none, `eq_of_joinWith_eq` : so they can be told from what joins them;
* `notMem_of_mem_splitOn`, `mem_of_mem_splitOn` : what stands in a piece;
* `infix_joinWith` : each of some texts stands in the text that joins them;
* `splitOn_lines` : lines that end with a break are found in front of what follows them;
* `replaceFrom_old`, `replaceFrom_of_notMem` : where a text is replaced, and where it cannot begin;
* `toList_replaceAll_char` : one character is replaced wherever it stands.
-/

namespace ShortcutRelay.Text

theorem splitOn_eq (sep : Char) (cs : List Char) : splitOn sep cs = List.splitOn sep cs := by
  induction cs with
  | nil => simp [splitOn]
  | cons c cs ih =>
    unfold splitOn
    rw [List.splitOn_cons_eq_if_modifyHead, ← ih]
    cases pieces : splitOn sep cs with
    | nil => exact absurd pieces (splitOn_ne_nil sep cs)
    | cons piece pieces => by_cases h : c = sep <;> simp [h]

theorem intercalate_splitOn (sep : Char) (cs : List Char) :
    List.intercalate [sep] (splitOn sep cs) = cs := by
  rw [splitOn_eq]
  exact List.intercalate_splitOn sep

theorem notMem_of_mem_splitOn {sep : Char} {cs piece : List Char} (h : piece ∈ splitOn sep cs) :
    sep ∉ piece := by
  induction cs generalizing piece with
  | nil =>
    simp only [splitOn, List.mem_singleton] at h
    simp [h]
  | cons c cs ih =>
    unfold splitOn at h
    cases pieces : splitOn sep cs with
    | nil => exact absurd pieces (splitOn_ne_nil sep cs)
    | cons first others =>
      rw [pieces] at h ih
      by_cases here : c = sep
      · simp only [here, if_true, List.mem_cons] at h
        rcases h with rfl | h
        · exact List.not_mem_nil
        · exact ih (List.mem_cons.mpr h)
      · simp only [here, if_false, List.mem_cons] at h
        rcases h with rfl | h
        · have later := ih (List.mem_cons_self ..)
          simp [Ne.symm here, later]
        · exact ih (List.mem_cons_of_mem _ h)

theorem mem_of_mem_splitOn {sep x : Char} {cs piece : List Char} (h : piece ∈ splitOn sep cs)
    (mem : x ∈ piece) : x ∈ cs := by
  rw [← intercalate_splitOn sep cs]
  generalize splitOn sep cs = pieces at h ⊢
  induction pieces with
  | nil => cases h
  | cons first others ih =>
    cases others with
    | nil =>
      obtain rfl := List.mem_singleton.mp h
      simpa using mem
    | cons second others =>
      rw [List.intercalate_cons_cons]
      rcases List.mem_cons.mp h with rfl | later
      · simp [mem]
      · simp [ih later]

/-! ## Texts that are joined -/

theorem intercalate_cons {α : Type} (sep first : List α) (others : List (List α)) :
    sep.intercalate (first :: others) = first ++ others.flatMap (sep ++ ·) := by
  induction others generalizing first with
  | nil => simp
  | cons second others ih =>
    rw [List.intercalate_cons_cons, ih, List.flatMap_cons, List.append_assoc, List.append_assoc]

theorem forall_mem_intercalate {α : Type} {P : α → Prop} {sep : List α} (between : ∀ x ∈ sep, P x)
    {parts : List (List α)} (each : ∀ part ∈ parts, ∀ x ∈ part, P x) :
    ∀ x ∈ sep.intercalate parts, P x := by
  cases parts with
  | nil => exact fun _ mem => nomatch mem
  | cons first others =>
    intro x mem
    rw [intercalate_cons, List.mem_append, List.mem_flatMap] at mem
    rcases mem with here | ⟨part, other, mem⟩
    · exact each first (List.mem_cons_self ..) x here
    · rcases List.mem_append.mp mem with inside | there
      · exact between x inside
      · exact each part (List.mem_cons_of_mem _ other) x there

theorem toList_joinWith_cons (sep text : String) (texts : List String) :
    (joinWith sep (text :: texts)).toList =
      text.toList ++ texts.flatMap fun t => sep.toList ++ t.toList := by
  rw [joinWith, String.toList_ofList, List.map_cons, intercalate_cons, List.flatMap_map]

theorem toList_joinLines (lines : List (List Char)) :
    (joinLines (lines.map String.ofList)).toList = List.intercalate ['\n'] lines := by
  simp [joinLines, joinWith, Function.comp_def]

/-- Each of some texts stands in the text that joins them. -/
theorem infix_joinWith (sep : String) {text : String} {texts : List String} (h : text ∈ texts) :
    text.toList <:+: (joinWith sep texts).toList := by
  induction texts with
  | nil => cases h
  | cons first others ih =>
    rw [toList_joinWith_cons]
    rcases List.mem_cons.mp h with rfl | later
    · exact (List.prefix_append _ _).isInfix
    · cases others with
      | nil => cases later
      | cons second others =>
        have rest := ih later
        rw [toList_joinWith_cons] at rest
        refine rest.trans ?_
        simp only [List.flatMap_cons, ← List.append_assoc]
        rw [List.append_assoc (first.toList ++ sep.toList)]
        exact (List.suffix_append _ _).isInfix

theorem infix_joinLines {line : String} {lines : List String} (h : line ∈ lines) :
    line.toList <:+: (joinLines lines).toList :=
  infix_joinWith "\n" h

theorem notMem_joinWith {x : Char} {sep : String} (between : x ∉ sep.toList) {texts : List String}
    (each : ∀ t ∈ texts, x ∉ t.toList) : x ∉ (joinWith sep texts).toList := by
  have front : ∀ c ∈ sep.toList, c ≠ x := fun c inside same => between (same ▸ inside)
  have others : ∀ part ∈ texts.map String.toList, ∀ c ∈ part, c ≠ x :=
    List.forall_mem_map.mpr fun t mem c inside same => each t mem (same ▸ inside)
  rw [joinWith, String.toList_ofList]
  exact fun mem => forall_mem_intercalate front others x mem rfl

/-- Texts that are joined are found again, unless there are none. -/
theorem splitOn_joinWith {sep : Char} {texts : List String} (some_text : texts ≠ [])
    (whole : ∀ t ∈ texts, sep ∉ t.toList) :
    splitOn sep (joinWith (String.ofList [sep]) texts).toList = texts.map String.toList := by
  rw [joinWith, String.toList_ofList, String.toList_ofList, splitOn_eq]
  exact List.splitOn_intercalate sep (List.forall_mem_map.mpr whole) (by simpa using some_text)

/-- Texts without the character between them can be told from what joins them. -/
theorem eq_of_joinWith_eq {sep : Char} {texts texts' : List String} (some_text : texts ≠ [])
    (some_text' : texts' ≠ []) (whole : ∀ t ∈ texts, sep ∉ t.toList)
    (whole' : ∀ t ∈ texts', sep ∉ t.toList)
    (same : joinWith (String.ofList [sep]) texts = joinWith (String.ofList [sep]) texts') :
    texts = texts' := by
  have pieces := splitOn_joinWith some_text whole
  rw [same, splitOn_joinWith some_text' whole'] at pieces
  exact ((List.map_inj_right fun _ _ => String.toList_inj.mp).mp pieces).symm

/-- Lines that are joined are found again, unless there are none. -/
theorem splitOn_joinLines {lines : List (List Char)} (some_line : lines ≠ [])
    (whole : ∀ line ∈ lines, '\n' ∉ line) :
    splitOn '\n' (joinLines (lines.map String.ofList)).toList = lines := by
  rw [toList_joinLines, splitOn_eq]
  exact List.splitOn_intercalate '\n' whole some_line

theorem toList_joinLines_concat (lines : List String) :
    (joinLines (lines ++ [""])).toList = lines.flatMap fun line => line.toList ++ ['\n'] := by
  induction lines with
  | nil => rfl
  | cons line lines ih =>
    rw [List.cons_append, joinLines, toList_joinWith_cons, List.flatMap_cons, ← ih]
    cases lines with
    | nil => simp [joinLines, joinWith]
    | cons second lines =>
      rw [List.cons_append, joinLines, toList_joinWith_cons]
      simp

/-- Lines that end with a break are found in front of what follows them. -/
theorem splitOn_lines {lines : List String} (whole : ∀ line ∈ lines, '\n' ∉ line.toList) (rest : List Char) :
    splitOn '\n' ((lines.flatMap fun line => line.toList ++ ['\n']) ++ rest) =
      lines.map String.toList ++ splitOn '\n' rest := by
  induction lines with
  | nil => rfl
  | cons line lines ih =>
    have later := ih fun other mem => whole other (.tail line mem)
    have first := List.splitOn_eq_singleton (whole line (.head _))
    rw [List.flatMap_cons, List.append_assoc, List.append_assoc, splitOn_eq, List.singleton_append,
      List.splitOn_append_cons_self, first, ← splitOn_eq, later]
    rfl

/-! ## Replacements -/

theorem replaceFrom_skip (old new front rest : List Char) :
    replaceFrom old new front.length (front ++ rest) = replaceFrom old new 0 rest := by
  induction front with
  | nil => rfl
  | cons c front ih => exact ih

variable {first : Char} {others new : List Char}

theorem replaceFrom_old (rest : List Char) :
    replaceFrom (first :: others) new 0 (first :: others ++ rest) =
      new ++ replaceFrom (first :: others) new 0 rest := by
  have here : (first :: others).isPrefixOf (first :: (others ++ rest)) = true := by simp
  rw [List.cons_append, replaceFrom, if_pos here]
  congr 1
  exact replaceFrom_skip _ _ others rest

theorem replaceFrom_other {cs : List Char} {c : Char} (other : ¬ first :: others <+: c :: cs) :
    replaceFrom (first :: others) new 0 (c :: cs) = c :: replaceFrom (first :: others) new 0 cs := by
  rw [replaceFrom, if_neg (by simpa using other)]

/-- A text is not replaced where it cannot begin. -/
theorem replaceFrom_of_notMem {front : List Char} (apart : first ∉ front) (rest : List Char) :
    replaceFrom (first :: others) new 0 (front ++ rest) =
      front ++ replaceFrom (first :: others) new 0 rest := by
  induction front with
  | nil => rfl
  | cons c front ih =>
    rw [List.mem_cons, not_or] at apart
    have other : ¬ first :: others <+: c :: (front ++ rest) := fun here =>
      apart.1 (List.cons_prefix_cons.mp here).1
    rw [List.cons_append, replaceFrom_other other, ih apart.2, List.cons_append]

theorem replaceFrom_char (x : Char) (new cs : List Char) :
    replaceFrom [x] new 0 cs = cs.flatMap fun c => if c = x then new else [c] := by
  induction cs with
  | nil => rfl
  | cons c cs ih =>
    rw [List.flatMap_cons, ← ih]
    by_cases here : c = x
    · rw [if_pos here, here]
      exact replaceFrom_old cs
    · have other : ¬ [x] <+: c :: cs := fun begins => here (List.cons_prefix_cons.mp begins).1.symm
      rw [if_neg here, replaceFrom_other other]
      rfl

/-- One character is replaced wherever it stands. -/
theorem toList_replaceAll_char {old : String} {x : Char} (single : old.toList = [x]) (new s : String) :
    (replaceAll old new s).toList = s.toList.flatMap fun c => if c = x then new.toList else [c] := by
  rw [replaceAll, String.toList_ofList, single, replaceFrom_char]

end ShortcutRelay.Text
