import ShortcutRelay.Proofs.Text.Pieces
import ShortcutRelay.Template.Placeholder

/-!
# The parts of a message

* `parts cs` : a text cut from the left into characters and placeholders; `parts_induction`;
* `substitute value message` : the text with values in place of its placeholders, in one pass from the
  left; `substitute_none` : without values it is the text itself;
* `placeholders_eq` : the names of the placeholders that are found in the pass;
* `replaceAll_placeholder` : the placeholder of one name is replaced in one such pass;
* `parts_append`, `parts_append_of_notMem` : texts can be cut in front of a dollar sign, and behind what
  holds none.
-/

namespace ShortcutRelay.Template
open Text

/-! ## Names -/

/-- The text can be the name of a placeholder. -/
structure IsName (name : String) : Prop where
  nonempty : name.toList ≠ []
  word : ∀ c ∈ name.toList, isWord c = true

variable {name : String} {cs : List Char}

theorem toList_placeholder (name : String) :
    (placeholder name).toList = '$' :: '\x7b' :: (name.toList ++ ['\x7d']) := by
  simp [placeholder]

theorem IsName.notMem (named : IsName name) {c : Char} (other : isWord c = false) : c ∉ name.toList := by
  intro mem
  rw [named.word c mem] at other
  cases other

/-- No other character of a placeholder than its first one is a dollar sign. -/
theorem IsName.dollar_notMem (named : IsName name) : '$' ∉ '\x7b' :: (name.toList ++ ['\x7d']) := by
  simp [named.notMem (c := '$') (by decide)]

theorem placeholderAt?_placeholder (named : IsName name) (rest : List Char) :
    placeholderAt? ((placeholder name).toList ++ rest) = some name.toList := by
  have brace : isWord '\x7d' = false := by decide
  have taken : (name.toList ++ '\x7d' :: rest).takeWhile isWord = name.toList := by
    rw [List.takeWhile_append_of_pos named.word, List.takeWhile_cons_of_neg (by simp [brace]),
      List.append_nil]
  have left : (name.toList ++ '\x7d' :: rest).dropWhile isWord = '\x7d' :: rest := by
    rw [List.dropWhile_append_of_pos named.word, List.dropWhile_cons_of_neg (by simp [brace])]
  rw [toList_placeholder]
  simp [placeholderAt?, taken, left, named.nonempty]

theorem of_placeholderAt? {word : List Char} (found : placeholderAt? cs = some word) :
    IsName (String.ofList word) ∧ ∃ rest, cs = (placeholder (String.ofList word)).toList ++ rest := by
  unfold placeholderAt? at found
  split at found
  · next behind =>
    obtain ⟨⟨nonempty, closed⟩, same⟩ := Option.ite_none_right_eq_some.mp found
    cases same
    obtain ⟨rest, left⟩ := List.head?_eq_some_iff.mp closed
    have whole := List.takeWhile_append_dropWhile (p := isWord) (l := behind)
    refine ⟨⟨by simpa using nonempty, ?_⟩, rest, ?_⟩
    · rw [String.toList_ofList]
      exact List.all_eq_true.mp List.all_takeWhile
    · rw [toList_placeholder, String.toList_ofList]
      rw [left] at whole
      simp [whole]
  · cases found

theorem placeholderAt?_of_begins (named : IsName name) (here : (placeholder name).toList <+: cs) :
    placeholderAt? cs = some name.toList := by
  obtain ⟨rest, rfl⟩ := here
  exact placeholderAt?_placeholder named rest

/-! ## Parts -/

/-- A part of a message: a character, or the placeholder of a name. -/
inductive Part
  | plain (c : Char)
  | value (name : String)

/-- The parts of a text from the left. `skip` counts the characters left of the placeholder that was just
found. -/
def partsFrom : Nat → List Char → List Part
  | _, [] => []
  | skip + 1, _ :: cs => partsFrom skip cs
  | 0, c :: cs =>
    match placeholderAt? (c :: cs) with
    | some word => .value (String.ofList word) :: partsFrom (word.length + 2) cs
    | none => .plain c :: partsFrom 0 cs

def parts (cs : List Char) : List Part :=
  partsFrom 0 cs

theorem partsFrom_skip (front rest : List Char) : partsFrom front.length (front ++ rest) = parts rest := by
  induction front with
  | nil => rfl
  | cons c front ih => exact ih

theorem parts_placeholder (named : IsName name) (rest : List Char) :
    parts ((placeholder name).toList ++ rest) = .value name :: parts rest := by
  have found := placeholderAt?_placeholder named rest
  have behind := partsFrom_skip ('\x7b' :: (name.toList ++ ['\x7d'])) rest
  rw [toList_placeholder, List.cons_append] at found ⊢
  rw [parts, partsFrom, found]
  dsimp only
  rw [String.ofList_toList, ← behind]
  simp

theorem parts_cons {c : Char} (other : placeholderAt? (c :: cs) = none) :
    parts (c :: cs) = .plain c :: parts cs := by
  rw [parts, partsFrom, other]
  rfl

/-- A text is empty, begins with a placeholder, or begins with another character. -/
theorem parts_induction {motive : List Char → Prop} (nil : motive [])
    (value : ∀ name rest, IsName name → motive rest → motive ((placeholder name).toList ++ rest))
    (plain : ∀ c rest, placeholderAt? (c :: rest) = none → motive rest → motive (c :: rest)) :
    ∀ cs, motive cs
  | [] => nil
  | c :: cs => by
    cases found : placeholderAt? (c :: cs) with
    | none => exact plain c cs found (parts_induction nil value plain cs)
    | some word =>
      obtain ⟨named, rest, same⟩ := of_placeholderAt? found
      rw [same]
      exact value _ rest named (parts_induction nil value plain rest)
termination_by cs => cs.length
decreasing_by
  · simp
  · rw [same, toList_placeholder]
    simp
    omega

/-! ## One pass -/

def Part.text (value : String → Option String) : Part → List Char
  | .plain c => [c]
  | .value name => ((value name).getD (placeholder name)).toList

def render (value : String → Option String) (ps : List Part) : List Char :=
  ps.flatMap (Part.text value)

/-- The text with values in place of its placeholders, in one pass from the left. -/
def substitute (value : String → Option String) (message : String) : String :=
  String.ofList (render value (parts message.toList))

theorem toList_substitute (value : String → Option String) (message : String) :
    (substitute value message).toList = render value (parts message.toList) := by
  simp [substitute]

def names (ps : List Part) : List String :=
  ps.filterMap fun
    | .value name => some name
    | .plain _ => none

section Equations

variable (value : String → Option String) (ps : List Part)

theorem render_plain (c : Char) : render value (.plain c :: ps) = c :: render value ps := rfl

theorem render_value (name : String) : render value (.value name :: ps) =
    ((value name).getD (placeholder name)).toList ++ render value ps := rfl

theorem names_plain (c : Char) : names (.plain c :: ps) = names ps := rfl

theorem names_value (name : String) : names (.value name :: ps) = name :: names ps := rfl

end Equations

theorem render_append (value : String → Option String) (ps qs : List Part) :
    render value (ps ++ qs) = render value ps ++ render value qs := by
  simp [render]

theorem names_append (ps qs : List Part) : names (ps ++ qs) = names ps ++ names qs := by
  simp [names]

theorem render_none (cs : List Char) : render (fun _ => none) (parts cs) = cs := by
  induction cs using parts_induction with
  | nil => rfl
  | value name rest named ih =>
    rw [parts_placeholder named, render_value, ih, Option.getD_none]
  | plain c rest other ih =>
    rw [parts_cons other, render_plain, ih]

/-- Without values a text stays as it is. -/
theorem substitute_none (message : String) : substitute (fun _ => none) message = message := by
  rw [substitute, render_none, String.ofList_toList]

/-- The text of some parts depends on the values of their names only. -/
theorem render_congr {value value' : String → Option String} {ps : List Part}
    (same : ∀ name ∈ names ps, value name = value' name) : render value ps = render value' ps := by
  induction ps with
  | nil => rfl
  | cons p ps ih =>
    cases p with
    | plain c => rw [render_plain, render_plain, ih same]
    | value name =>
      have later : render value ps = render value' ps := ih fun n mem => same n (.tail _ mem)
      rw [render_value, render_value, same name (.head _), later]

theorem substitute_congr {value value' : String → Option String} {message : String}
    (same : ∀ name ∈ names (parts message.toList), value name = value' name) :
    substitute value message = substitute value' message := by
  rw [substitute, substitute, render_congr same]

theorem placeholderAt?_of_ne {c : Char} (other : c ≠ '$') (cs : List Char) :
    placeholderAt? (c :: cs) = none := by
  cases found : placeholderAt? (c :: cs) with
  | none => rfl
  | some word =>
    obtain ⟨-, rest, same⟩ := of_placeholderAt? found
    rw [toList_placeholder] at same
    exact absurd (List.cons.inj same).1 other

theorem placeholderNames_of_notMem {front : List Char} (apart : '$' ∉ front) (rest : List Char) :
    placeholderNames (front ++ rest) = placeholderNames rest := by
  induction front with
  | nil => rfl
  | cons c front ih =>
    rw [List.mem_cons, not_or] at apart
    have other := placeholderAt?_of_ne (Ne.symm apart.1) (front ++ rest)
    rw [List.cons_append, placeholderNames, other]
    exact ih apart.2

theorem placeholderNames_eq (cs : List Char) :
    (placeholderNames cs).map String.ofList = names (parts cs) := by
  induction cs using parts_induction with
  | nil => rfl
  | value name rest named ih =>
    have found := placeholderAt?_placeholder named rest
    have behind := placeholderNames_of_notMem named.dollar_notMem rest
    rw [parts_placeholder named]
    rw [toList_placeholder, List.cons_append] at found ⊢
    rw [placeholderNames, found, behind, List.map_cons, ih, String.ofList_toList, names_value]
  | plain c rest other ih =>
    rw [parts_cons other, placeholderNames, other]
    exact ih

/-- The names of the placeholders of a message are those that the pass finds. -/
theorem placeholders_eq (message : String) : placeholders message = names (parts message.toList) :=
  placeholderNames_eq message.toList

theorem isName_of_mem_parts : ∀ name ∈ names (parts cs), IsName name := by
  induction cs using parts_induction with
  | nil => exact nofun
  | value first rest named ih =>
    rw [parts_placeholder named]
    intro name mem
    rcases List.mem_cons.mp mem with rfl | later
    · exact named
    · exact ih name later
  | plain c rest other ih =>
    rw [parts_cons other]
    exact ih

theorem isName_of_mem_placeholders {message : String} (h : name ∈ placeholders message) : IsName name := by
  rw [placeholders_eq] at h
  exact isName_of_mem_parts name h

/-! ## Cutting a text -/

/-- A placeholder does not reach beyond a dollar sign. -/
theorem placeholderAt?_append {c : Char} (other : placeholderAt? (c :: cs) = none) (rest : List Char) :
    placeholderAt? (c :: cs ++ '$' :: rest) = none := by
  cases found : placeholderAt? (c :: cs ++ '$' :: rest) with
  | none => rfl
  | some word =>
    obtain ⟨named, behind, same⟩ := of_placeholderAt? found
    rcases List.append_eq_append_iff.mp same with ⟨tail, whole, left⟩ | ⟨tail, whole, left⟩
    · cases tail with
      | nil =>
        have ends := placeholderAt?_placeholder named []
        rw [whole, List.append_nil, List.append_nil, other] at ends
        cases ends
      | cons d tail =>
        obtain ⟨rfl, -⟩ := List.cons.inj left
        rw [toList_placeholder, List.cons_append] at whole
        have inside : '$' ∈ cs ++ '$' :: tail := by simp
        rw [← (List.cons.inj whole).2] at inside
        exact absurd inside named.dollar_notMem
    · rw [whole, placeholderAt?_placeholder named] at other
      cases other

/-- A text can be cut in front of a dollar sign. -/
theorem parts_append (cs rest : List Char) : parts (cs ++ '$' :: rest) = parts cs ++ parts ('$' :: rest) := by
  induction cs using parts_induction with
  | nil => rfl
  | value name behind named ih =>
    rw [List.append_assoc, parts_placeholder named, parts_placeholder named, ih, List.cons_append]
  | plain c behind other ih =>
    have still := placeholderAt?_append other rest
    rw [List.cons_append] at still ⊢
    rw [parts_cons still, parts_cons other, ih, List.cons_append]

/-- Without a dollar sign there are only characters. -/
theorem parts_append_of_notMem {front : List Char} (apart : '$' ∉ front) (rest : List Char) :
    parts (front ++ rest) = front.map .plain ++ parts rest := by
  induction front with
  | nil => rfl
  | cons c front ih =>
    rw [List.mem_cons, not_or] at apart
    rw [List.cons_append, parts_cons (placeholderAt?_of_ne (Ne.symm apart.1) _), ih apart.2]
    rfl

/-! ## The placeholder of one name -/

/-- The value of one name only. -/
def only (value : String → Option String) (name : String) : String → Option String :=
  fun other => if other = name then value other else none

theorem replaceFrom_placeholder (named : IsName name) {value : String → Option String} {text : String}
    (given : value name = some text) (cs : List Char) :
    replaceFrom (placeholder name).toList text.toList 0 cs = render (only value name) (parts cs) := by
  induction cs using parts_induction with
  | nil => rfl
  | value other rest otherNamed ih =>
    rw [parts_placeholder otherNamed]
    by_cases same : other = name
    · subst same
      have here : (only value other other).getD (placeholder other) = text := by simp [only, given]
      rw [render_value, here, ← ih, toList_placeholder, replaceFrom_old]
    · have apart : ¬ (placeholder name).toList <+: (placeholder other).toList ++ rest := by
        intro here
        have both := placeholderAt?_of_begins named here
        rw [placeholderAt?_placeholder otherNamed] at both
        exact same (String.toList_inj.mp (Option.some.inj both))
      have here : (only value name other).getD (placeholder other) = placeholder other := by simp [only, same]
      rw [render_value, here, ← ih]
      rw [toList_placeholder, toList_placeholder, List.cons_append] at apart ⊢
      rw [replaceFrom_other apart, replaceFrom_of_notMem otherNamed.dollar_notMem]
      rfl
  | plain c rest other ih =>
    rw [parts_cons other]
    have apart : ¬ (placeholder name).toList <+: c :: rest := by
      intro here
      rw [placeholderAt?_of_begins named here] at other
      cases other
    rw [toList_placeholder] at ih apart ⊢
    rw [replaceFrom_other apart, ih, render_plain]

/-- The placeholder of one name is replaced in one pass. -/
theorem replaceAll_placeholder (named : IsName name) {value : String → Option String} {text : String}
    (given : value name = some text) (message : String) :
    replaceAll (placeholder name) text message = substitute (only value name) message := by
  rw [replaceAll, replaceFrom_placeholder named given, substitute]

end ShortcutRelay.Template
