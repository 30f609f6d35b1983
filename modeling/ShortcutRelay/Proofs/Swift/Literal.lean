import ShortcutRelay.Proofs.Except
import ShortcutRelay.Proofs.Text.Pieces
import ShortcutRelay.Swift.Literal

/-!
# Literals read back

* `readLiteral value` : the text that a string literal stands for, where `value` gives the texts of
  the expressions in it;
* `escapeChar_cases` : a character is escaped by a backslash and a letter, or stands for itself;
* `readBody_escape` : an escaped text is read back, whatever follows it; `escape_injective`;
* `notMem_escape` : no raw line break or tabulator stands in an escaped text;
* `escape_eq_escapeInTurn` : it is the text in which one special character after the other is replaced, and
  in `escape_undone` a reader undoes it;
* `okWhere_formatValue` : the values that can be written.
-/

namespace ShortcutRelay.Swift
open Text

/-- The characters that make an escape after a backslash, with those that they stand for. -/
def escapes : List (Char × Char) :=
  [('\\', '\\'), ('"', '"'), ('n', '\n'), ('r', '\r'), ('t', '\t')]

/-- The text that a literal stands for from after its opening quote, with what follows its closing
one. A parenthesis after a backslash opens an expression; its characters so far are the first
argument. Raw line breaks and other escapes are refused. -/
def readBody (value : List Char → Option (List Char)) :
    Option (List Char) → List Char → Option (List Char × List Char)
  | _, [] => none
  | some expression, ')' :: cs => do
    let inserted ← value expression
    (readBody value none cs).map fun (text, rest) => (inserted ++ text, rest)
  | some expression, c :: cs => readBody value (some (expression ++ [c])) cs
  | none, '"' :: cs => some ([], cs)
  | none, '\\' :: '(' :: cs => readBody value (some []) cs
  | none, '\\' :: e :: cs => do
    let meant ← escapes.lookup e
    (readBody value none cs).map fun (text, rest) => (meant :: text, rest)
  | none, c :: cs =>
    if c ∈ ['\\', '\n', '\r'] then none
    else (readBody value none cs).map fun (text, rest) => (c :: text, rest)

/-- The text that a literal stands for, with what follows it. -/
def readLiteral (value : List Char → Option (List Char)) :
    List Char → Option (List Char × List Char)
  | '"' :: cs => readBody value none cs
  | _ => none

/-! ## Escaped texts -/

/-- A character is escaped by a backslash and a letter that means it, or it stands for itself. -/
theorem escapeChar_cases (c : Char) :
    (∃ e, escapes.lookup e = some c ∧ e ∉ ['(', '\n', '\r', '\t'] ∧ escapeChar c = ['\\', e]) ∨
      c ∉ ['\\', '"', '\n', '\r', '\t'] ∧ escapeChar c = [c] := by
  by_cases special : c ∈ ['\\', '"', '\n', '\r', '\t']
  · left
    simp only [List.mem_cons, List.not_mem_nil, or_false] at special
    rcases special with rfl | rfl | rfl | rfl | rfl
    · exact ⟨'\\', rfl, by decide, rfl⟩
    · exact ⟨'"', rfl, by decide, rfl⟩
    · exact ⟨'n', rfl, by decide, rfl⟩
    · exact ⟨'r', rfl, by decide, rfl⟩
    · exact ⟨'t', rfl, by decide, rfl⟩
  · right
    refine ⟨special, ?_⟩
    simp only [List.mem_cons, List.not_mem_nil, or_false, not_or] at special
    simp [escapeChar, special]

theorem toList_escape (s : String) : (escape s).toList = s.toList.flatMap escapeChar := by
  rw [escape, String.toList_ofList]

theorem escape_append (s t : String) : escape (s ++ t) = escape s ++ escape t := by
  rw [← String.toList_inj, String.toList_append, toList_escape, toList_escape, toList_escape,
    String.toList_append, List.flatMap_append]

/-- No raw line break or tabulator stands in an escaped text. -/
theorem notMem_escape (s : String) {c : Char} (h : c ∈ ['\n', '\r', '\t']) :
    c ∉ (escape s).toList := by
  rw [toList_escape, List.mem_flatMap]
  rintro ⟨x, -, mem⟩
  rcases escapeChar_cases x with ⟨e, -, other, same⟩ | ⟨other, same⟩
  · simp only [same, List.mem_cons, List.not_mem_nil, or_false] at mem h
    rcases mem with rfl | rfl
    · rcases h with h | h | h <;> cases h
    · exact other (List.mem_cons_of_mem _ (by simpa using h))
  · rw [same, List.mem_singleton] at mem
    subst mem
    simp only [List.mem_cons, List.not_mem_nil, or_false] at h
    rcases h with rfl | rfl | rfl <;> simp at other

variable {value : List Char → Option (List Char)}

theorem readBody_escapeChar (c : Char) (cs : List Char) :
    readBody value none (escapeChar c ++ cs) =
      (readBody value none cs).map fun (text, rest) => (c :: text, rest) := by
  rcases escapeChar_cases c with ⟨e, means, other, same⟩ | ⟨other, same⟩
  · have opens : e ≠ '(' := by
      rintro rfl
      exact other (by decide)
    rw [same]
    show readBody value none ('\\' :: e :: cs) = _
    rw [readBody.eq_6 _ _ _ opens, means]
    rfl
  · rw [same]
    simp only [List.mem_cons, List.not_mem_nil, or_false, not_or] at other
    simp [readBody, other]

/-- An escaped text is read back, whatever follows it. -/
theorem readBody_escape (s cs : List Char) :
    readBody value none (s.flatMap escapeChar ++ cs) =
      (readBody value none cs).map fun (text, rest) => (s ++ text, rest) := by
  induction s with
  | nil => simp
  | cons c s ih =>
    rw [List.flatMap_cons, List.append_assoc, readBody_escapeChar, ih, Option.map_map]
    rfl

/-- Texts that are escaped alike are the same. -/
theorem escape_injective : Function.Injective escape := by
  intro s t same
  have closed : readBody (fun _ => none) none ['"'] = some ([], []) := rfl
  have read (u : String) :
      readBody (fun _ => none) none ((escape u).toList ++ ['"']) = some (u.toList, []) := by
    rw [toList_escape, readBody_escape, closed]
    simp
  have texts := read s
  rw [same, read t] at texts
  have chars : t.toList = s.toList := by simpa using texts
  exact (String.toList_inj.mp chars).symm

/-! ## Replacements in turn -/

/-- The text with its special characters replaced by escapes, one character after the other. The backslash
comes first, since the others bring new ones. -/
def escapeInTurn (s : String) : String :=
  replaceAll "\t" "\\t" (replaceAll "\r" "\\r" (replaceAll "\n" "\\n"
    (replaceAll "\"" "\\\"" (replaceAll "\\" "\\\\" s))))

/-- What a replacement brings is not replaced later. -/
theorem escape_eq_escapeInTurn (s : String) : escape s = escapeInTurn s := by
  have inTurn : (escapeInTurn s).toList = s.toList.flatMap fun c =>
      ((((if c = '\\' then ['\\', '\\'] else [c]).flatMap
        fun c => if c = '"' then ['\\', '"'] else [c]).flatMap
        fun c => if c = '\n' then ['\\', 'n'] else [c]).flatMap
        fun c => if c = '\r' then ['\\', 'r'] else [c]).flatMap
        fun c => if c = '\t' then ['\\', 't'] else [c] := by
    simp only [← List.flatMap_assoc]
    rw [escapeInTurn, toList_replaceAll_char rfl, toList_replaceAll_char rfl, toList_replaceAll_char rfl,
      toList_replaceAll_char rfl, toList_replaceAll_char rfl]
    rfl
  rw [← String.toList_inj, toList_escape, inTurn]
  refine congrArg (s.toList.flatMap ·) (funext fun c => ?_)
  by_cases special : c ∈ ['\\', '"', '\n', '\r', '\t']
  · simp only [List.mem_cons, List.not_mem_nil, or_false] at special
    rcases special with rfl | rfl | rfl | rfl | rfl <;> decide
  · simp only [List.mem_cons, List.not_mem_nil, or_false, not_or] at special
    simp [escapeChar, special]

/-- Escaping is replacing in turn. A reader behind an opening quotation mark, who knows the five escapes,
gets the text from its escaped form and stops at the quotation mark behind it, whatever follows, and
whatever expressions in literals are worth to him, so also where he refuses them all. No line break or
tabulator is left, texts are escaped part by part, and different texts stay different. -/
theorem escape_undone :
    (∀ s, escape s = escapeInTurn s) ∧
    (∀ value s rest, readBody value none ((escape s).toList ++ '"' :: rest) = some (s.toList, rest)) ∧
    (∀ s, '\n' ∉ (escape s).toList ∧ '\r' ∉ (escape s).toList ∧ '\t' ∉ (escape s).toList) ∧
    (∀ s t, escape (s ++ t) = escape s ++ escape t) ∧
    Function.Injective escape := by
  refine ⟨escape_eq_escapeInTurn, fun value s rest => ?_, fun s => ?_, escape_append, escape_injective⟩
  · have closed : readBody value none ('"' :: rest) = some ([], rest) := rfl
    rw [toList_escape, readBody_escape, closed]
    simp
  · exact ⟨notMem_escape s (by simp), notMem_escape s (by simp), notMem_escape s (by simp)⟩

/-- With the backslash last, the backslash of an escape would be escaped. -/
example : replaceAll "\\" "\\\\" (replaceAll "\"" "\\\"" "\"") ≠ escape "\"" := by
  decide

/-! ## Values -/

theorem okWhere_wholeText (n : Int) :
    OkWhere (Decimal.isWritable n = true) .tooManyDigits (wholeText n) :=
  .ite _

theorem toString_of_wholeText {n : Int} {s : String} (h : wholeText n = .ok s) : toString n = s := by
  unfold wholeText at h
  split at h
  · exact Except.ok.inj h
  · cases h

theorem okWhere_plainText (d : Document) : OkWhere (d.isShowable = true) .tooManyDigits d.plainText := by
  unfold Document.plainText
  split
  · exact .of_ok rfl _
  · exact .of_ok rfl _
  · exact .of_ok rfl _
  · exact .ite _

/-- The values that can be written are those that can be shown in a message. -/
theorem okWhere_formatValue (d : Document) :
    OkWhere (d.isShowable = true) .tooManyDigits (formatValue d) := by
  have plain := okWhere_plainText d
  cases d with
  | int n => exact okWhere_wholeText n
  | bool | float => exact .of_ok rfl _
  | _ => exact plain

/-- A condition is there for every value, or it ends with the value. -/
theorem condition_cases (key : String) (d : Document) :
    (∃ s, condition key d = .ok s) ∨ ∃ front : String, condition key d = (front ++ ·) <$> formatValue d := by
  cases d with
  | int | float => exact .inr ⟨_, rfl⟩
  | _ => exact .inl ⟨_, rfl⟩

theorem condition_int (key : String) {n : Int} (short : Decimal.isWritable n = true) :
    condition key (.int n) =
      .ok ("defaults.double(forKey: " ++ literal key ++ ")" ++ " == " ++ toString n) := by
  have digits : wholeText n = .ok (toString n) := if_pos short
  change (fun text => _ ++ text) <$> wholeText n = _
  rw [digits]
  rfl

end ShortcutRelay.Swift
