import Mathlib.Data.Bool.AllAny
import Mathlib.Data.List.Basic
import ShortcutRelay.Proofs.Swift.Literal
import ShortcutRelay.Proofs.Text.Pieces

/-!
# Lines of Swift

* `lines` : the lines of a text;
* `EndsOutside` : a line does not end inside a string literal, and `Closed` : no line of a text does;
* `Leads p s q` : a reader that stands at `p` in front of a text stands at `q` behind it, where no
  line has ended inside a literal or begins a declaration of a type;
* `Tame` : such a text is in order from a line start to its end, so in `lines_of_tame`;
* `leads_of_plain`, `leads_escape` : what changes nothing for the reader.
-/

namespace ShortcutRelay.Swift
open Text

def isLineBreak (c : Char) : Bool :=
  c == '\n' || c == '\r'

def lines (s : String) : List (List Char) :=
  s.toList.splitOnP isLineBreak

/-- What a reader of a line is in; `slash` is behind a slash that may begin a comment, `escape` behind
a backslash in a literal. -/
inductive Mode
  | code
  | slash
  | comment
  | literal
  | escape
  deriving DecidableEq

/-- What a reader is in behind a character of a line. -/
def Mode.next : Mode → Char → Mode
  | code, c => if c = '"' then literal else if c = '/' then slash else code
  | slash, c => if c = '"' then literal else if c = '/' then comment else code
  | comment, _ => comment
  | literal, c => if c = '"' then code else if c = '\\' then escape else literal
  | escape, _ => literal

def Mode.isOutside : Mode → Bool
  | literal | escape => false
  | _ => true

def EndsOutside (line : List Char) : Prop :=
  (line.foldl Mode.next .code).isOutside = true

def Closed (s : String) : Prop :=
  ∀ line ∈ lines s, EndsOutside line

instance (line : List Char) : Decidable (EndsOutside line) :=
  inferInstanceAs (Decidable (_ = true))

instance (s : String) : Decidable (Closed s) :=
  List.decidableBAll EndsOutside (lines s)

def Unbroken (s : String) : Prop :=
  ∀ c ∈ s.toList, isLineBreak c = false

/-- No line break stands in a line. -/
theorem unbroken_of_mem_lines {s : String} {line : List Char} (mem : line ∈ lines s) :
    ∀ c ∈ line, isLineBreak c = false := by
  unfold lines at mem
  generalize s.toList = cs at mem
  induction cs generalizing line with
  | nil =>
    obtain rfl := List.mem_singleton.mp mem
    exact nofun
  | cons x cs ih =>
    obtain ⟨first, others, found⟩ := List.exists_cons_of_ne_nil (List.splitOnP_ne_nil isLineBreak cs)
    rw [List.splitOnP_cons_eq_if_modifyHead, found] at mem
    rw [found] at ih
    split at mem
    · rcases List.mem_cons.mp mem with rfl | later
      · exact nofun
      · exact ih later
    · next whole =>
      rcases List.mem_cons.mp mem with rfl | later
      · exact List.forall_mem_cons.mpr ⟨Bool.eq_false_iff.mpr whole, ih (.head _)⟩
      · exact ih (.tail _ later)

/-! ## Lines of texts that are put together -/

theorem unbroken_ofList {cs : List Char} (h : cs.all (!isLineBreak ·) = true) :
    Unbroken (String.ofList cs) := by
  unfold Unbroken
  rw [String.toList_ofList]
  simpa using h

theorem Unbroken.append {s t : String} (h : Unbroken s) (h' : Unbroken t) : Unbroken (s ++ t) := by
  intro c mem
  rw [String.toList_append, List.mem_append] at mem
  exact mem.elim (h c) (h' c)

theorem lines_of_unbroken {s : String} (h : Unbroken s) : lines s = [s.toList] :=
  List.splitOnP_eq_singleton h

theorem lines_append_break (s t : String) : lines (s ++ "\n" ++ t) = lines s ++ lines t := by
  have parts : (s ++ "\n" ++ t).toList = s.toList ++ '\n' :: t.toList := by simp
  rw [lines, parts]
  exact List.splitOnP_append_cons _ _ (by decide)

theorem joinWith_cons (sep s t : String) (ts : List String) :
    joinWith sep (s :: t :: ts) = s ++ sep ++ joinWith sep (t :: ts) := by
  rw [← String.toList_inj]
  simp [joinWith, List.intercalate_cons_cons]

theorem joinWith_singleton (sep s : String) : joinWith sep [s] = s := by
  simp [joinWith]

theorem joinLines_cons (s t : String) (ts : List String) :
    joinLines (s :: t :: ts) = s ++ "\n" ++ joinLines (t :: ts) :=
  joinWith_cons "\n" s t ts

theorem joinLines_singleton (s : String) : joinLines [s] = s :=
  joinWith_singleton "\n" s

/-- The lines of joined texts are those of the texts. -/
theorem lines_joinLines {ts : List String} (some_text : ts ≠ []) :
    lines (joinLines ts) = ts.flatMap lines := by
  induction ts with
  | nil => exact absurd rfl some_text
  | cons s ts ih =>
    cases ts with
    | nil =>
      rw [joinLines_singleton]
      exact (List.append_nil _).symm
    | cons t ts =>
      have rest := ih (List.cons_ne_nil t ts)
      rw [joinLines_cons, lines_append_break, rest]
      rfl

theorem lines_infix_joinLines {t : String} {ts : List String} (mem : t ∈ ts) :
    lines t <:+: lines (joinLines ts) := by
  rw [lines_joinLines (List.ne_nil_of_mem mem)]
  exact List.infix_of_mem_flatten (List.mem_map_of_mem mem)

theorem lines_infix_between_breaks (s : String) : lines s <:+: lines ("\n" ++ s ++ "\n") := by
  have parts : "\n" ++ s ++ "\n" = "" ++ "\n" ++ (s ++ "\n" ++ "") := by
    simp [String.append_assoc]
  rw [parts, lines_append_break, lines_append_break]
  exact (List.prefix_append _ _).isInfix.trans (List.suffix_append _ _).isInfix

/-- Behind a text without line breaks the first line of a text goes on, and the others stay. -/
theorem lines_append_of_unbroken {s : String} (h : Unbroken s) (t : String) :
    ∃ line rest, lines t = line :: rest ∧ lines (s ++ t) = (s.toList ++ line) :: rest := by
  obtain ⟨line, rest, found⟩ := List.exists_cons_of_ne_nil (List.splitOnP_ne_nil isLineBreak t.toList)
  refine ⟨line, rest, found, ?_⟩
  rw [lines, String.toList_append]
  unfold Unbroken at h
  generalize s.toList = cs at h ⊢
  induction cs with
  | nil => exact found
  | cons c cs ih =>
    have later := ih fun x mem => h x (List.mem_cons_of_mem _ mem)
    have here : ¬ isLineBreak c = true := by simp [h c (List.mem_cons_self ..)]
    rw [List.cons_append, List.splitOnP_cons_eq_if_modifyHead, if_neg here, later]
    rfl

theorem closed_joinLines {ts : List String} : Closed (joinLines ts) ↔ ∀ t ∈ ts, Closed t := by
  cases ts with
  | nil => simp [Closed, joinLines, joinWith, lines, EndsOutside, Mode.isOutside]
  | cons s ts =>
    unfold Closed
    rw [lines_joinLines (List.cons_ne_nil s ts)]
    simp only [List.mem_flatMap]
    constructor
    · intro h t mem line inside
      exact h line ⟨t, mem, inside⟩
    · rintro h line ⟨t, mem, inside⟩
      exact h t mem line inside

/-! ## A reader of whole texts -/

/-- Where a reader of a text stands: at the start of a line, or further on in one. -/
inductive Cursor
  | start
  | within (mode : Mode)
  deriving DecidableEq

abbrev Cursor.code : Cursor :=
  .within .code

abbrev Cursor.literal : Cursor :=
  .within .literal

abbrev Cursor.comment : Cursor :=
  .within .comment

/-- What a reader is in. -/
def Cursor.mode : Cursor → Mode
  | start => .code
  | within m => m

/-- Where a reader stands behind a character; nowhere, where a line ends inside a literal or begins
with the letter that declarations of types begin with. -/
def Cursor.next? (p : Cursor) (c : Char) : Option Cursor :=
  if isLineBreak c then if p.mode.isOutside then some .start else none
  else if p = .start ∧ c = 's' then none
  else some (.within (p.mode.next c))

/-- A reader that stands at `p` in front of a text stands at `q` behind it. -/
def Leads (p : Cursor) (s : String) (q : Cursor) : Prop :=
  s.toList.foldlM Cursor.next? p = some q

/-- A reader gets from the start of a line through the text, and stands outside of literals then. -/
def Tame (s : String) : Prop :=
  ∃ q, Leads .start s q ∧ q.mode.isOutside = true

variable {p q r : Cursor} {s t : String}

/-- For a text given by its characters the reader is run on them. -/
theorem leads_ofList {cs : List Char} (h : cs.foldlM Cursor.next? p = some q) :
    Leads p (String.ofList cs) q := by
  unfold Leads
  rw [String.toList_ofList]
  exact h

theorem tame_ofList {cs : List Char}
    (h : (cs.foldlM Cursor.next? .start).any (·.mode.isOutside) = true) :
    Tame (String.ofList cs) := by
  obtain ⟨q, led, outside⟩ := (Option.any_eq_true _ _).mp h
  exact ⟨q, leads_ofList led, outside⟩

theorem tame_empty : Tame "" :=
  ⟨.start, rfl, rfl⟩

theorem Leads.append (h : Leads p s q) (h' : Leads q t r) : Leads p (s ++ t) r := by
  unfold Leads at h h' ⊢
  rw [String.toList_append, List.foldlM_append, h]
  exact h'

/-! A text that is read behind a fixed one, before one and between two. -/

theorem Leads.behind {front : List Char} (h : Leads q t r)
    (opened : front.foldlM Cursor.next? p = some q) : Leads p (String.ofList front ++ t) r :=
  (leads_ofList opened).append h

theorem Leads.before {back : List Char} (h : Leads p s q)
    (ended : back.foldlM Cursor.next? q = some r) : Leads p (s ++ String.ofList back) r :=
  h.append (leads_ofList ended)

theorem Leads.between {front back : List Char} {q' : Cursor} (h : Leads q t q')
    (opened : front.foldlM Cursor.next? p = some q)
    (ended : back.foldlM Cursor.next? q' = some r) :
    Leads p (String.ofList front ++ t ++ String.ofList back) r :=
  (h.behind opened).before ended

/-- A text leads back to where each of its characters does. -/
theorem leads_of_forall (h : ∀ c ∈ s.toList, p.next? c = some p) : Leads p s p := by
  unfold Leads
  generalize s.toList = cs at h
  induction cs with
  | nil => rfl
  | cons c cs ih =>
    rw [List.foldlM_cons, h c (List.mem_cons_self ..)]
    exact ih fun x mem => h x (List.mem_cons_of_mem _ mem)

/-- Where a reader gets through a text, its lines end outside of literals, the first one from where
the reader stands. The others begin no declaration of a type, nor does the first at a line start. -/
theorem lines_of_leads (h : Leads p s q) (outside : q.mode.isOutside = true) :
    ∃ line rest, lines s = line :: rest ∧ (line.foldl Mode.next p.mode).isOutside = true ∧
      (p = .start → line.head? ≠ some 's') ∧
      ∀ line ∈ rest, EndsOutside line ∧ line.head? ≠ some 's' := by
  unfold Leads at h
  unfold lines
  generalize s.toList = cs at h ⊢
  induction cs generalizing p with
  | nil =>
    cases h
    exact ⟨[], [], rfl, outside, nofun, nofun⟩
  | cons c cs ih =>
    obtain ⟨p', step, h⟩ := Option.bind_eq_some_iff.mp h
    obtain ⟨line, rest, found, ends, begins, others⟩ := ih h
    rw [List.splitOnP_cons_eq_if_modifyHead, found]
    unfold Cursor.next? at step
    split at step
    · next broken =>
      obtain ⟨here, same⟩ := Option.ite_none_right_eq_some.mp step
      cases same
      rw [if_pos broken]
      refine ⟨[], line :: rest, rfl, here, nofun, ?_⟩
      intro line' mem
      rcases List.mem_cons.mp mem with rfl | later
      · exact ⟨ends, begins rfl⟩
      · exact others line' later
    · next whole =>
      obtain ⟨other, same⟩ := Option.ite_none_left_eq_some.mp step
      cases same
      rw [if_neg whole]
      refine ⟨c :: line, rest, rfl, ends, ?_, others⟩
      intro starts head
      exact other ⟨starts, Option.some.inj head⟩

/-- The lines of a tame text end outside of literals and begin no declaration of a type. -/
theorem lines_of_tame (h : Tame s) {line : List Char} (mem : line ∈ lines s) :
    EndsOutside line ∧ line.head? ≠ some 's' := by
  obtain ⟨q, led, outside⟩ := h
  obtain ⟨first, rest, found, ends, begins, others⟩ := lines_of_leads led outside
  rw [found] at mem
  rcases List.mem_cons.mp mem with rfl | later
  · exact ⟨ends, begins rfl⟩
  · exact others line later

theorem closed_of_tame (h : Tame s) : Closed s :=
  fun _ mem => (lines_of_tame h mem).1

/-- A text that can be read from the start of a line can be read further on in code. -/
theorem Tame.of_code (h : Tame s) : ∃ q, Leads .code s q ∧ q.mode.isOutside = true := by
  obtain ⟨q, led, outside⟩ := h
  unfold Leads at led ⊢
  cases spelled : s.toList with
  | nil => exact ⟨.code, rfl, rfl⟩
  | cons c cs =>
    rw [spelled] at led
    obtain ⟨p, step, rest⟩ := Option.bind_eq_some_iff.mp led
    refine ⟨q, Option.bind_eq_some_iff.mpr ⟨p, ?_, rest⟩, outside⟩
    unfold Cursor.next? at step ⊢
    split at step
    · next broken =>
      rw [if_pos broken]
      exact step
    · next whole =>
      rw [if_neg whole, if_neg fun begins => nomatch begins.1]
      exact (Option.ite_none_left_eq_some.mp step).2

/-- Joined texts are read one after the other. -/
theorem Leads.joinLines_cons {ts : List String} (h : Leads p s q) (outside : q.mode.isOutside = true)
    (rest : Leads .start (joinLines (t :: ts)) r) : Leads p (joinLines (s :: t :: ts)) r := by
  rw [Swift.joinLines_cons]
  refine (h.append ?_).append rest
  have ended : q.next? '\n' = some .start := by
    rw [Cursor.next?, if_pos (by decide), if_pos outside]
  exact Option.bind_eq_some_iff.mpr ⟨_, ended, rfl⟩

theorem tame_joinLines {ts : List String} (h : ∀ t ∈ ts, Tame t) : Tame (joinLines ts) := by
  induction ts with
  | nil => exact tame_empty
  | cons s ts ih =>
    obtain ⟨q, led, outside⟩ := h s (List.mem_cons_self ..)
    cases ts with
    | nil =>
      rw [joinLines_singleton]
      exact ⟨q, led, outside⟩
    | cons t ts =>
      obtain ⟨r, later, ended⟩ := ih fun x mem => h x (List.mem_cons_of_mem _ mem)
      exact ⟨r, led.joinLines_cons outside later, ended⟩

/-- Behind lines a reader stands where the last one leads. -/
theorem leads_joinLines_concat {ts : List String} (h : ∀ t ∈ ts, Tame t)
    (last : Leads .start s r) : Leads .start (joinLines (ts ++ [s])) r := by
  induction ts with
  | nil => rwa [List.nil_append, joinLines_singleton]
  | cons t ts ih =>
    obtain ⟨q, led, outside⟩ := h t (List.mem_cons_self ..)
    have later := ih fun x mem => h x (List.mem_cons_of_mem _ mem)
    cases ts with
    | nil => exact led.joinLines_cons outside later
    | cons t ts => exact led.joinLines_cons outside later

/-- Texts that lead back to where they begin do so too when they are joined by another one. -/
theorem leads_joinWith {sep : String} (between : Leads p sep p) {ts : List String}
    (h : ∀ t ∈ ts, Leads p t p) : Leads p (joinWith sep ts) p := by
  induction ts with
  | nil => rfl
  | cons s ts ih =>
    have first := h s (List.mem_cons_self ..)
    have others := ih fun t mem => h t (List.mem_cons_of_mem _ mem)
    cases ts with
    | nil => rwa [joinWith_singleton]
    | cons t ts =>
      rw [joinWith_cons]
      exact (first.append between).append others

/-! ## What changes nothing -/

/-- The characters that mean something to the reader. -/
def marks : List Char :=
  ['"', '\\', '/', '\n', '\r']

/-- The text holds no character that means something to the reader. -/
def Plain (s : String) : Prop :=
  ∀ c ∈ s.toList, c ∉ marks

theorem plain_ofList {cs : List Char} (h : cs.all (· ∉ marks) = true) : Plain (String.ofList cs) := by
  unfold Plain
  rw [String.toList_ofList]
  exact List.all_iff_forall_prop.mp h

theorem Plain.append (h : Plain s) (h' : Plain t) : Plain (s ++ t) := by
  intro c mem
  rw [String.toList_append, List.mem_append] at mem
  exact mem.elim (h c) (h' c)

theorem plain_joinWith {sep : String} (between : Plain sep) {ts : List String}
    (h : ∀ t ∈ ts, Plain t) : Plain (joinWith sep ts) :=
  fun c mem marked =>
    notMem_joinWith (fun same => between c same marked) (fun t listed same => h t listed c same marked)
      mem

theorem Plain.unbroken (h : Plain s) : Unbroken s := by
  intro c mem
  have other := h c mem
  simp only [marks, List.mem_cons, List.not_mem_nil, or_false, not_or] at other
  simp [isLineBreak, other]

theorem leads_of_plain (h : Plain s) : Leads .code s .code ∧
    Leads .literal s .literal := by
  have other : ∀ c ∈ s.toList, (c ≠ '"' ∧ c ≠ '\\' ∧ c ≠ '/') ∧ isLineBreak c = false := by
    intro c mem
    have away := h c mem
    simp only [marks, List.mem_cons, List.not_mem_nil, or_false, not_or] at away
    exact ⟨⟨away.1, away.2.1, away.2.2.1⟩, h.unbroken c mem⟩
  constructor <;> refine leads_of_forall fun c mem => ?_ <;>
    simp [Cursor.next?, Cursor.mode, Mode.next, other c mem]

theorem leads_comment (h : Unbroken s) : Leads .comment s .comment :=
  leads_of_forall fun c mem => by simp [Cursor.next?, Cursor.mode, Mode.next, h c mem]

/-- An escaped text stays inside a literal. -/
theorem leads_escape (s : String) : Leads .literal (escape s) .literal := by
  unfold Leads
  rw [toList_escape]
  generalize s.toList = cs
  induction cs with
  | nil => rfl
  | cons c cs ih =>
    rw [List.flatMap_cons, List.foldlM_append]
    refine Option.bind_eq_some_iff.mpr ⟨_, ?_, ih⟩
    rcases escapeChar_cases c with ⟨e, -, other, same⟩ | ⟨other, same⟩
    · simp only [List.mem_cons, List.not_mem_nil, or_false, not_or] at other
      rw [same]
      simp [Cursor.next?, Cursor.mode, Mode.next, isLineBreak, other]
    · simp only [List.mem_cons, List.not_mem_nil, or_false, not_or] at other
      rw [same]
      simp [Cursor.next?, Cursor.mode, Mode.next, isLineBreak, other]

theorem leads_inQuotes (h : Leads .literal s .literal) :
    Leads .code (inQuotes s) .code := by
  have opened : Leads .code "\"" .literal := leads_ofList (by decide)
  have closed : Leads .literal "\"" .code := leads_ofList (by decide)
  exact (opened.append h).append closed

theorem leads_literal (s : String) : Leads .code (literal s) .code :=
  leads_inQuotes (leads_escape s)

end ShortcutRelay.Swift
