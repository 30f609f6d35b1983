import ShortcutRelay.Proofs.Json.Parts
import ShortcutRelay.Proofs.Text.Pieces

/-!
# Values of JSON read back

* `chars_array` and `chars_object` : the layout of a value;
* `Reads fuel` : what a reader with `fuel` steps left reads, kept by one more step;
* `parse_pretty` : an exact value is read back from its text.

The text of a value is also the measure of its reading: a reader needs no more steps than the text
has characters.
-/

namespace ShortcutRelay.Json
open Decimal Text

/-! ## Layout -/

/-- A member at a depth. -/
def memberAt (depth : Nat) (e : List CodePoint × Json) : List CodePoint :=
  membered e.1 (prettyAt depth e.2)

/-- What follows the first of several parts, each after a comma and on a line of its own. -/
def tailOf {α : Type} (depth : Nat) (one : α → List CodePoint) (parts : List α) : List CodePoint :=
  parts.flatMap fun part => .char ',' :: lineBreak depth ++ one part

/-- The same up to the closing bracket or brace on the outer level, and a rest. -/
def closed {α : Type} (depth : Nat) (one : α → List CodePoint) (parts : List α) (closing : Char)
    (rest : List CodePoint) : List CodePoint :=
  tailOf (depth + 1) one parts ++ (lineBreak depth ++ .char closing :: rest)

theorem prettyItems_eq (depth : Nat) (items : List Json) :
    prettyItems depth items = items.map (prettyAt depth) := by
  induction items with
  | nil => rfl
  | cons item items ih => rw [prettyItems, ih, List.map_cons]

theorem prettyMembers_eq (depth : Nat) (members : List (List CodePoint × Json)) :
    prettyMembers depth members = members.map (memberAt depth) := by
  induction members with
  | nil => rfl
  | cons e members ih => rw [prettyMembers, ih, List.map_cons, memberAt]

theorem prettyAt_text (depth : Nat) (s : List CodePoint) :
    prettyAt depth (.text s) = .char '"' :: (s.flatMap Script.full.escape ++ [.char '"']) := by
  rw [prettyAt]
  rfl

theorem prettyAt_array (depth : Nat) (item : Json) (items : List Json) (rest : List CodePoint) :
    prettyAt depth (.array (item :: items)) ++ rest =
      .char '[' :: (lineBreak (depth + 1) ++ (prettyAt (depth + 1) item ++
        closed depth (prettyAt (depth + 1)) items ']' rest)) := by
  simp [prettyAt, intercalate_cons, prettyItems_eq, closed, tailOf, List.flatMap_map]

theorem prettyAt_object (depth : Nat) (e : List CodePoint × Json)
    (members : List (List CodePoint × Json)) (rest : List CodePoint) :
    prettyAt depth (.object (e :: members)) ++ rest =
      .char '\x7b' :: (lineBreak (depth + 1) ++ (memberAt (depth + 1) e ++
        closed depth (memberAt (depth + 1)) members '\x7d' rest)) := by
  obtain ⟨key, value⟩ := e
  simp [prettyAt, memberAt, intercalate_cons, prettyMembers_eq, closed, tailOf, List.flatMap_map]

theorem memberAt_append (depth : Nat) (e : List CodePoint × Json) (rest : List CodePoint) :
    memberAt depth e ++ rest = .char '"' :: (e.1.flatMap Script.full.escape ++
      .char '"' :: .char ':' :: .char ' ' :: (prettyAt depth e.2 ++ rest)) := by
  simp [memberAt, membered, Script.quoted, Script.full, codePoints]

/-! ## Reading what was written -/

theorem skipSpace_cons {p : CodePoint} (h : isSpace p = false) (ps : List CodePoint) :
    skipSpace (p :: ps) = p :: ps := by
  simp [skipSpace, h]

theorem skipSpace_lineBreak (depth : Nat) (ps : List CodePoint) :
    skipSpace (lineBreak depth ++ ps) = skipSpace ps := by
  have spaces : ∀ p ∈ lineBreak depth, isSpace p = true := by
    intro p mem
    simp only [lineBreak, List.mem_cons, List.mem_replicate] at mem
    rcases mem with rfl | ⟨-, rfl⟩ <;> rfl
  exact List.dropWhile_append_of_pos spaces

theorem endsLexeme_cons {c : Char} (h : isLexical c = false) (ps : List CodePoint) :
    EndsLexeme (.char c :: ps) := by
  rintro d ⟨⟩
  exact h

/-- What follows a part is another one or the end of all, so it continues no word or number. -/
theorem endsLexeme_closed {α : Type} (depth : Nat) (one : α → List CodePoint) (parts : List α)
    (closing : Char) (rest : List CodePoint) : EndsLexeme (closed depth one parts closing rest) := by
  cases parts with
  | nil => exact endsLexeme_cons (c := '\n') (by decide) _
  | cons part parts => exact endsLexeme_cons (c := ',') (by decide) _

theorem skipSpace_closed_nil {α : Type} (depth : Nat) (one : α → List CodePoint) {closing : Char}
    (h : isSpace (.char closing) = false) (rest : List CodePoint) :
    skipSpace (closed depth one [] closing rest) = .char closing :: rest := by
  rw [closed, tailOf, List.flatMap_nil, List.nil_append, skipSpace_lineBreak, skipSpace_cons h]

theorem skipSpace_closed_cons {α : Type} (depth : Nat) (one : α → List CodePoint) (part : α)
    (parts : List α) (closing : Char) (rest : List CodePoint) :
    skipSpace (closed depth one (part :: parts) closing rest) =
      .char ',' :: (lineBreak (depth + 1) ++ (one part ++ closed depth one parts closing rest)) := by
  simp only [closed, tailOf, List.flatMap_cons, List.cons_append, List.append_assoc]
  rw [skipSpace_cons rfl]

/-! ### Words and numbers -/

/-- A value that is written as a word or a number, in characters that can stand in one. -/
structure Lexical (j : Json) (cs : List Char) : Prop where
  written : ∀ depth, prettyAt depth j = cs.map .char
  each : ∀ c ∈ cs, isLexical c = true
  read : readPlain cs = .ok (j, [])
  first : cs ≠ []

theorem lexical_null : Lexical .null ['n', 'u', 'l', 'l'] :=
  ⟨fun depth => by rw [prettyAt]; rfl, List.all_eq_true.mp rfl, rfl, List.cons_ne_nil _ _⟩

theorem lexical_bool (b : Bool) : ∃ cs, Lexical (.bool b) cs := by
  cases b with
  | true =>
    exact ⟨['t', 'r', 'u', 'e'], fun depth => by rw [prettyAt]; rfl, List.all_eq_true.mp rfl, rfl,
      List.cons_ne_nil _ _⟩
  | false =>
    exact ⟨['f', 'a', 'l', 's', 'e'], fun depth => by rw [prettyAt]; rfl, List.all_eq_true.mp rfl, rfl,
      List.cons_ne_nil _ _⟩

theorem isLexical_of_isDigit {c : Char} (h : isDigit c = true) : isLexical c = true := by
  have digit : c.isDigit = true := h
  simp [isLexical, Char.isAlphanum, digit]

/-- A whole number begins with a sign and a digit, or with a digit. -/
theorem toString_cases (n : Int) : ∃ d ds, isDigit d = true ∧
    ((toString n).toList = d :: ds ∨ (toString n).toList = '-' :: d :: ds) := by
  rw [toList_int]
  cases ds : Nat.toDigits 10 n.natAbs with
  | nil => exact absurd ds Nat.toDigits_ne_nil
  | cons d ds' =>
    refine ⟨d, ds', isDigit_of_mem_toDigits (ds ▸ List.mem_cons_self), ?_⟩
    split
    · exact .inr rfl
    · exact .inl rfl

theorem other_of_isDigit {d : Char} (digit : isDigit d = true) {c : Char}
    (other : isDigit c = false) : c ≠ d := by
  rintro rfl
  rw [other] at digit
  cases digit

theorem readWord?_int (n : Int) : readWord? (toString n).toList = none := by
  obtain ⟨d, ds, digit, first | first⟩ := toString_cases n <;>
    have other := @other_of_isDigit d digit <;> rw [first] <;>
    simp [readWord?, words, other, isDigit]

theorem lexical_int {n : Int} (short : digitCount n ≤ digitLimit) :
    Lexical (.int n) (toString n).toList where
  written depth := by
    rw [prettyAt]
    rfl
  each c mem := by
    rw [toList_int, List.mem_append] at mem
    rcases mem with sign | digit
    · split at sign
      · obtain rfl := List.mem_singleton.mp sign
        rfl
      · cases sign
    · exact isLexical_of_isDigit (isDigit_of_mem_toDigits digit)
  read := by
    have number : readNumber ((toString n).toList ++ []) = .ok (.int n, []) :=
      readNumber_whole short nofun
    rw [List.append_nil] at number
    rw [readPlain, readWord?_int]
    exact number
  first := by
    obtain ⟨d, ds, -, first | first⟩ := toString_cases n <;> rw [first] <;> nofun

theorem ne_of_isLexical {c d : Char} (h : isLexical c = true) (other : isLexical d = false) : c ≠ d := by
  rintro rfl
  rw [other] at h
  cases h

theorem Lexical.head {j : Json} {cs : List Char} (h : Lexical j cs) (depth : Nat) :
    ∃ c ps, prettyAt depth j = .char c :: ps ∧ isLexical c = true := by
  obtain ⟨c, cs', rfl⟩ := List.exists_cons_of_ne_nil h.first
  exact ⟨c, _, h.written depth, h.each c List.mem_cons_self⟩

/-- No written value begins with a space or with a closing bracket. -/
theorem prettyAt_head {j : Json} (exact : Exact j) (depth : Nat) :
    ∃ p ps, prettyAt depth j = p :: ps ∧ isSpace p = false ∧ p ≠ .char ']' := by
  have lexical {cs : List Char} (h : Lexical j cs) :
      ∃ p ps, prettyAt depth j = p :: ps ∧ isSpace p = false ∧ p ≠ .char ']' := by
    obtain ⟨c, ps, first, part⟩ := h.head depth
    have other {d : Char} : isLexical d = false → c ≠ d := ne_of_isLexical part
    have space : isSpace (.char c) = false := by
      simp [isSpace, other (d := ' ') (by decide), other (d := '\n') (by decide),
        other (d := '\r') (by decide), other (d := '\t') (by decide)]
    exact ⟨.char c, ps, first, space, fun same => other (d := ']') (by decide) (CodePoint.char.inj same)⟩
  cases j with
  | null => exact lexical lexical_null
  | bool b => exact lexical (lexical_bool b).choose_spec
  | int n => exact lexical (lexical_int (exact.short n (.self _)))
  | float x => exact absurd (.self _) (exact.whole x)
  | text s => exact ⟨_, _, prettyAt_text depth s, rfl, by decide⟩
  | array items =>
    cases items with
    | nil => exact ⟨.char '[', _, by rw [prettyAt]; rfl, rfl, by decide⟩
    | cons item items =>
      have first := prettyAt_array depth item items []
      rw [List.append_nil] at first
      exact ⟨_, _, first, rfl, by decide⟩
  | object members =>
    cases members with
    | nil => exact ⟨.char '\x7b', _, by rw [prettyAt]; rfl, rfl, by decide⟩
    | cons e members =>
      have first := prettyAt_object depth e members []
      rw [List.append_nil] at first
      exact ⟨_, _, first, rfl, by decide⟩

theorem readValue_lexeme {c : Char} (h : isLexical c = true) (fuel : Nat) (ps : List CodePoint) :
    readValue (fuel + 1) (.char c :: ps) = readLexeme (.char c :: ps) := by
  have other := @ne_of_isLexical c
  have quote := @other '"' h (by decide)
  have bracket := @other '[' h (by decide)
  have brace := @other '\x7b' h (by decide)
  rw [readValue]
  all_goals simp [quote, bracket, brace]

theorem readValue_lexical {j : Json} {cs : List Char} (h : Lexical j cs) (depth fuel : Nat)
    {rest : List CodePoint} (ends : EndsLexeme rest) :
    readValue (fuel + 1) (prettyAt depth j ++ rest) = .ok (j, rest) := by
  have read := readLexeme_append h.each ends
  rw [h.read] at read
  obtain ⟨c, ps, first, isLexical⟩ := h.head depth
  rw [← h.written depth, first] at read
  rw [first, List.cons_append, readValue_lexeme isLexical]
  exact read

theorem readValue_text (fuel : Nat) {ps rest s : List CodePoint} (h : readText ps = some (s, rest)) :
    readValue (fuel + 1) (.char '"' :: ps) = .ok (.text s, rest) := by
  rw [readValue, h]

theorem readValue_array (fuel : Nat) {p : CodePoint} {ps ps' rest : List CodePoint}
    {items : List Json} (more : skipSpace ps = p :: ps') (other : p ≠ .char ']')
    (h : readItems fuel (p :: ps') = .ok (items, rest)) :
    readValue (fuel + 1) (.char '[' :: ps) = .ok (.array items, rest) := by
  rw [readValue, more]
  split
  · next same => exact absurd (List.cons.inj same).1 other
  · rw [h]
    rfl

theorem readValue_object (fuel : Nat) {p : CodePoint} {ps ps' rest : List CodePoint}
    {members : List (List CodePoint × Json)} (more : skipSpace ps = p :: ps')
    (other : p ≠ .char '\x7d') (h : readMembers fuel [] (p :: ps') = .ok (members, rest)) :
    readValue (fuel + 1) (.char '\x7b' :: ps) = .ok (.object members, rest) := by
  rw [readValue, more]
  split
  · next same => exact absurd (List.cons.inj same).1 other
  · rw [h]
    rfl

theorem readItems_last {fuel : Nat} {ps rest rest' : List CodePoint} {item : Json}
    (h : readValue fuel ps = .ok (item, rest)) (closing : skipSpace rest = .char ']' :: rest') :
    readItems (fuel + 1) ps = .ok ([item], rest') := by
  simp only [readItems, h, closing, bind, Except.bind]
  rfl

theorem readItems_more {fuel : Nat} {ps rest rest' rest'' : List CodePoint} {item : Json}
    {items : List Json} (h : readValue fuel ps = .ok (item, rest))
    (comma : skipSpace rest = .char ',' :: rest')
    (more : readItems fuel (skipSpace rest') = .ok (items, rest'')) :
    readItems (fuel + 1) ps = .ok (item :: items, rest'') := by
  simp only [readItems, h, comma, more, bind, Except.bind]
  rfl

theorem readMembers_last {fuel : Nat} {read : List (List CodePoint × Json)} {key : List CodePoint}
    {value : Json} {ps colon after rest rest' : List CodePoint}
    (name : readText ps = some (key, colon)) (h : skipSpace colon = .char ':' :: after)
    (v : readValue fuel (skipSpace after) = .ok (value, rest))
    (closing : skipSpace rest = .char '\x7d' :: rest') :
    readMembers (fuel + 1) read (.char '"' :: ps) = .ok (putEntry key value read, rest') := by
  simp only [readMembers, name, h, v, closing, bind, Except.bind]
  rfl

theorem readMembers_more {fuel : Nat} {read members : List (List CodePoint × Json)}
    {key : List CodePoint} {value : Json} {ps colon after rest rest' rest'' : List CodePoint}
    (name : readText ps = some (key, colon)) (h : skipSpace colon = .char ':' :: after)
    (v : readValue fuel (skipSpace after) = .ok (value, rest))
    (comma : skipSpace rest = .char ',' :: rest')
    (more : readMembers fuel (putEntry key value read) (skipSpace rest') = .ok (members, rest'')) :
    readMembers (fuel + 1) read (.char '"' :: ps) = .ok (members, rest'') := by
  simp only [readMembers, name, h, v, comma, more, bind, Except.bind]

/-! ## All values -/

/-- A reader with some steps left reads what was written with no more code points. -/
structure Reads (fuel : Nat) : Prop where
  value : ∀ {j : Json} (depth : Nat) (rest : List CodePoint), Exact j →
    (prettyAt depth j).length ≤ fuel → EndsLexeme rest →
    readValue fuel (prettyAt depth j ++ rest) = .ok (j, rest)
  items : ∀ {item : Json} {items : List Json} (depth : Nat) (rest : List CodePoint),
    (∀ j ∈ item :: items, Exact j) →
    (prettyAt (depth + 1) item ++ closed depth (prettyAt (depth + 1)) items ']' []).length ≤ fuel →
    readItems fuel (prettyAt (depth + 1) item ++ closed depth (prettyAt (depth + 1)) items ']' rest) =
      .ok (item :: items, rest)
  members : ∀ {e : List CodePoint × Json} {members : List (List CodePoint × Json)}
    (read : List (List CodePoint × Json)) (depth : Nat) (rest : List CodePoint),
    (∀ m ∈ e :: members, Exact m.2) → (entryKeys (read ++ e :: members)).Nodup →
    (memberAt (depth + 1) e ++ closed depth (memberAt (depth + 1)) members '\x7d' []).length ≤ fuel →
    readMembers fuel read
      (memberAt (depth + 1) e ++ closed depth (memberAt (depth + 1)) members '\x7d' rest) =
        .ok (read ++ e :: members, rest)

theorem value_of_reads {fuel : Nat} (h : Reads fuel) {j : Json} (depth : Nat)
    (rest : List CodePoint) (exact : Exact j) (enough : (prettyAt depth j).length ≤ fuel + 1)
    (ends : EndsLexeme rest) :
    readValue (fuel + 1) (prettyAt depth j ++ rest) = .ok (j, rest) := by
  cases j with
  | null => exact readValue_lexical lexical_null depth fuel ends
  | bool b => exact readValue_lexical (lexical_bool b).choose_spec depth fuel ends
  | int n => exact readValue_lexical (lexical_int (exact.short n (.self _))) depth fuel ends
  | float x => exact absurd (.self _) (exact.whole x)
  | text s =>
    have read := readText_quoted s rest
    rw [prettyAt_text, List.cons_append, List.append_assoc]
    exact readValue_text fuel read
  | array items =>
    cases items with
    | nil =>
      rw [prettyAt]
      rfl
    | cons item items =>
      have layout := prettyAt_array depth item items []
      rw [List.append_nil] at layout
      have read := h.items depth rest (fun j => exact.item) (by
        rw [layout] at enough
        simp only [List.length_cons, List.length_append] at enough ⊢
        omega)
      obtain ⟨p, ps, first, space, other⟩ := prettyAt_head (exact.item List.mem_cons_self) (depth + 1)
      rw [prettyAt_array]
      rw [first, List.cons_append] at read ⊢
      refine readValue_array fuel ?_ other read
      rw [skipSpace_lineBreak, skipSpace_cons space]
  | object members =>
    cases members with
    | nil =>
      rw [prettyAt]
      rfl
    | cons e members =>
      have layout := prettyAt_object depth e members []
      rw [List.append_nil] at layout
      have read := h.members [] depth rest (fun m => exact.member) (exact.distinct _ (.self _)) (by
        rw [layout] at enough
        simp only [List.length_cons, List.length_append] at enough ⊢
        omega)
      rw [prettyAt_object]
      rw [memberAt_append] at read ⊢
      refine readValue_object fuel ?_ (by decide) read
      rw [skipSpace_lineBreak, skipSpace_cons rfl]

theorem items_of_reads {fuel : Nat} (h : Reads fuel) {item : Json} {items : List Json}
    (depth : Nat) (rest : List CodePoint) (exact : ∀ j ∈ item :: items, Exact j)
    (enough : (prettyAt (depth + 1) item ++
      closed depth (prettyAt (depth + 1)) items ']' []).length ≤ fuel + 1) :
    readItems (fuel + 1) (prettyAt (depth + 1) item ++
      closed depth (prettyAt (depth + 1)) items ']' rest) = .ok (item :: items, rest) := by
  have some_left : 0 < (closed depth (prettyAt (depth + 1)) items ']' []).length := by
    simp only [closed, List.length_append, List.length_cons]
    omega
  have read := h.value (depth + 1) (closed depth (prettyAt (depth + 1)) items ']' rest)
    (exact item List.mem_cons_self) (by simp only [List.length_append] at enough; omega)
    (endsLexeme_closed depth _ items ']' rest)
  cases items with
  | nil => exact readItems_last read (skipSpace_closed_nil depth _ rfl rest)
  | cons next items =>
    have others : ∀ j ∈ next :: items, Exact j := fun j m => exact j (List.mem_cons_of_mem item m)
    have more := h.items depth rest others (by
      simp only [closed, tailOf, List.flatMap_cons, List.length_append, List.length_cons] at enough ⊢
      omega)
    obtain ⟨p, ps, first, space, -⟩ := prettyAt_head (others next List.mem_cons_self) (depth + 1)
    refine readItems_more read (skipSpace_closed_cons depth _ next items ']' rest) ?_
    rw [skipSpace_lineBreak]
    rw [first, List.cons_append] at more ⊢
    rw [skipSpace_cons space, more]

theorem members_of_reads {fuel : Nat} (h : Reads fuel) {e : List CodePoint × Json}
    {members : List (List CodePoint × Json)} (read : List (List CodePoint × Json)) (depth : Nat)
    (rest : List CodePoint) (exact : ∀ m ∈ e :: members, Exact m.2)
    (distinct : (entryKeys (read ++ e :: members)).Nodup)
    (enough : (memberAt (depth + 1) e ++
      closed depth (memberAt (depth + 1)) members '\x7d' []).length ≤ fuel + 1) :
    readMembers (fuel + 1) read (memberAt (depth + 1) e ++
      closed depth (memberAt (depth + 1)) members '\x7d' rest) = .ok (read ++ e :: members, rest) := by
  have inner := exact e List.mem_cons_self
  have shorter : (prettyAt (depth + 1) e.2).length ≤ fuel := by
    rw [memberAt_append] at enough
    simp only [List.length_append, List.length_cons] at enough
    omega
  have value := h.value (depth + 1) (closed depth (memberAt (depth + 1)) members '\x7d' rest)
    inner shorter (endsLexeme_closed depth _ members '\x7d' rest)
  have name := readText_quoted e.1 (.char ':' :: .char ' ' :: (prettyAt (depth + 1) e.2 ++
    closed depth (memberAt (depth + 1)) members '\x7d' rest))
  have start : skipSpace (.char ' ' :: (prettyAt (depth + 1) e.2 ++
      closed depth (memberAt (depth + 1)) members '\x7d' rest)) =
        prettyAt (depth + 1) e.2 ++ closed depth (memberAt (depth + 1)) members '\x7d' rest := by
    obtain ⟨p, ps, first, space, -⟩ := prettyAt_head inner (depth + 1)
    rw [first]
    exact skipSpace_cons space _
  -- the keys are distinct, so each member is read into a new place at the end
  have new : putEntry e.1 e.2 read = read ++ [e] := by
    rw [entryKeys, List.map_append, List.map_cons] at distinct
    refine putEntry_of_notMem fun known => ?_
    exact (List.nodup_append.mp distinct).2.2 e.1 known e.1 List.mem_cons_self rfl
  rw [memberAt_append]
  rw [← start] at value
  cases members with
  | nil =>
    rw [← new]
    exact readMembers_last name (skipSpace_cons rfl _) value (skipSpace_closed_nil depth _ rfl rest)
  | cons next members =>
    have others : ∀ m ∈ next :: members, Exact m.2 := fun m hm => exact m (List.mem_cons_of_mem e hm)
    have more := h.members (read ++ [e]) depth rest others (by simpa using distinct) (by
      rw [memberAt_append] at enough
      simp only [closed, tailOf, List.flatMap_cons, List.length_append, List.length_cons] at enough ⊢
      omega)
    refine readMembers_more name (skipSpace_cons rfl _) value
      (skipSpace_closed_cons depth _ next members '\x7d' rest) ?_
    rw [skipSpace_lineBreak, new]
    rw [memberAt_append] at more ⊢
    rw [skipSpace_cons rfl, more, List.append_assoc, List.singleton_append]

/-- By induction on the steps that are left: reading a part takes one. -/
theorem reads (fuel : Nat) : Reads fuel := by
  induction fuel with
  | zero =>
    refine ⟨?_, ?_, ?_⟩
    · intro j depth rest exact enough _
      obtain ⟨p, ps, first, -⟩ := prettyAt_head exact depth
      simp [first] at enough
    · intro item items depth rest _ enough
      simp [closed] at enough
    · intro e members read depth rest _ _ enough
      simp [closed] at enough
  | succ fuel ih =>
    exact ⟨value_of_reads ih, items_of_reads ih, members_of_reads ih⟩

/-- An exact value is read back from its text. -/
theorem parse_pretty {j : Json} (exact : Exact j) : parse (pretty j) = .ok j := by
  obtain ⟨p, ps, first, space, -⟩ := prettyAt_head exact 0
  have read := (reads (2 * (pretty j).length + 2)).value 0 [] exact
    (by change (pretty j).length ≤ _; omega) nofun
  rw [List.append_nil] at read
  change readValue _ (pretty j) = _ at read
  have start : skipSpace (pretty j) = pretty j := by
    change skipSpace (prettyAt 0 j) = prettyAt 0 j
    rw [first, skipSpace_cons space]
  simp only [parse, start, read]
  rfl

end ShortcutRelay.Json
