import Mathlib.Data.List.Infix
import ShortcutRelay.Proofs.Text.Pieces
import ShortcutRelay.Template.Placeholder

/-!
# The tokens of a phrase

* `Tokens cs ts` : read from the left, a text has the tokens `ts`; `exists_tokens`, `Tokens.iff_eq` : there
  is one such reading, and `Tokens.length_splitTokens` : the pieces stand around its tokens;
* `Bare cs` : no token stands in a text, so in `bare_of_mem_splitTokens`;
* `splitTokens_intercalate` : bare pieces with the first token between them are found again;
* `tablePhrase_cases` : how a phrase of the phrase table is cut; `tablePhrase_tablePhrase` : it is its
  own phrase of the table, and in `tokens_tablePhrase` its tokens are counted.
-/

namespace ShortcutRelay.Template
open Text

variable {cs rest t t' : List Char} {ts ts' pieces : List (List Char)}

/-! ## The three spellings -/

theorem token_ne_nil (listed : t ∈ nameTokens) : t ≠ [] := by
  have each : ∀ t ∈ nameTokens, t ≠ [] := by decide
  exact each t listed

/-- The first character of a text decides which token can begin it. -/
theorem token_unique (listed : t ∈ nameTokens) (listed' : t' ∈ nameTokens) (here : t <+: cs)
    (here' : t' <+: cs) : t = t' := by
  have apart : ∀ t ∈ nameTokens, ∀ t' ∈ nameTokens, t.head? = t'.head? → t = t' := by decide
  have first {u : List Char} (listed : u ∈ nameTokens) (here : u <+: cs) : u.head? = cs.head? := by
    obtain ⟨behind, rfl⟩ := here
    exact (List.head?_append_of_ne_nil _ (token_ne_nil listed)).symm
  exact apart t listed t' listed' ((first listed here).trans (first listed' here').symm)

/-- No token begins the text. -/
def NoneBegins (cs : List Char) : Prop :=
  ∀ t ∈ nameTokens, ¬ t <+: cs

theorem tokenLength?_eq_none (other : NoneBegins cs) : tokenLength? cs = none := by
  have unfound : nameTokens.find? (·.isPrefixOf cs) = none :=
    List.find?_eq_none.mpr fun t listed => by simpa using other t listed
  rw [tokenLength?, unfound]
  rfl

theorem tokenLength?_token (listed : t ∈ nameTokens) (rest : List Char) :
    tokenLength? (t ++ rest) = some t.length := by
  have here : ∃ u ∈ nameTokens, u.isPrefixOf (t ++ rest) = true := ⟨t, listed, by simp⟩
  obtain ⟨u, found⟩ := Option.isSome_iff_exists.mp (List.find?_isSome.mpr here)
  have begins : u <+: t ++ rest := by simpa using List.find?_some found
  obtain rfl := token_unique (List.mem_of_find?_eq_some found) listed begins (List.prefix_append t rest)
  rw [tokenLength?, found]
  rfl

/-! ## Readings -/

/-- Read from the left, without overlaps, the text has these tokens. -/
inductive Tokens : List Char → List (List Char) → Prop
  | nil : Tokens [] []
  | token {t rest : List Char} {ts : List (List Char)} (listed : t ∈ nameTokens)
      (later : Tokens rest ts) : Tokens (t ++ rest) (t :: ts)
  | plain {c : Char} {rest : List Char} {ts : List (List Char)} (other : NoneBegins (c :: rest))
      (later : Tokens rest ts) : Tokens (c :: rest) ts

/-- A text is empty, begins with a token, or begins with another character. -/
theorem exists_tokens : ∀ cs, ∃ ts, Tokens cs ts
  | [] => ⟨[], .nil⟩
  | c :: cs => by
    by_cases other : NoneBegins (c :: cs)
    · obtain ⟨ts, later⟩ := exists_tokens cs
      exact ⟨ts, .plain other later⟩
    · obtain ⟨t, listed, rest, same⟩ : ∃ t ∈ nameTokens, t <+: c :: cs := by
        simpa [NoneBegins] using other
      obtain ⟨ts, later⟩ := exists_tokens rest
      exact ⟨t :: ts, same ▸ .token listed later⟩
termination_by cs => cs.length
decreasing_by
  · simp
  · have long : 0 < t.length := List.length_pos_of_ne_nil (token_ne_nil listed)
    rw [← same]
    simpa using long

theorem Tokens.unique (read : Tokens cs ts) (read' : Tokens cs ts') : ts = ts' := by
  induction read generalizing ts' with
  | nil =>
    generalize same : ([] : List Char) = cs at read'
    cases read' with
    | nil => rfl
    | token listed later => exact absurd (List.append_eq_nil_iff.mp same.symm).1 (token_ne_nil listed)
    | plain other later => cases same
  | @token t rest ts listed later ih =>
    generalize same : t ++ rest = cs at read'
    have begins : t <+: cs := same ▸ List.prefix_append t rest
    cases read' with
    | nil => exact absurd (List.append_eq_nil_iff.mp same).1 (token_ne_nil listed)
    | @token t' rest' ts' listed' later' =>
      obtain rfl := token_unique listed listed' begins (List.prefix_append t' rest')
      obtain rfl := List.append_cancel_left same
      rw [ih later']
    | plain other later' => exact absurd begins (other t listed)
  | @plain c rest ts other later ih =>
    generalize same : c :: rest = cs at read'
    cases read' with
    | nil => cases same
    | @token t' rest' ts' listed' later' =>
      exact absurd (same ▸ List.prefix_append t' rest') (other t' listed')
    | plain other' later' =>
      cases same
      exact ih later'

/-- A text is read in one way. -/
theorem Tokens.iff_eq (read : Tokens cs ts) : Tokens cs ts' ↔ ts' = ts :=
  ⟨fun read' => read'.unique read, fun same => same ▸ read⟩

theorem Tokens.of_mem (read : Tokens cs ts) (mem : t ∈ ts) : t ∈ nameTokens ∧ t <:+: cs := by
  induction read with
  | nil => cases mem
  | token listed later ih =>
    rcases List.mem_cons.mp mem with rfl | mem
    · exact ⟨listed, (List.prefix_append _ _).isInfix⟩
    · exact ⟨(ih mem).1, (ih mem).2.trans (List.suffix_append _ _).isInfix⟩
  | plain other later ih => exact ⟨(ih mem).1, (ih mem).2.trans (List.suffix_cons _ _).isInfix⟩

/-! ## Pieces -/

theorem splitTokens_skip (front rest : List Char) :
    splitTokens front.length (front ++ rest) = splitTokens 0 rest := by
  induction front with
  | nil => rfl
  | cons c front ih => exact ih

theorem splitTokens_token (listed : t ∈ nameTokens) (rest : List Char) :
    splitTokens 0 (t ++ rest) = [] :: splitTokens 0 rest := by
  have found := tokenLength?_token listed rest
  cases t with
  | nil => exact absurd rfl (token_ne_nil listed)
  | cons c cs =>
    rw [List.cons_append] at found ⊢
    rw [splitTokens, found]
    exact congrArg _ (splitTokens_skip cs rest)

theorem splitTokens_ne_nil (skip : Nat) (cs : List Char) : splitTokens skip cs ≠ [] := by
  induction cs generalizing skip with
  | nil => cases skip <;> simp [splitTokens]
  | cons c cs ih =>
    cases skip with
    | succ skip => exact ih skip
    | zero =>
      unfold splitTokens
      split
      · simp
      · split <;> simp

theorem splitTokens_plain {c : Char} (other : NoneBegins (c :: rest)) :
    ∃ piece pieces, splitTokens 0 rest = piece :: pieces ∧
      splitTokens 0 (c :: rest) = (c :: piece) :: pieces := by
  obtain ⟨piece, pieces, behind⟩ := List.exists_cons_of_ne_nil (splitTokens_ne_nil 0 rest)
  refine ⟨piece, pieces, behind, ?_⟩
  rw [splitTokens, tokenLength?_eq_none other, behind]

/-- There is one more piece than there are tokens. -/
theorem Tokens.length_splitTokens (read : Tokens cs ts) :
    (splitTokens 0 cs).length = ts.length + 1 := by
  induction read with
  | nil => rfl
  | token listed later ih => rw [splitTokens_token listed, List.length_cons, List.length_cons, ih]
  | plain other later ih =>
    obtain ⟨first, others, behind, here⟩ := splitTokens_plain other
    rw [behind] at ih
    rw [here]
    exact ih

/-- The first piece begins the text. -/
theorem prefix_of_splitTokens {piece : List Char} (cut : splitTokens 0 cs = piece :: pieces) :
    piece <+: cs := by
  obtain ⟨ts, read⟩ := exists_tokens cs
  induction read generalizing piece pieces with
  | nil =>
    cases cut
    exact List.prefix_rfl
  | token listed later ih =>
    rw [splitTokens_token listed] at cut
    cases cut
    exact List.nil_prefix
  | plain other later ih =>
    obtain ⟨first, others, behind, here⟩ := splitTokens_plain other
    rw [here] at cut
    cases cut
    exact List.cons_prefix_cons.mpr ⟨rfl, ih behind⟩

/-! ## Texts without tokens -/

/-- No token stands in the text. -/
def Bare (cs : List Char) : Prop :=
  ∀ t ∈ nameTokens, ¬ t <:+: cs

theorem bare_nil : Bare [] :=
  fun _ listed inside => token_ne_nil listed (List.infix_nil.mp inside)

theorem bare_cons_iff {c : Char} : Bare (c :: cs) ↔ NoneBegins (c :: cs) ∧ Bare cs := by
  unfold Bare NoneBegins
  simp only [List.infix_cons_iff, not_or]
  exact forall₂_and

theorem bare_of_mem_splitTokens {piece : List Char} (mem : piece ∈ splitTokens 0 cs) : Bare piece := by
  obtain ⟨ts, read⟩ := exists_tokens cs
  induction read generalizing piece with
  | nil =>
    obtain rfl := List.mem_singleton.mp mem
    exact bare_nil
  | token listed later ih =>
    rw [splitTokens_token listed] at mem
    rcases List.mem_cons.mp mem with rfl | mem
    · exact bare_nil
    · exact ih mem
  | plain other later ih =>
    obtain ⟨first, others, behind, here⟩ := splitTokens_plain other
    rw [here] at mem
    rw [behind] at ih
    rcases List.mem_cons.mp mem with rfl | mem
    · -- A token at the front of the piece would begin the text.
      refine bare_cons_iff.mpr ⟨fun t listed begins => other t listed (begins.trans ?_), ih (.head _)⟩
      exact List.cons_prefix_cons.mpr ⟨rfl, prefix_of_splitTokens behind⟩
    · exact ih (.tail _ mem)

/-- A token does not reach beyond a dollar sign, which only begins tokens. -/
theorem noneBegins_append {c : Char} (other : NoneBegins (c :: cs)) (rest : List Char) :
    NoneBegins (c :: cs ++ '$' :: rest) := by
  have inner : ∀ t ∈ nameTokens, '$' ∉ t.tail := by decide
  rintro t listed ⟨behind, same⟩
  rcases List.append_eq_append_iff.mp same with ⟨middle, whole, left⟩ | ⟨middle, whole, left⟩
  · exact other t listed ⟨middle, whole.symm⟩
  · cases middle with
    | nil =>
      rw [List.append_nil] at whole
      exact other t listed (whole ▸ List.prefix_rfl)
    | cons d middle =>
      obtain ⟨rfl, -⟩ := List.cons.inj left
      refine inner t listed ?_
      rw [whole]
      simp

theorem splitTokens_of_bare (bare : Bare cs) : splitTokens 0 cs = [cs] := by
  induction cs with
  | nil => rfl
  | cons c cs ih =>
    obtain ⟨other, later⟩ := bare_cons_iff.mp bare
    obtain ⟨first, others, behind, here⟩ := splitTokens_plain other
    rw [ih later] at behind
    cases behind
    exact here

theorem splitTokens_append (bare : Bare cs) (rest : List Char) :
    splitTokens 0 (cs ++ (tableToken.toList ++ rest)) = cs :: splitTokens 0 rest := by
  have begins : tableToken.toList = '$' :: "\x7bapplicationName\x7d".toList := by decide
  have listed : tableToken.toList ∈ nameTokens := List.mem_cons_self
  induction cs with
  | nil => exact splitTokens_token listed rest
  | cons c cs ih =>
    obtain ⟨other, later⟩ := bare_cons_iff.mp bare
    have still : NoneBegins (c :: (cs ++ (tableToken.toList ++ rest))) := by
      rw [begins]
      exact noneBegins_append other _
    obtain ⟨first, others, behind, here⟩ := splitTokens_plain still
    rw [ih later] at behind
    cases behind
    exact here

/-- Bare pieces with the first token between them are found again, unless there are none. -/
theorem splitTokens_intercalate (some_piece : pieces ≠ []) (bare : ∀ piece ∈ pieces, Bare piece) :
    splitTokens 0 (List.intercalate tableToken.toList pieces) = pieces := by
  induction pieces with
  | nil => exact absurd rfl some_piece
  | cons piece others ih =>
    have first := bare piece (.head _)
    cases others with
    | nil => simpa using splitTokens_of_bare first
    | cons second others =>
      have later := ih (List.cons_ne_nil _ _) fun other mem => bare other (.tail _ mem)
      rw [List.intercalate_cons_cons, List.append_assoc, splitTokens_append first, later]

/-- A text that lacks a character stands around that character only where it stands on one side of it. -/
theorem infix_append_cons {x : Char} {u v : List Char} (apart : x ∉ t) (inside : t <:+: u ++ x :: v) :
    t <:+: u ∨ t <:+: v := by
  rcases List.infix_append_iff_ne_nil.mp inside with left | right | ⟨front, back, -, some_back, rfl, -, begins⟩
  · exact .inl left
  · rcases List.infix_cons_iff.mp right with begins | later
    · rcases List.prefix_cons_iff.mp begins with rfl | ⟨behind, rfl, -⟩
      · exact .inr List.nil_infix
      · exact absurd List.mem_cons_self apart
    · exact .inr later
  · rcases List.prefix_cons_iff.mp begins with rfl | ⟨behind, rfl, -⟩
    · exact absurd rfl some_back
    · exact absurd (List.mem_append_right _ List.mem_cons_self) apart

/-! ## The phrase of the table -/

/-- The words in front of a token that is added bring none. -/
theorem bare_append_in (bare : Bare cs) : Bare (cs ++ " in ".toList) := by
  have apart : ∀ t ∈ nameTokens, ' ' ∉ t ∧ ¬ t <:+: "in ".toList := by decide
  intro t listed inside
  rcases infix_append_cons (apart t listed).1 inside with left | right
  · exact bare t listed left
  · exact (apart t listed).2 right

theorem aroundTokens_joinWith {texts : List String} (some_text : texts ≠ [])
    (bare : ∀ text ∈ texts, Bare text.toList) : aroundTokens (joinWith tableToken texts) = texts := by
  have pieces : splitTokens 0 (List.intercalate tableToken.toList (texts.map String.toList)) =
      texts.map String.toList :=
    splitTokens_intercalate (by simpa using some_text) (List.forall_mem_map.mpr bare)
  rw [aroundTokens, joinWith, String.toList_ofList, pieces, List.map_map]
  simp [Function.comp_def]

theorem bare_of_mem_aroundTokens {phrase text : String} (mem : text ∈ aroundTokens phrase) :
    Bare text.toList := by
  obtain ⟨piece, there, rfl⟩ := List.mem_map.mp mem
  rw [String.toList_ofList]
  exact bare_of_mem_splitTokens there

theorem eq_of_splitTokens_eq_singleton {piece : List Char} (cut : splitTokens 0 cs = [piece]) :
    piece = cs := by
  obtain ⟨ts, read⟩ := exists_tokens cs
  induction read generalizing piece with
  | nil => exact (List.singleton_inj.mp cut).symm
  | token listed later ih =>
    rw [splitTokens_token listed] at cut
    exact absurd (List.cons.inj cut).2 (splitTokens_ne_nil _ _)
  | plain other later ih =>
    obtain ⟨first, others, behind, here⟩ := splitTokens_plain other
    rw [here] at cut
    obtain ⟨rfl, rfl⟩ := List.cons.inj cut
    rw [ih behind]

theorem tablePhrase_of_token {phrase : String} (several : 1 < (aroundTokens phrase).length) :
    tablePhrase phrase = joinWith tableToken (aroundTokens phrase) := by
  unfold tablePhrase
  split
  · next single =>
    rw [single] at several
    exact absurd several (Nat.lt_irrefl 1)
  · rfl

/-- A phrase of the table is cut where the phrase is; where that has no token, in front of the one that is
added. -/
theorem tablePhrase_cases (phrase : String) : ∃ texts, tablePhrase phrase = joinWith tableToken texts ∧
    aroundTokens (tablePhrase phrase) = texts ∧ 1 < texts.length ∧
      (aroundTokens phrase = texts ∨ aroundTokens phrase = [phrase] ∧ texts = [phrase ++ " in ", ""]) := by
  have some_piece : aroundTokens phrase ≠ [] := fun none_left =>
    splitTokens_ne_nil 0 phrase.toList (List.map_eq_nil_iff.mp none_left)
  by_cases several : 1 < (aroundTokens phrase).length
  · have shown := tablePhrase_of_token several
    refine ⟨_, shown, ?_, several, .inl rfl⟩
    rw [shown, aroundTokens_joinWith some_piece fun text mem => bare_of_mem_aroundTokens mem]
  · obtain ⟨piece, single⟩ : ∃ piece, splitTokens 0 phrase.toList = [piece] := by
      rw [← List.length_eq_one_iff]
      have some_length := List.length_pos_of_ne_nil some_piece
      rw [aroundTokens, List.length_map] at several some_length
      omega
    obtain rfl := eq_of_splitTokens_eq_singleton single
    have whole : aroundTokens phrase = [phrase] := by simp [aroundTokens, single]
    have bare : Bare phrase.toList := bare_of_mem_aroundTokens (whole ▸ List.mem_singleton_self _)
    have shown : tablePhrase phrase = joinWith tableToken [phrase ++ " in ", ""] := by
      rw [tablePhrase, whole, ← String.toList_inj]
      simp [joinWith]
    refine ⟨_, shown, ?_, Nat.lt_succ_self 1, .inr ⟨whole, rfl⟩⟩
    rw [shown, aroundTokens_joinWith (List.cons_ne_nil _ _)]
    simp only [List.forall_mem_cons, String.toList_append]
    exact ⟨bare_append_in bare, bare_nil, List.forall_mem_nil _⟩

/-- A phrase of the table is its own phrase of the table. -/
theorem tablePhrase_tablePhrase (phrase : String) :
    tablePhrase (tablePhrase phrase) = tablePhrase phrase := by
  obtain ⟨texts, shown, cut, several, -⟩ := tablePhrase_cases phrase
  rw [tablePhrase_of_token (cut ▸ several), cut, shown]

/-- Between bare pieces there are no other tokens than the first one. -/
theorem eq_tableToken_of_infix (bare : ∀ piece ∈ pieces, Bare piece) (listed : t ∈ nameTokens)
    (inside : t <:+: List.intercalate tableToken.toList pieces) : t = tableToken.toList := by
  have spelled : tableToken.toList = '$' :: ("\x7bapplicationName".toList ++ ['\x7d']) := by decide
  have others : ∀ t ∈ nameTokens, t ≠ tableToken.toList →
      '$' ∉ t ∧ '\x7d' ∉ t ∧ ¬ t <:+: "\x7bapplicationName".toList := by decide
  by_contra other
  obtain ⟨dollar, brace, apart⟩ := others t listed other
  induction pieces with
  | nil => exact bare_nil t listed inside
  | cons piece pieces ih =>
    have first := bare piece (.head _)
    cases pieces with
    | nil => exact first t listed (by simpa using inside)
    | cons second pieces =>
      rw [List.intercalate_cons_cons, List.append_assoc, spelled, List.cons_append,
        List.append_assoc] at inside
      rcases infix_append_cons dollar inside with here | behind
      · exact first t listed here
      · rcases infix_append_cons brace behind with name | later
        · exact apart name
        · rw [← spelled] at later
          exact ih (fun piece mem => bare piece (.tail _ mem)) later

theorem eq_tableToken_of_infix_tablePhrase {phrase : String} (listed : t ∈ nameTokens)
    (inside : t <:+: (tablePhrase phrase).toList) : t = tableToken.toList := by
  obtain ⟨texts, shown, cut, -⟩ := tablePhrase_cases phrase
  rw [shown, joinWith, String.toList_ofList] at inside
  refine eq_tableToken_of_infix (List.forall_mem_map.mpr fun text mem => ?_) listed inside
  exact bare_of_mem_aroundTokens (cut ▸ mem)

/-- A phrase of the table has as many tokens as the phrase, at least one, in the first spelling. -/
theorem tokens_tablePhrase {phrase : String} (read : Tokens phrase.toList ts) :
    Tokens (tablePhrase phrase).toList (List.replicate (max ts.length 1) tableToken.toList) := by
  obtain ⟨found, shown⟩ := exists_tokens (tablePhrase phrase).toList
  have spelled : ∀ t ∈ found, t = tableToken.toList := fun t mem =>
    eq_tableToken_of_infix_tablePhrase (shown.of_mem mem).1 (shown.of_mem mem).2
  have pieces : (aroundTokens phrase).length = ts.length + 1 := by
    rw [aroundTokens, List.length_map, read.length_splitTokens]
  have pieces' : (aroundTokens (tablePhrase phrase)).length = found.length + 1 := by
    rw [aroundTokens, List.length_map, shown.length_splitTokens]
  have count : found.length = max ts.length 1 := by
    obtain ⟨texts, -, cut, several, same | ⟨whole, added⟩⟩ := tablePhrase_cases phrase
    · rw [cut] at pieces'
      rw [same] at pieces
      omega
    · rw [cut, added, List.length_cons, List.length_singleton] at pieces'
      rw [whole, List.length_singleton] at pieces
      omega
  rw [← count, ← List.eq_replicate_iff.mpr ⟨rfl, spelled⟩]
  exact shown

end ShortcutRelay.Template
