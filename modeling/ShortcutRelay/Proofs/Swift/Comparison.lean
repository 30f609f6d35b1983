import ShortcutRelay.Proofs.Decimal.Faithful
import ShortcutRelay.Proofs.Intent.State
import ShortcutRelay.Proofs.Json.Lexeme
import ShortcutRelay.Proofs.Swift.Literal
import ShortcutRelay.Swift.Literal

/-!
# Conditions read back

The condition of a dialog is written in Swift, and it is evaluated by the application's twin of the
intent as well. Read back from its text, it is the comparison that the twin makes.

* `Comparison` : what a condition says, `Comparison.holds` : its truth in a store;
* `readComparison` : the comparison that a text spells;
* `read_number`, `read_text`, `read_present` : conditions are read back;
* `condition_agrees` : what is read is what `Intent.stateMatches` finds out.
-/

namespace ShortcutRelay.Swift
open Protocol

/-- What a condition says: that an entry's double is a whole number, that its text is a given one, or
that it has one. -/
inductive Comparison
  | number (key : String) (n : Int)
  | text (key : String) (s : String)
  | present (key : String)

/-- The truth of a comparison in a store. A number literal stands for a double, and texts are compared
as they are. -/
def Comparison.holds : Comparison → StoreM Bool
  | number key n => return (← Store.double key) == Float.ofInt n
  | text key s => return (← Store.text key) == some s
  | present key => return (← Store.text key).isSome

/-! ## Reading -/

/-- The number that decimal digits spell, where there is at least one. -/
def readDigits (ds : List Char) : Option Nat :=
  if ds ≠ [] ∧ ds.all Decimal.isDigit = true then some (Decimal.numberOf ds) else none

/-- The whole number that a literal spells in decimal digits, with a sign where it is negative. -/
def readWholeLiteral : List Char → Option Int
  | '-' :: ds => (readDigits ds).map fun n : Nat => -(n : Int)
  | ds => (readDigits ds).map fun n : Nat => (n : Int)

/-- A string literal without expressions in it, with what follows it. -/
def readPlain (cs : List Char) : Option (String × List Char) :=
  (readLiteral (fun _ => none) cs).map fun (s, rest) => (String.ofList s, rest)

def readComparison (cs : List Char) : Option Comparison :=
  match cs.dropPrefix? "defaults.double(forKey: ".toList with
  | some rest => do
    let (key, rest) ← readPlain rest
    return .number key (← readWholeLiteral (← rest.dropPrefix? ") == ".toList))
  | none => do
    let (key, rest) ← readPlain (← cs.dropPrefix? "defaults.string(forKey: ".toList)
    if rest = ") != nil".toList then return .present key
    match ← readPlain (← rest.dropPrefix? ") == ".toList) with
    | (s, []) => return .text key s
    | _ => none

theorem dropPrefix?_append (start rest : List Char) :
    (start ++ rest).dropPrefix? start = some rest :=
  List.dropPrefix?_eq_some_iff.mpr ⟨start, rfl, beq_self_eq_true start⟩

theorem readPlain_literal (s : String) (rest : List Char) :
    readPlain ((literal s).toList ++ rest) = some (s, rest) := by
  have spelled : (literal s).toList ++ rest = '"' :: ((s.toList.flatMap escapeChar) ++ ('"' :: rest)) := by
    simp [literal, inQuotes, toList_escape]
  have closed : readBody (fun _ => none) none ('"' :: rest) = some ([], rest) := rfl
  unfold readPlain
  rw [spelled, readLiteral, readBody_escape, closed]
  simp

theorem readDigits_toDigits (n : Nat) : readDigits (Nat.toDigits 10 n) = some n := by
  have digits : (Nat.toDigits 10 n).all Decimal.isDigit = true :=
    List.all_eq_true.mpr fun c => Json.isDigit_of_mem_toDigits
  rw [readDigits, if_pos ⟨Nat.toDigits_ne_nil, digits⟩, Json.numberOf_toDigits]

theorem readWholeLiteral_toString (n : Int) : readWholeLiteral (toString n).toList = some n := by
  have read := readDigits_toDigits n.natAbs
  rw [Json.toList_int]
  split
  · rw [List.cons_append, List.nil_append, readWholeLiteral, read, Option.map_some]
    congr 1
    omega
  · have unsigned : ∀ rest, Nat.toDigits 10 n.natAbs ≠ '-' :: rest := by
      intro rest same
      have digit : Decimal.isDigit '-' = true := Json.isDigit_of_mem_toDigits (n := n.natAbs) (by simp [same])
      cases digit
    rw [List.nil_append, readWholeLiteral.eq_2 _ unsigned, read, Option.map_some]
    congr 1
    omega

variable (key : String)

theorem read_number (n : Int) :
    readComparison ("defaults.double(forKey: " ++ literal key ++ ")" ++ " == " ++ toString n).toList =
      some (.number key n) := by
  have spelled : ("defaults.double(forKey: " ++ literal key ++ ")" ++ " == " ++ toString n).toList =
      "defaults.double(forKey: ".toList ++ ((literal key).toList ++ (") == ".toList ++ (toString n).toList)) := by
    simp [String.toList_append]
  unfold readComparison
  rw [spelled, dropPrefix?_append]
  simp only [readPlain_literal, dropPrefix?_append, readWholeLiteral_toString, Option.bind_eq_bind,
    Option.bind_some]
  rfl

/-- A question for a text is not one for a number. -/
theorem not_number (rest : List Char) :
    ("defaults.string(forKey: ".toList ++ rest).dropPrefix? "defaults.double(forKey: ".toList = none := by
  rfl

theorem read_text (s : String) :
    readComparison ("defaults.string(forKey: " ++ literal key ++ ")" ++ " == " ++ literal s).toList =
      some (.text key s) := by
  have spelled : ("defaults.string(forKey: " ++ literal key ++ ")" ++ " == " ++ literal s).toList =
      "defaults.string(forKey: ".toList ++ ((literal key).toList ++ (") == ".toList ++ (literal s).toList)) := by
    simp [String.toList_append]
  have compared : ") == ".toList ++ (literal s).toList ≠ ") != nil".toList := by
    intro same
    cases same
  have value := readPlain_literal s []
  rw [List.append_nil] at value
  unfold readComparison
  rw [spelled, not_number, dropPrefix?_append]
  simp only [readPlain_literal, if_neg compared, dropPrefix?_append, value, Option.bind_eq_bind,
    Option.bind_some]
  rfl

theorem read_present :
    readComparison ("defaults.string(forKey: " ++ literal key ++ ")" ++ " != nil").toList =
      some (.present key) := by
  have spelled : ("defaults.string(forKey: " ++ literal key ++ ")" ++ " != nil").toList =
      "defaults.string(forKey: ".toList ++ ((literal key).toList ++ ") != nil".toList) := by
    simp [String.toList_append]
  unfold readComparison
  -- the ending is compared with itself, which must not be computed
  generalize ") != nil".toList = ending at spelled ⊢
  rw [spelled, not_number, dropPrefix?_append]
  simp only [readPlain_literal, if_true, Option.bind_eq_bind, Option.bind_some]
  rfl

/-! ## Agreement -/

/-- The condition of a dialog is read back as a comparison that has, in every store, the result of the
twin's evaluation: for every text as a key, and for every value that is not a double and not a whole
number beyond those that doubles tell apart. Where the numbers of the state fit a double, the two have
one truth value. -/
theorem condition_agrees (stateKey : String) (showWhen : Document)
    (exact : ∀ n, showWhen = .int n → n.natAbs ≤ 2 ^ 53) (other : ∀ x, showWhen ≠ .float x) :
    ∃ text c, condition (stateEntry stateKey) showWhen = .ok text ∧
      readComparison text.toList = some c ∧ c.holds = Intent.stateMatches stateKey showWhen ∧
      ∀ contents, Intent.StateFits contents → ∃ b, runOn c.holds contents = (.ok b, contents) ∧
        runOn (Intent.stateMatches stateKey showWhen) contents = (.ok b, contents) := by
  have agree {c : Comparison} (same : c.holds = Intent.stateMatches stateKey showWhen) contents
      (fits : Intent.StateFits contents) : ∃ b, runOn c.holds contents = (.ok b, contents) ∧
        runOn (Intent.stateMatches stateKey showWhen) contents = (.ok b, contents) := by
    have expected : showWhen.fitsDouble = true := by
      cases showWhen with
      | int n => exact Option.isSome_of_eq_some (Decimal.faithful_of_le (exact n rfl)).ofInteger?
      | _ => rfl
    have found := Intent.runOn_stateMatches ⟨stateKey, showWhen, "", true⟩ contents
    obtain ⟨b, matched⟩ := Intent.matchesAt_ok (d := ⟨stateKey, showWhen, "", true⟩) fits expected
    rw [matched] at found
    exact ⟨b, by rw [same]; exact found, found⟩
  have number {n : Int} (value : showWhen.whole? = some n) (bound : n.natAbs ≤ 2 ^ 53)
      (shape : Intent.stateMatches stateKey showWhen = (do
        let stored ← Store.double (stateEntry stateKey)
        return stored == (← Store.ofNumber showWhen.toFloat))) :
      (Comparison.number (stateEntry stateKey) n).holds = Intent.stateMatches stateKey showWhen := by
    rw [shape, Document.toFloat_of_whole value (Decimal.faithful_of_le bound)]
    rfl
  cases showWhen with
  | float x => exact absurd rfl (other x)
  | bool b =>
    have value : (if b then "1" else "0") = toString (if b then 1 else 0 : Int) := by
      cases b <;> rfl
    have same := number (n := if b then 1 else 0) rfl (by cases b <;> decide) rfl
    refine ⟨_, .number (stateEntry stateKey) (if b then 1 else 0), rfl, ?_, same, agree same⟩
    rw [← read_number, ← value]
  | int n =>
    have same := number (n := n) rfl (exact n rfl) rfl
    have short := Decimal.isWritable_of_ofInteger? (Decimal.faithful_of_le (exact n rfl)).ofInteger?
    exact ⟨_, .number (stateEntry stateKey) n, condition_int _ short, read_number _ n, same, agree same⟩
  | text s =>
    have same : (Comparison.text (stateEntry stateKey) s).holds = Intent.stateMatches stateKey (.text s) := rfl
    exact ⟨_, .text (stateEntry stateKey) s, rfl, read_text _ s, same, agree same⟩
  | _ => exact ⟨_, .present (stateEntry stateKey), rfl, read_present _, rfl, agree rfl⟩

/-- A key with quotes in it and a negative number. -/
theorem condition_agrees_quoted :
    ∃ text c, condition (stateEntry "\"level\"") (.int (-3)) = .ok text ∧
      readComparison text.toList = some c ∧
      c.holds = Intent.stateMatches "\"level\"" (.int (-3)) ∧
      ∃ b, runOn c.holds {} = (.ok b, {}) ∧
        runOn (Intent.stateMatches "\"level\"" (.int (-3))) {} = (.ok b, {}) := by
  have exact : ∀ n, Document.int (-3) = .int n → n.natAbs ≤ 2 ^ 53 := by
    rintro n ⟨⟩
    decide
  obtain ⟨text, c, written, read, same, agree⟩ := condition_agrees "\"level\"" (.int (-3)) exact nofun
  exact ⟨text, c, written, read, same, agree {} Intent.stateFits_empty⟩

end ShortcutRelay.Swift
