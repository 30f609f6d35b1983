import ShortcutRelay.Proofs.Artifacts.Assembly
import ShortcutRelay.Proofs.Template.Symbol
import ShortcutRelay.Proofs.Text.Pieces

/-!
# What type declarations tell

Identifiers stand in the declarations as they are, spaces and line breaks included. Nevertheless two
configurations have the same declarations just if their shortcuts have the same signatures.

* `Shortcut.signature` : the identifier of a shortcut with the signatures of its parameters;
* `Tells P code key` : a text in front of others tells a key, and where it ends; `tells_list` : so do
  several texts in front of one that none of them begins with;
* `tells_field`, `tells_parameters`, `tells_variant` : the parts of the declarations tell signatures;
* `declarations_eq_iff` : and so do the declarations.
-/

namespace ShortcutRelay

def Parameter.signature (p : Parameter) : String × ValueType × Bool :=
  (p.name, p.type, p.isOptional)

def Shortcut.signature (s : Shortcut) : String × List (String × ValueType × Bool) :=
  (s.identifier, s.parameters.map (·.signature))

namespace TypeDeclarations
open Text Template

/-! ## Texts that tell where they end -/

section Tells

variable {α β : Type}

/-- A text in front of any others tells a key: two of them begin in the same way just if their keys
are the same, and then the same follows. -/
def Tells (P : α → Prop) (code : α → List Char) (key : α → β) : Prop :=
  ∀ a b, P a → P b → ∀ r r', code a ++ r = code b ++ r' ↔ key a = key b ∧ r = r'

/-- Texts that are cut at the first place of a character. -/
theorem append_cons_eq_iff {x : Char} {u v r r' : List Char} (hu : x ∉ u) (hv : x ∉ v) :
    u ++ x :: r = v ++ x :: r' ↔ u = v ∧ r = r' := by
  induction u generalizing v with
  | nil =>
    cases v with
    | nil => simp
    | cons c v =>
      have other : x ≠ c := fun same => hv (same ▸ List.mem_cons_self)
      simp [other]
  | cons c u ih =>
    rw [List.mem_cons, not_or] at hu
    cases v with
    | nil => simp [Ne.symm hu.1]
    | cons c' v =>
      rw [List.mem_cons, not_or] at hv
      simp [ih hu.2 hv.2, and_assoc]

/-- Several texts that tell keys, in front of a stop that none of them begins with. -/
theorem tells_list {P : α → Prop} {code : α → List Char} {key : α → β} (h : Tells P code key)
    {stop : List Char} (apart : ∀ a, P a → ∀ r r', code a ++ r ≠ stop ++ r') :
    Tells (fun xs => ∀ x ∈ xs, P x) (fun xs => xs.flatMap code ++ stop) (List.map key) := by
  intro xs ys hxs hys r r'
  induction xs generalizing ys with
  | nil =>
    cases ys with
    | nil => simp
    | cons y ys =>
      have ends := apart y (hys y List.mem_cons_self)
      simp [Ne.symm (ends _ _)]
  | cons x xs ih =>
    have hx := hxs x List.mem_cons_self
    cases ys with
    | nil =>
      have ends := apart x hx
      simp [ends]
    | cons y ys =>
      have first := h x y hx (hys y List.mem_cons_self)
      have rest := ih ys (fun x mem => hxs x (List.mem_cons_of_mem _ mem))
        fun y mem => hys y (List.mem_cons_of_mem _ mem)
      simp only [List.append_assoc] at rest
      simp only [List.flatMap_cons, List.append_assoc, first, rest, List.map_cons, List.cons.injEq,
        and_assoc]

end Tells

/-! ## Lines -/

def lines (texts : List String) : List Char :=
  texts.flatMap fun text => '\n' :: text.toList

theorem lines_joinLines {texts : List String} (some_text : texts ≠ []) :
    '\n' :: (joinLines texts).toList = lines texts := by
  cases texts with
  | nil => exact absurd rfl some_text
  | cons text texts =>
    rw [joinLines, toList_joinWith_cons]
    rfl

theorem lines_cons (text : String) (texts : List String) :
    lines (text :: texts) = '\n' :: (text.toList ++ lines texts) := rfl

/-- Lines that were joined before they are joined with others. -/
theorem lines_joinLines_cons {texts : List String} (some_text : texts ≠ []) (others : List String) :
    lines (joinLines texts :: others) = lines texts ++ lines others := by
  rw [lines_cons, ← List.cons_append, lines_joinLines some_text]

theorem lines_eq_iff {texts others : List String} (some_text : texts ≠ []) (some_other : others ≠ []) :
    lines texts = lines others ↔ joinLines texts = joinLines others := by
  rw [← lines_joinLines some_text, ← lines_joinLines some_other, List.cons_inj_right,
    String.toList_inj]

/-- Lines after a first one are told from others after the same one. -/
theorem joinLines_cons_inj_right {text : String} {texts others : List String}
    (some_text : texts ≠ []) (some_other : others ≠ []) :
    joinLines (text :: texts) = joinLines (text :: others) ↔ joinLines texts = joinLines others := by
  rw [← lines_eq_iff some_text some_other,
    ← lines_eq_iff (List.cons_ne_nil text texts) (List.cons_ne_nil text others), lines_cons,
    lines_cons, List.cons_inj_right, List.append_cancel_left_eq]

theorem joinLines_cons_inj_left {text other : String} {texts : List String} :
    joinLines (text :: texts) = joinLines (other :: texts) ↔ text = other := by
  rw [joinLines, joinLines, ← String.toList_inj, toList_joinWith_cons, toList_joinWith_cons,
    List.append_cancel_right_eq, String.toList_inj]

def line (made : Except UnknownType String) : List Char :=
  lines (made.toOption.toList)

theorem line_ok (text : String) : line (.ok text) = '\n' :: text.toList :=
  List.append_nil _

/-- What is made of the items of a list, line by line. -/
theorem lines_mapPositions {α : Type} {f : α → Except UnknownType String} {xs : List α}
    {texts : List String} (made : mapPositions (fun _ x => f x) 0 xs = .ok texts) :
    lines texts = xs.flatMap fun x => line (f x) := by
  refine flatMap_mapPositions made fun x _ _ text one => ?_
  rw [one, line_ok]

/-! ## Fields -/

theorem semicolon_notMem_typeName {t : ValueType} (known : t.IsKnown) {word : String}
    (named : typeName t = .ok word) : ';' ∉ word.toList := by
  cases t with
  | other name => exact absurd rfl (known name)
  | text | number | boolean | date =>
    cases named
    decide

theorem typeName_eq_iff {t t' : ValueType} {word word' : String} (named : typeName t = .ok word)
    (named' : typeName t' = .ok word') : word = word' ↔ t = t' := by
  constructor
  · rintro rfl
    cases t <;> cases named <;> cases t' <;> simp_all [typeName]
  · rintro rfl
    exact Except.ok.inj (named.symm.trans named')

def mark (isOptional : Bool) : List Char :=
  if isOptional then ['?'] else []

theorem append_mark_eq_iff {u v : List Char} (hu : '?' ∉ u) (hv : '?' ∉ v) {a b : Bool} :
    u ++ mark a = v ++ mark b ↔ u = v ∧ a = b := by
  cases a <;> cases b <;> simp [mark]
  · rintro rfl
    simp at hu
  · rintro rfl
    simp at hv

variable {p q : Parameter} {s : Shortcut}

theorem notMem_name (checked : p.Checked) {c : Char} (special : c ∈ [' ', '?', ':']) :
    c ∉ p.name.toList := by
  obtain ⟨noPart, noBreak⟩ : isIdentifierPart c = false ∧ c ≠ '\n' := by
    simp only [List.mem_cons, List.not_mem_nil, or_false] at special
    rcases special with rfl | rfl | rfl <;> decide
  intro mem
  rcases isPart_or_lineBreak checked.named c mem with part | broken
  · cases noPart.symm.trans part
  · exact noBreak broken

theorem line_field (checked : p.Checked) : ∃ word, typeName p.type = .ok word ∧
    line (field p) = "\n    ".toList ++
      ((p.name.toList ++ mark p.isOptional) ++ ':' :: ' ' :: (word.toList ++ [';'])) := by
  obtain ⟨word, named⟩ := typeName_ok checked.type
  refine ⟨word, named, ?_⟩
  have made : field p =
      .ok ("    " ++ p.name ++ (if p.isOptional then "?" else "") ++ ": " ++ word ++ ";") := by
    unfold field
    rw [named]
    rfl
  rw [made, line_ok]
  cases p.isOptional <;> simp [mark]

/-- A field tells the signature of its parameter. -/
theorem tells_field : Tells Parameter.Checked (fun p => line (field p)) Parameter.signature := by
  intro p q hp hq r r'
  obtain ⟨word, named, shown⟩ := line_field hp
  obtain ⟨word', named', shown'⟩ := line_field hq
  have noQuery (p : Parameter) (h : p.Checked) : '?' ∉ p.name.toList := notMem_name h (by decide)
  have noColon (p : Parameter) (h : p.Checked) : ':' ∉ p.name.toList ++ mark p.isOptional := by
    have name := notMem_name h (c := ':') (by decide)
    cases p.isOptional <;> simpa [mark] using name
  have words : word.toList ++ ';' :: r = word'.toList ++ ';' :: r' ↔ p.type = q.type ∧ r = r' := by
    rw [append_cons_eq_iff (semicolon_notMem_typeName hp.type named)
      (semicolon_notMem_typeName hq.type named'), String.toList_inj, typeName_eq_iff named named']
  simp only [shown, shown', List.append_assoc, List.append_cancel_left_eq]
  simp only [← List.append_assoc p.name.toList, ← List.append_assoc q.name.toList, List.cons_append]
  rw [append_cons_eq_iff (noColon p hp) (noColon q hq)]
  simp only [List.append_assoc, List.singleton_append, List.cons.injEq, true_and, words]
  rw [append_mark_eq_iff (noQuery p hp) (noQuery q hq), String.toList_inj]
  simp only [Parameter.signature, Prod.mk.injEq]
  tauto

/-! ## Variants -/

/-- What stands for the parameters of a shortcut. -/
def parametersCode (ps : List Parameter) : List Char :=
  if ps.isEmpty then "\n      parameters?: never;".toList
  else "\n      parameters: \x7b".toList ++
    ((ps.flatMap fun p => line (field p)) ++ "\n      \x7d;".toList)

/-- A field is no end of fields, whose third indentation goes on with blanks. -/
theorem line_field_ne_end (checked : p.Checked) (r r' : List Char) :
    line (field p) ++ r ≠ "\n      \x7d;".toList ++ r' := by
  obtain ⟨word, -, shown⟩ := line_field checked
  have blank : ∀ c ∈ (p.name.toList ++ mark p.isOptional) ++ [':'], c ≠ ' ' := by
    have name := notMem_name checked (c := ' ') (by decide)
    intro c mem
    rintro rfl
    cases p.isOptional <;> simp [mark, name] at mem
  have indented : "\n      \x7d;".toList = "\n    ".toList ++ ' ' :: " \x7d;".toList := by decide
  rw [shown, indented]
  simp only [List.append_assoc, ne_eq, List.append_cancel_left_eq]
  intro same
  cases front : p.name.toList ++ mark p.isOptional with
  | nil =>
    rw [← List.append_assoc, front] at same
    simp at same
  | cons c cs =>
    rw [← List.append_assoc, front, List.cons_append, List.cons_append] at same
    refine blank c ?_ (List.cons.inj same).1
    rw [front]
    exact List.mem_cons_self

theorem tells_parameters : Tells (fun ps : List Parameter => ∀ p ∈ ps, p.Checked) parametersCode
    (List.map Parameter.signature) := by
  intro ps qs hps hqs r r'
  have listed := tells_list tells_field (fun p h => line_field_ne_end h) ps qs hps hqs r r'
  cases ps with
  | nil =>
    cases qs with
    | nil => simp
    | cons q qs => simp [parametersCode]
  | cons p ps =>
    cases qs with
    | nil => simp [parametersCode]
    | cons q qs =>
      simp only [parametersCode, List.isEmpty_cons, Bool.false_eq_true, if_false, List.append_assoc,
        List.append_cancel_left_eq] at listed ⊢
      exact listed

theorem quote_notMem_identifier (checked : s.Checked) : '\'' ∉ s.identifier.toList :=
  notMem_of_symbolCase checked.symbol (by decide) (by decide) (by decide)

theorem line_variant (checked : s.Checked) : line (variant s) =
    "\n  | \x7b\n      identifier: '".toList ++ (s.identifier.toList ++ '\'' ::
      (";\n      nonce: string;".toList ++ (parametersCode s.parameters ++
        "\n      userConfirmed?: boolean;\n    \x7d".toList))) := by
  obtain ⟨fields, made⟩ := mapPositions_ok
    (fun p mem (_ : Nat) => field_ok (checked.parameters p mem).type) 0
  have number := length_mapPositions made
  have listed := lines_mapPositions made
  unfold variant parametersCode
  rw [made, ok_bind, ← listed]
  change line (.ok (joinLines _)) = _
  rw [line_ok, lines_joinLines (by simp)]
  cases parameters : s.parameters with
  | nil => simp [lines]
  | cons p ps =>
    have some_field : fields ≠ [] := by
      rintro rfl
      rw [parameters] at number
      cases number
    have nested := lines_joinLines_cons some_field
    simp [lines_cons, nested]
    rfl

/-- A variant tells the signature of its shortcut. -/
theorem tells_variant : Tells Shortcut.Checked (fun s => line (variant s)) Shortcut.signature := by
  intro s s' hs hs' r r'
  have parameters := tells_parameters s.parameters s'.parameters hs.parameters hs'.parameters
  simp only [line_variant hs, line_variant hs', List.append_assoc, List.append_cancel_left_eq,
    List.cons_append]
  rw [append_cons_eq_iff (quote_notMem_identifier hs) (quote_notMem_identifier hs'),
    String.toList_inj, List.append_cancel_left_eq, parameters, List.append_cancel_left_eq]
  simp only [Shortcut.signature, Prod.mk.injEq, and_assoc]

/-- A variant is no end of variants. -/
theorem line_variant_ne_end (checked : s.Checked) (r r' : List Char) :
    line (variant s) ++ r ≠ [';'] ++ r' := by
  rw [line_variant checked]
  simp

theorem variant_ok (checked : s.Checked) : ∃ text, variant s = .ok text :=
  variant_ok_of_known fun p mem => (checked.parameters p mem).type

/-! ## The whole -/

/-- All that is not a variant depends on the source only. -/
theorem file_eq_iff {c c' : Config} {texts texts' : List String}
    (made : mapPositions (fun _ s => variant s) 0 c.shortcuts = .ok texts)
    (made' : mapPositions (fun _ s => variant s) 0 c'.shortcuts = .ok texts')
    (some_text : texts ≠ []) (some_text' : texts' ≠ []) (source : String) :
    (∃ text, file c source = .ok text ∧ file c' source = .ok text) ↔ lines texts = lines texts' := by
  unfold file
  rw [made, made', ok_bind, ok_bind, List.isEmpty_eq_false_iff.mpr some_text,
    List.isEmpty_eq_false_iff.mpr some_text', if_neg Bool.false_ne_true, if_neg Bool.false_ne_true,
    lines_eq_iff some_text some_text']
  constructor
  · rintro ⟨text, here, there⟩
    have same := Except.ok.inj (here.trans there.symm)
    simp only [joinLines_cons_inj_right (List.cons_ne_nil _ _) (List.cons_ne_nil _ _)] at same
    have members := joinLines_cons_inj_left.mp same
    exact (String.append_left_inj _).mp members
  · intro same
    rw [same]
    exact ⟨_, rfl, rfl⟩

/-- The declarations of two configurations that were read are the same just if their shortcuts have
the same signatures in the same order; two shortcuts have the same variant just if they have the
same signature. -/
theorem declarations_eq_iff {d d' : Document} {c c' : Config} (accepted : Config.ofDocument d = .ok c)
    (accepted' : Config.ofDocument d' = .ok c') (source : String) :
    ((∃ text, file c source = .ok text ∧ file c' source = .ok text) ↔
      c.shortcuts.map (·.signature) = c'.shortcuts.map (·.signature)) ∧
    ∀ s ∈ c.shortcuts, ∀ s' ∈ c'.shortcuts,
      ((∃ text, variant s = .ok text ∧ variant s' = .ok text) ↔ s.signature = s'.signature) := by
  have checked := checked_of_ofDocument accepted
  have checked' := checked_of_ofDocument accepted'
  constructor
  · have some_variant {c : Config} (checked : c.Checked) : ∃ texts,
        mapPositions (fun _ s => variant s) 0 c.shortcuts = .ok texts ∧ texts ≠ [] := by
      obtain ⟨texts, made⟩ := mapPositions_ok
        (fun s mem (_ : Nat) => variant_ok (checked.shortcuts s mem)) 0
      refine ⟨texts, made, ?_⟩
      rintro rfl
      exact checked.some_shortcut (List.length_eq_zero_iff.mp (length_mapPositions made).symm)
    obtain ⟨texts, made, some_text⟩ := some_variant checked
    obtain ⟨texts', made', some_text'⟩ := some_variant checked'
    have told := tells_list tells_variant (fun s h => line_variant_ne_end h) c.shortcuts c'.shortcuts
      checked.shortcuts checked'.shortcuts [] []
    rw [file_eq_iff made made' some_text some_text', lines_mapPositions made,
      lines_mapPositions made']
    simpa using told
  · intro s mem s' mem'
    obtain ⟨text, made⟩ := variant_ok (checked.shortcuts s mem)
    obtain ⟨text', made'⟩ := variant_ok (checked'.shortcuts s' mem')
    have told := tells_variant s s' (checked.shortcuts s mem) (checked'.shortcuts s' mem') [] []
    simp only [made, made', line_ok] at told ⊢
    simpa [String.toList_inj, eq_comm] using told

/-- A blank where another identifier breaks the line is told from it, though both have one symbol. -/
theorem declarations_of_blank_and_break :
    ∃ c c', Config.ofDocument (.ofShortcuts [.spoken "start timer" "Start" "Go" []]) = .ok c ∧
      Config.ofDocument (.ofShortcuts [.spoken "start\ntimer" "Start" "Go" []]) = .ok c' ∧
      ¬ ∃ text, file c "intents.json" = .ok text ∧ file c' "intents.json" = .ok text := by
  have told := @declarations_eq_iff (.ofShortcuts [.spoken "start timer" "Start" "Go" []])
    (.ofShortcuts [.spoken "start\ntimer" "Start" "Go" []]) _ _ rfl rfl "intents.json"
  refine ⟨_, _, rfl, rfl, fun same => ?_⟩
  have signatures := told.1.mp same
  revert signatures
  decide

end TypeDeclarations

end ShortcutRelay
