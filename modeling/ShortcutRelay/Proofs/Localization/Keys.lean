import Mathlib
import ShortcutRelay.Proofs.Json.Lexeme
import ShortcutRelay.Proofs.Swift.LookUps
import ShortcutRelay.Proofs.Template.Symbol
import ShortcutRelay.Proofs.Text.Pieces

/-!
# Keys of texts

A key is made of names with points between them: the identifier of a shortcut and the place of the
text in it. No name has a point in it, so that a key tells its names.

* `Place` : where a text stands in a shortcut, `Place.key` : its key, `Place.key_eq` : the names in it;
* `key_inj` : texts of different shortcuts or in different places have different keys;
* `shortcutTexts` : the texts of a shortcut with their places, `places_nodup` : no place comes twice;
* `mem_configEntries` : the entries of a configuration are the texts that are looked up;
* `strings_hold_texts` : the mapping of an accepted configuration holds each text under a key of its
  own.
-/

namespace ShortcutRelay.Localization
open Text Template

/-! ## Places -/

/-- Where a text stands in a shortcut. Parameters and dialogs are counted from zero. -/
inductive Place
  | title
  | description
  | parameterTitle (index : Nat)
  | parameterDescription (index : Nat)
  | prompt (index : Nat)
  | dialog (index : Nat)

namespace Place

def path : Place → List String
  | title => ["title"]
  | description => ["description"]
  | parameterTitle i => ["parameters", toString i, "title"]
  | parameterDescription i => ["parameters", toString i, "description"]
  | prompt i => ["parameters", toString i, "prompt"]
  | dialog i => ["stateDialogs", toString i, "message"]

def key (identifier : String) : Place → String
  | title => titleKey identifier
  | description => descriptionKey identifier
  | parameterTitle i => parameterTitleKey identifier i
  | parameterDescription i => parameterDescriptionKey identifier i
  | prompt i => promptKey identifier i
  | dialog i => dialogKey identifier i

def index : Place → Nat
  | title | description => 0
  | parameterTitle i | parameterDescription i | prompt i | dialog i => i

theorem path_inj {p q : Place} (same : p.path = q.path) : p = q := by
  cases p <;> cases q <;> simp [path] at same ⊢ <;> exact same

theorem point_notMem_path (p : Place) : ∀ name ∈ p.path, '.' ∉ name.toList := by
  have digits (n : Nat) : '.' ∉ Nat.toDigits 10 n := fun mem => by
    cases Json.isDigit_of_mem_toDigits mem
  cases p <;> simp [path, digits]

theorem key_eq (identifier : String) (p : Place) :
    p.key identifier = joinWith "." (identifier :: p.path) := by
  apply String.toList_inj.mp
  cases p <;> simp [key, path, titleKey, descriptionKey, parameterTitleKey, parameterDescriptionKey,
    promptKey, parameterKey, dialogKey, toList_joinWith_cons]

/-- The names in a key are found again. -/
theorem eq_of_key_eq {identifier : String} (whole : '.' ∉ identifier.toList) {p : Place}
    {names : List String} (some_name : names ≠ []) (each : ∀ name ∈ names, '.' ∉ name.toList)
    (same : p.key identifier = joinWith "." names) : identifier :: p.path = names := by
  rw [key_eq] at same
  have parts : ∀ name ∈ identifier :: p.path, '.' ∉ name.toList :=
    List.forall_mem_cons.mpr ⟨whole, p.point_notMem_path⟩
  exact eq_of_joinWith_eq (List.cons_ne_nil _ _) some_name parts each same

end Place

variable {s s' : Shortcut}

/-! ## Keys -/

theorem point_notMem_identifier (h : s.Checked) : '.' ∉ s.identifier.toList :=
  notMem_of_symbolCase h.symbol (by decide) (by decide) (by decide)

/-- Texts of different shortcuts or in different places have different keys. -/
theorem key_inj (h : s.Checked) (h' : s'.Checked) {p p' : Place}
    (same : p.key s.identifier = p'.key s'.identifier) : s.identifier = s'.identifier ∧ p = p' := by
  rw [p'.key_eq] at same
  have parts : ∀ name ∈ s'.identifier :: p'.path, '.' ∉ name.toList :=
    List.forall_mem_cons.mpr ⟨point_notMem_identifier h', p'.point_notMem_path⟩
  have names := Place.eq_of_key_eq (point_notMem_identifier h) (List.cons_ne_nil _ _) parts same
  obtain ⟨identifiers, paths⟩ := List.cons.inj names
  exact ⟨identifiers, Place.path_inj paths⟩

/-- The messages of the system have keys that no shortcut has. -/
theorem key_ne_system (h : s.Checked) (p : Place) :
    p.key s.identifier ∉ [appGroupFailed.key, timedOut.key] := by
  have failed : appGroupFailed.key = joinWith "." ["system", "error", "appGroupFailed"] := by decide
  have ended : timedOut.key = joinWith "." ["system", "timeout"] := by decide
  have whole := point_notMem_identifier h
  rw [failed, ended, List.mem_cons, List.mem_singleton]
  rintro (same | same)
  · have names := Place.eq_of_key_eq whole (List.cons_ne_nil _ _) (by decide) same
    cases p <;> simp [Place.path] at names
  · have names := Place.eq_of_key_eq whole (List.cons_ne_nil _ _) (by decide) same
    cases p <;> simp [Place.path] at names

/-! ## The texts of a shortcut -/

theorem map_mapIdx {α β γ : Type} (g : β → γ) (f : Nat → α → β) (as : List α) :
    (as.mapIdx f).map g = as.mapIdx fun i a => g (f i a) := by
  simp [List.mapIdx_eq_zipIdx_map]

def givenText (p : Place) (text : Option String) : List (Place × String) :=
  (text.filter (· ≠ "")).toList.map (p, ·)

def parameterTexts (index : Nat) (p : Parameter) : List (Place × String) :=
  [(.parameterTitle index, p.title)] ++ givenText (.parameterDescription index) p.description ++
  [(.prompt index, p.prompt)]

def shortcutTexts (s : Shortcut) : List (Place × String) :=
  [(.title, s.title)] ++ givenText .description s.description ++
  (s.parameters.mapIdx parameterTexts).flatten ++
  s.stateDialogs.mapIdx fun i d => (.dialog i, d.message)

def placedEntry (identifier : String) (t : Place × String) : String × String :=
  (t.1.key identifier, t.2)

theorem givenEntry_eq (identifier : String) (p : Place) (text : Option String) :
    givenEntry (p.key identifier) text = (givenText p text).map (placedEntry identifier) := by
  unfold givenEntry givenText
  cases text with
  | none => rfl
  | some text => by_cases empty : text = "" <;> simp [empty, Option.filter, placedEntry]

theorem parameterEntries_eq (identifier : String) (i : Nat) (p : Parameter) :
    parameterEntries identifier i p = (parameterTexts i p).map (placedEntry identifier) := by
  have described := givenEntry_eq identifier (.parameterDescription i) p.description
  unfold parameterEntries parameterTexts
  rw [List.map_append, List.map_append, ← described]
  rfl

theorem shortcutEntries_eq (s : Shortcut) :
    shortcutEntries s = (shortcutTexts s).map (placedEntry s.identifier) := by
  have described := givenEntry_eq s.identifier .description s.description
  have parameters : parameterEntries s.identifier =
      fun i p => (parameterTexts i p).map (placedEntry s.identifier) :=
    funext fun i => funext (parameterEntries_eq s.identifier i)
  unfold shortcutEntries shortcutTexts
  rw [List.map_append, List.map_append, List.map_append, ← described, List.map_flatten,
    map_mapIdx, map_mapIdx, parameters]
  rfl

/-! ## No place twice -/

theorem mem_givenText {p q : Place} {text : Option String}
    (h : q ∈ (givenText p text).map Prod.fst) : q = p := by
  simp only [givenText, List.map_map, List.mem_map, Function.comp_apply] at h
  obtain ⟨-, -, same⟩ := h
  exact same.symm

theorem givenText_nodup (p : Place) (text : Option String) :
    ((givenText p text).map Prod.fst).Nodup := by
  unfold givenText
  cases text.filter (· ≠ "") <;> simp

theorem mem_parameterTexts {i : Nat} {p : Parameter} {q : Place}
    (h : q ∈ (parameterTexts i p).map Prod.fst) :
    q = .parameterTitle i ∨ q = .parameterDescription i ∨ q = .prompt i := by
  simp only [parameterTexts, List.map_append, List.mem_append, List.map_cons, List.map_nil,
    List.mem_singleton] at h
  rcases h with (rfl | described) | rfl
  · exact .inl rfl
  · exact .inr (.inl (mem_givenText described))
  · exact .inr (.inr rfl)

theorem parameterTexts_nodup (i : Nat) (p : Parameter) :
    ((parameterTexts i p).map Prod.fst).Nodup := by
  have described {q : Place} (h : q ∈ (givenText (.parameterDescription i) p.description).map Prod.fst) :
      q = .parameterDescription i := mem_givenText h
  simp only [parameterTexts, List.map_append, List.map_cons, List.map_nil]
  refine List.Nodup.append (List.Nodup.append (List.nodup_singleton _) (givenText_nodup ..) ?_)
    (List.nodup_singleton _) ?_
  · intro q title other
    cases (List.mem_singleton.mp title).symm.trans (described other)
  · intro q front prompt
    obtain rfl := List.mem_singleton.mp prompt
    rcases List.mem_append.mp front with title | other
    · cases List.mem_singleton.mp title
    · cases described other

/-- Blocks of texts that each have a number of their own have no place in common. -/
theorem nodup_flatten_mapIdx {α : Type} {f : Nat → α → List (Place × String)}
    (own : ∀ i a, ∀ q ∈ (f i a).map Prod.fst, q.index = i)
    (each : ∀ i a, ((f i a).map Prod.fst).Nodup) (as : List α) :
    ((as.mapIdx f).flatten.map Prod.fst).Nodup := by
  rw [List.map_flatten, map_mapIdx, List.nodup_flatten]
  constructor
  · intro block mem
    obtain ⟨i, bound, rfl⟩ := List.mem_mapIdx.mp mem
    exact each i _
  · rw [List.pairwise_iff_getElem]
    intro i j bound bound' before q here there
    rw [List.getElem_mapIdx] at here there
    have same : i = j := (own i _ q here).symm.trans (own j _ q there)
    omega

theorem mem_parametersTexts {ps : List Parameter} {q : Place}
    (h : q ∈ (ps.mapIdx parameterTexts).flatten.map Prod.fst) :
    ∃ i, q = .parameterTitle i ∨ q = .parameterDescription i ∨ q = .prompt i := by
  rw [List.map_flatten, map_mapIdx] at h
  obtain ⟨block, listed, mem⟩ := List.mem_flatten.mp h
  obtain ⟨i, bound, rfl⟩ := List.mem_mapIdx.mp listed
  exact ⟨i, mem_parameterTexts mem⟩

theorem parametersTexts_nodup (ps : List Parameter) :
    ((ps.mapIdx parameterTexts).flatten.map Prod.fst).Nodup := by
  refine nodup_flatten_mapIdx (fun i p q mem => ?_) parameterTexts_nodup ps
  rcases mem_parameterTexts mem with rfl | rfl | rfl <;> rfl

theorem mem_dialogTexts {ds : List ConditionalDialog} {q : Place}
    (h : q ∈ (ds.mapIdx fun i d => (Place.dialog i, d.message)).map Prod.fst) : ∃ i, q = .dialog i := by
  rw [map_mapIdx] at h
  obtain ⟨i, bound, rfl⟩ := List.mem_mapIdx.mp h
  exact ⟨i, rfl⟩

theorem dialogTexts_nodup (ds : List ConditionalDialog) :
    ((ds.mapIdx fun i d => (Place.dialog i, d.message)).map Prod.fst).Nodup := by
  rw [map_mapIdx]
  refine List.pairwise_iff_getElem.mpr fun i j bound bound' before same => ?_
  rw [List.getElem_mapIdx, List.getElem_mapIdx] at same
  cases same
  omega

theorem places_nodup (s : Shortcut) : ((shortcutTexts s).map Prod.fst).Nodup := by
  have described {q : Place} (h : q ∈ (givenText .description s.description).map Prod.fst) :
      q = .description := mem_givenText h
  -- places of different kinds are different, so that the four lists have none in common
  simp only [shortcutTexts, List.map_append, List.map_cons, List.map_nil]
  refine List.Nodup.append (List.Nodup.append (List.Nodup.append (List.nodup_singleton _)
    (givenText_nodup ..) ?_) (parametersTexts_nodup _) ?_) (dialogTexts_nodup _) ?_
  · intro q title other
    cases (List.mem_singleton.mp title).symm.trans (described other)
  · intro q front other
    obtain ⟨i, place⟩ := mem_parametersTexts other
    rcases List.mem_append.mp front with title | given
    · cases List.mem_singleton.mp title
      simp at place
    · cases described given
      simp at place
  · intro q front other
    obtain ⟨j, rfl⟩ := mem_dialogTexts other
    rcases List.mem_append.mp front with front | inside
    · rcases List.mem_append.mp front with title | given
      · cases List.mem_singleton.mp title
      · cases described given
    · obtain ⟨i, place⟩ := mem_parametersTexts inside
      simp at place

/-! ## The texts of a configuration -/

theorem mem_shortcutEntries_of_looksUp {key text code : String} (h : LooksUp s key text code) :
    (key, text) ∈ shortcutEntries s ∨
      (key, text) ∈ [(appGroupFailed.key, appGroupFailed.text), (timedOut.key, timedOut.text)] := by
  have parameter {i : Nat} {p : Parameter} (here : s.parameters[i]? = some p) {e : String × String}
      (mem : e ∈ parameterEntries s.identifier i p) : e ∈ shortcutEntries s := by
    obtain ⟨bound, rfl⟩ := List.getElem?_eq_some_iff.mp here
    have listed := List.mem_flatten.mpr ⟨_, List.mem_mapIdx.mpr ⟨i, bound, rfl⟩, mem⟩
    exact List.mem_append_left _ (List.mem_append_right _ listed)
  cases h with
  | title => exact .inl (by simp [shortcutEntries])
  | description given some_text =>
    have listed : (descriptionKey s.identifier, text) ∈
        givenEntry (descriptionKey s.identifier) s.description :=
      mem_givenEntry.mpr ⟨text, given, some_text, rfl⟩
    refine .inl (List.mem_append_left _ (List.mem_append_left _ ?_))
    exact List.mem_append_right _ listed
  | parameterTitle here => exact .inl (parameter here (by simp [parameterEntries]))
  | @parameterDescription i p _ here given some_text =>
    have listed : (parameterDescriptionKey s.identifier i, text) ∈
        givenEntry (parameterDescriptionKey s.identifier i) p.description :=
      mem_givenEntry.mpr ⟨text, given, some_text, rfl⟩
    refine .inl (parameter here (List.mem_append_left _ ?_))
    exact List.mem_append_right _ listed
  | prompt here => exact .inl (parameter here (by simp [parameterEntries]))
  | dialog here =>
    obtain ⟨bound, rfl⟩ := List.getElem?_eq_some_iff.mp here
    exact .inl (List.mem_append_right _ (List.mem_mapIdx.mpr ⟨_, bound, rfl⟩))
  | appGroupFailed => exact .inr (by simp)
  | timedOut => exact .inr (by simp)

/-- The entries of a configuration are the texts that are looked up. -/
theorem mem_configEntries {c : Config} (some_shortcut : c.shortcuts ≠ []) {key text : String} :
    (key, text) ∈ configEntries c ↔ ∃ s ∈ c.shortcuts, ∃ code, LooksUp s key text code := by
  constructor
  · exact looksUp_of_mem_configEntries some_shortcut
  · rintro ⟨s, mem, code, looked⟩
    rcases mem_shortcutEntries_of_looksUp looked with own | system
    · exact List.mem_append_left _ (List.mem_flatMap.mpr ⟨s, mem, own⟩)
    · exact List.mem_append_right _ system

theorem nodup_shortcutKeys (h : s.Checked) : (entryKeys (shortcutEntries s)).Nodup := by
  have keys : entryKeys (shortcutEntries s) =
      ((shortcutTexts s).map Prod.fst).map (Place.key s.identifier) := by
    rw [shortcutEntries_eq, entryKeys, List.map_map, List.map_map]
    rfl
  rw [keys]
  exact (places_nodup s).map fun p p' same => (key_inj h h same).2

theorem mem_shortcutKeys {key : String} (h : key ∈ entryKeys (shortcutEntries s)) :
    ∃ p : Place, key = p.key s.identifier := by
  rw [shortcutEntries_eq, entryKeys, List.map_map] at h
  obtain ⟨t, -, rfl⟩ := List.mem_map.mp h
  exact ⟨t.1, rfl⟩

/-- No two texts of a configuration have the same key. -/
theorem nodup_configKeys {c : Config} (h : c.Checked) : (entryKeys (configEntries c)).Nodup := by
  have keys : entryKeys (configEntries c) =
      c.shortcuts.flatMap (fun s => entryKeys (shortcutEntries s)) ++ [appGroupFailed.key, timedOut.key] := by
    rw [configEntries, entryKeys, List.map_append, List.map_flatMap]
    rfl
  rw [keys]
  refine List.Nodup.append (List.nodup_flatMap.mpr ⟨fun s mem => ?_, ?_⟩) (by decide) ?_
  · exact nodup_shortcutKeys (h.shortcuts s mem)
  · refine (List.pairwise_map.mp h.identifiers).imp_of_mem fun mem mem' differ key here there => ?_
    obtain ⟨p, rfl⟩ := mem_shortcutKeys here
    obtain ⟨p', same⟩ := mem_shortcutKeys there
    exact differ (key_inj (h.shortcuts _ mem) (h.shortcuts _ mem') same).1
  · intro key own system
    obtain ⟨s, mem, here⟩ := List.mem_flatMap.mp own
    obtain ⟨p, rfl⟩ := mem_shortcutKeys here
    exact key_ne_system (h.shortcuts s mem) p system

/-- The texts of an accepted configuration have different keys. So the mapping holds one entry for
each, in the order of the configuration, and under its key each text that is looked up. -/
theorem strings_hold_texts {d : Document} {c : Config} (accepted : Config.ofDocument d = .ok c) :
    (entryKeys (configEntries c)).Nodup ∧ (strings c).toList = configEntries c ∧
    ∀ key text, (strings c).get? key = some text ↔
      ∃ s ∈ c.shortcuts, ∃ code, LooksUp s key text code := by
  have checked := checked_of_ofDocument accepted
  have distinct := nodup_configKeys checked
  have entries : (strings c).toList = configEntries c := OrderedMap.toList_ofList distinct
  refine ⟨distinct, entries, fun key text => ?_⟩
  rw [OrderedMap.get?_eq_some_iff, entries]
  exact mem_configEntries checked.some_shortcut

/-- A shortcut whose keys begin as those of the system do. -/
def systemShortcut : Shortcut where
  identifier := "system"
  title := "System"
  phrases := ["Report an error"]
  description := some "Reports errors"
  stateDialogs := [{ stateKey := "error", showWhen := .int 1, message := "Again?" }]
  parameters := [
    { name := "error", title := "Error", type := .text },
    { name := "timeout", title := "Timeout", type := .number, description := some "In seconds" }]

def reportShortcut : Shortcut where
  identifier := "systemReport"
  title := "Report"
  phrases := ["Show errors"]

def systemDocument : Document :=
  .ofShortcuts [
    .spoken "system" "System" "Report an error" [
      ("description", .text "Reports errors"),
      ("stateDialogs", .list [.ofFields [("stateKey", .text "error"), ("showWhen", .int 1),
        ("message", .text "Again?")]]),
      ("parameters", .list [
        .ofFields [("name", .text "error"), ("title", .text "Error"), ("type", .text "string")],
        .ofFields [("name", .text "timeout"), ("title", .text "Timeout"), ("type", .text "number"),
          ("description", .text "In seconds")]])],
    .spoken "systemReport" "Report" "Show errors" []]

theorem strings_hold_texts_system :
    Config.ofDocument systemDocument = .ok { shortcuts := [systemShortcut, reportShortcut] } ∧
    (entryKeys (configEntries { shortcuts := [systemShortcut, reportShortcut] })).Nodup ∧
    (strings { shortcuts := [systemShortcut, reportShortcut] }).toList =
      configEntries { shortcuts := [systemShortcut, reportShortcut] } ∧
    (strings { shortcuts := [systemShortcut, reportShortcut] }).get? "system.parameters.1.description" =
      some "In seconds" ∧
    (strings { shortcuts := [systemShortcut, reportShortcut] }).get? "system.timeout" = some "Done" := by
  have accepted : Config.ofDocument systemDocument =
      .ok { shortcuts := [systemShortcut, reportShortcut] } := rfl
  obtain ⟨distinct, entries, held⟩ := strings_hold_texts accepted
  have described : LooksUp systemShortcut "system.parameters.1.description" "In seconds" _ :=
    @LooksUp.parameterDescription systemShortcut 1 _ _ rfl rfl (by decide)
  have ended : LooksUp systemShortcut "system.timeout" "Done" _ := .timedOut
  exact ⟨accepted, distinct, entries,
    (held _ _).mpr ⟨_, List.mem_cons_self .., _, described⟩,
    (held _ _).mpr ⟨_, List.mem_cons_self .., _, ended⟩⟩

end ShortcutRelay.Localization
