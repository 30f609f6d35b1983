import ShortcutRelay.Proofs.Artifacts.Assembly
import ShortcutRelay.Proofs.Swift.Sources

/-!
# Literals that are closed

* `unbroken_of_closed` : a text that is written inside a literal has no line break, where the line is
  closed;
* `file_closed_where` : when every line of the file ends outside of literals;
* `image_breaks_out` : the name of an image that does not.
-/

namespace ShortcutRelay.Swift
open Text Template

-- A proof about a line goes through its characters.
set_option maxRecDepth 1500

/-! ## Texts inside literals -/

variable {p q : Cursor} {s t pre mid post : String}

/-- On one line a reader is at last in what it reads there. -/
theorem mode_of_leads (h : Leads p s q) (whole : Unbroken s) :
    s.toList.foldl Mode.next p.mode = q.mode := by
  unfold Leads at h
  unfold Unbroken at whole
  generalize s.toList = cs at h whole
  induction cs generalizing p with
  | nil =>
    cases h
    rfl
  | cons c cs ih =>
    obtain ⟨r, step, h⟩ := Option.bind_eq_some_iff.mp h
    have inside : ¬ isLineBreak c = true := by simp [whole c (List.mem_cons_self ..)]
    rw [Cursor.next?, if_neg inside] at step
    obtain ⟨-, same⟩ := Option.ite_none_left_eq_some.mp step
    cases same
    exact ih h fun x mem => whole x (List.mem_cons_of_mem _ mem)

/-- Code in front of a text on its first line changes nothing for the lines of the text. -/
theorem closed_append_iff (h : Leads .start s .code) (whole : Unbroken s) :
    Closed (s ++ t) ↔ Closed t := by
  obtain ⟨line, rest, found, appended⟩ := lines_append_of_unbroken whole t
  have same : EndsOutside (s.toList ++ line) ↔ EndsOutside line := by
    have led : s.toList.foldl Mode.next .code = .code := mode_of_leads h whole
    unfold EndsOutside
    rw [List.foldl_append, led]
  unfold Closed
  rw [found, appended, List.forall_mem_cons, List.forall_mem_cons, same]

/-- Code on one line is closed. -/
theorem closed_of_unbroken (h : Leads .code s .code) (whole : Unbroken s) : Closed s := by
  have led : s.toList.foldl Mode.next .code = .code := mode_of_leads h whole
  unfold Closed
  rw [lines_of_unbroken whole, List.forall_mem_singleton, EndsOutside, led]
  rfl

/-- A text without quotation marks and backslashes that is written inside a literal has no line break,
where all lines are closed. -/
theorem unbroken_of_closed (led : Leads .start pre .literal) (whole : Unbroken pre)
    (quotes : ∀ c ∈ mid.toList, c ≠ '"' ∧ c ≠ '\\') (closed : Closed (pre ++ mid ++ post)) :
    Unbroken mid := by
  cases found : mid.toList.find? isLineBreak with
  | none => exact fun c mem => Bool.eq_false_iff.mpr (List.find?_eq_none.mp found c mem)
  | some x =>
    obtain ⟨broken, before, after, spelled, unfound⟩ := List.find?_eq_some_iff_append.mp found
    have unbroken : ∀ c ∈ before, isLineBreak c = false := by simpa using unfound
    have inside : Leads .literal (String.ofList before) .literal := by
      refine leads_of_forall fun c mem => ?_
      rw [String.toList_ofList] at mem
      have other := quotes c (by rw [spelled]; exact List.mem_append_left _ mem)
      simp [Cursor.next?, Cursor.mode, Mode.next, other, unbroken c mem]
    have line : Unbroken (pre ++ String.ofList before) :=
      whole.append (unbroken_ofList (by simpa using unbroken))
    have reached : (pre ++ String.ofList before).toList.foldl Mode.next .code = .literal :=
      mode_of_leads (led.append inside) line
    have parts : (pre ++ mid ++ post).toList =
        (pre ++ String.ofList before).toList ++ x :: (after ++ post.toList) := by
      simp [spelled]
    have first : lines (pre ++ mid ++ post) = (pre ++ String.ofList before).toList ::
        (after ++ post.toList).splitOnP isLineBreak := by
      rw [lines, parts]
      exact List.splitOnP_append_cons_of_forall_mem line x broken _
    have ends := closed _ (first ▸ List.mem_cons_self ..)
    rw [EndsOutside, reached] at ends
    cases ends

/-! ## Shortcuts -/

variable {s : Shortcut} {useKeys : Bool} {text : String}

theorem closed_parameterWrites {parameters : List Parameter} {className : String}
    (closed : Closed (parameterWrites parameters className)) {p : Parameter} (mem : p ∈ parameters) :
    Closed (parameterWrite className p) := by
  unfold parameterWrites at closed
  split at closed
  · next none_left =>
    rw [List.isEmpty_iff.mp none_left] at mem
    cases mem
  · have parts : "\n        // Write parameter values to shared UserDefaults\n" ++
        joinLines (parameters.map (parameterWrite className)) ++ "\n" =
        "\n        // Write parameter values to shared UserDefaults" ++ "\n" ++
          (joinLines (parameters.map (parameterWrite className)) ++ "\n" ++ "") := by
      simp [String.append_assoc]
    rw [parts] at closed
    have inside : Closed (joinLines (parameters.map (parameterWrite className))) := by
      intro line within
      refine closed line ?_
      rw [lines_append_break, lines_append_break]
      exact List.mem_append_right _ (List.mem_append_left _ within)
    exact closed_joinLines.mp inside _ (List.mem_map_of_mem mem)

/-- A text without quotation marks and backslashes that is logged behind the name of the type has no line
break, where the lines of the log are closed. -/
theorem unbroken_of_closed_log (checked : s.Checked) {front told : String}
    (opened : Leads .start front .literal) (goesOn : Leads .literal told .literal)
    (wholeFront : Unbroken front) (wholeTold : Unbroken told)
    (quotes : ∀ c ∈ mid.toList, c ≠ '"' ∧ c ≠ '\\')
    (closed : Closed (front ++ s.className ++ told ++ mid ++ post)) : Unbroken mid := by
  have type := plain_className checked
  have led : Leads .start (front ++ s.className ++ told) .literal :=
    (opened.append (leads_of_plain type).2).append goesOn
  have whole : Unbroken (front ++ s.className ++ told) :=
    (wholeFront.append type.unbroken).append wholeTold
  exact unbroken_of_closed led whole quotes closed

/-- Where the type of a shortcut is closed, its names have no line breaks. -/
theorem unbroken_of_closed_intentStruct (checked : s.Checked)
    (made : intentStruct s useKeys = .ok text) (closed : Closed text) : s.Unbroken := by
  obtain ⟨front, middle, back, rfl, -⟩ := intentStruct_parts made
  have each := closed_joinLines.mp closed
  constructor
  · have performing : Closed (performingLine s) := each _ (by simp)
    have parts : performingLine s = "        print(\"[" ++ s.className ++
        "] Performing shortcut: " ++ s.identifier ++ "\")" := by
      have indent : "        print(\"[" = "        " ++ "print(\"[" := by decide
      have told : "] Performing shortcut: " = "] " ++ "Performing shortcut: " := by decide
      simp only [performingLine, indent, told, String.append_assoc]
    have quotes : ∀ c ∈ s.identifier.toList, c ≠ '"' ∧ c ≠ '\\' := by
      refine fun c mem => ⟨?_, ?_⟩ <;> rintro rfl <;> exact notMem_identifier checked (by decide) mem
    rw [parts] at performing
    exact unbroken_of_closed_log checked (leads_ofList (by decide)) (leads_ofList (by decide))
      (unbroken_ofList (by decide)) (unbroken_ofList (by decide)) quotes performing
  · intro p mem
    have writes : Closed (parameterWrites s.parameters s.className) := each _ (by simp)
    have lines := closed_joinLines.mp (closed_parameterWrites writes mem)
    have absent : Closed ("            print(\"[" ++ s.className ++ "] Parameter " ++ p.name ++
        " is nil\")") := lines _ (by simp)
    have quotes : ∀ c ∈ p.name.toList, c ≠ '"' ∧ c ≠ '\\' := by
      intro c inside
      have named := isPart_or_lineBreak (checked.parameters p mem).named c inside
      constructor <;> rintro rfl <;> revert named <;> decide
    exact unbroken_of_closed_log checked (leads_ofList (by decide)) (leads_ofList (by decide))
      (unbroken_ofList (by decide)) (unbroken_ofList (by decide)) quotes absent

theorem closed_structHeader (checked : s.Checked) : Closed (structHeader s) := by
  have type := plain_className checked
  have whole : Unbroken (structHeader s) :=
    ((unbroken_ofList (by decide)).append type.unbroken).append (unbroken_ofList (by decide))
  have led : Leads .code (structHeader s) .code :=
    (leads_of_plain type).1.between (by decide) (by decide)
  exact closed_of_unbroken led whole

/-- The type of a shortcut is closed where its names have no line breaks, and only there. -/
theorem closed_intentStruct_iff (checked : s.Checked) (made : intentStruct s useKeys = .ok text) :
    Closed text ↔ s.Unbroken := by
  refine ⟨unbroken_of_closed_intentStruct checked made, fun whole => ?_⟩
  have neat := checked.neat whole
  obtain ⟨front, middle, back, rfl, tame⟩ := intentStruct_parts made
  obtain ⟨tameFront, tameMiddle, tameBack⟩ := tame neat
  rw [closed_joinLines]
  simp only [List.forall_mem_cons, List.forall_mem_append]
  refine ⟨closed_of_tame tame_empty, closed_of_tame (tame_ofList (by decide)),
    closed_structHeader checked, fun t mem => closed_of_tame (tameFront t mem),
    closed_of_tame (tame_performingLine neat), fun t mem => closed_of_tame (tameMiddle t mem),
    closed_of_tame (tame_parameterWrites neat.names neat.className),
    fun t mem => closed_of_tame (tameBack t mem)⟩

/-- The registration of a shortcut is closed where the name of its image is. -/
theorem closed_appShortcut_iff (neat : s.Neat) : Closed (appShortcut s useKeys) ↔
    Closed (inQuotes (orDefault s.systemImageName usualImage)) := by
  obtain ⟨front, same, tame⟩ := appShortcut_parts s useKeys
  have code : Leads .start "            systemImageName: " .code :=
    leads_ofList (by decide)
  have whole : Unbroken "            systemImageName: " := unbroken_ofList (by decide)
  have image : Closed (imageLine s) ↔ Closed (inQuotes (orDefault s.systemImageName usualImage)) :=
    closed_append_iff code whole
  have ends : Tame "        )" := tame_ofList (by decide)
  rw [same, closed_joinLines]
  simp only [List.forall_mem_cons, List.forall_mem_append, image]
  exact ⟨fun h => h.2.1,
    fun h => ⟨fun t mem => closed_of_tame (tame neat t mem), h, closed_of_tame ends, nofun⟩⟩

/-! ## The file -/

variable {c : Config} {source : String}

theorem closed_file_iff (checked : c.Checked) (whole : Unbroken source)
    (made : file c useKeys source = .ok text) :
    Closed text ↔ ∀ s ∈ c.shortcuts, s.Unbroken ∧
      Closed (inQuotes (orDefault s.systemImageName usualImage)) := by
  obtain ⟨intents, front, back, found, rfl, tameFront, tameBack⟩ := file_parts whole made
  have provider : Closed providerHeader := by
    have led : Leads .code providerHeader .code := leads_ofList (by decide)
    have line : Unbroken providerHeader := unbroken_ofList (by decide)
    exact closed_of_unbroken led line
  have available : Closed "@available(iOS 16.0, *)" := closed_of_tame (tame_ofList (by decide))
  have opened : Closed "    static var appShortcuts: [AppShortcut] \x7b" :=
    closed_of_tame (tame_ofList (by decide))
  have empty : Closed "" := closed_of_tame tame_empty
  have parts : Closed (joinLines (front ++ joinLines intents :: "" :: "@available(iOS 16.0, *)" ::
      providerHeader :: "    static var appShortcuts: [AppShortcut] \x7b" ::
      joinLines (c.shortcuts.map (appShortcut · useKeys)) :: back)) ↔
      (∀ t ∈ intents, Closed t) ∧ ∀ s ∈ c.shortcuts, Closed (appShortcut s useKeys) := by
    rw [closed_joinLines]
    simp only [List.forall_mem_append, List.forall_mem_cons, closed_joinLines, List.forall_mem_map]
    exact ⟨fun h => ⟨h.2.1, h.2.2.2.2.2.2.1⟩, fun h => ⟨fun t mem => closed_of_tame (tameFront t mem),
      h.1, empty, available, provider, opened, h.2, fun t mem => closed_of_tame (tameBack t mem)⟩⟩
  have types : (∀ t ∈ intents, Closed t) ↔ ∀ s ∈ c.shortcuts, s.Unbroken := by
    constructor
    · intro closed s mem
      obtain ⟨k, bound, rfl⟩ := List.getElem_of_mem mem
      obtain ⟨t, listed, written⟩ := mem_mapPositions found bound
      exact (closed_intentStruct_iff (checked.shortcuts _ mem) written).mp (closed t listed)
    · intro names t mem
      obtain ⟨s, there, -, written⟩ := mem_of_mapPositions found mem
      exact (closed_intentStruct_iff (checked.shortcuts s there) written).mpr (names s there)
  rw [parts, types, ← forall₂_and]
  refine forall₂_congr fun s mem => and_congr_right fun names => ?_
  exact closed_appShortcut_iff ((checked.shortcuts s mem).neat names)

/-- Every line of the file ends outside of literals where the names of the shortcuts and their parameters
have no line breaks and the names of images, which are not escaped, leave no literal open, and only
there. There is a file unless a dialog waits for a number with too many digits. -/
theorem file_closed_where {d : Document} (accepted : Config.ofDocument d = .ok c)
    (whole : Unbroken source) (useKeys : Bool) :
    OkWhere c.Showable (.number .tooManyDigits) (file c useKeys source) ∧
      ∀ text, file c useKeys source = .ok text → (Closed text ↔ ∀ s ∈ c.shortcuts, s.Unbroken ∧
        Closed (inQuotes (orDefault s.systemImageName usualImage))) := by
  have checked := checked_of_ofDocument accepted
  exact ⟨okWhere_file checked.typed useKeys source, fun text made => closed_file_iff checked whole made⟩

def quotedTitle : Shortcut where
  identifier := "say-hi"
  title := "Say \"hi\" \\"
  phrases := ["Hi"]

/-- Its title is escaped. -/
theorem file_closed_where_quoted_title : ∃ text,
    Config.ofDocument (.ofShortcuts [.spoken "say-hi" quotedTitle.title "Hi" []]) =
      .ok { shortcuts := [quotedTitle] } ∧
    file { shortcuts := [quotedTitle] } true Artifacts.usualSource = .ok text ∧ Closed text := by
  have accepted : Config.ofDocument (.ofShortcuts [.spoken "say-hi" quotedTitle.title "Hi" []]) =
      .ok { shortcuts := [quotedTitle] } := rfl
  have whole : Unbroken Artifacts.usualSource := unbroken_ofList (by decide)
  obtain ⟨written, closed⟩ := file_closed_where accepted whole true
  obtain ⟨text, made⟩ := written.ok (by simp [Config.Showable, Shortcut.Showable, quotedTitle])
  refine ⟨text, accepted, made, (closed text made).mpr fun s mem => ?_⟩
  obtain rfl := List.mem_singleton.mp mem
  exact ⟨⟨unbroken_ofList (by decide), nofun⟩, by decide⟩

def quotedImage : Shortcut where
  identifier := "a"
  title := "A"
  phrases := ["Go"]
  systemImageName := some "star\"circle"

/-- The name of its image is not. -/
theorem image_breaks_out :
    Config.ofDocument (.ofShortcuts [.spoken "a" "A" "Go" [("systemImageName", .text "star\"circle")]]) =
      .ok { shortcuts := [quotedImage] } ∧
    ∀ useKeys, ∃ text, file { shortcuts := [quotedImage] } useKeys Artifacts.usualSource = .ok text ∧
      ¬ Closed text := by
  have accepted : Config.ofDocument (.ofShortcuts [.spoken "a" "A" "Go"
      [("systemImageName", .text "star\"circle")]]) = .ok { shortcuts := [quotedImage] } := rfl
  have checked := checked_of_ofDocument accepted
  have whole : Unbroken Artifacts.usualSource := unbroken_ofList (by decide)
  refine ⟨accepted, fun useKeys => ?_⟩
  obtain ⟨text, made⟩ := (okWhere_file checked.typed useKeys Artifacts.usualSource).ok
    (by simp [Config.Showable, Shortcut.Showable, quotedImage])
  refine ⟨text, made, fun closed => ?_⟩
  have image := ((closed_file_iff checked whole made).mp closed quotedImage (by simp)).2
  revert image
  decide

end ShortcutRelay.Swift
