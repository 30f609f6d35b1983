import ShortcutRelay.Proofs.Artifacts.Assembly
import ShortcutRelay.Proofs.Swift.Pieces

/-!
# Names in the generated texts

The name of a parameter stands in the generated texts as it is. The check of names takes identifiers, but
also those that a line break follows, and such a name goes over two lines.

* `Stands front back text name` : on which lines of a text a name stands between two others;
* `names_of_accepted` : which names are accepted, and where they stand;
* `name_breaks_line` : a name that stands on two lines.
-/

namespace ShortcutRelay.Artifacts
open Text Template Swift

/-- Between two others a name stands on one line of a text, where it is an identifier; where a line break
ends it, on two. -/
inductive Stands (front back text : String) : String → Prop
  | onOne {name : String} (named : IsIdentifier name)
      (line : (front ++ name ++ back).toList ∈ lines text) : Stands front back text name
  | onTwo {name : String} (named : IsIdentifier name)
      (broken : [(front ++ name).toList, back.toList] <:+: lines text) :
      Stands front back text (name ++ "\n")

variable {front back text name : String}

theorem unbroken_of_isIdentifier (named : IsIdentifier name) : Unbroken name :=
  (plain_of_isPart fun c mem => (isIdentifierPart_iff c).mpr (named.each c mem)).unbroken

/-- A name that the check takes stands where the line with it stands. -/
theorem stands_of_infix (accepted : isIdentifier name = true) (whole : Unbroken front)
    (whole' : Unbroken back) (inside : lines (front ++ name ++ back) <:+: lines text) :
    Stands front back text name := by
  rcases isIdentifier_iff.mp accepted with named | ⟨t, named, rfl⟩
  · have line : Unbroken (front ++ name ++ back) :=
      (whole.append (unbroken_of_isIdentifier named)).append whole'
    rw [lines_of_unbroken line] at inside
    exact .onOne named (inside.subset (List.mem_singleton_self _))
  · have first : Unbroken (front ++ t) := whole.append (unbroken_of_isIdentifier named)
    have parts : lines (front ++ (t ++ "\n") ++ back) = [(front ++ t).toList, back.toList] := by
      rw [← String.append_assoc, lines_append_break, lines_of_unbroken first, lines_of_unbroken whole']
      rfl
    rw [parts] at inside
    exact .onTwo named inside

/-! ## Properties and fields -/

theorem unbroken_property {type : ValueType} (named : Swift.typeName type = .ok name) :
    Unbroken (": " ++ name) :=
  (unbroken_ofList (by decide)).append (plain_typeName named).unbroken

theorem unbroken_field {type : ValueType} (named : TypeDeclarations.typeName type = .ok name)
    (isOptional : Bool) : Unbroken ((if isOptional then "?" else "") ++ ": " ++ name ++ ";") := by
  have word : Unbroken name := by
    cases type <;> cases named <;> exact unbroken_ofList (by decide)
  have mark : Unbroken (if isOptional then "?" else "") := by
    cases isOptional <;> exact unbroken_ofList (by decide)
  exact ((mark.append (unbroken_ofList (by decide))).append word).append (unbroken_ofList (by decide))

variable {p : Parameter}

theorem property_infix_parameterDeclaration {useKeys : Bool} {identifier : String} {index : Nat}
    (made : parameterDeclaration useKeys identifier index p = .ok text) :
    ∃ type, Swift.typeName p.type = .ok type ∧
      lines ("    var " ++ p.name ++ ": " ++ type) <:+: lines text := by
  obtain ⟨type, named, made⟩ := of_bind_eq_ok made
  cases made
  exact ⟨type, named, lines_infix_joinLines (.tail _ (.head _))⟩

/-- The property of a parameter is on lines of its own. -/
theorem stands_parameterDeclarations {parameters : List Parameter} {useKeys : Bool}
    {identifier : String} (made : parameterDeclarations parameters useKeys identifier = .ok text)
    (mem : p ∈ parameters) (accepted : isIdentifier p.name = true) :
    ∃ type, Swift.typeName p.type = .ok type ∧ Stands "    var " (": " ++ type) text p.name := by
  unfold parameterDeclarations at made
  rw [if_neg (by simpa using List.ne_nil_of_mem mem)] at made
  obtain ⟨blocks, found, made⟩ := of_bind_eq_ok made
  cases made
  obtain ⟨k, bound, same⟩ := List.getElem_of_mem mem
  obtain ⟨block, listed, declared⟩ := mem_mapPositions found bound
  rw [same] at declared
  obtain ⟨type, named, inBlock⟩ := property_infix_parameterDeclaration declared
  refine ⟨type, named, stands_of_infix accepted (unbroken_ofList (by decide))
    (unbroken_property named) ?_⟩
  rw [← String.append_assoc]
  exact (inBlock.trans (lines_infix_joinLines listed)).trans (lines_infix_between_breaks _)

/-- The field of a parameter is on lines of its own. -/
theorem stands_variant {s : Shortcut} (made : TypeDeclarations.variant s = .ok text)
    (mem : p ∈ s.parameters) (accepted : isIdentifier p.name = true) :
    ∃ type, TypeDeclarations.typeName p.type = .ok type ∧
      Stands "    " ((if p.isOptional then "?" else "") ++ ": " ++ type ++ ";") text p.name := by
  have some_parameter : ¬ s.parameters.isEmpty := by simpa using List.ne_nil_of_mem mem
  obtain ⟨fields, found, made⟩ := of_bind_eq_ok made
  cases made
  obtain ⟨k, bound, same⟩ := List.getElem_of_mem mem
  obtain ⟨field, listed, declared⟩ := mem_mapPositions found bound
  rw [same] at declared
  obtain ⟨type, named, declared⟩ := of_bind_eq_ok declared
  cases declared
  refine ⟨type, named, stands_of_infix accepted (unbroken_ofList (by decide))
    (unbroken_field named p.isOptional) ?_⟩
  simp only [← String.append_assoc]
  refine (lines_infix_joinLines listed).trans (lines_infix_joinLines ?_)
  simp [some_parameter]

/-! ## Names that are accepted -/

/-- The check of names takes identifiers, and those that one line break follows. So in a configuration that
was read the parameters of a shortcut have names of these two kinds, all different. A property and a field
stand on one line where the name is an identifier, and else on two. -/
theorem names_of_accepted (name : String) (d : Document) :
    (isIdentifier name = true ↔ IsIdentifier name ∨ ∃ t, IsIdentifier t ∧ name = t ++ "\n") ∧
    ∀ c, Config.ofDocument d = .ok c → ∀ s ∈ c.shortcuts,
      (s.parameters.map (·.name)).Nodup ∧
      ∀ useKeys identifier, ∃ properties variant,
        parameterDeclarations s.parameters useKeys identifier = .ok properties ∧
        TypeDeclarations.variant s = .ok variant ∧
        ∀ p ∈ s.parameters, ∃ type fieldType, Swift.typeName p.type = .ok type ∧
          TypeDeclarations.typeName p.type = .ok fieldType ∧
          Stands "    var " (": " ++ type) properties p.name ∧
          Stands "    " ((if p.isOptional then "?" else "") ++ ": " ++ fieldType ++ ";") variant
            p.name := by
  refine ⟨isIdentifier_iff, fun c accepted s listed => ?_⟩
  have checked := (checked_of_ofDocument accepted).shortcuts s listed
  have known : ∀ p ∈ s.parameters, p.type.IsKnown := fun p mem => (checked.parameters p mem).type
  refine ⟨checked.names, fun useKeys identifier => ?_⟩
  obtain ⟨properties, made⟩ := Swift.parameterDeclarations_ok known useKeys identifier
  obtain ⟨variant, made'⟩ := TypeDeclarations.variant_ok_of_known known
  refine ⟨properties, variant, made, made', fun p mem => ?_⟩
  have named := (checked.parameters p mem).named
  obtain ⟨type, typed, property⟩ := stands_parameterDeclarations made mem named
  obtain ⟨fieldType, typed', field⟩ := stands_variant made' mem named
  exact ⟨type, fieldType, typed, typed', property, field⟩

/-- A shortcut with two parameters; a line break follows the name of the second. -/
def brokenTask : Shortcut where
  identifier := "addTask"
  title := "Add Task"
  phrases := ["Add a task"]
  parameters := [
    { name := "title", title := "Title", type := .text },
    { name := "due\n", title := "Due", type := .date, isOptional := false }]

def brokenDocument : Document :=
  .ofShortcuts [.spoken "addTask" "Add Task" "Add a task" [("parameters", .list [
    .ofFields [("name", .text "title"), ("title", .text "Title"), ("type", .text "string")],
    .ofFields [("name", .text "due\n"), ("title", .text "Due"), ("type", .text "date"),
      ("optional", .bool false)]])]]

/-- The first name stands on one line, the second one on two. -/
theorem names_of_accepted_due : Config.ofDocument brokenDocument = .ok { shortcuts := [brokenTask] } ∧
    ∃ properties variant, parameterDeclarations brokenTask.parameters true "addTask" = .ok properties ∧
      TypeDeclarations.variant brokenTask = .ok variant ∧
      Stands "    var " ": String?" properties "title" ∧ Stands "    " "?: string;" variant "title" ∧
      Stands "    var " ": Date?" properties "due\n" ∧ Stands "    " ": Date;" variant "due\n" := by
  have accepted : Config.ofDocument brokenDocument = .ok { shortcuts := [brokenTask] } := rfl
  obtain ⟨-, written⟩ := (names_of_accepted "due\n" brokenDocument).2 _ accepted brokenTask
    (List.mem_singleton_self _)
  obtain ⟨properties, variant, made, made', each⟩ := written true "addTask"
  simp only [brokenTask, List.forall_mem_cons] at each
  obtain ⟨⟨_, _, ⟨⟩, ⟨⟩, property, field⟩, ⟨_, _, ⟨⟩, ⟨⟩, property', field'⟩, -⟩ := each
  exact ⟨accepted, properties, variant, made, made', property, field, property', field'⟩

/-- The check takes a name that is no identifier, and its property and field do not stand on one line. -/
theorem name_breaks_line : isIdentifier "due\n" = true ∧ ¬ IsIdentifier "due\n" ∧
    ∃ c, Config.ofDocument brokenDocument = .ok c ∧
      ∃ s ∈ c.shortcuts, "due\n" ∈ s.parameters.map (·.name) ∧
        ∀ useKeys, ∃ properties variant,
          parameterDeclarations s.parameters useKeys s.identifier = .ok properties ∧
          TypeDeclarations.variant s = .ok variant ∧
          "    var due\n: Date?".toList ∉ lines properties ∧
          "    due\n: Date;".toList ∉ lines variant := by
  have accepted : Config.ofDocument brokenDocument = .ok { shortcuts := [brokenTask] } := rfl
  have other (code : String) (broken : '\n' ∈ code.toList) (text : String) :
      code.toList ∉ lines text :=
    fun mem => absurd (unbroken_of_mem_lines mem _ broken) (by decide)
  have known : ∀ p ∈ brokenTask.parameters, p.type.IsKnown := by
    simp [brokenTask, ValueType.IsKnown]
  refine ⟨by decide, fun named => named.lineBreak_notMem (by decide), _, accepted, brokenTask,
    List.mem_singleton_self _, by decide, fun useKeys => ?_⟩
  obtain ⟨properties, made⟩ := Swift.parameterDeclarations_ok known useKeys brokenTask.identifier
  obtain ⟨variant, made'⟩ := TypeDeclarations.variant_ok_of_known known
  exact ⟨properties, variant, made, made', other _ (by decide) _, other _ (by decide) _⟩

end ShortcutRelay.Artifacts
