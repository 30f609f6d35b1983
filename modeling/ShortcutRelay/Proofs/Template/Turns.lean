import ShortcutRelay.Proofs.Template.Placeholder

/-!
# Values that are put in one after the other

Each name has a turn, in which its placeholders in the text so far are replaced in one pass. A value may
bring about a placeholder of a name whose turn is yet to come, within itself or together with what stands
beside it.

* `afterTurns value message turns` : the text after the turns of some names;
* `render_turn` : a turn replaces no more than the placeholders of the message where no more of them are
  there;
* `Undisturbed value turns message` : so it is at every turn, and then all turns together are one pass
  (`afterTurns_eq`);
* `Steady value turns message` : each dollar sign of the message begins a placeholder, and no value holds one;
  `Steady.undisturbed`.
-/

namespace ShortcutRelay.Template

/-- The values of some names only. -/
def among (value : String → Option String) (names : List String) : String → Option String :=
  fun other => if other ∈ names then value other else none

/-- The text after the turns of some names, each with one pass over the text so far. -/
def afterTurns (value : String → Option String) (message : String) (turns : List String) : String :=
  turns.foldl (fun text name => substitute (only value name) text) message

variable {value : String → Option String} {name : String}

theorem afterTurns_nil (message : String) : afterTurns value message [] = message := rfl

theorem afterTurns_cons (message name : String) (turns : List String) :
    afterTurns value message (name :: turns) = afterTurns value (substitute (only value name) message) turns :=
  List.foldl_cons ..

/-! ## One turn -/

theorem only_of_none (unset : value name = none) : only value name = fun _ => none := by
  funext other
  unfold only
  split
  · next same => rw [same, unset]
  · rfl

/-- The turn of a name without placeholders in the text changes nothing. -/
theorem render_untouched {cs : List Char} (apart : name ∉ names (parts cs)) :
    render (only value name) (parts cs) = cs := by
  refine Eq.trans (render_congr fun other mem => if_neg ?_) (render_none cs)
  rintro rfl
  exact apart mem

theorem parts_render_value (named : IsName name) (unset : value name = none) (ps qs : List Part) :
    parts (render value (ps ++ .value name :: qs)) =
      parts (render value ps) ++ .value name :: parts (render value qs) := by
  have behind := parts_placeholder named (render value qs)
  rw [toList_placeholder, List.cons_append] at behind
  rw [render_append, render_value, unset, Option.getD_none, toList_placeholder, List.cons_append,
    parts_append, behind]

/-- A placeholder that stays is found again. -/
theorem count_le_count_render (named : IsName name) (unset : value name = none) (ps qs : List Part) :
    (names qs).count name ≤ (names (parts (render value (ps ++ qs)))).count name := by
  induction qs generalizing ps with
  | nil => exact Nat.zero_le _
  | cons q qs ih =>
    cases q with
    | plain c =>
      have more := ih (ps ++ [.plain c])
      rwa [List.append_assoc] at more
    | value other =>
      by_cases same : other = name
      · subst same
        have more := ih []
        rw [List.nil_append] at more
        rw [parts_render_value named unset, names_append, names_value, names_value, List.count_append,
          List.count_cons_self, List.count_cons_self]
        omega
      · have more := ih (ps ++ [.value other])
        rw [List.append_assoc] at more
        rwa [names_value, List.count_cons_of_ne same]

/-- A turn replaces the placeholders that were there at first where no more of them have come. They are
those of `qs`; the name has none in `ps`. -/
theorem render_turn {value' : String → Option String} (named : IsName name) (unset : value name = none)
    (agree : ∀ other, other ≠ name → value other = value' other) (ps qs : List Part) (apart : name ∉ names ps)
    (count : (names (parts (render value (ps ++ qs)))).count name = (names qs).count name) :
    render (only value' name) (parts (render value (ps ++ qs))) = render value' (ps ++ qs) := by
  have front (ps : List Part) (apart : name ∉ names ps) (count : (names (parts (render value ps))).count name = 0) :
      render (only value' name) (parts (render value ps)) = render value' ps := by
    rw [render_untouched (List.count_eq_zero.mp count)]
    exact render_congr fun other mem => agree other fun same => apart (same ▸ mem)
  induction qs generalizing ps with
  | nil =>
    rw [List.append_nil] at count ⊢
    exact front ps apart count
  | cons q qs ih =>
    cases q with
    | plain c =>
      have later := ih (ps ++ [.plain c])
      rw [List.append_assoc] at later
      refine later ?_ count
      rwa [names_append, show names [.plain c] = [] from rfl, List.append_nil]
    | value other =>
      by_cases same : other = name
      · subst same
        -- of the placeholders that are there none is new, neither in front of this one nor behind it
        have atLeast := count_le_count_render named unset [] qs
        rw [List.nil_append] at atLeast
        rw [parts_render_value named unset, names_append, names_value, names_value, List.count_append,
          List.count_cons_self, List.count_cons_self] at count
        have behind := ih [] List.not_mem_nil (by rw [List.nil_append]; omega)
        rw [List.nil_append] at behind
        have here : only value' other other = value' other := if_pos rfl
        rw [parts_render_value named unset, render_append, render_append, render_value, render_value,
          front ps apart (by omega), here, behind]
      · have later := ih (ps ++ [.value other])
        rw [List.append_assoc] at later
        refine later ?_ (by rwa [names_value, List.count_cons_of_ne same] at count)
        rw [names_append, List.mem_append, not_or]
        exact ⟨apart, by simpa [names] using Ne.symm same⟩

/-! ## All turns -/

/-- At the turn of each name that has a value, as many of its placeholders are in the text as the message
has, and none if the name had a turn before. The text is the message with the values of the names whose
turns are over. -/
def Undisturbed (value : String → Option String) (turns : List String) (message : String) : Prop :=
  ∀ i (h : i < turns.length), (value turns[i]).isSome →
    (placeholders (substitute (among value (turns.take i)) message)).count turns[i] =
      if turns[i] ∈ turns.take i then 0 else (placeholders message).count turns[i]

instance (turns : List String) (message : String) : Decidable (Undisturbed value turns message) :=
  inferInstanceAs (Decidable (∀ i, ∀ _ : i < turns.length, _ → _ = _))

theorem Undisturbed.at {message : String} {turns before after : List String}
    (calm : Undisturbed value turns message) (all : turns = before ++ name :: after)
    (given : (value name).isSome) :
    (placeholders (substitute (among value before) message)).count name =
      if name ∈ before then 0 else (placeholders message).count name := by
  subst all
  have here := calm before.length (by simp)
  simp only [List.getElem_append_right (Nat.le_refl _), Nat.sub_self, List.getElem_cons_zero,
    List.take_left] at here
  exact here given

theorem among_concat_of_ne {names : List String} {other : String} (apart : other ≠ name) :
    among value names other = among value (names ++ [name]) other := by
  simp [among, apart]

theorem among_concat_of_mem {names : List String} (mem : name ∈ names) :
    among value (names ++ [name]) = among value names := by
  funext other
  by_cases same : other = name
  · simp [among, same, mem]
  · exact (among_concat_of_ne same).symm

theorem among_isNone {names : List String} (mem : name ∈ names) (given : (value name).isSome) :
    (among value names name).isNone = false := by
  rw [among, if_pos mem, Option.isNone_eq_false_iff]
  exact given

theorem substitute_turn {message : String} {before : List String} (named : IsName name)
    (count : (value name).isSome → (placeholders (substitute (among value before) message)).count name =
      if name ∈ before then 0 else (placeholders message).count name) :
    substitute (only value name) (substitute (among value before) message) =
      substitute (among value (before ++ [name])) message := by
  cases given : value name with
  | none =>
    have same : among value (before ++ [name]) = among value before := by
      funext other
      by_cases here : other = name
      · simp [among, here, given]
      · exact (among_concat_of_ne here).symm
    rw [only_of_none given, substitute_none, same]
  | some text =>
    have count := count (by rw [given]; rfl)
    rw [placeholders_eq, placeholders_eq, toList_substitute] at count
    apply String.toList_inj.mp
    rw [toList_substitute, toList_substitute, toList_substitute]
    split at count
    · next mem => rw [render_untouched (List.count_eq_zero.mp count), among_concat_of_mem mem]
    · next new =>
      have turn := @render_turn (among value before) name (among value (before ++ [name]))
        named (if_neg new) (fun other apart => among_concat_of_ne apart) [] (parts message.toList)
        List.not_mem_nil count
      have own : only (among value (before ++ [name])) name = only value name := by
        funext other
        by_cases here : other = name <;> simp [only, among, here]
      rwa [own] at turn

/-- Undisturbed turns are one pass. -/
theorem afterTurns_eq {message : String} {turns : List String} (named : ∀ name ∈ turns, IsName name)
    (calm : Undisturbed value turns message) :
    afterTurns value message turns = substitute (among value turns) message := by
  have from_turn (before after : List String) (all : turns = before ++ after) :
      afterTurns value (substitute (among value before) message) after =
        substitute (among value turns) message := by
    induction after generalizing before with
    | nil => rw [afterTurns_nil, all, List.append_nil]
    | cons name after ih =>
      have isName : IsName name := named name (by simp [all])
      have later := ih (before ++ [name]) (by rw [all, List.append_assoc, List.singleton_append])
      rwa [afterTurns_cons, substitute_turn isName (calm.at all)]
  have start : substitute (among value []) message = message := by
    rw [show among value [] = fun _ => none from funext fun _ => if_neg List.not_mem_nil, substitute_none]
  have all := from_turn [] turns rfl
  rwa [start] at all

/-! ## Texts without other dollar signs -/

/-- Each dollar sign of the message begins a placeholder, and no value of some names holds one. -/
structure Steady (value : String → Option String) (turns : List String) (message : String) : Prop where
  alone : message.toList.count '$' = (placeholders message).length
  apart : ∀ name ∈ turns, ∀ text ∈ value name, '$' ∉ text.toList

theorem length_names_le (cs : List Char) : (names (parts cs)).length ≤ cs.count '$' := by
  induction cs using parts_induction with
  | nil => exact Nat.zero_le _
  | value name rest named ih =>
    rw [parts_placeholder named, toList_placeholder, List.cons_append, List.count_cons_self,
      List.count_append, names_value, List.length_cons]
    omega
  | plain c rest other ih =>
    rw [parts_cons other, names_plain]
    exact Nat.le_trans ih List.count_le_count_cons

theorem names_parts_append {front : List Char} (apart : '$' ∉ front) (rest : List Char) :
    names (parts (front ++ rest)) = names (parts rest) := by
  rw [parts_append_of_notMem apart, names_append]
  simp [names]

/-- Where each dollar sign begins a placeholder, the placeholders of a text with values are those without a
value. -/
theorem names_render {cs : List Char} (alone : cs.count '$' = (names (parts cs)).length)
    (apart : ∀ name ∈ names (parts cs), ∀ text ∈ value name, '$' ∉ text.toList) :
    names (parts (render value (parts cs))) = (names (parts cs)).filter fun name => (value name).isNone := by
  induction cs using parts_induction with
  | nil => rfl
  | value name rest named ih =>
    have once : ((placeholder name).toList ++ rest).count '$' = rest.count '$' + 1 := by
      rw [toList_placeholder, List.cons_append, List.count_cons_self, List.count_append,
        List.count_eq_zero.mpr named.dollar_notMem, Nat.zero_add]
    rw [parts_placeholder named, names_value] at alone apart ⊢
    rw [once, List.length_cons] at alone
    have later := ih (Nat.succ.inj alone) fun other mem => apart other (.tail name mem)
    rw [render_value, List.filter_cons]
    cases given : value name with
    | none => rw [Option.getD_none, parts_placeholder named, names_value, later]; rfl
    | some text =>
      rw [Option.getD_some, names_parts_append (apart name (.head _) text given), later]
      rfl
  | plain c rest other ih =>
    rw [parts_cons other, names_plain] at alone apart ⊢
    have least := length_names_le rest
    have plain : c ≠ '$' := by
      rintro rfl
      rw [List.count_cons_self] at alone
      omega
    rw [List.count_cons_of_ne plain] at alone
    have front : '$' ∉ [c] := by simpa using Ne.symm plain
    rw [render_plain, ← List.singleton_append, names_parts_append front, ih alone apart]

/-- The placeholders that are left of a message where no other dollar sign stands in it. -/
theorem Steady.placeholders_substitute {message : String} {turns before : List String}
    (steady : Steady value turns message) (some_turns : before ⊆ turns) :
    placeholders (substitute (among value before) message) =
      (placeholders message).filter fun name => (among value before name).isNone := by
  rw [placeholders_eq, placeholders_eq, toList_substitute]
  refine names_render ?_ ?_
  · rw [← placeholders_eq]
    exact steady.alone
  · intro name mem text given
    obtain ⟨turn, own⟩ := Option.ite_none_right_eq_some.mp given
    exact steady.apart name (some_turns turn) text own

theorem Steady.undisturbed {message : String} {turns : List String} (steady : Steady value turns message) :
    Undisturbed value turns message := by
  intro i bound given
  rw [steady.placeholders_substitute (List.take_subset i turns)]
  split
  · next mem =>
    refine List.count_eq_zero.mpr fun left => ?_
    rw [List.mem_filter, among_isNone mem given] at left
    cases left.2
  · next new => exact List.count_filter (by simp [among, new])

theorem Steady.mono {message : String} {turns others : List String} (steady : Steady value turns message)
    (fewer : others ⊆ turns) : Steady value others message :=
  ⟨steady.alone, fun name mem => steady.apart name (fewer mem)⟩

/-! ## Which names have a turn -/

/-- The turns of names without a value do nothing. -/
theorem afterTurns_filter (message : String) (turns : List String) :
    afterTurns value message (turns.filter fun name => (value name).isSome) = afterTurns value message turns := by
  induction turns generalizing message with
  | nil => rfl
  | cons name turns ih =>
    rw [List.filter_cons, afterTurns_cons]
    split
    · rw [afterTurns_cons, ih]
    · next missing => rw [only_of_none (by simpa using missing), substitute_none, ih]

/-- It is enough that the names with a value have a turn. -/
theorem substitute_among {message : String} {turns : List String}
    (covered : ∀ name ∈ placeholders message, (value name).isSome → name ∈ turns) :
    substitute (among value turns) message = substitute value message := by
  apply substitute_congr
  rw [← placeholders_eq]
  intro name mem
  unfold among
  split
  · rfl
  · next missing =>
    cases given : value name with
    | none => rfl
    | some text => exact absurd (covered name mem (by rw [given]; rfl)) missing

/-- Without other dollar signs a name with a value that has no turn leaves its placeholder. -/
theorem Steady.substitute_among_iff {message : String} {turns : List String}
    (steady : Steady value (placeholders message ++ turns) message) :
    substitute (among value turns) message = substitute value message ↔
      ∀ name ∈ placeholders message, (value name).isSome → name ∈ turns := by
  refine ⟨fun same name mem given => ?_, substitute_among⟩
  have whole : substitute (among value (placeholders message)) message = substitute value message :=
    substitute_among fun _ mem _ => mem
  have left := congrArg placeholders (same.trans whole.symm)
  rw [steady.placeholders_substitute (List.subset_append_right ..),
    steady.placeholders_substitute (List.subset_append_left ..)] at left
  refine Decidable.byContradiction fun missing => ?_
  have stays : name ∈ (placeholders message).filter fun name => (among value turns name).isNone :=
    List.mem_filter.mpr ⟨mem, by simp [among, missing]⟩
  rw [left, List.mem_filter, among_isNone mem given] at stays
  cases stays.2

end ShortcutRelay.Template
