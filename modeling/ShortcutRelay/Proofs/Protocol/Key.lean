import ShortcutRelay.Protocol.Command

/-!
# Entries do not clash

* `afterStart?_eq_some_iff` : texts with a given start;
* `append_ne_of_apart` : entries whose starts are apart are different;
* `stateEntry_notMem`, `parameterEntry_ne_tagEntry` and companions : no entry of one kind is one of
  another kind.
-/

namespace ShortcutRelay.Text

theorem startsWith_iff (start s : String) :
    startsWith start s = true ↔ ∃ rest, s = start ++ rest := by
  rw [startsWith, List.isPrefixOf_iff_prefix]
  constructor
  · rintro ⟨rest, h⟩
    refine ⟨String.ofList rest, String.ext ?_⟩
    rw [← h, String.toList_append, String.toList_ofList]
  · rintro ⟨rest, rfl⟩
    exact ⟨rest.toList, (String.toList_append ..).symm⟩

theorem startsWith_append (start rest : String) : startsWith start (start ++ rest) = true :=
  (startsWith_iff ..).mpr ⟨rest, rfl⟩

theorem afterStart?_append (start rest : String) : afterStart? start (start ++ rest) = some rest := by
  rw [afterStart?, if_pos (startsWith_append start rest)]
  have : (start ++ rest).toList.drop start.length = rest.toList := by
    rw [String.toList_append, ← String.length_toList, List.drop_left]
  rw [this, String.ofList_toList]

theorem afterStart?_eq_some_iff (start s rest : String) :
    afterStart? start s = some rest ↔ s = start ++ rest := by
  constructor
  · intro h
    by_cases hs : startsWith start s = true
    · obtain ⟨other, rfl⟩ := (startsWith_iff start s).mp hs
      rw [afterStart?_append] at h
      rw [Option.some.inj h]
    · rw [afterStart?, if_neg hs] at h
      cases h
  · rintro rfl
    exact afterStart?_append start rest

/-- Neither text begins with the other one. -/
def Apart (a b : String) : Prop :=
  startsWith a b = false ∧ startsWith b a = false

instance (a b : String) : Decidable (Apart a b) :=
  inferInstanceAs (Decidable (_ ∧ _))

theorem append_ne_of_apart {a b : String} (h : Apart a b) (x y : String) : a ++ x ≠ b ++ y := by
  intro e
  have lists : a.toList ++ x.toList = b.toList ++ y.toList := by
    rw [← String.toList_append, ← String.toList_append, e]
  have starts : a.toList <+: b.toList ∨ b.toList <+: a.toList := by
    have ha : a.toList <+: b.toList ++ y.toList := lists ▸ List.prefix_append _ _
    exact List.prefix_or_prefix_of_prefix ha (List.prefix_append _ _)
  obtain ⟨hab, hba⟩ := h
  rcases starts with hs | hs
  · exact absurd (List.isPrefixOf_iff_prefix.mpr hs) (Bool.eq_false_iff.mp hab)
  · exact absurd (List.isPrefixOf_iff_prefix.mpr hs) (Bool.eq_false_iff.mp hba)

theorem ne_append_of_apart {a b : String} (h : Apart a b) (y : String) : a ≠ b ++ y := by
  have := append_ne_of_apart h "" y
  rwa [String.append_empty] at this

theorem not_startsWith_append {a b : String} (h : Apart a b) (y : String) :
    startsWith a (b ++ y) = false := by
  rw [Bool.eq_false_iff]
  intro hs
  obtain ⟨rest, e⟩ := (startsWith_iff ..).mp hs
  exact append_ne_of_apart h rest y e.symm

theorem append_right_injective (a : String) : Function.Injective (a ++ ·) := by
  intro x y h
  have := congrArg String.toList h
  simp only [String.toList_append, List.append_cancel_left_eq] at this
  exact String.ext this

end ShortcutRelay.Text

namespace ShortcutRelay.Protocol
open Text

theorem parameterEntry_injective : Function.Injective parameterEntry :=
  append_right_injective parameterStart

theorem parameterTagEntry_injective : Function.Injective parameterTagEntry :=
  append_right_injective parameterTagStart

theorem stateEntry_injective : Function.Injective stateEntry :=
  append_right_injective stateStart

theorem replyEntry_injective : Function.Injective replyEntry :=
  append_right_injective replyStart

theorem parameterEntry_ne_tagEntry (m n : String) : parameterEntry m ≠ parameterTagEntry n :=
  append_ne_of_apart (by decide) m n

/-! ## Commands -/

theorem stateEntry_notMem (name : String) : stateEntry name ∉ commandEntries := by
  have apart : ∀ k ∈ commandEntries, Apart k stateStart := by decide
  exact fun h => ne_append_of_apart (apart _ h) name rfl

theorem replyEntry_notMem (nonce : String) : replyEntry nonce ∉ commandEntries := by
  have apart : ∀ k ∈ commandEntries, Apart k replyStart := by decide
  exact fun h => ne_append_of_apart (apart _ h) nonce rfl

theorem stateEntry_ne_replyEntry (name nonce : String) : stateEntry name ≠ replyEntry nonce :=
  append_ne_of_apart (by decide) name nonce

/-! ## Which entries hold parameters -/

theorem isParameterKey_parameterEntry (n : String) : isParameterKey (parameterEntry n) = true := by
  rw [isParameterKey, parameterEntry, startsWith_append, Bool.true_or]

theorem isParameterKey_parameterTagEntry (n : String) :
    isParameterKey (parameterTagEntry n) = true := by
  rw [isParameterKey, parameterTagEntry, startsWith_append, Bool.or_true]

theorem isParameterKey_commandEntries :
    ∀ key ∈ commandEntries, isParameterKey key = false := by
  decide

theorem isParameterKey_stateEntry (name : String) : isParameterKey (stateEntry name) = false := by
  have := not_startsWith_append (a := parameterStart) (b := stateStart) (by decide) name
  have := not_startsWith_append (a := parameterTagStart) (b := stateStart) (by decide) name
  simp_all [isParameterKey, stateEntry]

theorem isParameterKey_replyEntry (nonce : String) : isParameterKey (replyEntry nonce) = false := by
  have := not_startsWith_append (a := parameterStart) (b := replyStart) (by decide) nonce
  have := not_startsWith_append (a := parameterTagStart) (b := replyStart) (by decide) nonce
  simp_all [isParameterKey, replyEntry]

end ShortcutRelay.Protocol
