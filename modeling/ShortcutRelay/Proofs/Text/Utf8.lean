import ShortcutRelay.Text.Unicode

/-!
# Text files read back

* `characters?_eq_some_iff` : the code points that make a text are those of its characters;
* `encodeCodePoints_codePoints`, `encodeCodePoints_eq_ok_iff` : which of them have bytes;
* `length_encodeUtf8_append` : the bytes of texts one behind the other;
* `readTextFile?_encodeUtf8` : a text without carriage returns is read back from its bytes;
* `notMem_of_readTextFile?` : what is read from a file holds no carriage return.
-/

namespace ShortcutRelay.Text

/-! ## Code points -/

theorem mapM_char?_eq_some_iff {ps : List CodePoint} {cs : List Char} :
    ps.mapM CodePoint.char? = some cs ↔ ps = cs.map .char := by
  induction ps generalizing cs with
  | nil =>
    rw [List.mapM_nil]
    cases cs with
    | nil => exact iff_of_true rfl rfl
    | cons c cs => exact iff_of_false nofun nofun
  | cons p ps ih =>
    rw [List.mapM_cons]
    constructor
    · intro h
      obtain ⟨c, here, h⟩ := Option.bind_eq_some_iff.mp h
      obtain ⟨others, rest, same⟩ := Option.bind_eq_some_iff.mp h
      cases same
      cases p with
      | surrogate offset => cases here
      | char c =>
        cases here
        rw [List.map_cons, ih.mp rest]
    · intro same
      cases cs with
      | nil => cases same
      | cons c cs =>
        obtain ⟨rfl, rest⟩ := List.cons.inj same
        rw [ih.mpr rest]
        rfl

@[simp] theorem characters?_codePoints (s : String) : characters? (codePoints s) = some s := by
  rw [characters?, codePoints, mapM_char?_eq_some_iff.mpr rfl, Option.map_some,
    String.ofList_toList]

theorem characters?_eq_some_iff {ps : List CodePoint} {s : String} :
    characters? ps = some s ↔ ps = codePoints s := by
  constructor
  · intro h
    obtain ⟨cs, each, rfl⟩ := Option.map_eq_some_iff.mp h
    rw [codePoints, String.toList_ofList]
    exact mapM_char?_eq_some_iff.mp each
  · rintro rfl
    exact characters?_codePoints s

/-- Code points that are characters are those of a text. -/
theorem exists_codePoints_eq {ps : List CodePoint} (h : ∀ p ∈ ps, ∃ c, p = .char c) :
    ∃ s, ps = codePoints s := by
  induction ps with
  | nil => exact ⟨"", rfl⟩
  | cons p ps ih =>
    obtain ⟨c, rfl⟩ := h p (List.mem_cons_self ..)
    obtain ⟨s, rfl⟩ := ih fun q mem => h q (List.mem_cons_of_mem _ mem)
    exact ⟨String.ofList (c :: s.toList), by simp [codePoints]⟩

@[simp] theorem codePoints_inj {s t : String} : codePoints s = codePoints t ↔ s = t := by
  refine ⟨fun same => ?_, congrArg codePoints⟩
  have here := characters?_codePoints s
  rw [same, characters?_codePoints] at here
  exact (Option.some.inj here).symm

theorem map_codePoints_inj {s t : Option String} :
    s.map codePoints = t.map codePoints ↔ s = t :=
  (Option.map_injective fun _ _ => codePoints_inj.mp).eq_iff

theorem encodeCodePoints_codePoints (s : String) :
    encodeCodePoints (codePoints s) = .ok (encodeUtf8 s) := by
  rw [encodeCodePoints, characters?_codePoints]

theorem encodeCodePoints_eq_ok_iff {ps : List CodePoint} {bytes : List UInt8} :
    encodeCodePoints ps = .ok bytes ↔ ∃ s, ps = codePoints s ∧ bytes = encodeUtf8 s := by
  constructor
  · intro h
    rw [encodeCodePoints] at h
    split at h
    · next s same =>
      cases h
      exact ⟨s, characters?_eq_some_iff.mp same, rfl⟩
    · cases h
  · rintro ⟨s, rfl, rfl⟩
    exact encodeCodePoints_codePoints s

/-! ## Bytes -/

theorem toList_loop (bytes : ByteArray) (i : Nat) (done : List UInt8) :
    ByteArray.toList.loop bytes i done = done.reverse ++ bytes.data.toList.drop i := by
  induction i, done using ByteArray.toList.loop.induct bytes with
  | case1 i done inside ih =>
    have inside' : i < bytes.data.toList.length := by simpa using inside
    have here : bytes.get! i = bytes.data.toList[i] := by
      simp [ByteArray.get!, getElem!_pos bytes.data i inside]
    rw [ByteArray.toList.loop, if_pos inside, ih, here, List.reverse_cons, List.append_assoc,
      List.singleton_append, List.drop_eq_getElem_cons inside']
  | case2 i done outside =>
    have outside' : bytes.data.toList.length ≤ i := by simpa using outside
    rw [ByteArray.toList.loop, if_neg outside, List.drop_eq_nil_of_le outside', List.append_nil]

theorem toList_eq_data (bytes : ByteArray) : bytes.toList = bytes.data.toList := by
  simp [ByteArray.toList, toList_loop]

theorem decodeUtf8?_encodeUtf8 (s : String) : decodeUtf8? (encodeUtf8 s) = some s := by
  have bytes : (⟨s.toUTF8.toList.toArray⟩ : ByteArray) = s.toUTF8 := by
    rw [toList_eq_data]
  unfold decodeUtf8? encodeUtf8
  rw [bytes]
  exact dif_pos s.isValidUTF8

theorem length_encodeUtf8_append (s t : String) :
    (encodeUtf8 (s ++ t)).length = (encodeUtf8 s).length + (encodeUtf8 t).length := by
  unfold encodeUtf8
  rw [toList_eq_data, toList_eq_data, toList_eq_data]
  simp

/-! ## Line breaks -/

theorem unifyBreakChars_of_notMem {cs : List Char} (h : '\r' ∉ cs) : unifyBreakChars cs = cs := by
  fun_induction unifyBreakChars cs with
  | case1 => rfl
  | case2 => simp at h
  | case3 => simp at h
  | case4 c cs _ _ ih =>
    simp only [List.mem_cons, not_or] at h
    rw [ih h.2]

theorem notMem_unifyBreakChars (cs : List Char) : '\r' ∉ unifyBreakChars cs := by
  fun_induction unifyBreakChars cs with
  | case1 => simp
  | case2 cs ih => simp [ih]
  | case3 cs _ ih => simp [ih]
  | case4 c cs _ other ih =>
    have here : ¬ '\r' = c := fun same => other same.symm
    simp [ih, here]

/-- A text without carriage returns is read back from its bytes. -/
theorem readTextFile?_encodeUtf8 {s : String} (h : '\r' ∉ s.toList) :
    readTextFile? (encodeUtf8 s) = some s := by
  rw [readTextFile?, decodeUtf8?_encodeUtf8, Option.map_some, unifyBreaks,
    unifyBreakChars_of_notMem h, String.ofList_toList]

theorem notMem_of_readTextFile? {bytes : List UInt8} {s : String}
    (h : readTextFile? bytes = some s) : '\r' ∉ s.toList := by
  obtain ⟨raw, -, rfl⟩ := Option.map_eq_some_iff.mp h
  rw [unifyBreaks, String.toList_ofList]
  exact notMem_unifyBreakChars raw.toList

end ShortcutRelay.Text
