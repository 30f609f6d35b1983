import ShortcutRelay.Store.Backend

/-!
# Contents of a store

Look-ups, keys and removals of ordered maps.

* `OrderedMap.get?_eq_some_iff`, `OrderedMap.get?_eq_none_iff` : entries and keys by look-up;
* `OrderedMap.get?_eraseAll`, `OrderedMap.toList_eraseAll` : removals of several keys;
* `OrderedMap.putAll` : several writes, with `OrderedMap.get?_putAll` and
  `OrderedMap.toList_putAll`; `OrderedMap.toList_ofList` : maps of given entries;
* `erased_unchanged` : a removal that changes nothing;
* `textAt_put`, `textAt_erase`, `textAt_eraseAll` : the text under a key after a write and a removal.
-/

namespace ShortcutRelay

variable {α κ : Type}

section Entries

variable [DecidableEq κ]

theorem valueAt?_eq_none_iff (key : κ) (es : List (κ × α)) :
    valueAt? key es = none ↔ key ∉ entryKeys es := by
  induction es with
  | nil => simp [valueAt?]
  | cons e es ih =>
    obtain ⟨k, v⟩ := e
    by_cases h : k = key
    · simp [valueAt?, h]
    · have h' : key ≠ k := fun e => h e.symm
      simp [valueAt?, h, h', ih]

theorem valueAt?_eq_some_iff {es : List (κ × α)} (h : (entryKeys es).Nodup) (key : κ)
    (v : α) : valueAt? key es = some v ↔ (key, v) ∈ es := by
  induction es with
  | nil => simp [valueAt?]
  | cons e es ih =>
    obtain ⟨k, w⟩ := e
    rw [entryKeys_cons, List.nodup_cons] at h
    by_cases hk : k = key
    · subst hk
      have absent : (k, v) ∉ es := fun m => h.1 (List.mem_map.mpr ⟨(k, v), m, rfl⟩)
      simp [valueAt?, absent, eq_comm]
    · have hk' : key ≠ k := fun e => hk e.symm
      simp [valueAt?, hk, hk', ih h.2]

theorem mem_of_valueAt? {key : κ} {v : α} {es : List (κ × α)}
    (h : valueAt? key es = some v) : (key, v) ∈ es := by
  induction es with
  | nil => cases h
  | cons e es ih =>
    obtain ⟨k, w⟩ := e
    rw [valueAt?] at h
    split at h
    · next same =>
      cases h
      exact same ▸ List.mem_cons_self
    · exact List.mem_cons_of_mem _ (ih h)

theorem valueAt?_append (key : κ) (es fs : List (κ × α)) :
    valueAt? key (es ++ fs) = (valueAt? key es).or (valueAt? key fs) := by
  induction es with
  | nil => rfl
  | cons e es ih =>
    obtain ⟨k, v⟩ := e
    rw [List.cons_append, valueAt?, valueAt?]
    split
    · rfl
    · exact ih

theorem filterMap_putEntry {β : Type} {f : κ × α → Option β} {key : κ}
    (h : ∀ v, f (key, v) = none) (value : α) (es : List (κ × α)) :
    (putEntry key value es).filterMap f = es.filterMap f := by
  induction es with
  | nil => rw [putEntry, List.filterMap_cons_none (h value)]
  | cons e es ih =>
    obtain ⟨k, v⟩ := e
    by_cases hk : k = key
    · rw [putEntry, if_pos hk, hk, List.filterMap_cons_none (h value),
        List.filterMap_cons_none (h v)]
    · rw [putEntry, if_neg hk, List.filterMap_cons, List.filterMap_cons, ih]

theorem putEntry_of_notMem {key : κ} {value : α} {es : List (κ × α)}
    (h : key ∉ entryKeys es) : putEntry key value es = es ++ [(key, value)] := by
  induction es with
  | nil => rfl
  | cons e es ih =>
    obtain ⟨k, w⟩ := e
    simp only [entryKeys_cons, List.mem_cons, not_or] at h
    rw [putEntry, if_neg fun e => h.1 e.symm, ih h.2, List.cons_append]

theorem putEntry_of_mem {key : κ} {v : α} {es : List (κ × α)} (h : (entryKeys es).Nodup)
    (mem : (key, v) ∈ es) : putEntry key v es = es := by
  induction es with
  | nil => cases mem
  | cons e es ih =>
    obtain ⟨k, w⟩ := e
    rw [entryKeys_cons, List.nodup_cons] at h
    rcases List.mem_cons.mp mem with here | later
    · cases here
      simp [putEntry]
    · have other : k ≠ key := by
        rintro rfl
        exact h.1 (List.mem_map.mpr ⟨(k, v), later, rfl⟩)
      rw [putEntry, if_neg other, ih h.2 later]

theorem putEntry_putEntry (key : κ) (v w : α) (es : List (κ × α)) :
    putEntry key w (putEntry key v es) = putEntry key w es := by
  induction es with
  | nil => simp [putEntry]
  | cons e es ih =>
    obtain ⟨k, u⟩ := e
    by_cases hk : k = key
    · simp [putEntry, hk]
    · simp [putEntry, hk, ih]

theorem eraseEntry_of_notMem {key : κ} {es : List (κ × α)} (h : key ∉ entryKeys es) :
    eraseEntry key es = es := by
  refine List.filter_eq_self.mpr fun e he => ?_
  have : e.1 ≠ key := fun hk => h (hk ▸ List.mem_map_of_mem he)
  simpa using this

end Entries

namespace OrderedMap

@[simp] theorem toList_put (m : OrderedMap α) (key : String) (value : α) :
    (m.put key value).toList = putEntry key value m.toList := rfl

@[simp] theorem toList_erase (m : OrderedMap α) (key : String) :
    (m.erase key).toList = eraseEntry key m.toList := rfl

theorem get?_eq_none_iff (m : OrderedMap α) (key : String) : m.get? key = none ↔ key ∉ m.keys :=
  valueAt?_eq_none_iff key m.toList

theorem get?_eq_some_iff (m : OrderedMap α) (key : String) (v : α) :
    m.get? key = some v ↔ (key, v) ∈ m.toList :=
  valueAt?_eq_some_iff m.nodup key v

theorem get?_put_self (m : OrderedMap α) (key : String) (value : α) :
    (m.put key value).get? key = some value := by
  rw [get?_put, if_pos rfl]

theorem get?_put_of_ne (m : OrderedMap α) {key k : String} (h : k ≠ key) (value : α) :
    (m.put key value).get? k = m.get? k := by
  rw [get?_put, if_neg h]

theorem put_put (m : OrderedMap α) (key : String) (v w : α) :
    (m.put key v).put key w = m.put key w :=
  ext (putEntry_putEntry key v w m.toList)

theorem erase_of_get?_eq_none {m : OrderedMap α} {key : String} (h : m.get? key = none) :
    m.erase key = m :=
  ext (eraseEntry_of_notMem ((m.get?_eq_none_iff key).mp h))

/-- The map with some entries written one after the other. -/
def putAll (m : OrderedMap α) (ws : List (String × α)) : OrderedMap α :=
  ws.foldl (fun m w => m.put w.1 w.2) m

@[simp] theorem putAll_nil (m : OrderedMap α) : m.putAll [] = m := rfl

@[simp] theorem putAll_cons (m : OrderedMap α) (w : String × α) (ws : List (String × α)) :
    m.putAll (w :: ws) = (m.put w.1 w.2).putAll ws := rfl

theorem putAll_append (m : OrderedMap α) (vs ws : List (String × α)) :
    m.putAll (vs ++ ws) = (m.putAll vs).putAll ws :=
  List.foldl_append

/-- A map that is written into itself stays as it is. -/
theorem putAll_self (m : OrderedMap α) : m.putAll m.toList = m := by
  have known (ws : List (String × α)) (h : ∀ w ∈ ws, w ∈ m.toList) : m.putAll ws = m := by
    induction ws with
    | nil => rfl
    | cons w ws ih =>
      have same : m.put w.1 w.2 = m := ext (putEntry_of_mem m.nodup (h w List.mem_cons_self))
      rw [putAll_cons, same]
      exact ih fun w' mem => h w' (List.mem_cons_of_mem w mem)
  exact known m.toList fun _ mem => mem

theorem get?_putAll_of_notMem {ws : List (String × α)} {k : String} (h : k ∉ entryKeys ws)
    (m : OrderedMap α) : (m.putAll ws).get? k = m.get? k := by
  induction ws generalizing m with
  | nil => rfl
  | cons w ws ih =>
    rw [entryKeys_cons, List.mem_cons, not_or] at h
    rw [putAll_cons, ih h.2, get?_put_of_ne m h.1]

theorem get?_putAll {ws : List (String × α)} (h : (entryKeys ws).Nodup) (m : OrderedMap α)
    (k : String) : (m.putAll ws).get? k = (valueAt? k ws).or (m.get? k) := by
  induction ws generalizing m with
  | nil => rfl
  | cons w ws ih =>
    obtain ⟨key, v⟩ := w
    rw [entryKeys_cons, List.nodup_cons] at h
    rw [putAll_cons, valueAt?]
    by_cases hk : key = k
    · subst hk
      rw [if_pos rfl, get?_putAll_of_notMem h.1, get?_put_self]
      rfl
    · rw [if_neg hk, ih h.2, get?_put_of_ne m fun e => hk e.symm]

theorem toList_putAll {ws : List (String × α)} (h : (entryKeys ws).Nodup) {m : OrderedMap α}
    (absent : ∀ k ∈ entryKeys ws, m.get? k = none) : (m.putAll ws).toList = m.toList ++ ws := by
  induction ws generalizing m with
  | nil => rw [putAll_nil, List.append_nil]
  | cons w ws ih =>
    rw [entryKeys_cons, List.nodup_cons] at h
    have new : w.1 ∉ m.keys := (m.get?_eq_none_iff w.1).mp (absent w.1 List.mem_cons_self)
    have others : ∀ k ∈ entryKeys ws, (m.put w.1 w.2).get? k = none := by
      intro k hk
      have different : k ≠ w.1 := by
        rintro rfl
        exact h.1 hk
      rw [get?_put_of_ne m different]
      exact absent k (List.mem_cons_of_mem _ hk)
    rw [putAll_cons, ih h.2 others, toList_put, putEntry_of_notMem new, List.append_assoc]
    rfl

/-- Entries with different keys are all kept, in their order. -/
theorem toList_ofList {es : List (String × α)} (distinct : (entryKeys es).Nodup) :
    (ofList es).toList = es :=
  toList_putAll (m := {}) distinct fun _ _ => rfl

theorem ofList_toList (m : OrderedMap α) : ofList m.toList = m :=
  ext (toList_ofList m.nodup)

theorem get?_ofList {es : List (String × α)} (distinct : (entryKeys es).Nodup) (key : String) :
    (ofList es).get? key = valueAt? key es := by
  rw [get?, toList_ofList distinct]

/-! ## Removals of several keys -/

theorem toList_eraseAll (keys : List String) (m : OrderedMap α) :
    (keys.foldl erase m).toList = m.toList.filter fun e => !keys.contains e.1 := by
  induction keys generalizing m with
  | nil => exact (List.filter_eq_self.mpr fun _ _ => rfl).symm
  | cons key keys ih =>
    rw [List.foldl_cons, ih, toList_erase, eraseEntry, List.filter_filter]
    refine List.filter_congr fun e _ => ?_
    rw [List.contains_cons, Bool.not_or, Bool.and_comm]
    rfl

theorem get?_eraseAll (keys : List String) (m : OrderedMap α) (k : String) :
    (keys.foldl erase m).get? k = if k ∈ keys then none else m.get? k := by
  induction keys generalizing m with
  | nil => simp
  | cons key keys ih =>
    rw [List.foldl_cons, ih, get?_erase]
    by_cases h : k = key <;> by_cases hs : k ∈ keys <;> simp [h, hs]

theorem contains_eq_false_iff (m : OrderedMap α) (key : String) :
    m.contains key = false ↔ m.get? key = none := by
  rw [contains, Option.isSome_eq_false_iff, Option.isNone_iff_eq_none]

end OrderedMap

/-! ## Texts -/

theorem textAt_of_get? {c : Contents} {key : String} {v : Document} (h : c.get? key = some v) :
    textAt c key = v.storedText := by
  rw [textAt, h]

theorem textAt_of_none {c : Contents} {key : String} (h : c.get? key = none) :
    textAt c key = .ok none := by
  rw [textAt, h]

/-- Only a whole number with too many digits has no text. -/
theorem storedText_error {v : Document} {e : NumberError} (h : v.storedText = .error e) :
    e = .tooManyDigits ∧ ∃ n, v = .int n ∧ Decimal.isWritable n = false := by
  cases v with
  | int n =>
    rw [Document.storedText, wholeText] at h
    split at h
    · cases h
    · next long =>
      cases h
      exact ⟨rfl, n, rfl, Bool.eq_false_iff.mpr long⟩
  | _ => cases h

theorem textAt_error {c : Contents} {key : String} {e : NumberError} (h : textAt c key = .error e) :
    e = .tooManyDigits := by
  unfold textAt at h
  split at h
  · exact (storedText_error h).1
  · cases h

theorem textAt_eq_error_iff {c : Contents} {key : String} :
    textAt c key = .error .tooManyDigits ↔
      ∃ n : Int, c.get? key = some (.int n) ∧ Decimal.isWritable n = false := by
  constructor
  · intro h
    unfold textAt at h
    split at h
    · next v there =>
      obtain ⟨-, n, rfl, long⟩ := storedText_error h
      exact ⟨n, there, long⟩
    · cases h
  · rintro ⟨n, there, long⟩
    rw [textAt_of_get? there, Document.storedText, wholeText, long]
    rfl

theorem textAt_congr {c d : Contents} {key k : String} (h : c.get? key = d.get? k) :
    textAt c key = textAt d k := by
  rw [textAt, textAt, h]

theorem textAt_put (c : Contents) (key k : String) (v : Document) :
    textAt (c.put key v) k = if k = key then v.storedText else textAt c k := by
  split
  · next same => exact textAt_of_get? (by rw [OrderedMap.get?_put, if_pos same])
  · next other => exact textAt_congr (by rw [OrderedMap.get?_put, if_neg other])

theorem textAt_erase (c : Contents) (key k : String) :
    textAt (c.erase key) k = if k = key then .ok none else textAt c k := by
  split
  · next same => exact textAt_of_none (by rw [OrderedMap.get?_erase, if_pos same])
  · next other => exact textAt_congr (by rw [OrderedMap.get?_erase, if_neg other])

theorem textAt_eraseAll (keys : List String) (c : Contents) (k : String) :
    textAt (keys.foldl OrderedMap.erase c) k = if k ∈ keys then .ok none else textAt c k := by
  split
  · next there => exact textAt_of_none (by rw [OrderedMap.get?_eraseAll, if_pos there])
  · next other => exact textAt_congr (by rw [OrderedMap.get?_eraseAll, if_neg other])

/-! ## Removals -/

/-- A removal that changes nothing leaves what a removal leaves. -/
theorem erased_unchanged {keys : List String} {c : Contents}
    (h : (Backend.erased keys c).2 = false) : (Backend.erased keys c).1 = c := by
  have absent : ∀ key ∈ keys, c.get? key = none := by
    intro key hk
    have : c.contains key = false := by
      have := List.any_eq_false.mp h key hk
      simpa using this
    exact (c.contains_eq_false_iff key).mp this
  clear h
  change keys.foldl OrderedMap.erase c = c
  induction keys with
  | nil => rfl
  | cons key keys ih =>
    rw [List.foldl_cons, OrderedMap.erase_of_get?_eq_none (absent key (by simp))]
    exact ih fun k hk => absent k (List.mem_cons_of_mem key hk)

end ShortcutRelay
