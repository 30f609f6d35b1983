import ShortcutRelay.Proofs.Decimal.WholeDouble
import ShortcutRelay.Proofs.Protocol.Key
import ShortcutRelay.Proofs.Store.Effect

/-!
# Parameters as they are written and as they are found

A parameter is written in the form of its type, as a value with a tag where the type needs one, and
the same value is found again.

* `encode` : the stored form of a value of a type;
* `storeParameter_eq` : a parameter is encoded and then written;
* `parameterWrites` : the entries that are written for a parameter, `runOn_storeParameter`;
* `parameterAt` : the parameter that stands in the contents, `parametersOf` : all of them;
* `runOn_storedParameters` : what a look for all parameters finds, where they all `Decodes`.
-/

namespace ShortcutRelay

def StoredValue.tag? : StoredValue → Option String
  | timestamp _ => some Protocol.dateTag
  | boolean _ => some Protocol.booleanTag
  | _ => none

theorem StoredValue.raw_isScalar (v : StoredValue) : v.raw.isScalar = true := by
  cases v <;> rfl

/-- Whether a document that is read as a number fits a double. -/
def Document.fitsDouble : Document → Bool
  | .int n => (Decimal.ofInteger? n).isSome
  | _ => true

theorem StoredValue.raw_fitsDouble (v : StoredValue) : v.raw.fitsDouble = true := by
  cases v <;> rfl

theorem Document.toFloat_of_fitsDouble {d : Document} (numeric : d.isNumeric = true)
    (h : d.fitsDouble = true) : ∃ x, d.toFloat = .ok x := by
  cases d with
  | bool b => exact ⟨_, rfl⟩
  | float x => exact ⟨x, rfl⟩
  | int n =>
    obtain ⟨x, hx⟩ := Option.isSome_iff_exists.mp h
    refine ⟨x, ?_⟩
    rw [toFloat, floatOfInt, hx]
  | _ => cases numeric

theorem Document.toFloat_of_not_fitsDouble {d : Document} (h : d.fitsDouble = false) :
    d.isNumeric = true ∧ d.toFloat = .error .tooLarge := by
  cases d with
  | int n =>
    change (Decimal.ofInteger? n).isSome = false at h
    have missing := Option.isNone_iff_eq_none.mp (Option.isSome_eq_false_iff.mp h)
    refine ⟨rfl, ?_⟩
    rw [toFloat, floatOfInt, missing]
  | _ => cases h

theorem Document.storedNumber_ok {d : Document} (h : d.fitsDouble = true) :
    ∃ x, d.storedNumber = .ok x := by
  unfold storedNumber
  split
  · next numeric =>
    obtain ⟨x, hx⟩ := toFloat_of_fitsDouble numeric h
    exact ⟨some x, by rw [hx]; rfl⟩
  · exact ⟨none, rfl⟩

theorem Document.storedText_ok {d : Document} (h : d.fitsDouble = true) :
    ∃ found, d.storedText = .ok found := by
  cases d with
  | int n =>
    obtain ⟨x, hx⟩ := Option.isSome_iff_exists.mp h
    refine ⟨some (toString n), ?_⟩
    rw [storedText, wholeText, Decimal.isWritable_of_ofInteger? hx]
    rfl
  | _ => exact ⟨_, rfl⟩

/-- An entry whose number fits a double is read as a text. -/
theorem textAt_ok {c : Contents} {key : String}
    (fits : ∀ v, c.get? key = some v → v.fitsDouble = true) : ∃ found, textAt c key = .ok found := by
  cases there : c.get? key with
  | none => exact ⟨none, textAt_of_none there⟩
  | some v =>
    rw [textAt_of_get? there]
    exact Document.storedText_ok (fits v there)

/-- An entry whose number fits a double is read as one. -/
theorem doubleAt_ok {c : Contents} {key : String}
    (fits : ∀ v, c.get? key = some v → v.fitsDouble = true) : ∃ x, doubleAt c key = .ok x := by
  have here : ((c.get? key).getD .null).fitsDouble = true := by
    cases found : c.get? key with
    | none => rfl
    | some v => exact fits v found
  obtain ⟨number, stored⟩ := Document.storedNumber_ok here
  unfold doubleAt
  generalize (c.get? key).getD .null = v at stored
  cases v with
  | text s => exact ⟨_, rfl⟩
  | _ =>
    refine ⟨number.getD 0.0, ?_⟩
    dsimp only
    rw [stored]
    rfl

namespace Protocol

/-! ## Writing -/

def epochOf : Document → Except Failure Float
  | .moment m => m.toEpoch.mapError .calendar
  | .date d => (Calendar.Moment.ofDate d).toEpoch.mapError .calendar
  | .int n => (floatOfInt n).mapError .number
  | .float x => .ok x
  | d => .error (.notADate d.kind)

/-- The stored form of a value of a type. -/
def encode (type : ValueType) (value : Document) : Except Failure StoredValue :=
  match type with
  | .date => StoredValue.timestamp <$> epochOf value
  | .boolean => .ok (.boolean value.truthy)
  | .number => StoredValue.number <$> value.toFloat.mapError .number
  | _ => StoredValue.text <$> value.plainText.mapError .number

def storeValue (name : String) (v : StoredValue) : StoreM Unit := do
  Store.set (parameterEntry name) v.raw
  if let some tag := v.tag? then Store.set (parameterTagEntry name) (.text tag)

theorem epochSeconds_eq (value : Document) :
    epochSeconds value = MonadExcept.ofExcept (epochOf value) := by
  cases value with
  | moment m =>
    change ofCalendar m.toEpoch = MonadExcept.ofExcept (m.toEpoch.mapError .calendar)
    cases m.toEpoch <;> rfl
  | date d => rfl
  | int n =>
    change Store.ofNumber (floatOfInt n) = MonadExcept.ofExcept ((floatOfInt n).mapError .number)
    cases floatOfInt n <;> rfl
  | _ => rfl

theorem storeParameter_eq (name : String) (type : ValueType) (value : Document) :
    storeParameter name type value = MonadExcept.ofExcept (encode type value) >>= storeValue name := by
  cases type with
  | date =>
    change epochSeconds value >>= _ = _
    rw [epochSeconds_eq, encode]
    cases epochOf value <;> rfl
  | number =>
    change Store.ofNumber value.toFloat >>= _ = _
    rw [encode]
    cases value.toFloat with
    | error e => rfl
    | ok x => exact (bind_pure_unit (x := Store.set (parameterEntry name) (.float x))).symm
  | boolean => rfl
  | text | other =>
    change Store.ofNumber value.plainText >>= _ =
      MonadExcept.ofExcept (StoredValue.text <$> value.plainText.mapError .number) >>= _
    cases value.plainText with
    | error e => rfl
    | ok s => exact (bind_pure_unit (x := Store.set (parameterEntry name) (.text s))).symm

def parameterWrites (name : String) (v : StoredValue) : List (String × Document) :=
  (parameterEntry name, v.raw) :: (v.tag?.map fun tag => (parameterTagEntry name, .text tag)).toList

theorem runOn_storeValue (name : String) (v : StoredValue) (c : Contents) :
    runOn (storeValue name v) c = (.ok (), c.putAll (parameterWrites name v)) := by
  rw [storeValue, runOn_bind_ok (runOn_set v.raw_isScalar _ c), parameterWrites]
  cases v.tag? with
  | none => rfl
  | some tag => exact runOn_set (v := .text tag) rfl _ _

theorem runOn_storeParameter (name : String) (type : ValueType) (value : Document) (c : Contents) :
    runOn (storeParameter name type value) c =
      match encode type value with
      | .ok v => (.ok (), c.putAll (parameterWrites name v))
      | .error e => (.error e, c) := by
  rw [storeParameter_eq]
  cases encode type value with
  | error e => rfl
  | ok v => exact runOn_storeValue name v c

theorem mem_parameterWrites {name k : String} {v : StoredValue}
    (h : k ∈ entryKeys (parameterWrites name v)) :
    k = parameterEntry name ∨ k = parameterTagEntry name := by
  cases v <;> simp_all [parameterWrites, StoredValue.tag?, entryKeys]

theorem isParameterKey_of_mem_parameterWrites {name k : String} {v : StoredValue}
    (h : k ∈ entryKeys (parameterWrites name v)) : isParameterKey k = true := by
  rcases mem_parameterWrites h with rfl | rfl
  · exact isParameterKey_parameterEntry name
  · exact isParameterKey_parameterTagEntry name

theorem parameterWrites_nodup (name : String) (v : StoredValue) :
    (entryKeys (parameterWrites name v)).Nodup := by
  have := parameterEntry_ne_tagEntry name name
  cases v <;> simp_all [parameterWrites, StoredValue.tag?, entryKeys]

theorem valueAt?_parameterWrites (name : String) (v : StoredValue) :
    valueAt? (parameterEntry name) (parameterWrites name v) = some v.raw := by
  rw [parameterWrites, valueAt?, if_pos rfl]

theorem valueAt?_parameterWrites_tag (name : String) (v : StoredValue) :
    valueAt? (parameterTagEntry name) (parameterWrites name v) = v.tag?.map Document.text := by
  rw [parameterWrites, valueAt?, if_neg (parameterEntry_ne_tagEntry name name)]
  cases v.tag? with
  | none => rfl
  | some tag => exact if_pos rfl

/-! ## Reading -/

theorem decodeParameter_ok {raw : Document} (h : raw.fitsDouble = true) (tag : Document) :
    ∃ found, decodeParameter raw tag = .ok found := by
  have numeric (f : Float → StoredValue) : ∃ found,
      (if raw.isNumeric then do return some (f (← raw.toFloat)) else .ok none :
        Except NumberError (Option StoredValue)) = .ok found := by
    split
    · next hn =>
      obtain ⟨x, hx⟩ := Document.toFloat_of_fitsDouble hn h
      exact ⟨some (f x), by rw [hx]; rfl⟩
    · exact ⟨none, rfl⟩
  unfold decodeParameter
  split
  · unfold timestampOf
    split
    · exact ⟨_, rfl⟩
    · exact numeric .timestamp
  · split
    · exact ⟨_, rfl⟩
    · split
      · exact ⟨_, rfl⟩
      · exact numeric .number

/-- A value is found again under its tag; one without a tag where no tag of another value is. -/
theorem decodeParameter_raw (v : StoredValue) {tag : Document}
    (h : tag = (v.tag?.map Document.text).getD tag)
    (untagged : v.tag? = none → isText dateTag tag = false ∧ isText booleanTag tag = false) :
    decodeParameter v.raw tag = .ok (some v) := by
  cases v with
  | timestamp x => rw [h]; rfl
  | boolean b => rw [h]; rfl
  | text s =>
    obtain ⟨date, boolean⟩ := untagged rfl
    unfold decodeParameter
    rw [date, boolean]
    rfl
  | number x =>
    obtain ⟨date, boolean⟩ := untagged rfl
    unfold decodeParameter
    rw [date, boolean]
    rfl

/-- Every number that stands for a parameter fits a double. -/
def Decodes (c : Contents) : Prop :=
  ∀ name raw, c.get? (parameterEntry name) = some raw → raw.fitsDouble = true

def tagAt (c : Contents) (name : String) : Document :=
  (c.get? (parameterTagEntry name)).getD .null

def parameterAt (c : Contents) (name : String) : Option StoredValue := do
  let raw ← c.get? (parameterEntry name)
  ((decodeParameter raw (tagAt c name)).toOption).join

/-- The parameter that an entry of the contents stands for, with its name. -/
def parameterOf (c : Contents) (entry : String × Document) : Option (String × StoredValue) := do
  let name ← Text.afterStart? parameterStart entry.1
  let v ← ((decodeParameter entry.2 (tagAt c name)).toOption).join
  return (name, v)

def parametersOf (c : Contents) : List (String × StoredValue) :=
  c.toList.filterMap (parameterOf c)

theorem decodeParameters_eq {c : Contents} {es : List (String × Document)}
    (h : ∀ name raw, (parameterEntry name, raw) ∈ es →
      ∃ found, decodeParameter raw (tagAt c name) = .ok found) :
    decodeParameters c es = .ok (es.filterMap (parameterOf c)) := by
  induction es with
  | nil => rfl
  | cons e es ih =>
    obtain ⟨key, raw⟩ := e
    have others := ih fun name raw hm => h name raw (List.mem_cons_of_mem _ hm)
    rw [decodeParameters]
    split
    · next hk =>
      have none_here : parameterOf c (key, raw) = none := by rw [parameterOf, hk]; rfl
      rw [others, List.filterMap_cons_none none_here]
    · next name hk =>
      obtain rfl := (Text.afterStart?_eq_some_iff ..).mp hk
      obtain ⟨found, hf⟩ := h name raw List.mem_cons_self
      have here : parameterOf c (parameterStart ++ name, raw) = found.map (name, ·) := by
        rw [parameterOf, hk]
        change ((decodeParameter raw (tagAt c name)).toOption.join.bind fun v => some (name, v)) = _
        rw [hf]
        cases found <;> rfl
      change (decodeParameter raw (tagAt c name) >>= _) = _
      rw [hf, others, List.filterMap_cons, here]
      cases found <;> rfl

theorem runOn_storedParameters {c : Contents} (h : Decodes c) :
    runOn storedParameters c = (.ok (parametersOf c), c) := by
  have read : decodeParameters c c.toList = .ok (parametersOf c) :=
    decodeParameters_eq fun name raw hm =>
      decodeParameter_ok (h name raw ((c.get?_eq_some_iff ..).mpr hm)) (tagAt c name)
  rw [storedParameters, runOn_bind_ok (runOn_snapshot c), read]
  rfl

theorem mem_parametersOf (c : Contents) (name : String) (v : StoredValue) :
    (name, v) ∈ parametersOf c ↔ parameterAt c name = some v := by
  rw [parametersOf, List.mem_filterMap]
  constructor
  · rintro ⟨⟨key, raw⟩, hm, hp⟩
    obtain ⟨n, hk, hv⟩ := Option.bind_eq_some_iff.mp hp
    obtain ⟨w, hw, e⟩ := Option.bind_eq_some_iff.mp hv
    obtain ⟨rfl, rfl⟩ := Prod.mk.inj (Option.some.inj e)
    obtain rfl := (Text.afterStart?_eq_some_iff ..).mp hk
    exact Option.bind_eq_some_iff.mpr ⟨raw, (c.get?_eq_some_iff ..).mpr hm, hw⟩
  · intro h
    obtain ⟨raw, hraw, hv⟩ := Option.bind_eq_some_iff.mp h
    refine ⟨(parameterEntry name, raw), (c.get?_eq_some_iff ..).mp hraw, ?_⟩
    refine Option.bind_eq_some_iff.mpr ⟨name, Text.afterStart?_append parameterStart name, ?_⟩
    exact Option.bind_eq_some_iff.mpr ⟨v, hv, rfl⟩

theorem names_parametersOf_nodup (c : Contents) : ((parametersOf c).map Prod.fst).Nodup := by
  have entries : ((parametersOf c).map (fun p => parameterEntry p.1)).Sublist (entryKeys c.toList) := by
    rw [parametersOf]
    induction c.toList with
    | nil => exact List.Sublist.slnil
    | cons e es ih =>
      cases he : parameterOf c e with
      | none =>
        rw [List.filterMap_cons_none he]
        exact ih.cons _
      | some p =>
        obtain ⟨n, hk, hv⟩ := Option.bind_eq_some_iff.mp he
        obtain ⟨w, -, e'⟩ := Option.bind_eq_some_iff.mp hv
        have key : e.1 = parameterEntry p.1 := by
          rw [(Text.afterStart?_eq_some_iff ..).mp hk, ← Option.some.inj e']
          rfl
        rw [List.filterMap_cons_some he, List.map_cons, entryKeys_cons, key]
        exact ih.cons_cons _
  have distinct := entries.nodup c.nodup
  change ((parametersOf c).map (parameterEntry ∘ Prod.fst)).Nodup at distinct
  rw [← List.map_map] at distinct
  refine List.Pairwise.of_map parameterEntry (fun _ _ different same => ?_) distinct
  exact different (congrArg _ same)

end Protocol

end ShortcutRelay
