import ShortcutRelay.Proofs.Except
import ShortcutRelay.Proofs.Protocol.Parameter

/-!
# Commands as they are written, read and cleared

* `Draft` : a command as an intent writes it, `Draft.write` : its parameters and then the rest;
* `allParameterWrites`, `commandWrites` : the entries that are written, `Draft.written` : the contents
  with them, `runOn_write`;
* `runOn_readCommand` : what is read where a command stands in the contents;
* `cleared` : the contents without a command, `runOn_clearCommand`.
-/

namespace ShortcutRelay.Protocol

/-! ## Writing -/

def storeParameters : List (String × ValueType × Document) → StoreM Unit
  | [] => return ()
  | (name, type, value) :: rest => do
    storeParameter name type value
    storeParameters rest

/-- A command as an intent writes it. -/
structure Draft where
  identifier : String
  nonce : String
  parameters : List (String × ValueType × Document) := []
  confirmed : Option Bool := none
  time : Float := 0.0

def Draft.write (d : Draft) : StoreM Unit := do
  storeParameters d.parameters
  postCommand d.identifier d.nonce d.confirmed (.float d.time)

/-- The stored forms of parameters, none where one of them has none. -/
def encodeAll : List (String × ValueType × Document) →
    Except Failure (List (String × StoredValue))
  | [] => .ok []
  | (name, type, value) :: rest => do
    let v ← encode type value
    return (name, v) :: (← encodeAll rest)

theorem of_encodeAll_cons {name : String} {type : ValueType} {value : Document}
    {ps : List (String × ValueType × Document)} {vs : List (String × StoredValue)}
    (h : encodeAll ((name, type, value) :: ps) = .ok vs) :
    ∃ v ws, encode type value = .ok v ∧ encodeAll ps = .ok ws ∧ vs = (name, v) :: ws := by
  obtain ⟨v, encoded, h⟩ := of_bind_eq_ok h
  obtain ⟨ws, encoded_rest, h⟩ := of_bind_eq_ok h
  cases h
  exact ⟨v, ws, encoded, encoded_rest, rfl⟩

def allParameterWrites (vs : List (String × StoredValue)) : List (String × Document) :=
  vs.flatMap fun v => parameterWrites v.1 v.2

def commandWrites (d : Draft) : List (String × Document) :=
  [(commandIdentifier, .text d.identifier), (commandNonce, .text d.nonce),
    (commandTimestamp, .float d.time)] ++ (d.confirmed.map fun b => (userConfirmed, .bool b)).toList

/-- The contents with a command in them whose parameters were encoded as `vs`. -/
def Draft.written (d : Draft) (vs : List (String × StoredValue)) (c : Contents) : Contents :=
  (c.putAll (allParameterWrites vs)).putAll (commandWrites d)

theorem runOn_storeParameters {ps : List (String × ValueType × Document)}
    {vs : List (String × StoredValue)} (h : encodeAll ps = .ok vs) (c : Contents) :
    runOn (storeParameters ps) c = (.ok (), c.putAll (allParameterWrites vs)) := by
  induction ps generalizing vs c with
  | nil =>
    cases h
    rfl
  | cons p ps ih =>
    obtain ⟨name, type, value⟩ := p
    obtain ⟨v, ws, hv, hs, rfl⟩ := of_encodeAll_cons h
    have first := runOn_storeParameter name type value c
    rw [hv] at first
    rw [storeParameters, runOn_bind_ok first, ih hs, ← OrderedMap.putAll_append]
    rfl

/-- Parameters are all written, or they are written up to the first one that has no stored form. -/
theorem runOn_storeParameters_cases (ps : List (String × ValueType × Document)) (c : Contents) :
    (∃ vs, encodeAll ps = .ok vs) ∨
      ∃ e vs, runOn (storeParameters ps) c = (.error e, c.putAll (allParameterWrites vs)) := by
  induction ps generalizing c with
  | nil => exact .inl ⟨[], rfl⟩
  | cons p ps ih =>
    obtain ⟨name, type, value⟩ := p
    have first := runOn_storeParameter name type value c
    rcases hv : encode type value with e | v
    · rw [hv] at first
      exact .inr ⟨e, [], by rw [storeParameters, runOn_bind, first]; rfl⟩
    · rw [hv] at first
      rcases ih (c.putAll (parameterWrites name v)) with ⟨vs, encoded⟩ | ⟨e, vs, wrote⟩
      · exact .inl ⟨(name, v) :: vs, by rw [encodeAll, hv, encoded]; rfl⟩
      · refine .inr ⟨e, (name, v) :: vs, ?_⟩
        rw [storeParameters, runOn_bind_ok first, wrote, ← OrderedMap.putAll_append]
        rfl

theorem runOn_postCommand (d : Draft) (c : Contents) :
    runOn (postCommand d.identifier d.nonce d.confirmed (.float d.time)) c =
      (.ok (), c.putAll (commandWrites d)) := by
  unfold postCommand
  rw [runOn_bind_ok (runOn_set (v := .text d.identifier) rfl _ _),
    runOn_bind_ok (runOn_set (v := .text d.nonce) rfl _ _),
    runOn_bind_ok (runOn_set (v := .float d.time) rfl _ _), commandWrites]
  cases d.confirmed with
  | none => rfl
  | some b => exact runOn_set (v := .bool b) rfl _ _

theorem runOn_write {d : Draft} {vs : List (String × StoredValue)}
    (h : encodeAll d.parameters = .ok vs) (c : Contents) :
    runOn d.write c = (.ok (), d.written vs c) := by
  rw [Draft.write, runOn_bind_ok (runOn_storeParameters h c), runOn_postCommand, Draft.written]

/-- A command is written as a whole, or some of its parameters are written and nothing else. -/
theorem runOn_write_cases (d : Draft) (c : Contents) :
    (∃ vs, encodeAll d.parameters = .ok vs ∧
      runOn d.write c = (.ok (), d.written vs c)) ∨
    ∃ e vs, runOn d.write c = (.error e, c.putAll (allParameterWrites vs)) := by
  rcases runOn_storeParameters_cases d.parameters c with ⟨vs, encoded⟩ | ⟨e, vs, wrote⟩
  · exact .inl ⟨vs, encoded, runOn_write encoded c⟩
  · exact .inr ⟨e, vs, by rw [Draft.write, runOn_bind, wrote]⟩

theorem contents_of_written {d : Draft} {b c : Contents} (h : runOn d.write b = (.ok (), c)) :
    ∃ vs, c = d.written vs b := by
  rcases runOn_write_cases d b with ⟨vs, -, wrote⟩ | ⟨e, vs, wrote⟩
  · rw [wrote] at h
    cases h
    exact ⟨vs, rfl⟩
  · rw [wrote] at h
    cases h

theorem contents_of_aborted {d : Draft} {b c : Contents} {e : Failure}
    (h : runOn d.write b = (.error e, c)) : ∃ vs, c = b.putAll (allParameterWrites vs) := by
  rcases runOn_write_cases d b with ⟨vs, -, wrote⟩ | ⟨e, vs, wrote⟩
  · rw [wrote] at h
    cases h
  · rw [wrote] at h
    cases h
    exact ⟨vs, rfl⟩

/-! ## Which entries are written -/

theorem isParameterKey_of_mem_allParameterWrites {vs : List (String × StoredValue)} {k : String}
    (h : k ∈ entryKeys (allParameterWrites vs)) : isParameterKey k = true := by
  obtain ⟨w, hw, rfl⟩ := List.mem_map.mp h
  obtain ⟨v, -, hv⟩ := List.mem_flatMap.mp hw
  exact isParameterKey_of_mem_parameterWrites (List.mem_map_of_mem hv)

theorem mem_commandEntries_of_mem_commandWrites {d : Draft} {k : String}
    (h : k ∈ entryKeys (commandWrites d)) : k ∈ commandEntries := by
  have first : ∀ key ∈ commandEntries.take 3, key ∈ commandEntries := fun _ => List.mem_of_mem_take
  unfold commandWrites at h
  cases hb : d.confirmed with
  | none =>
    rw [hb] at h
    exact first k h
  | some b =>
    rw [hb] at h
    exact h

theorem commandWrites_nodup (d : Draft) : (entryKeys (commandWrites d)).Nodup := by
  unfold commandWrites
  cases d.confirmed with
  | none => exact (by decide : (commandEntries.take 3).Nodup)
  | some b => exact (by decide : commandEntries.Nodup)

theorem not_isParameterKey_of_mem_commandWrites {d : Draft} {k : String}
    (h : k ∈ entryKeys (commandWrites d)) : isParameterKey k = false :=
  isParameterKey_commandEntries k (mem_commandEntries_of_mem_commandWrites h)

theorem get?_putAll_allParameterWrites (vs : List (String × StoredValue)) (c : Contents)
    {k : String} (h : isParameterKey k = false) :
    (c.putAll (allParameterWrites vs)).get? k = c.get? k := by
  refine OrderedMap.get?_putAll_of_notMem (fun hk => ?_) c
  rw [isParameterKey_of_mem_allParameterWrites hk] at h
  cases h

theorem get?_commandIdentifier (d : Draft) (c : Contents) :
    (c.putAll (commandWrites d)).get? commandIdentifier = some (.text d.identifier) := by
  rw [OrderedMap.get?_putAll (commandWrites_nodup d)]
  rfl

theorem get?_commandNonce (d : Draft) (c : Contents) :
    (c.putAll (commandWrites d)).get? commandNonce = some (.text d.nonce) := by
  rw [OrderedMap.get?_putAll (commandWrites_nodup d)]
  rfl

theorem textAt_written_nonce (d : Draft) (vs : List (String × StoredValue)) (c : Contents) :
    textAt (d.written vs c) commandNonce = .ok (some d.nonce) :=
  textAt_of_get? (get?_commandNonce d _)

theorem textAt_written_identifier (d : Draft) (vs : List (String × StoredValue)) (c : Contents) :
    textAt (d.written vs c) commandIdentifier = .ok (some d.identifier) :=
  textAt_of_get? (get?_commandIdentifier d _)

theorem get?_commandTimestamp (d : Draft) (c : Contents) :
    (c.putAll (commandWrites d)).get? commandTimestamp = some (.float d.time) := by
  rw [OrderedMap.get?_putAll (commandWrites_nodup d)]
  rfl

theorem get?_userConfirmed (d : Draft) (c : Contents) :
    (c.putAll (commandWrites d)).get? userConfirmed =
      (d.confirmed.map Document.bool).or (c.get? userConfirmed) := by
  rw [OrderedMap.get?_putAll (commandWrites_nodup d), commandWrites]
  cases d.confirmed <;> rfl

/-! ## Reading -/

def confirmationAt (c : Contents) : Option Bool :=
  decodeConfirmation ((c.get? userConfirmed).getD .null)

theorem runOn_readCommand {c : Contents} {identifier nonce : String} {time : Float}
    (hi : textAt c commandIdentifier = .ok (some identifier))
    (hn : textAt c commandNonce = .ok (some nonce))
    (ht : c.get? commandTimestamp = some (.float time)) (h : Decodes c) :
    runOn readCommand c = (.ok (some {
      identifier, nonce, timestamp := time, parameters := parametersOf c
      userConfirmed := confirmationAt c }), c) := by
  have timestamp := runOn_double commandTimestamp c
  rw [doubleAt, ht] at timestamp
  rw [readCommand, runOn_bind_ok (runOn_text_ok hi), runOn_bind_ok (runOn_text_ok hn)]
  change runOn (Store.get userConfirmed >>= _) c = _
  rw [runOn_bind_ok (runOn_get ..), runOn_bind_ok timestamp,
    runOn_bind_ok (runOn_storedParameters h)]
  rfl

/-- Without an identifier or without a nonce there is no command. -/
theorem runOn_readCommand_none {c : Contents} {identifier nonce : Option String}
    (hi : textAt c commandIdentifier = .ok identifier) (hn : textAt c commandNonce = .ok nonce)
    (h : identifier = none ∨ nonce = none) : runOn readCommand c = (.ok none, c) := by
  rw [readCommand, runOn_bind_ok (runOn_text_ok hi), runOn_bind_ok (runOn_text_ok hn)]
  rcases h with rfl | rfl
  · rfl
  · cases identifier <;> rfl

/-- An identifier or a nonce with too many digits cannot be read. -/
theorem runOn_readCommand_error {c : Contents} {e : NumberError}
    (h : textAt c commandIdentifier = .error e ∨
      textAt c commandNonce = .error e ∧ ∃ identifier, textAt c commandIdentifier = .ok identifier) :
    runOn readCommand c = (.error (.number e), c) := by
  rw [readCommand]
  rcases h with hi | ⟨hn, identifier, hi⟩
  · rw [runOn_bind, runOn_text, hi]
    rfl
  · rw [runOn_bind_ok (runOn_text_ok hi), runOn_bind, runOn_text, hn]
    rfl

/-! ## What was written is found again -/

theorem names_of_encodeAll {ps : List (String × ValueType × Document)}
    {vs : List (String × StoredValue)} (h : encodeAll ps = .ok vs) :
    vs.map Prod.fst = ps.map Prod.fst := by
  induction ps generalizing vs with
  | nil =>
    cases h
    rfl
  | cons p ps ih =>
    obtain ⟨name, type, value⟩ := p
    obtain ⟨v, ws, -, encoded, rfl⟩ := of_encodeAll_cons h
    rw [List.map_cons, List.map_cons, ih encoded]

theorem mem_allParameterWrites {vs : List (String × StoredValue)} {k : String}
    (h : k ∈ entryKeys (allParameterWrites vs)) :
    ∃ name ∈ vs.map Prod.fst, k = parameterEntry name ∨ k = parameterTagEntry name := by
  obtain ⟨w, hw, rfl⟩ := List.mem_map.mp h
  obtain ⟨v, hv, hm⟩ := List.mem_flatMap.mp hw
  exact ⟨v.1, List.mem_map_of_mem hv, mem_parameterWrites (List.mem_map_of_mem hm)⟩

theorem parameterEntry_notMem_writes {vs : List (String × StoredValue)} {name : String}
    (h : name ∉ vs.map Prod.fst) : parameterEntry name ∉ entryKeys (allParameterWrites vs) := by
  intro hk
  obtain ⟨other, hm, e | e⟩ := mem_allParameterWrites hk
  · exact h (parameterEntry_injective e ▸ hm)
  · exact parameterEntry_ne_tagEntry _ _ e

theorem parameterTagEntry_notMem_writes {vs : List (String × StoredValue)} {name : String}
    (h : name ∉ vs.map Prod.fst) : parameterTagEntry name ∉ entryKeys (allParameterWrites vs) := by
  intro hk
  obtain ⟨other, hm, e | e⟩ := mem_allParameterWrites hk
  · exact parameterEntry_ne_tagEntry _ _ e.symm
  · exact h (parameterTagEntry_injective e ▸ hm)

theorem allParameterWrites_nodup {vs : List (String × StoredValue)}
    (h : (vs.map Prod.fst).Nodup) : (entryKeys (allParameterWrites vs)).Nodup := by
  induction vs with
  | nil => exact List.nodup_nil
  | cons v vs ih =>
    rw [List.map_cons, List.nodup_cons] at h
    have keys : entryKeys (allParameterWrites (v :: vs)) =
        entryKeys (parameterWrites v.1 v.2) ++ entryKeys (allParameterWrites vs) :=
      List.map_append
    rw [keys, List.nodup_append]
    refine ⟨parameterWrites_nodup v.1 v.2, ih h.2, ?_⟩
    rintro k hk _ hk' rfl
    rcases mem_parameterWrites hk with rfl | rfl
    · exact parameterEntry_notMem_writes h.1 hk'
    · exact parameterTagEntry_notMem_writes h.1 hk'

/-- The value and the tag of a parameter among what is written for several. -/
theorem valueAt?_allParameterWrites {vs : List (String × StoredValue)}
    (distinct : (vs.map Prod.fst).Nodup) {name : String} {v : StoredValue} (h : (name, v) ∈ vs) :
    valueAt? (parameterEntry name) (allParameterWrites vs) = some v.raw ∧
      valueAt? (parameterTagEntry name) (allParameterWrites vs) = v.tag?.map Document.text := by
  induction vs with
  | nil => cases h
  | cons w vs ih =>
    rw [List.map_cons, List.nodup_cons] at distinct
    have split (k : String) : valueAt? k (allParameterWrites (w :: vs)) =
        (valueAt? k (parameterWrites w.1 w.2)).or (valueAt? k (allParameterWrites vs)) :=
      valueAt?_append k _ _
    rw [split, split]
    rcases List.mem_cons.mp h with rfl | h
    · have tag : valueAt? (parameterTagEntry name) (allParameterWrites vs) = none :=
        (valueAt?_eq_none_iff ..).mpr (parameterTagEntry_notMem_writes distinct.1)
      rw [valueAt?_parameterWrites, valueAt?_parameterWrites_tag, tag, Option.or_none]
      exact ⟨rfl, rfl⟩
    · have other : name ≠ w.1 := by
        rintro rfl
        exact distinct.1 (List.mem_map.mpr ⟨_, h, rfl⟩)
      have absent (k : String) (hk : k = parameterEntry name ∨ k = parameterTagEntry name) :
          valueAt? k (parameterWrites w.1 w.2) = none := by
        refine (valueAt?_eq_none_iff ..).mpr fun hm => ?_
        rcases hk with rfl | rfl <;> rcases mem_parameterWrites hm with e | e
        · exact other (parameterEntry_injective e)
        · exact parameterEntry_ne_tagEntry _ _ e
        · exact parameterEntry_ne_tagEntry _ _ e.symm
        · exact other (parameterTagEntry_injective e)
      rw [absent _ (.inl rfl), absent _ (.inr rfl)]
      exact ih distinct.2 h

theorem get?_parameterEntry {vs : List (String × StoredValue)}
    (distinct : (vs.map Prod.fst).Nodup) {name : String} {v : StoredValue} (h : (name, v) ∈ vs)
    (c : Contents) : (c.putAll (allParameterWrites vs)).get? (parameterEntry name) = some v.raw := by
  rw [OrderedMap.get?_putAll (allParameterWrites_nodup distinct),
    (valueAt?_allParameterWrites distinct h).1]
  rfl

theorem get?_parameterTagEntry {vs : List (String × StoredValue)}
    (distinct : (vs.map Prod.fst).Nodup) {name : String} {v : StoredValue} (h : (name, v) ∈ vs)
    (c : Contents) : (c.putAll (allParameterWrites vs)).get? (parameterTagEntry name) =
      (v.tag?.map Document.text).or (c.get? (parameterTagEntry name)) := by
  rw [OrderedMap.get?_putAll (allParameterWrites_nodup distinct),
    (valueAt?_allParameterWrites distinct h).2]

/-- A parameter is found again, one without a tag where no tag of its name was left. -/
theorem parameterAt_putAll {vs : List (String × StoredValue)}
    (distinct : (vs.map Prod.fst).Nodup) {name : String} {v : StoredValue} (h : (name, v) ∈ vs)
    {c : Contents} (tagged : v.tag? ≠ none ∨ c.get? (parameterTagEntry name) = none) :
    parameterAt (c.putAll (allParameterWrites vs)) name = some v := by
  have tag : tagAt (c.putAll (allParameterWrites vs)) name =
      (v.tag?.map Document.text).getD .null := by
    rw [tagAt, get?_parameterTagEntry distinct h]
    rcases tagged with has_tag | none_left
    · cases ht : v.tag? with
      | none => exact absurd ht has_tag
      | some t => rfl
    · rw [none_left, Option.or_none]
  have found : decodeParameter v.raw (tagAt (c.putAll (allParameterWrites vs)) name) =
      .ok (some v) := by
    rw [tag]
    apply decodeParameter_raw
    · cases v.tag? <;> rfl
    · intro untagged
      rw [untagged]
      exact ⟨rfl, rfl⟩
  rw [parameterAt, get?_parameterEntry distinct h]
  change (decodeParameter v.raw _).toOption.join = some v
  rw [found]
  rfl

theorem parameterAt_congr {b c : Contents} {name : String}
    (value : b.get? (parameterEntry name) = c.get? (parameterEntry name))
    (tag : b.get? (parameterTagEntry name) = c.get? (parameterTagEntry name)) :
    parameterAt b name = parameterAt c name := by
  rw [parameterAt, parameterAt, tagAt, tagAt, value, tag]

theorem parameterAt_putAll_of_notMem {vs : List (String × StoredValue)} {name : String}
    (h : name ∉ vs.map Prod.fst) (c : Contents) :
    parameterAt (c.putAll (allParameterWrites vs)) name = parameterAt c name :=
  parameterAt_congr (OrderedMap.get?_putAll_of_notMem (parameterEntry_notMem_writes h) c)
    (OrderedMap.get?_putAll_of_notMem (parameterTagEntry_notMem_writes h) c)

theorem parameterOf_of_get? {c : Contents} {name : String} {raw : Document}
    (h : c.get? (parameterEntry name) = some raw) :
    parameterOf c (parameterEntry name, raw) = (parameterAt c name).map (name, ·) := by
  rw [parameterOf, parameterAt, h, parameterEntry, Text.afterStart?_append]
  change ((decodeParameter raw (tagAt c name)).toOption.join.bind fun v => some (name, v)) =
    (decodeParameter raw (tagAt c name)).toOption.join.map (name, ·)
  cases (decodeParameter raw (tagAt c name)).toOption.join <;> rfl

theorem parameterOf_parameterTagEntry (c : Contents) (name : String) (tag : Document) :
    parameterOf c (parameterTagEntry name, tag) = none := by
  refine Option.bind_eq_none_iff.mpr fun other hn => ?_
  exact absurd ((Text.afterStart?_eq_some_iff ..).mp hn).symm (parameterEntry_ne_tagEntry other name)

def NoCommand (c : Contents) : Prop :=
  ∀ k ∈ commandEntries, c.get? k = none

def NoParameters (c : Contents) : Prop :=
  ∀ k, isParameterKey k = true → c.get? k = none

theorem parametersOf_put {k : String} (h : isParameterKey k = false) (c : Contents)
    (v : Document) : parametersOf (c.put k v) = parametersOf c := by
  have tags (name : String) : tagAt (c.put k v) name = tagAt c name := by
    rw [tagAt, OrderedMap.get?_put_of_ne]
    · rfl
    · rintro rfl
      rw [isParameterKey_parameterTagEntry] at h
      cases h
  have same : parameterOf (c.put k v) = parameterOf c := by
    funext e
    simp only [parameterOf, tags]
  have hidden (w : Document) : parameterOf c (k, w) = none := by
    refine Option.bind_eq_none_iff.mpr fun name hn => ?_
    obtain rfl := (Text.afterStart?_eq_some_iff ..).mp hn
    have := isParameterKey_parameterEntry name
    rw [parameterEntry, h] at this
    cases this
  rw [parametersOf, same]
  exact filterMap_putEntry hidden v c.toList

theorem parametersOf_putAll {ws : List (String × Document)}
    (h : ∀ k ∈ entryKeys ws, isParameterKey k = false) (c : Contents) :
    parametersOf (c.putAll ws) = parametersOf c := by
  induction ws generalizing c with
  | nil => rfl
  | cons w ws ih =>
    have later : ∀ k ∈ entryKeys ws, isParameterKey k = false :=
      fun k hk => h k (List.mem_cons_of_mem _ hk)
    rw [OrderedMap.putAll_cons, ih later, parametersOf_put (h w.1 List.mem_cons_self)]

/-- Where nothing of older parameters is left, just the new ones are found, in order. -/
theorem parametersOf_putAll_allParameterWrites {vs : List (String × StoredValue)}
    (distinct : (vs.map Prod.fst).Nodup) {c : Contents} (h : NoParameters c) :
    parametersOf (c.putAll (allParameterWrites vs)) = vs := by
  have appended : (c.putAll (allParameterWrites vs)).toList = c.toList ++ allParameterWrites vs :=
    OrderedMap.toList_putAll (allParameterWrites_nodup distinct)
      fun k hk => h k (isParameterKey_of_mem_allParameterWrites hk)
  have old : c.toList.filterMap (parameterOf (c.putAll (allParameterWrites vs))) = [] := by
    refine List.filterMap_eq_nil_iff.mpr fun e he => ?_
    refine Option.bind_eq_none_iff.mpr fun name hn => ?_
    have key : isParameterKey e.1 = true := by
      rw [(Text.afterStart?_eq_some_iff ..).mp hn]
      exact isParameterKey_parameterEntry name
    have present : c.get? e.1 = some e.2 := (c.get?_eq_some_iff ..).mpr he
    rw [h e.1 key] at present
    cases present
  have one (v : String × StoredValue) (hv : v ∈ vs) :
      (parameterWrites v.1 v.2).filterMap (parameterOf (c.putAll (allParameterWrites vs))) = [v] := by
    have found := parameterAt_putAll distinct hv
      (.inr (h _ (isParameterKey_parameterTagEntry v.1)))
    have here := parameterOf_of_get? (get?_parameterEntry distinct hv c)
    rw [found] at here
    rw [parameterWrites, List.filterMap_cons_some here]
    cases v.2.tag? with
    | none => rfl
    | some tag =>
      exact congrArg _ (List.filterMap_cons_none (parameterOf_parameterTagEntry _ v.1 _))
  have new : (allParameterWrites vs).filterMap (parameterOf (c.putAll (allParameterWrites vs))) = vs := by
    rw [allParameterWrites, List.filterMap_flatMap, ← allParameterWrites]
    calc vs.flatMap _ = vs.flatMap fun v => [v] := congrArg List.flatten (List.map_congr_left one)
      _ = vs := List.flatMap_singleton' vs
  rw [parametersOf, appended, List.filterMap_append, old, new, List.nil_append]

/-! ## Clearing -/

def staleKeys (c : Contents) : List String :=
  commandEntries ++ c.keys.filter isParameterKey

def cleared (c : Contents) : Contents :=
  (staleKeys c).foldl OrderedMap.erase c

theorem runOn_clearCommand {c : Contents} {nonce : Option String}
    (h : textAt c commandNonce = .ok nonce) :
    runOn (clearCommand nonce) c = (.ok true, cleared c) := by
  rw [clearCommand, runOn_bind_ok (runOn_text_ok h), if_pos (beq_self_eq_true _),
    runOn_bind_ok (runOn_keys c), runOn_bind_ok (runOn_removeAll ..)]
  rfl

theorem get?_cleared (c : Contents) (k : String) :
    (cleared c).get? k =
      if k ∈ commandEntries ∨ isParameterKey k = true then none else c.get? k := by
  rw [cleared, OrderedMap.get?_eraseAll]
  by_cases hk : k ∈ c.keys
  · simp only [staleKeys, List.mem_append, List.mem_filter, hk, true_and]
  · have absent : c.get? k = none := (c.get?_eq_none_iff k).mpr hk
    rw [absent, ite_self, ite_self]

end ShortcutRelay.Protocol
