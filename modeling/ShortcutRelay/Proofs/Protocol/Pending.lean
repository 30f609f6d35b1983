import ShortcutRelay.Proofs.Protocol.Passage

/-!
# Commands that wait in the store

* `Pending c command` : what a look for a command finds in the contents;
* `runOn_collectCommand_pending` : it is collected and gone; `runOn_collectCommand_cases` : nothing else
  is;
* `pending_erase` : it stays while other keys are removed;
* `Complete c command` : it stands there with all its pieces, `complete_written` : so does what was
  just written.
-/

namespace ShortcutRelay.Protocol

/-- The command is what a look finds in the contents. -/
def Pending (c : Contents) (command : Command) : Prop :=
  runOn readCommand c = (.ok (some command), c)

variable {c d : Contents} {command : Command}

theorem Pending.unique (h : Pending c command) {other : Command} (h' : Pending c other) :
    command = other := by
  rw [Pending, h] at h'
  cases h'
  rfl

/-- The last three reads of a command give what they give, and change nothing. -/
theorem runOn_readCommand_found {identifier nonce : String}
    (hi : textAt c commandIdentifier = .ok (some identifier))
    (hn : textAt c commandNonce = .ok (some nonce)) :
    runOn readCommand c =
      (match doubleAt c commandTimestamp, decodeParameters c c.toList with
        | .ok timestamp, .ok parameters => .ok (some {
            identifier, nonce, timestamp, parameters, userConfirmed := confirmationAt c })
        | .ok _, .error e => .error (.number e)
        | .error e, _ => .error (.number e), c) := by
  rw [readCommand, runOn_bind_ok (runOn_text_ok hi), runOn_bind_ok (runOn_text_ok hn)]
  simp only
  rw [runOn_bind_ok (runOn_get ..), runOn_bind, runOn_double]
  cases doubleAt c commandTimestamp with
  | error e => rfl
  | ok timestamp =>
    have parameters : runOn storedParameters c = ((decodeParameters c c.toList).mapError .number, c) := by
      rw [storedParameters, runOn_bind_ok (runOn_snapshot c), runOn_ofNumber]
    change runOn (storedParameters >>= _) c = _
    rw [runOn_bind, parameters]
    cases decodeParameters c c.toList <;> rfl

/-- The first two reads of a command: its identifier and its nonce are found, or one of them cannot be
read, or one is missing. -/
theorem runOn_readCommand_texts (c : Contents) :
    (∃ identifier nonce, textAt c commandIdentifier = .ok (some identifier) ∧
      textAt c commandNonce = .ok (some nonce)) ∨
    (runOn readCommand c = (.error (.number .tooManyDigits), c) ∧
      (textAt c commandIdentifier = .error .tooManyDigits ∨
        textAt c commandNonce = .error .tooManyDigits)) ∨
    runOn readCommand c = (.ok none, c) ∧ ∃ identifier nonce, textAt c commandIdentifier = .ok identifier ∧
      textAt c commandNonce = .ok nonce ∧ (identifier = none ∨ nonce = none) := by
  cases hi : textAt c commandIdentifier with
  | error e =>
    obtain rfl := textAt_error hi
    exact .inr (.inl ⟨runOn_readCommand_error (.inl hi), .inl rfl⟩)
  | ok identifier =>
    cases hn : textAt c commandNonce with
    | error e =>
      obtain rfl := textAt_error hn
      exact .inr (.inl ⟨runOn_readCommand_error (.inr ⟨hn, identifier, hi⟩), .inr rfl⟩)
    | ok nonce =>
      have missing := runOn_readCommand_none hi hn
      match identifier, nonce with
      | none, _ => exact .inr (.inr ⟨missing (.inl rfl), _, _, rfl, rfl, .inl rfl⟩)
      | some _, none => exact .inr (.inr ⟨missing (.inr rfl), _, _, rfl, rfl, .inr rfl⟩)
      | some identifier, some nonce => exact .inl ⟨identifier, nonce, rfl, rfl⟩

theorem Pending.texts (h : Pending c command) :
    textAt c commandIdentifier = .ok (some command.identifier) ∧
      textAt c commandNonce = .ok (some command.nonce) := by
  rcases runOn_readCommand_texts c with ⟨identifier, nonce, hi, hn⟩ | ⟨failed, -⟩ | ⟨nothing, -⟩
  · have found := runOn_readCommand_found hi hn
    rw [h] at found
    generalize doubleAt c commandTimestamp = timestamp at found
    generalize decodeParameters c c.toList = parameters at found
    rcases timestamp with e | timestamp
    · cases found
    · rcases parameters with e | parameters
      · cases found
      · cases found
        exact ⟨hi, hn⟩
  · rw [h] at failed
    cases failed
  · rw [h] at nothing
    cases nothing

/-- A look for a command changes nothing, whether it finds one, none, or one that is not readable. -/
theorem runOn_readCommand_cases (c : Contents) : runOn readCommand c = (.ok none, c) ∨
    (∃ e, runOn readCommand c = (.error e, c)) ∨ ∃ command, Pending c command := by
  rcases runOn_readCommand_texts c with ⟨identifier, nonce, hi, hn⟩ | ⟨failed, -⟩ | ⟨nothing, -⟩
  · have found := runOn_readCommand_found hi hn
    generalize doubleAt c commandTimestamp = timestamp at found
    generalize decodeParameters c c.toList = parameters at found
    rcases timestamp with e | timestamp
    · exact .inr (.inl ⟨_, found⟩)
    · rcases parameters with e | parameters
      · exact .inr (.inl ⟨_, found⟩)
      · exact .inr (.inr ⟨_, found⟩)
  · exact .inr (.inl ⟨_, failed⟩)
  · exact .inl nothing

/-- A command that is pending is collected and gone. -/
theorem runOn_collectCommand_pending (h : Pending c command) :
    runOn collectCommand c = (.ok (some (command, true)), cleared c) := by
  unfold collectCommand
  rw [runOn_bind_ok h]
  exact runOn_bind_ok (runOn_clearCommand h.texts.2) _

/-- Without a command that is pending nothing is collected, and nothing changes. -/
theorem runOn_collectCommand_cases (c : Contents) : runOn collectCommand c = (.ok none, c) ∨
    (∃ e, runOn collectCommand c = (.error e, c)) ∨
    ∃ command, Pending c command ∧ runOn collectCommand c = (.ok (some (command, true)), cleared c) := by
  rcases runOn_readCommand_cases c with nothing | ⟨e, failed⟩ | ⟨command, pending⟩
  · exact .inl (runOn_bind_ok nothing _)
  · refine .inr (.inl ⟨e, ?_⟩)
    rw [collectCommand, runOn_bind, failed]
  · exact .inr (.inr ⟨command, pending, runOn_collectCommand_pending pending⟩)

theorem noCommand_cleared (c : Contents) : NoCommand (cleared c) := by
  intro k hk
  rw [get?_cleared, if_pos (.inl hk)]

theorem noParameters_cleared (c : Contents) : NoParameters (cleared c) := by
  intro k hk
  rw [get?_cleared, if_pos (.inr hk)]

/-! ## Other keys -/

/-- What is read of a command depends on its own entries and on the parameters. -/
theorem pending_congr (h : Pending c command)
    (entries : ∀ k ∈ commandEntries, d.get? k = c.get? k)
    (parameters : decodeParameters d d.toList = decodeParameters c c.toList) : Pending d command := by
  have identifier : textAt d commandIdentifier = textAt c commandIdentifier :=
    textAt_congr (entries _ (by decide))
  have nonce : textAt d commandNonce = textAt c commandNonce := textAt_congr (entries _ (by decide))
  have timestamp : doubleAt d commandTimestamp = doubleAt c commandTimestamp := by
    rw [doubleAt, doubleAt, entries _ (by decide)]
  have confirmation : confirmationAt d = confirmationAt c := by
    rw [confirmationAt, confirmationAt, entries _ (by decide)]
  obtain ⟨hi, hn⟩ := h.texts
  have found := runOn_readCommand_found hi hn
  rw [h] at found
  have read := runOn_readCommand_found (identifier.trans hi) (nonce.trans hn)
  rw [timestamp, confirmation, parameters] at read
  exact read.trans (congrArg (·, d) (congrArg Prod.fst found.symm))

theorem decodeParameters_eraseEntry {k : String} (h : isParameterKey k = false) (c : Contents)
    (es : List (String × Document)) :
    decodeParameters (c.erase k) (eraseEntry k es) = decodeParameters c es := by
  have tags (name : String) : (c.erase k).get? (parameterTagEntry name) = c.get? (parameterTagEntry name) := by
    have other : parameterTagEntry name ≠ k := by
      rintro rfl
      rw [isParameterKey_parameterTagEntry] at h
      cases h
    rw [OrderedMap.get?_erase, if_neg other]
  induction es with
  | nil => rfl
  | cons e es ih =>
    obtain ⟨key, raw⟩ := e
    by_cases hk : key = k
    · have hidden : Text.afterStart? parameterStart key = none := by
        refine Option.eq_none_iff_forall_ne_some.mpr fun name found => ?_
        have parameter := isParameterKey_parameterEntry name
        have entry : key = parameterEntry name := (Text.afterStart?_eq_some_iff ..).mp found
        rw [← entry, hk, h] at parameter
        cases parameter
      have gone : eraseEntry k ((key, raw) :: es) = eraseEntry k es :=
        List.filter_cons_of_neg (by simp [hk])
      rw [gone, ih, decodeParameters, hidden]
    · have kept : eraseEntry k ((key, raw) :: es) = (key, raw) :: eraseEntry k es :=
        List.filter_cons_of_pos (by simp [hk])
      rw [kept, decodeParameters, decodeParameters, ih]
      cases Text.afterStart? parameterStart key with
      | none => rfl
      | some name => simp only [tags]

/-- A command stays pending while other keys are removed. -/
theorem pending_erase (h : Pending c command) {k : String} (entry : k ∉ commandEntries)
    (parameter : isParameterKey k = false) : Pending (c.erase k) command := by
  refine pending_congr h (fun other member => ?_) ?_
  · have different : other ≠ k := by
      rintro rfl
      exact entry member
    rw [OrderedMap.get?_erase, if_neg different]
  · rw [OrderedMap.toList_erase, decodeParameters_eraseEntry parameter]

/-! ## Commands that were written -/

/-- A command stands in the contents, with all its pieces. -/
structure Complete (c : Contents) (command : Command) : Prop where
  identifier : textAt c commandIdentifier = .ok (some command.identifier)
  nonce : textAt c commandNonce = .ok (some command.nonce)
  timestamp : c.get? commandTimestamp = some (.float command.timestamp)
  parameters : parametersOf c = command.parameters
  confirmation : confirmationAt c = command.userConfirmed
  readable : Decodes c

theorem complete_written {d : Draft} {vs : List (String × StoredValue)} {c : Contents}
    (readable : Decodes c) (encodable : encodeAll d.parameters = .ok vs) :
    ∃ command, Complete (d.written vs c) command ∧ command.identifier = d.identifier ∧
      command.nonce = d.nonce ∧ command.timestamp = d.time := by
  have decodes := runOn_keeps decodes_effect (asks_fits_write d) readable
  rw [runOn_write encodable c] at decodes
  refine ⟨⟨d.identifier, d.nonce, d.time, parametersOf (d.written vs c),
    confirmationAt (d.written vs c)⟩, ?_, rfl, rfl, rfl⟩
  exact ⟨textAt_written_identifier d vs c, textAt_written_nonce d vs c, get?_commandTimestamp d _,
    rfl, rfl, decodes⟩

end ShortcutRelay.Protocol
