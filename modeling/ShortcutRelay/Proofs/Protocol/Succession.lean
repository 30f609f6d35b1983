import ShortcutRelay.Proofs.Protocol.Command
import ShortcutRelay.Proofs.Store.Requests
import ShortcutRelay.Protocol.Command

/-!
# Commands after other commands

A command that nobody consumed stays in the store under the next one. What is read of the next one
is then its own identifier, nonce and parameters, with what is left of the older ones.

* `Episode` : what an intent or the application did to the store before;
* `decodes_after` : what was ever written can be read;
* `ReadsAs` : what a command that is read owes to the intent that wrote it and what to older ones;
* `newest_command_readsAs` : it holds after any earlier episodes.
-/

namespace ShortcutRelay.Protocol

/-! ## What intents do -/

/-- Looks for the reply to a command, again and again until it is there. -/
def lookFor (nonce : String) : Nat → StoreM (Option String)
  | 0 => return none
  | looks + 1 => do
    match ← takeReply nonce with
    | some message => return some message
    | none => lookFor nonce looks

def Draft.perform (d : Draft) (looks : Nat) : StoreM (Option String) := do
  d.write
  lookFor d.nonce looks

/-! ## Which requests that takes -/

/-- Whether a request writes no number that does not fit a double. -/
def Fits : StoreRequest → Prop
  | .put _ v => v.fitsDouble = true
  | _ => True

variable {P : StoreRequest → Prop}

theorem asks_storeValue {name : String} {v : StoredValue}
    (put : ∀ key w, isParameterKey key = true → w.fitsDouble = true → P (.put key w))
    (remove : ∀ key, P (.remove key)) : Asks P (storeValue name v) := by
  refine asks_bind (asks_set (remove _) ?_) fun _ => ?_
  · exact put _ _ (isParameterKey_parameterEntry name) v.raw_fitsDouble
  · cases v.tag? with
    | none => trivial
    | some tag =>
      exact asks_set (remove _) (put _ _ (isParameterKey_parameterTagEntry name) rfl)

theorem asks_storeParameters (ps : List (String × ValueType × Document))
    (put : ∀ key w, isParameterKey key = true → w.fitsDouble = true → P (.put key w))
    (remove : ∀ key, P (.remove key)) : Asks P (storeParameters ps) := by
  induction ps with
  | nil => trivial
  | cons p ps ih =>
    refine asks_bind ?_ fun _ => ih
    rw [storeParameter_eq]
    exact asks_bind (asks_ofExcept _) fun _ => asks_storeValue put remove

theorem asks_takeReply (nonce : String) (text : P (.text (replyEntry nonce)))
    (remove : P (.remove (replyEntry nonce))) : Asks P (takeReply nonce) := by
  refine asks_bind (asks_text text) fun found => ?_
  cases found with
  | none => trivial
  | some message => exact asks_bind (asks_perform remove) fun _ => asks_pure _

theorem asks_lookFor (nonce : String) (looks : Nat) (text : P (.text (replyEntry nonce)))
    (remove : P (.remove (replyEntry nonce))) : Asks P (lookFor nonce looks) := by
  induction looks with
  | zero => trivial
  | succ looks ih =>
    refine asks_bind (asks_takeReply nonce text remove) fun found => ?_
    cases found with
    | none => exact ih
    | some message => trivial

theorem asks_fits_write (d : Draft) : Asks Fits d.write := by
  refine asks_bind ?_ fun _ => ?_
  · exact asks_storeParameters d.parameters (fun _ _ _ h => h) fun _ => trivial
  · refine asks_bind (asks_set trivial rfl) fun _ => asks_bind (asks_set trivial rfl) fun _ => ?_
    refine asks_bind (asks_set trivial rfl) fun _ => ?_
    cases d.confirmed with
    | none => trivial
    | some b => exact asks_set trivial rfl

theorem asks_fits_perform (d : Draft) (looks : Nat) : Asks Fits (d.perform looks) :=
  asks_bind (asks_fits_write d) fun _ => asks_lookFor _ _ trivial trivial

theorem asks_fits_clearCommand (nonce : Option String) : Asks Fits (clearCommand nonce) := by
  refine asks_bind (asks_text trivial) fun found => ?_
  split
  · exact asks_bind (asks_perform trivial) fun _ => asks_bind (asks_perform trivial) fun _ => asks_pure _
  · exact asks_pure _

theorem decodes_effect (r : StoreRequest) (c : Contents) (fits : Fits r) (h : Decodes c) :
    Decodes (r.effect c).2 := by
  intro name raw found
  cases r with
  | put key v =>
    change (c.put key v).get? _ = _ at found
    rw [OrderedMap.get?_put] at found
    split at found
    · cases found
      exact fits
    · exact h name raw found
  | remove key =>
    change (c.erase key).get? _ = _ at found
    rw [OrderedMap.get?_erase] at found
    split at found
    · cases found
    · exact h name raw found
  | removeAll keys =>
    change (keys.foldl OrderedMap.erase c).get? _ = _ at found
    rw [OrderedMap.get?_eraseAll] at found
    split at found
    · cases found
    · exact h name raw found
  | _ => exact h name raw found

/-! ## Earlier episodes -/

/-- What happened to the store before: an intent wrote a command and looked for its reply, or the
application cleared a command. Either may have been cut off after some requests. -/
inductive Episode
  | performed (d : Draft) (looks requests : Nat)
  | cleared (nonce : Option String) (requests : Nat)

def Episode.after : Episode → Contents → Contents
  | performed d looks requests, c => cutOff requests (d.perform looks).run c
  | cleared nonce requests, c => cutOff requests (clearCommand nonce).run c

def after (episodes : List Episode) (c : Contents) : Contents :=
  episodes.foldl (fun c e => e.after c) c

theorem decodes_after (episodes : List Episode) {c : Contents} (h : Decodes c) :
    Decodes (after episodes c) := by
  induction episodes generalizing c with
  | nil => exact h
  | cons e es ih =>
    apply ih
    cases e with
    | performed d looks requests =>
      exact cutOff_keeps decodes_effect (asks_fits_perform d looks) requests h
    | cleared nonce requests =>
      exact cutOff_keeps decodes_effect (asks_fits_clearCommand nonce) requests h

/-! ## The newest command -/

/-- What a command that is read owes to the intent that wrote it, whose parameters were encoded as
`vs`, and what to the contents before. -/
structure ReadsAs (d : Draft) (vs : List (String × StoredValue)) (before : Contents)
    (command : Command) : Prop where
  identifier : command.identifier = d.identifier
  nonce : command.nonce = d.nonce
  given : ∀ b, d.confirmed = some b → command.userConfirmed = some b
  notGiven : d.confirmed = none → confirmationAt before = none → command.userConfirmed = none
  own : ∀ name v, (name, v) ∈ vs →
    v.tag? ≠ none ∨ before.get? (parameterTagEntry name) = none → (name, v) ∈ command.parameters
  others : ∀ name v, name ∉ d.parameters.map Prod.fst →
    ((name, v) ∈ command.parameters ↔ parameterAt before name = some v)
  once : (command.parameters.map Prod.fst).Nodup
  alone : NoParameters before → command.parameters = vs

theorem confirmationAt_commandWrites (c : Contents) (d : Draft) :
    confirmationAt (c.putAll (commandWrites d)) = d.confirmed.or (confirmationAt c) := by
  rw [confirmationAt, get?_userConfirmed]
  cases d.confirmed <;> rfl

/-- What is read right after a command was written. -/
theorem runOn_readCommand_written {d : Draft} {vs : List (String × StoredValue)} {before : Contents}
    (h : Decodes before) (encodable : encodeAll d.parameters = .ok vs) :
    runOn readCommand (d.written vs before) =
      (.ok (some {
        identifier := d.identifier
        nonce := d.nonce
        timestamp := d.time
        parameters := parametersOf (before.putAll (allParameterWrites vs))
        userConfirmed := d.confirmed.or (confirmationAt before) }), d.written vs before) := by
  have readable := runOn_keeps decodes_effect (asks_fits_write d) h
  rw [runOn_write encodable before] at readable
  have read := runOn_readCommand (c := d.written vs before)
    (textAt_written_identifier d vs before) (textAt_written_nonce d vs before)
    (get?_commandTimestamp d _) readable
  have parameters : parametersOf ((before.putAll (allParameterWrites vs)).putAll (commandWrites d)) =
      parametersOf (before.putAll (allParameterWrites vs)) :=
    parametersOf_putAll (fun k hk => not_isParameterKey_of_mem_commandWrites hk) _
  have confirmation : confirmationAt (before.putAll (allParameterWrites vs)) = confirmationAt before := by
    rw [confirmationAt, get?_putAll_allParameterWrites vs before (by decide)]
    rfl
  rw [Draft.written, parameters, confirmationAt_commandWrites, confirmation] at read
  exact read

theorem newest_command_readsAs {c : Contents} (h : Decodes c) (episodes : List Episode)
    {d : Draft} {vs : List (String × StoredValue)}
    (distinct : (d.parameters.map Prod.fst).Nodup) (encodable : encodeAll d.parameters = .ok vs) :
    ∃ command,
      (runOn (do d.write; readCommand) (after episodes c)).1 = .ok (some command) ∧
        ReadsAs d vs (after episodes c) command := by
  generalize hb : after episodes c = before
  have decodes : Decodes before := hb ▸ decodes_after episodes h
  have names := names_of_encodeAll encodable
  have distinct' : (vs.map Prod.fst).Nodup := names ▸ distinct
  have wrote := runOn_write encodable before
  have read := runOn_readCommand_written decodes encodable
  refine ⟨_, congrArg Prod.fst ((runOn_bind_ok wrote fun _ => readCommand).trans read), ?_⟩
  refine ⟨rfl, rfl, ?_, ?_, ?_, ?_, names_parametersOf_nodup _, ?_⟩
  · rintro b hd
    rw [hd]
    rfl
  · intro hd none_left
    rw [hd, none_left]
    rfl
  · intro name v hv tagged
    exact (mem_parametersOf ..).mpr (parameterAt_putAll distinct' hv tagged)
  · intro name v hn
    rw [← names] at hn
    rw [mem_parametersOf, parameterAt_putAll_of_notMem hn]
  · exact fun empty => parametersOf_putAll_allParameterWrites distinct' empty

def unconsumed : Draft where
  identifier := "addTask"
  nonce := "N1"
  parameters := [("title", .text, .text "Buy milk")]

def successor : Draft where
  identifier := "startTimer"
  nonce := "N2"

theorem newest_command_readsAs_successor :
    Decodes {} ∧ (successor.parameters.map Prod.fst).Nodup ∧ encodeAll successor.parameters = .ok [] ∧
      ∃ command,
        (runOn (do successor.write; readCommand) (after [.performed unconsumed 1 9] {})).1 =
          .ok (some command) ∧
          ReadsAs successor [] (after [.performed unconsumed 1 9] {}) command :=
  have empty : Decodes {} := fun _ _ h => by cases h
  ⟨empty, List.nodup_nil, rfl, newest_command_readsAs empty _ List.nodup_nil rfl⟩

/-- Commands are not read apart from each other: the parameter of one that nobody consumed shows up
in the next one. -/
theorem successor_reads_unconsumed_parameter :
    ¬ ∀ (episodes : List Episode) (d : Draft) (vs : List (String × StoredValue)),
      (d.parameters.map Prod.fst).Nodup → encodeAll d.parameters = .ok vs →
      ∃ command,
        (runOn (do d.write; readCommand) (after episodes {})).1 = .ok (some command) ∧
          command.identifier = d.identifier ∧ command.nonce = d.nonce ∧
          command.parameters.Perm vs ∧ command.userConfirmed = d.confirmed := by
  intro claim
  obtain ⟨command, read, -, -, parameters, -⟩ :=
    claim [.performed unconsumed 1 9] successor [] List.nodup_nil rfl
  have shown : (runOn (do successor.write; readCommand) (after [.performed unconsumed 1 9] {})).1 =
      .ok (some { identifier := "startTimer", nonce := "N2", timestamp := 0.0,
                  parameters := [("title", .text "Buy milk")] }) := by
    rfl
  rw [shown] at read
  cases read
  exact absurd parameters.length_eq (by decide)

end ShortcutRelay.Protocol
