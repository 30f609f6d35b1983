import ShortcutRelay.Intent.State
import ShortcutRelay.Protocol.Command
import ShortcutRelay.Proofs.Protocol.Alike
import ShortcutRelay.Proofs.Store.Confined

/-!
# Families of entries

The application's state, commands and replies share one store and keep to entries of their own, whatever
the names of the values, of the parameters and the nonces are.

* `Family.Owns` : the entries of a family, `Family.owns_unique` : no entry belongs to two;
* `confined_storeParameter`, `confined_clearCommand`, `confined_takeReply` and companions : every
  operation keeps to the entries of its family.
-/

namespace ShortcutRelay
open Protocol Keeper

/-- The families of entries: the application's state, commands with their parameters, and replies. -/
inductive Family
  | state
  | command
  | reply
  deriving DecidableEq

/-- The entries of a family. -/
def Family.Owns : Family → String → Prop
  | state, key => ∃ name, key = stateEntry name
  | command, key => key ∈ commandEntries ∨ isParameterKey key = true
  | reply, key => ∃ nonce, key = replyEntry nonce

namespace Family

variable {f g : Family} {key : String}

theorem owns_stateEntry (name : String) : state.Owns (stateEntry name) :=
  ⟨name, rfl⟩

theorem owns_replyEntry (nonce : String) : reply.Owns (replyEntry nonce) :=
  ⟨nonce, rfl⟩

theorem not_command_of_state (h : state.Owns key) : ¬ command.Owns key := by
  obtain ⟨name, rfl⟩ := h
  rintro (entry | parameter)
  · exact stateEntry_notMem name entry
  · rw [isParameterKey_stateEntry] at parameter
    cases parameter

theorem not_command_of_reply (h : reply.Owns key) : ¬ command.Owns key := by
  obtain ⟨nonce, rfl⟩ := h
  rintro (entry | parameter)
  · exact replyEntry_notMem nonce entry
  · rw [isParameterKey_replyEntry] at parameter
    cases parameter

theorem not_reply_of_state (h : state.Owns key) : ¬ reply.Owns key := by
  obtain ⟨name, rfl⟩ := h
  rintro ⟨nonce, same⟩
  exact stateEntry_ne_replyEntry name nonce same

/-- No entry belongs to two families. -/
theorem owns_unique (h : f.Owns key) (h' : g.Owns key) : f = g := by
  cases f <;> cases g
  case state.state | command.command | reply.reply => rfl
  case state.command => exact absurd h' (not_command_of_state h)
  case command.state => exact absurd h (not_command_of_state h')
  case reply.command => exact absurd h' (not_command_of_reply h)
  case command.reply => exact absurd h (not_command_of_reply h')
  case state.reply => exact absurd h' (not_reply_of_state h)
  case reply.state => exact absurd h (not_reply_of_state h')

end Family

variable {σ : Type} [Backend σ] {K : Keeper σ}

section Operations

variable (healthy : K.Healthy)
include healthy

/-! ## Commands -/

theorem confined_storeParameter (takes : K.TakesScalars) (name : String) (type : ValueType)
    (value : Document) : K.Confined Family.command.Owns Eq (storeParameter name type value)
      (storeParameter name type value) := by
  have entry : Family.command.Owns (parameterEntry name) := .inr (isParameterKey_parameterEntry name)
  have tagged : Family.command.Owns (parameterTagEntry name) :=
    .inr (isParameterKey_parameterTagEntry name)
  rw [storeParameter_eq]
  refine (confined_ofExcept (Matching.of_eq Eq.refl rfl)).bind ?_
  rintro v _ rfl
  refine (confined_set healthy takes entry v.raw).bind fun _ _ _ => ?_
  cases v.tag? with
  | none => exact confined_pure rfl
  | some tag => exact confined_set healthy takes tagged (.text tag)

theorem confined_postCommand (takes : K.TakesScalars) (identifier nonce : String)
    (confirmed : Option Bool) (timestamp : Document) : K.Confined Family.command.Owns Eq
      (postCommand identifier nonce confirmed timestamp)
      (postCommand identifier nonce confirmed timestamp) := by
  have set {key : String} (entry : key ∈ commandEntries) (v : Document) :=
    confined_set healthy takes (P := Family.command.Owns) (.inl entry) v
  refine (set (by decide) _).bind fun _ _ _ => ?_
  refine (set (by decide) _).bind fun _ _ _ => ?_
  refine (set (by decide) _).bind fun _ _ _ => ?_
  cases confirmed with
  | none => exact confined_pure rfl
  | some b => exact set (by decide) _

theorem confined_clearCommand (nonce : Option String) :
    K.Confined Family.command.Owns Eq (clearCommand nonce) (clearCommand nonce) := by
  refine (confined_text healthy (.inl (by decide))).bind ?_
  rintro found _ rfl
  split
  · refine (confined_keys healthy).bind fun ks ls same => ?_
    have owned (ks : List String) :
        ∀ k ∈ commandEntries ++ ks.filter isParameterKey, Family.command.Owns k := by
      intro k mem
      rcases List.mem_append.mp mem with entry | parameter
      · exact .inl entry
      · exact .inr (List.mem_filter.mp parameter).2
    refine (confined_removeAll healthy (owned ks) (owned ls) fun k own => ?_).bind fun _ _ _ =>
      confined_pure rfl
    rw [List.mem_append, List.mem_append, List.mem_filter, List.mem_filter, same k own]
  · exact confined_pure rfl

/-- A look for a command keeps to the entries of commands. -/
theorem confined_readCommand : K.Confined Family.command.Owns
    (Option.Rel (Command.AlikeBy K.like)) readCommand readCommand := by
  refine (confined_text healthy (.inl (by decide))).bind ?_
  rintro identifier _ rfl
  refine (confined_text healthy (.inl (by decide))).bind ?_
  rintro nonce _ rfl
  cases identifier with
  | none => exact confined_pure .none
  | some identifier =>
    cases nonce with
    | none => exact confined_pure .none
    | some nonce =>
      refine (confined_get healthy (.inl (by decide))).bind fun confirmed confirmed' likeConfirmed => ?_
      refine (confined_double healthy (.inl (by decide))).bind fun time time' likeTime => ?_
      have parameters : K.Confined Family.command.Owns _ storedParameters storedParameters :=
        (confined_snapshot healthy).bind fun c d near =>
          confined_ofNumber (K.tolerance.decodeParameters (fun _ => .inr) near)
      refine parameters.bind fun ps qs likeParameters => confined_pure (.some ?_)
      refine ⟨rfl, rfl, likeTime, likeParameters, ?_⟩
      unfold decodeConfirmation
      simp only
      rw [K.tolerance.isNumeric_eq likeConfirmed, K.tolerance.truthy_eq likeConfirmed]

/-! ## Replies -/

theorem confined_postReply (takes : K.TakesScalars) (nonce : String) (message : Option String) :
    K.Confined Family.reply.Owns Eq (postReply nonce message) (postReply nonce message) :=
  confined_set healthy takes (Family.owns_replyEntry nonce) _

theorem confined_takeReply (nonce : String) :
    K.Confined Family.reply.Owns Eq (takeReply nonce) (takeReply nonce) := by
  refine (confined_text healthy (Family.owns_replyEntry nonce)).bind ?_
  rintro found _ rfl
  cases found with
  | none => exact confined_pure rfl
  | some message =>
    exact (confined_remove healthy (Family.owns_replyEntry nonce)).bind fun _ _ _ => confined_pure rfl

/-! ## State -/

/-- A condition on a value of the state keeps to the entries of the state. -/
theorem confined_stateMatches (name : String) (expected : Document) :
    K.Confined Family.state.Owns Eq (Intent.stateMatches name expected)
      (Intent.stateMatches name expected) := by
  have owned := Family.owns_stateEntry name
  have text {f : Option String → Bool} : K.Confined Family.state.Owns Eq
      (do return f (← Store.text (stateEntry name))) (do return f (← Store.text (stateEntry name))) := by
    refine (confined_text healthy owned).bind ?_
    rintro found _ rfl
    exact confined_pure rfl
  have number : K.Confined Family.state.Owns Eq
      (do
        let stored ← Store.double (stateEntry name)
        return stored == (← Store.ofNumber expected.toFloat))
      (do
        let stored ← Store.double (stateEntry name)
        return stored == (← Store.ofNumber expected.toFloat)) := by
    refine (confined_double healthy owned).bind fun x y like => ?_
    refine (confined_ofNumber (Matching.of_eq Eq.refl rfl)).bind ?_
    rintro z _ rfl
    refine confined_pure ?_
    cases K.tolerance.alike like with
    | same => rfl
    | zeros hx hy => exact Decimal.beq_of_zeros hx hy z
  unfold Intent.stateMatches
  cases expected with
  | text s => exact text (f := (· == some s))
  | bool _ | int _ | float _ => exact number
  | _ => exact text (f := Option.isSome)

end Operations

end ShortcutRelay
