import ShortcutRelay.Proofs.Protocol.Command
import ShortcutRelay.Proofs.Store.Requests

/-!
# Store programs among others

Intents run in processes of their own: between any two requests of the application to the store,
any of them may have made any number of requests, and a request of the application may fail.

* `Traffic` : the contents of a store with the intents that use it, `Traffic.advance` : one of them
  makes its next request;
* `Leads t u` : the intents alone lead from `t` to `u`;
* `Served p t a u` : a program that begins in `t` can end with `a` in `u`;
* `served_bind`, `served_perform` and companions take such a run apart;
* `Collected` : what collecting a command can lead to, `collected_of_served`.
-/

namespace ShortcutRelay
open Protocol

/-- An intent as the requests that it still makes. -/
abbrev Process := Program storeInterface (Except Failure (Option String))

/-- The contents of a store and the intents that use it. -/
structure Traffic where
  contents : Contents
  others : List Process := []

/-- One of the intents makes its next request. -/
def Traffic.advance (t : Traffic) (i : Nat) : Traffic :=
  match t.others[i]? with
  | some (.ask r next) => {
      contents := (StoreRequest.effect r t.contents).2
      others := t.others.set i (next (.ok (StoreRequest.effect r t.contents).1)) }
  | _ => t

/-- The intents alone lead from one traffic to another. -/
def Leads (t u : Traffic) : Prop :=
  ∃ order : List Nat, order.foldl Traffic.advance t = u

theorem leads_refl (t : Traffic) : Leads t t := ⟨[], rfl⟩

theorem leads_trans {t u v : Traffic} (h : Leads t u) (h' : Leads u v) : Leads t v := by
  obtain ⟨first, rfl⟩ := h
  obtain ⟨second, rfl⟩ := h'
  exact ⟨first ++ second, List.foldl_append⟩

theorem leads_keeps {Q : Traffic → Prop} (step : ∀ t i, Q t → Q (t.advance i)) {t u : Traffic}
    (h : Leads t u) (ht : Q t) : Q u := by
  obtain ⟨order, rfl⟩ := h
  induction order generalizing t with
  | nil => exact ht
  | cons i order ih => exact ih (step t i ht)

theorem leads_alone {t u : Traffic} (alone : t.others = []) (h : Leads t u) : u = t := by
  refine leads_keeps (Q := fun u => u = t) (fun u i hu => ?_) h rfl
  subst hu
  rw [Traffic.advance, alone]
  rfl

/-! ## Runs among others -/

/-- The program can end with a result after others had their turns before each of its requests. A
request either has its effect or fails without one. -/
inductive Served {α : Type} : Program storeInterface α → Traffic → α → Traffic → Prop
  | done (a : α) (t : Traffic) : Served (.done a) t a t
  | answered {r : StoreRequest} {next : Except Failure r.Result → Program storeInterface α}
      {t u v : Traffic} {a : α} (before : Leads t u)
      (after : Served (next (.ok (r.effect u.contents).1))
        { u with contents := (r.effect u.contents).2 } a v) :
      Served (.ask (I := storeInterface) r next) t a v
  | failed {r : StoreRequest} {next : Except Failure r.Result → Program storeInterface α}
      {t u v : Traffic} {a : α} (f : StoreFailure) (before : Leads t u)
      (after : Served (next (.error (.store f))) u a v) :
      Served (.ask (I := storeInterface) r next) t a v

variable {α β : Type} {t v : Traffic}

theorem served_pure {a : α} {result : Except Failure α}
    (h : Served (pure a : StoreM α).run t result v) : result = .ok a ∧ v = t := by
  cases h
  exact ⟨rfl, rfl⟩

theorem served_perform {r : StoreRequest} {result : Except Failure r.Result}
    (h : Served (Store.perform r).run t result v) :
    (∃ u, Leads t u ∧ result = .ok (r.effect u.contents).1 ∧
      v = { u with contents := (r.effect u.contents).2 }) ∨
    ∃ f, result = .error (.store f) ∧ Leads t v := by
  cases h with
  | answered before after =>
    cases after
    exact .inl ⟨_, before, rfl, rfl⟩
  | failed f before after =>
    cases after
    exact .inr ⟨f, rfl, before⟩

theorem served_program_bind {p : Program storeInterface α} {f : α → Program storeInterface β}
    {b : β} (h : Served (p >>= f) t b v) : ∃ a u, Served p t a u ∧ Served (f a) u b v := by
  induction p generalizing t with
  | done a => exact ⟨a, t, .done a t, h⟩
  | ask r next ih =>
    cases h with
    | answered before after =>
      obtain ⟨a, u, first, second⟩ := ih _ after
      exact ⟨a, u, .answered before first, second⟩
    | failed f before after =>
      obtain ⟨a, u, first, second⟩ := ih _ after
      exact ⟨a, u, .failed f before first, second⟩

theorem served_bind {p : StoreM α} {f : α → StoreM β} {result : Except Failure β}
    (h : Served (p >>= f).run t result v) :
    (∃ a u, Served p.run t (.ok a) u ∧ Served (f a).run u result v) ∨
      ∃ e, result = .error e ∧ Served p.run t (.error e) v := by
  obtain ⟨r, u, first, second⟩ := served_program_bind h
  cases r with
  | ok a => exact .inl ⟨a, u, first, second⟩
  | error e =>
    cases second
    exact .inr ⟨e, rfl, first⟩

/-- A request that changes nothing. -/
def Reads (r : StoreRequest) : Prop :=
  ∀ c, (r.effect c).2 = c

/-- A program that only reads leaves everything to the others. -/
theorem leads_of_served {p : Program storeInterface α} {a : α}
    (reads : Program.Asks Reads p)
    (h : Served p t a v) : Leads t v := by
  induction h with
  | done a t => exact leads_refl t
  | answered before after ih =>
    have rest := ih (reads.2 _)
    rw [reads.1] at rest
    exact leads_trans before rest
  | failed f before after ih => exact leads_trans before (ih (reads.2 _))

/-! ## Collecting a command -/

/-- What collecting a command can lead to. The identifier and the nonce are read one after the
other; a command with both is handed out if the nonce has gone when it is looked at again, and else
only after the command was removed. -/
inductive Collected (t : Traffic) : Except Failure (Option (Command × Bool)) → Traffic → Prop
  | failed {v : Traffic} (e : Failure) (others : Leads t v) : Collected t (.error e) v
  | nothing {u₁ u₂ v : Traffic} (first : Leads t u₁) (second : Leads u₁ u₂) (others : Leads u₂ v)
      (missing : textAt u₁.contents commandIdentifier = .ok none ∨
        textAt u₂.contents commandNonce = .ok none) : Collected t (.ok none) v
  | replaced {u₁ u₂ v : Traffic} {c : Command} (first : Leads t u₁) (second : Leads u₁ u₂)
      (identifier : textAt u₁.contents commandIdentifier = .ok (some c.identifier))
      (nonce : textAt u₂.contents commandNonce = .ok (some c.nonce)) (others : Leads u₂ v)
      (gone : textAt v.contents commandNonce ≠ .ok (some c.nonce)) : Collected t (.ok (some (c, false))) v
  | cleared {u₁ u₂ u₃ : Traffic} {c : Command} (keys : List String) (first : Leads t u₁)
      (second : Leads u₁ u₂) (identifier : textAt u₁.contents commandIdentifier = .ok (some c.identifier))
      (nonce : textAt u₂.contents commandNonce = .ok (some c.nonce)) (others : Leads u₂ u₃) :
      Collected t (.ok (some (c, true)))
        { u₃ with contents := (commandEntries ++ keys).foldl OrderedMap.erase u₃.contents }

theorem asks_reads_double (key : String) : Asks Reads (Store.double key) := by
  refine asks_bind (asks_perform fun _ => rfl) fun found => ?_
  split
  · trivial
  · trivial
  · refine asks_bind (asks_bind (asks_perform fun _ => rfl) fun _ => asks_ofNumber _) fun _ => ?_
    exact asks_pure _

theorem asks_reads_storedParameters : Asks Reads storedParameters :=
  asks_bind (asks_perform fun _ => rfl) fun _ => asks_ofNumber _

theorem served_bind_reads {p : StoreM α} {f : α → StoreM β} (reads : Asks Reads p)
    {result : Except Failure β} (h : Served (p >>= f).run t result v) :
    (∃ e, result = .error e ∧ Leads t v) ∨ ∃ a u, Leads t u ∧ Served (f a).run u result v := by
  rcases served_bind h with ⟨a, u, first, second⟩ | ⟨e, rfl, first⟩
  · exact .inr ⟨a, u, leads_of_served reads first, second⟩
  · exact .inl ⟨e, rfl, leads_of_served reads first⟩

theorem served_ofNumber {x : Except NumberError α} {a : α} (h : Served (Store.ofNumber x).run t (.ok a) v) :
    x = .ok a ∧ v = t := by
  cases x with
  | ok b =>
    obtain ⟨same, rfl⟩ := served_pure h
    cases same
    exact ⟨rfl, rfl⟩
  | error e => cases h

theorem served_bind_text {key : String} {f : Option String → StoreM β}
    {result : Except Failure β} (h : Served (Store.text key >>= f).run t result v) :
    (∃ e, result = .error e ∧ Leads t v) ∨
      ∃ found u, Leads t u ∧ textAt u.contents key = .ok found ∧ Served (f found).run u result v := by
  rcases served_bind h with ⟨found, u, first, second⟩ | ⟨e, rfl, first⟩
  · rcases served_bind first with ⟨answer, u₁, asked, read⟩ | ⟨e, failed, -⟩
    · rcases served_perform asked with ⟨_, others, there, rfl⟩ | ⟨_, there, -⟩
      · obtain ⟨same, rfl⟩ := served_ofNumber read
        cases there
        exact .inr ⟨found, _, others, same, second⟩
      · cases there
    · cases failed
  · exact .inl ⟨e, rfl, leads_of_served (asks_text fun _ => rfl) first⟩

/-- The rest of a command is read after its identifier and its nonce. -/
theorem served_rest {identifier nonce : String} {result : Except Failure (Option Command)}
    (h : Served (ExceptT.run do
      let confirmed ← Store.get userConfirmed
      let timestamp ← Store.double commandTimestamp
      let parameters ← storedParameters
      return some
        { identifier, nonce, timestamp, parameters
          userConfirmed := decodeConfirmation confirmed }) t result v) :
    Leads t v ∧ ((∃ e, result = .error e) ∨
      ∃ c : Command, result = .ok (some c) ∧ c.identifier = identifier ∧ c.nonce = nonce) := by
  rcases served_bind_reads (asks_perform fun _ => rfl) h with ⟨e, rfl, first⟩ | ⟨_, u, first, h⟩
  · exact ⟨first, .inl ⟨e, rfl⟩⟩
  rcases served_bind_reads (asks_reads_double _) h with ⟨e, rfl, second⟩ | ⟨_, u, second, h⟩
  · exact ⟨leads_trans first second, .inl ⟨e, rfl⟩⟩
  have second := leads_trans first second
  rcases served_bind_reads asks_reads_storedParameters h with ⟨e, rfl, third⟩ | ⟨_, u, third, h⟩
  · exact ⟨leads_trans second third, .inl ⟨e, rfl⟩⟩
  obtain ⟨rfl, rfl⟩ := served_pure h
  exact ⟨leads_trans second third, .inr ⟨_, rfl, rfl, rfl⟩⟩

theorem readCommand_cases {result : Except Failure (Option Command)}
    (h : Served readCommand.run t result v) :
    (∃ e, result = .error e ∧ Leads t v) ∨
    (result = .ok none ∧ ∃ u, Leads t u ∧ Leads u v ∧
      (textAt u.contents commandIdentifier = .ok none ∨ textAt v.contents commandNonce = .ok none)) ∨
    ∃ c u₁ u₂, result = .ok (some c) ∧ Leads t u₁ ∧ Leads u₁ u₂ ∧ Leads u₂ v ∧
      textAt u₁.contents commandIdentifier = .ok (some c.identifier) ∧
      textAt u₂.contents commandNonce = .ok (some c.nonce) := by
  rcases served_bind_text h with ⟨e, rfl, first⟩ | ⟨identifier, u₁, first, hi, h⟩
  · exact .inl ⟨e, rfl, first⟩
  rcases served_bind_text h with ⟨e, rfl, second⟩ | ⟨nonce, u₂, second, hn, h⟩
  · exact .inl ⟨e, rfl, leads_trans first second⟩
  cases identifier with
  | none =>
    obtain ⟨rfl, rfl⟩ := served_pure h
    exact .inr (.inl ⟨rfl, u₁, first, second, .inl hi⟩)
  | some i =>
    cases nonce with
    | none =>
      obtain ⟨rfl, rfl⟩ := served_pure h
      exact .inr (.inl ⟨rfl, u₁, first, second, .inr hn⟩)
    | some n =>
      obtain ⟨rest, ⟨e, rfl⟩ | ⟨c, rfl, rfl, rfl⟩⟩ := served_rest h
      · exact .inl ⟨e, rfl, leads_trans first (leads_trans second rest)⟩
      · exact .inr (.inr ⟨c, u₁, u₂, rfl, first, second, rest, hi, hn⟩)

theorem clearCommand_cases {nonce : Option String} {result : Except Failure Bool}
    (h : Served (clearCommand nonce).run t result v) :
    (∃ e, result = .error e ∧ Leads t v) ∨
    (result = .ok false ∧ Leads t v ∧ textAt v.contents commandNonce ≠ .ok nonce) ∨
    ∃ keys u, result = .ok true ∧ Leads t u ∧
      v = { u with contents := (commandEntries ++ keys).foldl OrderedMap.erase u.contents } := by
  rcases served_bind_text h with ⟨e, rfl, first⟩ | ⟨found, u₁, first, there, h⟩
  · exact .inl ⟨e, rfl, first⟩
  split at h
  · rcases served_bind_reads (asks_perform fun _ => rfl) h with ⟨e, rfl, second⟩ | ⟨keys, u₂, second, h⟩
    · exact .inl ⟨e, rfl, leads_trans first second⟩
    have second := leads_trans first second
    rcases served_bind h with ⟨_, u₃, third, h⟩ | ⟨e, rfl, third⟩
    · obtain ⟨rfl, rfl⟩ := served_pure h
      rcases served_perform third with ⟨u, others, -, rfl⟩ | ⟨f, hf, -⟩
      · exact .inr (.inr ⟨keys.filter isParameterKey, u, rfl, leads_trans second others, rfl⟩)
      · cases hf
    · rcases served_perform third with ⟨u, -, hu, -⟩ | ⟨f, -, others⟩
      · cases hu
      · exact .inl ⟨e, rfl, leads_trans second others⟩
  · next different =>
    obtain ⟨rfl, rfl⟩ := served_pure h
    refine .inr (.inl ⟨rfl, first, fun e => different ?_⟩)
    rw [Except.ok.inj (there.symm.trans e)]
    exact beq_self_eq_true _

theorem collected_of_served {result : Except Failure (Option (Command × Bool))}
    (h : Served collectCommand.run t result v) : Collected t result v := by
  rcases served_bind h with ⟨found, u, reading, h⟩ | ⟨e, rfl, reading⟩
  · rcases readCommand_cases reading with ⟨e, he, -⟩ | ⟨hf, u₁, first, second, missing⟩ |
      ⟨c, u₁, u₂, hf, first, second, rest, identifier, nonce⟩
    · cases he
    · cases hf
      obtain ⟨rfl, rfl⟩ := served_pure h
      exact .nothing first second (leads_refl _) missing
    · cases hf
      rcases served_bind h with ⟨cleared, u₃, clearing, h⟩ | ⟨e, rfl, clearing⟩
      · obtain ⟨rfl, rfl⟩ := served_pure h
        rcases clearCommand_cases clearing with ⟨e, he, -⟩ | ⟨hc, others, gone⟩ |
          ⟨keys, w, hc, others, rfl⟩
        · cases he
        · cases hc
          exact .replaced first second identifier nonce (leads_trans rest others) gone
        · cases hc
          exact .cleared keys first second identifier nonce (leads_trans rest others)
      · rcases clearCommand_cases clearing with ⟨e, he, others⟩ | ⟨hc, -, -⟩ | ⟨_, _, hc, -, -⟩
        · exact .failed _ (leads_trans first (leads_trans second (leads_trans rest others)))
        · cases hc
        · cases hc
  · rcases readCommand_cases reading with ⟨e, he, others⟩ | ⟨hf, -⟩ | ⟨_, _, _, hf, -⟩
    · exact .failed _ others
    · cases hf
    · cases hf

end ShortcutRelay
