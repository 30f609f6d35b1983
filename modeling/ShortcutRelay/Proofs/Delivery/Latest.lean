import ShortcutRelay.Proofs.Delivery.AtMostOnce

/-!
# The latest command is neither lost nor handed over twice

Without intents that interrupt it, a look for a command that does not hand it over leaves it in the
store, whatever has failed, and one that hands it over has removed it.

* `Settled` : the invariant;
* `HandedOnce`, `Waits` : the two fates of a command;
* `latest_handed_once_or_waits` : in any run the command that was published last has just one of
  them, and no command was handed over twice.
-/

namespace ShortcutRelay.Delivery
open Protocol

/-- The command stands in the contents as it was written. -/
structure Stands (d : Draft) (c : Contents) : Prop where
  identifier : c.get? commandIdentifier = some (.text d.identifier)
  nonce : c.get? commandNonce = some (.text d.nonce)
  timestamp : c.get? commandTimestamp = some (.float d.time)

/-- Without intents that interrupt the application, the latest command was handed over once and is
gone, or it was not handed over and stands in the store. -/
structure Settled (a : Account) : Prop where
  alone : a.traffic.others = []
  decodes : Decodes a.traffic.contents
  orderly : Orderly a
  latest : ∀ d, a.published.getLast? = some d →
    (a.times d.nonce = 1 ∧ NoCommand a.traffic.contents) ∨
      (a.times d.nonce = 0 ∧ Stands d a.traffic.contents)

theorem settled_advance (a : Account) (i : Nat) (h : Settled a) :
    Settled { a with traffic := a.traffic.advance i } := by
  have same : a.traffic.advance i = a.traffic := leads_alone h.alone ⟨[i], rfl⟩
  rw [same]
  exact h

theorem decodes_eraseAll {c : Contents} (h : Decodes c) (keys : List String) :
    Decodes (keys.foldl OrderedMap.erase c) :=
  decodes_effect (.removeAll keys) c trivial h

/-- Without an interruption a command is handed over only after it was removed. -/
theorem cleared_alone {t u : Traffic} {c : Command} {cleared : Bool} (alone : t.others = [])
    (h : Collected t (.ok (some (c, cleared))) u) :
    textAt t.contents commandNonce = .ok (some c.nonce) ∧
      ∃ keys, u = { t with
        contents := (commandEntries ++ keys).foldl OrderedMap.erase t.contents } := by
  cases h with
  | replaced first second identifier nonce others gone =>
    obtain rfl := leads_alone alone (leads_trans first second)
    obtain rfl := leads_alone alone others
    exact absurd nonce gone
  | cleared keys first second identifier nonce others =>
    obtain rfl := leads_alone alone (leads_trans first second)
    obtain rfl := leads_alone alone others
    exact ⟨nonce, keys, rfl⟩

theorem settled_collect (a : Account) (t : Traffic) (c : Command) (cleared : Bool) (h : Settled a)
    (collected : Collected a.traffic (.ok (some (c, cleared))) t) :
    Settled (Account.plus { a with traffic := t } c.nonce) := by
  have orderly := orderly_collect a t c cleared h.orderly collected
  obtain ⟨nonce, keys, rfl⟩ := cleared_alone h.alone collected
  refine ⟨h.alone, decodes_eraseAll h.decodes _, orderly, fun d hd => .inl ⟨?_, ?_⟩⟩
  · rcases h.latest d hd with ⟨-, gone⟩ | ⟨never, stands⟩
    · rw [textAt_of_none (gone commandNonce (by decide))] at nonce
      cases nonce
    · have same : d.nonce = c.nonce := by
        rw [textAt_of_get? stands.nonce] at nonce
        exact Option.some.inj (Except.ok.inj nonce)
      rw [times_plus, if_pos same]
      exact congrArg (· + 1) never
  · intro k hk
    exact (OrderedMap.get?_eraseAll ..).trans (if_pos (List.mem_append_left keys hk))

theorem settled_publish (a : Account) (d : Draft) (c : Contents) (h : Settled a)
    (fresh : d.nonce ∉ a.used) (ran : runOn d.write a.traffic.contents = (.ok (), c)) :
    Settled { a with
      traffic := { a.traffic with contents := c }
      used := d.nonce :: a.used
      published := a.published ++ [d] } := by
  have decodes := runOn_keeps decodes_effect (asks_fits_write d) h.decodes
  rw [ran] at decodes
  refine ⟨h.alone, decodes, orderly_publish a d c h.orderly fresh ran, fun e he => .inr ?_⟩
  obtain rfl : d = e := by
    rw [List.getLast?_append, List.getLast?_singleton] at he
    exact Option.some.inj he
  refine ⟨Decidable.byContradiction fun times => ?_, ?_⟩
  · exact fresh (h.orderly.handed d.nonce (Nat.pos_of_ne_zero times)).1
  · obtain ⟨vs, rfl⟩ := contents_of_written ran
    exact ⟨get?_commandIdentifier d _, get?_commandNonce d _, get?_commandTimestamp d _⟩

theorem settled_abort (a : Account) (d : Draft) (e : Failure) (c : Contents) (h : Settled a)
    (fresh : d.nonce ∉ a.used) (ran : runOn d.write a.traffic.contents = (.error e, c)) :
    Settled { a with
      traffic := { a.traffic with contents := c }
      used := d.nonce :: a.used } := by
  have decodes := runOn_keeps decodes_effect (asks_fits_write d) h.decodes
  rw [ran] at decodes
  refine ⟨h.alone, decodes, orderly_abort a d e c h.orderly fresh ran, fun last hl => ?_⟩
  obtain ⟨vs, rfl⟩ := contents_of_aborted ran
  have same {k : String} (hk : k ∈ commandEntries) :
      (a.traffic.contents.putAll (allParameterWrites vs)).get? k = a.traffic.contents.get? k :=
    get?_putAll_allParameterWrites vs _ (isParameterKey_commandEntries k hk)
  refine (h.latest last hl).imp (fun ⟨once, gone⟩ => ⟨once, fun k hk => ?_⟩)
    fun ⟨never, stands⟩ => ⟨never, ?_, ?_, ?_⟩
  · exact (same hk).trans (gone k hk)
  · exact (same (by decide)).trans stands.identifier
  · exact (same (by decide)).trans stands.nonce
  · exact (same (by decide)).trans stands.timestamp

theorem settled_kept : Kept Settled :=
  ⟨settled_advance, settled_collect, settled_publish, settled_abort⟩

/-! ## Whole runs -/

/-- The command was handed over once and is gone from the store. -/
def HandedOnce (w : World Workplace (List Move)) (d : Draft) : Prop :=
  timesHanded w d.nonce = 1 ∧ NoCommand w.around.traffic.contents

/-- The command was not handed over and can be read from the store. -/
def Waits (w : World Workplace (List Move)) (d : Draft) : Prop :=
  timesHanded w d.nonce = 0 ∧ ∃ command,
    runOn readCommand w.around.traffic.contents = (.ok (some command), w.around.traffic.contents) ∧
      command.identifier = d.identifier ∧ command.nonce = d.nonce

variable {c : Contents}

theorem settled_opening (h : Decodes c) (queued : Bool) (turns : Nat → List Nat) :
    Settled (account (opening queued c [] turns)) :=
  have nobody : ∀ i ∈ ([] : List (Draft × Nat)), textAt c commandNonce ≠ .ok (some i.1.nonce) :=
    fun _ hi => absurd hi List.not_mem_nil
  ⟨rfl, h, @orderly_opening queued c [] List.nodup_nil nobody turns, nofun⟩

theorem readCommand_of_stands {d : Draft} (h : Decodes c) (stands : Stands d c) :
    ∃ command, runOn readCommand c = (.ok (some command), c) ∧
      command.identifier = d.identifier ∧ command.nonce = d.nonce := by
  have identifier : textAt c commandIdentifier = .ok (some d.identifier) := textAt_of_get? stands.identifier
  have nonce : textAt c commandNonce = .ok (some d.nonce) := textAt_of_get? stands.nonce
  exact ⟨_, runOn_readCommand identifier nonce stands.timestamp h, rfl, rfl⟩

theorem latest_handed_once_or_waits (h : Decodes c) (queued : Bool) (turns : Nat → List Nat)
    (depth : Nat) (moves : List Move) :
    let w := after depth moves (opening queued c [] turns)
    (∀ d, w.around.published.getLast? = some d →
      (HandedOnce w d ∧ ¬ Waits w d) ∨ (Waits w d ∧ ¬ HandedOnce w d)) ∧
    ∀ nonce, timesHanded w nonce ≤ 1 := by
  intro w
  have settled := (holds_after settled_kept depth moves
    ⟨tidy_opening queued c [] turns, settled_opening h queued turns⟩).2
  refine ⟨fun d hd => ?_, times_le_one settled.orderly⟩
  rcases settled.latest d hd with ⟨once, gone⟩ | ⟨never, stands⟩
  · refine .inl ⟨⟨once, gone⟩, fun ⟨never, _⟩ => ?_⟩
    exact absurd (never.symm.trans once) (by decide)
  · refine .inr ⟨⟨never, readCommand_of_stands settled.decodes stands⟩, fun ⟨once, _⟩ => ?_⟩
    exact absurd (never.symm.trans once) (by decide)

theorem latest_handed_once_or_waits_after_notifications :
    Decodes {} ∧
      let w := after 2 [.publish unconsumed, .notify, .start, .register [], .fault fun _ => none,
        .publish successor, .notify] (opening true {} [] fun _ => [])
      (∀ d, w.around.published.getLast? = some d →
        (HandedOnce w d ∧ ¬ Waits w d) ∨ (Waits w d ∧ ¬ HandedOnce w d)) ∧
      ∀ nonce, timesHanded w nonce ≤ 1 :=
  have empty : Decodes {} := fun _ _ h => by cases h
  ⟨empty, latest_handed_once_or_waits empty true _ 2 _⟩

-- The first command waits for a callback in spite of two notifications; the second one is handed
-- over by a notification.
example : (after 2 [.publish unconsumed, .notify, .start, .register [],
    .publish successor, .notify] (opening true {} [] fun _ => [])).ready.filterMap taskNonce? =
      ["N1", "N2"] := by
  decide +kernel

end ShortcutRelay.Delivery
