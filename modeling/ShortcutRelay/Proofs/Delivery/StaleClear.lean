import ShortcutRelay.Proofs.Delivery.Timeline

/-!
# A clear that a newer command overtakes

The check of the nonce, the look for the keys and their removal are three uses of the store. A newer
command is intact afterwards if its nonce was there for the check, or if nothing that it had written
by the time of the removal was among the keys; otherwise the clear has torn a hole into it.

* `Intact` : every entry of a command is as it was written;
* `intact_iff`, `intact_finish` : what a removal between two parts of the writing does;
* `newer_command_intact_iff` : when a newer command is intact in the end, wherever its writes fall;
* `newer_command_loses_parameter` : it is not always.
-/

namespace ShortcutRelay.Delivery
open Protocol Workplace

/-- Every entry is in the contents as it was written. -/
def Intact (ws : List (String × Document)) (c : Contents) : Prop :=
  ∀ e ∈ ws, c.get? e.1 = some e.2

variable {ws : List (String × Document)}

theorem intact_putAll (distinct : (entryKeys ws).Nodup) (c : Contents) : Intact ws (c.putAll ws) := by
  intro e he
  have found : valueAt? e.1 ws = some e.2 := (valueAt?_eq_some_iff distinct e.1 e.2).mpr he
  rw [OrderedMap.get?_putAll distinct, found]
  rfl

/-- Entries of which the first ones were written before some keys were removed and the others
afterwards. -/
theorem intact_iff (distinct : (entryKeys ws).Nodup) (n : Nat) (keys : List String) (c : Contents) :
    Intact ws ((keys.foldl OrderedMap.erase (c.putAll (ws.take n))).putAll (ws.drop n)) ↔
      ∀ key ∈ entryKeys (ws.take n), key ∉ keys := by
  have parts : entryKeys ws = entryKeys (ws.take n) ++ entryKeys (ws.drop n) := by
    unfold entryKeys
    rw [← List.map_append, List.take_append_drop]
  have apart := distinct
  rw [parts, List.nodup_append] at apart
  obtain ⟨early, late, disjoint⟩ := apart
  have kept {e : String × Document} (he : e ∈ ws.take n) :
      ((keys.foldl OrderedMap.erase (c.putAll (ws.take n))).putAll (ws.drop n)).get? e.1 =
        if e.1 ∈ keys then none else some e.2 := by
    have key : e.1 ∈ entryKeys (ws.take n) := List.mem_map_of_mem he
    have later : e.1 ∉ entryKeys (ws.drop n) := fun h => disjoint _ key _ h rfl
    rw [OrderedMap.get?_putAll_of_notMem later, OrderedMap.get?_eraseAll]
    rw [intact_putAll early c e he]
  constructor
  · rintro intact key hk removed
    obtain ⟨e, he, rfl⟩ := List.mem_map.mp hk
    have there := intact e (List.mem_of_mem_take he)
    rw [kept he, if_pos removed] at there
    cases there
  · intro unlisted e he
    rw [← List.take_append_drop n ws, List.mem_append] at he
    rcases he with he | he
    · rw [kept he, if_neg (unlisted _ (List.mem_map_of_mem he))]
    · exact intact_putAll late _ e he

/-- An intent that has written the first entries when some keys are removed, and writes the others
then. -/
theorem intact_finish (distinct : (entryKeys ws).Nodup) {n : Nat} {q : Process}
    {a : Except Failure (Option String)} (rest : q.Writes (ws.drop n) a) (keys : List String)
    (c : Contents) {turns : Nat} (enough : ws.length ≤ turns) :
    Intact ws (Traffic.finish ⟨keys.foldl OrderedMap.erase (c.putAll (ws.take n)), [q]⟩ turns).contents ↔
      ∀ key ∈ entryKeys (ws.take n), key ∉ keys := by
  have left : (ws.drop n).length ≤ turns := by
    rw [List.length_drop]
    omega
  rw [finish_writes rest _ left]
  exact intact_iff distinct n keys c

/-! ## The nonce between the writes -/

variable {d : Draft} {vs : List (String × StoredValue)} {c : Contents} {nonce : String}

/-- The newer nonce is in the store once it is written. -/
theorem textAt_commandNonce_newer (distinct : (vs.map Prod.fst).Nodup) {n : Nat}
    (written : commandNonce ∈ entryKeys ((d.writes vs).take n)) :
    textAt (c.putAll ((d.writes vs).take n)) commandNonce = .ok (some d.nonce) := by
  have parts : (entryKeys ((d.writes vs).take n)).Nodup := by
    unfold entryKeys
    rw [List.map_take]
    exact (List.take_sublist n _).nodup (writes_nodup distinct)
  obtain ⟨e, he, key⟩ := List.mem_map.mp written
  have found := intact_putAll parts c e he
  have own := intact_putAll (writes_nodup distinct) c e (List.mem_of_mem_take he)
  rw [putAll_writes, Draft.written, key, get?_commandNonce] at own
  exact textAt_of_get? (v := .text d.nonce) (by rw [← key, found, ← own])

/-- The older nonce is in the store until the newer one is written. -/
theorem textAt_commandNonce (pending : textAt c commandNonce = .ok (some nonce)) (newer : d.nonce ≠ nonce)
    (distinct : (vs.map Prod.fst).Nodup) (n : Nat) :
    textAt (c.putAll ((d.writes vs).take n)) commandNonce = .ok (some nonce) ↔
      commandNonce ∉ entryKeys ((d.writes vs).take n) := by
  constructor
  · intro old written
    rw [textAt_commandNonce_newer distinct written] at old
    exact newer (Option.some.inj (Except.ok.inj old))
  · intro unwritten
    exact (textAt_congr (OrderedMap.get?_putAll_of_notMem unwritten c)).trans pending

/-! ## Clears among the writes -/

/-- Wherever the writes of a newer command fall between the uses of a clear, the command is intact
in the end just where its nonce was there for the check, or where nothing that it had written by the
time of the removal was among the keys that the clear had found. -/
theorem newer_command_intact_iff (pending : textAt c commandNonce = .ok (some nonce))
    (newer : d.nonce ≠ nonce) (distinct : (d.parameters.map Prod.fst).Nodup)
    (encodable : encodeAll d.parameters = .ok vs) (plan : Nat → Nat) :
    ∃ (cleared : Bool) (w : Workplace), (Backend.run (clearCommand (some nonce))).run
        (Workplace.shared c (d.perform 0).run plan) = (.ok cleared, w) ∧
      (cleared = false ↔ commandNonce ∈ entryKeys ((d.writes vs).take (plan 0))) ∧
      ∀ rest, (d.writes vs).length ≤ rest →
        (Intact (d.writes vs) (w.traffic.finish rest).contents ↔
          commandNonce ∈ entryKeys ((d.writes vs).take (plan 0)) ∨
            ∀ key ∈ entryKeys ((d.writes vs).take (plan 0 + plan 1 + plan 2)),
              key ∉ staleKeys (c.putAll ((d.writes vs).take (plan 0 + plan 1)))) := by
  have distinct' : (vs.map Prod.fst).Nodup := names_of_encodeAll encodable ▸ distinct
  have healthy := healthy_shared c (d.perform 0).run plan
  have turns : ∀ n, (shared c (d.perform 0).run plan).turns n = List.replicate (plan n) 0 := fun _ => rfl
  have found := later_writes turns (writes_perform encodable) rfl
  have check : granted plan 0 1 = plan 0 := Nat.zero_add _
  have listing : granted plan 0 2 = plan 0 + plan 1 := congrArg (· + plan 1) check
  have removal : granted plan 0 3 = plan 0 + plan 1 + plan 2 := congrArg (· + plan 2) listing
  obtain ⟨q, rest, checked⟩ := found 1
  obtain ⟨_, -, listed⟩ := found 2
  obtain ⟨q', rest', removed⟩ := found 3
  rw [show (shared c (d.perform 0).run plan).uses = 0 from rfl] at rest checked listed rest' removed
  rw [check] at rest checked
  rw [listing] at listed
  rw [removal] at rest' removed
  have nonceThere := textAt_commandNonce pending newer distinct' (plan 0)
  by_cases written : commandNonce ∈ entryKeys ((d.writes vs).take (plan 0))
  · have there : textAt ((shared c (d.perform 0).run plan).later 1).contents commandNonce =
        .ok (some d.nonce) := by
      rw [checked]
      exact textAt_commandNonce_newer distinct' written
    -- Nothing is removed, which is a removal of no keys.
    refine ⟨false, _, run_clearCommand_replaced healthy there (by simpa using newer), by simp [written],
      fun n enough => iff_of_true ?_ (.inl written)⟩
    change Intact (d.writes vs) (((shared c (d.perform 0).run plan).later 1).finish n).contents
    rw [checked]
    exact (intact_finish (writes_nodup distinct') rest [] c enough).mpr fun _ _ => List.not_mem_nil
  · have same : textAt ((shared c (d.perform 0).run plan).later 1).contents commandNonce =
        .ok (some nonce) := by
      rw [checked]
      exact nonceThere.mpr written
    obtain ⟨uses, ran⟩ := run_clearCommand healthy same
    refine ⟨true, _, ran, by simp [written], fun n enough => ?_⟩
    rw [listed, removed, or_iff_right written]
    exact intact_finish (writes_nodup distinct') rest'
      (staleKeys (c.putAll ((d.writes vs).take (plan 0 + plan 1)))) c enough

/-- The contents with a command that is about to be cleared. -/
def overtaken : Contents :=
  ({ identifier := "startTimer", nonce := "N1" } : Draft).written [] .empty

def overtaking : Draft where
  identifier := "addTask"
  nonce := "N2"
  parameters := [("title", .text, .text "Buy milk")]

def parameterFirst : Nat → Nat
  | 0 => 1
  | _ => 0

theorem newer_command_intact_iff_parameterFirst :
    textAt overtaken commandNonce = .ok (some "N1") ∧ overtaking.nonce ≠ "N1" ∧
      (overtaking.parameters.map Prod.fst).Nodup ∧
      encodeAll overtaking.parameters = .ok [("title", .text "Buy milk")] ∧
      ∃ (cleared : Bool) (w : Workplace), (Backend.run (clearCommand (some "N1"))).run
          (Workplace.shared overtaken (overtaking.perform 0).run parameterFirst) = (.ok cleared, w) ∧
        (cleared = false ↔ commandNonce ∈
          entryKeys ((overtaking.writes [("title", .text "Buy milk")]).take 1)) ∧
        ∀ rest, (overtaking.writes [("title", .text "Buy milk")]).length ≤ rest →
          (Intact (overtaking.writes [("title", .text "Buy milk")]) (w.traffic.finish rest).contents ↔
            commandNonce ∈ entryKeys ((overtaking.writes [("title", .text "Buy milk")]).take 1) ∨
              ∀ key ∈ entryKeys ((overtaking.writes [("title", .text "Buy milk")]).take 1), key ∉
                staleKeys (overtaken.putAll
                  ((overtaking.writes [("title", .text "Buy milk")]).take 1))) :=
  ⟨rfl, by decide, by decide, rfl,
    newer_command_intact_iff rfl (by decide) (by decide) rfl parameterFirst⟩

/-- A newer command is not always left intact: a parameter that it wrote before the check is
removed with the older command. -/
theorem newer_command_loses_parameter :
    ¬ ∀ (c : Contents) (nonce : String) (d : Draft) (vs : List (String × StoredValue))
      (plan : Nat → Nat) (rest : Nat), textAt c commandNonce = .ok (some nonce) → d.nonce ≠ nonce →
      (d.parameters.map Prod.fst).Nodup → encodeAll d.parameters = .ok vs →
      (d.writes vs).length ≤ rest →
      Intact (d.writes vs) ((((Backend.run (clearCommand (some nonce))).run
        (Workplace.shared c (d.perform 0).run plan)).2).traffic.finish rest).contents := by
  intro claim
  have intact := claim overtaken "N1" overtaking [("title", .text "Buy milk")] parameterFirst 4 rfl
    (by decide) (by decide) rfl (by decide)
  have title := intact (parameterEntry "title", .text "Buy milk") List.mem_cons_self
  have lost : ((((Backend.run (clearCommand (some "N1"))).run (Workplace.shared overtaken
      (overtaking.perform 0).run parameterFirst)).2).traffic.finish 4).contents.get?
        (parameterEntry "title") = none := by
    rfl
  rw [lost] at title
  cases title

end ShortcutRelay.Delivery
