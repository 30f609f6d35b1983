import ShortcutRelay.App.Bridge
import ShortcutRelay.Proofs.App.Attend
import ShortcutRelay.Proofs.Protocol.Passage
import ShortcutRelay.Proofs.Store.Steady

/-!
# An application in company

* `Exchange` : the store that an application shares with intents, with a record of what was handed
  over, called, replied and asked;
* `Conduct` : how the code of an application behaves, `hostOf` : the host that runs it;
* `Aside` : what such code may change, `run_react` : it changes nothing else.
-/

namespace ShortcutRelay.Company
open Protocol App

/-- The store that an application shares with intents. `clock` gives each reading of a clock. What
reached a callback is kept in `received`, the calls of listeners in `called`, the replies with their
texts in `replies`, and the requests of intents, each with the nonce of its run, in `asked`. -/
structure Exchange where
  contents : Contents
  clock : Nat → Float := fun _ => 0.0
  readings : Nat := 0
  received : List Command := []
  called : List (String × Invocation) := []
  replies : List (String × String) := []
  asked : List (String × StoreRequest) := []

instance : Backend Exchange where
  obtain := pure ()
  load := do return (← get).contents
  save c := modify fun x => { x with contents := c }

def Exchange.holding (x : Exchange) (c : Contents) : Exchange :=
  { x with contents := c }

theorem steady : Backend.Steady (fun (x : Exchange) c => x.contents = c) Exchange.holding where
  load h := by
    subst h
    rfl
  save _ _ := rfl
  enter _ := rfl
  leave _ := rfl
  textRead _ _ := rfl
  held _ _ := rfl
  unchanged h := by
    subst h
    rfl
  again _ _ _ := rfl

/-! ## Code of the application -/

/-- What code does while it runs: it replies to commands, and in the end it may fail. -/
structure Reaction where
  replies : List (String × Option String) := []
  failure : Option Failure := none

/-- How a listener takes an invocation: at once, or in turns of the event loop. -/
inductive Manner
  | atOnce (reaction : Reaction)
  | inTurns (turns : List Reaction)

/-- How the code of an application behaves, which may depend on all that has happened: a callback
that receives a command, and the listeners. `patience` bounds the turns of a listener. -/
structure Conduct where
  receive : Exchange → Command → Reaction := fun _ _ => {}
  listen : Exchange → String → Invocation → Manner := fun _ _ _ => .atOnce {}
  patience : Nat := 1

/-- The world of an application in company. Code that waits is the list of its turns. -/
abbrev Hall := World Exchange (List Reaction)

abbrev HallM := AppM Exchange (List Reaction)

def change (f : Exchange → Exchange) : HallM Unit :=
  modify fun w => { w with around := f w.around }

def reply (nonce : String) (message : Option String) : HallM Unit := do
  Bridge.postReply nonce message
  change fun x => { x with replies := x.replies ++ [(nonce, message.getD "")] }

def replyAll : List (String × Option String) → HallM Unit
  | [] => return ()
  | (nonce, message) :: rest => do
    reply nonce message
    replyAll rest

def react (r : Reaction) : HallM Unit := do
  replyAll r.replies
  if let some failure := r.failure then throw failure

def hostOf (conduct : Conduct) : Host Exchange (List Reaction) where
  observe _ _ := return ()
  deliver _ command := do
    let reaction := conduct.receive (← get).around command
    change fun x => { x with received := x.received ++ [command] }
    react reaction
  call name i := do
    let manner := conduct.listen (← get).around name i
    change fun x => { x with called := x.called ++ [(name, i)] }
    match manner with
    | .atOnce reaction =>
      react reaction
      return none
    | .inTurns turns => return some turns
  resume
    | [] => return none
    | turn :: turns => do
      react turn
      return some turns
  turns := conduct.patience

/-! ## The store -/

def holding (w : Hall) (c : Contents) : Hall :=
  { w with around := w.around.holding c }

variable {w v u : Hall} {α : Type}

theorem run_onStore (p : StoreM α) (w : Hall) : (onStore p : HallM α).run w =
    ((runOn p w.around.contents).1, holding w (runOn p w.around.contents).2) :=
  run_onBackend (steady.run_program rfl p)

theorem run_openStore (w : Hall) : (openStore : HallM Unit).run w = (.ok (), w) :=
  rfl

theorem run_withStore (p : StoreM α) (w : Hall) : (withStore p : HallM α).run w =
    ((runOn p w.around.contents).1, holding w (runOn p w.around.contents).2) := by
  unfold withStore
  rw [Fallible.run_bind_ok (run_openStore w), run_onStore]

theorem run_answer (r : StoreRequest) (w : Hall) :
    (onBackend (Backend.answer r) : HallM r.Result).run w =
      (.ok (r.effect w.around.contents).1, holding w (r.effect w.around.contents).2) :=
  run_onBackend (steady.run_answer rfl r)

/-! ## Replies change nothing else -/

/-- Every reply in the store was given. -/
def Answered (x : Exchange) : Prop :=
  ∀ nonce v, x.contents.get? (replyEntry nonce) = some v → ∃ m, v = .text m ∧ (nonce, m) ∈ x.replies

/-- At most replies, their record and notices tell the second world from the first one. -/
structure Aside (w v : Hall) : Prop where
  rest : v = { w with
    around := { w.around with contents := v.around.contents, replies := v.around.replies }
    notices := v.notices }
  entries : ∀ k, (∀ nonce, k ≠ replyEntry nonce) →
    v.around.contents.get? k = w.around.contents.get? k
  given : ∀ r ∈ w.around.replies, r ∈ v.around.replies
  answered : Answered w.around → Answered v.around

theorem aside_refl (w : Hall) : Aside w w :=
  ⟨rfl, fun _ _ => rfl, fun _ h => h, fun h => h⟩

theorem aside_trans (h : Aside w v) (h' : Aside v u) : Aside w u where
  rest := by
    rw [h'.rest, h.rest]
  entries k hk := (h'.entries k hk).trans (h.entries k hk)
  given r hr := h'.given r (h.given r hr)
  answered hw := h'.answered (h.answered hw)

/-- Replies bring neither a command nor a parameter. -/
theorem Aside.noCommand (h : Aside w v) (unused : NoCommand w.around.contents) :
    NoCommand v.around.contents := by
  intro k hk
  rw [h.entries k fun nonce same => replyEntry_notMem nonce (same ▸ hk)]
  exact unused k hk

theorem Aside.noParameters (h : Aside w v) (empty : NoParameters w.around.contents) :
    NoParameters v.around.contents := by
  intro k hk
  have other (nonce : String) : k ≠ replyEntry nonce := by
    rintro rfl
    rw [isParameterKey_replyEntry] at hk
    cases hk
  rw [h.entries k other]
  exact empty k hk

theorem run_reply (nonce : String) (message : Option String) (w : Hall) :
    ∃ v, (reply nonce message).run w = (.ok (), v) ∧ Aside w v ∧
      (nonce, message.getD "") ∈ v.around.replies := by
  have posted := run_withStore (postReply nonce message) w
  rw [runOn_postReply] at posted
  have ran : (reply nonce message).run w = (.ok (), { w with around := { w.around with
      contents := w.around.contents.put (replyEntry nonce) (.text (message.getD ""))
      replies := w.around.replies ++ [(nonce, message.getD "")] } }) := by
    unfold reply
    rw [Fallible.run_bind_ok (show (Bridge.postReply nonce message : HallM Unit).run w = _ from posted)]
    rfl
  refine ⟨_, ran, ⟨rfl, fun k hk => ?_, fun r hr => ?_, fun answered n v found => ?_⟩, ?_⟩
  · exact OrderedMap.get?_put_of_ne _ (hk nonce) _
  · exact List.mem_append_left _ hr
  · change (w.around.contents.put (replyEntry nonce) _).get? (replyEntry n) = some v at found
    rw [OrderedMap.get?_put] at found
    split at found
    · next same =>
      cases found
      obtain rfl : n = nonce := replyEntry_injective same
      exact ⟨_, rfl, List.mem_append_right _ List.mem_cons_self⟩
    · obtain ⟨m, text, given⟩ := answered n v found
      exact ⟨m, text, List.mem_append_left _ given⟩
  · exact List.mem_append_right _ List.mem_cons_self

theorem run_replyAll (rs : List (String × Option String)) (w : Hall) :
    ∃ v, (replyAll rs).run w = (.ok (), v) ∧ Aside w v := by
  induction rs generalizing w with
  | nil => exact ⟨w, rfl, aside_refl w⟩
  | cons r rs ih =>
    obtain ⟨v, ran, first, -⟩ := run_reply r.1 r.2 w
    obtain ⟨u, ran', rest⟩ := ih v
    exact ⟨u, (Fallible.run_bind_ok ran _).trans ran', aside_trans first rest⟩

/-- A reaction replies and does nothing else, whether it fails or not. -/
theorem run_react (r : Reaction) (w : Hall) : ∃ result v, (react r).run w = (result, v) ∧ Aside w v := by
  obtain ⟨v, ran, aside⟩ := run_replyAll r.replies w
  unfold react
  rw [Fallible.run_bind_ok ran]
  cases r.failure with
  | none => exact ⟨_, v, rfl, aside⟩
  | some failure => exact ⟨_, v, rfl, aside⟩

theorem aside_notices (w : Hall) (notices : List Notice) : Aside w { w with notices } :=
  ⟨rfl, fun _ _ => rfl, fun _ h => h, fun h => h⟩

theorem aside_report (n : Notice) (w : Hall) :
    Aside w { w with notices := w.notices ++ [n] } :=
  aside_notices w _

end ShortcutRelay.Company
