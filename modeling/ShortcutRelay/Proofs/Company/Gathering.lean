import ShortcutRelay.App.Bridge
import ShortcutRelay.Proofs.Company.Turn

/-!
# Runs of intents in company

Runs of intents take turns in any order, and the code of the application replies to any of them at any
time. Every turn leaves the store without a command, so no run meets what another one has written.

* `Visitor`, `Gathering` : runs as far as they have come, and the world that they share;
* `Move`, `Gathering.move`, `Gathering.after` : turns and replies in any order;
* `Orderly` : every run is between two turns, `orderly_move` and `orderly_after` : it stays so;
* `runs_never_mix` : what every run can rely on.
-/

namespace ShortcutRelay.Company
open Protocol App

/-- A run of an intent and what is left of it. -/
structure Visitor where
  guest : Guest
  rest : Program intentInterface (Except Failure IntentAnswer)

/-- Runs of intents and the world that they share. -/
structure Gathering where
  hall : Hall
  visitors : List Visitor

/-- A run has its next turn, in which a confirmation that it waits for is answered as given; a command is
replied to; or the event loop hands over the next command. -/
inductive Move
  | turn (place : Nat) (given : Except Failure Bool)
  | reply (nonce : String) (message : Option String)
  | loop

namespace Gathering

def move (conduct : Conduct) : Move → Gathering → Gathering
  | .turn place given, s =>
    match s.visitors[place]? with
    | none => s
    | some v =>
      let (result, hall) := (goOn conduct v.guest given v.rest).run s.hall
      match result with
      | .ok rest => { hall, visitors := s.visitors.set place { v with rest } }
      | .error _ => { s with hall }
  | .reply nonce message, s => { s with hall := ((Company.reply nonce message).run s.hall).2 }
  | .loop, s =>
    match s.hall.ready with
    | .deliver callback command :: ready =>
      { s with hall := ((deliver (hostOf conduct) callback command).run { s.hall with ready }).2 }
    | _ => s

def after (conduct : Conduct) (moves : List Move) (s : Gathering) : Gathering :=
  moves.foldl (fun s m => s.move conduct m) s

/-- Runs that are about to begin, in an application whose bridge is started and has a callback. -/
def opening (contents : Contents) (clock : Nat → Float) (queued : Bool) (guests : List Guest) :
    Gathering where
  hall := ((Bridge.start : HallM Unit).run
    { around := { contents, clock }, bridge := some { callback := some (.custom []), queued } }).2
  visitors := guests.map fun g => { guest := g, rest := (g.runner.perform g.values).run }

end Gathering

variable (conduct : Conduct) {g : Guest} {c : Contents} {φ : Phase} {w v : Hall} {s : Gathering}

/-! ## Runs between their turns -/

/-- A run is between two turns, and the world is as it has to be then. -/
def Visitor.InOrder (c : Contents) (w : Hall) (x : Visitor) : Prop :=
  ∃ φ : Phase, φ.Rests ∧ x.guest.Follows c x.guest.Ends φ x.rest ∧ x.guest.At c φ w

/-- What a run needs between two turns: the commands that were handed over for it and what it has
published stay the same, and replies stay given. -/
theorem at_of_same (rests : φ.Rests) (now : g.At c φ w) (calm : Calm c v)
    (same : handedTo g.nonce v = handedTo g.nonce w)
    (published : Published g.nonce v ↔ Published g.nonce w)
    (replies : ∀ r ∈ w.around.replies, r ∈ v.around.replies) : g.At c φ v := by
  have delivered {time : Float} (d : g.Delivered c time w) : g.Delivered c time v :=
    ⟨same.trans d.handed, published.mpr d.published⟩
  cases φ with
  | before => exact ⟨calm, same.trans now.2.handed, fun p => now.2.unpublished (published.mp p)⟩
  | looking time => exact ⟨calm, delivered now.2⟩
  | taken time m => exact ⟨calm, delivered now.2.1, replies _ now.2.2⟩
  | writing | found => exact rests.elim

/-- The turn of another run leaves a run in order. -/
theorem Visitor.InOrder.beside {x : Visitor} (h : x.InOrder c w) (other : x.guest.nonce ≠ g.nonce)
    (calm : Calm c v) (beside : Beside g w v) : x.InOrder c v := by
  obtain ⟨φ, rests, follows, now⟩ := h
  exact ⟨φ, rests, follows, at_of_same rests now calm (beside.others _ other)
    (beside.asked _ other _) beside.replies⟩

/-- So does the code of the application. -/
theorem Visitor.InOrder.among {x : Visitor} (h : x.InOrder c w) (calm : Calm c v)
    (same : handed v = handed w) (asked : v.around.asked = w.around.asked)
    (replies : ∀ r ∈ w.around.replies, r ∈ v.around.replies) : x.InOrder c v := by
  obtain ⟨φ, rests, follows, now⟩ := h
  refine ⟨φ, rests, follows, at_of_same rests now calm ?_ ?_ replies⟩
  · rw [handedTo, same, handedTo]
  · rw [Published, asked, Published]

/-- Every run is between two turns, and no command was handed over that is not one of theirs. -/
structure Orderly (c : Contents) (s : Gathering) : Prop where
  calm : Calm c s.hall
  runs : ∀ x ∈ s.visitors, x.InOrder c s.hall
  own : ∀ command ∈ handed s.hall, command.nonce ∈ s.visitors.map (·.guest.nonce)
  distinct : (s.visitors.map (·.guest.nonce)).Nodup

/-- What the code of the application does leaves the gathering in order. -/
theorem Orderly.among (h : Orderly c s) (calm : Calm c v) (same : handed v = handed s.hall)
    (asked : v.around.asked = s.hall.around.asked)
    (replies : ∀ r ∈ s.hall.around.replies, r ∈ v.around.replies) : Orderly c { s with hall := v } where
  calm := calm
  runs x hx := (h.runs x hx).among calm same asked replies
  own command handed := h.own command (same ▸ handed)
  distinct := h.distinct

theorem Orderly.aside (h : Orderly c s) (aside : Aside s.hall v) : Orderly c { s with hall := v } := by
  refine h.among (h.calm.aside aside) (handed_aside aside) ?_ aside.given
  rw [aside.rest]

/-! ## Moves -/

theorem guests_set {visitors : List Visitor} {place : Nat} {x : Visitor}
    (there : visitors[place]? = some x) (rest : Program intentInterface (Except Failure IntentAnswer)) :
    (visitors.set place { x with rest }).map (·.guest) = visitors.map (·.guest) := by
  have inside : place < (visitors.map (·.guest)).length := by
    rw [List.length_map]
    exact (List.getElem?_eq_some_iff.mp there).1
  rw [List.map_set]
  refine List.ext_getElem? fun i => ?_
  rw [List.getElem?_set, if_pos inside]
  split
  · next here =>
    rw [← here, List.getElem?_map, there]
    rfl
  · rfl

theorem orderly_turn (h : Orderly c s) {place : Nat} {x : Visitor} (there : s.visitors[place]? = some x)
    (given : Except Failure Bool) :
    ∃ rest v, (goOn conduct x.guest given x.rest).run s.hall = (.ok rest, v) ∧
      Orderly c { hall := v, visitors := s.visitors.set place { x with rest } } := by
  have member := List.mem_of_getElem? there
  obtain ⟨φ, -, follows, now⟩ := h.runs x member
  obtain ⟨rest, ψ, v, ran, paused, follows', later, beside⟩ := run_goOn conduct given follows now
  have rests := rests_of_paused follows' paused
  have calm := rests.calm later
  have nonces : (s.visitors.set place { x with rest }).map (·.guest.nonce) =
      s.visitors.map (·.guest.nonce) := by
    have guests := congrArg (List.map Guest.nonce) (guests_set there rest)
    rw [List.map_map, List.map_map] at guests
    exact guests
  have distinct : ((s.visitors.set place { x with rest }).map (·.guest.nonce)).Nodup := by
    rw [nonces]
    exact h.distinct
  refine ⟨rest, v, ran, calm, fun y hy => ?_, fun command after => ?_, distinct⟩
  · -- Nonces tell the runs apart: whoever has this one is the run whose turn it was.
    by_cases same : y.guest.nonce = x.guest.nonce
    · have placed : { x with rest } ∈ s.visitors.set place { x with rest } :=
        List.mem_set (List.getElem?_eq_some_iff.mp there).1 _
      obtain rfl : y = { x with rest } := List.inj_on_of_nodup_map distinct hy placed same
      exact ⟨ψ, rests, follows', later⟩
    · have old : y ∈ s.visitors := (List.mem_or_eq_of_mem_set hy).resolve_right fun new =>
        same (congrArg (·.guest.nonce) new)
      exact (h.runs y old).beside same calm beside
  · rw [nonces]
    rcases beside.own command after with before | own
    · exact h.own command before
    · rw [own]
      exact List.mem_map_of_mem (f := fun y : Visitor => y.guest.nonce) member

theorem orderly_loop (h : Orderly c s) : Orderly c (s.move conduct .loop) := by
  unfold Gathering.move
  simp only
  cases ready : s.hall.ready with
  | nil => exact h
  | cons task rest =>
    obtain ⟨code, command, rfl⟩ := h.calm.ready task (by rw [ready]; exact List.mem_cons_self)
    simp only
    let shorter : Hall := { s.hall with ready := rest }
    obtain ⟨result, v, delivered, aside⟩ := run_deliver_custom conduct code command shorter
    -- The command only moves from the ready queue to those that were received.
    have same : handed (receiving shorter command) = handed s.hall := by
      unfold handed
      rw [ready]
      exact List.append_assoc ..
    have calm : Calm c (receiving shorter command) := by
      refine ⟨h.calm.unused, h.calm.empty, h.calm.state, h.calm.answered, h.calm.bridge,
        h.calm.observers, fun task there => h.calm.ready task ?_, h.calm.own⟩
      rw [ready]
      exact List.mem_cons_of_mem _ there
    rw [delivered]
    exact (h.among calm same rfl fun _ hr => hr).aside aside

theorem orderly_move (h : Orderly c s) (m : Move) : Orderly c (s.move conduct m) := by
  cases m with
  | turn place given =>
    unfold Gathering.move
    simp only
    cases there : s.visitors[place]? with
    | none => exact h
    | some x =>
      obtain ⟨rest, v, ran, orderly⟩ := orderly_turn conduct h there given
      simp only [ran]
      exact orderly
  | reply nonce message =>
    obtain ⟨v, ran, aside, -⟩ := run_reply nonce message s.hall
    rw [Gathering.move, ran]
    exact h.aside aside
  | loop => exact orderly_loop conduct h

/-- Whatever happens, every run stays between two turns. -/
theorem orderly_after (h : Orderly c s) (moves : List Move) : Orderly c (s.after conduct moves) := by
  induction moves generalizing s with
  | nil => exact h
  | cons m moves ih => exact ih (orderly_move conduct h m)

theorem guests_after (h : Orderly c s) (moves : List Move) :
    (s.after conduct moves).visitors.map (·.guest) = s.visitors.map (·.guest) := by
  induction moves generalizing s with
  | nil => rfl
  | cons m moves ih =>
    refine (ih (orderly_move conduct h m)).trans ?_
    cases m with
    | turn place given =>
      unfold Gathering.move
      simp only
      cases there : s.visitors[place]? with
      | none => rfl
      | some x =>
        obtain ⟨rest, v, ran, -⟩ := orderly_turn conduct h there given
        simp only [ran]
        exact guests_set there rest
    | reply nonce message => rfl
    | loop =>
      unfold Gathering.move
      simp only
      split <;> rfl

theorem calm_opening (unused : NoCommand c) (empty : NoParameters c)
    (unanswered : ∀ nonce, c.get? (replyEntry nonce) = none) (clock : Nat → Float) (queued : Bool)
    (guests : List Guest) : Calm c (Gathering.opening c clock queued guests).hall where
  unused := unused
  empty := empty
  state _ := rfl
  answered nonce v found := by
    change c.get? (replyEntry nonce) = some v at found
    rw [unanswered] at found
    cases found
  bridge := ⟨_, [], rfl, rfl⟩
  observers := rfl
  ready := nofun
  own := by
    rintro run nonce (asked | asked) <;> cases asked

theorem orderly_opening (unused : NoCommand c) (empty : NoParameters c)
    (unanswered : ∀ nonce, c.get? (replyEntry nonce) = none) (clock : Nat → Float) (queued : Bool)
    {guests : List Guest} (distinct : (guests.map (·.nonce)).Nodup) :
    Orderly c (Gathering.opening c clock queued guests) where
  calm := calm_opening unused empty unanswered clock queued guests
  runs x hx := by
    obtain ⟨g, -, rfl⟩ := List.mem_map.mp hx
    exact ⟨.before, trivial, follows_perform g c,
      calm_opening unused empty unanswered clock queued guests, rfl, nofun⟩
  own := nofun
  distinct := by
    rw [show (Gathering.opening c clock queued guests).visitors.map (·.guest.nonce) =
      guests.map (·.nonce) from List.map_map ..]
    exact distinct

/-! ## What runs can rely on -/

variable {x : Visitor}

/-- A run that has published was handed over once, as its own command, and one that has not was not
handed over. -/
theorem Visitor.InOrder.handed (h : x.InOrder c w) :
    (Published x.guest.nonce w → ∃ time,
        handedTo x.guest.nonce w = [(x.guest.draft c time).command x.guest.encoded]) ∧
      (¬ Published x.guest.nonce w → handedTo x.guest.nonce w = []) := by
  obtain ⟨φ, rests, -, now⟩ := h
  cases φ with
  | before => exact ⟨fun published => absurd published now.2.unpublished, fun _ => now.2.handed⟩
  | looking time =>
    exact ⟨fun _ => ⟨time, now.2.handed⟩, fun unpublished => absurd now.2.published unpublished⟩
  | taken time m =>
    exact ⟨fun _ => ⟨time, now.2.1.handed⟩, fun unpublished => absurd now.2.1.published unpublished⟩
  | writing | found => exact rests.elim

/-- A run that ends with a reply ends with one that was given to it. -/
theorem Visitor.InOrder.answered (h : x.InOrder c w) {answer : IntentAnswer}
    (ended : x.rest = .done (.ok answer)) (responded : answer.outcome = .responded) :
    answer.nonce = some x.guest.nonce ∧ (x.guest.nonce, answer.dialog) ∈ w.around.replies := by
  obtain ⟨φ, rests, follows, now⟩ := h
  rw [ended] at follows
  cases φ with
  | before | looking => exact absurd responded (follows answer rfl)
  | taken time m =>
    cases follows
    exact ⟨rfl, now.2.2⟩
  | writing | found => exact rests.elim

/-- However the turns of runs and the replies fall: between two turns no command and no parameter is in
the store. What is handed over is the commands of the runs; each run that has published was handed
over once, with its own identifier, nonce, parameters and confirmation. A run that ends with a reply
ends with one that was given to its own nonce, and no other run has used the entry of that reply. -/
theorem runs_never_mix (unused : NoCommand c) (empty : NoParameters c)
    (unanswered : ∀ nonce, c.get? (replyEntry nonce) = none) {guests : List Guest}
    (distinct : (guests.map (·.nonce)).Nodup) (conduct : Conduct) (clock : Nat → Float) (queued : Bool)
    (moves : List Move) :
    let s := (Gathering.opening c clock queued guests).after conduct moves
    NoCommand s.hall.around.contents ∧ NoParameters s.hall.around.contents ∧
      s.visitors.map (·.guest) = guests ∧
      (∀ command ∈ handed s.hall, command.nonce ∈ guests.map (·.nonce)) ∧
      ∀ x ∈ s.visitors,
        (Published x.guest.nonce s.hall → ∃ time,
          handedTo x.guest.nonce s.hall = [(x.guest.draft c time).command x.guest.encoded]) ∧
        (¬ Published x.guest.nonce s.hall → handedTo x.guest.nonce s.hall = []) ∧
        ∀ answer, x.rest = .done (.ok answer) → answer.outcome = .responded →
          answer.nonce = some x.guest.nonce ∧
            (x.guest.nonce, answer.dialog) ∈ s.hall.around.replies ∧
            ∀ run, UsesReply s.hall.around.asked run x.guest.nonce → run = x.guest.nonce := by
  intro s
  have start := orderly_opening unused empty unanswered clock queued distinct
  have orderly : Orderly c s := orderly_after conduct start moves
  have guests_eq : s.visitors.map (·.guest) = guests := by
    have kept := guests_after conduct start moves
    rw [kept]
    exact (List.map_map ..).trans (List.map_id guests)
  refine ⟨orderly.calm.unused, orderly.calm.empty, guests_eq, fun command handed => ?_, fun x hx => ?_⟩
  · have own := orderly.own command handed
    rw [← guests_eq, List.map_map]
    exact own
  · obtain ⟨once, never⟩ := (orderly.runs x hx).handed
    refine ⟨once, never, fun answer ended responded => ?_⟩
    obtain ⟨nonce, replied⟩ := (orderly.runs x hx).answered ended responded
    exact ⟨nonce, replied, fun run uses => orderly.calm.own run _ uses⟩

def adding : Guest where
  runner :=
    { shortcut :=
        { identifier := "addTask", title := "Add task", phrases := []
          parameters := [{ name := "title", title := "Title", type := .text }] }
      asks := true }
  values := .empty
  nonce := "N1"
  answers _ := .text "Buy milk"
  encoded := [("title", .text "Buy milk")]
  distinct := by decide
  encodable := rfl

def starting : Guest where
  runner := { shortcut := { identifier := "startTimer", title := "Start timer", phrases := [] } }
  values := .empty
  nonce := "N2"
  answers _ := .null
  encoded := []
  distinct := by decide
  encodable := rfl

def replying : Conduct where
  receive _ command := { replies := [(command.nonce, some command.identifier)] }

/-- One run waits for the user while the other one runs to its end. -/
def crossing : List Move :=
  [.turn 0 (.ok true), .turn 1 (.ok true), .turn 0 (.ok true)]

theorem runs_never_mix_crossing :
    NoCommand {} ∧ NoParameters {} ∧ (∀ nonce, ({} : Contents).get? (replyEntry nonce) = none) ∧
      ([adding, starting].map (·.nonce)).Nodup ∧
      let s := (Gathering.opening {} (fun _ => 0.0) false [adding, starting]).after replying crossing
      NoCommand s.hall.around.contents ∧ NoParameters s.hall.around.contents ∧
        s.visitors.map (·.guest) = [adding, starting] ∧
        (∀ command ∈ handed s.hall, command.nonce ∈ ["N1", "N2"]) ∧
        ∀ x ∈ s.visitors,
          (Published x.guest.nonce s.hall → ∃ time,
            handedTo x.guest.nonce s.hall = [(x.guest.draft {} time).command x.guest.encoded]) ∧
          (¬ Published x.guest.nonce s.hall → handedTo x.guest.nonce s.hall = []) ∧
          ∀ answer, x.rest = .done (.ok answer) → answer.outcome = .responded →
            answer.nonce = some x.guest.nonce ∧
              (x.guest.nonce, answer.dialog) ∈ s.hall.around.replies ∧
              ∀ run, UsesReply s.hall.around.asked run x.guest.nonce → run = x.guest.nonce :=
  ⟨fun _ _ => rfl, fun _ _ => rfl, fun _ => rfl, by decide,
    runs_never_mix (fun _ _ => rfl) (fun _ _ => rfl) (fun _ => rfl) (by decide) replying
      (fun _ => 0.0) false crossing⟩

example : (handed ((Gathering.opening {} (fun _ => 0.0) false [adding, starting]).after replying
    crossing).hall).map (fun command => (command.nonce, command.identifier)) =
      [("N2", "startTimer"), ("N1", "addTask")] := by
  decide +kernel

end ShortcutRelay.Company
