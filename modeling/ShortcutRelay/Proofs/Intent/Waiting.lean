import Mathlib.Data.Nat.Find
import ShortcutRelay.Proofs.Decimal.Order
import ShortcutRelay.Proofs.Intent.Journal
import ShortcutRelay.Proofs.Protocol.Key

/-!
# The wait for a reply

A wait looks after each reading of the clock that is in time and sleeps after each look that finds
nothing. So a reply is found at the first look after it was written, if there is one.

* `waitForReply` : the wait from its first reading of the clock on;
* `Circumstances.foundAt`, `Circumstances.InTime` : what a look finds, and whether there is one;
* `run_fruitless`, `run_found`, `run_unreadable`, `run_late` : one look;
* `run_waitForReply` : the looks that find nothing;
* `LastLook`, `WaitEnds`, `wait_ends_exactly` : how a wait ends, and all that it does until then;
* `Schedule` : a clock that goes on by the sleeps, and what others write while it does;
* `reply_returned_iff_looked_after` : which replies are returned.
-/

namespace ShortcutRelay.Intent
open Protocol

/-- The wait for a reply, timed from its first reading of the clock. -/
def waitForReply (nonce : String) (timeout interval : Float) (looks : Nat) :
    IntentM (Option String) := do
  let start : Float ← request .clock
  awaitReply nonce timeout interval start looks

/-- A scalar has a text, or a number with too many digits. -/
theorem storedText_ne_none {v : Document} (h : v.isScalar = true) : v.storedText ≠ .ok none := by
  cases v with
  | int n =>
    rw [Document.storedText]
    cases wholeText n <;> rintro ⟨⟩
  | text | bool | float => rintro ⟨⟩
  | _ => cases h

namespace Circumstances

variable (s : Circumstances) (c : Contents) (nonce : String) (timeout interval : Float)

/-- What a look finds if no look before it found anything. The first look has number 0. -/
def foundAt : Nat → Contents
  | 0 => c
  | k + 1 => s.asleep k (foundAt k)

/-- At the reading of the clock before a look the time is not over. Reading 0 is the beginning. -/
def InTime (k : Nat) : Prop :=
  s.reading (k + 1) - s.reading 0 < timeout

instance (k : Nat) : Decidable (s.InTime timeout k) :=
  inferInstanceAs (Decidable (_ < _))

/-- The requests of the first looks, none of which found anything: a reading of the clock, the look
itself and a sleep for each of them. -/
def fruitless : Nat → List (IntentRequest × Contents)
  | 0 => []
  | k + 1 => fruitless k ++ [(.clock, s.foundAt c k),
      (.store (.text (replyEntry nonce)), s.foundAt c k), (.sleep interval, s.foundAt c k)]

def waiting (k : Nat) : Journal where
  contents := s.foundAt c k
  entries := (.clock, c) :: s.fruitless c nonce interval k

/-- The journal of a wait that found its reply at a look. -/
def taking (k : Nat) : Journal where
  contents := (s.foundAt c k).erase (replyEntry nonce)
  entries := (s.waiting c nonce interval k).entries ++ [(.clock, s.foundAt c k),
    (.store (.text (replyEntry nonce)), s.foundAt c k),
    (.store (.remove (replyEntry nonce)), s.foundAt c k)]

/-- The journal of a wait that ended with a reading of the clock. -/
def ending (k : Nat) : Journal :=
  (s.waiting c nonce interval k).note .clock (s.foundAt c k)

/-- The journal of a wait up to a look that removes nothing. -/
def looking (k : Nat) : Journal :=
  (s.ending c nonce interval k).note (.store (.text (replyEntry nonce))) (s.foundAt c k)

variable {s c nonce timeout interval} {k looks : Nat}

theorem earlier_clock_waiting (k : Nat) : (s.waiting c nonce interval k).earlier .clock = k + 1 := by
  unfold Journal.earlier waiting
  induction k with
  | zero => rfl
  | succ k ih =>
    rw [fruitless, ← List.cons_append, List.countP_append, ih]
    rfl

theorem earlier_sleep_waiting (k : Nat) :
    (s.waiting c nonce interval k).earlier (.sleep interval) = k := by
  unfold Journal.earlier waiting
  induction k with
  | zero => rfl
  | succ k ih =>
    rw [fruitless, ← List.cons_append, List.countP_append, ih]
    rfl

theorem earlier_sleep_ending (k : Nat) :
    (s.ending c nonce interval k).earlier (.sleep interval) = k := by
  rw [Journal.earlier, ending, Journal.note, List.countP_append]
  exact earlier_sleep_waiting k

theorem earlier_sleep_looking (k : Nat) :
    (s.looking c nonce interval k).earlier (.sleep interval) = k := by
  rw [Journal.earlier, looking, Journal.note, List.countP_append]
  exact earlier_sleep_ending k

theorem earlier_sleep_taking (k : Nat) :
    (s.taking c nonce interval k).earlier (.sleep interval) = k := by
  rw [Journal.earlier, taking, List.countP_append]
  exact earlier_sleep_waiting k

/-- Others go on during the sleep after a look that found nothing. -/
theorem note_sleep (k : Nat) :
    let j := s.looking c nonce interval k
    j.note (.sleep interval) (s.answerTo j (.sleep interval)).2 = s.waiting c nonce interval (k + 1) := by
  intro j
  have entries : j.entries = (s.waiting c nonce interval k).entries ++ [(.clock, s.foundAt c k),
      (.store (.text (replyEntry nonce)), s.foundAt c k)] := List.append_assoc ..
  change j.note (.sleep interval) (s.asleep (j.earlier (.sleep interval)) (s.foundAt c k)) = _
  rw [earlier_sleep_looking, Journal.note, entries, List.append_assoc]
  rfl

/-! ## One look -/

theorem run_clock_waiting {β : Type} (k : Nat) (f : Float → IntentM β) :
    s.run (request .clock >>= f) (s.waiting c nonce interval k) =
      s.run (f (s.reading (k + 1))) (s.ending c nonce interval k) := by
  have asked := run_request_bind (s := s) (j := s.waiting c nonce interval k) .clock f
  refine asked.trans ?_
  change s.run (f (s.reading ((s.waiting c nonce interval k).earlier .clock))) _ = _
  rw [earlier_clock_waiting]
  rfl

/-- A look that finds the reply removes it. -/
theorem run_takeReply_some {j : Journal} {text : String}
    (found : textAt j.contents (replyEntry nonce) = .ok (some text)) :
    s.run (onStore (takeReply nonce)) j = (.ok (some text),
      { contents := j.contents.erase (replyEntry nonce)
        entries := j.entries ++ [(.store (.text (replyEntry nonce)), j.contents),
          (.store (.remove (replyEntry nonce)), j.contents)] }) := by
  have result : runOn (takeReply nonce) j.contents =
      (.ok (some text), j.contents.erase (replyEntry nonce)) := by
    unfold takeReply
    rw [runOn_bind_ok (runOn_text_ok found)]
    exact runOn_bind_ok (runOn_remove ..) _
  have uses : usesOf (takeReply nonce).run j.contents =
      [(.store (.text (replyEntry nonce)), j.contents),
        (.store (.remove (replyEntry nonce)), j.contents)] := by
    unfold takeReply
    rw [usesOf_text_bind found]
    rfl
  rw [run_onStore, result, uses]

/-- A look that finds nothing changes nothing. -/
theorem run_takeReply_none {j : Journal} (nothing : textAt j.contents (replyEntry nonce) = .ok none) :
    s.run (onStore (takeReply nonce)) j =
      (.ok none, j.note (.store (.text (replyEntry nonce))) j.contents) := by
  have result : runOn (takeReply nonce) j.contents = (.ok none, j.contents) := by
    unfold takeReply
    rw [runOn_bind_ok (runOn_text_ok nothing)]
    rfl
  have uses : usesOf (takeReply nonce).run j.contents =
      [(.store (.text (replyEntry nonce)), j.contents)] := by
    unfold takeReply
    rw [usesOf_text_bind nothing]
    rfl
  rw [run_onStore, result, uses, Journal.note]

/-- A look that finds a number with too many digits fails and changes nothing. -/
theorem run_takeReply_error {j : Journal} {e : NumberError}
    (unreadable : textAt j.contents (replyEntry nonce) = .error e) :
    s.run (onStore (takeReply nonce)) j =
      (.error (.number e), j.note (.store (.text (replyEntry nonce))) j.contents) := by
  have result : runOn (takeReply nonce) j.contents = (.error (.number e), j.contents) := by
    unfold takeReply
    rw [runOn_bind, runOn_text, unreadable]
    rfl
  have uses : usesOf (takeReply nonce).run j.contents =
      [(.store (.text (replyEntry nonce)), j.contents)] := by
    unfold takeReply
    rw [usesOf_text_bind_error unreadable]
  rw [run_onStore, result, uses, Journal.note]

/-- Without time there is no look. -/
theorem run_late (late : ¬ s.InTime timeout k) :
    s.run (awaitReply nonce timeout interval (s.reading 0) (looks + 1)) (s.waiting c nonce interval k) =
      (.ok none, s.ending c nonce interval k) := by
  rw [InTime] at late
  unfold awaitReply
  refine (run_clock_waiting k _).trans ?_
  rw [if_neg late]
  rfl

/-- A reply that a look finds is taken. -/
theorem run_found (inTime : s.InTime timeout k) {text : String}
    (found : textAt (s.foundAt c k) (replyEntry nonce) = .ok (some text)) :
    s.run (awaitReply nonce timeout interval (s.reading 0) (looks + 1)) (s.waiting c nonce interval k) =
      (.ok (some text), s.taking c nonce interval k) := by
  have taken := run_takeReply_some (s := s) (j := s.ending c nonce interval k) found
  rw [InTime] at inTime
  unfold awaitReply
  refine (run_clock_waiting k _).trans ?_
  rw [if_pos inTime]
  refine (run_bind_ok taken _).trans ?_
  rw [run_pure, taking, ending, Journal.note, List.append_assoc]
  rfl

/-- A wait ends with a look that fails. -/
theorem run_unreadable (inTime : s.InTime timeout k) {e : NumberError}
    (unreadable : textAt (s.foundAt c k) (replyEntry nonce) = .error e) :
    s.run (awaitReply nonce timeout interval (s.reading 0) (looks + 1)) (s.waiting c nonce interval k) =
      (.error (.number e), s.looking c nonce interval k) := by
  have failed := run_takeReply_error (s := s) (j := s.ending c nonce interval k) unreadable
  rw [InTime] at inTime
  unfold awaitReply
  refine (run_clock_waiting k _).trans ?_
  rw [if_pos inTime]
  exact run_bind_error failed _

/-- After a look that finds nothing the wait sleeps, and others go on. -/
theorem run_fruitless (inTime : s.InTime timeout k)
    (nothing : textAt (s.foundAt c k) (replyEntry nonce) = .ok none) :
    s.run (awaitReply nonce timeout interval (s.reading 0) (looks + 1)) (s.waiting c nonce interval k) =
      s.run (awaitReply nonce timeout interval (s.reading 0) looks)
        (s.waiting c nonce interval (k + 1)) := by
  have taken := run_takeReply_none (s := s) (j := s.ending c nonce interval k) nothing
  rw [InTime] at inTime
  rw [awaitReply]
  refine (run_clock_waiting k _).trans ?_
  rw [if_pos inTime]
  refine (run_bind_ok taken _).trans ?_
  refine (run_request_bind (.sleep interval) _).trans ?_
  exact congrArg _ (note_sleep k)

/-! ## A whole wait -/

/-- The first looks of a wait, none of which finds anything. -/
theorem run_awaitReply_add (before : ∀ i < k,
      s.InTime timeout i ∧ textAt (s.foundAt c i) (replyEntry nonce) = .ok none) :
    s.run (awaitReply nonce timeout interval (s.reading 0) (looks + k)) (s.waiting c nonce interval 0) =
      s.run (awaitReply nonce timeout interval (s.reading 0) looks) (s.waiting c nonce interval k) := by
  induction k generalizing looks with
  | zero => rfl
  | succ k ih =>
    have last := before k (Nat.lt_succ_self k)
    rw [← run_fruitless last.1 last.2, ← ih fun i hi => before i (Nat.lt_succ_of_lt hi),
      Nat.add_right_comm, Nat.add_assoc]

theorem run_waitForReply (before : ∀ i < k,
      s.InTime timeout i ∧ textAt (s.foundAt c i) (replyEntry nonce) = .ok none) (more : k < looks) :
    ∃ rest, s.run (waitForReply nonce timeout interval looks) { contents := c } =
      s.run (awaitReply nonce timeout interval (s.reading 0) (rest + 1))
        (s.waiting c nonce interval k) := by
  obtain ⟨rest, rfl⟩ := Nat.exists_eq_add_of_lt more
  refine ⟨rest, ?_⟩
  rw [← run_awaitReply_add before, show rest + 1 + k = k + rest + 1 by omega]
  rfl

variable (s c nonce timeout interval) in
/-- How a wait ends with the look of a number: the look finds a reply, or a number with too many digits
in its place, or there is no such look, since it would be late. -/
inductive LastLook (n : Nat) : Except Failure (Option String) → Journal → Prop
  | found (inTime : s.InTime timeout n) {text : String}
      (there : textAt (s.foundAt c n) (replyEntry nonce) = .ok (some text)) :
      LastLook n (.ok (some text)) (s.taking c nonce interval n)
  | unreadable (inTime : s.InTime timeout n)
      (there : textAt (s.foundAt c n) (replyEntry nonce) = .error .tooManyDigits) :
      LastLook n (.error (.number .tooManyDigits)) (s.looking c nonce interval n)
  | late (tooLate : ¬ s.InTime timeout n) : LastLook n (.ok none) (s.ending c nonce interval n)

variable (s c nonce timeout interval) in
/-- A wait ends with the look of a number. The looks before found nothing. -/
structure WaitEnds (n : Nat) : Prop where
  fruitless : ∀ i < n, s.InTime timeout i ∧ textAt (s.foundAt c i) (replyEntry nonce) = .ok none
  ends : ∃ result j, s.LastLook c nonce timeout interval n result j ∧ ∀ looks, n < looks →
    s.run (waitForReply nonce timeout interval looks) { contents := c } = (result, j)

/-- A wait ends as soon as a look finds something or comes too late. -/
theorem exists_waitEnds
    (stops : ¬ (s.InTime timeout k ∧ textAt (s.foundAt c k) (replyEntry nonce) = .ok none)) :
    ∃ n ≤ k, s.WaitEnds c nonce timeout interval n := by
  classical
  have stop : ∃ n, ¬ (s.InTime timeout n ∧ textAt (s.foundAt c n) (replyEntry nonce) = .ok none) :=
    ⟨k, stops⟩
  let n := Nat.find stop
  have before : ∀ i < n, s.InTime timeout i ∧ textAt (s.foundAt c i) (replyEntry nonce) = .ok none :=
    fun i hi => not_not.mp (Nat.find_min stop hi)
  refine ⟨n, Nat.find_min' stop stops, before, ?_⟩
  by_cases inTime : s.InTime timeout n
  · have something := fun absent => Nat.find_spec stop ⟨inTime, absent⟩
    match there : textAt (s.foundAt c n) (replyEntry nonce) with
    | .ok none => exact absurd there something
    | .ok (some text) =>
      refine ⟨_, _, .found inTime there, fun looks more => ?_⟩
      obtain ⟨rest, unfolded⟩ := run_waitForReply before more
      rw [unfolded, run_found inTime there]
    | .error e =>
      obtain rfl := textAt_error there
      refine ⟨_, _, .unreadable inTime there, fun looks more => ?_⟩
      obtain ⟨rest, unfolded⟩ := run_waitForReply before more
      rw [unfolded, run_unreadable inTime there]
  · refine ⟨_, _, .late inTime, fun looks more => ?_⟩
    obtain ⟨rest, unfolded⟩ := run_waitForReply before more
    rw [unfolded, run_late inTime]

/-- A scalar is found, whether it has a text or too many digits. -/
theorem textAt_eq_none_iff {d : Contents} {key : String}
    (scalar : ∀ v, d.get? key = some v → v.isScalar = true) :
    textAt d key = .ok none ↔ d.get? key = none := by
  cases found : d.get? key with
  | none => exact iff_of_true (textAt_of_none found) rfl
  | some v =>
    rw [textAt_of_get? found]
    exact iff_of_false (storedText_ne_none (scalar v found)) nofun

end Circumstances

open Circumstances

/-- Whatever the clock shows and whatever others do during the sleeps: a wait ends with the first look
that finds the reply to its command, or with the first reading that is not in time, and gives what that
look found. Only a number with too many digits in the place of the reply makes it fail instead. It looks
once for each reading in time and sleeps once for each look that finds nothing. It removes the reply that
it gives and touches nothing else. -/
theorem wait_ends_exactly (s : Circumstances) (c : Contents) (nonce : String) (timeout interval : Float)
    (reaches : ∃ k, ¬ s.InTime timeout k) :
    ∃ n, s.WaitEnds c nonce timeout interval n ∧
      (¬ s.InTime timeout n → (s.reading (n + 1) - s.reading 0).isNaN = false →
        timeout.isNaN = false → timeout ≤ s.reading (n + 1) - s.reading 0) ∧
      (s.taking c nonce interval n).earlier (.sleep interval) = n ∧
      (s.ending c nonce interval n).earlier (.sleep interval) = n ∧
      (s.looking c nonce interval n).earlier (.sleep interval) = n ∧
      (∀ key, (s.taking c nonce interval n).contents.get? key =
        if key = replyEntry nonce then none else (s.foundAt c n).get? key) ∧
      (s.ending c nonce interval n).contents = s.foundAt c n ∧
      (s.looking c nonce interval n).contents = s.foundAt c n ∧
      (∀ other, other ≠ nonce → replyEntry other ≠ replyEntry nonce) ∧
      ∀ i, ((∀ v, (s.foundAt c i).get? (replyEntry nonce) = some v → v.isScalar = true) →
          (textAt (s.foundAt c i) (replyEntry nonce) = .ok none ↔
            (s.foundAt c i).get? (replyEntry nonce) = none)) ∧
        (textAt (s.foundAt c i) (replyEntry nonce) = .error .tooManyDigits ↔
          ∃ n : Int, (s.foundAt c i).get? (replyEntry nonce) = some (.int n) ∧
            Decimal.isWritable n = false) := by
  obtain ⟨k, late⟩ := reaches
  obtain ⟨n, -, ends⟩ : ∃ n ≤ k, s.WaitEnds c nonce timeout interval n :=
    exists_waitEnds fun look => late look.1
  refine ⟨n, ends, fun late number limit => Decimal.le_of_not_lt number limit late, ?_, ?_, ?_, ?_, rfl, rfl,
    fun other => mt (replyEntry_injective ·), fun i => ⟨textAt_eq_none_iff, textAt_eq_error_iff⟩⟩
  · exact earlier_sleep_taking n
  · exact earlier_sleep_ending n
  · exact earlier_sleep_looking n
  · exact fun key => OrderedMap.get?_erase ..

/-- Others write a reply to another command during the first sleep, and the awaited one during the
second. -/
def busyApplication : Circumstances where
  reading n := ([0.0, 0.0, 2.0, 4.0] : List Float).getD n 6.0
  asleep
    | 0, c => c.put (replyEntry "N2") (.text "Started")
    | 1, c => c.put (replyEntry "N1") (.text "Done")
    | _, c => c

theorem wait_ends_exactly_busyApplication : (∃ k, ¬ busyApplication.InTime 5.0 k) ∧
    busyApplication.run (waitForReply "N1" 5.0 2.0 10) { contents := {} } =
      (.ok (some "Done"), busyApplication.taking {} "N1" 2.0 2) := by
  have reaches : ∃ k, ¬ busyApplication.InTime 5.0 k := ⟨3, by decide⟩
  refine ⟨reaches, ?_⟩
  obtain ⟨n, ends, -⟩ := wait_ends_exactly busyApplication {} "N1" 5.0 2.0 reaches
  have found : textAt (busyApplication.foundAt {} 2) (replyEntry "N1") = .ok (some "Done") := by decide
  have waits : ∀ i < 2, textAt (busyApplication.foundAt {} i) (replyEntry "N1") = .ok none := by decide
  have inTime : ∀ i ≤ 2, busyApplication.InTime 5.0 i := by decide
  have notAfter : n ≤ 2 := by
    by_contra after
    have nothing := (ends.fruitless 2 (by omega)).2
    rw [found] at nothing
    cases nothing
  have notBefore : textAt (busyApplication.foundAt {} n) (replyEntry "N1") ≠ .ok none → n = 2 := by
    intro something
    by_contra other
    exact something (waits n (by omega))
  obtain ⟨result, j, last, run⟩ := ends.ends
  cases last with
  | found _ there =>
    obtain rfl := notBefore (there ▸ nofun)
    rw [found] at there
    cases there
    exact run 10 (by decide)
  | unreadable _ there =>
    obtain rfl := notBefore (there ▸ nofun)
    rw [found] at there
    cases there
  | late tooLate => exact absurd (inTime n notAfter) tooLate

/-- A number with too many digits in the place of the reply makes the wait fail. -/
theorem long_number_fails_wait :
    let c := ({} : Contents).put (replyEntry "N1") (.int (10 ^ 4300))
    busyApplication.run (waitForReply "N1" 5.0 2.0 10) { contents := c } =
        (.error (.number .tooManyDigits), busyApplication.looking c "N1" 2.0 0) ∧
      ¬ ∀ (s : Circumstances) (c : Contents) (nonce : String) (timeout interval : Float) (looks : Nat),
        (∃ k < looks, ¬ s.InTime timeout k) →
          (∀ v, c.get? (replyEntry nonce) = some v → v.isScalar = true) →
          ∃ result j, s.run (waitForReply nonce timeout interval looks) { contents := c } =
            (.ok result, j) := by
  intro c
  have unreadable : textAt (busyApplication.foundAt c 0) (replyEntry "N1") = .error .tooManyDigits :=
    textAt_eq_error_iff.mpr ⟨10 ^ 4300, OrderedMap.get?_put_self .., by decide +kernel⟩
  have run : busyApplication.run (waitForReply "N1" 5.0 2.0 10) { contents := c } =
      (.error (.number .tooManyDigits), busyApplication.looking c "N1" 2.0 0) := by
    obtain ⟨rest, unfolded⟩ : ∃ rest,
        busyApplication.run (waitForReply "N1" 5.0 2.0 10) { contents := c } =
          busyApplication.run (awaitReply "N1" 5.0 2.0 (busyApplication.reading 0) (rest + 1))
            (busyApplication.waiting c "N1" 2.0 0) := run_waitForReply nofun (by decide)
    rw [unfolded, run_unreadable (by decide) unreadable]
  refine ⟨run, fun claim => ?_⟩
  have scalar : ∀ v, c.get? (replyEntry "N1") = some v → v.isScalar = true := by
    intro v there
    rw [OrderedMap.get?_put_self] at there
    cases there
    rfl
  obtain ⟨result, j, ended⟩ := claim busyApplication c "N1" 5.0 2.0 10 ⟨3, by decide, by decide⟩
    scalar
  rw [run] at ended
  cases ended

/-! ## Replies in time -/

/-- A write of somebody else at some instant. -/
structure Write where
  time : Float
  key : String
  value : Document
  scalar : value.isScalar = true

def written (ws : List Write) (c : Contents) : Contents :=
  ws.foldl (fun c w => c.put w.key w.value) c

def afterSleeps (start interval : Float) : Nat → Float
  | 0 => start
  | k + 1 => afterSleeps start interval k + interval

/-- A clock that goes on by the sleeps only, and what others write during each of them. -/
structure Schedule where
  start : Float
  interval : Float
  writes : Nat → List Write
  within : ∀ k, ∀ w ∈ writes k,
    afterSleeps start interval k ≤ w.time ∧ w.time ≤ afterSleeps start interval (k + 1)

/-- The readings of the clock, of which the first two lie before the first sleep, and the store after
each sleep. -/
def Schedule.circumstances (p : Schedule) : Circumstances where
  reading n := afterSleeps p.start p.interval (n - 1)
  asleep k := written (p.writes k)

theorem textAt_written_of_present {key : String} (ws : List Write) {c : Contents}
    (there : textAt c key ≠ .ok none) : textAt (written ws c) key ≠ .ok none := by
  induction ws generalizing c with
  | nil => exact there
  | cons w ws ih =>
    refine ih ?_
    rw [textAt_put]
    split
    · exact storedText_ne_none w.scalar
    · exact there

theorem textAt_written {ws : List Write} {w : Write} (mem : w ∈ ws) (c : Contents) :
    textAt (written ws c) w.key ≠ .ok none := by
  obtain ⟨before, after, rfl⟩ := List.append_of_mem mem
  rw [written, List.foldl_append]
  refine textAt_written_of_present after ?_
  rw [textAt_put, if_pos rfl]
  exact storedText_ne_none w.scalar

/-- A reply that is written during a sleep is found where the look after that sleep, and all looks before
it, are in time, or where an earlier look found something. What is found is returned, unless it is a number
with too many digits. Otherwise the wait gives nothing, and a reply that was written during its last sleep
is still in the store. -/
theorem reply_returned_iff_looked_after (p : Schedule) (c : Contents) (nonce : String) (timeout : Float)
    {k looks : Nat} {w : Write} (mem : w ∈ p.writes k) (reply : w.key = replyEntry nonce)
    (more : k + 1 < looks) :
    ∃ result j, p.circumstances.run (waitForReply nonce timeout p.interval looks) { contents := c } =
        (result, j) ∧
      (result ≠ .ok none ↔ (∀ i ≤ k + 1, p.circumstances.InTime timeout i) ∨
        ∃ i ≤ k, (∀ m ≤ i, p.circumstances.InTime timeout m) ∧
          textAt (p.circumstances.foundAt c i) (replyEntry nonce) ≠ .ok none) ∧
      (∀ e, result = .error e → e = .number .tooManyDigits ∧
        ∃ i ≤ k + 1, ∃ n, (p.circumstances.foundAt c i).get? (replyEntry nonce) = some (.int n) ∧
          Decimal.isWritable n = false) ∧
      (result = .ok none → (∀ i ≤ k, p.circumstances.InTime timeout i) →
        textAt j.contents (replyEntry nonce) ≠ .ok none) := by
  have arrived : textAt (p.circumstances.foundAt c (k + 1)) (replyEntry nonce) ≠ .ok none :=
    reply ▸ textAt_written mem _
  obtain ⟨n, here, waits, result, j, last, run⟩ : ∃ n ≤ k + 1,
      p.circumstances.WaitEnds c nonce timeout p.interval n :=
    exists_waitEnds fun look => arrived look.2
  have looked (inTime : p.circumstances.InTime timeout n)
      (there : textAt (p.circumstances.foundAt c n) (replyEntry nonce) ≠ .ok none) :
      (∀ i ≤ k + 1, p.circumstances.InTime timeout i) ∨
        ∃ i ≤ k, (∀ m ≤ i, p.circumstances.InTime timeout m) ∧
          textAt (p.circumstances.foundAt c i) (replyEntry nonce) ≠ .ok none := by
    have allInTime : ∀ m ≤ n, p.circumstances.InTime timeout m := fun m hm =>
      (Nat.lt_or_eq_of_le hm).elim (fun before => (waits m before).1) fun same => same ▸ inTime
    rcases Nat.lt_or_eq_of_le here with before | rfl
    · exact .inr ⟨n, Nat.le_of_lt_succ before, allInTime, there⟩
    · exact .inl allInTime
  refine ⟨result, j, run looks (Nat.lt_of_le_of_lt here more), ?_⟩
  cases last with
  | found inTime there =>
    exact ⟨iff_of_true nofun (looked inTime (there ▸ nofun)), nofun, nofun⟩
  | unreadable inTime there =>
    refine ⟨iff_of_true nofun (looked inTime (there ▸ nofun)), fun e failed => ?_, nofun⟩
    cases failed
    exact ⟨rfl, n, here, textAt_eq_error_iff.mp there⟩
  | late tooLate =>
    refine ⟨iff_of_false (fun h => h rfl) ?_, nofun, ?_⟩
    · rintro (allInTime | ⟨i, hi, allInTime, there⟩)
      · exact tooLate (allInTime n here)
      · rcases Nat.lt_or_ge i n with before | after
        · exact there (waits i before).2
        · exact tooLate (allInTime n after)
    · intro _ slept
      have last : n = k + 1 := by
        by_contra other
        exact tooLate (slept n (by omega))
      rw [last]
      exact arrived

/-- A reply is written a quarter of a second after the beginning of a wait that sleeps for a second. -/
def earlyReply : Schedule where
  start := 0.0
  interval := 1.0
  writes
    | 0 => [⟨0.25, replyEntry "N1", .text "Done", rfl⟩]
    | _ => []
  within
    | 0 => by decide
    | _ + 1 => nofun

theorem reply_returned_iff_looked_after_earlyReply :
    (∃ j, earlyReply.circumstances.run (waitForReply "N1" 0.5 1.0 10) { contents := {} } =
      (.ok none, j) ∧ textAt j.contents (replyEntry "N1") ≠ .ok none) ∧
    ∃ text j, earlyReply.circumstances.run (waitForReply "N1" 1.5 1.0 10) { contents := {} } =
      (.ok (some text), j) := by
  have mem : ⟨0.25, replyEntry "N1", .text "Done", rfl⟩ ∈ earlyReply.writes 0 :=
    List.mem_singleton_self _
  constructor
  · obtain ⟨result, j, run, returned, -, kept⟩ :=
      reply_returned_iff_looked_after earlyReply {} "N1" 0.5 mem rfl (show 0 + 1 < 10 by decide)
    have nothing : result = .ok none := by
      by_contra given
      rcases returned.mp given with inTime | ⟨i, hi, -, there⟩
      · exact absurd (inTime 1 (Nat.le_refl 1)) (by decide)
      · obtain rfl := Nat.le_zero.mp hi
        exact there rfl
    have slept : ∀ i ≤ 0, earlyReply.circumstances.InTime 0.5 i := by decide
    exact ⟨j, nothing ▸ run, kept nothing slept⟩
  · obtain ⟨result, j, run, returned, fails, -⟩ :=
      reply_returned_iff_looked_after earlyReply {} "N1" 1.5 mem rfl (show 0 + 1 < 10 by decide)
    have inTime : ∀ i ≤ 1, earlyReply.circumstances.InTime 1.5 i := by decide
    have given := returned.mpr (.inl inTime)
    have texts : ∀ i ≤ 1, ∀ n : Int,
        (earlyReply.circumstances.foundAt {} i).get? (replyEntry "N1") ≠ some (.int n) := by
      intro i hi n there
      interval_cases i <;> cases there
    match result, given, fails with
    | .ok (some text), _, _ => exact ⟨text, j, run⟩
    | .ok none, given, _ => exact absurd rfl given
    | .error e, _, fails =>
      obtain ⟨-, i, hi, n, there, -⟩ := fails e rfl
      exact absurd there (texts i hi n)

/-- A reply that arrives in time can be lost: nobody looks for it after the last sleep. -/
theorem reply_in_last_sleep_is_lost :
    ¬ ∀ (p : Schedule) (c : Contents) (nonce : String) (timeout : Float) (k looks : Nat),
      ∀ w ∈ p.writes k, 0.0 < timeout → 0.0 < p.interval → w.key = replyEntry nonce →
        w.time - p.start < timeout → k + 1 < looks → ∃ text j,
          p.circumstances.run (waitForReply nonce timeout p.interval looks) { contents := c } =
            (.ok (some text), j) := by
  intro claim
  obtain ⟨text, j, run⟩ := claim earlyReply {} "N1" 0.5 0 2 _ (List.mem_singleton_self _)
    (by decide) (by decide) rfl (by decide) (by decide)
  have before : ∀ i < 1, earlyReply.circumstances.InTime 0.5 i ∧
      textAt (earlyReply.circumstances.foundAt {} i) (replyEntry "N1") = .ok none := by decide
  have late : ¬ earlyReply.circumstances.InTime 0.5 1 := by decide
  obtain ⟨rest, unfolded⟩ := run_waitForReply before (show 1 < 2 by decide)
  rw [unfolded, run_late late] at run
  cases run

end ShortcutRelay.Intent
