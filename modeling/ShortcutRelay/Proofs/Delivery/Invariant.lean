import ShortcutRelay.Proofs.Delivery.Moves

/-!
# What no event breaks no run breaks

* `Kept Q` : no single event breaks a property of accounts: an intent makes a request, a command is
  collected and handed over, a command is published or begun;
* `keeps_attend`, `keeps_step`, `keeps_react` : then no look for a command, no move and no callback
  breaks it;
* `holds_after` : nor does any run.
-/

namespace ShortcutRelay.Delivery
open Protocol App

variable {κ : Type}

/-- A property of accounts that no single event breaks. -/
structure Kept (Q : Account → Prop) : Prop where
  advance : ∀ a i, Q a → Q { a with traffic := a.traffic.advance i }
  collect : ∀ a t command cleared, Q a → Collected a.traffic (.ok (some (command, cleared))) t →
    Q (Account.plus { a with traffic := t } command.nonce)
  publish : ∀ a (d : Draft) c, Q a → d.nonce ∉ a.used → runOn d.write a.traffic.contents = (.ok (), c) →
    Q { a with
      traffic := { a.traffic with contents := c }
      used := d.nonce :: a.used
      published := a.published ++ [d] }
  abort : ∀ a (d : Draft) e c, Q a → d.nonce ∉ a.used → runOn d.write a.traffic.contents = (.error e, c) →
    Q { a with
      traffic := { a.traffic with contents := c }
      used := d.nonce :: a.used }

/-- The store is not held, and nobody but custom callbacks is handed anything. -/
structure Tidy (w : World Workplace κ) : Prop where
  free : w.around.locked = false
  callback : ∀ b, w.bridge = some b → b.callback ≠ some .manager
  queue : ∀ task ∈ w.ready, ∃ code command, task = .deliver (.custom code) command

/-- A world with an account of some kind. -/
def Holds (Q : Account → Prop) (w : World Workplace κ) : Prop :=
  Tidy w ∧ Q (account w)

/-- A world that is to hand over a nonce once more. -/
def Owes (Q : Account → Prop) (nonce : String) (w : World Workplace κ) : Prop :=
  Tidy w ∧ Q ((account w).plus nonce)

variable {Q : Account → Prop}

theorem leads_kept (hQ : Kept Q) {a : Account} {t : Traffic} (h : Leads a.traffic t) (ha : Q a) :
    Q { a with traffic := t } :=
  leads_keeps (Q := fun t => Q { a with traffic := t })
    (fun t i ht => hQ.advance { a with traffic := t } i ht) h ha

theorem collected_kept (hQ : Kept Q) {a : Account} {t : Traffic}
    {result : Except Failure (Option (Command × Bool))} (h : Collected a.traffic result t)
    (nothing : ∀ c cleared, result ≠ .ok (some (c, cleared))) (ha : Q a) :
    Q { a with traffic := t } := by
  cases h with
  | failed e others => exact leads_kept hQ others ha
  | nothing first second others missing =>
    exact leads_kept hQ (leads_trans first (leads_trans second others)) ha
  | replaced => exact absurd rfl (nothing _ _)
  | cleared => exact absurd rfl (nothing _ _)

/-! ## What no event breaks no run breaks -/

theorem keeps_aside {f : World Workplace (List Move) → World Workplace (List Move)}
    (around : ∀ w, (f w).around = w.around) (ready : ∀ w, (f w).ready = w.ready)
    (callback : ∀ w, (∀ b, w.bridge = some b → b.callback ≠ some .manager) →
      ∀ b, (f w).bridge = some b → b.callback ≠ some .manager) :
    Keeps (Holds Q) (modify f : MoveM Unit) := by
  refine keeps_modify fun w ⟨tidy, hw⟩ => ⟨⟨?_, callback w tidy.callback, ?_⟩, ?_⟩
  · rw [around]
    exact tidy.free
  · rw [ready]
    exact tidy.queue
  · have same : account (f w) = account w := by
      rw [account, account, funext fun n => (by rw [timesHanded, timesHanded, around, ready] :
        timesHanded (f w) n = timesHanded w n), around]
    rw [same]
    exact hw

theorem keeps_change {f : Workplace → Workplace} (free : ∀ w, w.locked = false → (f w).locked = false)
    (received : ∀ w, (f w).received = w.received)
    (h : ∀ w times, Q ⟨w.traffic, w.used, w.published, times⟩ →
      Q ⟨(f w).traffic, (f w).used, (f w).published, times⟩) :
    Keeps (Holds Q) (change f) := by
  refine keeps_modify fun w ⟨tidy, hw⟩ => ⟨⟨free _ tidy.free, tidy.callback, tidy.queue⟩, ?_⟩
  have same : timesHanded { w with around := f w.around } = timesHanded w := by
    funext n
    rw [timesHanded, timesHanded, received]
  rw [account, same]
  exact h w.around _ hw

theorem keeps_report (n : Notice) : Keeps (Holds Q) (report n : MoveM Unit) :=
  keeps_aside (fun _ => rfl) (fun _ => rfl) fun _ h => h

variable {player : List Move → MoveM Unit}

/-! ## Handing over -/

theorem holds_deliver (hp : ∀ ms, Keeps (Holds Q) (player ms)) {code : List Move} {c : Command}
    {w : World Workplace (List Move)} (h : Owes Q c.nonce w) :
    Holds Q ((deliver (hostOf player) (.custom code) c).run w).2 := by
  obtain ⟨tidy, hw⟩ := h
  change Holds Q ((change _ >>= fun _ => player code).run w).2
  rw [change, Fallible.run_bind_ok (Fallible.run_modify ..)]
  refine hp code _ ⟨⟨tidy.free, tidy.callback, tidy.queue⟩, ?_⟩
  have counted : account { w with around :=
      { w.around with received := w.around.received ++ [c] } } = (account w).plus c.nonce := by
    refine account_eq_plus rfl rfl rfl fun n => ?_
    have one : [c].map Command.nonce = [c.nonce] := rfl
    simp only [timesHanded, List.map_append, List.count_append, one]
    omega
  rw [counted]
  exact hw

theorem holds_dispatch (hp : ∀ ms, Keeps (Holds Q) (player ms)) (bridge : Bridge (List Move))
    {callback : Callback (List Move)} (custom : callback ≠ .manager) {c : Command}
    {w : World Workplace (List Move)} (h : Owes Q c.nonce w) :
    Holds Q ((dispatch (hostOf player) bridge callback c).run w).2 := by
  cases callback with
  | manager => exact absurd rfl custom
  | custom code =>
    unfold dispatch
    split
    · obtain ⟨tidy, hw⟩ := h
      rw [Fallible.run_modify]
      refine ⟨⟨tidy.free, tidy.callback, ?_⟩, ?_⟩
      · intro task ht
        rcases List.mem_append.mp ht with ht | ht
        · exact tidy.queue task ht
        · exact ⟨code, c, List.mem_singleton.mp ht⟩
      · have counted : account { w with ready := w.ready ++ [Task.deliver (.custom code) c] } =
            (account w).plus c.nonce := by
          refine account_eq_plus rfl rfl rfl fun n => ?_
          have one : [Task.deliver (.custom code) c].filterMap taskNonce? = [c.nonce] := rfl
          simp only [timesHanded, List.filterMap_append, List.count_append, one]
          omega
        rw [counted]
        exact hw
    · exact holds_deliver hp h

theorem keeps_attend (hQ : Kept Q) (hp : ∀ ms, Keeps (Holds Q) (player ms)) :
    Keeps (Holds Q) (attend (hostOf player)) := by
  rintro w ⟨tidy, hw⟩
  obtain ⟨t, n, notices, ⟨⟨result, ran⟩, nothing⟩ |
    ⟨bridge, callback, command, cleared, hb, hc, collected, ran⟩⟩ :=
    attend_cases (hostOf player) tidy.free
  · rw [ran]
    refine ⟨⟨tidy.free, tidy.callback, tidy.queue⟩, ?_⟩
    rcases nothing with rfl | ⟨found, collected, nothing⟩
    · exact hw
    · exact collected_kept (a := account w) hQ collected nothing hw
  · have custom : callback ≠ .manager := fun e => tidy.callback bridge hb (e ▸ hc)
    have owed : Owes Q command.nonce (w.moved t n notices) :=
      ⟨⟨tidy.free, tidy.callback, tidy.queue⟩, hQ.collect (account w) t command cleared hw collected⟩
    have handed := holds_dispatch hp bridge custom owed
    rw [ran, handOver, Fallible.run_bind]
    generalize (dispatch (hostOf player) bridge callback command).run (w.moved t n notices) = end_
      at handed ⊢
    obtain ⟨_ | _, _⟩ := end_ <;> exact handed

theorem keeps_notifyAll (hQ : Kept Q) (hp : ∀ ms, Keeps (Holds Q) (player ms)) (name : String)
    (os : List (Observer (List Move))) :
    Keeps (Holds Q) (notifyAll (hostOf player) name os) := by
  induction os with
  | nil => exact keeps_pure 0
  | cons o os ih =>
    refine keeps_bind (keeps_tryCatch (keeps_bind ?_ fun _ => keeps_pure 1) fun e => ?_) fun served =>
      keeps_bind ih fun _ => keeps_pure _
    · cases o with
      | bridge => exact keeps_discard (keeps_attend hQ hp)
      | custom code => exact keeps_pure ()
    · exact keeps_bind (keeps_report _) fun _ => keeps_pure 0

/-! ## Moves -/

theorem keeps_update {f : Bridge (List Move) → Bridge (List Move)}
    (custom : ∀ b, b.callback ≠ some .manager → (f b).callback ≠ some .manager) :
    Keeps (Holds Q) (Bridge.update f : MoveM Unit) := by
  refine keeps_aside (fun _ => rfl) (fun _ => rfl) fun w callback b hb => ?_
  obtain ⟨old, ho, rfl⟩ := Option.map_eq_some_iff.mp hb
  exact custom old (callback old ho)

/-- Nothing is handed over by a change of who observes what. -/
theorem holds_observing {w : World Workplace (List Move)} (hw : Holds Q w)
    (center : Center (Observer (List Move))) (token : Option Nat) :
    Holds Q ((do set { w with center }; Bridge.update ({ · with token }) : MoveM Unit).run w).2 := by
  obtain ⟨tidy, hw⟩ := hw
  rw [Fallible.run_bind_ok (Fallible.run_set ..)]
  have kept : Keeps (Holds Q) (Bridge.update ({ · with token }) : MoveM Unit) :=
    keeps_update fun _ custom => custom
  exact kept _ ⟨⟨tidy.free, tidy.callback, tidy.queue⟩, hw⟩

theorem keeps_start : Keeps (Holds Q) (Bridge.start : MoveM Unit) := by
  refine keeps_get fun w hw => ?_
  split
  · exact holds_observing hw _ _
  · exact hw

theorem keeps_stop : Keeps (Holds Q) (Bridge.stop : MoveM Unit) := by
  refine keeps_get fun w hw => ?_
  split
  · exact holds_observing hw _ _
  · exact hw

theorem keeps_publish (hQ : Kept Q) (d : Draft) : Keeps (Holds Q) (change (publish · d)) := by
  have cases_of (w : Workplace) : publish w d = w ∨ d.nonce ∉ w.used ∧
      ((∃ c, runOn d.write w.traffic.contents = (.ok (), c) ∧ publish w d = { w with
          traffic := { w.traffic with contents := c }
          used := d.nonce :: w.used
          published := w.published ++ [d] }) ∨
        ∃ e c, runOn d.write w.traffic.contents = (.error e, c) ∧ publish w d = { w with
          traffic := { w.traffic with contents := c }
          used := d.nonce :: w.used }) := by
    by_cases taken : d.nonce ∈ w.used
    · exact .inl (if_pos taken)
    · refine .inr ⟨taken, ?_⟩
      rw [publish, if_neg taken]
      rcases runOn d.write w.traffic.contents with ⟨e | ⟨⟩, c⟩
      · exact .inr ⟨e, c, rfl, rfl⟩
      · exact .inl ⟨c, rfl, rfl⟩
  refine keeps_change (fun w free => ?_) (fun w => ?_) fun w times hw => ?_
  all_goals rcases cases_of w with same | ⟨taken, ⟨c, ran, eq⟩ | ⟨e, c, ran, eq⟩⟩
  · rw [same, free]
  · rw [eq, free]
  · rw [eq, free]
  · rw [same]
  · rw [eq]
  · rw [eq]
  · rw [same]
    exact hw
  · rw [eq]
    exact hQ.publish _ d c hw taken ran
  · rw [eq]
    exact hQ.abort _ d e c hw taken ran

theorem keeps_nextTurn (hp : ∀ ms, Keeps (Holds Q) (player ms)) :
    Keeps (Holds Q) (nextTurn player) := by
  refine keeps_get fun w hw => ?_
  obtain ⟨tidy, hw⟩ := hw
  split
  · next callback command rest ready =>
    rw [Fallible.run_bind_ok (Fallible.run_modify ..)]
    obtain ⟨code, _, e⟩ := tidy.queue (.deliver callback command) (ready ▸ List.mem_cons_self)
    cases e
    refine holds_deliver hp ⟨⟨tidy.free, tidy.callback, ?_⟩, ?_⟩
    · exact fun task ht => tidy.queue task (ready ▸ List.mem_cons_of_mem _ ht)
    · have counted : (account { w with ready := rest }).plus command.nonce = account w := by
        refine (account_eq_plus (v := w) (w := { w with ready := rest }) rfl rfl rfl fun n => ?_).symm
        have all : w.ready.filterMap taskNonce? = [command.nonce] ++ rest.filterMap taskNonce? := by
          rw [ready]
          rfl
        simp only [timesHanded, all, List.count_append]
        omega
      rw [counted]
      exact hw
  · exact ⟨tidy, hw⟩

theorem keeps_step (hQ : Kept Q) (hp : ∀ ms, Keeps (Holds Q) (player ms)) (m : Move) :
    Keeps (Holds Q) (step player m) := by
  cases m with
  | publish d => exact keeps_publish hQ d
  | notify => exact keeps_discard (keeps_get fun w hw => keeps_notifyAll hQ hp _ _ w hw)
  | register reaction =>
    exact keeps_bind (keeps_update fun _ _ => nofun) fun _ => keeps_discard (keeps_attend hQ hp)
  | start => exact keeps_start
  | stop => exact keeps_stop
  | fault plan => exact keeps_change (fun _ h => h) (fun _ => rfl) fun _ _ h => h
  | advance i =>
    exact keeps_change (fun _ h => h) (fun _ => rfl) fun w times h => hQ.advance ⟨_, _, _, times⟩ i h
  | turn => exact keeps_nextTurn hp
  | raise => exact keeps_throw _

theorem keeps_react (hQ : Kept Q) (depth : Nat) (ms : List Move) :
    Keeps (Holds Q) (react depth ms) := by
  induction depth generalizing ms with
  | zero => exact keeps_throw _
  | succ depth ih =>
    rw [react]
    induction ms with
    | nil => exact keeps_pure ()
    | cons m ms ihm => exact keeps_bind (keeps_step hQ ih m) fun _ => ihm

theorem holds_after (hQ : Kept Q) (depth : Nat) (ms : List Move) {w : World Workplace (List Move)}
    (h : Holds Q w) : Holds Q (after depth ms w) := by
  induction ms generalizing w with
  | nil => exact h
  | cons m ms ih => exact ih (keeps_step hQ (keeps_react hQ depth) m w h)

end ShortcutRelay.Delivery
