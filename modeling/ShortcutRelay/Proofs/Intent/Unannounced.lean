import ShortcutRelay.Proofs.Company.Guest

/-!
# Runs that are stopped before they notify

A run writes its entries one by one, and nothing takes them back when it is stopped.

* `Told.Unannounced` : a run whose uses of the store are granted or refused and that posts no
  notification, `unannounced_bind` and companions take it apart;
* `Program.Attempts ws p r` : where it may, `p` writes the entries `ws` and then ends with `r`, and a
  refused write ends it at once;
* `Draft.attempts` : the entries of a command up to the first value that cannot be encoded;
* `unannounced_perform` : what a run that was stopped has left behind.
-/

namespace ShortcutRelay

/-- As long as its requests are granted, the program writes some entries in order and then ends with a
result; where one is refused it ends at once. -/
def Program.Attempts {α : Type} : List (String × Document) →
    Program storeInterface (Except Failure α) → Except Failure α → Prop
  | [], p, r => p = .done r
  | w :: ws, p, r => ∃ next : Except Failure Unit → Program storeInterface (Except Failure α),
      p = .ask (I := storeInterface) (.put w.1 w.2) next ∧
        (∀ e, next (.error e) = .done (.error e)) ∧ (next (.ok ())).Attempts ws r

namespace Intent
open Protocol Company

/-! ## Runs without a notification -/

/-- What a run is told: the answers of the one who is asked for missing values, and its nonce. -/
structure Told where
  answers : Parameter → Document
  nonce : String

/-- An answer to a request, with the contents before and after it. A use of the store is granted, or it
is refused and changes nothing. -/
def Told.Step (t : Told) : Contents → (r : IntentRequest) → r.Result → Contents → Prop
  | c, .store r, a, d =>
    a = (.ok (r.effect c).1 : Except Failure _) ∧ d = (r.effect c).2 ∨
      (∃ e, a = (.error e : Except Failure _)) ∧ d = c
  | _, .post _, _, _ => False
  | c, .ask p _, a, d => a = t.answers p ∧ d = c
  | c, .newNonce, a, d => a = t.nonce ∧ d = c
  | c, _, _, d => d = c

/-- A run of a program from some contents to others that posts no notification. -/
inductive Told.Unannounced (t : Told) {α : Type} :
    Contents → Program intentInterface α → α → Contents → Prop
  | done (c : Contents) (a : α) : t.Unannounced c (.done a) a c
  | ask {c m d : Contents} {r : IntentRequest} {next : r.Result → Program intentInterface α} {a : α}
      (answer : r.Result) (step : t.Step c r answer m) (rest : t.Unannounced m (next answer) a d) :
      t.Unannounced c (.ask (I := intentInterface) r next) a d

variable {t : Told} {c d : Contents} {α β : Type}

theorem unannounced_then {p : Program intentInterface α} {f : α → Program intentInterface β} {b : β}
    (h : t.Unannounced c (p >>= f) b d) :
    ∃ a m, t.Unannounced c p a m ∧ t.Unannounced m (f a) b d := by
  induction p generalizing c with
  | done a => exact ⟨a, c, .done c a, h⟩
  | ask r next ih =>
    cases h with
    | ask answer step rest =>
      obtain ⟨a, m, first, second⟩ := ih answer rest
      exact ⟨a, m, .ask answer step first, second⟩

theorem unannounced_bind {p : IntentM α} {f : α → IntentM β} {b : Except Failure β}
    (h : t.Unannounced c (p >>= f).run b d) :
    (∃ a m, t.Unannounced c p.run (.ok a) m ∧ t.Unannounced m (f a).run b d) ∨
      ∃ e, b = .error e ∧ t.Unannounced c p.run (.error e) d := by
  obtain ⟨r, m, first, second⟩ := unannounced_then (p := p.run) h
  cases r with
  | ok a => exact .inl ⟨a, m, first, second⟩
  | error e =>
    cases second with
    | done => exact .inr ⟨e, rfl, first⟩

/-- A part that changes nothing can be left out, unless the run ends with it. -/
theorem unannounced_bind_unchanged {p : IntentM α}
    (unchanged : ∀ {a m}, t.Unannounced c p.run a m → m = c) {f : α → IntentM β} {b : Except Failure β}
    (h : t.Unannounced c (p >>= f).run b d) :
    d = c ∨ ∃ a, t.Unannounced c p.run (.ok a) c ∧ t.Unannounced c (f a).run b d := by
  rcases unannounced_bind h with ⟨a, m, first, rest⟩ | ⟨e, -, failed⟩
  · obtain rfl := unchanged first
    exact .inr ⟨a, first, rest⟩
  · exact .inl (unchanged failed)

theorem unannounced_tryCatch {p : IntentM α} {handle : Failure → IntentM α} {b : Except Failure α}
    (h : t.Unannounced c (tryCatch p handle).run b d) :
    (∃ a, b = .ok a ∧ t.Unannounced c p.run (.ok a) d) ∨
      ∃ e m, t.Unannounced c p.run (.error e) m ∧ t.Unannounced m (handle e).run b d := by
  obtain ⟨r, m, first, second⟩ := unannounced_then (p := p.run) h
  cases r with
  | ok a =>
    cases second with
    | done => exact .inl ⟨a, rfl, first⟩
  | error e => exact .inr ⟨e, m, first, second⟩

/-- What only turns a result into another leaves the run as it is. -/
theorem unannounced_map {p : IntentM α} {f : α → IntentM β} {g : α → β} (turns : ∀ a, f a = pure (g a))
    {b : Except Failure β} (h : t.Unannounced c (p >>= f).run b d) :
    ∃ b', t.Unannounced c p.run b' d ∧ b = b'.map g := by
  rcases unannounced_bind h with ⟨a, m, first, rest⟩ | ⟨e, rfl, failed⟩
  · rw [turns a] at rest
    cases rest with
    | done => exact ⟨.ok a, first, rfl⟩
  · exact ⟨.error e, failed, rfl⟩

theorem unannounced_request_bind {r : IntentRequest} {f : r.Result → IntentM β} {b : Except Failure β}
    (h : t.Unannounced c (request r >>= f).run b d) :
    ∃ a m, t.Step c r a m ∧ t.Unannounced m (f a).run b d := by
  cases h with
  | ask answer step rest => exact ⟨answer, _, step, rest⟩

theorem unannounced_openStore {b : Except Failure Unit} (h : t.Unannounced c openStore.run b d) :
    d = c := by
  cases h with
  | ask answer step rest =>
    cases rest with
    | done => exact step

theorem unannounced_confirm {message : String} {b : Except Failure Bool}
    (h : t.Unannounced c (confirm message).run b d) : d = c := by
  cases h with
  | ask answer step rest =>
    cases rest with
    | done => exact step

/-- Reads of the application's state change nothing, whatever comes of them. -/
theorem unannounced_reads {p : StoreM α} (reads : Asks ReadsState p) {b : Except Failure α}
    (h : t.Unannounced c (onStore p).run b d) : d = c := by
  suffices main : ∀ q : Program storeInterface (Except Failure α), Program.Asks ReadsState q →
      t.Unannounced c (onStore (ExceptT.mk q)).run b d → d = c from main p.run reads h
  clear h reads
  intro q asks h
  induction q generalizing c with
  | done r =>
    cases h with
    | done => rfl
  | ask r next ih =>
    obtain ⟨read, others⟩ := asks
    cases h with
    | ask answer step rest =>
      have same := ih answer (others answer) rest
      rw [same]
      rcases step with ⟨-, rfl⟩ | ⟨-, rfl⟩
      · cases r <;> first | rfl | exact read.elim
      · rfl

/-! ## Writes that may be refused -/

theorem unannounced_attempts {ws : List (String × Document)} {r b : Except Failure α}
    {p : Program storeInterface (Except Failure α)} (attempts : p.Attempts ws r)
    (h : t.Unannounced c (onStore (ExceptT.mk p)).run b d) :
    (b = r ∧ d = c.putAll ws) ∨ ∃ written refused rest e,
      ws = written ++ refused :: rest ∧ b = .error e ∧ d = c.putAll written := by
  induction ws generalizing p c with
  | nil =>
    obtain rfl : p = .done r := attempts
    cases h with
    | done => exact .inl ⟨rfl, rfl⟩
  | cons w ws ih =>
    obtain ⟨next, rfl, refused, granted⟩ := attempts
    cases h with
    | ask answer step rest =>
      rcases step with ⟨rfl, rfl⟩ | ⟨⟨e, rfl⟩, rfl⟩
      · rcases ih granted rest with whole | ⟨written, refused, others, e, rfl, failed, after⟩
        · exact .inl whole
        · exact .inr ⟨w :: written, refused, others, e, rfl, failed, after⟩
      · have ended : t.Unannounced _ (onStore (ExceptT.mk (next (.error e)))).run b _ := rest
        rw [refused e] at ended
        cases ended with
        | done => exact .inr ⟨[], w, ws, e, rfl, rfl, rfl⟩

/-- After its writes a run goes on, or it has ended with the first that was refused or with what the
writes end with. -/
theorem unannounced_bind_attempts {p : StoreM α} {ws : List (String × Document)} {r : Except Failure α}
    (attempts : p.run.Attempts ws r) {f : α → IntentM β} {b : Except Failure β}
    (h : t.Unannounced c (onStore p >>= f).run b d) :
    (∃ a, r = .ok a ∧ t.Unannounced (c.putAll ws) (f a).run b d) ∨
      ∃ written e, b = .error e ∧ d = c.putAll written ∧
        ((∃ refused rest, ws = written ++ refused :: rest) ∨ r = .error e ∧ ws = written) := by
  rcases unannounced_bind h with ⟨a, m, first, rest⟩ | ⟨e, rfl, failed⟩
  · rcases unannounced_attempts attempts first with ⟨rfl, rfl⟩ | ⟨_, _, _, _, -, ended, -⟩
    · exact .inl ⟨a, rfl, rest⟩
    · cases ended
  · rcases unannounced_attempts attempts failed with
      ⟨rfl, rfl⟩ | ⟨written, refused, rest, e', cut, ended, rfl⟩
    · exact .inr ⟨ws, e, rfl, rfl, .inr ⟨rfl, rfl⟩⟩
    · cases ended
      exact .inr ⟨written, e, rfl, rfl, .inl ⟨refused, rest, cut⟩⟩

/-! ## The values -/

def filled (r : Runner) (answers : Parameter → Document) (values : OrderedMap Document) :
    List Parameter → OrderedMap Document
  | [] => values
  | p :: ps =>
    if !Runner.isMissing (Runner.valueOf values p) || !r.asks then filled r answers values ps
    else filled r answers (values.put p.name (answers p)) ps

theorem unannounced_fillMissing (r : Runner) (values : OrderedMap Document) (index : Nat)
    (ps : List Parameter) {b : Except Failure (OrderedMap Document)}
    (h : t.Unannounced c (r.fillMissing values index ps).run b d) :
    b = .ok (filled r t.answers values ps) ∧ d = c := by
  induction ps generalizing values index c with
  | nil =>
    cases h with
    | done => exact ⟨rfl, rfl⟩
  | cons p ps ih =>
    unfold Runner.fillMissing at h
    unfold filled
    split at h
    · next given =>
      rw [if_pos given]
      exact ih values (index + 1) h
    · next missing =>
      rw [if_neg missing]
      obtain ⟨answer, m, ⟨rfl, rfl⟩, rest⟩ := unannounced_request_bind h
      exact ih _ (index + 1) rest

theorem unannounced_walkDialogs (r : Runner) (confirmed : Bool) (index : Nat)
    (ds : List ConditionalDialog) {b : Except Failure Runner.Walk}
    (h : t.Unannounced c (r.walkDialogs confirmed index ds).run b d) : d = c := by
  induction ds generalizing confirmed index c with
  | nil =>
    cases h with
    | done => rfl
  | cons dialog ds ih =>
    unfold Runner.walkDialogs at h
    have due := readsState_isDue dialog
    rcases unannounced_bind_unchanged (unannounced_reads due) h with same | ⟨shown, -, rest⟩
    · exact same
    cases shown with
    | false => exact ih confirmed (index + 1) rest
    | true =>
      rw [if_pos rfl] at rest
      have filledIn := readsState_interpolate
        (r.text (Localization.dialogKey r.shortcut.identifier index) dialog.message)
      rcases unannounced_bind_unchanged (unannounced_reads filledIn) rest with same | ⟨message, -, last⟩
      · exact same
      cases asks : dialog.requiresConfirmation with
      | false =>
        rw [asks] at last
        cases last with
        | done => rfl
      | true =>
        rw [asks, if_pos rfl] at last
        rcases unannounced_bind_unchanged unannounced_confirm last with same | ⟨given, -, goesOn⟩
        · exact same
        cases given with
        | true => exact ih true (index + 1) goesOn
        | false =>
          cases goesOn with
          | done => rfl

/-! ## What a run writes -/

/-- The stored forms of parameters up to the first that has none, and why it has none. -/
def encodedUntil : List (String × ValueType × Document) → List (String × StoredValue) × Option Failure
  | [] => ([], none)
  | (name, type, value) :: ps =>
    match encode type value with
    | .error e => ([], some e)
    | .ok v => ((name, v) :: (encodedUntil ps).1, (encodedUntil ps).2)

/-- The result of a program that may have met a failure. -/
def orFailure : Option Failure → Except Failure Unit
  | some e => .error e
  | none => .ok ()

theorem attempts_bind {vs ws : List (String × Document)} {p : Program storeInterface (Except Failure α)}
    {f : α → StoreM β} {a : α} {r : Except Failure β} (hp : p.Attempts vs (.ok a))
    (hf : (f a).run.Attempts ws r) : (ExceptT.mk p >>= f).run.Attempts (vs ++ ws) r := by
  induction vs generalizing p with
  | nil =>
    obtain rfl : p = .done (.ok a) := hp
    exact hf
  | cons v vs ih =>
    obtain ⟨next, rfl, refused, granted⟩ := hp
    refine ⟨fun b => (ExceptT.mk (next b) >>= f).run, rfl, fun e => ?_, ih granted⟩
    change (ExceptT.mk (next (.error e)) >>= f).run = _
    rw [refused e]
    rfl

theorem attempts_set {v : Document} (h : v.isScalar = true) (key : String) :
    (Store.set key v).run.Attempts [(key, v)] (.ok ()) := by
  rw [set_of_isScalar h]
  exact ⟨.done, rfl, fun e => rfl, rfl⟩

theorem attempts_set_bind {v : Document} (h : v.isScalar = true) (key : String) {f : Unit → StoreM β}
    {ws : List (String × Document)} {r : Except Failure β} (hf : (f ()).run.Attempts ws r) :
    (Store.set key v >>= f).run.Attempts ((key, v) :: ws) r :=
  attempts_bind (attempts_set h key) hf

theorem attempts_storeValue (name : String) (v : StoredValue) :
    (storeValue name v).run.Attempts (parameterWrites name v) (.ok ()) := by
  refine attempts_set_bind v.raw_isScalar (parameterEntry name) ?_
  cases v.tag? with
  | none => rfl
  | some tag => exact attempts_set (v := .text tag) rfl (parameterTagEntry name)

theorem attempts_storeParameters (ps : List (String × ValueType × Document)) :
    (storeParameters ps).run.Attempts (allParameterWrites (encodedUntil ps).1)
      (orFailure (encodedUntil ps).2) := by
  induction ps with
  | nil => rfl
  | cons p ps ih =>
    obtain ⟨name, type, value⟩ := p
    rw [encodedUntil]
    cases encoded : encode type value with
    | error e =>
      have failed : storeParameters ((name, type, value) :: ps) = throw e := by
        change storeParameter name type value >>= _ = _
        rw [storeParameter_eq, encoded]
        rfl
      rw [failed]
      rfl
    | ok v =>
      have first : (storeParameter name type value).run.Attempts (parameterWrites name v) (.ok ()) := by
        rw [storeParameter_eq, encoded]
        exact attempts_storeValue name v
      exact attempts_bind first ih

theorem attempts_postCommand (d : Draft) :
    (postCommand d.identifier d.nonce d.confirmed (.float d.time)).run.Attempts (commandWrites d)
      (.ok ()) := by
  refine attempts_set_bind rfl commandIdentifier ?_
  refine attempts_set_bind rfl commandNonce ?_
  refine attempts_set_bind rfl commandTimestamp ?_
  cases d.confirmed with
  | none => rfl
  | some b => exact attempts_set (v := .bool b) rfl userConfirmed

/-- The entries that are attempted for a command, and why it is not attempted itself where one of its
values cannot be encoded. -/
def attempted (d : Draft) : List (String × Document) × Option Failure :=
  let (vs, failed) := encodedUntil d.parameters
  (allParameterWrites vs ++ if failed.isNone then commandWrites d else [], failed)

/-- The command of a run: its confirmation counts where it has a dialog that asks for one. -/
def draftOf (r : Runner) (t : Told) (values : OrderedMap Document) (confirmed : Bool) (time : Float) :
    Draft where
  identifier := r.shortcut.identifier
  nonce := t.nonce
  parameters := presentParameters (Runner.valueOf (filled r t.answers values r.shortcut.parameters))
    r.shortcut.parameters
  confirmed := if r.shortcut.hasConfirmation then some confirmed else none
  time := time

/-- What stops a run at its writes: one of them is refused after some others, or a value cannot be
encoded after all that come before it. -/
def StoppedBy (d : Draft) (written : List (String × Document)) (e : Failure) : Prop :=
  (∃ refused rest, (attempted d).1 = written ++ refused :: rest) ∨ attempted d = (written, some e)

/-- Writes that no notification follows have failed. -/
theorem unannounced_writes (d : Draft) {after : IntentM α} {b : Except Failure α} {c' : Contents}
    (h : t.Unannounced c (do
      onStore (storeParameters d.parameters)
      let time : Float ← request .wallClock
      onStore (postCommand d.identifier d.nonce d.confirmed (.float time))
      request (.post commandNotification)
      after : IntentM α).run b c') :
    ∃ time written e, StoppedBy { d with time } written e ∧ b = .error e ∧ c' = c.putAll written := by
  have parameters := attempts_storeParameters d.parameters
  cases met : (encodedUntil d.parameters).2 with
  | some reason =>
    rw [met] at parameters
    have all (time : Float) :
        attempted { d with time } = (allParameterWrites (encodedUntil d.parameters).1, some reason) := by
      simp [attempted, met]
    rcases unannounced_bind_attempts parameters h with ⟨_, ended, -⟩ | ⟨written, e, rfl, rfl, stopped⟩
    · cases ended
    · refine ⟨0.0, written, e, ?_, rfl, rfl⟩
      rcases stopped with ⟨refused, rest, cut⟩ | ⟨failed, rfl⟩
      · exact .inl ⟨refused, rest, (congrArg Prod.fst (all 0.0)).trans cut⟩
      · cases failed
        exact .inr (all 0.0)
  | none =>
    rw [met] at parameters
    have all (time : Float) : (attempted { d with time }).1 =
        allParameterWrites (encodedUntil d.parameters).1 ++ commandWrites { d with time } := by
      simp [attempted, met]
    rcases unannounced_bind_attempts parameters h with
      ⟨_, -, afterValues⟩ | ⟨written, e, rfl, rfl, ⟨refused, rest, cut⟩ | ⟨ended, -⟩⟩
    · obtain ⟨(time : Float), m, rfl, afterTime⟩ := unannounced_request_bind afterValues
      rcases unannounced_bind_attempts (attempts_postCommand { d with time }) afterTime with
        ⟨_, -, afterCommand⟩ | ⟨written, e, rfl, rfl, ⟨refused, rest, cut⟩ | ⟨ended, -⟩⟩
      · -- a command that is written whole is posted
        obtain ⟨_, _, post, -⟩ := unannounced_request_bind afterCommand
        exact post.elim
      · refine ⟨time, allParameterWrites (encodedUntil d.parameters).1 ++ written, e,
          .inl ⟨refused, rest, ?_⟩, rfl, (OrderedMap.putAll_append ..).symm⟩
        rw [all, cut, List.append_assoc]
      · cases ended
    · refine ⟨0.0, written, e, .inl ⟨refused, rest ++ commandWrites { d with time := 0.0 }, ?_⟩, rfl, rfl⟩
      rw [all, cut, List.append_assoc, List.cons_append]
    · cases ended

/-- A run with an open store that posts nothing changes nothing, or it fails at its writes. -/
theorem unannounced_runOpen (r : Runner) (values : OrderedMap Document)
    {b : Except Failure IntentAnswer} (h : t.Unannounced c (r.runOpen values).run b d) :
    d = c ∨ ∃ confirmed time written e, StoppedBy (draftOf r t values confirmed time) written e ∧
      b = .error e ∧ d = c.putAll written := by
  unfold Runner.runOpen at h
  have asks {b m} (h : t.Unannounced c (r.fillMissing values 0 r.shortcut.parameters).run b m) :=
    unannounced_fillMissing r values 0 r.shortcut.parameters h
  rcases unannounced_bind_unchanged (fun h => (asks h).2) h with same | ⟨full, asked, afterValues⟩
  · exact .inl same
  cases (asks asked).1
  rcases unannounced_bind_unchanged (unannounced_walkDialogs r false 0 _) afterValues with
    same | ⟨walk, -, afterWalk⟩
  · exact .inl same
  cases walk with
  | ended message =>
    cases afterWalk with
    | done => exact .inl rfl
  | goesOn confirmed =>
    obtain ⟨nonce, m, ⟨rfl, rfl⟩, afterNonce⟩ := unannounced_request_bind afterWalk
    rw [writeValues_eq] at afterNonce
    obtain ⟨time, written, e, stopped, failed, left⟩ :=
      unannounced_writes (draftOf r t values confirmed 0.0) afterNonce
    exact .inr ⟨confirmed, time, written, e, stopped, failed, left⟩

/-- How a run ends on a failure: there is a reply for a store that cannot be used. -/
def endedBy (r : Runner) : Failure → Except Failure IntentAnswer
  | .store _ =>
    .ok { dialog := r.systemText Localization.appGroupFailed, outcome := .storeUnavailable }
  | e => .error e

theorem get?_commandEntries_of_unencodable {d : Draft} {written : List (String × Document)} {e : Failure}
    (h : attempted d = (written, some e)) (c : Contents) {k : String} (mem : k ∈ commandEntries) :
    (c.putAll written).get? k = c.get? k := by
  have parameters : written = allParameterWrites (encodedUntil d.parameters).1 := by
    have failed : (encodedUntil d.parameters).2 = some e := congrArg Prod.snd h
    have all := congrArg Prod.fst h
    simpa [attempted, failed] using all.symm
  rw [parameters]
  exact get?_putAll_allParameterWrites _ c (isParameterKey_commandEntries k mem)

/-- A run up to its end or its failure, with the store opened first. -/
theorem unannounced_opened (r : Runner) (values : OrderedMap Document)
    {b : Except Failure (Except IntentAnswer IntentAnswer)} (h : t.Unannounced c (do
      openStore
      let answer ← r.runOpen values
      ExceptT.run (pure answer) : IntentM (Except IntentAnswer IntentAnswer)).run b d) :
    d = c ∨ ∃ confirmed time written e, StoppedBy (draftOf r t values confirmed time) written e ∧
      b = .error e ∧ d = c.putAll written := by
  rcases unannounced_bind_unchanged unannounced_openStore h with same | ⟨_, -, afterOpen⟩
  · exact .inl same
  rcases unannounced_bind afterOpen with ⟨answer, m, run, afterRun⟩ | ⟨e, rfl, failed⟩
  · cases afterRun with
    | done =>
      refine (unannounced_runOpen r values run).imp_right ?_
      rintro ⟨_, _, _, _, -, ended, -⟩
      cases ended
  · refine (unannounced_runOpen r values failed).imp_right ?_
    rintro ⟨confirmed, time, written, e', stopped, ended, left⟩
    cases ended
    exact ⟨confirmed, time, written, e, stopped, rfl, left⟩

/-- What the run does on a failure changes nothing. -/
theorem unannounced_perform (r : Runner) (values : OrderedMap Document)
    {b : Except Failure IntentAnswer} (h : t.Unannounced c (r.perform values).run b d) :
    d = c ∨ ∃ confirmed time written e, StoppedBy (draftOf r t values confirmed time) written e ∧
      b = endedBy r e ∧ d = c.putAll written := by
  unfold Runner.perform at h
  simp only at h
  split at h
  · cases h with
    | done => exact .inl rfl
  · obtain ⟨b, tried, rfl⟩ := unannounced_map (g := early) (fun answer => by cases answer <;> rfl) h
    rcases unannounced_tryCatch tried with ⟨_, -, run⟩ | ⟨e, m, run, handled⟩
    · refine (unannounced_opened r values run).imp_right ?_
      rintro ⟨_, _, _, _, -, ended, -⟩
      cases ended
    · obtain ⟨rfl, answered⟩ : d = m ∧ b.map early = endedBy r e := by
        cases e with
        | store failure =>
          obtain ⟨_, _, rfl, ended⟩ := unannounced_request_bind handled
          cases ended with
          | done => exact ⟨rfl, rfl⟩
        | _ =>
          cases handled with
          | done => exact ⟨rfl, rfl⟩
      refine (unannounced_opened r values run).imp_right ?_
      rintro ⟨confirmed, time, written, e', stopped, ended, left⟩
      cases ended
      exact ⟨confirmed, time, written, e, stopped, answered, left⟩

/-- A run that is stopped before it notifies leaves the entries that it had written, and nothing else
has changed. A value that cannot be encoded stops it before the command, so the command's own entries
are as they were. -/
theorem stopped_perform_leaves_written (r : Runner) (values : OrderedMap Document)
    {b : Except Failure IntentAnswer} (h : t.Unannounced c (r.perform values).run b d) :
    d = c ∨ ∃ confirmed time written e, StoppedBy (draftOf r t values confirmed time) written e ∧
      b = endedBy r e ∧ d = c.putAll written ∧
      (∀ k, k ∉ entryKeys written → d.get? k = c.get? k) ∧
      (attempted (draftOf r t values confirmed time) = (written, some e) →
        ∀ k ∈ commandEntries, d.get? k = c.get? k) := by
  refine (unannounced_perform r values h).imp_right ?_
  rintro ⟨confirmed, time, written, e, stopped, ended, rfl⟩
  refine ⟨confirmed, time, written, e, stopped, ended, rfl, fun k other => ?_, fun unencodable k mem => ?_⟩
  · exact OrderedMap.get?_putAll_of_notMem other c
  · exact get?_commandEntries_of_unencodable unencodable c mem

def adding : Runner where
  shortcut :=
    { identifier := "addTask", title := "Add Task", phrases := []
      parameters :=
        [{ name := "taskName", title := "Task Name", type := .text },
         { name := "dueDate", title := "Due Date", type := .date }] }

def misdated : OrderedMap Document :=
  .ofList [("taskName", .text "Buy milk"), ("dueDate", .bool true)]

theorem unannounced_misdated : (Told.mk (fun _ => .null) "N1").Unannounced {}
    (adding.perform misdated).run (.error (.notADate "bool"))
    (({} : Contents).put (parameterEntry "taskName") (.text "Buy milk")) := by
  have known : adding.unknownNames misdated = [] := by
    have none : (misdated.keys.filter fun name => (adding.shortcut.parameter? name).isNone) = [] := by
      decide
    rw [Runner.unknownNames, none, List.mergeSort_nil]
  unfold Runner.perform
  simp only [known]
  exact .ask (r := .open) (.ok ()) rfl (.ask (r := .newNonce) "N1" ⟨rfl, rfl⟩
    (.ask (r := .store (.put _ _)) (.ok ()) (.inl ⟨rfl, rfl⟩) (.done _ _)))

theorem stopped_perform_leaves_written_misdated :
    ∃ confirmed time written, StoppedBy (draftOf adding ⟨fun _ => .null, "N1"⟩ misdated confirmed time)
        written (.notADate "bool") ∧
      ({} : Contents).put (parameterEntry "taskName") (.text "Buy milk") = ({} : Contents).putAll written ∧
      ∀ k ∉ entryKeys written,
        (({} : Contents).put (parameterEntry "taskName") (.text "Buy milk")).get? k = none := by
  rcases stopped_perform_leaves_written adding misdated unannounced_misdated with
    same | ⟨confirmed, time, written, e, stopped, ended, left, others, -⟩
  · have changed := congrArg (fun c => c.get? (parameterEntry "taskName")) same
    simp only [OrderedMap.get?_put_self] at changed
    cases changed
  · have reason : e = .notADate "bool" := by
      cases e <;> cases ended
      rfl
    subst reason
    exact ⟨confirmed, time, written, stopped, left, others⟩

/-- A run that fails before it notifies does not leave the store as it was: the text is written before
the date turns out to be none. -/
theorem misdated_run_leaves_parameter :
    ¬ ∀ (r : Runner) (values : OrderedMap Document) (t : Told) (c d : Contents) (e : Failure),
      t.Unannounced c (r.perform values).run (.error e) d →
        ∀ k, k ∈ commandEntries ∨ isParameterKey k = true → d.get? k = c.get? k := by
  intro claim
  have same := claim adding misdated _ {} _ _ unannounced_misdated (parameterEntry "taskName")
    (.inr (isParameterKey_parameterEntry "taskName"))
  rw [OrderedMap.get?_put_self] at same
  cases same

end Intent

end ShortcutRelay
