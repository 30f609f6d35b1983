import ShortcutRelay.Proofs.Delivery.Traffic
import ShortcutRelay.Store.Backend

/-!
# A store whose uses may fail and be interrupted

* `Workplace` : a store with the intents that use it, a plan of which uses fail and one of who goes
  on before which use, and the record of what was published and received;
* `answer_cases` : what a request of the application can do there;
* `run_served` : what a store program of the application can do there.
-/

namespace ShortcutRelay
open Protocol

/-- A store as the application uses it. `faults` says which of its uses fail, counted from the
beginning, and `turns` which intents go on before a use, except inside a section. `used` holds the
nonces that are taken, `published` the commands that were published as a whole, and `received` those
that reached a callback. -/
structure Workplace where
  traffic : Traffic
  faults : Nat → Option StoreFailure := fun _ => none
  turns : Nat → List Nat := fun _ => []
  uses : Nat := 0
  locked : Bool := false
  used : List String := []
  published : List Draft := []
  received : List Command := []

namespace Workplace

/-- Counts a use, which may fail. -/
def use : BackendM Workplace Unit := do
  let w ← get
  set { w with uses := w.uses + 1 }
  match w.faults w.uses with
  | some failure => throw (.store failure)
  | none => return ()

/-- Lets the intents go on whose turn comes before the next use. -/
def giveWay : BackendM Workplace Unit :=
  modify fun w =>
    if w.locked then w else { w with traffic := (w.turns w.uses).foldl Traffic.advance w.traffic }

instance : Backend Workplace where
  obtain := use
  load := do
    giveWay
    use
    return (← get).traffic.contents
  save c := do
    use
    modify fun w => { w with traffic := { w.traffic with contents := c } }
  enter := do
    giveWay
    use
    modify fun w => { w with locked := true }
  leave := modify fun w => { w with locked := false }

def moved (w : Workplace) (t : Traffic) (n : Nat) : Workplace :=
  { w with traffic := t, uses := n }

variable {w : Workplace}

theorem use_cases (w : Workplace) :
    use.run w = (.ok (), w.moved w.traffic (w.uses + 1)) ∨
      ∃ f, use.run w = (.error (.store f), w.moved w.traffic (w.uses + 1)) := by
  rw [use, Fallible.run_bind_ok (Fallible.run_get w), Fallible.run_bind_ok (Fallible.run_set ..)]
  cases w.faults w.uses with
  | none => exact .inl rfl
  | some f => exact .inr ⟨f, rfl⟩

/-- What comes after a use runs once the use is counted, or the use fails and nothing runs. -/
theorem use_bind_cases {α : Type} (w : Workplace) (next : Unit → BackendM Workplace α) :
    (use >>= next).run w = (next ()).run (w.moved w.traffic (w.uses + 1)) ∨
      ∃ f, (use >>= next).run w = (.error (.store f), w.moved w.traffic (w.uses + 1)) := by
  rcases use_cases w with used | ⟨f, used⟩
  · exact .inl (Fallible.run_bind_ok used next)
  · exact .inr ⟨f, Fallible.run_bind_error used next⟩

theorem run_giveWay (free : w.locked = false) :
    ∃ t, Leads w.traffic t ∧ giveWay.run w = (.ok (), w.moved t w.uses) := by
  refine ⟨_, ⟨w.turns w.uses, rfl⟩, ?_⟩
  rw [giveWay, Fallible.run_modify, if_neg (Bool.eq_false_iff.mp free)]
  rfl

theorem load_cases (free : w.locked = false) : ∃ t n, Leads w.traffic t ∧
    ((Backend.load : BackendM Workplace Contents).run w = (.ok t.contents, w.moved t n) ∨
      ∃ f, (Backend.load : BackendM Workplace Contents).run w =
        (.error (.store f), w.moved t n)) := by
  obtain ⟨t, others, ht⟩ := run_giveWay free
  refine ⟨t, w.uses + 1, others, ?_⟩
  change (giveWay >>= _).run w = _ ∨ ∃ f, (giveWay >>= _).run w = _
  rw [Fallible.run_bind_ok ht]
  exact use_bind_cases (w.moved t w.uses) _

/-- Inside a section the contents are read as they are. -/
theorem load_locked (held : w.locked = true) :
    (Backend.load : BackendM Workplace Contents).run w =
        (.ok w.traffic.contents, w.moved w.traffic (w.uses + 1)) ∨
      ∃ f, (Backend.load : BackendM Workplace Contents).run w =
        (.error (.store f), w.moved w.traffic (w.uses + 1)) := by
  have still : giveWay.run w = (.ok (), w) := by rw [giveWay, Fallible.run_modify, if_pos held]
  change (giveWay >>= _).run w = _ ∨ ∃ f, (giveWay >>= _).run w = _
  rw [Fallible.run_bind_ok still]
  exact use_bind_cases w _

theorem save_cases (c : Contents) (w : Workplace) :
    (Backend.save c : BackendM Workplace Unit).run w =
        (.ok (), w.moved { w.traffic with contents := c } (w.uses + 1)) ∨
      ∃ f, (Backend.save c : BackendM Workplace Unit).run w =
        (.error (.store f), w.moved w.traffic (w.uses + 1)) :=
  use_bind_cases w _

/-- The outcome of what is done inside a section: the contents become `c` or stay. -/
def SectionEnds (act : BackendM Workplace Unit) (c : Contents → Contents) : Prop :=
  ∀ w : Workplace, w.locked = true → ∃ n,
    act.run w = (.ok (), w.moved { w.traffic with contents := c w.traffic.contents } n) ∨
      ∃ f, act.run w = (.error (.store f), w.moved w.traffic n)

theorem section_put (key : String) (v : Document) :
    SectionEnds (do Backend.save ((← Backend.load).put key v)) (·.put key v) := by
  intro w held
  rcases load_locked held with read | ⟨f, read⟩
  · rw [Fallible.run_bind_ok read]
    exact ⟨_, save_cases _ _⟩
  · rw [Fallible.run_bind_error read]
    exact ⟨_, .inr ⟨f, rfl⟩⟩

theorem section_removal (keys : List String) :
    SectionEnds (Backend.removal keys) (keys.foldl OrderedMap.erase) := by
  intro w held
  unfold Backend.removal
  rcases load_locked held with read | ⟨f, read⟩
  · rw [Fallible.run_bind_ok read]
    cases h : (Backend.erased keys w.traffic.contents).2 with
    | true =>
      have := save_cases (keys.foldl OrderedMap.erase w.traffic.contents)
        (w.moved w.traffic (w.uses + 1))
      refine ⟨w.uses + 1 + 1, ?_⟩
      simp only [h, if_true]
      exact this
    | false =>
      have unchanged : keys.foldl OrderedMap.erase w.traffic.contents = w.traffic.contents :=
        erased_unchanged h
      refine ⟨w.uses + 1, .inl ?_⟩
      simp only [h, unchanged]
      rfl
  · rw [Fallible.run_bind_error read]
    exact ⟨_, .inr ⟨f, rfl⟩⟩

theorem locked_again (free : w.locked = false) (t : Traffic) (n : Nat) :
    { w.moved t n with locked := false } = w.moved t n := by
  rw [moved, free]

theorem exclusively_cases {act : BackendM Workplace Unit} {c : Contents → Contents}
    (ends : SectionEnds act c) (free : w.locked = false) : ∃ t n, Leads w.traffic t ∧
    ((Backend.exclusively act).run w = (.ok (), w.moved { t with contents := c t.contents } n) ∨
      ∃ f, (Backend.exclusively act).run w = (.error (.store f), w.moved t n)) := by
  obtain ⟨t, others, ht⟩ := run_giveWay free
  have entered : (Backend.enter : BackendM Workplace Unit).run w =
        (.ok (), { w.moved t (w.uses + 1) with locked := true }) ∨
      ∃ f, (Backend.enter : BackendM Workplace Unit).run w =
        (.error (.store f), w.moved t (w.uses + 1)) := by
    change (giveWay >>= _).run w = _ ∨ ∃ f, (giveWay >>= _).run w = _
    rw [Fallible.run_bind_ok ht]
    exact use_bind_cases (w.moved t w.uses) _
  rw [Backend.run_exclusively]
  rcases entered with inside | ⟨f, outside⟩
  · rw [inside]
    obtain ⟨n, done | ⟨f, done⟩⟩ := ends { w.moved t (w.uses + 1) with locked := true } rfl
    · refine ⟨t, n, others, .inl (Prod.ext ?_ ?_)⟩
      · simp only [done]
      · simp only [done]
        exact locked_again free { t with contents := c t.contents } n
    · refine ⟨t, n, others, .inr ⟨f, Prod.ext ?_ ?_⟩⟩
      · simp only [done]
      · simp only [done]
        exact locked_again free t n
  · rw [outside]
    exact ⟨t, _, others, .inr ⟨f, rfl⟩⟩

/-! ## Requests and programs -/

theorem answer_cases (r : StoreRequest) (free : w.locked = false) : ∃ t n, Leads w.traffic t ∧
    ((Backend.answer r).run w =
        (.ok (r.effect t.contents).1, w.moved { t with contents := (r.effect t.contents).2 } n) ∨
      ∃ f, (Backend.answer r).run w = (.error (.store f), w.moved t n)) := by
  have reading {α : Type} (f : Contents → α) : ∃ t n, Leads w.traffic t ∧
      ((do return f (← Backend.load) : BackendM Workplace α).run w = (.ok (f t.contents), w.moved t n) ∨
        ∃ e, (do return f (← Backend.load) : BackendM Workplace α).run w =
          (.error (.store e), w.moved t n)) := by
    obtain ⟨t, n, others, read | ⟨e, read⟩⟩ := load_cases free
    · exact ⟨t, n, others, .inl (Fallible.run_bind_ok read _)⟩
    · exact ⟨t, n, others, .inr ⟨e, Fallible.run_bind_error read _⟩⟩
  cases r with
  | value key => exact reading fun c => (c.get? key).getD .null
  | text key => exact reading fun c => textAt c key
  | keys => exact reading OrderedMap.keys
  | snapshot => exact load_cases free
  | put key v => exact exclusively_cases (section_put key v) free
  | remove key => exact exclusively_cases (section_removal [key]) free
  | removeAll keys => exact exclusively_cases (section_removal keys) free

theorem serve_served {α : Type} (p : Program storeInterface α) (free : w.locked = false) :
    ∃ a t n, Backend.serve p w = (a, w.moved t n) ∧ Served p w.traffic a t := by
  induction p generalizing w with
  | done a => exact ⟨a, w.traffic, w.uses, rfl, .done a _⟩
  | ask r next ih =>
    obtain ⟨t, n, others, answered | ⟨f, answered⟩⟩ := answer_cases r free
    · obtain ⟨a, u, m, run, served⟩ := ih (.ok (StoreRequest.effect r t.contents).1)
        (w := w.moved { t with contents := (StoreRequest.effect r t.contents).2 } n) free
      exact ⟨a, u, m, (Backend.serve_ask answered next).trans run, .answered others served⟩
    · obtain ⟨a, u, m, run, served⟩ := ih (.error (.store f)) (w := w.moved t n) free
      exact ⟨a, u, m, (Backend.serve_ask answered next).trans run, .failed f others served⟩

theorem run_served {α : Type} (p : StoreM α) (free : w.locked = false) :
    ∃ result t n, (Backend.run p).run w = (result, w.moved t n) ∧ Served p.run w.traffic result t :=
  serve_served p.run free

end Workplace

end ShortcutRelay
