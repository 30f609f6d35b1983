import ShortcutRelay.Proofs.Protocol.Succession

/-!
# What an intent writes, entry by entry

* `Writes ws p a` : as long as its requests are granted, a program writes the entries `ws` in order,
  does nothing else and ends with `a`;
* `writes_bind`, `writes_set` and companions take a store program apart;
* `Draft.writes` : the entries that are written for a command, `writes_perform` : an intent that does
  not wait for the reply writes just these.
-/

namespace ShortcutRelay

/-- As long as its requests are granted, the program writes some entries in order, does nothing else
and ends with a result. -/
def Program.Writes {α : Type} : List (String × Document) → Program storeInterface α → α → Prop
  | [], p, a => p = .done a
  | w :: ws, p, a => ∃ next : Except Failure Unit → Program storeInterface α,
      p = .ask (I := storeInterface) (.put w.1 w.2) next ∧ (next (.ok ())).Writes ws a

theorem Program.writes_bind {α β : Type} {vs ws : List (String × Document)}
    {p : Program storeInterface α} {f : α → Program storeInterface β} {a : α} {b : β}
    (hp : p.Writes vs a) (hf : (f a).Writes ws b) : (p >>= f).Writes (vs ++ ws) b := by
  induction vs generalizing p with
  | nil =>
    have ended : p = .done a := hp
    rw [ended]
    exact hf
  | cons v vs ih =>
    obtain ⟨next, rfl, rest⟩ := hp
    exact ⟨fun granted => next granted >>= f, rfl, ih rest⟩

/-- As long as its requests are granted, the store program writes some entries in order, does
nothing else and ends well. -/
def Writes {α : Type} (ws : List (String × Document)) (p : StoreM α) (a : α) : Prop :=
  Program.Writes ws p.run (.ok a)

variable {α β : Type} {vs ws : List (String × Document)}

theorem writes_pure (a : α) : Writes [] (pure a) a := rfl

theorem writes_bind {p : StoreM α} {f : α → StoreM β} {a : α} {b : β} (hp : Writes vs p a)
    (hf : Writes ws (f a) b) : Writes (vs ++ ws) (p >>= f) b :=
  Program.writes_bind (p := p.run) hp hf

theorem writes_set {v : Document} (h : v.isScalar = true) (key : String) :
    Writes [(key, v)] (Store.set key v) () := by
  rw [set_of_isScalar h]
  exact ⟨.done, rfl, rfl⟩

theorem writes_set_bind {v : Document} (h : v.isScalar = true) (key : String) {f : Unit → StoreM β}
    {b : β} (hf : Writes ws (f ()) b) : Writes ((key, v) :: ws) (Store.set key v >>= f) b :=
  writes_bind (writes_set h key) hf

namespace Protocol

theorem writes_storeValue (name : String) (v : StoredValue) :
    Writes (parameterWrites name v) (storeValue name v) () := by
  refine writes_set_bind v.raw_isScalar (parameterEntry name) ?_
  cases v.tag? with
  | none => exact writes_pure ()
  | some tag => exact writes_set (v := .text tag) rfl (parameterTagEntry name)

theorem writes_storeParameters {ps : List (String × ValueType × Document)}
    {vs : List (String × StoredValue)} (h : encodeAll ps = .ok vs) :
    Writes (allParameterWrites vs) (storeParameters ps) () := by
  induction ps generalizing vs with
  | nil =>
    cases h
    exact writes_pure ()
  | cons p ps ih =>
    obtain ⟨name, type, value⟩ := p
    obtain ⟨v, ws, hv, hs, rfl⟩ := of_encodeAll_cons h
    have first : Writes (parameterWrites name v) (storeParameter name type value) () := by
      rw [storeParameter_eq, hv]
      exact writes_storeValue name v
    exact writes_bind first (ih hs)

theorem writes_postCommand (d : Draft) :
    Writes (commandWrites d) (postCommand d.identifier d.nonce d.confirmed (.float d.time)) () := by
  refine writes_set_bind rfl commandIdentifier ?_
  refine writes_set_bind rfl commandNonce ?_
  refine writes_set_bind rfl commandTimestamp ?_
  cases d.confirmed with
  | none => exact writes_pure ()
  | some b => exact writes_set (v := .bool b) rfl userConfirmed

def Draft.writes (d : Draft) (vs : List (String × StoredValue)) : List (String × Document) :=
  allParameterWrites vs ++ commandWrites d

variable {d : Draft} {vs : List (String × StoredValue)}

theorem putAll_writes (d : Draft) (vs : List (String × StoredValue)) (c : Contents) :
    c.putAll (d.writes vs) = d.written vs c :=
  OrderedMap.putAll_append c _ _

/-- An intent that does not wait for the reply does nothing but write its command. -/
theorem writes_perform (encodable : encodeAll d.parameters = .ok vs) :
    Writes (d.writes vs) (d.perform 0) none := by
  have written : Writes (d.writes vs) d.write () :=
    writes_bind (writes_storeParameters encodable) (writes_postCommand d)
  have all := writes_bind (f := fun _ => lookFor d.nonce 0) written (writes_pure none)
  rw [List.append_nil] at all
  exact all

theorem writes_nodup (distinct : (vs.map Prod.fst).Nodup) :
    (entryKeys (d.writes vs)).Nodup := by
  have keys : entryKeys (d.writes vs) =
      entryKeys (allParameterWrites vs) ++ entryKeys (commandWrites d) := List.map_append
  rw [keys, List.nodup_append]
  refine ⟨allParameterWrites_nodup distinct, commandWrites_nodup d, ?_⟩
  rintro k parameter _ command rfl
  have no := not_isParameterKey_of_mem_commandWrites command
  rw [isParameterKey_of_mem_allParameterWrites parameter] at no
  cases no

end Protocol

end ShortcutRelay
