import ShortcutRelay.Proofs.Delivery.Invariant
import ShortcutRelay.Proofs.Delivery.Posts

/-!
# No command is handed over twice

A nonce that was handed over is neither in the store, nor will any intent write it. So it is never
collected again, whatever a look for a command was interrupted by and however its clear ended.

* `Orderly` : the invariant, `orderly_advance`, `orderly_collect` and companions : its steps;
* `handed_at_most_once` : in any run no nonce is handed over twice.
-/

namespace ShortcutRelay.Delivery
open Protocol

/-- Nobody will make a text the nonce in the store. -/
def Over (n : String) (t : Traffic) : Prop :=
  ∀ p ∈ t.others, Silent n p

/-- Intents write taken nonces only, each its own and once; the nonce in the store was not handed
over, and neither that nonce nor one that was handed over is still to be written. -/
structure Orderly (a : Account) : Prop where
  once : ∀ p ∈ a.traffic.others, PostsOnce p
  apart : ∀ (i j : Nat) (p q : Process), i ≠ j → a.traffic.others[i]? = some p →
    a.traffic.others[j]? = some q → ∀ n, Silent n p ∨ Silent n q
  known : ∀ n, n ∉ a.used → Over n a.traffic
  stored : ∀ n, textAt a.traffic.contents commandNonce = .ok (some n) →
    n ∈ a.used ∧ Over n a.traffic ∧ a.times n = 0
  handed : ∀ n, 0 < a.times n → n ∈ a.used ∧ Over n a.traffic ∧ a.times n = 1

/-! ## Intents go on -/

/-- One of the intents makes a request, or nothing happens. -/
theorem advance_cases (t : Traffic) (i : Nat) : t.advance i = t ∨
    ∃ r next, t.others[i]? = some (.ask r next) ∧ t.advance i = {
      contents := (StoreRequest.effect r t.contents).2
      others := t.others.set i (next (.ok (StoreRequest.effect r t.contents).1)) } := by
  unfold Traffic.advance
  split
  · next r next found => exact .inr ⟨r, next, found, rfl⟩
  · exact .inl rfl

/-- The program at a place is the one that was put there, or it was there before. -/
theorem of_getElem?_set {ps : List Process} {i j : Nat} {p q : Process}
    (h : (ps.set i p)[j]? = some q) : i = j ∧ q = p ∨ i ≠ j ∧ ps[j]? = some q := by
  rw [List.getElem?_set] at h
  split at h
  · next same =>
    split at h
    · exact .inl ⟨same, (Option.some.inj h).symm⟩
    · cases h
  · next different => exact .inr ⟨different, h⟩

theorem over_advance {n : String} {t : Traffic} (h : Over n t) (i : Nat) : Over n (t.advance i) := by
  rcases advance_cases t i with same | ⟨r, next, found, moved⟩
  · rw [same]
    exact h
  · rw [moved]
    intro p hp
    rcases List.mem_or_eq_of_mem_set hp with hp | rfl
    · exact h p hp
    · exact (h _ (List.mem_of_getElem? found)).2 _

theorem over_leads {n : String} {t u : Traffic} (h : Over n t) (others : Leads t u) : Over n u :=
  leads_keeps (Q := Over n) (fun _ i ht => over_advance ht i) others h

theorem orderly_advance (a : Account) (i : Nat) (h : Orderly a) :
    Orderly { a with traffic := a.traffic.advance i } := by
  rcases advance_cases a.traffic i with same | ⟨r, next, found, moved⟩
  · rw [same]
    exact h
  have ended (n : String) (hn : Over n a.traffic) : Over n (a.traffic.advance i) := over_advance hn i
  rw [moved] at ended ⊢
  have mem := List.mem_of_getElem? found
  refine ⟨?_, ?_, fun n hn => ended n (h.known n hn), ?_, ?_⟩
  · intro p hp
    rcases List.mem_or_eq_of_mem_set hp with hp | rfl
    · exact h.once p hp
    · exact (h.once _ mem).2 _
  · intro j k p q different hp hq n
    have before (j : Nat) (p : Process) (hp : (a.traffic.others.set i
        (next (.ok (StoreRequest.effect r a.traffic.contents).1)))[j]? = some p) :
        ∃ old, a.traffic.others[j]? = some old ∧ (Silent n old → Silent n p) := by
      rcases of_getElem?_set hp with ⟨rfl, rfl⟩ | ⟨-, hp⟩
      · exact ⟨_, found, fun silent => silent.2 _⟩
      · exact ⟨p, hp, id⟩
    obtain ⟨p', hp', p_later⟩ := before j p hp
    obtain ⟨q', hq', q_later⟩ := before k q hq
    exact (h.apart j k p' q' different hp' hq' n).imp p_later q_later
  · intro n hn
    rcases textAt_effect hn with old | posts
    · obtain ⟨used, gone, times⟩ := h.stored n old
      exact ⟨used, ended n gone, times⟩
    · -- the intent that wrote the nonce was the only one to do so, and does not write it again
      have loud : ¬ Silent n (.ask r next) := fun silent => silent.1 posts
      refine ⟨?_, ?_, ?_⟩
      · exact Decidable.byContradiction fun fresh => loud (h.known n fresh _ mem)
      · intro p hp
        obtain ⟨j, hj⟩ := List.mem_iff_getElem?.mp hp
        rcases of_getElem?_set hj with ⟨-, rfl⟩ | ⟨different, hj⟩
        · exact (h.once _ mem).1 n posts _
        · exact (h.apart i j _ p different found hj n).resolve_left loud
      · refine Decidable.byContradiction fun times => ?_
        exact loud ((h.handed n (Nat.pos_of_ne_zero times)).2.1 _ mem)
  · intro n hn
    obtain ⟨used, gone, times⟩ := h.handed n hn
    exact ⟨used, ended n gone, times⟩

/-! ## A command is collected -/

theorem orderly_leads {a : Account} {t : Traffic} (others : Leads a.traffic t) (h : Orderly a) :
    Orderly { a with traffic := t } :=
  leads_keeps (Q := fun t => Orderly { a with traffic := t })
    (fun t i ht => orderly_advance { a with traffic := t } i ht) others h

/-- A removal of the nonce leaves everything in order. -/
theorem orderly_erase {a : Account} (h : Orderly a) {keys : List String}
    (nonce : commandNonce ∈ keys) : Orderly { a with
      traffic := { a.traffic with contents := keys.foldl OrderedMap.erase a.traffic.contents } } := by
  refine ⟨h.once, h.apart, h.known, fun n hn => ?_, h.handed⟩
  rw [textAt_eraseAll, if_pos nonce] at hn
  cases hn

/-- A nonce that is over and not in the store may be handed over once. -/
theorem orderly_plus {a : Account} (h : Orderly a) {n : String} (used : n ∈ a.used)
    (gone : textAt a.traffic.contents commandNonce ≠ .ok (some n)) (ended : Over n a.traffic)
    (times : a.times n = 0) : Orderly (a.plus n) := by
  refine ⟨h.once, h.apart, h.known, fun m hm => ?_, fun m hm => ?_⟩
  · have different : m ≠ n := by
      rintro rfl
      exact gone hm
    obtain ⟨known, later, never⟩ := h.stored m hm
    refine ⟨known, later, ?_⟩
    rw [times_plus, if_neg different]
    exact never
  · by_cases same : m = n
    · subst same
      refine ⟨used, ended, ?_⟩
      rw [times_plus, if_pos rfl, times]
    · rw [times_plus, if_neg same] at hm ⊢
      exact h.handed m hm

theorem orderly_collect (a : Account) (t : Traffic) (c : Command) (cleared : Bool) (h : Orderly a)
    (collected : Collected a.traffic (.ok (some (c, cleared))) t) :
    Orderly (Account.plus { a with traffic := t } c.nonce) := by
  cases collected with
  | replaced first second identifier nonce others gone =>
    have read := orderly_leads (leads_trans first second) h
    obtain ⟨used, ended, times⟩ := read.stored _ nonce
    exact orderly_plus (orderly_leads others read) used gone (over_leads ended others) times
  | cleared keys first second identifier nonce others =>
    have read := orderly_leads (leads_trans first second) h
    obtain ⟨used, ended, times⟩ := read.stored _ nonce
    have present : commandNonce ∈ commandEntries ++ keys :=
      List.mem_append_left _ (by decide)
    have still_over := over_leads ended others
    refine orderly_plus (orderly_erase (orderly_leads others read) present) used ?_ still_over times
    intro hn
    rw [textAt_eraseAll, if_pos present] at hn
    cases hn

/-! ## A command is published -/

theorem orderly_publish (a : Account) (d : Draft) (c : Contents) (h : Orderly a)
    (fresh : d.nonce ∉ a.used) (ran : runOn d.write a.traffic.contents = (.ok (), c)) :
    Orderly { a with
      traffic := { a.traffic with contents := c }
      used := d.nonce :: a.used
      published := a.published ++ [d] } := by
  obtain ⟨vs, rfl⟩ := contents_of_written ran
  refine ⟨h.once, h.apart, fun n hn => ?_, fun n hn => ?_, fun n hn => ?_⟩
  · exact h.known n fun used => hn (List.mem_cons_of_mem _ used)
  · change textAt (d.written vs a.traffic.contents) commandNonce = .ok (some n) at hn
    rw [textAt_written_nonce] at hn
    cases hn
    refine ⟨List.mem_cons_self, h.known _ fresh, ?_⟩
    exact Decidable.byContradiction fun times =>
      fresh (h.handed d.nonce (Nat.pos_of_ne_zero times)).1
  · obtain ⟨used, rest⟩ := h.handed n hn
    exact ⟨List.mem_cons_of_mem _ used, rest⟩

theorem orderly_abort (a : Account) (d : Draft) (e : Failure) (c : Contents) (h : Orderly a)
    (_ : d.nonce ∉ a.used) (ran : runOn d.write a.traffic.contents = (.error e, c)) :
    Orderly { a with
      traffic := { a.traffic with contents := c }
      used := d.nonce :: a.used } := by
  obtain ⟨vs, rfl⟩ := contents_of_aborted ran
  refine ⟨h.once, h.apart, fun n hn => ?_, fun n hn => ?_, fun n hn => ?_⟩
  · exact h.known n fun used => hn (List.mem_cons_of_mem _ used)
  · rw [textAt_congr (get?_putAll_allParameterWrites vs _ (by decide))] at hn
    obtain ⟨used, rest⟩ := h.stored n hn
    exact ⟨List.mem_cons_of_mem _ used, rest⟩
  · obtain ⟨used, rest⟩ := h.handed n hn
    exact ⟨List.mem_cons_of_mem _ used, rest⟩

theorem orderly_kept : Kept Orderly :=
  ⟨orderly_advance, orderly_collect, orderly_publish, orderly_abort⟩

/-! ## Whole runs -/

variable {queued : Bool} {c : Contents} {intents : List (Draft × Nat)}

theorem orderly_opening (distinct : (intents.map (·.1.nonce)).Nodup)
    (fresh : ∀ i ∈ intents, textAt c commandNonce ≠ .ok (some i.1.nonce)) (turns : Nat → List Nat) :
    Orderly (account (opening queued c intents turns)) := by
  have own (n : String) (hn : n ∉ intents.map (·.1.nonce)) :
      Over n (opening queued c intents turns).around.traffic := by
    intro p hp
    obtain ⟨i, hi, rfl⟩ := List.mem_map.mp hp
    refine silent_perform ?_ i.2
    rintro rfl
    exact hn (List.mem_map.mpr ⟨i, hi, rfl⟩)
  refine ⟨?_, ?_, ?_, ?_, ?_⟩
  · intro p hp
    obtain ⟨i, -, rfl⟩ := List.mem_map.mp hp
    exact postsOnce_perform i.1 i.2
  · intro i j p q different hp hq n
    change (intents.map _)[i]? = _ at hp
    change (intents.map _)[j]? = _ at hq
    rw [List.getElem?_map, Option.map_eq_some_iff] at hp hq
    obtain ⟨x, hx, rfl⟩ := hp
    obtain ⟨y, hy, rfl⟩ := hq
    by_cases hn : n = x.1.nonce
    · right
      refine silent_perform (fun e => different ?_) y.2
      have hx' : (intents.map (·.1.nonce))[i]? = some n := by rw [List.getElem?_map, hx, hn]; rfl
      have hy' : (intents.map (·.1.nonce))[j]? = some n := by rw [List.getElem?_map, hy, e]; rfl
      exact (List.getElem?_inj (List.getElem?_eq_some_iff.mp hx').1 distinct).mp
        (hx'.trans hy'.symm)
    · exact .inl (silent_perform hn x.2)
  · intro n hn
    exact own n fun used => hn (List.mem_append_right _ used)
  · intro n hn
    change textAt c commandNonce = .ok (some n) at hn
    refine ⟨List.mem_append_left _ ?_, own n fun used => ?_, rfl⟩
    · rw [hn]
      exact List.mem_singleton.mpr rfl
    · obtain ⟨i, hi, rfl⟩ := List.mem_map.mp used
      exact fresh i hi hn
  · intro n hn
    exact absurd hn (Nat.lt_irrefl 0)

theorem tidy_opening (queued : Bool) (c : Contents) (intents : List (Draft × Nat))
    (turns : Nat → List Nat) : Tidy (opening queued c intents turns) :=
  ⟨rfl, fun b hb => by cases hb; exact nofun, nofun⟩

theorem times_le_one {a : Account} (h : Orderly a) (nonce : String) : a.times nonce ≤ 1 := by
  by_cases never : a.times nonce = 0
  · omega
  · exact Nat.le_of_eq (h.handed nonce (Nat.pos_of_ne_zero never)).2.2

theorem handed_at_most_once (distinct : (intents.map (·.1.nonce)).Nodup)
    (fresh : ∀ i ∈ intents, textAt c commandNonce ≠ .ok (some i.1.nonce)) (turns : Nat → List Nat)
    (depth : Nat) (moves : List Move) (nonce : String) :
    timesHanded (after depth moves (opening queued c intents turns)) nonce ≤ 1 :=
  have orderly := (holds_after orderly_kept depth moves
    ⟨tidy_opening queued c intents turns, orderly_opening distinct fresh turns⟩).2
  times_le_one orderly nonce

/-- Two intents of which the second writes its command while the application looks at that of the
first one. -/
def rivals : List (Draft × Nat) :=
  [({ identifier := "a", nonce := "N1" }, 2), ({ identifier := "b", nonce := "N2" }, 2)]

/-- The first intent goes on before the application looks, the second one before it clears. -/
def rivalTurns : Nat → List Nat
  | 1 => [0, 0, 0]
  | 7 => [1, 1, 1]
  | _ => []

theorem handed_at_most_once_rivals :
    (rivals.map (·.1.nonce)).Nodup ∧ (∀ i ∈ rivals, textAt {} commandNonce ≠ .ok (some i.1.nonce)) ∧
      timesHanded (after 2 [.register [], .start, .notify, .notify]
        (opening false {} rivals rivalTurns)) "N1" ≤ 1 :=
  have fresh : ∀ i ∈ rivals, textAt {} commandNonce ≠ .ok (some i.1.nonce) := fun _ _ => nofun
  ⟨by decide, fresh, handed_at_most_once (by decide) fresh rivalTurns 2 _ "N1"⟩

-- The command of the first intent is handed over although the second one has replaced it.
example : (after 2 [.register [], .start, .notify, .notify]
    (opening false {} rivals rivalTurns)).notices = [.commandReplaced] := by
  decide +kernel

end ShortcutRelay.Delivery
