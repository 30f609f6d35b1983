import ShortcutRelay.Proofs.Protocol.Key
import ShortcutRelay.Proofs.Store.Confined
import ShortcutRelay.Proofs.Store.SuiteFile
import ShortcutRelay.Protocol.Command

/-!
# Replies as a mailbox

Replies are posted and taken under nonces, in any order. A store without faults keeps for each nonce
the newest reply that nobody has taken, and nothing else.

* `ReplyUse` : what is done to the replies, `performUses` : one after the other;
* `untaken` : the reply under a nonce that nobody has taken, by what was done before;
* `Delivers` : a reply was posted at one position and is there to be taken at a later one;
  `exists_delivers`, `Delivers.unique` : what can be taken was posted, and only once is it taken;
* `Keeper.TakesTexts` : there is room for all texts, as in memory and in files;
* `Holds` : the entries of replies are those that nobody has taken, `run_use`, `run_performUses` : each
  use keeps that;
* `replies_faithful` : what is taken, and which replies are orphans.
-/

namespace ShortcutRelay.Protocol
open Text

/-! ## Uses -/

/-- What is done to the replies: one is posted, one is taken if it is there, or orphans are sought. -/
inductive ReplyUse
  | post (nonce : String) (message : Option String)
  | take (nonce : String)
  | survey (active : List String)

namespace ReplyUse

def perform : ReplyUse → StoreM (Option String)
  | post nonce message => do
    postReply nonce message
    return none
  | take nonce => takeReply nonce
  | survey active => do
    let _ ← orphans active
    return none

def nonce? : ReplyUse → Option String
  | post nonce _ | take nonce => some nonce
  | survey _ => none

/-- The reply that is there afterwards, under this nonce. -/
def left : ReplyUse → Option String
  | post _ message => some (message.getD "")
  | _ => none

end ReplyUse

def performUses : List ReplyUse → StoreM (List (Option String))
  | [] => return []
  | use :: uses => do
    let reply ← use.perform
    return reply :: (← performUses uses)

/-- The reply under a nonce that nobody has taken: the last thing that was done under the nonce was
to post it. -/
def untaken (uses : List ReplyUse) (nonce : String) : Option String :=
  (uses.filter (·.nonce? == some nonce)).getLast?.bind ReplyUse.left

theorem untaken_concat (uses : List ReplyUse) (use : ReplyUse) (nonce : String) :
    untaken (uses ++ [use]) nonce =
      if use.nonce? = some nonce then use.left else untaken uses nonce := by
  unfold untaken
  rw [List.filter_append]
  by_cases same : use.nonce? = some nonce
  · simp [same]
  · simp [same]

/-! ## Deliveries -/

/-- A reply was posted at the first position and can be taken at the second one: nothing was done
under its nonce in between. -/
structure Delivers (uses : List ReplyUse) (i j : Nat) (nonce text : String) : Prop where
  posted : ∃ message, uses[i]? = some (.post nonce message) ∧ text = message.getD ""
  taken : uses[j]? = some (.take nonce)
  before : i < j
  between : ∀ k use, i < k → k < j → uses[k]? = some use → use.nonce? ≠ some nonce

variable {uses : List ReplyUse} {nonce text : String}

/-- A reply is taken at most once. -/
theorem Delivers.unique {i j j' : Nat} {nonce' text' : String} (first : Delivers uses i j nonce text)
    (second : Delivers uses i j' nonce' text') : j = j' := by
  obtain ⟨message, posted, -⟩ := first.posted
  obtain ⟨message', posted', -⟩ := second.posted
  cases posted.symm.trans posted'
  rcases Nat.lt_trichotomy j j' with less | same | more
  · exact absurd rfl (second.between j _ first.before less first.taken)
  · exact same
  · exact absurd rfl (first.between j' _ second.before more second.taken)

/-- A reply that nobody has taken was posted, and nothing was done under its nonce since. -/
theorem exists_posted (h : untaken uses nonce = some text) :
    ∃ (i : Nat) (message : Option String), uses[i]? = some (.post nonce message) ∧
      text = message.getD "" ∧ ∀ k use, i < k → uses[k]? = some use → use.nonce? ≠ some nonce := by
  induction uses using List.reverseRecOn with
  | nil => cases h
  | append_singleton uses use ih =>
    rw [untaken_concat] at h
    by_cases same : use.nonce? = some nonce
    · rw [if_pos same] at h
      cases use with
      | post other message =>
        cases same
        cases h
        refine ⟨uses.length, message, by simp, rfl, fun k use after there => ?_⟩
        have inside := (List.getElem?_eq_some_iff.mp there).1
        simp at inside
        omega
      | take | survey => cases h
    · rw [if_neg same] at h
      obtain ⟨i, message, posted, text, since⟩ := ih h
      have bound := (List.getElem?_eq_some_iff.mp posted).1
      refine ⟨i, message, ?_, text, fun k other after there => ?_⟩
      · rw [List.getElem?_append_left bound, posted]
      · rcases Nat.lt_or_ge k uses.length with inside | last
        · rw [List.getElem?_append_left inside] at there
          exact since k other after there
        · rw [List.getElem?_append_right last, List.getElem?_singleton] at there
          split at there
          · cases there
            exact same
          · cases there

theorem exists_delivers {j : Nat} (taken : uses[j]? = some (.take nonce))
    (h : untaken (uses.take j) nonce = some text) : ∃ i, Delivers uses i j nonce text := by
  obtain ⟨i, message, posted, same, since⟩ := exists_posted h
  have before : i < j := by
    have bound := (List.getElem?_eq_some_iff.mp posted).1
    rw [List.length_take] at bound
    omega
  rw [List.getElem?_take_of_lt before] at posted
  refine ⟨i, ⟨message, posted, same⟩, taken, before, fun k use after sooner there => ?_⟩
  exact since k use after ((List.getElem?_take_of_lt sooner).trans there)

/-! ## The entries -/

/-- The entries of replies are those that nobody has taken. -/
def Holds (uses : List ReplyUse) (c : Contents) : Prop :=
  ∀ nonce, c.get? (replyEntry nonce) = (untaken uses nonce).map .text

variable {Like : Document → Document → Prop} {c d : Contents}

/-- A text is kept as it is, and so is a missing one. -/
theorem get?_of_agree (tolerance : Tolerance Like) (agree : Agree Like d c) {key : String}
    {text : Option String} (h : c.get? key = text.map .text) : d.get? key = text.map .text := by
  have here := agree key
  rw [h] at here
  generalize d.get? key = v at here ⊢
  cases text with
  | none =>
    rw [Option.map_none] at here ⊢
    cases here
    rfl
  | some text =>
    rw [Option.map_some] at here ⊢
    cases here with
    | some like =>
      cases tolerance.alike like
      rfl

theorem holds_of_agree (tolerance : Tolerance Like) (agree : Agree Like d c) (h : Holds uses c) :
    Holds uses d :=
  fun nonce => get?_of_agree tolerance agree (h nonce)

theorem holds_of_none (fresh : ∀ key, startsWith replyStart key = true → c.get? key = none) :
    Holds [] c :=
  fun nonce => fresh _ (startsWith_append replyStart nonce)

theorem textAt_of_holds (h : Holds uses c) (nonce : String) :
    textAt c (replyEntry nonce) = .ok (untaken uses nonce) := by
  unfold textAt
  rw [h nonce]
  cases untaken uses nonce <;> rfl

/-- What a use leaves under its nonce, and under no other. -/
theorem holds_concat (h : Holds uses c) {use : ReplyUse}
    (here : ∀ nonce, use.nonce? = some nonce → d.get? (replyEntry nonce) = use.left.map .text)
    (others : ∀ nonce, use.nonce? ≠ some nonce →
      d.get? (replyEntry nonce) = c.get? (replyEntry nonce)) : Holds (uses ++ [use]) d := by
  intro nonce
  rw [untaken_concat]
  split
  · next same => exact here nonce same
  · next other => rw [others nonce other, h nonce]

theorem holds_post (h : Holds uses c) (nonce : String) (message : Option String) :
    Holds (uses ++ [.post nonce message]) (c.put (replyEntry nonce) (.text (message.getD ""))) := by
  refine holds_concat h ?_ fun other differs => ?_
  · rintro _ ⟨⟩
    exact OrderedMap.get?_put_self ..
  · refine OrderedMap.get?_put_of_ne c (fun same => differs ?_) _
    rw [replyEntry_injective same]
    rfl

theorem holds_take (h : Holds uses c) (nonce : String) :
    Holds (uses ++ [.take nonce]) (c.erase (replyEntry nonce)) := by
  refine holds_concat h ?_ fun other differs => ?_
  · rintro _ ⟨⟩
    rw [OrderedMap.get?_erase, if_pos rfl]
    rfl
  · rw [OrderedMap.get?_erase, if_neg]
    intro same
    rw [replyEntry_injective same] at differs
    exact differs rfl

/-- Nothing is taken where nothing is there. -/
theorem holds_take_none (h : Holds uses c) (missing : untaken uses nonce = none) :
    Holds (uses ++ [.take nonce]) c := by
  refine holds_concat h ?_ fun _ _ => rfl
  rintro _ ⟨⟩
  rw [h nonce, missing]
  rfl

theorem holds_survey (h : Holds uses c) (active : List String) :
    Holds (uses ++ [.survey active]) c :=
  holds_concat h nofun fun _ _ => rfl

/-! ## Orphans -/

/-- The orphans among the replies: those that nobody has taken and nobody waits for, each once, in the
order of their entries. -/
structure AreOrphans (uses : List ReplyUse) (active keys : List String) : Prop where
  sorted : keys.Pairwise (· < ·)
  mem_iff : ∀ key, key ∈ keys ↔
    ∃ nonce, key = replyEntry nonce ∧ untaken uses nonce ≠ none ∧ nonce ∉ active

/-- What is sought in contents. -/
def orphansOf (active : List String) (c : Contents) : List String :=
  (c.keys.filter (isOrphan active)).mergeSort

theorem runOn_orphans (active : List String) (c : Contents) :
    runOn (orphans active) c = (.ok (orphansOf active c), c) := by
  unfold orphans
  rw [runOn_bind_ok (runOn_keys c), runOn_pure]
  rfl

theorem isOrphan_iff (active : List String) (key : String) :
    isOrphan active key = true ↔ ∃ nonce, key = replyEntry nonce ∧ nonce ∉ active := by
  have waiting (nonce : String) :
      (active.map replyEntry).contains (replyEntry nonce) = true ↔ nonce ∈ active := by
    rw [List.contains_iff_mem, List.mem_map_of_injective replyEntry_injective]
  unfold isOrphan
  rw [Bool.and_eq_true, Bool.not_eq_true', ← Bool.not_eq_true, startsWith_iff]
  constructor
  · rintro ⟨⟨nonce, rfl⟩, absent⟩
    exact ⟨nonce, rfl, fun mem => absent ((waiting nonce).mpr mem)⟩
  · rintro ⟨nonce, rfl, absent⟩
    exact ⟨⟨nonce, rfl⟩, fun mem => absent ((waiting nonce).mp mem)⟩

theorem areOrphans_orphansOf (h : Holds uses c) (active : List String) :
    AreOrphans uses active (orphansOf active c) where
  sorted := by
    have ordered : (orphansOf active c).Pairwise fun a b => decide (a ≤ b) = true := by
      refine List.pairwise_mergeSort (fun a b d first second => ?_) (fun a b => ?_) _
      · rw [decide_eq_true_eq] at first second ⊢
        exact String.le_trans first second
      · simpa using String.le_total a b
    have distinct : (orphansOf active c).Nodup :=
      (List.mergeSort_perm _ _).nodup_iff.mpr (c.nodup.filter _)
    exact (ordered.and distinct).imp fun both =>
      Std.lt_of_le_of_ne (of_decide_eq_true both.1) both.2
  mem_iff key := by
    unfold orphansOf
    rw [List.mem_mergeSort, List.mem_filter, isOrphan_iff]
    constructor
    · rintro ⟨there, nonce, rfl, absent⟩
      refine ⟨nonce, rfl, fun none_there => ?_, absent⟩
      have found := h nonce
      rw [none_there] at found
      exact (OrderedMap.get?_eq_none_iff c _).mp found there
    · rintro ⟨nonce, rfl, there, absent⟩
      refine ⟨?_, nonce, rfl, absent⟩
      by_contra missing
      have found := h nonce
      rw [(OrderedMap.get?_eq_none_iff c _).mpr missing] at found
      exact there (Option.map_eq_none_iff.mp found.symm)

/-! ## Runs -/

end ShortcutRelay.Protocol

namespace ShortcutRelay

variable {σ : Type} [Backend σ]

/-- There is room for all texts. -/
def Keeper.TakesTexts (K : Keeper σ) : Prop :=
  ∀ text, K.suits (.text text) ∧ K.rejection (.text text) = none

theorem MemoryStore.keeper_takesTexts : MemoryStore.keeper.TakesTexts :=
  fun _ => ⟨trivial, rfl⟩

theorem SuiteFile.keeper_takesTexts {Like : Document → Document → Prop} {P : Float → Prop}
    (rule : PropertyList.ZeroRule Like P) : (SuiteFile.keeper rule).TakesTexts :=
  fun _ => ⟨⟨rfl, nofun⟩, rfl⟩

namespace Protocol
open Text

variable {K : Keeper σ} {s : σ} {uses : List ReplyUse} {nonce : String}

/-- A request with room for what it writes has its effect. -/
theorem run_request (healthy : K.Healthy) (valid : K.valid s) {r : StoreRequest}
    (suits : r.Suits K.toStoreView) (room : r.rejection K.toStoreView = none) :
    ∃ t, (Backend.run (Store.perform r)).run s = (.ok (r.effect (K.contents s)).1, t) ∧
      K.valid t ∧ Agree K.like (K.contents t) (r.effect (K.contents s)).2 := by
  rw [Backend.run_perform]
  obtain ⟨t, valid', ⟨-, answered, agree⟩ | ⟨e, rejected, -⟩⟩ := healthy.run_answer valid suits
  · exact ⟨t, answered, valid', agree⟩
  · rw [room] at rejected
    cases rejected

theorem run_postReply (healthy : K.Healthy) (texts : K.TakesTexts) (valid : K.valid s)
    (h : Holds uses (K.contents s)) (nonce : String) (message : Option String) :
    ∃ t, (Backend.run (postReply nonce message)).run s = (.ok (), t) ∧ K.valid t ∧
      Holds (uses ++ [.post nonce message]) (K.contents t) := by
  obtain ⟨suits, room⟩ := texts (message.getD "")
  obtain ⟨t, answered, valid', agree⟩ := run_request healthy valid
    (r := .put (replyEntry nonce) (.text (message.getD ""))) suits room
  refine ⟨t, ?_, valid', holds_of_agree K.tolerance agree (holds_post h nonce message)⟩
  unfold postReply
  rw [set_of_isScalar rfl]
  exact answered

theorem run_takeReply (healthy : K.Healthy) (valid : K.valid s) (h : Holds uses (K.contents s))
    (nonce : String) :
    ∃ t, (Backend.run (takeReply nonce)).run s = (.ok (untaken uses nonce), t) ∧ K.valid t ∧
      Holds (uses ++ [.take nonce]) (K.contents t) := by
  obtain ⟨t, answered, validT, agree⟩ :=
    run_request healthy valid (r := .text (replyEntry nonce)) trivial rfl
  have same := holds_of_agree K.tolerance agree h
  have read : (Backend.run (Store.text (replyEntry nonce))).run s = (.ok (untaken uses nonce), t) := by
    unfold Store.text
    rw [Backend.run_bind, Backend.run_perform]
    refine (Fallible.run_bind_ok answered _).trans ?_
    change (Backend.run (Store.ofNumber (textAt (K.contents s) (replyEntry nonce)))).run t = _
    rw [textAt_of_holds h nonce]
    rfl
  unfold takeReply
  rw [Backend.run_bind, Fallible.run_bind_ok read]
  cases there : untaken uses nonce with
  | none => exact ⟨t, rfl, validT, holds_take_none same there⟩
  | some message =>
    obtain ⟨u, removed, validU, agree'⟩ :=
      run_request healthy validT (r := .remove (replyEntry nonce)) trivial rfl
    have removal : (Backend.run (Store.remove (replyEntry nonce))).run t = (.ok (), u) := removed
    refine ⟨u, ?_, validU, holds_of_agree K.tolerance agree' (holds_take same nonce)⟩
    rw [Backend.run_bind, Fallible.run_bind_ok removal]
    rfl

/-- Orphans are sought without a change. -/
theorem run_orphans (healthy : K.Healthy) (valid : K.valid s) (active : List String) :
    ∃ t, (Backend.run (orphans active)).run s = (.ok (orphansOf active (K.contents s)), t) ∧
      K.valid t ∧ K.contents t = K.contents s := by
  have reads : K.Reads (orphans active) :=
    (Keeper.reads_perform (r := .keys) trivial).bind fun _ => Keeper.reads_pure _
  obtain ⟨-, t, later, same, ran | ⟨f, threat, -⟩⟩ := reads s valid
  · rw [runOn_orphans] at ran
    exact ⟨t, ran, later.1, same⟩
  · exact (healthy s valid f threat).elim

/-- One use. -/
theorem run_use (healthy : K.Healthy) (texts : K.TakesTexts) (valid : K.valid s)
    (h : Holds uses (K.contents s)) (use : ReplyUse) :
    ∃ reply t, (Backend.run use.perform).run s = (.ok reply, t) ∧ K.valid t ∧
      Holds (uses ++ [use]) (K.contents t) ∧
      ∀ nonce, use = .take nonce → reply = untaken uses nonce := by
  cases use with
  | post nonce message =>
    obtain ⟨t, ran, valid', holds⟩ := run_postReply healthy texts valid h nonce message
    refine ⟨none, t, ?_, valid', holds, nofun⟩
    rw [ReplyUse.perform, Backend.run_bind, Fallible.run_bind_ok ran]
    rfl
  | take nonce =>
    obtain ⟨t, ran, valid', holds⟩ := run_takeReply healthy valid h nonce
    refine ⟨untaken uses nonce, t, ran, valid', holds, ?_⟩
    rintro _ ⟨⟩
    rfl
  | survey active =>
    obtain ⟨t, ran, valid', same⟩ := run_orphans healthy valid active
    refine ⟨none, t, ?_, valid', ?_, nofun⟩
    · rw [ReplyUse.perform, Backend.run_bind, Fallible.run_bind_ok ran]
      rfl
    · rw [same]
      exact holds_survey h active

/-- One use after the other. -/
theorem run_performUses (healthy : K.Healthy) (texts : K.TakesTexts) (valid : K.valid s)
    (h : Holds uses (K.contents s)) (next : List ReplyUse) :
    ∃ replies t, (Backend.run (performUses next)).run s = (.ok replies, t) ∧ K.valid t ∧
      Holds (uses ++ next) (K.contents t) ∧
      ∀ j nonce, next[j]? = some (.take nonce) →
        replies[j]? = some (untaken (uses ++ next.take j) nonce) := by
  induction next generalizing s uses with
  | nil =>
    refine ⟨[], s, rfl, valid, ?_, nofun⟩
    rwa [List.append_nil]
  | cons use next ih =>
    obtain ⟨reply, t, ran, validT, holds, taken⟩ := run_use healthy texts valid h use
    obtain ⟨replies, u, rest, validU, holds', later⟩ := ih validT holds
    rw [List.append_assoc, List.singleton_append] at holds'
    refine ⟨reply :: replies, u, ?_, validU, holds', fun j nonce there => ?_⟩
    · rw [performUses, Backend.run_bind, Fallible.run_bind_ok ran, Backend.run_bind,
        Fallible.run_bind_ok rest]
      rfl
    · cases j with
      | zero =>
        rw [List.getElem?_cons_zero, Option.some.injEq] at there
        simp [taken nonce there]
      | succ j =>
        rw [List.getElem?_cons_succ] at there ⊢
        rw [later j nonce there, List.take_succ_cons, List.append_assoc, List.singleton_append]

/-- Replies in a store without faults that had none. What is taken is the newest reply that nobody has
taken; it was posted, and is taken once. At any time the orphans are those that nobody has taken
and nobody waits for, and looking for them changes nothing. -/
theorem replies_faithful (healthy : K.Healthy) (texts : K.TakesTexts) (valid : K.valid s)
    (fresh : ∀ key, startsWith replyStart key = true → (K.contents s).get? key = none)
    (uses : List ReplyUse) :
    ∃ replies t, (Backend.run (performUses uses)).run s = (.ok replies, t) ∧
      (∀ j nonce, uses[j]? = some (.take nonce) →
        replies[j]? = some (untaken (uses.take j) nonce)) ∧
      (∀ j nonce text, uses[j]? = some (.take nonce) → replies[j]? = some (some text) →
        ∃ i, Delivers uses i j nonce text) ∧
      (∀ i j j' nonce nonce' text text', Delivers uses i j nonce text →
        Delivers uses i j' nonce' text' → j = j') ∧
      ∀ active, ∃ keys u, (Backend.run (orphans active)).run t = (.ok keys, u) ∧ K.valid u ∧
        K.contents u = K.contents t ∧ AreOrphans uses active keys := by
  obtain ⟨replies, t, ran, validT, holds, taken⟩ :=
    run_performUses healthy texts valid (holds_of_none fresh) uses
  rw [List.nil_append] at holds
  refine ⟨replies, t, ran, taken, ?_, ?_, fun active => ?_⟩
  · intro j nonce text asked given
    rw [taken j nonce asked, Option.some.injEq] at given
    exact exists_delivers asked given
  · intro i j j' nonce nonce' text text' first second
    exact first.unique second
  · obtain ⟨u, sought, validU, same⟩ := run_orphans healthy validT active
    exact ⟨_, u, sought, validU, same, areOrphans_orphansOf holds active⟩

/-- An empty reply under a nonce that another one starts with. -/
theorem replies_under_prefix : ∃ replies t,
    (Backend.run (performUses [.post "a" none, .post "ab" (some "Done"), .take "a", .take "a"])).run
      (⟨.empty⟩ : MemoryStore) = (.ok replies, t) ∧
    replies[2]? = some (some "") ∧ replies[3]? = some none ∧
    ∃ keys u, (Backend.run (orphans ["b"])).run t = (.ok keys, u) ∧ u.contents = t.contents ∧
      replyEntry "ab" ∈ keys := by
  obtain ⟨replies, t, ran, taken, -, -, sought⟩ := replies_faithful (s := (⟨.empty⟩ : MemoryStore))
    MemoryStore.keeper_healthy MemoryStore.keeper_takesTexts trivial (fun _ _ => rfl)
    [.post "a" none, .post "ab" (some "Done"), .take "a", .take "a"]
  obtain ⟨keys, u, found, -, same, are⟩ := sought ["b"]
  refine ⟨replies, t, ran, taken 2 "a" rfl, taken 3 "a" rfl, keys, u, found, same, ?_⟩
  exact (are.mem_iff _).mpr ⟨"ab", rfl, by decide, by decide⟩

end Protocol

end ShortcutRelay
