import ShortcutRelay.Proofs.Protocol.Succession

/-!
# Commands that leave nothing behind

In contents without anything of another command, a command is read as it was written, and once it
is cleared and its reply taken the contents are what they were.

* `cleared_written` : clearing a command takes away just what was written for it;
* `runOn_collectCommand_written` : the command is read and gone;
* `runOn_takeReply_put` : the reply is read and gone.
-/

namespace ShortcutRelay.Protocol

variable {d : Draft} {vs : List (String × StoredValue)} {c : Contents}

/-- The command that is read, the parameters of the draft being encoded as `vs`. -/
def Draft.command (d : Draft) (vs : List (String × StoredValue)) : Command where
  identifier := d.identifier
  nonce := d.nonce
  timestamp := d.time
  parameters := vs
  userConfirmed := d.confirmed

theorem decodes_of_noParameters (h : NoParameters c) : Decodes c := by
  intro name raw found
  rw [h _ (isParameterKey_parameterEntry name)] at found
  cases found

theorem confirmationAt_of_noCommand (h : NoCommand c) : confirmationAt c = none := by
  unfold confirmationAt
  rw [h userConfirmed (by decide)]
  rfl

theorem toList_written (unused : NoCommand c) (empty : NoParameters c)
    (distinct : (vs.map Prod.fst).Nodup) :
    (d.written vs c).toList = c.toList ++ allParameterWrites vs ++ commandWrites d := by
  unfold Draft.written
  rw [OrderedMap.toList_putAll (commandWrites_nodup d),
    OrderedMap.toList_putAll (allParameterWrites_nodup distinct)]
  · exact fun k hk => empty k (isParameterKey_of_mem_allParameterWrites hk)
  · intro k hk
    rw [get?_putAll_allParameterWrites vs c (not_isParameterKey_of_mem_commandWrites hk)]
    exact unused k (mem_commandEntries_of_mem_commandWrites hk)

theorem mem_staleKeys (c : Contents) (k : String) :
    k ∈ staleKeys c ↔ k ∈ commandEntries ∨ k ∈ c.keys ∧ isParameterKey k = true := by
  rw [staleKeys, List.mem_append, List.mem_filter]

/-- Clearing a command takes away just what was written for it. -/
theorem cleared_written (unused : NoCommand c) (empty : NoParameters c)
    (distinct : (vs.map Prod.fst).Nodup) : cleared (d.written vs c) = c := by
  have entries := toList_written (d := d) unused empty distinct
  have keys : (d.written vs c).keys = entryKeys c.toList ++ entryKeys (allParameterWrites vs) ++
      entryKeys (commandWrites d) := by
    unfold OrderedMap.keys entryKeys
    rw [entries, List.map_append, List.map_append]
  have old : c.toList.filter (fun e => !(staleKeys (d.written vs c)).contains e.1) = c.toList := by
    refine List.filter_eq_self.mpr fun e he => ?_
    have present : c.get? e.1 = some e.2 := (c.get?_eq_some_iff ..).mpr he
    have kept : e.1 ∉ staleKeys (d.written vs c) := by
      rw [mem_staleKeys]
      rintro (command | ⟨-, parameter⟩)
      · rw [unused _ command] at present
        cases present
      · rw [empty _ parameter] at present
        cases present
    simpa using kept
  have parameters : (allParameterWrites vs).filter
      (fun e => !(staleKeys (d.written vs c)).contains e.1) = [] := by
    refine List.filter_eq_nil_iff.mpr fun e he => ?_
    have written : e.1 ∈ entryKeys (allParameterWrites vs) := List.mem_map_of_mem he
    have stale : e.1 ∈ staleKeys (d.written vs c) := by
      rw [mem_staleKeys, keys]
      refine .inr ⟨?_, isParameterKey_of_mem_allParameterWrites written⟩
      exact List.mem_append_left _ (List.mem_append_right _ written)
    simpa using stale
  have command : (commandWrites d).filter
      (fun e => !(staleKeys (d.written vs c)).contains e.1) = [] := by
    refine List.filter_eq_nil_iff.mpr fun e he => ?_
    have stale : e.1 ∈ staleKeys (d.written vs c) := by
      rw [mem_staleKeys]
      exact .inl (mem_commandEntries_of_mem_commandWrites (List.mem_map_of_mem he))
    simpa using stale
  apply OrderedMap.ext
  rw [cleared, OrderedMap.toList_eraseAll, entries, List.filter_append, List.filter_append, old,
    parameters, command, List.append_nil, List.append_nil]

/-- A command that is alone in the store is read as it was written. -/
theorem runOn_readCommand_alone (unused : NoCommand c) (empty : NoParameters c)
    (distinct : (d.parameters.map Prod.fst).Nodup) (encodable : encodeAll d.parameters = .ok vs) :
    runOn readCommand (d.written vs c) = (.ok (some (d.command vs)), d.written vs c) := by
  have distinct' : (vs.map Prod.fst).Nodup := names_of_encodeAll encodable ▸ distinct
  have read := runOn_readCommand_written (decodes_of_noParameters empty) encodable
  rw [parametersOf_putAll_allParameterWrites distinct' empty, confirmationAt_of_noCommand unused,
    Option.or_none] at read
  exact read

/-- A command that is collected is read as it was written and leaves nothing behind. -/
theorem runOn_collectCommand_written (unused : NoCommand c) (empty : NoParameters c)
    (distinct : (d.parameters.map Prod.fst).Nodup) (encodable : encodeAll d.parameters = .ok vs) :
    runOn collectCommand (d.written vs c) =
      (.ok (some (d.command vs, true)), c) := by
  have distinct' : (vs.map Prod.fst).Nodup := names_of_encodeAll encodable ▸ distinct
  have clear := runOn_clearCommand (textAt_written_nonce d vs c)
  rw [cleared_written unused empty distinct'] at clear
  unfold collectCommand
  rw [runOn_bind_ok (runOn_readCommand_alone unused empty distinct encodable)]
  exact runOn_bind_ok clear _

/-! ## Replies -/

theorem runOn_postReply (nonce : String) (message : Option String) (c : Contents) :
    runOn (postReply nonce message) c =
      (.ok (), c.put (replyEntry nonce) (.text (message.getD ""))) :=
  runOn_set (v := .text (message.getD "")) rfl _ c

end ShortcutRelay.Protocol
