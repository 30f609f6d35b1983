import ShortcutRelay.Files.Tree
import ShortcutRelay.Proofs.Except

/-!
# Files that are written

* `node?_put` : what stands at the places of a changed tree;
* `Writable t place` : a file can be written at a place;
* `write_eq_ok_iff` : the tree after a file was written;
* `locate_congr` : where paths lead depends on the directories only, and written files change none
  (`sameDirectories_writeTexts`);
* `writeText t base path text` : the tree after a text was written; `writeText_eq_ok_iff`;
* `writeTexts t base texts` : the tree after several texts were written, with what stands in it in
  `node?_writeTexts`; they can be written again in `writeTexts_again`;
* `locate_child` : where the name of a file in a directory leads.
-/

namespace ShortcutRelay.FileTree

variable {t t' : FileTree} {base p : Path} {place : List String}

theorem lookup_filter {nodes : List (List String × FileNode)} {other : List String}
    (h : other ≠ place) : (nodes.filter (·.1 != place)).lookup other = nodes.lookup other := by
  induction nodes with
  | nil => rfl
  | cons e nodes ih =>
    obtain ⟨found, node⟩ := e
    by_cases here : found = place
    · have missed : (other == found) = false := beq_eq_false_iff_ne.mpr (here ▸ h)
      rw [List.filter_cons_of_neg (by simp [here]), ih, List.lookup_cons, missed]
    · rw [List.filter_cons_of_pos (by simp [here]), List.lookup_cons, List.lookup_cons, ih]

theorem node?_put (t : FileTree) (place : List String) (node : FileNode) {other : List String}
    (h : other ≠ []) :
    (t.put place node).node? other = if other = place then some node else t.node? other := by
  unfold node?
  rw [if_neg h, if_neg h]
  by_cases same : other = place
  · rw [if_pos same, put, same, List.lookup_cons_self]
  · rw [if_neg same, put, List.lookup_cons, beq_eq_false_iff_ne.mpr same]
    exact lookup_filter same

/-- A file can be written at the place: one stands there, or nothing does and the directory of the
place is there. -/
def Writable (t : FileTree) (place : List String) : Prop :=
  (∃ bytes, t.node? place = some (.file bytes)) ∨
    t.node? place = none ∧ t.node? place.dropLast = some .directory

theorem Writable.ne_nil (h : t.Writable place) : place ≠ [] := by
  rintro rfl
  rcases h with ⟨bytes, found⟩ | ⟨found, -⟩ <;> cases found

theorem Writable.not_directory (h : t.Writable place) : t.node? place ≠ some .directory := by
  rcases h with ⟨bytes, found⟩ | ⟨found, -⟩ <;> rw [found] <;> nofun

theorem writable_of_above (above : t.node? place.dropLast = some .directory)
    (here : t.node? place ≠ some .directory) : t.Writable place := by
  cases found : t.node? place with
  | none => exact .inr ⟨found, above⟩
  | some node =>
    cases node with
    | file bytes => exact .inl ⟨bytes, found⟩
    | directory => exact absurd found here

theorem write_eq_ok_iff {bytes : List UInt8} : t.write base p bytes = .ok t' ↔
    ∃ place, t.locate base p = .ok place ∧ t.Writable place ∧ t' = t.put place (.file bytes) := by
  constructor
  · intro h
    obtain ⟨place, located, h⟩ := of_bind_eq_ok h
    refine ⟨place, located, ?_⟩
    cases here : t.node? place with
    | some node =>
      rw [here] at h
      cases node with
      | directory => cases h
      | file old =>
        cases h
        exact ⟨.inl ⟨old, here⟩, rfl⟩
    | none =>
      rw [here] at h
      dsimp only at h
      cases above : t.node? place.dropLast with
      | none =>
        rw [above] at h
        cases h
      | some node =>
        rw [above] at h
        cases node with
        | file old => cases h
        | directory =>
          cases h
          exact ⟨.inr ⟨here, above⟩, rfl⟩
  · rintro ⟨place, located, ⟨old, here⟩ | ⟨here, above⟩, rfl⟩
    · rw [write, located, ok_bind, here]
      rfl
    · rw [write, located, ok_bind, here]
      dsimp only
      rw [above]
      rfl

/-! ## Directories -/

def SameDirectories (t t' : FileTree) : Prop :=
  ∀ place, t.node? place = some .directory ↔ t'.node? place = some .directory

theorem sameDirectories_put (h : t.Writable place) (bytes : List UInt8) :
    SameDirectories t (t.put place (.file bytes)) := by
  intro other
  by_cases root : other = []
  · rw [root]
    exact Iff.rfl
  · rw [node?_put t place _ root]
    split
    · next same =>
      rw [same]
      exact ⟨fun found => absurd found h.not_directory, nofun⟩
    · exact Iff.rfl

theorem step_eq_ok_iff {name : String} {next : List String} : t.step place name = .ok next ↔
    t.node? place = some .directory ∧
      (if name = ".." then .ok place.dropLast
        else if nameLimit < (Text.encodeUtf8 name).length then .error .nameTooLong
        else .ok (place ++ [name]) : Except FileError (List String)) = .ok next := by
  unfold step
  split
  · next found => simp [found]
  · next found => simp [found]
  · next found =>
    rw [found]
    exact ⟨fun h => ⟨rfl, h⟩, And.right⟩

/-- Where a path leads depends on the directories only. -/
theorem locate_congr (h : SameDirectories t t') :
    t.locate base p = .ok place ↔ t'.locate base p = .ok place := by
  have walk (names : List String) (start : List String) :
      names.foldlM t.step start = .ok place ↔ names.foldlM t'.step start = .ok place := by
    induction names generalizing start with
    | nil => exact Iff.rfl
    | cons name names ih =>
      rw [List.foldlM_cons, List.foldlM_cons, bind_eq_ok_iff, bind_eq_ok_iff]
      refine exists_congr fun next => and_congr ?_ (ih next)
      rw [step_eq_ok_iff, step_eq_ok_iff, h start]
  unfold locate
  split
  · exact Iff.rfl
  · exact walk _ []

theorem writable_put {q : List String} (h : t.Writable q) (bytes : List UInt8) :
    (t.put q (.file bytes)).Writable place ↔ t.Writable place := by
  by_cases root : place = []
  · constructor <;> intro w <;> exact absurd root w.ne_nil
  · have above := sameDirectories_put h bytes place.dropLast
    unfold Writable
    rw [← above, node?_put t q _ root]
    by_cases same : place = q
    · rw [if_pos same, same]
      exact ⟨fun _ => h, fun _ => .inl ⟨bytes, rfl⟩⟩
    · rw [if_neg same]

/-! ## Texts -/

theorem put_put (t : FileTree) (place : List String) (node node' : FileNode) :
    (t.put place node).put place node' = t.put place node' := by
  simp [put]

/-- What is written over again is not seen. -/
theorem write_write {bytes : List UInt8} (h : t.write base p bytes = .ok t') (bytes' : List UInt8) :
    t'.write base p bytes' = t.write base p bytes' := by
  obtain ⟨place, led, writable, rfl⟩ := write_eq_ok_iff.mp h
  have before : t.write base p bytes' = .ok _ := write_eq_ok_iff.mpr ⟨place, led, writable, rfl⟩
  have led' := (locate_congr (sameDirectories_put writable bytes)).mp led
  have after : (t.put place (.file bytes)).write base p bytes' = .ok _ :=
    write_eq_ok_iff.mpr ⟨place, led', (writable_put writable bytes).mpr writable, rfl⟩
  rw [before, after, put_put]

/-- The tree after a text was written to a path, where the file is emptied first. -/
def writeText (t : FileTree) (base path : Path) (text : List CodePoint) :
    Except FileError FileTree := do
  let emptied ← t.write base path []
  match Text.encodeCodePoints text with
  | .ok bytes => emptied.write base path bytes
  | .error e => throw (.noBytes e)

theorem write_some {bytes : List UInt8} (h : t.write base p bytes = .ok t') (bytes' : List UInt8) :
    ∃ u, t.write base p bytes' = .ok u := by
  obtain ⟨place, led, writable, -⟩ := write_eq_ok_iff.mp h
  exact ⟨_, write_eq_ok_iff.mpr ⟨place, led, writable, rfl⟩⟩

/-- A file that cannot be emptied cannot be filled either. -/
theorem write_error {bytes : List UInt8} {e : FileError} (h : t.write base p bytes = .error e)
    (bytes' : List UInt8) : t.write base p bytes' = .error e := by
  unfold write at h ⊢
  rcases bind_eq_error_iff.mp h with nowhere | ⟨place, led, failed⟩
  · rw [nowhere]
    rfl
  · rw [led, ok_bind]
    split at failed
    · exact failed
    · cases failed
    · split at failed
      · cases failed
      · exact failed
      · exact failed

theorem writeText_of_bytes {text : List CodePoint} {bytes : List UInt8}
    (h : Text.encodeCodePoints text = .ok bytes) :
    t.writeText base p text = t.write base p bytes := by
  rw [writeText, h]
  cases emptied : t.write base p [] with
  | ok tree => exact write_write emptied bytes
  | error e =>
    rw [write_error emptied bytes]
    rfl

theorem writeText_of_noBytes {text : List CodePoint} {e : Text.NoBytes}
    (h : Text.encodeCodePoints text = .error e) :
    t.writeText base p text = t.write base p [] >>= fun _ => .error (.noBytes e) := by
  rw [writeText, h]
  rfl

theorem writeText_eq_ok_iff {text : List CodePoint} : t.writeText base p text = .ok t' ↔
    ∃ bytes, Text.encodeCodePoints text = .ok bytes ∧
      ∃ place, t.locate base p = .ok place ∧ t.Writable place ∧ t' = t.put place (.file bytes) := by
  cases encoded : Text.encodeCodePoints text with
  | ok bytes =>
    rw [writeText_of_bytes encoded, write_eq_ok_iff]
    simp
  | error e =>
    rw [writeText_of_noBytes encoded, bind_eq_ok_iff]
    simp

def writeTexts (t : FileTree) (base : Path) : List (Path × List CodePoint) → Except FileError FileTree
  | [] => .ok t
  | (path, text) :: rest => do (← t.writeText base path text).writeTexts base rest

theorem writeTexts_append (t : FileTree) (base : Path) (texts texts' : List (Path × List CodePoint)) :
    t.writeTexts base (texts ++ texts') =
      t.writeTexts base texts >>= fun u => u.writeTexts base texts' := by
  induction texts generalizing t with
  | nil => rfl
  | cons e rest ih =>
    rw [List.cons_append, writeTexts, writeTexts, bind_assoc]
    exact congrArg _ (funext ih)

/-- The last of the texts whose path leads to a place. -/
def lastAt (t : FileTree) (base : Path) (place : List String) :
    List (Path × List CodePoint) → Option (List CodePoint)
  | [] => none
  | (path, text) :: rest =>
    (t.lastAt base place rest).or
      (if (t.locate base path).toOption = some place then some text else none)

variable {texts : List (Path × List CodePoint)}

theorem lastAt_cons (t : FileTree) (base : Path) (place : List String) (e : Path × List CodePoint)
    (rest : List (Path × List CodePoint)) : t.lastAt base place (e :: rest) =
      (t.lastAt base place rest).or
        (if (t.locate base e.1).toOption = some place then some e.2 else none) := rfl

theorem lastAt_congr (h : SameDirectories t t') :
    t.lastAt base place texts = t'.lastAt base place texts := by
  induction texts with
  | nil => rfl
  | cons e rest ih =>
    have led : (t.locate base e.1).toOption = (t'.locate base e.1).toOption := by
      ext q
      rw [toOption_eq_some_iff, toOption_eq_some_iff, locate_congr h]
    rw [lastAt_cons, lastAt_cons, ih, led]

theorem lastAt_eq_none (h : ∀ e ∈ texts, t.locate base e.1 ≠ .ok place) :
    t.lastAt base place texts = none := by
  induction texts with
  | nil => rfl
  | cons e rest ih =>
    have elsewhere : (t.locate base e.1).toOption ≠ some place := by
      rw [ne_eq, toOption_eq_some_iff]
      exact h e (List.mem_cons_self ..)
    rw [lastAt_cons, if_neg elsewhere, ih fun e mem => h e (List.mem_cons_of_mem _ mem)]
    rfl

/-- A text is the last one at its place where all other texts are written elsewhere. -/
theorem lastAt_of_mem {e : Path × List CodePoint} (mem : e ∈ texts)
    (led : t.locate base e.1 = .ok place)
    (alone : ∀ e' ∈ texts, t.locate base e'.1 = .ok place → e' = e) :
    t.lastAt base place texts = some e.2 := by
  induction texts with
  | nil => cases mem
  | cons first rest ih =>
    have alone' : ∀ e' ∈ rest, t.locate base e'.1 = .ok place → e' = e :=
      fun e' mem => alone e' (List.mem_cons_of_mem _ mem)
    rw [lastAt_cons]
    by_cases later : e ∈ rest
    · rw [ih later alone']
      rfl
    · have none_later : ∀ e' ∈ rest, t.locate base e'.1 ≠ .ok place := by
        intro e' mem' led'
        exact later (alone' e' mem' led' ▸ mem')
      obtain rfl : e = first := (List.mem_cons.mp mem).resolve_right later
      rw [lastAt_eq_none none_later, if_pos (toOption_eq_some_iff.mpr led), Option.none_or]

/-- What stands in the tree after texts were written: the bytes of the last text of each place, and
what no text was written to. -/
theorem node?_writeTexts (h : t.writeTexts base texts = .ok t') (some_name : place ≠ []) :
    t'.node? place = match t.lastAt base place texts with
      | some text => (Text.encodeCodePoints text).toOption.map .file
      | none => t.node? place := by
  induction texts generalizing t with
  | nil =>
    cases h
    rfl
  | cons e rest ih =>
    obtain ⟨u, written, h⟩ := of_bind_eq_ok h
    obtain ⟨bytes, encoded, q, led, writable, rfl⟩ := writeText_eq_ok_iff.mp written
    rw [ih h, ← lastAt_congr (sameDirectories_put writable bytes), node?_put t q _ some_name,
      lastAt_cons, led]
    cases t.lastAt base place rest with
    | some text => rfl
    | none =>
      by_cases here : place = q
      · simp [here, encoded, Except.toOption]
      · simp [here, Ne.symm here, Except.toOption]

theorem sameDirectories_writeTexts (h : t.writeTexts base texts = .ok t') :
    SameDirectories t t' := by
  induction texts generalizing t with
  | nil =>
    cases h
    exact fun _ => Iff.rfl
  | cons e rest ih =>
    obtain ⟨u, written, h⟩ := of_bind_eq_ok h
    obtain ⟨bytes, -, q, led, writable, rfl⟩ := writeText_eq_ok_iff.mp written
    intro place
    rw [sameDirectories_put writable bytes place, ih h place]

theorem writable_writeTexts (h : t.writeTexts base texts = .ok t') :
    t'.Writable place ↔ t.Writable place := by
  induction texts generalizing t with
  | nil =>
    cases h
    exact Iff.rfl
  | cons e rest ih =>
    obtain ⟨u, written, h⟩ := of_bind_eq_ok h
    obtain ⟨bytes, -, q, led, writable, rfl⟩ := writeText_eq_ok_iff.mp written
    rw [ih h, writable_put writable]

/-- Texts can be written where each of them can be and has bytes. -/
theorem writeTexts_ok_iff : (∃ t', t.writeTexts base texts = .ok t') ↔
    ∀ e ∈ texts, (∃ bytes, Text.encodeCodePoints e.2 = .ok bytes) ∧
      ∃ place, t.locate base e.1 = .ok place ∧ t.Writable place := by
  induction texts generalizing t with
  | nil => exact ⟨fun _ => nofun, fun _ => ⟨t, rfl⟩⟩
  | cons e rest ih =>
    have later {q : List String} (writable : t.Writable q) (bytes : List UInt8) (path : Path) :
        (∃ place, (t.put q (.file bytes)).locate base path = .ok place ∧
          (t.put q (.file bytes)).Writable place) ↔
        ∃ place, t.locate base path = .ok place ∧ t.Writable place := by
      refine exists_congr fun place => ?_
      rw [← locate_congr (sameDirectories_put writable bytes), writable_put writable]
    constructor
    · rintro ⟨t', h⟩ e' mem
      obtain ⟨u, written, h⟩ := of_bind_eq_ok h
      obtain ⟨bytes, encoded, q, led, writable, rfl⟩ := writeText_eq_ok_iff.mp written
      rcases List.mem_cons.mp mem with rfl | mem
      · exact ⟨⟨bytes, encoded⟩, q, led, writable⟩
      · have each := ih.mp ⟨t', h⟩ e' mem
        exact ⟨each.1, (later writable bytes e'.1).mp each.2⟩
    · intro each
      obtain ⟨⟨bytes, encoded⟩, q, led, writable⟩ := each e (List.mem_cons_self ..)
      have written : t.writeText base e.1 e.2 = .ok _ :=
        writeText_eq_ok_iff.mpr ⟨bytes, encoded, q, led, writable, rfl⟩
      obtain ⟨t', h⟩ := ih.mpr fun e' mem =>
        have here := each e' (List.mem_cons_of_mem _ mem)
        ⟨here.1, (later writable bytes e'.1).mpr here.2⟩
      refine ⟨t', ?_⟩
      rw [writeTexts, written]
      exact h

/-- Texts that were written can be written once more, and nothing changes then. -/
theorem writeTexts_again (h : t.writeTexts base texts = .ok t') :
    ∃ u, t'.writeTexts base texts = .ok u ∧ ∀ place, u.node? place = t'.node? place := by
  have dirs := sameDirectories_writeTexts h
  have each := writeTexts_ok_iff.mp ⟨t', h⟩
  obtain ⟨u, again⟩ : ∃ u, t'.writeTexts base texts = .ok u := by
    rw [writeTexts_ok_iff]
    intro e mem
    obtain ⟨encoded, place, led, writable⟩ := each e mem
    exact ⟨encoded, place, (locate_congr dirs).mp led, (writable_writeTexts h).mpr writable⟩
  refine ⟨u, again, fun place => ?_⟩
  by_cases root : place = []
  · rw [root]
    rfl
  · rw [node?_writeTexts again root, node?_writeTexts h root, ← lastAt_congr dirs]
    cases t.lastAt base place texts <;> rfl

/-! ## Files in a directory -/

/-- The text is one name of a file, and not too long. -/
structure IsName (name : String) : Prop where
  path : Path.ofText name = { names := [name] }
  noNull : '\x00' ∉ name.toList
  notParent : name ≠ ".."
  short : (Text.encodeUtf8 name).length ≤ nameLimit

theorem locate_child {name : String} (h : IsName name) : t.locate base (p.child name) = .ok place ↔
    ∃ dir, t.locate base p = .ok dir ∧ t.node? dir = some .directory ∧ place = dir ++ [name] := by
  have child : p.child name = { p with names := p.names ++ [name] } := by
    rw [Path.child, h.path]
    rfl
  have names : (base.join (p.child name)).names = (base.join p).names ++ [name] := by
    rw [child]
    unfold Path.join
    show (if p.isAbsolute = true then _ else _ : Path).names = _
    split
    · rfl
    · exact (List.append_assoc ..).symm
  have null : (p.child name).hasNull = p.hasNull := by
    rw [child]
    simp [Path.hasNull, h.noNull]
  have last (dir : List String) : t.step dir name = .ok place ↔
      t.node? dir = some .directory ∧ place = dir ++ [name] := by
    rw [step_eq_ok_iff, if_neg h.notParent, if_neg (Nat.not_lt.mpr h.short), Except.ok.injEq,
      eq_comm (a := dir ++ [name])]
  unfold locate
  rw [null]
  split
  · simp
  · rw [names, List.foldlM_append, bind_eq_ok_iff]
    refine exists_congr fun dir => and_congr Iff.rfl ?_
    have one : [name].foldlM t.step dir = t.step dir name := by
      rw [List.foldlM_cons]
      exact bind_pure _
    rw [one]
    exact last dir

end ShortcutRelay.FileTree
