import ShortcutRelay.Proofs.Json.Lexeme
import ShortcutRelay.Proofs.Store.Contents

/-!
# Parts of a value

* `Part k j` : `k` is `j` or stands somewhere inside it;
* `Whole j` : no part of `j` is a double;
* `Readable j` : what holds of every value that is read;
* `Exact j` : both, so that `j` is written without loss.
-/

namespace ShortcutRelay

theorem mem_putEntry {α κ : Type} [DecidableEq κ] {key : κ} {value : α} {es : List (κ × α)}
    {e : κ × α} (h : e ∈ putEntry key value es) : e = (key, value) ∨ e ∈ es := by
  induction es with
  | nil => exact .inl (List.mem_singleton.mp h)
  | cons f es ih =>
    obtain ⟨k, v⟩ := f
    rw [putEntry] at h
    split at h
    · next same =>
      subst same
      rcases List.mem_cons.mp h with here | later
      · exact .inl here
      · exact .inr (List.mem_cons_of_mem _ later)
    · rcases List.mem_cons.mp h with here | later
      · exact .inr (here ▸ List.mem_cons_self)
      · exact (ih later).imp_right (List.mem_cons_of_mem _)

namespace Json
open Decimal

/-- The first value is the second one or stands inside it. -/
inductive Part : Json → Json → Prop
  | self (j : Json) : Part j j
  | item {k j : Json} {items : List Json} (mem : j ∈ items) (part : Part k j) :
      Part k (.array items)
  | member {k : Json} {e : List CodePoint × Json} {members : List (List CodePoint × Json)}
      (mem : e ∈ members) (part : Part k e.2) : Part k (.object members)

/-- No part of the value is a double. -/
def Whole (j : Json) : Prop :=
  ∀ x, ¬ Part (.float x) j

/-- What holds of every value that is read: its whole numbers are short, and no object in it repeats
a key. -/
structure Readable (j : Json) : Prop where
  short : ∀ n, Part (.int n) j → digitCount n ≤ digitLimit
  distinct : ∀ members, Part (.object members) j → (entryKeys members).Nodup

/-- A value that is written without loss. -/
structure Exact (j : Json) : Prop extends Readable j where
  whole : Whole j

theorem Readable.text (s : List CodePoint) : Readable (.text s) where
  short n p := by cases p
  distinct ms p := by cases p

theorem Readable.array {items : List Json} (h : ∀ j ∈ items, Readable j) :
    Readable (.array items) where
  short n p := by
    cases p with
    | item mem part => exact (h _ mem).short n part
  distinct ms p := by
    cases p with
    | item mem part => exact (h _ mem).distinct ms part

theorem Readable.object {members : List (List CodePoint × Json)} (keys : (entryKeys members).Nodup)
    (values : ∀ e ∈ members, Readable e.2) : Readable (.object members) where
  short n p := by
    cases p with
    | member mem part => exact (values _ mem).short n part
  distinct ms p := by
    cases p with
    | self => exact keys
    | member mem part => exact (values _ mem).distinct ms part

theorem readable_object_iff {members : List (List CodePoint × Json)} : Readable (.object members) ↔
    (entryKeys members).Nodup ∧ ∀ e ∈ members, Readable e.2 := by
  constructor
  · intro h
    exact ⟨h.distinct _ (.self _), fun e mem =>
      ⟨fun n part => h.short n (.member mem part), fun ms part => h.distinct ms (.member mem part)⟩⟩
  · rintro ⟨distinct, values⟩
    exact .object distinct values

theorem Exact.text (s : List CodePoint) : Exact (.text s) :=
  { Readable.text s with whole := fun x p => by cases p }

theorem Exact.item {items : List Json} (h : Exact (.array items)) {j : Json} (mem : j ∈ items) :
    Exact j where
  short n p := h.short n (.item mem p)
  distinct ms p := h.distinct ms (.item mem p)
  whole x p := h.whole x (.item mem p)

theorem Exact.member {members : List (List CodePoint × Json)} (h : Exact (.object members))
    {e : List CodePoint × Json} (mem : e ∈ members) : Exact e.2 where
  short n p := h.short n (.member mem p)
  distinct ms p := h.distinct ms (.member mem p)
  whole x p := h.whole x (.member mem p)

theorem Exact.object {members : List (List CodePoint × Json)} (keys : (entryKeys members).Nodup)
    (values : ∀ e ∈ members, Exact e.2) : Exact (.object members) :=
  { Readable.object keys fun e mem => (values e mem).toReadable with
    whole := fun x p => by
      cases p with
      | member mem part => exact (values _ mem).whole x part }

end Json

end ShortcutRelay
