/-
Keeping a remote table of what is visible up to date by messages.

A table gives each object the position it was last told of. A message puts an
object in, takes it out, or moves it if it is there. Messages about different
objects do not interfere, and repeating a message does nothing, so what a list
of messages does to one entry is known as soon as all messages about that
object are the same: the four cases of `Turns`. Nothing has to be said about
the order of the list.

Nothing here is about any program.
-/
import Mathlib.Data.List.Basic
import Mathlib.Logic.Function.Basic

set_option autoImplicit false

namespace ViewSync

variable {Id Pos : Type*}

inductive Msg (Id Pos : Type*) where
  | appear (i : Id) (p : Pos)
  | vanish (i : Id)
  | shift (i : Id) (p : Pos)

/-- The object a message is about. -/
def Msg.about : Msg Id Pos → Id
  | .appear i _ => i
  | .vanish i => i
  | .shift i _ => i

/-- What a message makes of the entry of its object. -/
def Msg.entry (x : Option Pos) : Msg Id Pos → Option Pos
  | .appear _ p => some p
  | .vanish _ => none
  | .shift _ p => x.map fun _ => p

/-- A second time changes nothing more. -/
theorem Msg.entry_entry (x : Option Pos) (m : Msg Id Pos) : m.entry (m.entry x) = m.entry x := by
  cases m with
  | appear i p => rfl
  | vanish i => rfl
  | shift i p => cases x <;> rfl

variable [DecidableEq Id]

def apply (t : Id → Option Pos) (m : Msg Id Pos) : Id → Option Pos :=
  Function.update t m.about (m.entry (t m.about))

def applyAll (t : Id → Option Pos) (ms : List (Msg Id Pos)) : Id → Option Pos :=
  ms.foldl apply t

variable {t : Id → Option Pos} {ms ns : List (Msg Id Pos)} {i : Id} {p : Pos} {x y z : Option Pos}

theorem applyAll_append :
    applyAll t (ms ++ ns) = applyAll (applyAll t ms) ns :=
  List.foldl_append

/-- Messages about others leave an entry alone. -/
theorem applyAll_of_ne (h : ∀ m ∈ ms, m.about ≠ i) : applyAll t ms i = t i := by
  induction ms generalizing t with
  | nil => rfl
  | cons m ms ih =>
      obtain ⟨hm, hms⟩ := List.forall_mem_cons.mp h
      have hi := ih (t := apply t m) hms
      rw [applyAll, List.foldl_cons, ← applyAll, hi, apply, Function.update_of_ne (Ne.symm hm)]

open Classical in
/-- When all messages about an object are one and the same, they do what it
does, once it is there. -/
theorem applyAll_of_all {m₀ : Msg Id Pos} (hi : m₀.about = i)
    (hall : ∀ m ∈ ms, m.about = i → m = m₀) :
    applyAll t ms i = if m₀ ∈ ms then m₀.entry (t i) else t i := by
  induction ms generalizing t with
  | nil => simp [applyAll]
  | cons m ms ih =>
      obtain ⟨hm, hms⟩ := List.forall_mem_cons.mp hall
      have hrest := ih (t := apply t m) hms
      rw [applyAll, List.foldl_cons, ← applyAll, hrest]
      by_cases hmi : m.about = i
      · obtain rfl := hm hmi
        have hentry : apply t m i = m.entry (t i) := by
          rw [apply, hmi, Function.update_self]
        rw [hentry, if_pos List.mem_cons_self, Msg.entry_entry, ite_self]
      · have hne : m₀ ≠ m := by
          rintro rfl
          exact hmi hi
        have hentry : apply t m i = t i := by
          rw [apply, Function.update_of_ne (Ne.symm hmi)]
        rw [hentry]
        simp only [List.mem_cons, hne, false_or]

/-- The messages turn the entry `x` of an object into `y`. -/
def Turns (ms : List (Msg Id Pos)) (i : Id) (x y : Option Pos) : Prop :=
  ∀ t : Id → Option Pos, t i = x → applyAll t ms i = y

namespace Turns

theorem unchanged (h : ∀ m ∈ ms, m.about ≠ i) : Turns ms i x x := by
  intro t ht
  rw [applyAll_of_ne h, ht]

theorem all (m₀ : Msg Id Pos) (hi : m₀.about = i) (hall : ∀ m ∈ ms, m.about = i → m = m₀)
    (hmem : m₀ ∈ ms) : Turns ms i x (m₀.entry x) := by
  intro t ht
  rw [applyAll_of_all hi hall, if_pos hmem, ht]

theorem appears (hall : ∀ m ∈ ms, m.about = i → m = .appear i p) (hmem : .appear i p ∈ ms) :
    Turns ms i x (some p) :=
  all (.appear i p) rfl hall hmem

theorem vanishes (hall : ∀ m ∈ ms, m.about = i → m = .vanish i) (hmem : .vanish i ∈ ms) :
    Turns ms i x none :=
  all (.vanish i) rfl hall hmem

theorem append (h : Turns ms i x y) (h' : Turns ns i y z) : Turns (ms ++ ns) i x z := by
  intro t ht
  rw [applyAll_append]
  exact h' _ (h t ht)

/-- Nothing is said but one message, and that under a condition. -/
theorem of_mem_iff {m₀ : Msg Id Pos} {c : Prop} [Decidable c] (h : ∀ m, m ∈ ms ↔ c ∧ m = m₀) :
    Turns ms m₀.about x (if c then m₀.entry x else x) := by
  split
  · next hc => exact all m₀ rfl (fun m hm _ => ((h m).mp hm).2) ((h m₀).mpr ⟨hc, rfl⟩)
  · next hc => exact unchanged fun m hm => absurd ((h m).mp hm).1 hc

end Turns

end ViewSync
