/-
Items that are numbered when they are drawn and handed in later.

An item is drawn, which gives it the next number; somebody holds it for a
while, and then hands it in. Items have keys, and only the order among the
items of one key matters. Many may hold items at once, so an older item can be
handed in after a younger one; the rule that keeps the order is that whoever
hands in an item holds the oldest of its key. When nobody holds an item any
more, what was handed in under a key is what was drawn under it.

Nothing here is about any program.
-/
import Mathlib.Data.List.Sort
import Mathlib.Data.List.Perm.Basic
import Mathlib.Data.List.Range

set_option autoImplicit false

namespace Ticket

variable {α κ : Type*} (key : α → κ) (num : α → ℕ)

/-- Of two items with the same key the first is the older one. -/
def Older (a b : α) : Prop := key a = key b → num a < num b

/-- The items drawn so far, those that are held and those that were handed in:
the latter are in order, and older than what is still held. -/
structure InOrder (drawn held done : List α) : Prop where
  numbered : drawn.map num = List.range drawn.length
  perm : (done ++ held).Perm drawn
  ordered : done.Pairwise (Older key num)
  before : ∀ a ∈ done, ∀ b ∈ held, Older key num a b

variable {key num} {drawn held held' done : List α} {x : α}

namespace InOrder

theorem nil : InOrder key num [] [] [] where
  numbered := rfl
  perm := .refl _
  ordered := .nil
  before := by simp

/-- It does not matter who holds what. -/
theorem hold (h : InOrder key num drawn held done) (hp : held'.Perm held) :
    InOrder key num drawn held' done where
  numbered := h.numbered
  perm := (hp.append_left done).trans h.perm
  ordered := h.ordered
  before := fun a ha b hb => h.before a ha b (hp.mem_iff.mp hb)

/-- Numbers are below the number of items drawn. -/
theorem num_lt (h : InOrder key num drawn held done) {a : α} (ha : a ∈ drawn) :
    num a < drawn.length := by
  have hmem : num a ∈ drawn.map num := List.mem_map_of_mem ha
  rw [h.numbered] at hmem
  exact List.mem_range.mp hmem

theorem num_inj (h : InOrder key num drawn held done) : (drawn.map num).Nodup := by
  rw [h.numbered]
  exact List.nodup_range

/-- **Drawing.** New items are the youngest. -/
theorem draw (h : InOrder key num drawn held done) (new : List α)
    (hnew : new.map num = List.range' drawn.length new.length) :
    InOrder key num (drawn ++ new) (held ++ new) done where
  numbered := by
    have happ := List.range'_append_1 (s := 0) (m := drawn.length) (n := new.length)
    rw [Nat.zero_add] at happ
    rw [List.map_append, h.numbered, hnew, List.length_append, List.range_eq_range',
      List.range_eq_range', happ]
  perm := by
    rw [← List.append_assoc]
    exact h.perm.append_right new
  ordered := h.ordered
  before := by
    intro a ha b hb heq
    rcases List.mem_append.mp hb with hb | hb
    · exact h.before a ha b hb heq
    · have hlt := h.num_lt (h.perm.mem_iff.mp (List.mem_append_left held ha))
      have hmem : num b ∈ new.map num := List.mem_map_of_mem hb
      rw [hnew, List.mem_range'_1] at hmem
      omega

/-- **Handing in.** The oldest item of its key keeps the order. -/
theorem put (h : InOrder key num drawn (x :: held) done)
    (hmin : ∀ y ∈ held, key y = key x → num x ≤ num y) :
    InOrder key num drawn held (done ++ [x]) where
  numbered := h.numbered
  perm := by
    rw [List.append_assoc]
    exact h.perm
  ordered := by
    rw [List.pairwise_append]
    refine ⟨h.ordered, List.pairwise_singleton _ _, ?_⟩
    intro a ha b hb
    rw [List.mem_singleton.mp hb]
    exact h.before a ha x List.mem_cons_self
  before := by
    intro a ha b hb heq
    rcases List.mem_append.mp ha with ha | ha
    · exact h.before a ha b (List.mem_cons_of_mem x hb) heq
    · rw [List.mem_singleton.mp ha] at heq ⊢
      have hle := hmin b hb heq.symm
      -- two different items have different numbers
      have hnodup : ((x :: held).map num).Nodup := by
        have hall := (h.perm.map num).nodup_iff.mpr h.num_inj
        rw [List.map_append] at hall
        exact hall.of_append_right
      have hne : num x ≠ num b := by
        intro hsame
        rw [List.map_cons, List.nodup_cons, hsame] at hnodup
        exact hnodup.1 (List.mem_map_of_mem hb)
      omega

/-- **Nothing is held any more.** What was handed in under a key is what was
drawn under it, in the same order. -/
theorem settled [DecidableEq κ] (h : InOrder key num drawn [] done) (k : κ) :
    (done.filter fun a => key a = k) = drawn.filter fun a => key a = k := by
  have hperm : (done.filter fun a => key a = k).Perm (drawn.filter fun a => key a = k) := by
    have hall := h.perm
    rw [List.append_nil] at hall
    exact hall.filter _
  have hdrawn : drawn.Pairwise fun a b => num a < num b := by
    have hlt : (drawn.map num).Pairwise (· < ·) := by
      rw [h.numbered]
      exact List.pairwise_lt_range
    exact List.pairwise_map.mp hlt
  have hdone : (done.filter fun a => key a = k).Pairwise fun a b => num a < num b := by
    rw [List.pairwise_filter]
    refine h.ordered.imp ?_
    intro a b hab ha hb
    exact hab ((of_decide_eq_true ha).trans (of_decide_eq_true hb).symm)
  refine hperm.eq_of_pairwise ?_ hdone (hdrawn.filter _)
  intro a b _ _ hab hba
  omega

end InOrder

end Ticket
