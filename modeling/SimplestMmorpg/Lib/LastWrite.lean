/-
What a loop of writes leaves in one place.

A loop that draws or fills writes some places in each of its steps. What a place
holds afterwards is what the last step wrote there that wrote there at all, and
what it held before when no step did. So a loop is itself a write, and nested
loops need nothing of their own.

Nothing here is about any program.
-/
import Mathlib.Data.List.Basic

set_option autoImplicit false

namespace LastWrite

variable {σ α β γ : Type*} {get : σ → γ} {f : σ → α → σ} {w : α → Option γ} {l l' : List α} {v : γ}

/-- A step leaves `w a` in the place that `get` reads, or leaves it as it is. -/
def Writes (get : σ → γ) (f : σ → α → σ) (w : α → Option γ) : Prop :=
  ∀ s a, get (f s a) = (w a).getD (get s)

/-- What the last step writes of those that write at all. -/
def last (w : α → Option γ) (l : List α) : Option γ := l.reverse.findSome? w

@[simp] theorem last_nil : last w [] = none := rfl

theorem last_append : last w (l ++ l') = (last w l').or (last w l) := by
  unfold last
  rw [List.reverse_append, List.findSome?_append]

@[simp] theorem last_singleton (a : α) : last w [a] = w a := by
  unfold last
  rw [List.reverse_singleton, List.findSome?_singleton]

theorem last_cons (a : α) : last w (a :: l) = (last w l).or (w a) := by
  have happend : last w ([a] ++ l) = (last w l).or (last w [a]) := last_append
  rw [last_singleton] at happend
  exact happend

theorem last_eq_none_iff : last w l = none ↔ ∀ a ∈ l, w a = none := by
  unfold last
  rw [List.findSome?_eq_none_iff]
  simp only [List.mem_reverse]

/-- What is left was written by a step. -/
theorem exists_of_last (h : last w l = some v) : ∃ a ∈ l, w a = some v := by
  obtain ⟨a, ha, hv⟩ := List.exists_of_findSome?_eq_some h
  exact ⟨a, List.mem_reverse.mp ha, hv⟩

/-- A place that is written at all holds something that was written. -/
theorem last_isSome {a : α} (ha : a ∈ l) (hw : (w a).isSome) : (last w l).isSome := by
  cases hlast : last w l with
  | some v => rfl
  | none => rw [last_eq_none_iff.mp hlast a ha] at hw; exact hw

/-- Steps that write the same thing leave it. -/
theorem last_of_agree {a : α} (ha : a ∈ l) (hw : w a = some v)
    (hagree : ∀ b ∈ l, ∀ u, w b = some u → u = v) : last w l = some v := by
  obtain ⟨u, hu⟩ := Option.isSome_iff_exists.mp (last_isSome (w := w) ha (by rw [hw]; rfl))
  obtain ⟨b, hb, hbu⟩ := exists_of_last hu
  rw [hu, hagree b hb u hbu]

/-- Steps that write nothing can be left out. -/
theorem last_filter {keep : α → Bool} (h : ∀ a ∈ l, keep a = false → w a = none) :
    last w (l.filter keep) = last w l := by
  induction l with
  | nil => rfl
  | cons a l ih =>
      have hl := ih fun b hb => h b (List.mem_cons_of_mem _ hb)
      cases hkeep : keep a with
      | true => rw [List.filter_cons_of_pos hkeep, last_cons, last_cons, hl]
      | false =>
          rw [List.filter_cons_of_neg (by simp [hkeep]), hl, last_cons,
            h a (List.mem_cons_self ..) hkeep, Option.or_none]

/-- What is written can be dressed before or after. -/
theorem last_map {δ : Type*} (g : γ → δ) (l : List α) :
    last (fun a => (w a).map g) l = (last w l).map g := by
  induction l with
  | nil => rfl
  | cons a l ih => rw [last_cons, last_cons, ih, Option.map_or]

/-- **What a loop leaves.** -/
theorem Writes.foldl (h : Writes get f w) (s : σ) (l : List α) :
    get (l.foldl f s) = (last w l).getD (get s) := by
  induction l generalizing s with
  | nil => rfl
  | cons a l ih =>
      rw [List.foldl_cons, ih, last_cons, h s a]
      cases last w l with
      | none => rw [Option.getD_none, Option.none_or]
      | some v => rfl

/-- **A loop is a write**, so that it can stand in another loop. -/
theorem Writes.loop {items : β → List α} {f : β → σ → α → σ} {w : β → α → Option γ}
    (h : ∀ b, Writes get (f b) (w b)) :
    Writes get (fun s b => (items b).foldl (f b) s) fun b => last (w b) (items b) :=
  fun s b => (h b).foldl s (items b)

/-- Steps that leave the place leave it together. -/
theorem get_foldl_of_kept (get : σ → γ) (h : ∀ s, ∀ a ∈ l, get (f s a) = get s) (s : σ) :
    get (l.foldl f s) = get s := by
  induction l generalizing s with
  | nil => rfl
  | cons a l ih =>
      rw [List.foldl_cons, ih (fun s b hb => h s b (List.mem_cons_of_mem _ hb)),
        h s a (List.mem_cons_self ..)]

end LastWrite
