/-
Runs of a deterministic transition system.

A run is a list of events, so every order of every number of steps is one.
`Along` says something of every step a run takes, about the state before the
step and the event; it serves both for a condition a run is asked to meet and
for what is shown of its steps. An invariant is proved for one step under a
condition and then holds after every run along which the condition does.

Nothing here is about any program.
-/
import Mathlib.Data.List.Basic

set_option autoImplicit false

namespace Transition

variable {σ ε : Type*}

/-- The state after a run. -/
def run (step : σ → ε → σ) (s : σ) (es : List ε) : σ := es.foldl step s

/-- `C` holds of every step of the run. -/
def Along (step : σ → ε → σ) (C : σ → ε → Prop) : σ → List ε → Prop
  | _, [] => True
  | s, e :: es => C s e ∧ Along step C (step s e) es

/-- A run on fixed inputs can be checked by evaluation. -/
instance decidableAlong (step : σ → ε → σ) (C : σ → ε → Prop) [∀ s e, Decidable (C s e)] :
    ∀ s es, Decidable (Along step C s es)
  | _, [] => .isTrue trivial
  | s, e :: es => @instDecidableAnd _ _ _ (decidableAlong step C (step s e) es)

variable {step : σ → ε → σ} {C P : σ → ε → Prop} {I : σ → Prop} {s : σ} {es fs : List ε}

@[simp] theorem run_nil : run step s [] = s := rfl

@[simp] theorem run_cons (e : ε) : run step s (e :: es) = run step (step s e) es := rfl

theorem run_append : run step s (es ++ fs) = run step (run step s es) fs :=
  List.foldl_append

theorem along_append :
    Along step C s (es ++ fs) ↔ Along step C s es ∧ Along step C (run step s es) fs := by
  induction es generalizing s with
  | nil => simp [Along]
  | cons e es ih => simp only [List.cons_append, Along, run_cons, ih, and_assoc]

/-- **Invariants.** What holds at first and survives each step that meets the
condition holds after a run whose steps all meet it. -/
theorem invariant (hI : ∀ s e, I s → C s e → I (step s e)) (hs : I s)
    (hC : Along step C s es) : I (run step s es) := by
  induction es generalizing s with
  | nil => exact hs
  | cons e es ih => exact ih (hI s e hs hC.1) hC.2

/-- What an invariant says of a single step, said of every step of a run. -/
theorem Along.of_invariant (hI : ∀ s e, I s → C s e → I (step s e))
    (hP : ∀ s e, I s → C s e → P s e) (hs : I s) (hC : Along step C s es) :
    Along step P s es := by
  induction es generalizing s with
  | nil => trivial
  | cons e es ih => exact ⟨hP s e hs hC.1, ih (hI s e hs hC.1) hC.2⟩

/-- Two conditions that mean the same wherever the invariant holds mean the same
along a run. -/
theorem along_iff_of_invariant (hI : ∀ s e, I s → C s e → I (step s e))
    (hP : ∀ s e, I s → (P s e ↔ C s e)) (hs : I s) : Along step P s es ↔ Along step C s es := by
  induction es generalizing s with
  | nil => exact Iff.rfl
  | cons e es ih =>
      constructor
      · rintro ⟨hp, hrest⟩
        have hc := (hP s e hs).mp hp
        exact ⟨hc, (ih (hI s e hs hc)).mp hrest⟩
      · rintro ⟨hc, hrest⟩
        exact ⟨(hP s e hs).mpr hc, (ih (hI s e hs hc)).mpr hrest⟩

theorem Along.mono (h : ∀ s e, C s e → P s e) (hC : Along step C s es) : Along step P s es := by
  induction es generalizing s with
  | nil => trivial
  | cons e es ih => exact ⟨h s e hC.1, ih hC.2⟩

theorem Along.and (hC : Along step C s es) (hP : Along step P s es) :
    Along step (fun s e => C s e ∧ P s e) s es := by
  induction es generalizing s with
  | nil => trivial
  | cons e es ih => exact ⟨⟨hC.1, hP.1⟩, ih hC.2 hP.2⟩

theorem along_forall {α : Type*} {Q : α → σ → ε → Prop} (h : ∀ a, Along step (Q a) s es) :
    Along step (fun s e => ∀ a, Q a s e) s es := by
  induction es generalizing s with
  | nil => trivial
  | cons e es ih => exact ⟨fun a => (h a).1, ih fun a => (h a).2⟩

theorem along_true : Along step (fun _ _ => True) s es := by
  induction es generalizing s with
  | nil => trivial
  | cons e es ih => exact ⟨trivial, ih⟩

/-- A condition that does not depend on the state is one on each event. -/
theorem along_of_forall (h : ∀ e ∈ es, ∀ s, C s e) : Along step C s es := by
  induction es generalizing s with
  | nil => trivial
  | cons e es ih =>
      obtain ⟨he, hes⟩ := List.forall_mem_cons.mp h
      exact ⟨he s, ih hes⟩

/-- **What is kept until it is taken** is still there after a run, or a step of the
run took it. -/
theorem kept_or_taken {H : σ → Prop} {T : σ → ε → Prop}
    (hkeep : ∀ s e, H s → ¬ T s e → H (step s e)) (hs : H s) :
    H (run step s es) ∨
      ∃ before e after, es = before ++ e :: after ∧ H (run step s before) ∧
        T (run step s before) e := by
  induction es generalizing s with
  | nil => exact .inl hs
  | cons e es ih =>
      by_cases ht : T s e
      · exact .inr ⟨[], e, es, rfl, hs, ht⟩
      · rcases ih (hkeep s e hs ht) with hend | ⟨before, f, after, rfl, hmid, htake⟩
        · exact .inl hend
        · exact .inr ⟨e :: before, f, after, rfl, hmid, htake⟩

/-! ## Accounting -/

/-- What the steps of a run add up to. -/
def total (step : σ → ε → σ) (f : σ → ε → ℕ) : σ → List ε → ℕ
  | _, [] => 0
  | s, e :: es => f s e + total step f (step s e) es

variable {f g : σ → ε → ℕ} {Φ : σ → ℕ}

theorem total_add :
    total step (fun s e => f s e + g s e) s es = total step f s es + total step g s es := by
  induction es generalizing s with
  | nil => rfl
  | cons e es ih =>
      have hrest := ih (s := step s e)
      simp only [total]
      omega

theorem total_eq_zero_iff : total step f s es = 0 ↔ Along step (fun s e => f s e = 0) s es := by
  induction es generalizing s with
  | nil => simp [total, Along]
  | cons e es ih => simp only [total, Along, Nat.add_eq_zero_iff, ih]

/-- **Accounting.** If every step changes a stock by what comes in and what
goes out, so does a run. -/
theorem account (hI : ∀ s e, I s → C s e → I (step s e))
    (h : ∀ s e, I s → C s e → Φ (step s e) + g s e = Φ s + f s e) (hs : I s)
    (hC : Along step C s es) :
    Φ (run step s es) + total step g s es = Φ s + total step f s es := by
  induction es generalizing s with
  | nil => rfl
  | cons e es ih =>
      have hone := h s e hs hC.1
      have hrest := ih (hI s e hs hC.1) hC.2
      simp only [total, run_cons]
      omega

/-! ## Events on different keys

Each event has at most one key, and changes what is seen of that key only. In a
run in which no key comes twice the order does not matter: every event meets its
key as it was at the start, and leaves it as it is at the end. -/

section Keys

variable {κ : Type*} {key : ε → Option κ} {see : σ → κ → Prop} {k : κ} {e : ε}

def Keyed (step : σ → ε → σ) (key : ε → Option κ) (see : σ → κ → Prop) : Prop :=
  ∀ s e k, key e ≠ some k → (see (step s e) k ↔ see s k)

theorem Keyed.see_run (h : Keyed step key see) (hk : k ∉ es.filterMap key) :
    see (run step s es) k ↔ see s k := by
  induction es generalizing s with
  | nil => exact Iff.rfl
  | cons e es ih =>
      have hhead : key e ≠ some k := fun he => hk (List.mem_filterMap.mpr ⟨e, by simp, he⟩)
      have htail : k ∉ es.filterMap key := by
        rintro hmem
        obtain ⟨e', he', hke'⟩ := List.mem_filterMap.mp hmem
        exact hk (List.mem_filterMap.mpr ⟨e', List.mem_cons_of_mem e he', hke'⟩)
      exact (ih htail).trans (h s e k hhead)

theorem nodup_keys_cons (hnodup : ((e :: es).filterMap key).Nodup) :
    (∀ k, key e = some k → k ∉ es.filterMap key) ∧ (es.filterMap key).Nodup := by
  cases hk : key e with
  | none =>
      rw [List.filterMap_cons_none hk] at hnodup
      exact ⟨fun k hk => absurd hk (by simp), hnodup⟩
  | some k =>
      rw [List.filterMap_cons_some hk, List.nodup_cons] at hnodup
      refine ⟨fun k' hk' => ?_, hnodup.2⟩
      rw [← Option.some.inj hk']
      exact hnodup.1

/-- What is asked of an event is asked of its key. -/
theorem Keyed.along (h : Keyed step key see)
    (hC : ∀ s s' e, (∀ k, key e = some k → (see s' k ↔ see s k)) → C s e → C s' e)
    (hnodup : (es.filterMap key).Nodup) (hall : ∀ e ∈ es, C s e) : Along step C s es := by
  induction es generalizing s with
  | nil => trivial
  | cons e es ih =>
      obtain ⟨hfresh, hrest⟩ := nodup_keys_cons hnodup
      obtain ⟨he, hes⟩ := List.forall_mem_cons.mp hall
      refine ⟨he, ih hrest fun e' he' => hC s (step s e) e' (fun k hk => ?_) (hes e' he')⟩
      refine h s e k fun hke => hfresh k hke ?_
      exact List.mem_filterMap.mpr ⟨e', he', hk⟩

/-- What is left of a key is what its event puts there. -/
theorem Keyed.see_run_of_mem (h : Keyed step key see) {put : ε → Prop}
    (hput : ∀ s e k, key e = some k → (see (step s e) k ↔ put e))
    (hnodup : (es.filterMap key).Nodup) (he : e ∈ es) (hk : key e = some k) :
    see (run step s es) k ↔ put e := by
  induction es generalizing s with
  | nil => exact absurd he (by simp)
  | cons e' es ih =>
      obtain ⟨hfresh, hrest⟩ := nodup_keys_cons hnodup
      rcases List.mem_cons.mp he with rfl | he
      · exact (h.see_run (hfresh k hk)).trans (hput s e k hk)
      · exact ih hrest he

end Keys

/-! ## Taking one of several pending events -/

/-- What is taken by its position, and what is left. -/
theorem perm_eraseIdx {α : Type*} {l : List α} {k : ℕ} {a : α} (h : l[k]? = some a) :
    l.Perm (a :: l.eraseIdx k) := by
  obtain ⟨hk, rfl⟩ := List.getElem?_eq_some_iff.mp h
  rw [List.eraseIdx_eq_take_drop_succ]
  conv_lhs => rw [← List.take_append_drop k l, List.drop_eq_getElem_cons hk]
  exact List.perm_middle

theorem mem_of_mem_eraseIdx {α : Type*} {l : List α} {k : ℕ} {a : α} (h : a ∈ l.eraseIdx k) :
    a ∈ l :=
  (List.eraseIdx_sublist l k).mem h

end Transition
