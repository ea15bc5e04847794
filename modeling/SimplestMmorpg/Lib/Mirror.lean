/-
A record that one party keeps and another one mirrors.

The keeper writes messages to a log, and the mirror is a fold over that log.
What the keeper holds at a time is a set of records, at most one in the uses of
this: `Faithful` is that the mirror shows every record that is held. A step of
the keeper is shown to preserve it in one of two ways. It `Leads` when what it
logs turns every record that was held into the one that is held; it `Resets`
when what it logs fixes the mirror, whatever that showed before.

Nothing here is about any program.
-/
import Mathlib.Data.List.Basic

set_option autoImplicit false

/-- The log of a keeper in a state, the records it holds, and what a message
does to the record of the mirror. -/
structure Mirror (σ ρ μ : Type*) where
  log : σ → List μ
  holds : σ → ρ → Prop
  apply : ρ → μ → ρ

namespace Mirror

variable {σ ρ μ : Type*} {M : Mirror σ ρ μ} {r₀ : ρ} {s s' s'' : σ}

/-- What the mirror shows. -/
def shown (M : Mirror σ ρ μ) (r₀ : ρ) (s : σ) : ρ := (M.log s).foldl M.apply r₀

def Faithful (M : Mirror σ ρ μ) (r₀ : ρ) (s : σ) : Prop := ∀ r, M.holds s r → M.shown r₀ s = r

/-- Each record that is held comes from one that was, by the messages. -/
def Leads (M : Mirror σ ρ μ) (s s' : σ) : Prop :=
  ∃ msgs, M.log s' = M.log s ++ msgs ∧
    ∀ r', M.holds s' r' → ∃ r, M.holds s r ∧ msgs.foldl M.apply r = r'

/-- Each record that is held is what the messages say, whatever was shown. -/
def Resets (M : Mirror σ ρ μ) (s s' : σ) : Prop :=
  ∃ msgs, M.log s' = M.log s ++ msgs ∧ ∀ r', M.holds s' r' → ∀ r, msgs.foldl M.apply r = r'

theorem shown_append {msgs : List μ} (h : M.log s' = M.log s ++ msgs) :
    M.shown r₀ s' = msgs.foldl M.apply (M.shown r₀ s) := by
  unfold shown
  rw [h, List.foldl_append]

namespace Leads

theorem refl (s : σ) : M.Leads s s := ⟨[], by rw [List.append_nil], fun r hr => ⟨r, hr, rfl⟩⟩

theorem trans (h : M.Leads s s') (h' : M.Leads s' s'') : M.Leads s s'' := by
  obtain ⟨msgs, hlog, hlead⟩ := h
  obtain ⟨more, hlog', hlead'⟩ := h'
  refine ⟨msgs ++ more, by rw [hlog', hlog, List.append_assoc], fun r'' hr'' => ?_⟩
  obtain ⟨r', hr', hmore⟩ := hlead' r'' hr''
  obtain ⟨r, hr, hmsgs⟩ := hlead r' hr'
  exact ⟨r, hr, by rw [List.foldl_append, hmsgs, hmore]⟩

/-- The log and the records are what matters. -/
theorem of_eq (hlog : M.log s' = M.log s) (hholds : ∀ r, M.holds s' r → M.holds s r) :
    M.Leads s s' :=
  ⟨[], by rw [hlog, List.append_nil], fun r hr => ⟨r, hholds r hr, rfl⟩⟩

end Leads

/-- **A step that leads keeps the mirror faithful.** -/
theorem Faithful.leads (h : M.Faithful r₀ s) (hl : M.Leads s s') : M.Faithful r₀ s' := by
  obtain ⟨msgs, hlog, hlead⟩ := hl
  intro r' hr'
  obtain ⟨r, hr, hmsgs⟩ := hlead r' hr'
  rw [shown_append hlog, h r hr, hmsgs]

/-- **A step that resets makes it faithful.** -/
theorem Resets.faithful (h : M.Resets s s') : M.Faithful r₀ s' := by
  obtain ⟨msgs, hlog, hfix⟩ := h
  intro r' hr'
  rw [shown_append hlog, hfix r' hr']

/-- Messages that change no record may come after. -/
theorem foldl_of_fixed {msgs : List μ} {r : ρ} (h : ∀ m ∈ msgs, M.apply r m = r) :
    msgs.foldl M.apply r = r := by
  induction msgs with
  | nil => rfl
  | cons m msgs ih =>
      obtain ⟨hm, hmsgs⟩ := List.forall_mem_cons.mp h
      rw [List.foldl_cons, hm]
      exact ih hmsgs

end Mirror
