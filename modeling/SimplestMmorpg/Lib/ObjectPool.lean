/-
A pool of objects that goes to the heap when it is empty.

Objects are addresses. The pool owns the cells of one range; a free one is handed
out when there is one, and otherwise the heap gives an object at an address of its
own choice, outside the range and apart from every object it has given and not got
back. On its return an object is told by its address: one of the range is free
again, another goes back to the heap.

`Tracks` says which objects are out. An object is handed out again only when it has
come back, from the range or not, however many are out.

Nothing here is about any program.
-/
import Mathlib.Data.List.Nodup
import Mathlib.Data.List.Range

set_option autoImplicit false

/-- The range of the cells, the free ones in the order in which they will be handed
out, and the objects of the heap. -/
structure ObjectPool where
  start : ℕ
  capacity : ℕ
  free : List ℕ
  heap : List ℕ

namespace ObjectPool

def init (start capacity : ℕ) : ObjectPool := ⟨start, capacity, List.range' start capacity, []⟩

variable (pool : ObjectPool)

def isFromPool (p : ℕ) : Bool := pool.start ≤ p && p < pool.start + pool.capacity

/-- Hand out an object; `a` is the address that the heap would give. -/
def acquire (a : ℕ) : Option (ℕ × ObjectPool) :=
  match pool.free with
  | p :: rest => some (p, { pool with free := rest })
  | [] =>
    if pool.isFromPool a ∨ a ∈ pool.heap then none
    else some (a, { pool with heap := a :: pool.heap })

def release (p : ℕ) : ObjectPool :=
  if pool.isFromPool p then { pool with free := pool.free ++ [p] }
  else { pool with heap := pool.heap.erase p }

/-- The objects that are out. -/
structure Tracks (held : List ℕ) : Prop where
  nodup : (pool.free ++ held).Nodup
  free : ∀ p ∈ pool.free, pool.isFromPool p = true
  heap : ∀ p, p ∈ pool.heap ↔ p ∈ held ∧ pool.isFromPool p = false
  heap_nodup : pool.heap.Nodup

variable {pool} {pool' : ObjectPool} {held held' : List ℕ} {p a : ℕ}

theorem tracks_init (start capacity : ℕ) : Tracks (init start capacity) [] where
  nodup := by
    rw [List.append_nil]
    exact List.nodup_range'
  free := by
    intro p hp
    obtain ⟨hle, hlt⟩ := List.mem_range'_1.mp hp
    rw [isFromPool, Bool.and_eq_true, decide_eq_true_eq, decide_eq_true_eq]
    exact ⟨hle, hlt⟩
  heap := by simp [init]
  heap_nodup := List.nodup_nil

namespace Tracks

/-- It does not matter who holds what. -/
theorem perm (h : pool.Tracks held) (hp : held'.Perm held) : pool.Tracks held' where
  nodup := ((hp.append_left pool.free).nodup_iff).mpr h.nodup
  free := h.free
  heap := by
    intro p
    rw [hp.mem_iff]
    exact h.heap p
  heap_nodup := h.heap_nodup

theorem nodup_held (h : pool.Tracks held) : held.Nodup :=
  (List.nodup_append.mp h.nodup).2.1

/-- **An object that is handed out was not out.** -/
theorem acquire (h : pool.Tracks held) (ha : pool.acquire a = some (p, pool')) :
    p ∉ held ∧ pool'.Tracks (p :: held) := by
  obtain ⟨hfree, hheld, hdisjoint⟩ := List.nodup_append.mp h.nodup
  unfold ObjectPool.acquire at ha
  split at ha
  · next p₀ rest hcells =>
      obtain ⟨rfl, rfl⟩ := Prod.mk.inj (Option.some.inj ha)
      rw [hcells] at hfree hdisjoint
      -- a cell is free or out, and never both
      have hnew : p₀ ∉ held := fun hmem => hdisjoint p₀ List.mem_cons_self p₀ hmem rfl
      have hrange : pool.isFromPool p₀ = true := h.free p₀ (by rw [hcells]; exact List.mem_cons_self)
      refine ⟨hnew, ?_, ?_, ?_, h.heap_nodup⟩
      · have hmiddle : (rest ++ p₀ :: held).Perm (pool.free ++ held) := by
          rw [hcells]
          exact List.perm_middle
        exact hmiddle.nodup_iff.mpr h.nodup
      · intro q hq
        exact h.free q (by rw [hcells]; exact List.mem_cons_of_mem _ hq)
      · intro q
        refine (h.heap q).trans ?_
        constructor
        · exact fun hq => ⟨List.mem_cons_of_mem _ hq.1, hq.2⟩
        · rintro ⟨hq, hout⟩
          rcases List.mem_cons.mp hq with rfl | hq
          · exact absurd (hrange.symm.trans hout) (by simp)
          · exact ⟨hq, hout⟩
  · next hcells =>
      split at ha
      · exact absurd ha (by simp)
      · next hfresh =>
          obtain ⟨rfl, rfl⟩ := Prod.mk.inj (Option.some.inj ha)
          have hout : pool.isFromPool a = false := by simpa using fun hin => hfresh (.inl hin)
          have hnew : a ∉ held := fun hmem => hfresh (.inr ((h.heap a).mpr ⟨hmem, hout⟩))
          refine ⟨hnew, ?_, h.free, ?_, ?_⟩
          · rw [hcells, List.nil_append]
            exact List.nodup_cons.mpr ⟨hnew, hheld⟩
          · intro q
            rw [List.mem_cons, List.mem_cons, h.heap q]
            constructor
            · rintro (rfl | hq)
              · exact ⟨.inl rfl, hout⟩
              · exact ⟨.inr hq.1, hq.2⟩
            · rintro ⟨rfl | hq, hq'⟩
              · exact .inl rfl
              · exact .inr ⟨hq, hq'⟩
          · exact List.nodup_cons.mpr ⟨fun hmem => hfresh (.inr hmem), h.heap_nodup⟩

/-- An object that is out comes back. -/
theorem release (h : pool.Tracks (p :: held)) : (pool.release p).Tracks held := by
  obtain ⟨hfree, hheld, hdisjoint⟩ := List.nodup_append.mp h.nodup
  obtain ⟨hp, hrest⟩ := List.nodup_cons.mp hheld
  unfold ObjectPool.release
  split
  · next hin =>
      refine ⟨?_, ?_, ?_, h.heap_nodup⟩
      · rw [List.append_assoc]
        exact h.nodup
      · intro q hq
        rcases List.mem_append.mp hq with hq | hq
        · exact h.free q hq
        · rw [List.mem_singleton.mp hq]
          exact hin
      · intro q
        refine (h.heap q).trans ?_
        constructor
        · rintro ⟨hq, hout⟩
          rcases List.mem_cons.mp hq with rfl | hq
          · exact absurd (hin.symm.trans hout) (by simp)
          · exact ⟨hq, hout⟩
        · exact fun hq => ⟨List.mem_cons_of_mem _ hq.1, hq.2⟩
  · next hout =>
      refine ⟨?_, h.free, ?_, h.heap_nodup.erase p⟩
      · refine List.nodup_append.mpr ⟨hfree, hrest, ?_⟩
        exact fun q hq r hr => hdisjoint q hq r (List.mem_cons_of_mem _ hr)
      · intro q
        rw [h.heap_nodup.mem_erase_iff, h.heap q, List.mem_cons]
        constructor
        · rintro ⟨hne, rfl | hq, hq'⟩
          · exact absurd rfl hne
          · exact ⟨hq, hq'⟩
        · rintro ⟨hq, hq'⟩
          refine ⟨?_, .inr hq, hq'⟩
          rintro rfl
          exact hp hq

end Tracks

end ObjectPool
