/-
Length-prefixed framing of a stream.

A `Format` says how many symbols of a frame must be there before its size can
be read, and how the size is read from them. `frame` cuts the first complete
frame off a stream. `Boundary s fs u` says that cutting the non-empty frames
`fs` off `s` leaves `u`; it is the vocabulary in which a parser's history is
told, because it does not mention how the stream arrived: it is monotone in
the stream (`Boundary.append`), and any two boundaries of one stream lie on
one line (`Boundary.linear`).

A frame of size 0 is the one that cuts nothing off. It is not a step of a
`Boundary`, so every stream runs into one of two ends (`exists_last`): the
rest is not a complete frame yet, or it starts with a frame of size 0.

A stream that is made of whole frames is cut back into them however it is
chopped up on the way: `boundary_of_whole` is about any beginning of it.

Nothing here is about any program.
-/
import Mathlib.Data.List.Basic

set_option autoImplicit false

namespace Framing

/-- How a frame announces its size: after `header` symbols, `size` reads it,
and symbols further on do not change what it reads. -/
structure Format (α : Type*) where
  header : ℕ
  size : List α → ℕ
  size_append : ∀ s t, header ≤ s.length → size (s ++ t) = size s

variable {α : Type*} (F : Format α)

/-- The first frame of the stream and what follows it, once it is complete. -/
def frame (s : List α) : Option (List α × List α) :=
  if s.length < F.header then none
  else if s.length < F.size s then none
  else some (s.take (F.size s), s.drop (F.size s))

/-- Cutting the non-empty frames `fs` off `s` leaves `u`. -/
inductive Boundary : List α → List (List α) → List α → Prop where
  | start (s : List α) : Boundary s [] s
  | cut {s f t : List α} {fs : List (List α)} {u : List α} :
      frame F s = some (f, t) → f ≠ [] → Boundary t fs u → Boundary s (f :: fs) u

variable {F} {s t u v f : List α} {fs gs : List (List α)}

theorem frame_eq_some (h : frame F s = some (f, u)) :
    s = f ++ u ∧ f.length = F.size s ∧ F.header ≤ s.length := by
  rw [frame] at h
  split at h
  · exact absurd h (by simp)
  next hh =>
    split at h
    · exact absurd h (by simp)
    next hs =>
      simp only [Option.some.injEq, Prod.mk.injEq] at h
      obtain ⟨rfl, rfl⟩ := h
      exact ⟨(List.take_append_drop _ _).symm,
        by rw [List.length_take]; omega, by omega⟩

/-- A complete frame stays the first frame when more arrives. -/
theorem frame_append (h : frame F s = some (f, u)) (t : List α) :
    frame F (s ++ t) = some (f, u ++ t) := by
  obtain ⟨hs, hf, hh⟩ := frame_eq_some h
  have hsize : F.size (s ++ t) = f.length := by rw [F.size_append s t hh, hf]
  have hlen : f.length ≤ s.length := by rw [hs, List.length_append]; omega
  rw [frame, hsize, if_neg (by rw [List.length_append]; omega),
    if_neg (by rw [List.length_append]; omega), hs, List.append_assoc]
  simp only [List.take_left, List.drop_left]

/-- What cannot be cut yet is shorter than the frame it announces. -/
theorem frame_none_iff :
    frame F s = none ↔ s.length < F.header ∨ s.length < F.size s := by
  rw [frame]
  by_cases h1 : s.length < F.header
  · simp [h1]
  · by_cases h2 : s.length < F.size s <;> simp [h1, h2]

namespace Boundary

theorem append (h : Boundary F s fs u) (t : List α) : Boundary F (s ++ t) fs (u ++ t) := by
  induction h with
  | start s => exact start _
  | cut hf hne _ ih => exact cut (frame_append hf t) hne ih

theorem trans (h : Boundary F s fs u) (h' : Boundary F u gs v) : Boundary F s (fs ++ gs) v := by
  induction h with
  | start s => exact h'
  | cut hf hne _ ih => exact cut hf hne (ih h')

/-- Two boundaries of one stream: one of them comes first. -/
theorem linear (h : Boundary F s fs u) (h' : Boundary F s gs v) :
    (∃ hs, gs = fs ++ hs ∧ Boundary F u hs v) ∨ ∃ hs, fs = gs ++ hs ∧ Boundary F v hs u := by
  induction h generalizing gs with
  | start s => exact .inl ⟨gs, rfl, h'⟩
  | @cut s f t fs u hf hne ht ih =>
      cases h' with
      | start _ => exact .inr ⟨f :: fs, rfl, cut hf hne ht⟩
      | @cut _ f' t' gs' _ hf' hne' ht' =>
          have heq : (f', t') = (f, t) := Option.some.inj (hf'.symm.trans hf)
          obtain ⟨rfl, rfl⟩ := Prod.mk.inj heq
          rcases ih ht' with ⟨hs, rfl, hb⟩ | ⟨hs, rfl, hb⟩
          · exact .inl ⟨hs, rfl, hb⟩
          · exact .inr ⟨hs, rfl, hb⟩

/-- The frame at an inner boundary is the next one cut. -/
theorem head_frame (h : Boundary F s (f :: fs) u) : ∃ t, frame F s = some (f, t) ∧ f ≠ [] ∧
    Boundary F t fs u := by
  cases h with
  | cut hf hne ht => exact ⟨_, hf, hne, ht⟩

/-- Every frame cut on the way is the first frame at some boundary. -/
theorem mem_frame (h : Boundary F s fs u) (hf : f ∈ fs) :
    ∃ gs v w, Boundary F s gs v ∧ frame F v = some (f, w) := by
  induction h with
  | start s => simp at hf
  | @cut s g t fs u hg hne ht ih =>
      rcases List.mem_cons.mp hf with rfl | hmem
      · exact ⟨[], s, t, start s, hg⟩
      · obtain ⟨gs, v, w, hb, hw⟩ := ih hmem
        exact ⟨g :: gs, v, w, cut hg hne hb, hw⟩

/-- Nothing is cut off an incomplete rest. -/
theorem of_none (hs : frame F s = none) (h : Boundary F s fs u) : fs = [] ∧ u = s := by
  cases h with
  | start _ => exact ⟨rfl, rfl⟩
  | cut hf _ _ => exact absurd (hs.symm.trans hf) (by simp)

/-- Two boundaries that leave incomplete rests leave the same one. -/
theorem rest_unique (hu : frame F u = none) (hv : frame F v = none) (h : Boundary F s fs u)
    (h' : Boundary F s gs v) : u = v := by
  rcases h.linear h' with ⟨hs, -, hb⟩ | ⟨hs, -, hb⟩
  · exact (of_none hu hb).2.symm
  · exact (of_none hv hb).2

theorem ne_nil_of_mem (h : Boundary F s fs u) (hf : f ∈ fs) : f ≠ [] := by
  induction h with
  | start s => simp at hf
  | cut _ hne _ ih =>
      rcases List.mem_cons.mp hf with rfl | hmem
      · exact hne
      · exact ih hmem

end Boundary

/-- Cutting goes on until the rest is incomplete or announces size 0. -/
theorem exists_last (F : Format α) (s : List α) :
    ∃ fs u, Boundary F s fs u ∧ (frame F u = none ∨ ∃ v, frame F u = some ([], v)) := by
  induction hn : s.length using Nat.strongRecOn generalizing s with
  | ind n ih =>
    rcases hf : frame F s with _ | ⟨f, t⟩
    · exact ⟨[], s, .start s, .inl hf⟩
    · by_cases hne : f = []
      · exact ⟨[], s, .start s, .inr ⟨t, by rw [hf, hne]⟩⟩
      · have hlen : t.length < n := by
          have h1 := congrArg List.length (frame_eq_some hf).1
          have h2 : 0 < f.length := List.length_pos_of_ne_nil hne
          rw [List.length_append] at h1
          omega
        obtain ⟨fs, u, hb, hu⟩ := ih t.length hlen t rfl
        exact ⟨f :: fs, u, .cut hf hne hb, hu⟩

/-- A property of the first frame at every boundary of the stream. -/
def Every (F : Format α) (P : List α → Prop) (s : List α) : Prop :=
  ∀ fs u, Boundary F s fs u → ∀ f v, frame F u = some (f, v) → P f

theorem Every.of_boundary {P : List α → Prop} (h : Every F P s) (hb : Boundary F s fs u) :
    Every F P u :=
  fun _ _ hb' => h _ _ (hb.trans hb')

theorem Every.of_mem {P : List α → Prop} (h : Every F P s) (hb : Boundary F s fs u)
    (hf : f ∈ fs) : P f := by
  obtain ⟨gs, v, w, hv, hw⟩ := hb.mem_frame hf
  exact h gs v hv f w hw

theorem every_of_none {P : List α → Prop} (hs : frame F s = none) : Every F P s := by
  intro fs u hb f v hf
  obtain ⟨-, rfl⟩ := Boundary.of_none hs hb
  exact absurd (hs.symm.trans hf) (by simp)

/-- When the frames of `fs` have the property, it is enough to look from the
boundary they lead to. -/
theorem every_iff_of_boundary {P : List α → Prop} (hb : Boundary F s fs u)
    (hfs : ∀ f ∈ fs, P f) : Every F P s ↔ Every F P u := by
  refine ⟨fun h => h.of_boundary hb, fun h gs v hv f w hf => ?_⟩
  rcases hb.linear hv with ⟨hs, rfl, hb'⟩ | ⟨hs, rfl, hb'⟩
  · exact h hs v hb' f w hf
  · cases hb' with
    | start _ => exact h [] _ (.start _) f w hf
    | @cut _ g t gs' _ hg hne ht =>
        have heq : (g, t) = (f, w) := Option.some.inj (hg.symm.trans hf)
        obtain ⟨rfl, -⟩ := Prod.mk.inj heq
        exact hfs g (by simp)

/-! ## Streams of whole frames -/

/-- The frame announces its own length. -/
structure Whole (F : Format α) (f : List α) : Prop where
  header_le : F.header ≤ f.length
  size_eq : F.size f = f.length

theorem Whole.frame_append (h : Whole F f) (t : List α) : frame F (f ++ t) = some (f, t) := by
  have hsize : F.size (f ++ t) = f.length := by rw [F.size_append f t h.header_le, h.size_eq]
  have hheader := h.header_le
  rw [frame, hsize, if_neg (by rw [List.length_append]; omega),
    if_neg (by rw [List.length_append]; omega), List.take_left, List.drop_left]

/-- A proper beginning of a whole frame is not complete. -/
theorem Whole.frame_eq_none (h : Whole F (s ++ t)) (ht : t ≠ []) : frame F s = none := by
  have hpos : 0 < t.length := List.length_pos_of_ne_nil ht
  rw [frame_none_iff]
  by_cases hs : s.length < F.header
  · exact .inl hs
  · have hsize := h.size_eq
    rw [F.size_append s t (by omega), List.length_append] at hsize
    exact .inr (by omega)

/-- **A beginning of a stream of whole frames.** However it ends, the frames it
holds are cut off it, and what remains is a proper beginning of the next. -/
theorem boundary_of_whole (hpos : 0 < F.header) (hfs : ∀ f ∈ fs, Whole F f)
    (h : s ++ t = fs.flatten) :
    ∃ gs hs u, fs = gs ++ hs ∧ Boundary F s gs u ∧ frame F u = none ∧ u ++ t = hs.flatten := by
  induction fs generalizing s with
  | nil =>
      have hs : s = [] := (List.append_eq_nil_iff.mp (by simpa using h)).1
      refine ⟨[], [], s, rfl, .start s, ?_, h⟩
      rw [frame_none_iff, hs]
      exact .inl hpos
  | cons f fs ih =>
      have hf := hfs f List.mem_cons_self
      rw [List.flatten_cons] at h
      rcases List.append_eq_append_iff.mp h with ⟨v, hv, ht⟩ | ⟨v, hv, ht⟩
      · -- the stream stops inside `f`, or right behind it
        by_cases hnil : v = []
        · subst hnil
          rw [List.append_nil] at hv
          rw [List.nil_append] at ht
          obtain ⟨gs, hs, u, hsplit, hb, hu, hrest⟩ :=
            @ih [] (fun g hg => hfs g (List.mem_cons_of_mem _ hg)) ht
          refine ⟨f :: gs, hs, u, by rw [hsplit]; rfl, ?_, hu, hrest⟩
          have hcut := hf.frame_append []
          rw [List.append_nil, hv] at hcut
          exact .cut (hv ▸ hcut) (List.ne_nil_of_length_pos (by have := hf.header_le; omega)) hb
        · refine ⟨[], f :: fs, s, rfl, .start s, Whole.frame_eq_none (hv ▸ hf) hnil, ?_⟩
          rw [List.flatten_cons]
          exact h
      · obtain ⟨gs, hs, u, hsplit, hb, hu, hrest⟩ :=
          @ih v (fun g hg => hfs g (List.mem_cons_of_mem _ hg)) ht.symm
        refine ⟨f :: gs, hs, u, by rw [hsplit]; rfl, ?_, hu, hrest⟩
        rw [hv]
        exact .cut (hf.frame_append v)
          (List.ne_nil_of_length_pos (by have := hf.header_le; omega)) hb

/-- A stream of whole frames in the middle of its way: the frames `fs` have not
been cut off yet, and of their symbols `u` is there and `t` is to come. -/
structure Awaiting (F : Format α) (u t : List α) (fs : List (List α)) : Prop where
  whole : ∀ f ∈ fs, Whole F f
  stream : u ++ t = fs.flatten
  incomplete : frame F u = none

namespace Awaiting

/-- What is there is shorter than the frame it begins. -/
theorem length_lt {n : ℕ} (h : Awaiting F u t fs) (hn : 0 < n) (hfs : ∀ f ∈ fs, f.length ≤ n) :
    u.length < n := by
  have hstream := h.stream
  cases fs with
  | nil =>
      rw [(List.append_eq_nil_iff.mp hstream).1]
      exact hn
  | cons f fs =>
      rw [List.flatten_cons] at hstream
      have hfits := hfs f List.mem_cons_self
      by_contra hlen
      have htotal : f <+: u ++ t := by
        rw [hstream]
        exact List.prefix_append _ _
      have hpre : f <+: u :=
        List.prefix_of_prefix_length_le htotal (List.prefix_append _ _) (by omega)
      obtain ⟨v, hv⟩ := hpre
      have hcut := (h.whole f List.mem_cons_self).frame_append v
      rw [hv, h.incomplete] at hcut
      exact absurd hcut (by simp)

/-- When nothing is to come, nothing is there. -/
theorem finished (h : Awaiting F u [] fs) : fs = [] ∧ u = [] := by
  have hstream := h.stream
  rw [List.append_nil] at hstream
  cases fs with
  | nil => exact ⟨rfl, hstream⟩
  | cons f fs =>
      rw [List.flatten_cons] at hstream
      have hcut := (h.whole f List.mem_cons_self).frame_append fs.flatten
      rw [← hstream, h.incomplete] at hcut
      exact absurd hcut (by simp)

/-- **An arrival.** The frames it completes can be cut off. -/
theorem arrive (hpos : 0 < F.header) (h : Awaiting F u (s ++ t) fs) :
    ∃ gs hs v, fs = gs ++ hs ∧ Boundary F (u ++ s) gs v ∧ Awaiting F v t hs := by
  have hstream : (u ++ s) ++ t = fs.flatten := by rw [List.append_assoc, h.stream]
  obtain ⟨gs, hs, v, hsplit, hb, hv, hrest⟩ := boundary_of_whole hpos h.whole hstream
  refine ⟨gs, hs, v, hsplit, hb, ⟨fun f hf => h.whole f ?_, hrest, hv⟩⟩
  rw [hsplit]
  exact List.mem_append_right _ hf

end Awaiting

end Framing
