/-
Packed records of fixed-width fields.

A record is the bytes of its fields one after the other. A field is written
without regard to where it will lie, and read at an offset of a longer list of
bytes; `At bs i f` says that the bytes `f` lie in `bs` at the offset `i`, and is
all that a reader of a field has to know. `at_flatten` gives it for every field
of a record, whatever precedes the record's field and follows it.

There are three kinds of field: a number of so many bytes, least significant
first; a signed number in two's complement; and a text with a terminator in a
field of fixed size, where the bytes behind the terminator may be anything.

Nothing here is about any program.
-/
import Mathlib.Algebra.Group.Int.Defs
import Mathlib.Algebra.GroupWithZero.Nat
import Mathlib.Data.List.Basic
import Mathlib.Data.List.TakeWhile

set_option autoImplicit false

namespace Packed

/-! ## Numbers -/

/-- The `size` bytes of a number, least significant first; what does not fit is
lost. -/
def bytesLE : ℕ → ℕ → List UInt8
  | 0, _ => []
  | size + 1, n => UInt8.ofNat (n % 256) :: bytesLE size (n / 256)

/-- The number of bytes, least significant first. -/
def valueLE : List UInt8 → ℕ
  | [] => 0
  | b :: bs => b.toNat + 256 * valueLE bs

@[simp] theorem length_bytesLE (size n : ℕ) : (bytesLE size n).length = size := by
  induction size generalizing n with
  | zero => rfl
  | succ size ih => rw [bytesLE, List.length_cons, ih]

/-- **Reading back a number** that fits. -/
theorem valueLE_bytesLE {size n : ℕ} (h : n < 256 ^ size) : valueLE (bytesLE size n) = n := by
  induction size generalizing n with
  | zero =>
      rw [Nat.pow_zero] at h
      have hn : n = 0 := by omega
      rw [hn]
      rfl
  | succ size ih =>
      rw [Nat.pow_succ] at h
      have hbyte : (UInt8.ofNat (n % 256)).toNat = n % 256 := by
        rw [UInt8.toNat_ofNat']
        omega
      rw [bytesLE, valueLE, hbyte, ih (by omega)]
      omega

/-- The bits of a signed number of `bits` bits. -/
def toBits (bits : ℕ) (v : Int) : ℕ := (v % (2 ^ bits : ℕ)).toNat

/-- The signed number with these bits. -/
def ofBits (bits n : ℕ) : Int := if n < 2 ^ (bits - 1) then n else n - (2 ^ bits : ℕ)

theorem toBits_lt (bits : ℕ) (v : Int) : toBits bits v < 2 ^ bits := by
  have hpos : 0 < 2 ^ bits := Nat.two_pow_pos bits
  unfold toBits
  generalize 2 ^ bits = n at *
  have hlt : v % (n : Int) < n := Int.emod_lt_of_pos v (by omega)
  omega

/-- A signed number of so many bits. -/
def Signed (bits : ℕ) (v : Int) : Prop := -(2 ^ (bits - 1) : ℕ) ≤ v ∧ v < (2 ^ (bits - 1) : ℕ)

/-- **Reading back a signed number** that fits. -/
theorem ofBits_toBits {bits : ℕ} {v : Int} (hbits : 0 < bits) (h : Signed bits v) :
    ofBits bits (toBits bits v) = v := by
  obtain ⟨hlo, hhi⟩ := h
  have hdouble : 2 ^ bits = 2 * 2 ^ (bits - 1) := by
    obtain ⟨k, rfl⟩ : ∃ k, bits = k + 1 := ⟨bits - 1, by omega⟩
    rw [Nat.pow_succ, Nat.mul_comm, Nat.add_sub_cancel]
  unfold ofBits toBits
  rw [hdouble]
  generalize 2 ^ (bits - 1) = half at *
  by_cases hv : 0 ≤ v
  · have hmod : v % ((2 * half : ℕ) : Int) = v := Int.emod_eq_of_lt hv (by omega)
    rw [hmod, if_pos (by omega)]
    omega
  · have hmod : v % ((2 * half : ℕ) : Int) = v + (2 * half : ℕ) := by
      rw [← Int.add_emod_right]
      exact Int.emod_eq_of_lt (by omega) (by omega)
    rw [hmod, if_neg (by omega)]
    omega

/-! ## Text -/

/-- A text in a field of `size` bytes: its terminator follows, and then whatever
the memory held. -/
def textField (size : ℕ) (text : List UInt8) (junk : ℕ → UInt8) : List UInt8 :=
  (text ++ 0 :: (List.range size).map junk).take size

@[simp] theorem length_textField (size : ℕ) (text : List UInt8) (junk : ℕ → UInt8) :
    (textField size text junk).length = size := by
  unfold textField
  rw [List.length_take, List.length_append, List.length_cons, List.length_map, List.length_range]
  omega

/-- Up to the terminator. -/
def cstring (bs : List UInt8) : List UInt8 := bs.takeWhile (· ≠ 0)

/-- **Reading back a text** that leaves room for its terminator. -/
theorem cstring_textField {size : ℕ} {text : List UInt8} (hlen : text.length < size)
    (hzero : 0 ∉ text) (junk : ℕ → UInt8) (rest : List UInt8) :
    cstring (textField size text junk ++ rest) = text := by
  have hfield : textField size text junk =
      text ++ 0 :: ((List.range size).map junk).take (size - text.length - 1) := by
    unfold textField
    obtain ⟨k, rfl⟩ : ∃ k, size = text.length + (k + 1) := ⟨size - text.length - 1, by omega⟩
    rw [List.take_length_add_append, List.take_succ_cons]
    congr 2
    congr 1
    omega
  have hall : ∀ b ∈ text, (b ≠ 0) = true := by
    intro b hb
    have hne : b ≠ 0 := fun heq => hzero (heq ▸ hb)
    simpa using hne
  unfold cstring
  rw [hfield, List.append_assoc, List.takeWhile_append_of_pos (by simpa using hall),
    List.cons_append, List.takeWhile_cons_of_neg (by simp), List.append_nil]

/-! ## Fields of a record -/

/-- The bytes of a field lie at an offset. -/
def At (bs : List UInt8) (i : ℕ) (f : List UInt8) : Prop := ∃ rest, bs.drop i = f ++ rest

variable {bs f : List UInt8} {i : ℕ}

/-- **Every field of a record lies behind those before it.** -/
theorem at_flatten {fs : List (List UInt8)} {k : ℕ} (hk : fs[k]? = some f)
    (hi : ((fs.take k).map List.length).sum = i) (rest : List UInt8) :
    At (fs.flatten ++ rest) i f := by
  obtain ⟨hlt, rfl⟩ := List.getElem?_eq_some_iff.mp hk
  refine ⟨(fs.drop (k + 1)).flatten ++ rest, ?_⟩
  have hlen : (fs.take k).flatten.length = i := List.length_flatten.trans hi
  have hsplit : fs.flatten = (fs.take k).flatten ++ (fs[k] ++ (fs.drop (k + 1)).flatten) := by
    rw [← List.flatten_cons, List.getElem_cons_drop, ← List.flatten_append, List.take_append_drop]
  rw [hsplit, ← hlen, List.append_assoc, List.drop_left, List.append_assoc]

/-- A field is there byte by byte. -/
theorem getElem?_of_at (h : At bs i f) {k : ℕ} (hk : k < f.length) : bs[i + k]? = f[k]? := by
  obtain ⟨rest, hrest⟩ := h
  rw [← List.getElem?_drop, hrest, List.getElem?_append_left hk]

theorem valueLE_of_at {size n : ℕ} (h : At bs i (bytesLE size n)) (hn : n < 256 ^ size) :
    valueLE ((bs.drop i).take size) = n := by
  obtain ⟨rest, hrest⟩ := h
  rw [hrest, List.take_left' (length_bytesLE size n)]
  exact valueLE_bytesLE hn

theorem cstring_of_at {size : ℕ} {text : List UInt8} {junk : ℕ → UInt8}
    (h : At bs i (textField size text junk)) (hlen : text.length < size) (hzero : 0 ∉ text) :
    cstring (bs.drop i) = text := by
  obtain ⟨rest, hrest⟩ := h
  rw [hrest]
  exact cstring_textField hlen hzero junk rest

end Packed
