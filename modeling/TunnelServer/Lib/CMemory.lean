import Mathlib.Algebra.Group.Nat.Defs
import Mathlib.Data.List.TakeWhile
import Mathlib.Logic.Function.Basic
import Mathlib.Tactic.Common

/-!
# Pieces of a C machine

Arrays whose accesses are checked, strings that end at a NUL byte, the bytes of a 32-bit integer
in the memory of a little-endian host, and integers of a fixed width.
-/

/-- An array of a C program. Its cells are `0 .. length - 1`; touching any other index is undefined. -/
structure CArray (α : Type*) where
  length : Nat
  cell : Nat → α

namespace CArray

variable {α : Type*}

def read (a : CArray α) (i : Int) : Option α :=
  if 0 ≤ i ∧ i < a.length then some (a.cell i.toNat) else none

def write (a : CArray α) (i : Int) (x : α) : Option (CArray α) :=
  if 0 ≤ i ∧ i < a.length then some { a with cell := Function.update a.cell i.toNat x } else none

theorem read_natCast {a : CArray α} {i : Nat} (hi : i < a.length) :
    a.read (i : Int) = some (a.cell i) := by
  simp [read, hi]

theorem write_natCast {a : CArray α} {i : Nat} (hi : i < a.length) (x : α) :
    a.write (i : Int) x = some { a with cell := Function.update a.cell i x } := by
  simp [write, hi]

theorem write_mk {n i : Nat} (hi : i < n) (f : Nat → α) (x : α) :
    (CArray.mk n f).write (i : Int) x = some ⟨n, Function.update f i x⟩ :=
  write_natCast hi x

theorem read_of_neg {a : CArray α} {i : Int} (hi : i < 0) : a.read i = none := by
  rw [read, if_neg]
  omega

end CArray

def memcpy {α : Type*} (dst src : List α) : List α := src ++ dst.drop src.length

theorem length_memcpy {α : Type*} {dst src : List α} (h : src.length ≤ dst.length) :
    (memcpy dst src).length = dst.length := by
  rw [memcpy, List.length_append, List.length_drop]
  omega

/-- An access to consecutive bytes of an object: how many bytes it has, the first one touched and how
many are. The count is the `size_t` that `memcpy` is called with. -/
structure Access where
  size : Nat
  first : Int
  count : UInt64
deriving DecidableEq

def Access.InBounds (a : Access) : Prop := 0 ≤ a.first ∧ a.first + a.count.toNat ≤ a.size

instance (a : Access) : Decidable a.InBounds := inferInstanceAs (Decidable (_ ∧ _))

/-- The string stored in a `char` array: the bytes before the first NUL. -/
def cString (bytes : List UInt8) : List UInt8 := bytes.takeWhile (· ≠ 0)

theorem cString_append_nul (bytes rest : List UInt8) : cString (bytes ++ 0 :: rest) = cString bytes := by
  induction bytes with
  | nil => simp [cString]
  | cons b bytes ih =>
      unfold cString at *
      by_cases hb : b = 0
      · simp [hb]
      · rw [List.cons_append, List.takeWhile_cons_of_pos (by simpa using hb),
          List.takeWhile_cons_of_pos (by simpa using hb), ih]

/-- What a terminated copy leaves in a buffer reads back as the string copied. -/
theorem cString_memcpy_nul (dst bytes : List UInt8) :
    cString (memcpy dst (bytes ++ [0])) = cString (bytes ++ [0]) := by
  rw [memcpy, List.append_assoc, List.singleton_append, cString_append_nul, cString_append_nul]

theorem cString_eq_self {bytes : List UInt8} (h : 0 ∉ bytes) : cString bytes = bytes := by
  rw [cString, List.takeWhile_eq_self_iff]
  intro b hb
  simpa using fun h0 : b = 0 => h (h0 ▸ hb)

theorem take_length_cString (bytes : List UInt8) :
    bytes.take (cString bytes).length = cString bytes :=
  (List.prefix_iff_eq_take.1 (List.takeWhile_prefix _)).symm

/-! ### Byte order -/

/-- The four bytes of an integer as a little-endian host keeps them. -/
def leBytes (x : UInt32) : List UInt8 :=
  [UInt8.ofNat x.toNat, UInt8.ofNat (x.toNat / 256), UInt8.ofNat (x.toNat / 65536),
    UInt8.ofNat (x.toNat / 16777216)]

/-- The integer a little-endian host reads from four bytes; bytes past the end count as zero. -/
def leWord (bytes : List UInt8) : UInt32 :=
  UInt32.ofNat ((bytes.getD 0 0).toNat + 256 * (bytes.getD 1 0).toNat +
    65536 * (bytes.getD 2 0).toNat + 16777216 * (bytes.getD 3 0).toNat)

@[simp] theorem length_leBytes (x : UInt32) : (leBytes x).length = 4 := rfl

theorem leWord_leBytes (x : UInt32) : leWord (leBytes x) = x := by
  apply UInt32.toNat_inj.mp
  have := x.toNat_lt
  simp only [leWord, leBytes, List.getD_cons_zero, List.getD_cons_succ, UInt8.toNat_ofNat',
    UInt32.toNat_ofNat']
  omega

theorem leBytes_leWord (a b c d : UInt8) : leBytes (leWord [a, b, c, d]) = [a, b, c, d] := by
  have := a.toNat_lt
  have := b.toNat_lt
  have := c.toNat_lt
  have := d.toNat_lt
  simp only [leWord, leBytes, List.getD_cons_zero, List.getD_cons_succ, UInt32.toNat_ofNat',
    List.cons.injEq, and_true]
  refine ⟨?_, ?_, ?_, ?_⟩ <;> apply UInt8.toNat_inj.mp <;> rw [UInt8.toNat_ofNat'] <;> omega

theorem leBytes_injective : Function.Injective leBytes :=
  Function.LeftInverse.injective leWord_leBytes

/-- `htonl`: the integer whose bytes in memory are those of `x`, most significant first. -/
def htonl (x : UInt32) : UInt32 := leWord (leBytes x).reverse

def ntohl (x : UInt32) : UInt32 := leWord (leBytes x).reverse

@[simp] theorem ntohl_htonl (x : UInt32) : ntohl (htonl x) = x := by
  have hbytes : leBytes (htonl x) = (leBytes x).reverse := leBytes_leWord _ _ _ _
  rw [ntohl, hbytes, List.reverse_reverse, leWord_leBytes]

theorem htonl_ntohl (x : UInt32) : htonl (ntohl x) = x := ntohl_htonl x

/-! ### Unsigned arithmetic -/

theorem toNat_sub_one {n : UInt32} (hn : 0 < n.toNat) : (n - 1).toNat = n.toNat - 1 :=
  UInt32.toNat_sub_of_le _ _ (UInt32.le_iff_toNat_le.2 hn)

theorem toNat_add_one {n : UInt32} (hn : n.toNat + 1 < 2 ^ 32) : (n + 1).toNat = n.toNat + 1 := by
  rw [UInt32.toNat_add, UInt32.toNat_one, Nat.mod_eq_of_lt hn]

/-- Below a power of two a mask leaves the remainder. -/
theorem and_sub_one_toNat (x : UInt32) {n : UInt32} {k : Nat} (hn : n.toNat = 2 ^ k) :
    (x &&& (n - 1)).toNat = x.toNat % n.toNat := by
  rw [UInt32.toNat_and, toNat_sub_one (hn ▸ Nat.two_pow_pos k), hn, Nat.and_two_pow_sub_one_eq_mod]

/-! ### Narrow and signed integers -/

theorem toInt_toInt8 (x : UInt8) :
    x.toInt8.toInt = if x.toNat < 128 then (x.toNat : Int) else x.toNat - 256 := by
  rw [Int8.toInt, UInt8.toBitVec_toInt8, BitVec.toInt_eq_toNat_cond]
  show (if 2 * x.toNat < 2 ^ 8 then (x.toNat : Int) else x.toNat - (2 ^ 8 : Nat)) = _
  split_ifs <;> omega

theorem toInt_toInt32_of_lt {x : UInt32} (h : x.toNat < 2 ^ 31) : x.toInt32.toInt = x.toNat := by
  rw [Int32.toInt, UInt32.toBitVec_toInt32, BitVec.toInt_eq_toNat_cond, if_pos]
  · rfl
  · show 2 * x.toNat < 2 ^ 32
    omega

theorem toInt_toUInt32_of_lt {x : UInt64} (h : x.toNat < 2 ^ 31) :
    x.toUInt32.toInt32.toInt = x.toNat := by
  have hlow : x.toUInt32.toNat = x.toNat := by
    rw [UInt64.toNat_toUInt32]
    omega
  rw [toInt_toInt32_of_lt (by rw [hlow]; exact h), hlow]

theorem toNat_ofInt_of_nonneg {x : Int} (h0 : 0 ≤ x) (hx : x.toNat < 2 ^ 64) :
    (UInt64.ofInt x).toNat = x.toNat := by
  rw [UInt64.ofInt, UInt64.toNat_ofNat', Int.emod_eq_of_lt h0 (by omega), Nat.mod_eq_of_lt hx]

theorem toInt_toInt16_of_lt {x : UInt16} (h : x.toNat < 2 ^ 15) : x.toInt16.toInt = x.toNat := by
  rw [Int16.toInt, UInt16.toBitVec_toInt16, BitVec.toInt_eq_toNat_cond, if_pos]
  · rfl
  · show 2 * x.toNat < 2 ^ 16
    omega

/-- From `2 ^ 15` on, a `uint16_t` read as an `int16_t` is negative. -/
theorem toInt_toInt16_neg {x : UInt16} (h : 2 ^ 15 ≤ x.toNat) : x.toInt16.toInt < 0 := by
  have hlt := x.toNat_lt
  rw [Int16.toInt, UInt16.toBitVec_toInt16, BitVec.toInt_eq_toNat_cond, if_neg]
  · show (x.toNat : Int) - (2 ^ 16 : Nat) < 0
    omega
  · show ¬ 2 * x.toNat < 2 ^ 16
    omega
