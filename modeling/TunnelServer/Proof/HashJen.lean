import TunnelServer.HashJen
import TunnelServer.Proof.Datagram

/-!
# What Jenkins' hash reads

The macro over memory reads every byte of the key and no other one, and computes the value that the
tables take as the hash of these bytes.
-/

namespace TunnelServer

variable {key : CArray UInt8} {p k : Nat}

/-! ### The bytes of a key -/

theorem length_bytesAt (key : CArray UInt8) (p k : Nat) : (bytesAt key p k).length = k := by
  simp [bytesAt]

theorem getD_bytesAt {n : Nat} (h : n < k) : (bytesAt key p k).getD n 0 = key.cell (p + n) := by
  simp [bytesAt, h]

theorem getD_bytesAt_of_le {n : Nat} (h : k ≤ n) : (bytesAt key p k).getD n 0 = 0 := by
  simp [bytesAt, h]

theorem bytesAt_twelve (h : 12 ≤ k) :
    bytesAt key p k = key.cell p :: key.cell (p + 1) :: key.cell (p + 2) :: key.cell (p + 3) ::
      key.cell (p + 4) :: key.cell (p + 5) :: key.cell (p + 6) :: key.cell (p + 7) ::
      key.cell (p + 8) :: key.cell (p + 9) :: key.cell (p + 10) :: key.cell (p + 11) ::
      bytesAt key (p + 12) (k - 12) := by
  obtain ⟨k, rfl⟩ := Nat.exists_eq_add_of_le h
  have hrange : List.range 12 = [0, 1, 2, 3, 4, 5, 6, 7, 8, 9, 10, 11] := by decide
  simp [bytesAt, List.range_add, hrange, Nat.add_assoc]

theorem leWord_eq_shifts (l : List UInt8) :
    leWord l = (l.getD 0 0).toUInt32 <<< 0 + (l.getD 1 0).toUInt32 <<< 8 +
      (l.getD 2 0).toUInt32 <<< 16 + (l.getD 3 0).toUInt32 <<< 24 := by
  have h0 := (l.getD 0 0).toNat_lt
  have h1 := (l.getD 1 0).toNat_lt
  have h2 := (l.getD 2 0).toNat_lt
  have h3 := (l.getD 3 0).toNat_lt
  apply UInt32.toNat_inj.mp
  simp only [leWord, UInt32.toNat_ofNat', UInt32.toNat_add, UInt32.toNat_shiftLeft,
    UInt8.toNat_toUInt32, Nat.shiftLeft_eq, UInt32.reduceToNat, Nat.reduceMod, Nat.reducePow]
  omega

/-! ### What is read -/

theorem hashJenByte_eq (p n : Nat) (shift : UInt32) :
    hashJenByte key p n shift =
      if p + n < key.length then some ((key.cell (p + n)).toUInt32 <<< shift) else none := by
  by_cases h : p + n < key.length
  · rw [hashJenByte, CArray.read_natCast h, if_pos h]
    rfl
  · rw [hashJenByte, CArray.read, if_neg (by omega), if_neg h]
    rfl

theorem hashJenWord_eq (p n : Nat) :
    hashJenWord key p n =
      if p + n + 4 ≤ key.length then
        some (leWord [key.cell (p + n), key.cell (p + (n + 1)), key.cell (p + (n + 2)),
          key.cell (p + (n + 3))])
      else none := by
  by_cases h : p + n + 4 ≤ key.length
  · rw [if_pos h, leWord_eq_shifts]
    simp [hashJenWord, hashJenByte_eq, show p + n < key.length by omega,
      show p + (n + 1) < key.length by omega, show p + (n + 2) < key.length by omega,
      show p + (n + 3) < key.length by omega]
  · have hlast : ¬ p + (n + 3) < key.length := by omega
    rw [if_neg h, hashJenWord, hashJenByte_eq p (n + 3), if_neg hlast]
    simp

/-- A case of the `switch` adds its byte, which is zero where the key has ended. -/
theorem hashJenCase_eq (hfits : k = 0 ∨ p + k ≤ key.length) (n : Nat) (shift x : UInt32) :
    hashJenCase key p k n shift x =
      some (x + ((bytesAt key p k).getD n 0).toUInt32 <<< shift) := by
  by_cases h : n < k
  · rw [hashJenCase, if_pos h, hashJenByte_eq, if_pos (by omega), getD_bytesAt h]
    rfl
  · rw [hashJenCase, if_neg h, getD_bytesAt_of_le (by omega)]
    simp

theorem hashJenCase_reads {n : Nat} {shift x y : UInt32}
    (h : hashJenCase key p k n shift x = some y) (hn : n < k) : p + n < key.length := by
  by_contra hout
  rw [hashJenCase, if_pos hn, hashJenByte_eq, if_neg hout] at h
  cases h

theorem hashJenSwitch_reads (hlt : k < 12) {i j hashv : UInt32} {r : UInt32 × UInt32 × UInt32}
    (h : hashJenSwitch key p k i j hashv = some r) : k = 0 ∨ p + k ≤ key.length := by
  simp only [hashJenSwitch, Option.bind_eq_bind, Option.bind_eq_some_iff] at h
  obtain ⟨_, h10, _, h9, _, h8, _, h7, _, h6, _, h5, _, h4, _, h3, _, h2, _, h1, _, h0, -⟩ := h
  -- the byte that counts is the last one, which the case entered first reads
  have := hashJenCase_reads h10
  have := hashJenCase_reads h9
  have := hashJenCase_reads h8
  have := hashJenCase_reads h7
  have := hashJenCase_reads h6
  have := hashJenCase_reads h5
  have := hashJenCase_reads h4
  have := hashJenCase_reads h3
  have := hashJenCase_reads h2
  have := hashJenCase_reads h1
  have := hashJenCase_reads h0
  omega

/-! ### The loop -/

theorem hashJenLoop_of_lt {l : List UInt8} (h : l.length < 12) (keylen i j hashv : UInt32) :
    hashJenLoop keylen l i j hashv =
      (hashJenMix (i + leWord (l.take 4)) (j + leWord ((l.drop 4).take 4))
        (hashv + keylen + leWord (0 :: l.drop 8))).2.2 := by
  unfold hashJenLoop
  split
  · simp only [List.length_cons] at h
    omega
  · rfl

theorem leWord_take_bytesAt (key : CArray UInt8) (p k n : Nat) :
    leWord (((bytesAt key p k).drop n).take 4) =
      ((bytesAt key p k).getD n 0).toUInt32 <<< 0 +
        ((bytesAt key p k).getD (n + 1) 0).toUInt32 <<< 8 +
        ((bytesAt key p k).getD (n + 2) 0).toUInt32 <<< 16 +
        ((bytesAt key p k).getD (n + 3) 0).toUInt32 <<< 24 := by
  rw [leWord_take, leWord_eq_shifts]
  simp only [getD_drop, Nat.add_zero]

theorem hashJenEnd_eq (hlt : k < 12) (hfits : k = 0 ∨ p + k ≤ key.length)
    (keylen i j hashv : UInt32) :
    hashJenEnd key keylen (p, k, i, j, hashv) =
      some (hashJenLoop keylen (bytesAt key p k) i j hashv) := by
  have hlast : leWord (0 :: (bytesAt key p k).drop 8) =
      ((bytesAt key p k).getD 8 0).toUInt32 <<< 8 +
        ((bytesAt key p k).getD 9 0).toUInt32 <<< 16 +
        ((bytesAt key p k).getD 10 0).toUInt32 <<< 24 := by
    rw [leWord_eq_shifts]
    simp only [List.getD_cons_zero, List.getD_cons_succ, getD_drop]
    simp
  have hfirst := leWord_take_bytesAt key p k 0
  have hsecond := leWord_take_bytesAt key p k 4
  rw [List.drop_zero] at hfirst
  rw [hashJenLoop_of_lt (by rwa [length_bytesAt]), hfirst, hsecond, hlast]
  simp only [hashJenEnd, hashJenSwitch, hashJenCase_eq hfits, Option.bind_eq_bind,
    Option.bind_some, Option.some.injEq]
  -- the `switch` adds the same bytes, the last one first
  have hi : ∀ b0 b1 b2 b3 : UInt32, i + b3 + b2 + b1 + b0 = i + (b0 + b1 + b2 + b3) := by
    intros
    ac_rfl
  have hj : ∀ b0 b1 b2 b3 : UInt32, j + b3 + b2 + b1 + b0 = j + (b0 + b1 + b2 + b3) := by
    intros
    ac_rfl
  have hh : ∀ b0 b1 b2 : UInt32,
      hashv + keylen + b2 + b1 + b0 = hashv + keylen + (b0 + b1 + b2) := by
    intros
    ac_rfl
  rw [hi, hj, hh]

/-- From a turn of the loop on: the key left is read to its end, and no further. -/
theorem hashJenWhile_bind (keylen : UInt32) (p k : Nat) (i j hashv : UInt32) :
    (hashJenWhile key p k i j hashv >>= hashJenEnd key keylen) =
      if k = 0 ∨ p + k ≤ key.length then
        some (hashJenLoop keylen (bytesAt key p k) i j hashv)
      else none := by
  induction k using Nat.strong_induction_on generalizing p i j hashv with
  | _ k ih =>
    rw [hashJenWhile]
    by_cases hk : 12 ≤ k
    · rw [if_pos hk, hashJenWord_eq, hashJenWord_eq, hashJenWord_eq]
      by_cases hwords : p + 8 + 4 ≤ key.length
      · have hrest : k - 12 = 0 ∨ p + 12 + (k - 12) ≤ key.length ↔ k = 0 ∨ p + k ≤ key.length := by
          omega
        rw [if_pos hwords, if_pos (by omega), if_pos (by omega)]
        simp only [Option.bind_eq_bind, Option.bind_some]
        rw [← Option.bind_eq_bind, ih (k - 12) (by omega), bytesAt_twelve hk, hashJenLoop]
        simp only [hrest]
        rfl
      · have hshort : ¬ (k = 0 ∨ p + k ≤ key.length) := by omega
        rw [if_neg hwords, if_neg hshort]
        simp
    · rw [if_neg hk, Option.bind_eq_bind, Option.bind_some]
      by_cases hfits : k = 0 ∨ p + k ≤ key.length
      · rw [hashJenEnd_eq (by omega) hfits, if_pos hfits]
      · rw [if_neg hfits, hashJenEnd]
        cases hswitch : hashJenSwitch key p k i j (hashv + keylen) with
        | none => rfl
        | some r => exact absurd (hashJenSwitch_reads (by omega) hswitch) hfits

theorem hashJenAt_eq (key : CArray UInt8) (p : Nat) (keylen : UInt32) :
    hashJenAt key p keylen =
      if keylen.toNat = 0 ∨ p + keylen.toNat ≤ key.length then
        some (hashJen (bytesAt key p keylen.toNat))
      else none := by
  rw [hashJenAt, hashJenWhile_bind, hashJen, length_bytesAt, UInt32.ofNat_toNat]

/-- The hash of a key is that of its bytes. They are all read, and nothing next to them. -/
theorem hashJen_reads_key (key : CArray UInt8) (p : Nat) (keylen : UInt32) :
    hashJenAt key p keylen =
      if keylen = 0 ∨ p + keylen.toNat ≤ key.length then
        some (hashJen (bytesAt key p keylen.toNat))
      else none := by
  have hzero : keylen = 0 ↔ keylen.toNat = 0 := UInt32.toNat_inj.symm
  rw [hashJenAt_eq]
  simp only [hzero]

end TunnelServer
