import TunnelServer.Uthash

/-!
# Jenkins' hash over memory

`HASH_JEN` as the macro runs: it goes through the memory a key lies in with a pointer and a counter. What
it reads is checked, so a byte outside of that memory leaves no result. `hashJen` says which value it
computes.
-/

namespace TunnelServer

variable (key : CArray UInt8)

/-- `(unsigned)_hj_key[n] << shift`, with `_hj_key` at `p`. -/
def hashJenByte (p n : Nat) (shift : UInt32) : Option UInt32 := do
  let k ← key.read (p + n : Nat)
  some (k.toUInt32 <<< shift)

def hashJenWord (p n : Nat) : Option UInt32 := do
  let k0 ← hashJenByte key p n 0
  let k1 ← hashJenByte key p (n + 1) 8
  let k2 ← hashJenByte key p (n + 2) 16
  let k3 ← hashJenByte key p (n + 3) 24
  some (k0 + k1 + k2 + k3)

/-- The `while` loop: the pointer and the registers after it, with what is left of `_hj_k`. -/
def hashJenWhile (p k : Nat) (i j hashv : UInt32) :
    Option (Nat × Nat × UInt32 × UInt32 × UInt32) :=
  if 12 ≤ k then do
    let w0 ← hashJenWord key p 0
    let w4 ← hashJenWord key p 4
    let w8 ← hashJenWord key p 8
    let (i, j, hashv) := hashJenMix (i + w0) (j + w4) (hashv + w8)
    hashJenWhile (p + 12) (k - 12) i j hashv
  else some (p, k, i, j, hashv)
termination_by k

/-- `case n + 1` of the `switch`, which every higher case falls through to. -/
def hashJenCase (p k n : Nat) (shift x : UInt32) : Option UInt32 :=
  if n < k then do
    let b ← hashJenByte key p n shift
    some (x + b)
  else some x

def hashJenSwitch (p k : Nat) (i j hashv : UInt32) : Option (UInt32 × UInt32 × UInt32) := do
  let hashv ← hashJenCase key p k 10 24 hashv
  let hashv ← hashJenCase key p k 9 16 hashv
  let hashv ← hashJenCase key p k 8 8 hashv
  let j ← hashJenCase key p k 7 24 j
  let j ← hashJenCase key p k 6 16 j
  let j ← hashJenCase key p k 5 8 j
  let j ← hashJenCase key p k 4 0 j
  let i ← hashJenCase key p k 3 24 i
  let i ← hashJenCase key p k 2 16 i
  let i ← hashJenCase key p k 1 8 i
  let i ← hashJenCase key p k 0 0 i
  some (i, j, hashv)

def hashJenEnd (keylen : UInt32) : Nat × Nat × UInt32 × UInt32 × UInt32 → Option UInt32
  | (p, k, i, j, hashv) => do
    let (i, j, hashv) ← hashJenSwitch key p k i j (hashv + keylen)
    some (hashJenMix i j hashv).2.2

/-- `HASH_JEN` of the `keylen` bytes at `p`. -/
def hashJenAt (p : Nat) (keylen : UInt32) : Option UInt32 :=
  hashJenWhile key p keylen.toNat 0x9e3779b9 0x9e3779b9 0xfeedbeef >>= hashJenEnd key keylen

def bytesAt (p k : Nat) : List UInt8 := (List.range k).map fun n => key.cell (p + n)

end TunnelServer
