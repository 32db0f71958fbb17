import Mathlib.Algebra.BigOperators.Group.Finset.Basic
import TunnelServer.Lib.Run
import TunnelServer.Uthash

/-!
# Sequences of hash table operations

`HASH_ADD`, `HASH_DELETE` and `HASH_CLEAR` on one table variable, in any order, over elements whose key
fields do not change. The keyed index is what the variable is for.
-/

namespace TunnelServer

/-- An operation. `add` comes with the length of the key and with whether `uthash_malloc` has the blocks
it may ask for. -/
inductive HashOp
  | add (e : Handle) (keylen : Nat) (mem : Bool)
  | delete (e : Handle)
  | clear

namespace UtHash

variable (field : Handle → List UInt8)

/-- The memory before the first operation: nothing is in the table, and the elements in `hh` are live,
whatever their handles hold. -/
def ofHandles (hh : UtHashHandles) : UtHash := { UtHash.empty with hh }

def hashStep (hash : List UInt8 → UInt32) (fuel : Nat) (m : UtHash) : HashOp → Option UtHash
  | .add e keylen mem => m.hashAdd hash field fuel mem keylen e
  | .delete e => m.hashDelete e
  | .clear => m.hashClear

def indexStep (idx : HashIndex (List UInt8) Handle) : HashOp → Option (HashIndex (List UInt8) Handle)
  | .add e keylen _ => some (idx.add ((field e).take keylen) e)
  | .delete e => some (idx.delete e)
  | .clear => some .empty

/-- What the library asks of its callers: a live element with a key that is not in use is added, and an
element that is in the table is deleted. There has to be memory for what is added, and its key has to have
a length that fits an `unsigned`. -/
def HashFits (hh : UtHashHandles) (p : HashIndex (List UInt8) Handle × HashOp) : Prop :=
  match p.2 with
  | .add e keylen mem => mem = true ∧ keylen < 2 ^ 32 ∧ (hh e).isSome ∧ keylen ≤ (field e).length ∧
      e ∉ p.1.entries.map Prod.snd ∧ p.1.find ((field e).take keylen) = none
  | .delete e => e ∈ p.1.entries.map Prod.snd
  | .clear => True

instance (hh : UtHashHandles) (p : HashIndex (List UInt8) Handle × HashOp) :
    Decidable (HashFits field hh p) :=
  match p with
  | (_, .add ..) => inferInstanceAs (Decidable (_ ∧ _ ∧ _ ∧ _ ∧ _ ∧ _))
  | (_, .delete _) => inferInstanceAs (Decidable (_ ∈ _))
  | (_, .clear) => .isTrue trivial

/-- No table has come to 2³¹ buckets, which cannot be doubled any more, or to 2²⁸ elements, below which
`(expand_mult + 1) * HASH_BKT_CAPACITY_THRESH` does not wrap. -/
def Small (m : UtHash) : Prop :=
  ∀ a < m.nextTable, ∀ t ∈ m.tables a, t.log2NumBuckets.toNat < 31 ∧ t.numItems.toNat < 2 ^ 28

instance (m : UtHash) : Decidable m.Small := inferInstanceAs (Decidable (∀ _ < _, ∀ _ ∈ _, _ ∧ _))

/-- What can be asked of a table variable agrees with the index: every search, the count, the order of
iteration, the integrity check of the library, and that no table is allocated but the one in use. -/
structure Agrees (hash : List UInt8 → UInt32) (fuel : Nat) (m : UtHash)
    (idx : HashIndex (List UInt8) Handle) : Prop where
  find : ∀ k, hashFind hash field fuel k m = some (idx.find k)
  count : (hashCnt m).map UInt32.toNat = some idx.count
  visit : hashVisit fuel m = some (idx.entries.map Prod.snd).reverse
  fsck : hashFsck fuel m = some ()
  tables : ∀ a t, m.tables a = some t → m.tbl = some (a, t)

def hashvOf (m : UtHash) (e : Handle) : UInt32 := ((m.hh e).map UtHashHandle.hashv).getD 0

/-- What `HASH_EXPAND_BUCKETS` makes of a memory `m` with the table `t`: the memory `u` with the table
`t'`, whose buckets are twice as many. A new chain takes those elements of one old chain that belong in
it, in reverse, and the statistics are those that the comments in the structure describe. -/
structure SplitsBuckets (fuel : Nat) (m : UtHash) (t : UtHashTable) (u : UtHash) (t' : UtHashTable)
    (old new : Nat → List Handle) : Prop where
  buckets : t'.numBuckets.toNat = t.numBuckets.toNat * 2
  before : ∀ b < t.numBuckets.toNat, hashChain fuel m t b = some (old b)
  after : ∀ b < t'.numBuckets.toNat, hashChain fuel u t' b = some (new b)
  split : ∀ b < t'.numBuckets.toNat, new b =
    ((old (b % t.numBuckets.toNat)).filter fun e =>
      hashToBkt (hashvOf m e) t'.numBuckets = b).reverse
  ideal : t'.idealChainMaxlen.toNat =
    (t.numItems.toNat + (t'.numBuckets.toNat - 1)) / t'.numBuckets.toNat
  nonideal : t'.nonidealItems.toNat =
    ∑ b ∈ Finset.range t'.numBuckets.toNat, ((new b).length - t'.idealChainMaxlen.toNat)
  ineffective : t'.ineffExpands =
    if t'.nonidealItems > t.numItems / 2 then t.ineffExpands + 1 else 0
  inhibited : t'.noexpand = 1 ↔ t'.ineffExpands > 1 ∨ t.noexpand = 1

/-! ### A run -/

/-- Elements with four bytes of key, all different. -/
def keyOf (e : Handle) : List UInt8 := leBytes (UInt32.ofNat (e * 64))

def strayHandle : UtHashHandle where
  tbl := some 7
  prev := some 3
  next := none
  hhPrev := some 1
  hhNext := some 1
  keylen := 9
  hashv := 1

/-- Every second of fifteen elements is deleted again, and one comes back. When all keys fall in one bucket
the tenth element leads to an expansion. -/
def fillingUp : List HashOp :=
  (List.range 15).map (HashOp.add · 4 true) ++ (List.range 7).map (fun i => HashOp.delete (2 * i)) ++
    [.add 0 4 true]

end UtHash

end TunnelServer
