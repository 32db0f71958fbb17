import TunnelServer.Client
import TunnelServer.Lib.LinkedList

/-!
# The hash table: `uthash.h`

A `UtHash` is one table and the handles (`UT_hash_handle`) that the elements embed for it. An element
and the handle inside it lie a constant number of bytes apart (`hho`), so one `Handle` stands for both
pointers. `hh` maps live elements to what their handle holds and `tables` the tables that have been
allocated and not freed. A macro that would follow a pointer to anything else returns `none`, and so does
one whose loop is still running after `fuel` rounds.

The macros take the hash function and the bytes of the key field of an element as parameters, and those
that call `uthash_malloc` whether it has the blocks they ask for: where it has not, `uthash_fatal` exits,
which is `none` too. Counters wrap as `unsigned` does. The Bloom filter and the key log, which the build
does not enable, are left out.
-/

namespace TunnelServer

/-- `UT_hash_handle`. The pointer `key` always points to the key field of the element itself. -/
structure UtHashHandle where
  tbl : Option Nat
  prev : Option Handle
  next : Option Handle
  hhPrev : Option Handle
  hhNext : Option Handle
  keylen : Nat
  hashv : UInt32
deriving DecidableEq

structure UtHashBucket where
  hhHead : Option Handle
  count : UInt32
  expandMult : UInt32
deriving DecidableEq

structure UtHashTable where
  buckets : CArray UtHashBucket
  numBuckets : UInt32
  log2NumBuckets : UInt32
  numItems : UInt32
  tail : Option Handle
  idealChainMaxlen : UInt32
  nonidealItems : UInt32
  ineffExpands : UInt32
  noexpand : UInt32

def HASH_INITIAL_NUM_BUCKETS : UInt32 := 32

def HASH_INITIAL_NUM_BUCKETS_LOG2 : UInt32 := 5

def HASH_BKT_CAPACITY_THRESH : UInt32 := 10

abbrev UtHashHandles := Handle → Option UtHashHandle

namespace UtHashHandles

def store (hh : UtHashHandles) (e : Handle) (f : UtHashHandle → UtHashHandle) :
    Option UtHashHandles := do
  let r ← hh e
  some (Function.update hh e (some (f r)))

/-- Write to the handle a pointer leads to, unless the pointer is `NULL`. -/
def storeAt (hh : UtHashHandles) (p : Option Handle) (f : UtHashHandle → UtHashHandle) :
    Option UtHashHandles :=
  match p with
  | none => some hh
  | some e => hh.store e f

end UtHashHandles

structure UtHash where
  hh : UtHashHandles
  tables : Nat → Option UtHashTable
  nextTable : Nat
  head : Option Handle

def emptyBucket : UtHashBucket := { hhHead := none, count := 0, expandMult := 0 }

def hashToBkt (hashv numBkts : UInt32) : Nat := (hashv &&& (numBkts - 1)).toNat

/-! ### The hash function -/

def hashJenMix (a b c : UInt32) : UInt32 × UInt32 × UInt32 :=
  let a := (a - b - c) ^^^ (c >>> 13)
  let b := (b - c - a) ^^^ (a <<< 8)
  let c := (c - a - b) ^^^ (b >>> 13)
  let a := (a - b - c) ^^^ (c >>> 12)
  let b := (b - c - a) ^^^ (a <<< 16)
  let c := (c - a - b) ^^^ (b >>> 5)
  let a := (a - b - c) ^^^ (c >>> 3)
  let b := (b - c - a) ^^^ (a <<< 10)
  let c := (c - a - b) ^^^ (b >>> 15)
  (a, b, c)

/-- Twelve bytes are mixed in at a time. What is left over counts as if it were filled up with zeros,
except that the last four of the twelve leave out the lowest byte, which the key length takes. -/
def hashJenLoop (keylen : UInt32) : List UInt8 → UInt32 → UInt32 → UInt32 → UInt32
  | k0 :: k1 :: k2 :: k3 :: k4 :: k5 :: k6 :: k7 :: k8 :: k9 :: k10 :: k11 :: key, i, j, hashv =>
    let (i, j, hashv) := hashJenMix (i + leWord [k0, k1, k2, k3]) (j + leWord [k4, k5, k6, k7])
      (hashv + leWord [k8, k9, k10, k11])
    hashJenLoop keylen key i j hashv
  | key, i, j, hashv =>
    let hashv := hashv + keylen
    (hashJenMix (i + leWord (key.take 4)) (j + leWord ((key.drop 4).take 4))
      (hashv + leWord (0 :: key.drop 8))).2.2

def hashJen (key : List UInt8) : UInt32 :=
  hashJenLoop (UInt32.ofNat key.length) key 0x9e3779b9 0x9e3779b9 0xfeedbeef

namespace UtHash

def empty : UtHash := { hh := fun _ => none, tables := fun _ => none, nextTable := 0, head := none }

def tbl (m : UtHash) : Option (Nat × UtHashTable) := do
  let head ← m.head
  let r ← m.hh head
  let a ← r.tbl
  let t ← m.tables a
  some (a, t)

def setHh (m : UtHash) (hh : UtHashHandles) : UtHash := { m with hh }

def setHead (m : UtHash) (head : Option Handle) : UtHash := { m with head }

def setTable (m : UtHash) (a : Nat) (t : UtHashTable) : UtHash :=
  { m with tables := Function.update m.tables a (some t) }

def storeTbl (m : UtHash) (f : UtHashTable → UtHashTable) : Option UtHash := do
  let (a, t) ← m.tbl
  some (m.setTable a (f t))

def findInBkt (field : Handle → List UInt8) (hh : UtHashHandles) (key : List UInt8)
    (hashv : UInt32) : Nat → Option Handle → Option (Option Handle)
  | _, none => some none
  | 0, some _ => none
  | fuel + 1, some out => do
    let r ← hh out
    if r.hashv = hashv ∧ r.keylen = key.length ∧ (field out).take key.length = key then
      some (some out)
    else findInBkt field hh key hashv fuel r.hhNext

def hashFind (hash : List UInt8 → UInt32) (field : Handle → List UInt8) (fuel : Nat)
    (key : List UInt8) (m : UtHash) : Option (Option Handle) :=
  match m.head with
  | none => some none
  | some _ => do
    let (_, t) ← m.tbl
    let bkt ← t.buckets.read (hashToBkt (hash key) t.numBuckets)
    findInBkt field m.hh key (hash key) fuel bkt.hhHead

/-- `HASH_MAKE_TABLE`, for an element that has just become the head. -/
def hashMakeTable (mem : Bool) (head : Handle) (m : UtHash) : Option UtHash := do
  guard mem
  let hh ← m.hh.store head fun r => { r with tbl := some m.nextTable }
  let t : UtHashTable :=
    { buckets := ⟨HASH_INITIAL_NUM_BUCKETS.toNat, fun _ => emptyBucket⟩
      numBuckets := HASH_INITIAL_NUM_BUCKETS
      log2NumBuckets := HASH_INITIAL_NUM_BUCKETS_LOG2
      numItems := 0
      tail := some head
      idealChainMaxlen := 0
      nonidealItems := 0
      ineffExpands := 0
      noexpand := 0 }
  some { (m.setHh hh).setTable m.nextTable t with nextTable := m.nextTable + 1 }

def hashAppendList (add : Handle) (m : UtHash) : Option UtHash := do
  let hh ← m.hh.store add fun r => { r with next := none }
  let m := m.setHh hh
  let (a, t) ← m.tbl
  let hh ← m.hh.store add fun r => { r with prev := t.tail }
  let tail ← t.tail
  let hh ← hh.store tail fun r => { r with next := some add }
  some ((m.setHh hh).setTable a { t with tail := some add })

/-- What the loops of `HASH_EXPAND_BUCKETS` write to. -/
structure Expansion where
  hh : UtHashHandles
  newBuckets : CArray UtHashBucket
  nonidealItems : UInt32

/-- The inner loop of `HASH_EXPAND_BUCKETS`: move the chain that starts at `thh`. -/
def expandChain (numBuckets idealChainMaxlen : UInt32) :
    Nat → Option Handle → Expansion → Option Expansion
  | _, none, x => some x
  | 0, some _, _ => none
  | fuel + 1, some thh, x => do
    let r ← x.hh thh
    let bkt := hashToBkt r.hashv (numBuckets * 2)
    let newbkt ← x.newBuckets.read bkt
    let count := newbkt.count + 1
    -- the division by `ideal_chain_maxlen` is undefined when that is zero
    guard (count > idealChainMaxlen → idealChainMaxlen ≠ 0)
    let nonidealItems := if count > idealChainMaxlen then x.nonidealItems + 1 else x.nonidealItems
    let expandMult :=
      if count > idealChainMaxlen then count / idealChainMaxlen else newbkt.expandMult
    let hh ← x.hh.store thh fun r => { r with hhPrev := none, hhNext := newbkt.hhHead }
    let hh ← hh.storeAt newbkt.hhHead fun r => { r with hhPrev := some thh }
    let newBuckets ← x.newBuckets.write bkt { hhHead := some thh, count, expandMult }
    expandChain numBuckets idealChainMaxlen fuel r.hhNext { hh, newBuckets, nonidealItems }

def expandBucket (t : UtHashTable) (idealChainMaxlen : UInt32) (fuel : Nat) (x : Expansion) (i : Nat) :
    Option Expansion := do
  let bkt ← t.buckets.read i
  expandChain t.numBuckets idealChainMaxlen fuel bkt.hhHead x

def hashExpandBuckets (fuel : Nat) (mem : Bool) (a : Nat) (m : UtHash) : Option UtHash := do
  let t ← m.tables a
  guard mem
  -- a shift by the width of `unsigned` is undefined
  guard (t.log2NumBuckets + 1 < 32)
  let idealChainMaxlen := (t.numItems >>> (t.log2NumBuckets + 1)) +
    (if t.numItems &&& (t.numBuckets * 2 - 1) ≠ 0 then 1 else 0)
  let x ← (List.range t.numBuckets.toNat).foldlM (expandBucket t idealChainMaxlen fuel)
    { hh := m.hh
      newBuckets := ⟨2 * t.numBuckets.toNat, fun _ => emptyBucket⟩
      nonidealItems := 0 }
  let ineffExpands := if x.nonidealItems > t.numItems >>> 1 then t.ineffExpands + 1 else 0
  let t :=
    { t with
      buckets := x.newBuckets
      numBuckets := t.numBuckets * 2
      log2NumBuckets := t.log2NumBuckets + 1
      idealChainMaxlen
      nonidealItems := x.nonidealItems
      ineffExpands
      noexpand := if ineffExpands > 1 then 1 else t.noexpand }
  some ((m.setHh x.hh).setTable a t)

/-- `HASH_ADD_TO_BKT`, for the bucket with index `bkt` of the table of `head`. -/
def hashAddToBkt (fuel : Nat) (mem : Bool) (bkt : Nat) (add : Handle) (m : UtHash) :
    Option UtHash := do
  let (a, t) ← m.tbl
  let head ← t.buckets.read bkt
  let count := head.count + 1
  let hh ← m.hh.store add fun r => { r with hhNext := head.hhHead, hhPrev := none }
  let hh ← hh.storeAt head.hhHead fun r => { r with hhPrev := some add }
  let buckets ← t.buckets.write bkt { head with count, hhHead := some add }
  let m := (m.setHh hh).setTable a { t with buckets }
  if count ≥ (head.expandMult + 1) * HASH_BKT_CAPACITY_THRESH then do
    let r ← m.hh add
    let a ← r.tbl
    let t ← m.tables a
    if t.noexpand ≠ 1 then m.hashExpandBuckets fuel mem a else some m
  else some m

/-- `HASH_ADD` as far as the bucket is not concerned: fill in the handle, put the element last in
application order and count it. -/
def hashAddToOrder (mem : Bool) (hashv : UInt32) (keylen : Nat) (add : Handle) (m : UtHash) :
    Option UtHash := do
  let hh ← m.hh.store add fun r => { r with hashv, keylen }
  let m := m.setHh hh
  let m ←
    match m.head with
    | none => do
      let hh ← m.hh.store add fun r => { r with next := none, prev := none }
      ((m.setHh hh).setHead (some add)).hashMakeTable mem add
    | some head => do
      let r ← m.hh head
      let hh ← m.hh.store add fun s => { s with tbl := r.tbl }
      (m.setHh hh).hashAppendList add
  m.storeTbl fun t => { t with numItems := t.numItems + 1 }

/-- `HASH_ADD`, with the length of the key given by the caller. -/
def hashAdd (hash : List UInt8 → UInt32) (field : Handle → List UInt8) (fuel : Nat)
    (mem : Bool) (keylen : Nat) (add : Handle) (m : UtHash) : Option UtHash := do
  let hashv := hash ((field add).take keylen)
  let m ← m.hashAddToOrder mem hashv keylen add
  let (_, t) ← m.tbl
  m.hashAddToBkt fuel mem (hashToBkt hashv t.numBuckets) add

def hashDelInBkt (bkt : Nat) (del : Handle) (m : UtHash) : Option UtHash := do
  let (a, t) ← m.tbl
  let head ← t.buckets.read bkt
  let d ← m.hh del
  let hhHead := if head.hhHead = some del then d.hhNext else head.hhHead
  let buckets ← t.buckets.write bkt { head with count := head.count - 1, hhHead }
  let hh ← m.hh.storeAt d.hhPrev fun r => { r with hhNext := d.hhNext }
  let d ← hh del
  let hh ← hh.storeAt d.hhNext fun r => { r with hhPrev := d.hhPrev }
  some ((m.setHh hh).setTable a { t with buckets })

def hashDelete (del : Handle) (m : UtHash) : Option UtHash := do
  let d ← m.hh del
  if d.prev = none ∧ d.next = none then do
    let (a, _) ← m.tbl
    some { m with tables := Function.update m.tables a none, head := none }
  else do
    let (a, t) ← m.tbl
    -- `hho` is added to `prev`, which is undefined for `NULL`
    guard (t.tail = some del → d.prev ≠ none)
    let m := if t.tail = some del then m.setTable a { t with tail := d.prev } else m
    let hh ← m.hh.storeAt d.prev fun r => { r with next := d.next }
    let m := (m.setHh hh).setHead (if d.prev ≠ none then m.head else d.next)
    let d ← m.hh del
    let hh ← m.hh.storeAt d.next fun r => { r with prev := d.prev }
    let m := m.setHh hh
    let d ← m.hh del
    let (_, t) ← m.tbl
    let m ← m.hashDelInBkt (hashToBkt d.hashv t.numBuckets) del
    m.storeTbl fun t => { t with numItems := t.numItems - 1 }

def hashClear (m : UtHash) : Option UtHash :=
  match m.head with
  | none => some m
  | some _ => do
    let (a, _) ← m.tbl
    some { m with tables := Function.update m.tables a none, head := none }

def hashCnt (m : UtHash) : Option UInt32 :=
  match m.head with
  | none => some 0
  | some _ => do
    let (_, t) ← m.tbl
    some t.numItems

/-- `HASH_ITER` over a state: `next` reads where an element leads, which happens before the body runs. -/
def hashIter {σ : Type} (next : σ → Handle → Option (Option Handle)) (body : Handle → σ → Option σ) :
    Nat → Option Handle → σ → Option σ
  | _, none, s => some s
  | 0, some _, _ => none
  | fuel + 1, some el, s => do
    let tmp ← next s el
    let s ← body el s
    hashIter next body fuel tmp s

def hashVisit (fuel : Nat) (m : UtHash) : Option (List Handle) :=
  hashIter (fun _ el => (m.hh el).map UtHashHandle.next) (fun el visited => some (visited ++ [el]))
    fuel m.head []

/-- The elements of a bucket in the order a search goes through them. -/
def hashChain (fuel : Nat) (m : UtHash) (t : UtHashTable) (b : Nat) : Option (List Handle) :=
  hashIter (fun _ el => (m.hh el).map UtHashHandle.hhNext) (fun el visited => some (visited ++ [el]))
    fuel (t.buckets.cell b).hhHead []

/-! ### `HASH_FSCK` -/

def fsckWalk (L : Links Handle) : Nat → Option Handle → Option Handle → Option UInt32
  | _, _, none => some 0
  | 0, _, some _ => none
  | fuel + 1, prev, some thh => do
    let k ← L thh
    guard (k.prev = prev)
    let count ← fsckWalk L fuel (some thh) k.next
    some (count + 1)

def appLinks (hh : UtHashHandles) : Links Handle := fun e => (hh e).map fun r => ⟨r.prev, r.next⟩

def bktLinks (hh : UtHashHandles) : Links Handle := fun e => (hh e).map fun r => ⟨r.hhPrev, r.hhNext⟩

def fsckBucket (L : Links Handle) (t : UtHashTable) (fuel : Nat) (count : UInt32) (i : Nat) :
    Option UInt32 := do
  let bkt ← t.buckets.read i
  let bktCount ← fsckWalk L fuel none bkt.hhHead
  guard (bkt.count = bktCount)
  some (count + bktCount)

/-- `HASH_FSCK`: `none` when it reports an error. -/
def hashFsck (fuel : Nat) (m : UtHash) : Option Unit :=
  match m.head with
  | none => some ()
  | some head => do
    let (_, t) ← m.tbl
    let count ← (List.range t.numBuckets.toNat).foldlM (fsckBucket (bktLinks m.hh) t fuel) 0
    guard (count = t.numItems)
    let count ← fsckWalk (appLinks m.hh) fuel none (some head)
    guard (count = t.numItems)

end UtHash

end TunnelServer
