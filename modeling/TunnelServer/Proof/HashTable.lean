import Mathlib.Data.List.Perm.Subperm
import TunnelServer.Uthash

/-!
# What a well-formed hash table is

The handles of the elements carry two doubly linked lists, the application order and the chain of the
bucket. The lemmas on `store` take a write apart into what it does to each list and to the rest of a
handle. `Built` then says that the memory holds a table over the elements `app`: both kinds of list, the
counters and the fields of every handle. The key of an element is a parameter, so that nothing here
depends on where the key is kept.
-/

namespace TunnelServer

namespace UtHash

open Links

/-! ### The three parts of a handle -/

def tags (hh : UtHashHandles) : Handle → Option (Option Nat × Nat × UInt32) :=
  fun e => (hh e).map fun r => (r.tbl, r.keylen, r.hashv)

section Store

variable {hh : UtHashHandles} {e x : Handle} {f : UtHashHandle → UtHashHandle} {r : UtHashHandle}

theorem store_eq (hr : hh e = some r) : hh.store e f = some (Function.update hh e (some (f r))) := by
  simp [UtHashHandles.store, hr]

theorem appLinks_eq (hr : hh e = some r) : appLinks hh e = some ⟨r.prev, r.next⟩ := by
  simp [appLinks, hr]

theorem bktLinks_eq (hr : hh e = some r) : bktLinks hh e = some ⟨r.hhPrev, r.hhNext⟩ := by
  simp [bktLinks, hr]

theorem tags_eq (hr : hh e = some r) : tags hh e = some (r.tbl, r.keylen, r.hashv) := by
  simp [tags, hr]

theorem appLinks_update :
    appLinks (Function.update hh e (some r)) =
      Function.update (appLinks hh) e (some ⟨r.prev, r.next⟩) := by
  funext x
  by_cases hx : x = e
  · subst hx
    simp [appLinks]
  · simp [appLinks, hx]

theorem bktLinks_update :
    bktLinks (Function.update hh e (some r)) =
      Function.update (bktLinks hh) e (some ⟨r.hhPrev, r.hhNext⟩) := by
  funext x
  by_cases hx : x = e
  · subst hx
    simp [bktLinks]
  · simp [bktLinks, hx]

theorem tags_update :
    tags (Function.update hh e (some r)) =
      Function.update (tags hh) e (some (r.tbl, r.keylen, r.hashv)) := by
  funext x
  by_cases hx : x = e
  · subst hx
    simp [tags]
  · simp [tags, hx]

theorem live_of_appLinks (h : (appLinks hh e).isSome) : ∃ r, hh e = some r := by
  rwa [appLinks, Option.isSome_map, Option.isSome_iff_exists] at h

theorem live_of_bktLinks (h : (bktLinks hh e).isSome) : ∃ r, hh e = some r := by
  rwa [bktLinks, Option.isSome_map, Option.isSome_iff_exists] at h

theorem appLinks_isSome (hh : UtHashHandles) (x : Handle) : (appLinks hh x).isSome = (hh x).isSome :=
  Option.isSome_map

theorem bktLinks_isSome (hh : UtHashHandles) (x : Handle) : (bktLinks hh x).isSome = (hh x).isSome :=
  Option.isSome_map

theorem update_bkt_same (hr : hh e = some r) :
    Function.update (bktLinks hh) e (some ⟨r.hhPrev, r.hhNext⟩) = bktLinks hh :=
  Function.update_eq_self_iff.2 (bktLinks_eq hr).symm

theorem update_app_same (hr : hh e = some r) :
    Function.update (appLinks hh) e (some ⟨r.prev, r.next⟩) = appLinks hh :=
  Function.update_eq_self_iff.2 (appLinks_eq hr).symm

theorem update_tags_same (hr : hh e = some r) :
    Function.update (tags hh) e (some (r.tbl, r.keylen, r.hashv)) = tags hh :=
  Function.update_eq_self_iff.2 (tags_eq hr).symm

end Store

/-- What a sequence of writes has done to the handles: the two lists and the tags after it. -/
structure Parts (hh : UtHashHandles) (app bkt : Links Handle)
    (tag : Handle → Option (Option Nat × Nat × UInt32)) : Prop where
  app : appLinks hh = app
  bkt : bktLinks hh = bkt
  tag : tags hh = tag

section Writes

variable {hh : UtHashHandles} {e : Handle} {p n : Option Handle}

theorem store_prev (hlive : ∃ r, hh e = some r) (p : Option Handle) :
    ∃ hh', hh.store e (fun r => { r with prev := p }) = some hh' ∧
      Parts hh' ((appLinks hh).setPrev e p) (bktLinks hh) (tags hh) := by
  obtain ⟨r, hr⟩ := hlive
  refine ⟨_, store_eq hr, ?_, ?_, ?_⟩
  · rw [appLinks_update, setPrev, appLinks_eq hr]
    rfl
  · rw [bktLinks_update, update_bkt_same hr]
  · rw [tags_update, update_tags_same hr]

theorem store_next (hlive : ∃ r, hh e = some r) (n : Option Handle) :
    ∃ hh', hh.store e (fun r => { r with next := n }) = some hh' ∧
      Parts hh' ((appLinks hh).setNext e n) (bktLinks hh) (tags hh) := by
  obtain ⟨r, hr⟩ := hlive
  refine ⟨_, store_eq hr, ?_, ?_, ?_⟩
  · rw [appLinks_update, setNext, appLinks_eq hr]
    rfl
  · rw [bktLinks_update, update_bkt_same hr]
  · rw [tags_update, update_tags_same hr]

theorem store_hhPrev (hlive : ∃ r, hh e = some r) (p : Option Handle) :
    ∃ hh', hh.store e (fun r => { r with hhPrev := p }) = some hh' ∧
      Parts hh' (appLinks hh) ((bktLinks hh).setPrev e p) (tags hh) := by
  obtain ⟨r, hr⟩ := hlive
  refine ⟨_, store_eq hr, ?_, ?_, ?_⟩
  · rw [appLinks_update, update_app_same hr]
  · rw [bktLinks_update, setPrev, bktLinks_eq hr]
    rfl
  · rw [tags_update, update_tags_same hr]

theorem store_hhNext (hlive : ∃ r, hh e = some r) (n : Option Handle) :
    ∃ hh', hh.store e (fun r => { r with hhNext := n }) = some hh' ∧
      Parts hh' (appLinks hh) ((bktLinks hh).setNext e n) (tags hh) := by
  obtain ⟨r, hr⟩ := hlive
  refine ⟨_, store_eq hr, ?_, ?_, ?_⟩
  · rw [appLinks_update, update_app_same hr]
  · rw [bktLinks_update, setNext, bktLinks_eq hr]
    rfl
  · rw [tags_update, update_tags_same hr]

end Writes

/-! ### Well-formed tables -/

section Built

variable (hash : List UInt8 → UInt32) (key : Handle → List UInt8)

/-- The memory holds, at `a`, a table over the elements `es`, in this order of application. -/
structure Ordered (m : UtHash) (a : Nat) (t : UtHashTable) (es : List Handle) : Prop where
  table : m.tables a = some t
  head : m.head = es.head?
  tail : t.tail = es.getLast?
  order : DList (appLinks m.hh) es
  tags : ∀ e ∈ es, tags m.hh e = some (some a, (key e).length, hash (key e))

/-- The buckets hold the elements `es`: those of bucket `b` form the chain `chain b`. -/
structure Bucketed (L : Links Handle) (t : UtHashTable) (es : List Handle)
    (chain : Nat → List Handle) : Prop where
  pow : t.numBuckets.toNat = 2 ^ t.log2NumBuckets.toNat
  buckets : t.buckets.length = t.numBuckets.toNat
  chains : ∀ b < t.numBuckets.toNat, DList L (chain b)
  hhHead : ∀ b < t.numBuckets.toNat, (t.buckets.cell b).hhHead = (chain b).head?
  count : ∀ b < t.numBuckets.toNat, (t.buckets.cell b).count.toNat = (chain b).length
  mem : ∀ b < t.numBuckets.toNat, ∀ e,
    e ∈ chain b ↔ e ∈ es ∧ hashToBkt (hash (key e)) t.numBuckets = b

/-- A table that is whole: the same elements in application order and in the buckets. -/
structure Built (m : UtHash) (a : Nat) (t : UtHashTable) (es : List Handle)
    (chain : Nat → List Handle) : Prop where
  ordered : Ordered hash key m a t es
  bucketed : Bucketed hash key (bktLinks m.hh) t es chain
  items : t.numItems.toNat = es.length

end Built

@[simp] theorem setHh_hh (m : UtHash) (hh : UtHashHandles) : (m.setHh hh).hh = hh := rfl

@[simp] theorem setHh_head (m : UtHash) (hh : UtHashHandles) : (m.setHh hh).head = m.head := rfl

@[simp] theorem setHh_tables (m : UtHash) (hh : UtHashHandles) : (m.setHh hh).tables = m.tables := rfl

@[simp] theorem setHh_nextTable (m : UtHash) (hh : UtHashHandles) :
    (m.setHh hh).nextTable = m.nextTable := rfl

@[simp] theorem setHh_setHh (m : UtHash) (hh hh' : UtHashHandles) :
    (m.setHh hh).setHh hh' = m.setHh hh' := rfl

@[simp] theorem setHead_hh (m : UtHash) (head : Option Handle) : (m.setHead head).hh = m.hh := rfl

@[simp] theorem setHead_head (m : UtHash) (head : Option Handle) : (m.setHead head).head = head := rfl

@[simp] theorem setHead_setHh (m : UtHash) (head : Option Handle) (hh : UtHashHandles) :
    (m.setHead head).setHh hh = (m.setHh hh).setHead head := rfl

@[simp] theorem setTable_setHh (m : UtHash) (a : Nat) (t : UtHashTable) (hh : UtHashHandles) :
    (m.setTable a t).setHh hh = (m.setHh hh).setTable a t := rfl

@[simp] theorem setTable_setHead (m : UtHash) (a : Nat) (t : UtHashTable) (head : Option Handle) :
    (m.setTable a t).setHead head = (m.setHead head).setTable a t := rfl

@[simp] theorem setTable_hh (m : UtHash) (a : Nat) (t : UtHashTable) : (m.setTable a t).hh = m.hh := rfl

@[simp] theorem setTable_head (m : UtHash) (a : Nat) (t : UtHashTable) :
    (m.setTable a t).head = m.head := rfl

@[simp] theorem setTable_nextTable (m : UtHash) (a : Nat) (t : UtHashTable) :
    (m.setTable a t).nextTable = m.nextTable := rfl

theorem setTable_tables (m : UtHash) (a c : Nat) (t : UtHashTable) :
    (m.setTable a t).tables c = if c = a then some t else m.tables c := by
  show Function.update m.tables a (some t) c = _
  rw [Function.update_apply]

@[simp] theorem setTable_setTable (m : UtHash) (a : Nat) (t t' : UtHashTable) :
    (m.setTable a t).setTable a t' = m.setTable a t' := by
  simp [setTable]

theorem setTable_self {m : UtHash} {a : Nat} {t : UtHashTable} (h : m.tables a = some t) :
    m.setTable a t = m := by
  rw [setTable, ← h, Function.update_eq_self]

theorem hashToBkt_lt (hashv : UInt32) {n : UInt32} {k : Nat} (hn : n.toNat = 2 ^ k) :
    hashToBkt hashv n < n.toNat := by
  rw [hashToBkt, and_sub_one_toNat hashv hn]
  exact Nat.mod_lt _ (hn ▸ Nat.two_pow_pos k)

/-- Doubling the number of buckets splits each of them in two. -/
theorem hashToBkt_double (hashv : UInt32) {n n' : UInt32} {k : Nat} (hn : n.toNat = 2 ^ k)
    (hn' : n'.toNat = 2 ^ (k + 1)) : hashToBkt hashv n' % n.toNat = hashToBkt hashv n := by
  rw [hashToBkt, hashToBkt, and_sub_one_toNat hashv hn, and_sub_one_toNat hashv hn', hn, hn']
  exact Nat.mod_mod_of_dvd _ (Nat.pow_dvd_pow 2 (Nat.le_succ k))

variable {hash : List UInt8 → UInt32} {key : Handle → List UInt8} {m : UtHash} {a : Nat}
  {t : UtHashTable} {es : List Handle} {L : Links Handle} {chain : Nat → List Handle} {e : Handle}
  {b c : Nat}

namespace Ordered

theorem live (ho : Ordered hash key m a t es) (he : e ∈ es) : ∃ r, m.hh e = some r :=
  live_of_appLinks (ho.order.live he)

theorem handle (ho : Ordered hash key m a t es) (he : e ∈ es) :
    ∃ r, m.hh e = some r ∧ r.tbl = some a ∧ r.keylen = (key e).length ∧ r.hashv = hash (key e) := by
  obtain ⟨r, hr⟩ := ho.live he
  have htags := ho.tags e he
  rw [tags_eq hr, Option.some.injEq, Prod.mk.injEq, Prod.mk.injEq] at htags
  exact ⟨r, hr, htags⟩

theorem tbl_eq (ho : Ordered hash key m a t es) (hne : es ≠ []) : m.tbl = some (a, t) := by
  obtain ⟨e, rest, rfl⟩ := List.exists_cons_of_ne_nil hne
  obtain ⟨r, hr, htbl, -⟩ := ho.handle List.mem_cons_self
  simp [UtHash.tbl, ho.head, hr, htbl, ho.table]

theorem congr (ho : Ordered hash key m a t es) {key' : Handle → List UInt8} {m' : UtHash}
    (hhh : ∀ e ∈ es, m'.hh e = m.hh e) (htable : m'.tables a = some t) (hhead : m'.head = m.head)
    (hkey : ∀ e ∈ es, key' e = key e) : Ordered hash key' m' a t es where
  table := htable
  head := hhead.trans ho.head
  tail := ho.tail
  order := ho.order.congr fun e he => by rw [appLinks, hhh e he]; rfl
  tags := fun e he => by rw [UtHash.tags, hhh e he, hkey e he]; exact ho.tags e he

theorem update (ho : Ordered hash key m a t es) {x : Handle} (hx : x ∉ es)
    (r : Option UtHashHandle) : Ordered hash key (m.setHh (Function.update m.hh x r)) a t es :=
  ho.congr (fun e he => Function.update_of_ne (fun heq : e = x => hx (heq ▸ he)) _ _) ho.table rfl
    fun _ _ => rfl

theorem setHh (ho : Ordered hash key m a t es) {hh : UtHashHandles}
    (happ : appLinks hh = appLinks m.hh) (htags : UtHash.tags hh = UtHash.tags m.hh) :
    Ordered hash key (m.setHh hh) a t es where
  table := ho.table
  head := ho.head
  tail := ho.tail
  order := by rw [setHh_hh, happ]; exact ho.order
  tags := by rw [setHh_hh, htags]; exact ho.tags

theorem setTable (ho : Ordered hash key m a t es) {u : UtHashTable} (htail : u.tail = t.tail) :
    Ordered hash key (m.setTable a u) a u es where
  table := Function.update_self _ _ _
  head := ho.head
  tail := htail.trans ho.tail
  order := ho.order
  tags := ho.tags

theorem storeTbl_eq (ho : Ordered hash key m a t es) (hne : es ≠ []) (f : UtHashTable → UtHashTable) :
    m.storeTbl f = some (m.setTable a (f t)) := by
  simp [storeTbl, ho.tbl_eq hne]

end Ordered

namespace Bucketed

variable (hb : Bucketed hash key L t es chain)
include hb

theorem bucket_lt (k : List UInt8) : hashToBkt (hash k) t.numBuckets < t.numBuckets.toNat :=
  hashToBkt_lt _ hb.pow

theorem mem_chain (he : e ∈ es) : e ∈ chain (hashToBkt (hash (key e)) t.numBuckets) :=
  (hb.mem _ (hb.bucket_lt _) e).2 ⟨he, rfl⟩

theorem read_bucket (hlt : b < t.numBuckets.toNat) : t.buckets.read b = some (t.buckets.cell b) :=
  CArray.read_natCast (by rw [hb.buckets]; exact hlt)

theorem chains_apart (hblt : b < t.numBuckets.toNat) (hclt : c < t.numBuckets.toNat) (hne : b ≠ c)
    (he : e ∈ chain b) : e ∉ chain c := by
  intro hc
  have hb' := ((hb.mem b hblt e).1 he).2
  have hc' := ((hb.mem c hclt e).1 hc).2
  exact hne (hb'.symm.trans hc')

theorem flatMap_perm (hnodup : es.Nodup) : ((List.range t.numBuckets.toNat).flatMap chain).Perm es := by
  refine (List.perm_ext_iff_of_nodup ?_ hnodup).2 fun e => ?_
  · rw [List.nodup_flatMap]
    constructor
    · intro b hlt
      exact (hb.chains b (List.mem_range.1 hlt)).nodup
    · refine List.Pairwise.imp_of_mem ?_ List.nodup_range
      intro b c hblt hclt hne e he hc
      exact hb.chains_apart (List.mem_range.1 hblt) (List.mem_range.1 hclt) hne he hc
  · rw [List.mem_flatMap]
    constructor
    · intro hmem
      obtain ⟨b, hlt, he⟩ := hmem
      exact ((hb.mem b (List.mem_range.1 hlt) e).1 he).1
    · intro he
      exact ⟨_, List.mem_range.2 (hb.bucket_lt _), hb.mem_chain he⟩

theorem length_chain_le (hlt : b < t.numBuckets.toNat) : (chain b).length ≤ es.length := by
  refine (List.subperm_of_subset (hb.chains b hlt).nodup fun e he => ?_).length_le
  exact ((hb.mem b hlt e).1 he).1

omit hb in
theorem congr (hb : Bucketed hash key L t es chain) {key' : Handle → List UInt8} {L' : Links Handle}
    {t' : UtHashTable} (hL : ∀ e ∈ es, L' e = L e) (hkey : ∀ e ∈ es, key' e = key e)
    (hbuckets : t'.buckets = t.buckets) (hnum : t'.numBuckets = t.numBuckets)
    (hlog : t'.log2NumBuckets = t.log2NumBuckets) : Bucketed hash key' L' t' es chain where
  pow := by rw [hnum, hlog]; exact hb.pow
  buckets := by rw [hnum, hbuckets]; exact hb.buckets
  chains := by
    intro b hlt
    rw [hnum] at hlt
    exact (hb.chains b hlt).congr fun e he => hL e ((hb.mem b hlt e).1 he).1
  hhHead := by rw [hnum, hbuckets]; exact hb.hhHead
  count := by rw [hnum, hbuckets]; exact hb.count
  mem := by
    intro b hlt e
    rw [hnum] at hlt ⊢
    rw [hb.mem b hlt e]
    exact and_congr_right fun he => by rw [hkey e he]

end Bucketed

/-! ### Searching -/

theorem findInBkt_eq {field : Handle → List UInt8} {hh : UtHashHandles} {key : Handle → List UInt8}
    (k : List UInt8) {p : Option Handle} {l : List Handle} (hseg : Seg (bktLinks hh) p l none)
    (htags : ∀ e ∈ l, ∃ r, hh e = some r ∧ r.keylen = (key e).length ∧ r.hashv = hash (key e))
    (hfield : ∀ e ∈ l, (field e).take (key e).length = key e) {fuel : Nat} (hfuel : l.length ≤ fuel) :
    findInBkt field hh k (hash k) fuel l.head? = some (l.find? fun e => key e = k) := by
  induction l generalizing p fuel with
  | nil => cases fuel <;> rfl
  | cons e l ih =>
      obtain ⟨fuel, rfl⟩ : ∃ f, fuel = f + 1 := ⟨fuel - 1, by simp at hfuel; omega⟩
      obtain ⟨r, hr, hlen, hhash⟩ := htags e List.mem_cons_self
      obtain ⟨hlink, hrest⟩ := hseg
      have hnext : r.hhNext = l.head? := by
        rw [bktLinks_eq hr, Option.some.injEq, Link.mk.injEq, Option.or_none] at hlink
        exact hlink.2
      have hread := hfield e List.mem_cons_self
      have hmatch : (r.hashv = hash k ∧ r.keylen = k.length ∧ (field e).take k.length = k) ↔
          key e = k := by
        rw [hhash, hlen]
        constructor
        · intro h
          obtain ⟨-, hk, heq⟩ := h
          rw [← hread, hk, heq]
        · intro h
          subst h
          exact ⟨rfl, rfl, hread⟩
      rw [List.head?_cons, findInBkt, hr, Option.bind_eq_bind, Option.bind_some]
      by_cases hkey : key e = k
      · rw [if_pos (hmatch.2 hkey), List.find?_cons_of_pos (by simpa using hkey)]
      · rw [if_neg (mt hmatch.1 hkey), List.find?_cons_of_neg (by simpa using hkey), hnext]
        exact ih hrest (fun x hx => htags x (List.mem_cons_of_mem _ hx))
          (fun x hx => hfield x (List.mem_cons_of_mem _ hx)) (Nat.le_of_succ_le_succ hfuel)

/-- The index a table stands for. The newest entry of an index comes first. -/
def index (key : Handle → List UInt8) (es : List Handle) : HashIndex (List UInt8) Handle :=
  ⟨(es.map fun e => (key e, e)).reverse⟩

theorem mem_index {k : List UInt8} : (k, e) ∈ (index key es).entries ↔ e ∈ es ∧ key e = k := by
  simp [index, and_comm, eq_comm]

theorem keyed_index : (index key es).Keyed ↔ (es.map key).Nodup := by
  simp [HashIndex.Keyed, HashIndex.keys, index, Function.comp_def]

/-- `HASH_FIND` looks through one chain only and finds what the index has under the key. -/
theorem Built.hashFind_eq (hb : Built hash key m a t es chain) {field : Handle → List UInt8}
    (hfield : ∀ e ∈ es, (field e).take (key e).length = key e) (hkeys : (es.map key).Nodup)
    (k : List UInt8) {fuel : Nat}
    (hfuel : (chain (hashToBkt (hash k) t.numBuckets)).length ≤ fuel) :
    hashFind hash field fuel k m = some ((index key es).find k) := by
  by_cases hne : es = []
  · have hhead : m.head = none := by rw [hb.ordered.head, hne]; rfl
    rw [hashFind, hhead, hne]
    rfl
  · have hlt := hb.bucketed.bucket_lt k
    have hsub : ∀ e ∈ chain (hashToBkt (hash k) t.numBuckets), e ∈ es :=
      fun e he => ((hb.bucketed.mem _ hlt e).1 he).1
    have hhandle : ∀ e ∈ chain (hashToBkt (hash k) t.numBuckets),
        ∃ r, m.hh e = some r ∧ r.keylen = (key e).length ∧ r.hashv = hash (key e) := by
      intro e he
      obtain ⟨r, hr, -, htags⟩ := hb.ordered.handle (hsub e he)
      exact ⟨r, hr, htags⟩
    have hwalk := findInBkt_eq k (hb.bucketed.chains _ hlt).seg hhandle
      (fun e he => hfield e (hsub e he)) hfuel
    obtain ⟨first, rest, hes⟩ := List.exists_cons_of_ne_nil hne
    have hhead : m.head = some first := by rw [hb.ordered.head, hes]; rfl
    rw [hashFind, hhead]
    simp only [hb.ordered.tbl_eq hne, hb.bucketed.read_bucket hlt, hb.bucketed.hhHead _ hlt, hwalk,
      Option.bind_eq_bind, Option.bind_some, Option.some.injEq]
    apply Option.ext
    intro e
    rw [HashIndex.find_eq_some_iff (keyed_index.2 hkeys), mem_index]
    constructor
    · intro hfind
      have hkey : key e = k := by simpa using List.find?_some hfind
      exact ⟨hsub e (List.mem_of_find?_eq_some hfind), hkey⟩
    · intro hmem
      obtain ⟨he, hkey⟩ := hmem
      have hin : e ∈ chain (hashToBkt (hash k) t.numBuckets) :=
        (hb.bucketed.mem _ hlt e).2 ⟨he, by rw [hkey]⟩
      cases hfind : (chain (hashToBkt (hash k) t.numBuckets)).find? fun e => key e = k with
      | none => exact absurd hkey (by simpa using List.find?_eq_none.1 hfind e hin)
      | some x =>
          have hx : key x = k := by simpa using List.find?_some hfind
          rw [List.inj_on_of_nodup_map hkeys (hsub x (List.mem_of_find?_eq_some hfind)) he
            (hx.trans hkey.symm)]

/-! ### Iterating -/

theorem hashIter_visit {next : Handle → Option (Option Handle)} {L : Links Handle}
    (hnext : ∀ e k, L e = some k → next e = some k.next) {p : Option Handle} {l : List Handle}
    (hseg : Seg L p l none) {fuel : Nat} (hfuel : l.length ≤ fuel) (visited : List Handle) :
    hashIter (fun _ el => next el) (fun el visited => some (visited ++ [el])) fuel l.head? visited =
      some (visited ++ l) := by
  induction l generalizing p fuel visited with
  | nil => cases fuel <;> simp [hashIter]
  | cons e l ih =>
      obtain ⟨fuel, rfl⟩ : ∃ f, fuel = f + 1 := ⟨fuel - 1, by simp at hfuel; omega⟩
      obtain ⟨hlink, hrest⟩ := hseg
      have hwalk := ih hrest (Nat.le_of_succ_le_succ hfuel) (visited ++ [e])
      rw [Option.or_none] at hlink
      rw [List.append_assoc, List.singleton_append] at hwalk
      simp [hashIter, hnext e _ hlink, hwalk]

theorem Built.hashVisit_eq (hb : Built hash key m a t es chain) {fuel : Nat}
    (hfuel : es.length ≤ fuel) : hashVisit fuel m = some es := by
  rw [hashVisit, hb.ordered.head]
  refine hashIter_visit (fun e k hk => ?_) hb.ordered.order.seg hfuel []
  obtain ⟨r, hr⟩ := live_of_appLinks (Option.isSome_iff_exists.2 ⟨k, hk⟩)
  rw [appLinks_eq hr, Option.some.injEq] at hk
  rw [hr, ← hk]
  rfl

theorem Built.hashChain_eq (hb : Built hash key m a t es chain) {fuel b : Nat}
    (hlt : b < t.numBuckets.toNat) (hfuel : es.length ≤ fuel) : hashChain fuel m t b = some (chain b) := by
  rw [hashChain, hb.bucketed.hhHead b hlt]
  refine hashIter_visit (fun e k hk => ?_) (hb.bucketed.chains b hlt).seg
    ((hb.bucketed.length_chain_le hlt).trans hfuel) []
  obtain ⟨r, hr⟩ := live_of_bktLinks (Option.isSome_iff_exists.2 ⟨k, hk⟩)
  rw [bktLinks_eq hr, Option.some.injEq] at hk
  rw [hr, ← hk]
  rfl

/-! ### Counting -/

theorem Built.hashCnt_eq (hb : Built hash key m a t es chain) (hne : es ≠ []) :
    (hashCnt m).map UInt32.toNat = some es.length := by
  obtain ⟨first, rest, hes⟩ := List.exists_cons_of_ne_nil hne
  have hhead : m.head = some first := by rw [hb.ordered.head, hes]; rfl
  simp [hashCnt, hhead, hb.ordered.tbl_eq hne, hb.items]

theorem fsckWalk_eq {p : Option Handle} {l : List Handle} (hseg : Seg L p l none) {fuel : Nat}
    (hfuel : l.length ≤ fuel) : fsckWalk L fuel p l.head? = some (UInt32.ofNat l.length) := by
  induction l generalizing p fuel with
  | nil => cases fuel <;> rfl
  | cons e l ih =>
      obtain ⟨fuel, rfl⟩ : ∃ f, fuel = f + 1 := ⟨fuel - 1, by simp at hfuel; omega⟩
      obtain ⟨hlink, hrest⟩ := hseg
      have hwalk := ih hrest (Nat.le_of_succ_le_succ hfuel)
      rw [Option.or_none] at hlink
      simp [fsckWalk, hlink, hwalk]

theorem Bucketed.fsck_eq (hb : Bucketed hash key L t es chain) (hnodup : es.Nodup) {fuel : Nat}
    (hfuel : es.length ≤ fuel) :
    (List.range t.numBuckets.toNat).foldlM (fsckBucket L t fuel) 0 = some (UInt32.ofNat es.length) := by
  have hfold : ∀ (bs : List Nat) (n : UInt32), (∀ b ∈ bs, b < t.numBuckets.toNat) →
      bs.foldlM (fsckBucket L t fuel) n = some (n + UInt32.ofNat (bs.flatMap chain).length) := by
    intro bs
    induction bs with
    | nil => exact fun n _ => congrArg some (UInt32.add_zero n).symm
    | cons b bs ih =>
        intro n hlt
        have hblt := hlt b List.mem_cons_self
        have hwalk := fsckWalk_eq (hb.chains b hblt).seg ((hb.length_chain_le hblt).trans hfuel)
        have hcount : (t.buckets.cell b).count = UInt32.ofNat (chain b).length := by
          rw [← hb.count b hblt, UInt32.ofNat_toNat]
        have hround : fsckBucket L t fuel n b = some (n + UInt32.ofNat (chain b).length) := by
          simp [fsckBucket, hb.read_bucket hblt, hb.hhHead b hblt, hwalk, hcount]
        rw [List.foldlM_cons, hround, Option.bind_eq_bind, Option.bind_some,
          ih _ fun c hc => hlt c (List.mem_cons_of_mem _ hc), List.flatMap_cons, List.length_append,
          UInt32.ofNat_add, UInt32.add_assoc]
  rw [hfold _ 0 fun b hlt => List.mem_range.1 hlt, UInt32.zero_add,
    (hb.flatMap_perm hnodup).length_eq]

theorem Built.hashFsck_eq (hb : Built hash key m a t es chain) {fuel : Nat}
    (hfuel : es.length ≤ fuel) : hashFsck fuel m = some () := by
  by_cases hne : es = []
  · have hhead : m.head = none := by rw [hb.ordered.head, hne]; rfl
    simp [hashFsck, hhead]
  · obtain ⟨first, rest, hes⟩ := List.exists_cons_of_ne_nil hne
    have hhead : m.head = some first := by rw [hb.ordered.head, hes]; rfl
    have happ := fsckWalk_eq hb.ordered.order.seg hfuel
    rw [← hb.ordered.head, hhead] at happ
    have hitems : UInt32.ofNat es.length = t.numItems := by rw [← hb.items, UInt32.ofNat_toNat]
    rw [hashFsck, hhead]
    simp only [hb.ordered.tbl_eq hne, hb.bucketed.fsck_eq hb.ordered.order.nodup hfuel, hitems,
      happ, Option.bind_eq_bind, Option.bind_some, guard_true]
    rfl

end UtHash

end TunnelServer
