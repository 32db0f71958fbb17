import TunnelServer.HashRuns
import TunnelServer.Proof.HashIndex

/-!
# The hash table is a finite map

Every operation takes a memory that represents an index to one that represents the index after the
operation, while the table is small enough for the counters and there is memory for what is added. The
number of elements bounds the length of every walk along a list, and it is at most the number of operations.
-/

namespace TunnelServer

namespace UtHash

open Finset

variable {hash : List UInt8 → UInt32} {field : Handle → List UInt8} {hh : UtHashHandles} {m : UtHash}
  {idx : HashIndex (List UInt8) Handle} {fuel : Nat}

theorem Represents.agrees (h : Represents hash field m idx) (hfuel : idx.count ≤ fuel) :
    Agrees field hash fuel m idx where
  find := h.hashFind hfuel
  count := h.hashCnt
  visit := h.hashVisit hfuel
  fsck := h.hashFsck hfuel
  tables := fun _ _ ht => h.tbl_of_tables ht

def Follows (hash : List UInt8 → UInt32) (field : Handle → List UInt8) (hh : UtHashHandles)
    (fuel n : Nat) (m : UtHash) (idx : HashIndex (List UInt8) Handle) : Prop :=
  Represents hash field m idx ∧ idx.count + n ≤ fuel ∧ ∀ x, (m.hh x).isSome = (hh x).isSome

theorem follows_step (n : Nat) (m : UtHash) (idx : HashIndex (List UInt8) Handle) (op : HashOp)
    (h : Follows hash field hh fuel (n + 1) m idx) (hs : m.Small) (hfit : HashFits field hh (idx, op)) :
    ∃ u idx', hashStep field hash fuel m op = some u ∧ indexStep field idx op = some idx' ∧
      Follows hash field hh fuel n u idx' := by
  obtain ⟨hrep, hfuel, hlives⟩ := h
  cases op with
  | add e keylen mem =>
      obtain ⟨rfl, -, hlive, hlen, he, hnew⟩ := hfit
      rw [← hlives e, Option.isSome_iff_exists] at hlive
      have hlt : idx.count < fuel := by omega
      obtain ⟨u, hadd, hrep', hlives'⟩ := hrep.hashAdd hs hlive he hlen hnew hlt
      refine ⟨u, _, hadd, rfl, hrep', ?_, fun x => (hlives' x).trans (hlives x)⟩
      show (idx.entries.length + 1) + n ≤ fuel
      rw [HashIndex.count] at hfuel
      omega
  | delete e =>
      obtain ⟨u, hdelete, hrep', hlives', -⟩ := hrep.hashDelete hfit
      refine ⟨u, _, hdelete, rfl, hrep', ?_, fun x => (hlives' x).trans (hlives x)⟩
      have hle : (idx.delete e).count ≤ idx.count := List.length_filter_le _ _
      omega
  | clear =>
      obtain ⟨u, hclear, hrep', hsame⟩ := hrep.hashClear
      refine ⟨u, _, hclear, rfl, hrep', ?_, fun x => by rw [hsame]; exact hlives x⟩
      show 0 + n ≤ fuel
      omega

theorem follows_exec (hash : List UInt8 → UInt32) (field : Handle → List UInt8) (hh : UtHashHandles)
    (ops : List HashOp)
    (hfit : ∀ p ∈ Run.attempts (indexStep field) .empty ops, HashFits field hh p)
    (hfuel : ops.length ≤ fuel)
    (hsmall : ∀ m ∈ Run.visited (hashStep field hash fuel) (ofHandles hh) ops, m.Small) :
    ∃ m idx, Run.exec (hashStep field hash fuel) (ofHandles hh) ops = some m ∧
      Run.exec (indexStep field) .empty ops = some idx ∧ Represents hash field m idx ∧
      idx.count ≤ fuel ∧ m.Small := by
  have hinit : Follows hash field hh fuel ops.length (ofHandles hh) .empty :=
    ⟨represents_empty hash field (fun _ => rfl) rfl, (Nat.zero_add _).trans_le hfuel, fun _ => rfl⟩
  obtain ⟨m, idx, hrun, hindex, hrep, hcount, -⟩ :=
    Run.exec_of_simulation follows_step hinit hsmall fun p hp => hfit p hp
  exact ⟨m, idx, hrun, hindex, hrep, hcount, hsmall m (Run.exec_mem_visited hrun)⟩

/-- In every run of operations that fit, and as long as the table is small, no macro touches freed memory,
no walk along a list is longer than there are operations, and the table is the index. -/
theorem hash_refines_index (hash : List UInt8 → UInt32) (field : Handle → List UInt8)
    (hh : UtHashHandles) (ops : List HashOp)
    (hfit : ∀ p ∈ Run.attempts (indexStep field) .empty ops, HashFits field hh p) (fuel : Nat)
    (hfuel : ops.length ≤ fuel)
    (hsmall : ∀ m ∈ Run.visited (hashStep field hash fuel) (ofHandles hh) ops, m.Small) :
    ∃ m idx, Run.exec (hashStep field hash fuel) (ofHandles hh) ops = some m ∧
      Run.exec (indexStep field) .empty ops = some idx ∧ Agrees field hash fuel m idx := by
  obtain ⟨m, idx, hrun, hindex, hrep, hcount, -⟩ := follows_exec hash field hh ops hfit hfuel hsmall
  exact ⟨m, idx, hrun, hindex, hrep.agrees hcount⟩

theorem fillingUp_fits : ∀ p ∈ Run.attempts (indexStep keyOf) .empty fillingUp,
    HashFits keyOf (fun _ => some strayHandle) p := by
  decide +kernel

theorem fillingUp_small (hhash : hash = hashJen ∨ hash = fun _ => 0) :
    ∀ m ∈ Run.visited (hashStep keyOf hash 23) (ofHandles fun _ => some strayHandle) fillingUp,
      m.Small := by
  rcases hhash with rfl | rfl <;> decide +kernel

theorem hash_refines_index_fillingUp :
    ∃ m idx,
      Run.exec (hashStep keyOf hashJen 23) (ofHandles fun _ => some strayHandle) fillingUp = some m ∧
      Run.exec (indexStep keyOf) .empty fillingUp = some idx ∧ Agrees keyOf hashJen 23 m idx :=
  hash_refines_index hashJen keyOf (fun _ => some strayHandle) fillingUp fillingUp_fits 23 (by decide)
    (fillingUp_small (Or.inl rfl))

/-! ### The length of a search -/

/-- In every state a run reaches, and as long as expansion is not inhibited, a search goes through no more
elements than the limit of its bucket, which is twenty on average. -/
theorem searches_bounded (hash : List UInt8 → UInt32) (field : Handle → List UInt8)
    (hh : UtHashHandles) (ops : List HashOp)
    (hfit : ∀ p ∈ Run.attempts (indexStep field) .empty ops, HashFits field hh p) (fuel : Nat)
    (hfuel : ops.length ≤ fuel)
    (hsmall : ∀ m ∈ Run.visited (hashStep field hash fuel) (ofHandles hh) ops, m.Small) :
    ∃ m idx, Run.exec (hashStep field hash fuel) (ofHandles hh) ops = some m ∧
      Run.exec (indexStep field) .empty ops = some idx ∧
      ∀ a t, m.tables a = some t → t.noexpand ≠ 1 →
        (∀ k, hashFind hash field (HASH_BKT_CAPACITY_THRESH.toNat *
            ((t.buckets.cell (hashToBkt (hash k) t.numBuckets)).expandMult.toNat + 1)) k m =
              some (idx.find k)) ∧
          ∑ b ∈ range t.numBuckets.toNat, (t.buckets.cell b).expandMult.toNat ≤
            t.numBuckets.toNat ∧
          idx.count < 2 * HASH_BKT_CAPACITY_THRESH.toNat * t.numBuckets.toNat := by
  obtain ⟨m, idx, hrun, hindex, hrep, -⟩ := follows_exec hash field hh ops hfit hfuel hsmall
  exact ⟨m, idx, hrun, hindex, fun a t ht hexpand => hrep.bounded ht hexpand⟩

theorem searches_bounded_fillingUp :
    ∃ m idx,
      Run.exec (hashStep keyOf (fun _ => 0) 23) (ofHandles fun _ => some strayHandle) fillingUp = some m ∧
      Run.exec (indexStep keyOf) .empty fillingUp = some idx ∧
      ∀ a t, m.tables a = some t → t.noexpand ≠ 1 →
        (∀ k, hashFind (fun _ => 0) keyOf (HASH_BKT_CAPACITY_THRESH.toNat *
            ((t.buckets.cell (hashToBkt 0 t.numBuckets)).expandMult.toNat + 1)) k m =
              some (idx.find k)) ∧
          ∑ b ∈ range t.numBuckets.toNat, (t.buckets.cell b).expandMult.toNat ≤
            t.numBuckets.toNat ∧
          idx.count < 2 * HASH_BKT_CAPACITY_THRESH.toNat * t.numBuckets.toNat :=
  searches_bounded (fun _ => 0) keyOf (fun _ => some strayHandle) fillingUp fillingUp_fits 23 (by decide)
    (fillingUp_small (Or.inr rfl))

/-! ### Expansion -/

theorem Expanded.load_of_load {key : Handle → List UInt8} {t u : UtHashTable} {es : List Handle}
    {chain chain' : Nat → List Handle} {m' : UtHash} {a : Nat} (hx : Expanded hash key t u chain)
    (hb : Built hash key m a t es chain) (hb' : Built hash key m' a u es chain') (hne : es ≠ [])
    (hlog : t.log2NumBuckets < 31) (hroom : t.numItems.toNat ≤ 2 ^ 28) (hload : Load t) : Load u := by
  have hnodup := hb.ordered.order.nodup
  rcases hload.flag with hzero | hone
  · refine hx.load hzero hb.bucketed.pow hlog ?_ hroom ?_ ?_
    · rw [hb.items]
      exact List.length_pos_iff.2 hne
    · have hsum := hload.sum_lt hzero (hb.bucketed.pow ▸ Nat.two_pow_pos _)
      rw [hb.bucketed.sum_count hnodup, ← hb.items] at hsum
      exact Nat.le_of_lt hsum
    · rw [hb'.bucketed.sum_count hnodup, hb.items]
  · have hstay : u.noexpand = 1 := by
      rw [hx.table]
      show (if _ then 1 else t.noexpand) = 1
      rw [hone]
      split_ifs <;> rfl
    have hnot : ¬ u.noexpand = 0 := by
      rw [hstay]
      decide
    exact ⟨Or.inr hstay, fun h => absurd h hnot, fun h => absurd h hnot, fun h => absurd h hnot,
      fun h => absurd h hnot⟩

theorem Represents.expand (h : Represents hash field m idx) (hs : m.Small) {a : Nat} {t : UtHashTable}
    (ht : m.tables a = some t) (hfuel : idx.count ≤ fuel) :
    ∃ u t' old new, hashExpandBuckets fuel true a m = some u ∧ u.tables a = some t' ∧
      Agrees field hash fuel u idx ∧ SplitsBuckets fuel m t u t' old new := by
  obtain ⟨hlog, hroom⟩ := h.small hs ht
  obtain ⟨key, es, chain, hb, hload, hne, rfl, hkeys, hread, hfresh, hone⟩ := h.built ht
  have hlen : es.length ≤ fuel := by simpa [HashIndex.count, index] using hfuel
  obtain ⟨hh, t', hexpand, hbuilt, hx, -⟩ := hb.hashExpandBuckets_eq hne hlog hlen
  have hnum : t'.numBuckets = t.numBuckets * 2 := by rw [hx.table]; rfl
  have hideal : t'.idealChainMaxlen = idealOf t := by rw [hx.table]; rfl
  have hineff : t'.ineffExpands =
      if t'.nonidealItems > t.numItems >>> 1 then t.ineffExpands + 1 else 0 := by
    rw [hx.table]
    rfl
  have hflag : t'.noexpand = if t'.ineffExpands > 1 then 1 else t.noexpand := by
    rw [hx.table]
    rfl
  have hhalf : t.numItems >>> 1 = t.numItems / 2 := by
    rw [← UInt32.toNat_inj, UInt32.toNat_shiftRight, UInt32.toNat_div]
    exact Nat.shiftRight_one _
  have hrep : Represents hash field ((m.setHh hh).setTable a t') (index key es) := by
    have htable : ∀ c, c ≠ a → ((m.setHh hh).setTable a t').tables c = none := by
      intro c hc
      rw [setTable_tables, if_neg hc]
      exact hone c hc
    refine ⟨key, es, ⟨fun c hc => htable c ?_, fun habs => absurd habs hne, fun _ =>
      ⟨a, t', _, hbuilt, hx.load_of_load hb hbuilt hne hlog hroom.le hload, htable⟩⟩, rfl, hkeys, hread⟩
    intro heq
    have hfree := hfresh c hc
    rw [heq, ht] at hfree
    cases hfree
  refine ⟨_, t', chain, splitChain hash key t.numBuckets chain, hexpand, Function.update_self _ _ _,
    hrep.agrees hfuel, ⟨?_, fun b hlt => hb.hashChain_eq hlt hlen,
      fun b hlt => hbuilt.hashChain_eq hlt hlen, fun b hlt => ?_, ?_, ?_, ?_, ?_⟩⟩
  · rw [hnum, double_toNat hb.bucketed.pow hlog]
  · -- the hash value of an element is that of its key
    have hpos : 0 < t.numBuckets.toNat := hb.bucketed.pow ▸ Nat.two_pow_pos _
    rw [splitChain, hnum]
    refine congrArg List.reverse (List.filter_congr fun e he => ?_)
    have hes := ((hb.bucketed.mem _ (Nat.mod_lt _ hpos) e).1 he).1
    obtain ⟨r, hr, -, -, hhash⟩ := hb.ordered.handle hes
    simp [hashvOf, hr, hhash]
  · rw [hideal, idealOf_eq hb.bucketed.pow hlog, hnum]
  · rw [hx.nonideal]
    exact sum_congr rfl fun b hlt => by rw [hx.count b (mem_range.1 hlt)]
  · rw [hineff, hhalf]
  · rw [hflag]
    split_ifs with hover <;> simp [hover]

/-- In every state a run reaches, and when there is memory for it, an expansion changes nothing that can be
asked of the table and splits each chain in two. -/
theorem expansion_splits (hash : List UInt8 → UInt32) (field : Handle → List UInt8)
    (hh : UtHashHandles) (ops : List HashOp)
    (hfit : ∀ p ∈ Run.attempts (indexStep field) .empty ops, HashFits field hh p) (fuel : Nat)
    (hfuel : ops.length ≤ fuel)
    (hsmall : ∀ m ∈ Run.visited (hashStep field hash fuel) (ofHandles hh) ops, m.Small) :
    ∃ m idx, Run.exec (hashStep field hash fuel) (ofHandles hh) ops = some m ∧
      Run.exec (indexStep field) .empty ops = some idx ∧
      ∀ a t, m.tables a = some t →
        ∃ u t' old new, hashExpandBuckets fuel true a m = some u ∧ u.tables a = some t' ∧
          Agrees field hash fuel u idx ∧ SplitsBuckets fuel m t u t' old new := by
  obtain ⟨m, idx, hrun, hindex, hrep, hcount, hlast⟩ := follows_exec hash field hh ops hfit hfuel hsmall
  exact ⟨m, idx, hrun, hindex, fun a t ht => hrep.expand hlast ht hcount⟩

theorem expansion_splits_fillingUp :
    ∃ m idx,
      Run.exec (hashStep keyOf (fun _ => 0) 23) (ofHandles fun _ => some strayHandle) fillingUp = some m ∧
      Run.exec (indexStep keyOf) .empty fillingUp = some idx ∧
      ∀ a t, m.tables a = some t →
        ∃ u t' old new, hashExpandBuckets 23 true a m = some u ∧ u.tables a = some t' ∧
          Agrees keyOf (fun _ => 0) 23 u idx ∧ SplitsBuckets 23 m t u t' old new :=
  expansion_splits (fun _ => 0) keyOf (fun _ => some strayHandle) fillingUp fillingUp_fits 23 (by decide)
    (fillingUp_small (Or.inr rfl))

end UtHash

end TunnelServer
