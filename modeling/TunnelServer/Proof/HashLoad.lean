import Mathlib.Algebra.BigOperators.Ring.Finset
import Mathlib.Algebra.Order.BigOperators.Group.Finset
import TunnelServer.Proof.HashExpand
import TunnelServer.Proof.HashDelete

/-!
# How long the chains of a hash table get

As long as expansion is not inhibited, a chain is no longer than ten times its bucket's multiplier plus
one. The multipliers add up to no more than the number of buckets, since an expansion gives them out for
multiples of the ideal chain length, and therefore the table never holds twenty elements for each bucket.
This in turn keeps the ideal length at ten or below when the next expansion computes it.
-/

namespace TunnelServer

namespace UtHash

open Finset

variable {hash : List UInt8 → UInt32} {key : Handle → List UInt8} {m : UtHash} {a : Nat}
  {t u : UtHashTable} {es : List Handle} {chain : Nat → List Handle} {L : Links Handle}

/-- The bound on the length of the chains, unless expansion is inhibited. -/
structure Load (t : UtHashTable) : Prop where
  flag : t.noexpand = 0 ∨ t.noexpand = 1
  limit : t.noexpand = 0 → ∀ b < t.numBuckets.toNat, (t.buckets.cell b).expandMult.toNat ≤ 2 ^ 28
  short : t.noexpand = 0 → ∀ b < t.numBuckets.toNat, (t.buckets.cell b).count.toNat ≤
    HASH_BKT_CAPACITY_THRESH.toNat * ((t.buckets.cell b).expandMult.toNat + 1)
  shorter : t.noexpand = 0 → ∀ b < t.numBuckets.toNat, (t.buckets.cell b).expandMult ≠ 0 →
    (t.buckets.cell b).count.toNat <
      HASH_BKT_CAPACITY_THRESH.toNat * ((t.buckets.cell b).expandMult.toNat + 1)
  mult : t.noexpand = 0 →
    ∑ b ∈ range t.numBuckets.toNat, (t.buckets.cell b).expandMult.toNat ≤ t.numBuckets.toNat

theorem Bucketed.sum_count (hb : Bucketed hash key L t es chain) (hnodup : es.Nodup) :
    ∑ b ∈ range t.numBuckets.toNat, (t.buckets.cell b).count.toNat = es.length := by
  have hcount : ∑ b ∈ range t.numBuckets.toNat, (t.buckets.cell b).count.toNat =
      ∑ b ∈ range t.numBuckets.toNat, (chain b).length :=
    sum_congr rfl fun b hlt => hb.count b (mem_range.1 hlt)
  rw [hcount, ← (hb.flatMap_perm hnodup).length_eq, List.length_flatMap]
  rfl

/-- A table with this bound holds less than twenty elements for each bucket. -/
theorem Load.sum_lt (hload : Load t) (hexpand : t.noexpand = 0) (hpos : 0 < t.numBuckets.toNat) :
    ∑ b ∈ range t.numBuckets.toNat, (t.buckets.cell b).count.toNat <
      2 * HASH_BKT_CAPACITY_THRESH.toNat * t.numBuckets.toNat := by
  have hsum : ∑ b ∈ range t.numBuckets.toNat,
      HASH_BKT_CAPACITY_THRESH.toNat * ((t.buckets.cell b).expandMult.toNat + 1) =
        HASH_BKT_CAPACITY_THRESH.toNat *
          (∑ b ∈ range t.numBuckets.toNat, (t.buckets.cell b).expandMult.toNat +
            t.numBuckets.toNat) := by
    rw [← mul_sum, sum_add_distrib, ← card_eq_sum_ones, card_range]
  have hmult := hload.mult hexpand
  have hthresh : HASH_BKT_CAPACITY_THRESH.toNat = 10 := rfl
  by_cases hzero : ∀ b ∈ range t.numBuckets.toNat, (t.buckets.cell b).expandMult = 0
  · -- all multipliers are zero, so ten for each bucket is the limit
    have hle := sum_le_sum fun b hb => hload.short hexpand b (mem_range.1 hb)
    rw [hsum, sum_eq_zero fun b hb => congrArg UInt32.toNat (hzero b hb), hthresh] at hle
    rw [hthresh]
    omega
  · -- some bucket has a multiplier, and that one is below its limit
    obtain ⟨b, hb, hne⟩ := by simpa only [not_forall] using hzero
    have hlt := sum_lt_sum (fun c hc => hload.short hexpand c (mem_range.1 hc))
      ⟨b, hb, hload.shorter hexpand b (mem_range.1 hb) hne⟩
    rw [hsum, hthresh] at hlt
    rw [hthresh]
    omega

theorem load_newTable (add : Handle) : Load (newTable add) where
  flag := Or.inl rfl
  limit := fun _ _ _ => Nat.zero_le _
  short := fun _ _ _ => Nat.zero_le _
  shorter := fun _ _ _ h => absurd rfl h
  mult := fun _ => by simp [newTable, emptyBucket]

/-- The limit of a bucket does not wrap. -/
theorem overfull_iff {b : UtHashBucket} (hlimit : b.expandMult.toNat ≤ 2 ^ 28) :
    Overfull b ↔ HASH_BKT_CAPACITY_THRESH.toNat * (b.expandMult.toNat + 1) ≤ b.count.toNat := by
  have hthresh : HASH_BKT_CAPACITY_THRESH.toNat = 10 := rfl
  rw [Overfull, ge_iff_le, UInt32.le_iff_toNat_le, UInt32.toNat_mul, toNat_add_one (by omega), hthresh,
    Nat.mod_eq_of_lt (by omega), Nat.mul_comm]

theorem Load.congr (hload : Load t) (hbuckets : u.buckets = t.buckets)
    (hnum : u.numBuckets = t.numBuckets) (hflag : u.noexpand = t.noexpand) : Load u where
  flag := by rw [hflag]; exact hload.flag
  limit := by rw [hflag, hbuckets, hnum]; exact hload.limit
  short := by rw [hflag, hbuckets, hnum]; exact hload.short
  shorter := by rw [hflag, hbuckets, hnum]; exact hload.shorter
  mult := by rw [hflag, hbuckets, hnum]; exact hload.mult

theorem Load.update (hload : Load t) {b : Nat} {bkt : UtHashBucket}
    (hcell : u.buckets.cell = Function.update t.buckets.cell b bkt)
    (hmult : bkt.expandMult = (t.buckets.cell b).expandMult)
    (hnum : u.numBuckets = t.numBuckets) (hflag : u.noexpand = t.noexpand)
    (hshort : t.noexpand = 0 → b < t.numBuckets.toNat →
      bkt.count.toNat ≤ (t.buckets.cell b).count.toNat ∨
        bkt.count.toNat < HASH_BKT_CAPACITY_THRESH.toNat * (bkt.expandMult.toNat + 1)) : Load u where
  flag := by rw [hflag]; exact hload.flag
  limit := by
    intro hexpand c hlt
    rw [hflag] at hexpand
    rw [hnum] at hlt
    rw [hcell]
    by_cases hc : c = b
    · subst hc
      rw [Function.update_self, hmult]
      exact hload.limit hexpand c hlt
    · rw [Function.update_of_ne hc]
      exact hload.limit hexpand c hlt
  short := by
    intro hexpand c hlt
    rw [hflag] at hexpand
    rw [hnum] at hlt
    rw [hcell]
    by_cases hc : c = b
    · subst hc
      rw [Function.update_self]
      have hold := hload.short hexpand c hlt
      rw [← hmult] at hold
      exact (hshort hexpand hlt).elim (fun hle => hle.trans hold) Nat.le_of_lt
    · rw [Function.update_of_ne hc]
      exact hload.short hexpand c hlt
  shorter := by
    intro hexpand c hlt
    rw [hflag] at hexpand
    rw [hnum] at hlt
    rw [hcell]
    by_cases hc : c = b
    · subst hc
      rw [Function.update_self]
      intro hne
      have hold := hload.shorter hexpand c hlt (hmult ▸ hne)
      rw [← hmult] at hold
      exact (hshort hexpand hlt).elim (fun hle => Nat.lt_of_le_of_lt hle hold) id
    · rw [Function.update_of_ne hc]
      exact hload.shorter hexpand c hlt
  mult := by
    intro hexpand
    rw [hflag] at hexpand
    have hsame : ∀ c, (Function.update t.buckets.cell b bkt c).expandMult =
        (t.buckets.cell c).expandMult := by
      intro c
      by_cases hc : c = b
      · subst hc
        rw [Function.update_self, hmult]
      · rw [Function.update_of_ne hc]
    rw [hcell, hnum]
    simp only [hsame]
    exact hload.mult hexpand

/-- An expansion leaves the bound in place when it finds no more than twenty elements for each bucket. -/
theorem Expanded.load (hx : Expanded hash key t u chain) (hflag : t.noexpand = 0)
    (hpow : t.numBuckets.toNat = 2 ^ t.log2NumBuckets.toNat) (hlog : t.log2NumBuckets < 31)
    (hitems : 0 < t.numItems.toNat) (hroom : t.numItems.toNat ≤ 2 ^ 28)
    (hlimit : t.numItems.toNat ≤ 2 * HASH_BKT_CAPACITY_THRESH.toNat * t.numBuckets.toNat)
    (hsum : ∑ b ∈ range u.numBuckets.toNat, (u.buckets.cell b).count.toNat = t.numItems.toNat) :
    Load u := by
  have hthresh : HASH_BKT_CAPACITY_THRESH.toNat = 10 := rfl
  rw [hthresh] at hlimit
  have hideal : u.idealChainMaxlen = idealOf t := by rw [hx.table]; rfl
  have hnum : u.numBuckets = t.numBuckets * 2 := by rw [hx.table]; rfl
  have hdouble := double_toNat hpow hlog
  have hpos := idealOf_pos hpow hlog hitems
  have hn : 0 < t.numBuckets.toNat := hpow ▸ Nat.two_pow_pos _
  have hten : (idealOf t).toNat ≤ 10 := by
    rw [idealOf_eq hpow hlog]
    refine Nat.le_of_lt_succ ((Nat.div_lt_iff_lt_mul (by omega)).2 ?_)
    omega
  have hmult : ∀ b < u.numBuckets.toNat, (u.buckets.cell b).expandMult.toNat =
      if (u.buckets.cell b).count > idealOf t then
        (u.buckets.cell b).count.toNat / (idealOf t).toNat
      else 0 := by
    intro b hlt
    rw [hx.mult b hlt, hideal, apply_ite UInt32.toNat, UInt32.toNat_div, UInt32.toNat_zero]
  have hle : ∀ b ∈ range u.numBuckets.toNat,
      (idealOf t).toNat * (u.buckets.cell b).expandMult.toNat ≤ (u.buckets.cell b).count.toNat := by
    intro b hb
    rw [hmult b (mem_range.1 hb)]
    split_ifs
    · exact Nat.mul_div_le _ _
    · exact Nat.zero_le _
  have hall : ∀ b < u.numBuckets.toNat, (u.buckets.cell b).count.toNat ≤ t.numItems.toNat := by
    intro b hlt
    rw [← hsum]
    exact single_le_sum (f := fun c => (u.buckets.cell c).count.toNat) (fun _ _ => Nat.zero_le _)
      (mem_range.2 hlt)
  refine ⟨?_, fun _ b hlt => ?_, fun _ b hlt => ?_, fun _ b hlt hne => ?_, fun _ => ?_⟩
  · rw [hx.table]
    show (if _ then 1 else t.noexpand) = 0 ∨ (if _ then 1 else t.noexpand) = 1
    rw [hflag]
    split_ifs <;> simp
  · have hcount := hle b (mem_range.2 hlt)
    have hsmall := (Nat.le_mul_of_pos_left _ hpos).trans (hcount.trans (hall b hlt))
    exact hsmall.trans hroom
  · rw [hmult b hlt, hthresh]
    split_ifs with hlong
    · exact Nat.le_of_lt ((Nat.lt_mul_div_succ _ hpos).trans_le (Nat.mul_le_mul_right _ hten))
    · rw [gt_iff_lt, UInt32.lt_iff_toNat_lt] at hlong
      omega
  · rw [hmult b hlt, hthresh]
    split_ifs with hlong
    · exact (Nat.lt_mul_div_succ _ hpos).trans_le (Nat.mul_le_mul_right _ hten)
    · rw [hx.mult b hlt, hideal, if_neg hlong] at hne
      exact absurd rfl hne
  · have htotal := sum_le_sum hle
    rw [← mul_sum, hsum] at htotal
    have hcap := numItems_le_idealOf hpow hlog
    rw [hnum] at htotal ⊢
    exact Nat.le_of_mul_le_mul_left (htotal.trans hcap) hpos

end UtHash

end TunnelServer
