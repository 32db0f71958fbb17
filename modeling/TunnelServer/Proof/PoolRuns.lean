import TunnelServer.PoolRuns
import TunnelServer.Proof.Pool

/-!
# What every sequence of pool calls does

The invariant of a run is that the pool stays coherent and only its own addresses are held. While at
most `n - 1` addresses are held the open window tracks the free ones and the run simulates the queue.
-/

namespace TunnelServer

open IpPool

theorem IpPool.Coherent.window_ring {p : IpPool} (hp : p.Coherent) : hp.ring.window = p.window := rfl

structure PoolState.Sound (n : Nat) (s : PoolState) : Prop where
  coherent : s.pool.Coherent
  count : s.pool.ipCount = n
  start : s.pool.ipStart = minIp.toInt32
  owned : ∀ ip ∈ s.held, s.pool.Owns ip

theorem poolInit_sound {n : Nat} (hmin : 2 ≤ n) (hmax : n ≤ 65533) :
    (poolInit (ipPoolOf n)).Sound n where
  coherent := coherent_ipPoolOf hmin hmax
  count := ipCount_ipPoolOf hmax
  start := rfl
  owned := fun ip hip => by simp [poolInit] at hip

namespace PoolState.Sound

variable {n : Nat} {s t : PoolState} (hs : s.Sound n)
include hs

theorem allocate_eq :
    poolStep s .allocate =
      some
        { pool := s.pool.allocated
          issued := s.issued ++
            [(htonl (s.pool.ipList.cell s.pool.nextAvaliableIpIdx).ip,
              (s.pool.ipList.cell s.pool.nextAvaliableIpIdx).sid)]
          held := insert (htonl (s.pool.ipList.cell s.pool.nextAvaliableIpIdx).ip) s.held } := by
  rw [poolStep, serverAllocateIp_eq hs.coherent]
  rfl

theorem reclaim_eq {ip : UInt32} (hip : s.pool.Owns ip) (hsmall : s.pool.slotOf ip ≤ 32767) :
    poolStep s (.reclaim ip) =
      some { s with pool := s.pool.reclaimed (s.pool.slotOf ip), held := s.held.erase ip } := by
  rw [poolStep, serverReclaimIp_eq hs.coherent hip hsmall]
  rfl

theorem reclaim_eq_none {ip : UInt32} (hip : s.pool.Owns ip) (hlarge : 32767 < s.pool.slotOf ip) :
    poolStep s (.reclaim ip) = none := by
  rw [poolStep, serverReclaimIp_eq_none hs.coherent hip hlarge]
  rfl

theorem allocate_sound (hstep : poolStep s .allocate = some t) : t.Sound n := by
  rw [hs.allocate_eq, Option.some.injEq] at hstep
  subst hstep
  refine ⟨hs.coherent.allocated, hs.count, hs.start, fun ip hip => ?_⟩
  rcases Finset.mem_insert.1 hip with rfl | hold
  · exact hs.coherent.owns_cell hs.coherent.next_lt
  · exact hs.owned ip hold

theorem reclaim_sound {ip : UInt32} (hip : s.pool.Owns ip)
    (hstep : poolStep s (.reclaim ip) = some t) : t.Sound n := by
  rcases Nat.lt_or_ge 32767 (s.pool.slotOf ip) with hlarge | hsmall
  · rw [hs.reclaim_eq_none hip hlarge] at hstep
    cases hstep
  · rw [hs.reclaim_eq hip hsmall, Option.some.injEq] at hstep
    subst hstep
    exact ⟨hs.coherent.reclaimed (hs.coherent.slotOf_lt hip), hs.count, hs.start,
      fun a ha => hs.owned a (Finset.mem_of_mem_erase ha)⟩

end PoolState.Sound

theorem poolStep_sound {n : Nat} {s t : PoolState} (hs : s.Sound n) {op : PoolOp}
    (hheld : ReclaimsHeld (s, op)) (hstep : poolStep s op = some t) : t.Sound n := by
  cases op with
  | allocate => exact hs.allocate_sound hstep
  | reclaim ip => exact hs.reclaim_sound (hs.owned ip (hheld ip rfl)) hstep

/-! ### Index safety -/

/-- One call stays inside both arrays exactly when the slot it gives back is below 32768. -/
theorem indexSafe_iff {n : Nat} {s : PoolState} (hs : s.Sound n) {op : PoolOp}
    (hheld : ReclaimsHeld (s, op)) : IndexSafe (s, op) ↔ ReclaimsSmall (s, op) := by
  cases op with
  | allocate => simp [IndexSafe, ReclaimsSmall, hs.allocate_eq]
  | reclaim ip =>
      have hip := hs.owned ip (hheld ip rfl)
      have hlt := hs.coherent.slotOf_lt hip
      constructor
      · intro hsafe ip' heq
        obtain ⟨hdefined, -⟩ := hsafe
        cases heq
        by_contra hlarge
        rw [hs.reclaim_eq_none hip (Nat.lt_of_not_le hlarge)] at hdefined
        simp at hdefined
      · intro hsmall
        have hsmall : s.pool.slotOf ip ≤ 32767 := hsmall ip rfl
        refine ⟨by rw [hs.reclaim_eq hip hsmall]; rfl, fun ip' heq => ?_⟩
        cases heq
        have hidx : (s.pool.ipToIdx.cell (s.pool.ipOffset (ntohl ip)).toNat).toInt16.toInt =
            s.pool.slotOf ip := toInt_toInt16_of_lt (show s.pool.slotOf ip < 2 ^ 15 by omega)
        refine ⟨_, hs.coherent.reclaimIdx_eq hip, ?_, ?_⟩ <;> rw [hidx]
        · omega
        · exact_mod_cast hlt

/-- Over a whole sequence of calls: every index is in range exactly when every address given back
sits below slot 32768 at that moment. -/
theorem pool_index_safe_iff (ops : List PoolOp)
    (hheld : ∀ m ∈ Run.attempts poolStep (poolInit serverIpInit) ops, ReclaimsHeld m) :
    (∀ m ∈ Run.attempts poolStep (poolInit serverIpInit) ops, IndexSafe m) ↔
      ∀ m ∈ Run.attempts poolStep (poolInit serverIpInit) ops, ReclaimsSmall m := by
  have hinit : (poolInit serverIpInit).Sound 65533 := by
    rw [serverIpInit_eq]
    exact poolInit_sound (by omega) (by omega)
  have hsound : ∀ m ∈ Run.attempts poolStep (poolInit serverIpInit) ops, m.1.Sound 65533 :=
    Run.forall_attempts_of_forall_attempts (C := fun s op => ReclaimsHeld (s, op))
      (fun s op t hs hC hstep => poolStep_sound hs hC hstep) hinit hheld
  exact forall₂_congr fun m hm => indexSafe_iff (hsound m hm) (hheld m hm)

/-- What `k` allocations in a row leave behind: the first `k` addresses held, in their own slots. -/
theorem exec_allocations {n k : Nat} (hk : k < n) (hmin : 2 ≤ n) (hmax : n ≤ 65533) :
    ∃ s, Run.exec poolStep (poolInit (ipPoolOf n)) (List.replicate k .allocate) = some s ∧
      s.Sound n ∧ s.pool.nextAvaliableIpIdx = k ∧ s.pool.lastAvaliableIpIdx = n - 1 ∧
      (∀ i, (s.pool.ipList.cell i).ip = minIp + UInt32.ofNat i) ∧
      (∀ ip, s.pool.slotOf ip = (ipPoolOf n).slotOf ip) ∧
      ∀ i < k, htonl (minIp + UInt32.ofNat i) ∈ s.held := by
  induction k with
  | zero =>
      refine ⟨_, rfl, poolInit_sound hmin hmax, rfl, ?_, fun _ => rfl, fun _ => rfl, by simp⟩
      show (ipPoolOf n).ipCount - 1 = n - 1
      rw [ipCount_ipPoolOf hmax]
  | succ k ih =>
      obtain ⟨s, hrun, hs, hnext, hlast, hcell, hslot, hheld⟩ := ih (by omega)
      have hne : s.pool.nextAvaliableIpIdx ≠ s.pool.lastAvaliableIpIdx := by omega
      rw [List.replicate_succ', Run.exec_concat hrun]
      refine ⟨_, hs.allocate_eq, hs.allocate_sound hs.allocate_eq, ?_, ?_, ?_, hslot, ?_⟩
      · show SeatRing.advance s.pool.ipCount s.pool.nextAvaliableIpIdx = k + 1
        rw [hs.count, hnext, SeatRing.advance, if_neg (by omega)]
      · show (if _ then _ else s.pool.lastAvaliableIpIdx) = n - 1
        rw [if_neg hne, hlast]
      · intro i
        rw [allocated_cell_ip, hcell]
      · intro i hi
        rw [hnext, hcell, Finset.mem_insert]
        rcases Nat.lt_succ_iff_lt_or_eq.1 hi with hlt | rfl
        · exact Or.inr (hheld i hlt)
        · exact Or.inl rfl

/-- Allocate `k` addresses, then give back the one issued after `i` others. -/
def allocThenReclaim (k i : Nat) : List PoolOp :=
  List.replicate k .allocate ++ [.reclaim (htonl (minIp + UInt32.ofNat i))]

theorem attempts_allocThenReclaim {k i : Nat} (hk : k < 65533) (hi : i < k) :
    ∃ s, s.Sound 65533 ∧ (∀ ip, s.pool.slotOf ip = (ipPoolOf 65533).slotOf ip) ∧
      ReclaimsHeld (s, .reclaim (htonl (minIp + UInt32.ofNat i))) ∧
      Run.attempts poolStep (poolInit serverIpInit) (allocThenReclaim k i) =
        Run.attempts poolStep (poolInit serverIpInit) (List.replicate k .allocate) ++
          [(s, .reclaim (htonl (minIp + UInt32.ofNat i)))] := by
  obtain ⟨s, hrun, hs, -, -, -, hslot, hheld⟩ := exec_allocations hk (by omega) le_rfl
  refine ⟨s, hs, hslot, fun ip heq => ?_, ?_⟩
  · cases heq
    exact hheld i hi
  · rw [serverIpInit_eq, allocThenReclaim, Run.attempts_append hrun]
    simp only [Run.attempts]
    cases poolStep s (.reclaim (htonl (minIp + UInt32.ofNat i))) <;> rfl

theorem allocThenReclaim_held {k i : Nat} (hk : k < 65533) (hi : i < k) :
    ∀ m ∈ Run.attempts poolStep (poolInit serverIpInit) (allocThenReclaim k i), ReclaimsHeld m := by
  obtain ⟨s, -, -, hlast, hattempts⟩ := attempts_allocThenReclaim hk hi
  intro m hm
  rw [hattempts] at hm
  rcases List.mem_append.1 hm with hm | hm
  · intro ip heq
    rw [List.eq_of_mem_replicate (Run.snd_mem_of_mem_attempts hm)] at heq
    cases heq
  · rw [List.mem_singleton.1 hm]
    exact hlast

theorem pool_index_safe_iff_second :
    (∀ m ∈ Run.attempts poolStep (poolInit serverIpInit) (allocThenReclaim 2 1), IndexSafe m) ↔
      ∀ m ∈ Run.attempts poolStep (poolInit serverIpInit) (allocThenReclaim 2 1),
        ReclaimsSmall m :=
  pool_index_safe_iff (allocThenReclaim 2 1) (allocThenReclaim_held (by omega) (by omega))

/-- After 32769 allocations the last address sits in slot 32768: it is allocated, and giving it back
reads `ip_list` at a negative index. -/
theorem late_reclaim_unsafe :
    (∀ m ∈ Run.attempts poolStep (poolInit serverIpInit) (allocThenReclaim 32769 32768),
        ReclaimsHeld m) ∧
      ¬ ∀ m ∈ Run.attempts poolStep (poolInit serverIpInit) (allocThenReclaim 32769 32768),
        IndexSafe m := by
  refine ⟨allocThenReclaim_held (by omega) (by omega), fun hall => ?_⟩
  obtain ⟨s, hs, hslot, hlast, hattempts⟩ :=
    attempts_allocThenReclaim (k := 32769) (i := 32768) (by omega) (by omega)
  rw [hattempts] at hall
  have hsafe := hall _ (List.mem_append_right _ List.mem_cons_self)
  have hsmall : s.pool.slotOf (htonl (minIp + UInt32.ofNat 32768)) ≤ 32767 :=
    (indexSafe_iff hs hlast).1 hsafe _ rfl
  have hat : (ipPoolOf 65533).slotOf (htonl (minIp + UInt32.ofNat 32768)) = 32768 := by decide
  rw [hslot, hat] at hsmall
  omega

end TunnelServer
