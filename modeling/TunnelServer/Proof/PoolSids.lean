import TunnelServer.Proof.PoolRuns

/-!
# Session ids count allocations

The counter of an address lies in the list entry that returns swap from slot to slot. Followed through
`ip_to_idx` it stays with its address: it is the number of times the address was issued, modulo 256.
-/

namespace TunnelServer

namespace IpPool

/-- The ids issued with each address count up from zero, and its entry holds the next one. -/
def SidsCount (p : IpPool) (issued : List (UInt32 × UInt8)) : Prop :=
  ∀ ip, p.Owns ip →
    sidsOf issued ip = (List.range (sidsOf issued ip).length).map UInt8.ofNat ∧
      (p.ipList.cell (p.slotOf ip)).sid = UInt8.ofNat (sidsOf issued ip).length

theorem sidsOf_concat (issued : List (UInt32 × UInt8)) (ip ip' : UInt32) (sid : UInt8) :
    sidsOf (issued ++ [(ip, sid)]) ip' =
      if ip = ip' then sidsOf issued ip' ++ [sid] else sidsOf issued ip' := by
  by_cases h : ip = ip' <;> simp [sidsOf, h]

variable {p : IpPool} {issued : List (UInt32 × UInt8)}

theorem SidsCount.allocated (hp : p.Coherent) (h : p.SidsCount issued) :
    p.allocated.SidsCount (issued ++
      [(htonl (p.ipList.cell p.nextAvaliableIpIdx).ip,
        (p.ipList.cell p.nextAvaliableIpIdx).sid)]) := by
  intro ip hip
  obtain ⟨hrange, hsid⟩ := h ip hip
  have hnext : p.slotOf ip = p.nextAvaliableIpIdx ↔
      htonl (p.ipList.cell p.nextAvaliableIpIdx).ip = ip := by
    constructor
    · intro heq
      rw [← heq]
      exact hp.cell_slotOf hip
    · intro heq
      rw [← heq]
      exact hp.slotOf_cell hp.next_lt
  rw [sidsOf_concat, allocated_slotOf, allocated_cell_sid]
  by_cases heq : p.slotOf ip = p.nextAvaliableIpIdx
  · rw [if_pos (hnext.1 heq), if_pos heq, ← heq, hsid, List.length_append, List.length_singleton,
      List.range_succ, List.map_append, ← hrange]
    refine ⟨rfl, ?_⟩
    rw [UInt8.ofNat_add]
    rfl
  · rw [if_neg (fun h => heq (hnext.2 h)), if_neg heq]
    exact ⟨hrange, hsid⟩

theorem SidsCount.reclaimed (hp : p.Coherent) (h : p.SidsCount issued) {i : Nat}
    (hi : i < p.ipCount) : (p.reclaimed i).SidsCount issued := by
  intro ip hip
  have hentry : (p.reclaimed i).ipList.cell ((p.reclaimed i).slotOf ip) =
      p.ipList.cell (p.slotOf ip) := by
    rw [hp.reclaimed_slotOf hi hip, reclaimed_cell, Equiv.swap_apply_self]
  rw [hentry]
  exact h ip hip

theorem sidsCount_ipPoolOf (n : Nat) : (ipPoolOf n).SidsCount [] := fun _ _ => ⟨rfl, rfl⟩

end IpPool

def ReclaimsOwned (m : PoolState × PoolOp) : Prop := ∀ ip, m.2 = .reclaim ip → m.1.pool.Owns ip

instance (m : PoolState × PoolOp) : Decidable (ReclaimsOwned m) :=
  match m with
  | (_, .allocate) => isTrue fun _ h => nomatch h
  | (s, .reclaim ip) =>
    decidable_of_iff (s.pool.Owns ip) ⟨fun h _ heq => by cases heq; exact h, fun h => h ip rfl⟩

theorem poolStep_sidsCount {n : Nat} {s : PoolState} (hs : s.Sound n)
    (hsids : s.pool.SidsCount s.issued) {op : PoolOp} (howned : ReclaimsOwned (s, op))
    (hsmall : ReclaimsSmall (s, op)) :
    ∃ t, poolStep s op = some t ∧ t.Sound n ∧ t.pool.SidsCount t.issued := by
  cases op with
  | allocate =>
      exact ⟨_, hs.allocate_eq, hs.allocate_sound hs.allocate_eq, hsids.allocated hs.coherent⟩
  | reclaim ip =>
      have hip : s.pool.Owns ip := howned ip rfl
      have hstep := hs.reclaim_eq hip (hsmall ip rfl)
      exact ⟨_, hstep, hs.reclaim_sound hip hstep,
        hsids.reclaimed hs.coherent (hs.coherent.slotOf_lt hip)⟩

theorem exec_sidsCount {n : Nat} (hmin : 2 ≤ n) (hmax : n ≤ 65533) {ops : List PoolOp}
    (howned : ∀ m ∈ Run.attempts poolStep (poolInit (ipPoolOf n)) ops, ReclaimsOwned m)
    (hsmall : ∀ m ∈ Run.attempts poolStep (poolInit (ipPoolOf n)) ops, ReclaimsSmall m) :
    ∃ t, Run.exec poolStep (poolInit (ipPoolOf n)) ops = some t ∧ t.Sound n ∧
      t.pool.SidsCount t.issued :=
  Run.exec_of_forall_attempts (C := fun s op => ReclaimsOwned (s, op) ∧ ReclaimsSmall (s, op))
    (fun _ _ hs hC => poolStep_sidsCount hs.1 hs.2 hC.1 hC.2)
    ⟨poolInit_sound hmin hmax, IpPool.sidsCount_ipPoolOf n⟩
    (fun m hm => ⟨howned m hm, hsmall m hm⟩)

end TunnelServer
