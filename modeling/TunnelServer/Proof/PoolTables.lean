import Mathlib.Data.List.Perm.Basic
import TunnelServer.Proof.PoolSids

/-!
# The two arrays of the pool

What `server_ip_debug` prints, as a property of the arrays themselves: following `ip_to_idx` from an
address leads to the entry of that address, and following the address of an entry leads back to its
slot. Reclaims need not be of allocated addresses for this.
-/

namespace TunnelServer

namespace IpPool

/-- The arrays of a pool of `n` addresses are inverse to each other and the cursors are slots. -/
structure TablesInverse (n : Nat) (p : IpPool) : Prop where
  addresses : ((List.range n).map fun i => (p.ipList.cell i).ip).Perm
    ((List.range n).map fun j => p.ipStart.toUInt32 + UInt32.ofNat j)
  list_idx : ∀ ip, (p.ipOffset ip).toNat < n →
    ∃ idx entry, p.ipToIdx.read (p.ipOffset ip).toNat = some idx ∧
      p.ipList.read idx.toNat = some entry ∧ entry.ip = ip
  idx_list : ∀ i < n, ∃ entry idx, p.ipList.read i = some entry ∧
    p.ipToIdx.read (p.ipOffset entry.ip).toNat = some idx ∧ idx.toNat = i
  next_lt : p.nextAvaliableIpIdx < n
  last_lt : p.lastAvaliableIpIdx < n

variable {p : IpPool}

theorem start_add_ipOffset (ip : UInt32) :
    p.ipStart.toUInt32 + UInt32.ofNat (p.ipOffset ip).toNat = ip := by
  rw [UInt32.ofNat_toNat, ipOffset]
  grind

theorem toNat_ipOffset_start_add {j : Nat} (hj : j < 65533) :
    (p.ipOffset (p.ipStart.toUInt32 + UInt32.ofNat j)).toNat = j := by
  have hoffset : p.ipOffset (p.ipStart.toUInt32 + UInt32.ofNat j) = UInt32.ofNat j := by
    rw [ipOffset]
    grind
  rw [hoffset, UInt32.toNat_ofNat_of_lt' (show j < 2 ^ 32 by omega)]

namespace Coherent

variable (hp : p.Coherent)
include hp

theorem nodup_cells : ((List.range p.ipCount).map fun i => (p.ipList.cell i).ip).Nodup := by
  refine List.Nodup.map_on ?_ List.nodup_range
  intro i hi j hj heq
  have hseq : p.seq i = p.seq j := by
    rw [seq, seq, heq]
  rw [← hp.idx_seq i (List.mem_range.1 hi), hseq, hp.idx_seq j (List.mem_range.1 hj)]

theorem nodup_range :
    ((List.range p.ipCount).map fun j => p.ipStart.toUInt32 + UInt32.ofNat j).Nodup := by
  have hmax := hp.le_max
  refine List.Nodup.map_on ?_ List.nodup_range
  intro i hi j hj heq
  rw [List.mem_range] at hi hj
  rw [← toNat_ipOffset_start_add (p := p) (show i < 65533 by omega), heq,
    toNat_ipOffset_start_add (by omega)]

theorem tablesInverse : p.TablesInverse p.ipCount where
  addresses := by
    rw [List.perm_ext_iff_of_nodup hp.nodup_cells hp.nodup_range]
    intro ip
    simp only [List.mem_map, List.mem_range]
    constructor
    · intro hcell
      obtain ⟨i, hi, rfl⟩ := hcell
      exact ⟨p.seq i, hp.seq_lt i hi, start_add_ipOffset _⟩
    · intro hin
      obtain ⟨j, hj, rfl⟩ := hin
      have hmax := hp.le_max
      refine ⟨p.idx j, hp.idx_lt j hj, ?_⟩
      have hseq := hp.seq_idx j hj
      rw [seq] at hseq
      rw [← start_add_ipOffset (p := p) (p.ipList.cell (p.idx j)).ip, hseq]
  list_idx := by
    intro ip hip
    have hidx := hp.idx_lt _ hip
    refine ⟨_, _, CArray.read_natCast (by rw [hp.idx_length]; exact hip),
      CArray.read_natCast (by rw [hp.list_length]; exact hidx), ?_⟩
    have hseq := hp.seq_idx _ hip
    rw [seq] at hseq
    have haddress := congrArg (fun j => p.ipStart.toUInt32 + UInt32.ofNat j) hseq
    simp only [start_add_ipOffset] at haddress
    exact haddress
  idx_list := by
    intro i hi
    exact ⟨_, _, CArray.read_natCast (by rw [hp.list_length]; exact hi),
      CArray.read_natCast (by rw [hp.idx_length]; exact hp.seq_lt i hi), hp.idx_seq i hi⟩
  next_lt := hp.next_lt
  last_lt := hp.last_lt

end Coherent

end IpPool

/-- Any sequence of calls that give back addresses of the pool, allocated or not, runs through and
leaves the two arrays inverse to each other. -/
theorem pool_tables_inverse {n : Nat} (hmin : 2 ≤ n) (hmax : n ≤ 65533) (ops : List PoolOp)
    (howned : ∀ m ∈ Run.attempts poolStep (poolInit (ipPoolOf n)) ops, ReclaimsOwned m)
    (hsmall : ∀ m ∈ Run.attempts poolStep (poolInit (ipPoolOf n)) ops, ReclaimsSmall m) :
    ∃ t, Run.exec poolStep (poolInit (ipPoolOf n)) ops = some t ∧
      t.pool.ipStart = minIp.toInt32 ∧ t.pool.TablesInverse n := by
  obtain ⟨t, hrun, ht, -⟩ := exec_sidsCount hmin hmax howned hsmall
  refine ⟨t, hrun, ht.start, ?_⟩
  rw [← ht.count]
  exact ht.coherent.tablesInverse

/-- A pool of three: all of it is issued and one address more, then one is given back twice. -/
theorem pool_tables_inverse_three :
    ∃ t, Run.exec poolStep (poolInit (ipPoolOf 3))
        [.allocate, .allocate, .allocate, .allocate, .reclaim (htonl minIp),
          .reclaim (htonl minIp)] = some t ∧
      t.pool.ipStart = minIp.toInt32 ∧ t.pool.TablesInverse 3 :=
  pool_tables_inverse (by decide) (by decide) _ (by decide) (by decide)

end TunnelServer
