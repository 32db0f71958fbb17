import Mathlib.Data.Finset.Basic
import TunnelServer.Lib.Fifo
import TunnelServer.Lib.Ring
import TunnelServer.Lib.Run
import TunnelServer.ServerIp

/-!
# Sequences of pool calls

The pool on its own, as `test.c` drives it: any sequence of `server_allocate_ip` and
`server_reclaim_ip`. Beside the pool the state keeps what the allocations returned and which
addresses are allocated, that is, whose latest call was an allocation.
-/

namespace TunnelServer

inductive PoolOp
  | allocate
  | reclaim (ip : UInt32)
deriving DecidableEq

structure PoolState where
  pool : IpPool
  issued : List (UInt32 × UInt8)
  held : Finset UInt32

def poolInit (pool : IpPool) : PoolState := { pool, issued := [], held := ∅ }

def poolStep (s : PoolState) : PoolOp → Option PoolState
  | .allocate => do
    let (ip, sid, pool) ← s.pool.serverAllocateIp
    some { pool, issued := s.issued ++ [(ip, sid)], held := insert ip s.held }
  | .reclaim ip => do
    let pool ← s.pool.serverReclaimIp ip
    some { s with pool, held := s.held.erase ip }

/-- The call gives back only an address that is allocated. -/
def ReclaimsHeld (m : PoolState × PoolOp) : Prop := ∀ ip, m.2 = .reclaim ip → ip ∈ m.1.held

/-- The slot of the address given back fits the `int16_t` that is to hold it. -/
def ReclaimsSmall (m : PoolState × PoolOp) : Prop :=
  ∀ ip, m.2 = .reclaim ip → m.1.pool.slotOf ip ≤ 32767

instance (m : PoolState × PoolOp) : Decidable (ReclaimsHeld m) :=
  match m with
  | (_, .allocate) => isTrue fun _ h => nomatch h
  | (s, .reclaim ip) =>
    decidable_of_iff (ip ∈ s.held) ⟨fun h _ heq => by cases heq; exact h, fun h => h ip rfl⟩

instance (m : PoolState × PoolOp) : Decidable (ReclaimsSmall m) :=
  match m with
  | (_, .allocate) => isTrue fun _ h => nomatch h
  | (s, .reclaim ip) =>
    decidable_of_iff (s.pool.slotOf ip ≤ 32767)
      ⟨fun h _ heq => by cases heq; exact h, fun h => h ip rfl⟩

/-- Every index the call reads or writes is in range: the checked accesses all succeed, and `ip_idx`
is one of the slots. -/
def IndexSafe (m : PoolState × PoolOp) : Prop :=
  (poolStep m.1 m.2).isSome ∧
    ∀ ip, m.2 = .reclaim ip →
      ∃ ipIdx, m.1.pool.reclaimIdx (ntohl ip) = some ipIdx ∧
        0 ≤ ipIdx.toInt ∧ ipIdx.toInt < m.1.pool.ipCount

namespace IpPool

/-- The addresses in the slots from the first cursor round to the second, in network order. -/
def window (p : IpPool) : List UInt32 :=
  let span := SeatRing.placeOf p.ipCount p.nextAvaliableIpIdx p.lastAvaliableIpIdx + 1
  (List.range span).map fun k =>
    htonl (p.ipList.cell (SeatRing.slotAt p.ipCount p.nextAvaliableIpIdx k)).ip

end IpPool

/-- What the pool is for: a queue of addresses that starts in increasing order. -/
def addressQueue (n : Nat) : Fifo UInt32 where
  queue := (List.range n).map fun i => htonl (minIp + UInt32.ofNat i)
  out := []

def PoolOp.fifoOp : PoolOp → FifoOp UInt32
  | .allocate => .pop
  | .reclaim ip => .push ip

/-- The session ids issued with an address, oldest first. -/
def sidsOf (issued : List (UInt32 × UInt8)) (ip : UInt32) : List UInt8 :=
  (issued.filter fun r => r.1 = ip).map Prod.snd

end TunnelServer
