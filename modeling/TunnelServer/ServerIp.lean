import TunnelServer.Lib.CMemory

/-!
# The address pool: `server_ip.c`

The file-scope variables of `server_ip.c` are the fields of `IpPool`, and its functions take the pool
before the call to the pool after it. Array accesses are checked, so a function returns `none` where
the code would index outside `ip_list` or `ip_to_idx`. The C integer types are kept wherever a value
is stored in one: `ip_to_idx` holds `uint16_t`, and `server_reclaim_ip` reads an index back into an
`int16_t`. Logging has no effect on the pool and is left out.
-/

namespace TunnelServer

/-- `struct server_ip_ctx`: an address in host order and the session id it gets next. -/
structure ServerIpCtx where
  ip : UInt32
  sid : UInt8
deriving DecidableEq

structure IpPool where
  ipList : CArray ServerIpCtx
  ipCount : Nat
  nextAvaliableIpIdx : Nat
  lastAvaliableIpIdx : Nat
  ipToIdx : CArray UInt16
  ipStart : Int32

/-- `inet_pton` on a dotted quad: the bytes in memory are the four numbers in order. -/
def inetPton (a b c d : UInt8) : UInt32 := leWord [a, b, c, d]

/-- The body of `server_ip_init` once the two ends of the range are known. -/
def serverIpInitRange (minIp maxIp : UInt32) : IpPool :=
  let ipCount := (maxIp - minIp + 1).toNat
  { ipCount
    ipList := ⟨ipCount, fun i => { ip := minIp + UInt32.ofNat i, sid := 0 }⟩
    ipToIdx := ⟨ipCount, fun i => UInt16.ofNat i⟩
    nextAvaliableIpIdx := 0
    lastAvaliableIpIdx := ipCount - 1
    ipStart := minIp.toInt32 }

def minIp : UInt32 := ntohl (inetPton 10 0 0 2)

def maxIp : UInt32 := ntohl (inetPton 10 0 255 254)

def serverIpInit : IpPool := serverIpInitRange minIp maxIp

namespace IpPool

variable (p : IpPool)

def ipListIdxAdvance (idx : Nat) : Nat :=
  let next := idx + 1
  if next = p.ipCount then 0 else next

/-- `server_allocate_ip`: the address in network order, its session id, and the pool after. -/
def serverAllocateIp : Option (UInt32 × UInt8 × IpPool) := do
  let ipCtx ← p.ipList.read p.nextAvaliableIpIdx
  let ipList ← p.ipList.write p.nextAvaliableIpIdx { ipCtx with sid := ipCtx.sid + 1 }
  let last :=
    if p.nextAvaliableIpIdx = p.lastAvaliableIpIdx then p.ipListIdxAdvance p.lastAvaliableIpIdx
    else p.lastAvaliableIpIdx
  some (htonl ipCtx.ip, ipCtx.sid,
    { p with
      ipList
      lastAvaliableIpIdx := last
      nextAvaliableIpIdx := p.ipListIdxAdvance p.nextAvaliableIpIdx })

def ipOffset (ip : UInt32) : UInt32 := ip - p.ipStart.toUInt32

def reclaimIdx (ip : UInt32) : Option Int16 := do
  let ipSeq : Int32 := (p.ipOffset ip).toInt32
  let idx ← p.ipToIdx.read ipSeq.toInt
  some idx.toInt16

/-- `server_reclaim_ip`: give back an address in network order. -/
def serverReclaimIp (ip : UInt32) : Option IpPool := do
  let ip := ntohl ip
  let ipSeq : Int32 := (p.ipOffset ip).toInt32
  let ipIdx ← p.reclaimIdx ip
  let ipCtxReclaim ← p.ipList.read ipIdx.toInt
  let nextLastIdx := p.ipListIdxAdvance p.lastAvaliableIpIdx
  if (nextLastIdx : Int) = ipIdx.toInt then
    some { p with lastAvaliableIpIdx := nextLastIdx }
  else
    let ipCtxMove ← p.ipList.read nextLastIdx
    let ipList ← p.ipList.write ipIdx.toInt ipCtxMove
    let ipList ← ipList.write nextLastIdx ipCtxReclaim
    let ipToIdx ← p.ipToIdx.write ipSeq.toInt (UInt16.ofNat nextLastIdx)
    let ipToIdx ← ipToIdx.write (p.ipOffset ipCtxMove.ip).toNat ipIdx.toUInt16
    some { p with ipList, ipToIdx, lastAvaliableIpIdx := nextLastIdx }

/-- The slot recorded for a network-order address, `ip_to_idx[ip - ip_start]`. -/
def slotOf (ip : UInt32) : Nat := (p.ipToIdx.cell (p.ipOffset (ntohl ip)).toNat).toNat

def Owns (ip : UInt32) : Prop := (p.ipOffset (ntohl ip)).toNat < p.ipCount

instance (ip : UInt32) : Decidable (p.Owns ip) := inferInstanceAs (Decidable (_ < _))

end IpPool

def ipPoolOf (n : Nat) : IpPool := serverIpInitRange minIp (minIp + UInt32.ofNat n - 1)

example : serverIpInit.ipCount = 65533 := by decide

end TunnelServer
