import TunnelServer.ClientRuns
import TunnelServer.HashRuns

/-!
# Client records in their hash tables: `client.c` over `uthash.h`

`ClientTable` takes the two tables as keyed indexes. Here they are what `uthash.h` makes of them: each
record embeds one handle for either table. `malloc` leaves the handles of a new record in any state, and
`free` ends the record together with both of its handles. What the allocator does for a record is a
parameter: the process exits when it has no blocks for the tables.
-/

namespace TunnelServer

/-- What the allocator does for a record: what it leaves where the handles are going to be, and whether
`uthash_malloc` has the blocks that adding the record asks for. -/
structure UtAlloc where
  hhIp : UtHashHandle
  hhGuid : UtHashHandle
  mem : Bool

/-- The memory of `client.c`. The handles `hh_ip` and `hh_guid` of the records are kept with their
tables. -/
structure UtClientTable where
  heap : Handle → Option Client
  brk : Handle
  gClientsIp : UtHash
  gClientsGuid : UtHash

namespace UtClientTable

def empty : UtClientTable := ⟨fun _ => none, 0, .empty, .empty⟩

variable (hash : List UInt8 → UInt32) (fuel : Nat)

def ipField (heap : Handle → Option Client) (h : Handle) : List UInt8 :=
  match heap h with
  | some c => leBytes c.ip
  | none => []

def guidField (heap : Handle → Option Client) (h : Handle) : List UInt8 :=
  match heap h with
  | some c => c.guid
  | none => []

def write (t : UtClientTable) (h : Handle) (c : Option Client) (hhIp hhGuid : Option UtHashHandle) :
    UtClientTable :=
  { t with
    heap := Function.update t.heap h c
    gClientsIp := t.gClientsIp.setHh (Function.update t.gClientsIp.hh h hhIp)
    gClientsGuid := t.gClientsGuid.setHh (Function.update t.gClientsGuid.hh h hhGuid) }

def free (t : UtClientTable) (h : Handle) : UtClientTable := t.write h none none none

def newClient (alloc : Handle → UtAlloc) (mem : Option Client) (t : UtClientTable) :
    Option Handle × UtClientTable :=
  match mem with
  | none => (none, t)
  | some c =>
    let c := { c with timeoutWatcher := { c.timeoutWatcher with init := none } }
    let block := alloc t.brk
    (some t.brk, { t.write t.brk (some c) (some block.hhIp) (some block.hhGuid) with brk := t.brk + 1 })

def findClient (ip : UInt32) (t : UtClientTable) : Option (Option Handle) :=
  t.gClientsIp.hashFind hash (ipField t.heap) fuel (leBytes ip)

def findClientByGuid (guid : List UInt8) (t : UtClientTable) : Option (Option Handle) :=
  t.gClientsGuid.hashFind hash (guidField t.heap) fuel (cString guid)

def drop (s : Handle) (t : UtClientTable) : Option UtClientTable := do
  let gClientsIp ← t.gClientsIp.hashDelete s
  let gClientsGuid ← t.gClientsGuid.hashDelete s
  some ({ t with gClientsIp, gClientsGuid }.free s)

def getClientsCount (t : UtClientTable) : Option Int32 := t.gClientsIp.hashCnt.map UInt32.toInt32

section Reclaim

variable {ρ : Type} (serverReclaimIp : ρ → UInt32 → Option ρ)

def deleteClientByIp (ip : UInt32) (reclaimIp : Bool) (pool : ρ) (t : UtClientTable) :
    Option (ρ × UtClientTable) := do
  match ← t.findClient hash fuel ip with
  | none => some (pool, t)
  | some s => do
    let c ← t.heap s
    let pool ← if reclaimIp then serverReclaimIp pool c.ip else some pool
    let t ← t.drop s
    some (pool, t)

def addClient (alloc : Handle → UtAlloc) (client : Option Handle) (pool : ρ) (t : UtClientTable) :
    Option (Bool × ρ × UtClientTable) :=
  match client with
  | none => some (false, pool, t)
  | some h => do
    let c ← t.heap h
    match ← t.findClientByGuid hash fuel c.guid with
    | some _ => some (false, pool, t)
    | none => do
      let (pool, t) ← deleteClientByIp hash fuel serverReclaimIp c.ip false pool t
      let gClientsGuid ←
        t.gClientsGuid.hashAdd hash (guidField t.heap) fuel (alloc h).mem (cString c.guid).length h
      let gClientsIp ← t.gClientsIp.hashAdd hash (ipField t.heap) fuel (alloc h).mem 4 h
      some (true, pool, { t with gClientsGuid, gClientsIp })

def deleteClient (s : Option Handle) (pool : ρ) (t : UtClientTable) : Option (ρ × UtClientTable) :=
  match s with
  | none => some (pool, t)
  | some s => do
    let c ← t.heap s
    let pool ← serverReclaimIp pool c.ip
    let t ← t.drop s
    some (pool, t)

end Reclaim

def deleteCurrent (cur : Handle) (t : UtClientTable) : Option UtClientTable := do
  let gClientsIp ← t.gClientsIp.hashDelete cur
  some ({ t with gClientsIp }.free cur)

def deleteAllClients (t : UtClientTable) : Option UtClientTable := do
  let gClientsGuid ← t.gClientsGuid.hashClear
  let t := { t with gClientsGuid }
  UtHash.hashIter (fun t el => (t.gClientsIp.hh el).map UtHashHandle.next) deleteCurrent fuel
    t.gClientsIp.head t

end UtClientTable

structure UtClients (ρ : Type) where
  pool : ρ
  table : UtClientTable

def utClientStep {ρ : Type} (hash : List UInt8 → UInt32) (fuel : Nat) (alloc : Handle → UtAlloc)
    (reclaim : ρ → UInt32 → ρ) (s : UtClients ρ) : ClientOp → Option (UtClients ρ)
  | .newClient mem => some { s with table := (s.table.newClient alloc mem).2 }
  | .addClient client => do
    let (_, pool, table) ← s.table.addClient hash fuel (reclaimIp reclaim) alloc client s.pool
    some { pool, table }
  | .deleteClient h => do
    let (pool, table) ← s.table.deleteClient (reclaimIp reclaim) h s.pool
    some { pool, table }
  | .deleteClientByIp ip flag => do
    let (pool, table) ← s.table.deleteClientByIp hash fuel (reclaimIp reclaim) ip flag s.pool
    some { pool, table }
  | .deleteAllClients => do
    let table ← s.table.deleteAllClients fuel
    some { s with table }

/-- Neither of the tables has outgrown its counters. -/
def UtClientTable.Small (t : UtClientTable) : Prop := t.gClientsIp.Small ∧ t.gClientsGuid.Small

instance (t : UtClientTable) : Decidable t.Small := inferInstanceAs (Decidable (_ ∧ _))

/-- The functions of `client.c` answer from the hash tables what they answer from the indexes, the
records are the same, `HASH_ITER` goes through both tables in the order of the indexes, and the integrity
check of the library passes on both. -/
structure UtClientTable.Answers (hash : List UInt8 → UInt32) (fuel : Nat) (t : UtClientTable)
    (s : ClientTable) : Prop where
  heap : t.heap = s.heap
  brk : t.brk = s.brk
  findClient : ∀ ip, t.findClient hash fuel ip = some (s.findClient ip)
  findClientByGuid : ∀ guid, t.findClientByGuid hash fuel guid = some (s.findClientByGuid guid)
  count : t.getClientsCount.map Int32.toInt = some (s.getClientsCount : Int)
  visit : t.gClientsIp.hashVisit fuel = some (s.gClientsIp.entries.map Prod.snd).reverse ∧
    t.gClientsGuid.hashVisit fuel = some (s.gClientsGuid.entries.map Prod.snd).reverse
  fsck : t.gClientsIp.hashFsck fuel = some () ∧ t.gClientsGuid.hashFsck fuel = some ()
  tables : (∀ a u, t.gClientsIp.tables a = some u → t.gClientsIp.tbl = some (a, u)) ∧
    ∀ a u, t.gClientsGuid.tables a = some u → t.gClientsGuid.tbl = some (a, u)

end TunnelServer
