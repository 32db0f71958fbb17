import Mathlib.Algebra.Order.Field.Rat
import TunnelServer.Lib.CMemory
import TunnelServer.Lib.HashIndex

/-!
# Client records and their two indexes: `client.c`

A client record is a block of heap memory named by a handle. `heap` maps the live blocks to their
contents: a freed block has none, and a function that would touch one returns `none`. `malloc` never
returns a handle twice, so a handle names one record for the whole run.

`g_clients_ip` and `g_clients_guid` are uthash tables over the same records, keyed by the address in
network order and by the bytes of the GUID before its NUL. The functions that give an address back
call `server_reclaim_ip`; here that is a parameter acting on a pool of any type.
-/

namespace TunnelServer

abbrev Handle := Nat

inductive ClientState
  | connect
  | connectDone
deriving DecidableEq

inductive TimerCb
  | timeoutCb
  | timeoutCbDeleteClient
deriving DecidableEq

/-- A `sockaddr_storage` with the `socklen_t` kept beside it. -/
structure SockAddr where
  storage : List UInt8
  len : UInt32
deriving DecidableEq

/-- A watcher: its `data` pointer and what the last `ev_timer_init` of this record's lifetime wrote,
the callback and the delay. -/
structure EvTimer where
  data : Option Handle
  init : Option (TimerCb × ℚ)
deriving DecidableEq

structure Client where
  guid : List UInt8
  ip : UInt32
  sid : UInt8
  srcAddr : SockAddr
  timeoutWatcher : EvTimer
  resendCounter : UInt8
  version : UInt8
  state : ClientState
  ts : ℚ
deriving DecidableEq

def zeroedClient : Client where
  guid := List.replicate 60 0
  ip := 0
  sid := 0
  srcAddr := { storage := [], len := 0 }
  timeoutWatcher := { data := none, init := none }
  resendCounter := 0
  version := 0
  state := .connect
  ts := 0

def CLIENT_TIMEOUT_TO_DELETE : ℚ := 3600 * 24 * 2

def CLIENT_EXPAND_TIMEOUT_TIME : ℚ := 3600

/-- The memory of `client.c`: the live records, the next handle `malloc` returns and the tables. -/
structure ClientTable where
  heap : Handle → Option Client
  brk : Handle
  gClientsIp : HashIndex UInt32 Handle
  gClientsGuid : HashIndex (List UInt8) Handle

namespace ClientTable

def empty : ClientTable := ⟨fun _ => none, 0, .empty, .empty⟩

def set (t : ClientTable) (h : Handle) (c : Client) : ClientTable :=
  { t with heap := Function.update t.heap h (some c) }

def free (t : ClientTable) (h : Handle) : ClientTable :=
  { t with heap := Function.update t.heap h none }

/-- `new_client`: `mem` is what the block holds when `malloc` succeeds. Whatever bytes are there, the
watcher among them has not been initialised. -/
def newClient (mem : Option Client) (t : ClientTable) : Option Handle × ClientTable :=
  match mem with
  | none => (none, t)
  | some c =>
    let c := { c with timeoutWatcher := { c.timeoutWatcher with init := none } }
    (some t.brk, { t with heap := Function.update t.heap t.brk (some c), brk := t.brk + 1 })

def findClient (t : ClientTable) (ip : UInt32) : Option Handle := t.gClientsIp.find ip

def findClientByGuid (t : ClientTable) (guid : List UInt8) : Option Handle :=
  t.gClientsGuid.find (cString guid)

/-- A live record that the table by address leads to. -/
def Registered (t : ClientTable) (h : Handle) (c : Client) : Prop :=
  t.heap h = some c ∧ t.findClient c.ip = some h

instance (t : ClientTable) (h : Handle) : Decidable (∃ c, t.Registered h c) :=
  decidable_of_iff ((t.heap h).any (fun c => decide (t.findClient c.ip = some h)) = true)
    (by simp [Registered, Option.any_eq_true])

def drop (t : ClientTable) (s : Handle) : ClientTable :=
  { t with gClientsIp := t.gClientsIp.delete s, gClientsGuid := t.gClientsGuid.delete s }.free s

def getClientsCount (t : ClientTable) : Nat := t.gClientsIp.count

section Reclaim

variable {ρ : Type} (serverReclaimIp : ρ → UInt32 → Option ρ)

def deleteClientByIp (ip : UInt32) (reclaimIp : Bool) (pool : ρ) (t : ClientTable) :
    Option (ρ × ClientTable) :=
  match t.findClient ip with
  | none => some (pool, t)
  | some s => do
    let c ← t.heap s
    let pool ← if reclaimIp then serverReclaimIp pool c.ip else some pool
    some (pool, t.drop s)

def addClient (client : Option Handle) (pool : ρ) (t : ClientTable) :
    Option (Bool × ρ × ClientTable) :=
  match client with
  | none => some (false, pool, t)
  | some h => do
    let c ← t.heap h
    match t.findClientByGuid c.guid with
    | some _ => some (false, pool, t)
    | none =>
      let (pool, t) ← deleteClientByIp serverReclaimIp c.ip false pool t
      some (true, pool,
        { t with
          gClientsGuid := t.gClientsGuid.add (cString c.guid) h
          gClientsIp := t.gClientsIp.add c.ip h })

def deleteClient (s : Option Handle) (pool : ρ) (t : ClientTable) : Option (ρ × ClientTable) :=
  match s with
  | none => some (pool, t)
  | some s => do
    let c ← t.heap s
    let pool ← serverReclaimIp pool c.ip
    some (pool, t.drop s)

end Reclaim

/-- `delete_all_clients`: clear the GUID table, then walk the other one in the order of insertion. -/
def deleteAllClients (t : ClientTable) : ClientTable :=
  t.gClientsIp.entries.reverse.foldl
    (fun t e => { t with gClientsIp := t.gClientsIp.delete e.2 }.free e.2)
    { t with gClientsGuid := .empty }

end ClientTable

end TunnelServer
