import Mathlib.Data.Finset.Card
import TunnelServer.Client
import TunnelServer.Lib.Run

/-!
# Sequences of registry calls

The functions of `client.c` on their own, in any order. `server_reclaim_ip` acts on a pool of some type
and on nothing else.
-/

namespace TunnelServer

/-- A call. What `newClient` carries is the block as its caller has filled it in. -/
inductive ClientOp
  | newClient (mem : Option Client)
  | addClient (client : Option Handle)
  | deleteClient (s : Option Handle)
  | deleteClientByIp (ip : UInt32) (reclaimIp : Bool)
  | deleteAllClients

structure Clients (ρ : Type) where
  pool : ρ
  table : ClientTable

section Calls

variable {ρ : Type} (reclaim : ρ → UInt32 → ρ)

/-- `server_reclaim_ip` as the functions that call it expect it. -/
def reclaimIp (pool : ρ) (ip : UInt32) : Option ρ := some (reclaim pool ip)

def clientStep (s : Clients ρ) : ClientOp → Option (Clients ρ)
  | .newClient mem => some { s with table := (s.table.newClient mem).2 }
  | .addClient client => do
    let (_, pool, table) ← ClientTable.addClient (reclaimIp reclaim) client s.pool s.table
    some { pool, table }
  | .deleteClient h => do
    let (pool, table) ← ClientTable.deleteClient (reclaimIp reclaim) h s.pool s.table
    some { pool, table }
  | .deleteClientByIp ip flag => do
    let (pool, table) ← ClientTable.deleteClientByIp (reclaimIp reclaim) ip flag s.pool s.table
    some { pool, table }
  | .deleteAllClients => some { s with table := s.table.deleteAllClients }

end Calls

def ClientTable.Fresh (t : ClientTable) (h : Handle) : Prop :=
  (t.heap h).isSome ∧ ¬ ∃ c, t.Registered h c

/-- `add_client` is called on fresh records and `delete_client` on registered ones. -/
def CallFits {ρ : Type} (m : Clients ρ × ClientOp) : Prop :=
  match m.2 with
  | .addClient (some h) => m.1.table.Fresh h
  | .deleteClient (some h) => ∃ c, m.1.table.Registered h c
  | _ => True

instance (t : ClientTable) (h : Handle) : Decidable (t.Fresh h) :=
  inferInstanceAs (Decidable (_ ∧ ¬ _))

instance {ρ : Type} (m : Clients ρ × ClientOp) : Decidable (CallFits m) :=
  match m with
  | (s, .addClient (some h)) => inferInstanceAs (Decidable (s.table.Fresh h))
  | (s, .deleteClient (some h)) => inferInstanceAs (Decidable (∃ c, s.table.Registered h c))
  | (_, .newClient _) | (_, .addClient none) | (_, .deleteClient none) | (_, .deleteClientByIp ..)
  | (_, .deleteAllClients) => .isTrue trivial

/-- The two tables hold the same records and lead to each of them by its own two keys. -/
structure ClientTable.IndexesAgree (t : ClientTable) : Prop where
  same : ∀ h, h ∈ t.gClientsIp.entries.map Prod.snd ↔ h ∈ t.gClientsGuid.entries.map Prod.snd
  registered : ∀ h, h ∈ t.gClientsIp.entries.map Prod.snd ↔ ∃ c, t.Registered h c
  distinct : ∀ h h' c c', t.Registered h c → t.Registered h' c' →
    c.ip = c'.ip ∨ cString c.guid = cString c'.guid → h = h'
  byGuid : ∀ g h, t.findClientByGuid g = some h ↔
    ∃ c, t.Registered h c ∧ cString c.guid = cString g
  byIp : ∀ g h, t.findClientByGuid g = some h → ∃ c, t.heap h = some c ∧ t.findClient c.ip = some h
  count : t.getClientsCount = t.gClientsGuid.keys.toFinset.card
  guids : ∀ g, g ∈ t.gClientsGuid.keys ↔ ∃ h c, t.Registered h c ∧ cString c.guid = g

/-- What `add_client` does with any fresh record: it fails and changes nothing when the GUID is
registered, and otherwise trades the holder of the record's address for the record. -/
def AddsExactly {ρ : Type} (reclaim : ρ → UInt32 → ρ) (s : Clients ρ) : Prop :=
  ∀ h c, s.table.heap h = some c → s.table.Fresh h →
    ((∃ k d, s.table.Registered k d ∧ cString d.guid = cString c.guid) →
      ClientTable.addClient (reclaimIp reclaim) (some h) s.pool s.table =
        some (false, s.pool, s.table)) ∧
      ((¬ ∃ k d, s.table.Registered k d ∧ cString d.guid = cString c.guid) →
        ∃ t, ClientTable.addClient (reclaimIp reclaim) (some h) s.pool s.table =
            some (true, s.pool, t) ∧
          ∀ k d, t.Registered k d ↔
            (k = h ∧ d = c) ∨ (s.table.Registered k d ∧ d.ip ≠ c.ip))

/-- A second client takes the address of the first; a third comes with the GUID of the second. -/
def takingOver : List ClientOp :=
  [.newClient (some { zeroedClient with guid := [0x61, 0], ip := 1 }), .addClient (some 0),
    .newClient (some { zeroedClient with guid := [0x62, 0], ip := 1 }), .addClient (some 1),
    .newClient (some { zeroedClient with guid := [0x62, 0], ip := 2 }), .addClient (some 2),
    .deleteClientByIp 3 true, .deleteClient (some 1), .addClient (some 2)]

end TunnelServer
