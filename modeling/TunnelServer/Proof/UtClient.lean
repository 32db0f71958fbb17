import TunnelServer.UtClient
import TunnelServer.Proof.ClientRuns
import TunnelServer.Proof.HashRuns

/-!
# `client.c` over `uthash.h` is `client.c` over two indexes

`Refines` ties the memory with the hash tables to the memory with the indexes: the same records, the two
tables represent the two indexes, and a record is allocated together with both of its handles. A function
that fits keeps it. Nothing has to be known about the handles of a record that is not in a table.
-/

namespace TunnelServer

open ClientTable UtHash

theorem ClientTable.count_drop_le {s : ClientTable} (h : Handle) :
    (s.drop h).gClientsIp.count ≤ s.gClientsIp.count :=
  List.length_filter_le _ _

theorem ClientTable.count_evict_le {s : ClientTable} (ip : UInt32) :
    (s.evict ip).gClientsIp.count ≤ s.gClientsIp.count := by
  unfold evict
  split
  · exact Nat.le_refl _
  · exact count_drop_le _

theorem ClientTable.count_deleteAllClients_le {s : ClientTable} :
    s.deleteAllClients.gClientsIp.count ≤ s.gClientsIp.count := by
  suffices hwalk : ∀ (l : List (UInt32 × Handle)) (s : ClientTable),
      (l.foldl (fun t e => { t with gClientsIp := t.gClientsIp.delete e.2 }.free e.2) s).gClientsIp.count
        ≤ s.gClientsIp.count from
    hwalk _ _
  intro l
  induction l with
  | nil => exact fun s => Nat.le_refl _
  | cons e l ih => exact fun s => (ih _).trans (List.length_filter_le _ _)

namespace UtClientTable

variable {hash : List UInt8 → UInt32} {fuel : Nat} {t : UtClientTable} {s : ClientTable}
  {h : Handle} {c : Client}

theorem Small.newClient (hs : t.Small) (alloc : Handle → UtAlloc) (mem : Option Client) :
    (t.newClient alloc mem).2.Small := by
  cases mem with
  | none => exact hs
  | some c => exact hs

structure Refines (hash : List UInt8 → UInt32) (t : UtClientTable) (s : ClientTable) : Prop where
  heap : t.heap = s.heap
  brk : t.brk = s.brk
  ip : Represents hash (ipField t.heap) t.gClientsIp (s.gClientsIp.mapKeys leBytes)
  guid : Represents hash (guidField t.heap) t.gClientsGuid s.gClientsGuid
  ipLive : ∀ h, (t.gClientsIp.hh h).isSome = (t.heap h).isSome
  guidLive : ∀ h, (t.gClientsGuid.hh h).isSome = (t.heap h).isSome

theorem refines_empty (hash : List UInt8 → UInt32) : Refines hash .empty .empty where
  heap := rfl
  brk := rfl
  ip := represents_empty hash _ (fun _ => rfl) rfl
  guid := represents_empty hash _ (fun _ => rfl) rfl
  ipLive := fun _ => rfl
  guidLive := fun _ => rfl

/-! ### Reading -/

theorem ipField_eq {heap : Handle → Option Client} (hc : heap h = some c) :
    ipField heap h = leBytes c.ip := by
  rw [ipField, hc]

theorem guidField_eq {heap : Handle → Option Client} (hc : heap h = some c) :
    guidField heap h = c.guid := by
  rw [guidField, hc]

theorem ipField_update (heap : Handle → Option Client) (c : Option Client) {h k : Handle}
    (hne : k ≠ h) : ipField (Function.update heap h c) k = ipField heap k := by
  rw [ipField, Function.update_of_ne hne]
  rfl

theorem guidField_update (heap : Handle → Option Client) (c : Option Client) {h k : Handle}
    (hne : k ≠ h) : guidField (Function.update heap h c) k = guidField heap k := by
  rw [guidField, Function.update_of_ne hne]
  rfl

namespace Refines

variable (hr : Refines hash t s)
include hr

theorem findClient_eq (hfuel : s.gClientsIp.count ≤ fuel) (ip : UInt32) :
    t.findClient hash fuel ip = some (s.findClient ip) := by
  have hfind := hr.ip.hashFind ((HashIndex.count_mapKeys _ _).trans_le hfuel) (leBytes ip)
  rw [HashIndex.find_mapKeys leBytes_injective] at hfind
  exact hfind

theorem findClientByGuid_eq (hfuel : s.gClientsGuid.count ≤ fuel) (guid : List UInt8) :
    t.findClientByGuid hash fuel guid = some (s.findClientByGuid guid) :=
  hr.guid.hashFind hfuel (cString guid)

/-- Counters this small fit the `int` that the count is returned in. -/
theorem getClientsCount_eq (hs : t.Small) :
    t.getClientsCount.map Int32.toInt = some (s.getClientsCount : Int) := by
  have hcnt := hr.ip.hashCnt
  have hlt := hr.ip.count_lt hs.1
  rw [HashIndex.count_mapKeys] at hcnt hlt
  obtain ⟨count, hread, hcount⟩ := Option.map_eq_some_iff.1 hcnt
  rw [UtClientTable.getClientsCount, hread, Option.map_some, Option.map_some,
    toInt_toInt32_of_lt (by omega), hcount]
  rfl

theorem answers (ha : s.Agree) (hs : t.Small) (hfuel : s.gClientsIp.count ≤ fuel) :
    t.Answers hash fuel s where
  heap := hr.heap
  brk := hr.brk
  findClient := hr.findClient_eq hfuel
  findClientByGuid := hr.findClientByGuid_eq (ha.count_eq ▸ hfuel)
  count := hr.getClientsCount_eq hs
  visit := by
    have hip := hr.ip.hashVisit ((HashIndex.count_mapKeys _ _).trans_le hfuel)
    rw [HashIndex.map_snd_mapKeys] at hip
    exact ⟨hip, hr.guid.hashVisit (ha.count_eq ▸ hfuel)⟩
  fsck := ⟨hr.ip.hashFsck ((HashIndex.count_mapKeys _ _).trans_le hfuel),
    hr.guid.hashFsck (ha.count_eq ▸ hfuel)⟩
  tables := ⟨fun _ _ => hr.ip.tbl_of_tables, fun _ _ => hr.guid.tbl_of_tables⟩

/-! ### Writing -/

theorem write (hip : h ∉ s.gClientsIp.entries.map Prod.snd)
    (hguid : h ∉ s.gClientsGuid.entries.map Prod.snd) (c : Option Client)
    (hhIp hhGuid : Option UtHashHandle) (hipLive : hhIp.isSome = c.isSome)
    (hguidLive : hhGuid.isSome = c.isSome) :
    Refines hash (t.write h c hhIp hhGuid) { s with heap := Function.update s.heap h c } where
  heap := by rw [← hr.heap]; rfl
  brk := hr.brk
  ip := hr.ip.frame (by rwa [HashIndex.map_snd_mapKeys]) hhIp fun _ hne => ipField_update _ c hne
  guid := hr.guid.frame hguid hhGuid fun _ hne => guidField_update _ c hne
  ipLive := by
    intro k
    show (Function.update t.gClientsIp.hh h hhIp k).isSome = (Function.update t.heap h c k).isSome
    by_cases hk : k = h
    · rw [hk, Function.update_self, Function.update_self, hipLive]
    · rw [Function.update_of_ne hk, Function.update_of_ne hk, hr.ipLive]
  guidLive := by
    intro k
    show (Function.update t.gClientsGuid.hh h hhGuid k).isSome = (Function.update t.heap h c k).isSome
    by_cases hk : k = h
    · rw [hk, Function.update_self, Function.update_self, hguidLive]
    · rw [Function.update_of_ne hk, Function.update_of_ne hk, hr.guidLive]

theorem setBrk (brk : Handle) : Refines hash { t with brk } { s with brk } :=
  { hr with brk := rfl }

theorem newClient (ha : s.Agree) (alloc : Handle → UtAlloc) (mem : Option Client) :
    (t.newClient alloc mem).1 = (s.newClient mem).1 ∧
      Refines hash (t.newClient alloc mem).2 (s.newClient mem).2 := by
  cases mem with
  | none => exact ⟨rfl, hr⟩
  | some c =>
      have hnot := ha.not_found_of_brk_le (Nat.le_refl s.brk)
      have hip : s.brk ∉ s.gClientsIp.entries.map Prod.snd := by
        intro hmem
        obtain ⟨c, hreg⟩ := ha.mem_ip.1 hmem
        exact hnot.1 _ hreg.2
      have hguid : s.brk ∉ s.gClientsGuid.entries.map Prod.snd := by
        intro hmem
        obtain ⟨c, hreg⟩ := ha.mem_guid.1 hmem
        exact hnot.1 _ hreg.2
      refine ⟨congrArg some hr.brk, ?_⟩
      have hwrite := hr.write hip hguid
        (some { c with timeoutWatcher := { c.timeoutWatcher with init := none } })
        (some (alloc s.brk).hhIp) (some (alloc s.brk).hhGuid) rfl rfl
      simp only [UtClientTable.newClient, ClientTable.newClient, hr.brk]
      exact hwrite.setBrk (s.brk + 1)

theorem drop (ha : s.Agree) (hreg : s.Registered h c) :
    ∃ u, t.drop h = some u ∧ Refines hash u (s.drop h) ∧ (t.Small → u.Small) := by
  have hmemIp : h ∈ (s.gClientsIp.mapKeys leBytes).entries.map Prod.snd := by
    rw [HashIndex.map_snd_mapKeys]
    exact ha.mem_ip.2 ⟨c, hreg⟩
  obtain ⟨mIp, hdeleteIp, hipRep, hipLive, hipSmall⟩ := hr.ip.hashDelete hmemIp
  obtain ⟨mGuid, hdeleteGuid, hguidRep, hguidLive, hguidSmall⟩ :=
    hr.guid.hashDelete (ha.mem_guid.2 ⟨c, hreg⟩)
  rw [← HashIndex.mapKeys_delete] at hipRep
  have hrefines : Refines hash { t with gClientsIp := mIp, gClientsGuid := mGuid }
      { s with gClientsIp := s.gClientsIp.delete h, gClientsGuid := s.gClientsGuid.delete h } :=
    ⟨hr.heap, hr.brk, hipRep, hguidRep, fun k => (hipLive k).trans (hr.ipLive k),
      fun k => (hguidLive k).trans (hr.guidLive k)⟩
  refine ⟨_, ?_, hrefines.write (h := h) ?_ ?_ none none none rfl rfl,
    fun hs => ⟨hipSmall hs.1, hguidSmall hs.2⟩⟩
  · simp only [UtClientTable.drop, hdeleteIp, hdeleteGuid, Option.bind_eq_bind, Option.bind_some]
    rfl
  · simp [HashIndex.delete]
  · simp [HashIndex.delete]

theorem hashAdds (ha : s.Agree) (hs : t.Small) (hc : s.heap h = some c) (hnew : ¬ ∃ d, s.Registered h d)
    (hguid : s.gClientsGuid.find (cString c.guid) = none) (hip : s.findClient c.ip = none)
    (hfuel : s.gClientsIp.count < fuel) :
    ∃ mGuid mIp,
      t.gClientsGuid.hashAdd hash (guidField t.heap) fuel true (cString c.guid).length h = some mGuid ∧
      t.gClientsIp.hashAdd hash (ipField t.heap) fuel true 4 h = some mIp ∧
      Refines hash { t with gClientsGuid := mGuid, gClientsIp := mIp }
        { s with
          gClientsGuid := s.gClientsGuid.add (cString c.guid) h
          gClientsIp := s.gClientsIp.add c.ip h } := by
  have hcT : t.heap h = some c := by rw [hr.heap, hc]
  have hliveGuid : ∃ r, t.gClientsGuid.hh h = some r := by
    rw [← Option.isSome_iff_exists, hr.guidLive, hcT]
    rfl
  have hliveIp : ∃ r, t.gClientsIp.hh h = some r := by
    rw [← Option.isSome_iff_exists, hr.ipLive, hcT]
    rfl
  have hguidKey : (guidField t.heap h).take (cString c.guid).length = cString c.guid := by
    rw [guidField_eq hcT, take_length_cString]
  have hguidLen : (cString c.guid).length ≤ (guidField t.heap h).length := by
    rw [guidField_eq hcT]
    exact (List.takeWhile_prefix _).length_le
  have hipKey : (ipField t.heap h).take 4 = leBytes c.ip := by
    rw [ipField_eq hcT]
    rfl
  have hipLen : 4 ≤ (ipField t.heap h).length := by
    rw [ipField_eq hcT]
    rfl
  have hipFree : (s.gClientsIp.mapKeys leBytes).find (leBytes c.ip) = none := by
    rw [HashIndex.find_mapKeys leBytes_injective]
    exact hip
  obtain ⟨mGuid, haddGuid, hguidRep, hguidLive⟩ := hr.guid.hashAdd hs.2 hliveGuid
    (fun hmem => hnew (ha.mem_guid.1 hmem)) hguidLen (by rw [hguidKey]; exact hguid)
    (ha.count_eq ▸ hfuel)
  obtain ⟨mIp, haddIp, hipRep, hipLive⟩ := hr.ip.hashAdd hs.1 hliveIp
    (fun hmem => hnew (ha.mem_ip.1 (by rwa [HashIndex.map_snd_mapKeys] at hmem))) hipLen
    (by rw [hipKey]; exact hipFree) ((HashIndex.count_mapKeys _ _).trans_lt hfuel)
  rw [hguidKey] at hguidRep
  rw [hipKey, ← HashIndex.mapKeys_add] at hipRep
  exact ⟨mGuid, mIp, haddGuid, haddIp, hr.heap, hr.brk, hipRep, hguidRep,
    fun k => (hipLive k).trans (hr.ipLive k), fun k => (hguidLive k).trans (hr.guidLive k)⟩

/-! ### The functions -/

section Reclaim

variable {ρ : Type} (reclaim : ρ → UInt32 → Option ρ) (pool : ρ)

theorem deleteClient (ha : s.Agree) (hreg : s.Registered h c) {pool' : ρ}
    (hreclaim : reclaim pool c.ip = some pool') :
    ∃ u, t.deleteClient reclaim (some h) pool = some (pool', u) ∧ Refines hash u (s.drop h) := by
  obtain ⟨u, hdrop, hru, -⟩ := hr.drop ha hreg
  have hc : t.heap h = some c := by rw [hr.heap, hreg.1]
  exact ⟨u, by simp [UtClientTable.deleteClient, hc, hreclaim, hdrop], hru⟩

theorem deleteClientByIp_keep (ha : s.Agree) (hfuel : s.gClientsIp.count ≤ fuel) (ip : UInt32) :
    ∃ u, t.deleteClientByIp hash fuel reclaim ip false pool = some (pool, u) ∧
      Refines hash u (s.evict ip) ∧ (t.Small → u.Small) := by
  have hfind := hr.findClient_eq hfuel ip
  cases hholder : s.findClient ip with
  | none =>
      rw [hholder] at hfind
      exact ⟨t, by simp [UtClientTable.deleteClientByIp, hfind], by rwa [evict, hholder], id⟩
  | some k =>
      obtain ⟨c, hreg, -⟩ := ha.registered_of_findClient hholder
      obtain ⟨u, hdrop, hru, hsmall⟩ := hr.drop ha hreg
      have hc : t.heap k = some c := by rw [hr.heap, hreg.1]
      rw [hholder] at hfind
      refine ⟨u, ?_, by rwa [evict, hholder], hsmall⟩
      simp [UtClientTable.deleteClientByIp, hfind, hc, hdrop]

theorem deleteClientByIp_reclaim (ha : s.Agree) (hfuel : s.gClientsIp.count ≤ fuel) {ip : UInt32}
    (hholder : s.findClient ip = some h) {pool' : ρ} (hreclaim : reclaim pool ip = some pool') :
    ∃ u, t.deleteClientByIp hash fuel reclaim ip true pool = some (pool', u) ∧
      Refines hash u (s.drop h) := by
  have hfind := hr.findClient_eq hfuel ip
  rw [hholder] at hfind
  obtain ⟨c, hreg, rfl⟩ := ha.registered_of_findClient hholder
  obtain ⟨u, hdrop, hru, -⟩ := hr.drop ha hreg
  have hc : t.heap h = some c := by rw [hr.heap, hreg.1]
  exact ⟨u, by simp [UtClientTable.deleteClientByIp, hfind, hc, hreclaim, hdrop], hru⟩

theorem addClient_known (alloc : Handle → UtAlloc) (hfuel : s.gClientsGuid.count ≤ fuel)
    (hc : s.heap h = some c) {k : Handle} (hfind : s.findClientByGuid c.guid = some k) :
    t.addClient hash fuel reclaim alloc (some h) pool = some (false, pool, t) := by
  have hknown := hr.findClientByGuid_eq hfuel c.guid
  rw [hfind] at hknown
  rw [← hr.heap] at hc
  simp [UtClientTable.addClient, hc, hknown]

theorem addClient_new {alloc : Handle → UtAlloc} (hmem : (alloc h).mem = true) (ha : s.Agree)
    (hs : t.Small) (hf : s.Fresh h) (hfuel : s.gClientsIp.count < fuel) (hc : s.heap h = some c)
    (hfind : s.findClientByGuid c.guid = none) :
    ∃ u, t.addClient hash fuel reclaim alloc (some h) pool = some (true, pool, u) ∧
      Refines hash u (s.register h c) := by
  have hunknown := hr.findClientByGuid_eq (ha.count_eq ▸ Nat.le_of_lt hfuel) c.guid
  rw [hfind] at hunknown
  obtain ⟨v, hevict, hrv, hsmall⟩ := hr.deleteClientByIp_keep reclaim pool ha (Nat.le_of_lt hfuel) c.ip
  have hlive : (s.evict c.ip).heap h = some c := by
    rw [evict_heap, if_neg (hf.not_found ha c.ip), hc]
  have hnew : ¬ ∃ d, (s.evict c.ip).Registered h d := by
    intro ⟨d, hreg⟩
    exact hf.not_found ha _ ((findClient_evict_eq_some ha).1 hreg.2).1
  have hguid : (s.evict c.ip).gClientsGuid.find (cString c.guid) = none := by
    rw [Option.eq_none_iff_forall_ne_some]
    intro k hk
    have hold := ((findGuid_evict_eq_some ha).1 hk).1
    change s.gClientsGuid.find (cString c.guid) = none at hfind
    rw [hfind] at hold
    cases hold
  -- the holder of the address is gone by now, so that both keys are free
  obtain ⟨mGuid, mIp, haddGuid, haddIp, hru⟩ := hrv.hashAdds (ha.evict c.ip) (hsmall hs) hlive
    hnew hguid
    (findClient_evict_self ha c.ip) ((count_evict_le c.ip).trans_lt hfuel)
  have hcT : t.heap h = some c := by rw [hr.heap, hc]
  refine ⟨_, ?_, hru⟩
  simp [UtClientTable.addClient, hcT, hmem, hunknown, hevict, haddGuid, haddIp]

end Reclaim

/-- The loop of `delete_all_clients`: what is left of the table is what is still to be walked. -/
theorem deleteCurrents (l : List (UInt32 × Handle)) (hguid : s.gClientsGuid = .empty)
    (hentries : s.gClientsIp.entries.reverse = l) (hnodup : (l.map Prod.snd).Nodup)
    (hfuel : l.length ≤ fuel) :
    ∃ u, hashIter (fun t el => (t.gClientsIp.hh el).map UtHashHandle.next) deleteCurrent fuel
        t.gClientsIp.head t = some u ∧
      Refines hash u
        (l.foldl (fun t e => { t with gClientsIp := t.gClientsIp.delete e.2 }.free e.2) s) := by
  have hhead := hr.ip.head_eq
  rw [HashIndex.map_snd_mapKeys, ← List.map_reverse, hentries] at hhead
  induction l generalizing t s fuel with
  | nil =>
      rw [hhead]
      exact ⟨t, by cases fuel <;> rfl, hr⟩
  | cons e l ih =>
      obtain ⟨fuel, rfl⟩ : ∃ n, fuel = n + 1 := ⟨fuel - 1, by simp at hfuel; omega⟩
      rw [List.map_cons, List.nodup_cons] at hnodup
      have hsplit : s.gClientsIp.entries = l.reverse ++ [e] := by
        rw [← List.reverse_reverse s.gClientsIp.entries, hentries, List.reverse_cons]
      have hnext : (t.gClientsIp.hh e.2).map UtHashHandle.next = some (l.map Prod.snd).head? := by
        refine hr.ip.next_eq ?_
        rw [HashIndex.map_snd_mapKeys, ← List.map_reverse, hentries, List.map_cons]
      have hmem : e.2 ∈ (s.gClientsIp.mapKeys leBytes).entries.map Prod.snd := by
        rw [HashIndex.map_snd_mapKeys, hsplit]
        simp
      obtain ⟨mIp, hdelete, hipRep, hipLive, -⟩ := hr.ip.hashDelete hmem
      rw [← HashIndex.mapKeys_delete] at hipRep
      have hrest : (s.gClientsIp.delete e.2).entries.reverse = l := by
        have hkeep : ∀ p ∈ l.reverse, decide (p.2 ≠ e.2) = true := by
          intro p hp
          rw [decide_eq_true_eq]
          intro heq
          exact hnodup.1 (List.mem_map.2 ⟨p, List.mem_reverse.1 hp, heq⟩)
        rw [HashIndex.delete, hsplit, List.filter_append, List.filter_eq_self.2 hkeep]
        simp
      have hdeleted : Refines hash { t with gClientsIp := mIp }
          { s with gClientsIp := s.gClientsIp.delete e.2 } :=
        ⟨hr.heap, hr.brk, hipRep, hr.guid, fun k => (hipLive k).trans (hr.ipLive k), hr.guidLive⟩
      have hfreed : Refines hash ({ t with gClientsIp := mIp }.free e.2)
          ({ s with gClientsIp := s.gClientsIp.delete e.2 }.free e.2) := by
        refine hdeleted.write (h := e.2) ?_ ?_ none none none rfl rfl
        · simp [HashIndex.delete]
        · rw [hguid]
          simp [HashIndex.empty]
      have hheadRest := hfreed.ip.head_eq
      have hentriesRest : ({ s with gClientsIp := s.gClientsIp.delete e.2 }.free
          e.2).gClientsIp.entries.reverse = l := hrest
      rw [HashIndex.map_snd_mapKeys, ← List.map_reverse, hentriesRest] at hheadRest
      obtain ⟨u, hiter, hru⟩ := ih hfreed hguid hrest hnodup.2 (Nat.le_of_succ_le_succ hfuel) hheadRest
      refine ⟨u, ?_, hru⟩
      rw [hheadRest] at hiter
      rw [hhead, List.map_cons, List.head?_cons, hashIter, hnext]
      simp only [deleteCurrent, hdelete, Option.bind_eq_bind, Option.bind_some]
      exact hiter

theorem deleteAllClients (ha : s.Agree) (hfuel : s.gClientsIp.count ≤ fuel) :
    ∃ u, t.deleteAllClients fuel = some u ∧ Refines hash u s.deleteAllClients := by
  obtain ⟨mGuid, hclear, hguidRep, hsame⟩ := hr.guid.hashClear
  have hcleared : Refines hash { t with gClientsGuid := mGuid } { s with gClientsGuid := .empty } :=
    ⟨hr.heap, hr.brk, hr.ip, hguidRep, hr.ipLive, fun k => by rw [hsame]; exact hr.guidLive k⟩
  have hnodup : (s.gClientsIp.entries.reverse.map Prod.snd).Nodup := by
    rw [List.map_reverse, List.nodup_reverse]
    exact ha.nodup_ip
  obtain ⟨u, hiter, hru⟩ := hcleared.deleteCurrents _ rfl rfl hnodup
    (List.length_reverse.trans_le hfuel)
  exact ⟨u, by simp only [UtClientTable.deleteAllClients, hclear, Option.bind_eq_bind,
    Option.bind_some]; exact hiter, hru⟩

end Refines

end UtClientTable

/-! ### Every sequence of calls -/

section Calls

open UtClientTable

variable {hash : List UInt8 → UInt32} {fuel : Nat} {ρ : Type} (reclaim : ρ → UInt32 → ρ)
  {alloc : Handle → UtAlloc} (halloc : ∀ h, (alloc h).mem = true)

def Mirrors (hash : List UInt8 → UInt32) (fuel n : Nat) (u : UtClients ρ) (s : Clients ρ) : Prop :=
  Refines hash u.table s.table ∧ u.pool = s.pool ∧ s.table.Agree ∧ s.table.gClientsIp.count + n ≤ fuel

section Mirrors

variable {n : Nat} {pool : ρ} {t : UtClientTable} {s : ClientTable}

include halloc in
theorem mirrors_addClient {h : Handle} (hm : Mirrors hash fuel (n + 1) ⟨pool, t⟩ ⟨pool, s⟩)
    (hs : t.Small) (hf : s.Fresh h) :
    ∃ u' s', utClientStep hash fuel alloc reclaim ⟨pool, t⟩ (.addClient (some h)) = some u' ∧
      clientStep reclaim ⟨pool, s⟩ (.addClient (some h)) = some s' ∧ Mirrors hash fuel n u' s' := by
  obtain ⟨hr, -, ha, hfuel⟩ := hm
  change Refines hash t s at hr
  change s.Agree at ha
  change s.gClientsIp.count + (n + 1) ≤ fuel at hfuel
  have hlt : s.gClientsIp.count < fuel := by omega
  obtain ⟨c, hc⟩ := Option.isSome_iff_exists.1 hf.1
  rcases addClient_cases reclaim (s := ⟨pool, s⟩) ha hc with ⟨k, hfind, hadd⟩ | ⟨hfind, hadd⟩
  · have hcount : s.gClientsGuid.count ≤ fuel := ha.count_eq ▸ Nat.le_of_lt hlt
    have hadd' := hr.addClient_known (reclaimIp reclaim) pool alloc hcount hc hfind
    exact ⟨⟨pool, t⟩, ⟨pool, s⟩, by simp [utClientStep, hadd'], by simp [clientStep, hadd], hr,
      rfl, ha, Nat.le_of_succ_le hfuel⟩
  · obtain ⟨u, hadd', hru⟩ :=
      hr.addClient_new (reclaimIp reclaim) pool (halloc h) ha hs hf hlt hc hfind
    refine ⟨⟨pool, u⟩, ⟨pool, s.register h c⟩, by simp [utClientStep, hadd'],
      by simp [clientStep, hadd], hru, rfl, ha.register hc (hf.not_found ha) hfind, ?_⟩
    have hone : (s.register h c).gClientsIp.count ≤ s.gClientsIp.count + 1 :=
      Nat.succ_le_succ (count_evict_le c.ip)
    show (s.register h c).gClientsIp.count + n ≤ fuel
    omega

theorem mirrors_deleteClientByIp (hm : Mirrors hash fuel (n + 1) ⟨pool, t⟩ ⟨pool, s⟩) (ip : UInt32)
    (flag : Bool) :
    ∃ u' s', utClientStep hash fuel alloc reclaim ⟨pool, t⟩ (.deleteClientByIp ip flag) = some u' ∧
      clientStep reclaim ⟨pool, s⟩ (.deleteClientByIp ip flag) = some s' ∧
      Mirrors hash fuel n u' s' := by
  obtain ⟨hr, -, ha, hfuel⟩ := hm
  change Refines hash t s at hr
  change s.Agree at ha
  change s.gClientsIp.count + (n + 1) ≤ fuel at hfuel
  have hle : s.gClientsIp.count + n ≤ fuel := Nat.le_of_succ_le hfuel
  have hcount : s.gClientsIp.count ≤ fuel := by omega
  cases flag with
  | false =>
      obtain ⟨u, hdelete, hru, -⟩ := hr.deleteClientByIp_keep (reclaimIp reclaim) pool ha hcount ip
      have hdelete' : ClientTable.deleteClientByIp (reclaimIp reclaim) ip false pool s =
          some (pool, s.evict ip) := deleteClientByIp_keep ha ip
      exact ⟨⟨pool, u⟩, ⟨pool, s.evict ip⟩, by simp [utClientStep, hdelete],
        by simp [clientStep, hdelete'], hru, rfl, ha.evict ip,
        (Nat.add_le_add_right (count_evict_le ip) n).trans hle⟩
  | true =>
      have hdelete' : ClientTable.deleteClientByIp (reclaimIp reclaim) ip true pool s = _ :=
        deleteClientByIp_reclaim ha ip
      cases hholder : s.findClient ip with
      | none =>
          have hfind := hr.findClient_eq hcount ip
          rw [hholder] at hfind hdelete'
          exact ⟨⟨pool, t⟩, ⟨pool, s⟩,
            by simp [utClientStep, UtClientTable.deleteClientByIp, hfind],
            by simp [clientStep, hdelete'], hr, rfl, ha, hle⟩
      | some k =>
          obtain ⟨u, hdelete, hru⟩ :=
            hr.deleteClientByIp_reclaim (reclaimIp reclaim) pool ha hcount hholder rfl
          rw [hholder] at hdelete'
          exact ⟨⟨reclaim pool ip, u⟩, ⟨reclaim pool ip, s.drop k⟩,
            by simp [utClientStep, hdelete], by simp [clientStep, hdelete', reclaimIp], hru, rfl,
            ha.drop k,
            (Nat.add_le_add_right (count_drop_le k) n).trans hle⟩

end Mirrors

include halloc in
theorem mirrors_step (n : Nat) (u : UtClients ρ) (s : Clients ρ) (op : ClientOp)
    (h : Mirrors hash fuel (n + 1) u s) (hs : u.table.Small) (hfit : CallFits (s, op)) :
    ∃ u' s', utClientStep hash fuel alloc reclaim u op = some u' ∧ clientStep reclaim s op = some s' ∧
      Mirrors hash fuel n u' s' := by
  obtain ⟨pool, t⟩ := u
  obtain ⟨pool', s⟩ := s
  have hm := h
  obtain ⟨hr, hpool, ha, hfuel⟩ := h
  obtain rfl : pool = pool' := hpool
  change Refines hash t s at hr
  change s.Agree at ha
  change s.gClientsIp.count + (n + 1) ≤ fuel at hfuel
  have hle : s.gClientsIp.count + n ≤ fuel := Nat.le_of_succ_le hfuel
  have hcount : s.gClientsIp.count ≤ fuel := by omega
  cases op with
  | newClient mem =>
      refine ⟨_, _, rfl, rfl, (hr.newClient ha alloc mem).2, rfl, ?_, ?_⟩
      · cases mem with
        | none => exact ha
        | some c => exact ha.malloc _
      · cases mem <;> exact hle
  | addClient client =>
      cases client with
      | none => exact ⟨_, _, rfl, rfl, hr, rfl, ha, hle⟩
      | some h => exact mirrors_addClient reclaim halloc hm hs hfit
  | deleteClient client =>
      cases client with
      | none => exact ⟨_, _, rfl, rfl, hr, rfl, ha, hle⟩
      | some h =>
          obtain ⟨c, hreg⟩ : ∃ c, s.Registered h c := hfit
          obtain ⟨u, hdelete, hru⟩ := hr.deleteClient (reclaimIp reclaim) pool ha hreg rfl
          have hdelete' : ClientTable.deleteClient (reclaimIp reclaim) (some h) pool s =
              some (reclaim pool c.ip, s.drop h) := deleteClient_eq hreg.1
          exact ⟨⟨reclaim pool c.ip, u⟩, ⟨reclaim pool c.ip, s.drop h⟩,
            by simp [utClientStep, hdelete], by simp [clientStep, hdelete'], hru, rfl, ha.drop h,
            (Nat.add_le_add_right (count_drop_le h) n).trans hle⟩
  | deleteClientByIp ip flag => exact mirrors_deleteClientByIp reclaim hm ip flag
  | deleteAllClients =>
      obtain ⟨u, hdelete, hru⟩ := hr.deleteAllClients ha hcount
      exact ⟨⟨pool, u⟩, ⟨pool, s.deleteAllClients⟩, by simp [utClientStep, hdelete], rfl, hru, rfl,
        ha.deleteAllClients, (Nat.add_le_add_right count_deleteAllClients_le n).trans hle⟩

end Calls

/-- Whatever the hash function does and `malloc` leaves in a block: as long as there is memory for the
tables and they are small, a sequence of calls that fit runs through on them, touching nothing that was
freed, and from then on every function answers what it answers from the indexes. -/
theorem hash_tables_answer (hash : List UInt8 → UInt32) {ρ : Type} (reclaim : ρ → UInt32 → ρ)
    (alloc : Handle → UtAlloc) (halloc : ∀ h, (alloc h).mem = true) (pool : ρ) (ops : List ClientOp)
    (hfit : ∀ m ∈ Run.attempts (clientStep reclaim) ⟨pool, .empty⟩ ops, CallFits m) (fuel : Nat)
    (hfuel : ops.length ≤ fuel)
    (hsmall : ∀ u ∈ Run.visited (utClientStep hash fuel alloc reclaim) ⟨pool, .empty⟩ ops,
      u.table.Small) :
    ∃ u s, Run.exec (utClientStep hash fuel alloc reclaim) ⟨pool, .empty⟩ ops = some u ∧
      Run.exec (clientStep reclaim) ⟨pool, .empty⟩ ops = some s ∧ u.pool = s.pool ∧
      u.table.Answers hash fuel s.table ∧
      ∀ h, s.table.Fresh h →
        (u.table.addClient hash (fuel + 1) (reclaimIp reclaim) alloc (some h) u.pool).map Prod.fst =
          (ClientTable.addClient (reclaimIp reclaim) (some h) s.pool s.table).map Prod.fst := by
  have hinit : Mirrors hash fuel ops.length (⟨pool, .empty⟩ : UtClients ρ) ⟨pool, .empty⟩ :=
    ⟨UtClientTable.refines_empty hash, rfl, agree_empty, (Nat.zero_add _).trans_le hfuel⟩
  obtain ⟨u, s, hrunU, hrun, hr, hpool, ha, hcount⟩ :=
    Run.exec_of_simulation (mirrors_step reclaim halloc) hinit hsmall fun m hm => hfit m hm
  have hlast := hsmall u (Run.exec_mem_visited hrunU)
  refine ⟨u, s, hrunU, hrun, hpool, hr.answers ha hlast hcount, fun h hf => ?_⟩
  have hlt : s.table.gClientsIp.count < fuel + 1 := Nat.lt_succ_of_le hcount
  obtain ⟨c, hc⟩ := Option.isSome_iff_exists.1 hf.1
  rcases addClient_cases reclaim ha hc with ⟨k, hfind, hadd⟩ | ⟨hfind, hadd⟩
  · have hle : s.table.gClientsGuid.count ≤ fuel + 1 := ha.count_eq ▸ Nat.le_of_lt hlt
    rw [hadd, hr.addClient_known (reclaimIp reclaim) u.pool alloc hle hc hfind]
    rfl
  · obtain ⟨v, hadd', -⟩ :=
      hr.addClient_new (reclaimIp reclaim) u.pool (halloc h) ha hlast hf hlt hc hfind
    rw [hadd, hadd']
    rfl

theorem hash_tables_answer_takingOver :
    ∃ u s, Run.exec (utClientStep hashJen 9 (fun _ => ⟨UtHash.strayHandle, UtHash.strayHandle, true⟩)
          fun pool ip => pool ++ [ip]) ⟨[], .empty⟩ takingOver = some u ∧
      Run.exec (clientStep fun pool ip => pool ++ [ip]) ⟨[], .empty⟩ takingOver = some s ∧
      u.pool = s.pool ∧ u.table.Answers hashJen 9 s.table ∧
      ∀ h, s.table.Fresh h →
        (u.table.addClient hashJen 10 (reclaimIp fun pool ip => pool ++ [ip])
            (fun _ => ⟨UtHash.strayHandle, UtHash.strayHandle, true⟩) (some h) u.pool).map Prod.fst =
          (ClientTable.addClient (reclaimIp fun pool ip => pool ++ [ip]) (some h) s.pool
            s.table).map Prod.fst :=
  hash_tables_answer hashJen _ _ (fun _ => rfl) _ _ (by decide +kernel) 9 (by decide) (by decide +kernel)

end TunnelServer
