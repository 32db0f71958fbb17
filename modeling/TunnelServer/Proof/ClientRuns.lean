import TunnelServer.ClientRuns
import TunnelServer.Proof.Registry

/-!
# The indexes agree after every sequence of registry calls

`Agree` speaks of lookups. The entry lists of both tables follow from it, since a keyed table finds
exactly its entries.
-/

namespace TunnelServer

namespace ClientTable

variable {t : ClientTable} {h : Handle} {c : Client}

/-! ### The one operation that is a loop -/

/-- Walking over entries that include all those left empties the table by address. Nothing points
to the freed records, as the other table was cleared before. -/
theorem agree_foldl_free (l : List (UInt32 × Handle)) :
    ∀ t : ClientTable, (∀ e ∈ t.gClientsIp.entries, e ∈ l) → t.gClientsIp.Keyed →
      t.gClientsGuid = .empty → (∀ h c, t.heap h = some c → h < t.brk) →
      (l.foldl (fun t e => { t with gClientsIp := t.gClientsIp.delete e.2 }.free e.2) t).Agree := by
  induction l with
  | nil =>
      intro t hl hkeyed hguid hlt
      have hnone : ∀ ip h, t.findClient ip ≠ some h :=
        fun ip h hfind => List.not_mem_nil (hl _ (HashIndex.mem_of_find hfind))
      have hnone' : ∀ g h, t.gClientsGuid.find g ≠ some h := by
        intro g h hfind
        rw [hguid] at hfind
        cases hfind
      exact
        { ip_keyed := hkeyed
          guid_keyed := by
            show t.gClientsGuid.Keyed
            rw [hguid]
            exact HashIndex.keyed_empty
          ip_sound := fun ip h hfind => absurd hfind (hnone ip h)
          guid_sound := fun g h hfind => absurd hfind (hnone' g h)
          heap_lt := hlt }
  | cons e l ih =>
      intro t hl hkeyed hguid hlt
      apply ih
      · intro e' he'
        obtain ⟨hmem, hne⟩ := HashIndex.mem_delete.1 he'
        exact (List.mem_cons.1 (hl e' hmem)).resolve_left fun heq => hne (by rw [heq])
      · exact hkeyed.delete e.2
      · exact hguid
      · intro h c hc
        change Function.update t.heap e.2 none h = some c at hc
        rw [Function.update_apply] at hc
        split at hc
        · cases hc
        · exact hlt h c hc

theorem Agree.deleteAllClients (ha : t.Agree) : t.deleteAllClients.Agree :=
  agree_foldl_free _ _ (fun _ he => List.mem_reverse.2 he) ha.ip_keyed rfl ha.heap_lt

/-! ### The entries of a table -/

theorem Agree.mem_ip (ha : t.Agree) :
    h ∈ t.gClientsIp.entries.map Prod.snd ↔ ∃ c, t.Registered h c := by
  constructor
  · intro hmem
    obtain ⟨⟨ip, k⟩, he, rfl⟩ := List.mem_map.1 hmem
    obtain ⟨c, hr, -⟩ := ha.registered_of_findClient (HashIndex.find_of_mem ha.ip_keyed he)
    exact ⟨c, hr⟩
  · intro ⟨c, hr⟩
    exact List.mem_map.2 ⟨_, HashIndex.mem_of_find hr.2, rfl⟩

theorem Agree.mem_guid (ha : t.Agree) :
    h ∈ t.gClientsGuid.entries.map Prod.snd ↔ ∃ c, t.Registered h c := by
  constructor
  · intro hmem
    obtain ⟨⟨g, k⟩, he, rfl⟩ := List.mem_map.1 hmem
    obtain ⟨c, hr, -⟩ := ha.registered_of_findGuid (HashIndex.find_of_mem ha.guid_keyed he)
    exact ⟨c, hr⟩
  · intro ⟨c, hr⟩
    exact List.mem_map.2 ⟨_, HashIndex.mem_of_find (ha.findGuid_of_registered hr), rfl⟩

theorem Agree.nodup_ip (ha : t.Agree) : (t.gClientsIp.entries.map Prod.snd).Nodup := by
  refine List.Nodup.map_on ?_ (List.Nodup.of_map _ ha.ip_keyed)
  intro ⟨ip, k⟩ he ⟨ip', k'⟩ he' heq
  obtain rfl : k = k' := heq
  obtain ⟨c, hr, rfl⟩ := ha.registered_of_findClient (HashIndex.find_of_mem ha.ip_keyed he)
  obtain ⟨c', hr', rfl⟩ := ha.registered_of_findClient (HashIndex.find_of_mem ha.ip_keyed he')
  rw [Agree.registered_unique hr hr']

theorem Agree.nodup_guid (ha : t.Agree) : (t.gClientsGuid.entries.map Prod.snd).Nodup := by
  refine List.Nodup.map_on ?_ (List.Nodup.of_map _ ha.guid_keyed)
  intro ⟨g, k⟩ he ⟨g', k'⟩ he' heq
  obtain rfl : k = k' := heq
  obtain ⟨c, hr, rfl⟩ := ha.registered_of_findGuid (HashIndex.find_of_mem ha.guid_keyed he)
  obtain ⟨c', hr', rfl⟩ := ha.registered_of_findGuid (HashIndex.find_of_mem ha.guid_keyed he')
  rw [Agree.registered_unique hr hr']

theorem Agree.count_eq (ha : t.Agree) : t.gClientsIp.count = t.gClientsGuid.count := by
  have hperm : (t.gClientsIp.entries.map Prod.snd).Perm (t.gClientsGuid.entries.map Prod.snd) :=
    (List.perm_ext_iff_of_nodup ha.nodup_ip ha.nodup_guid).2
      fun _ => ha.mem_ip.trans ha.mem_guid.symm
  have hlen := hperm.length_eq
  rw [List.length_map, List.length_map] at hlen
  exact hlen

theorem Agree.indexesAgree (ha : t.Agree) : t.IndexesAgree where
  same := fun _ => ha.mem_ip.trans ha.mem_guid.symm
  registered := fun _ => ha.mem_ip
  distinct := fun _ _ _ _ hr hr' hkey => ha.registered_inj hr hr' hkey
  byGuid := fun _ _ => ha.findGuid_iff
  byIp := by
    intro g h hfind
    obtain ⟨c, hr, -⟩ := ha.registered_of_findGuid hfind
    exact ⟨c, hr⟩
  count := by
    have hkeys : t.gClientsGuid.keys.toFinset.card = t.gClientsGuid.keys.length :=
      List.toFinset_card_of_nodup ha.guid_keyed
    rw [hkeys, HashIndex.length_keys]
    exact ha.count_eq
  guids := by
    intro g
    rw [← HashIndex.find_isSome, Option.isSome_iff_exists]
    exact exists_congr fun h => ha.findGuid_iff

theorem Fresh.not_found (ha : t.Agree) (hf : t.Fresh h) (ip : UInt32) :
    t.findClient ip ≠ some h := by
  intro hfind
  obtain ⟨d, hr, -⟩ := ha.registered_of_findClient hfind
  exact hf.2 ⟨d, hr⟩

end ClientTable

/-! ### Every call keeps the registry -/

section Calls

open ClientTable

variable {ρ : Type} (reclaim : ρ → UInt32 → ρ) {s : Clients ρ} {h : Handle} {c : Client}

/-- `add_client` has two outcomes, by whether the GUID is registered. -/
theorem addClient_cases (ha : s.table.Agree) (hc : s.table.heap h = some c) :
    (∃ k, s.table.findClientByGuid c.guid = some k ∧
        addClient (reclaimIp reclaim) (some h) s.pool s.table = some (false, s.pool, s.table)) ∨
      (s.table.findClientByGuid c.guid = none ∧
        addClient (reclaimIp reclaim) (some h) s.pool s.table =
          some (true, s.pool, s.table.register h c)) := by
  cases hfind : s.table.findClientByGuid c.guid with
  | none => exact Or.inr ⟨rfl, addClient_of_new ha hc hfind⟩
  | some k => exact Or.inl ⟨k, rfl, addClient_of_known hc hfind⟩

theorem addsExactly_of_agree (ha : s.table.Agree) : AddsExactly reclaim s := by
  intro h c hc hf
  have hknown : (∃ k d, s.table.Registered k d ∧ cString d.guid = cString c.guid) ↔
      s.table.findClientByGuid c.guid ≠ none := by
    rw [Option.ne_none_iff_exists']
    exact exists_congr fun k => ha.findGuid_iff.symm
  rw [hknown]
  rcases addClient_cases reclaim ha hc with ⟨k, hfind, hadd⟩ | ⟨hfind, hadd⟩
  · exact ⟨fun _ => hadd, fun hnew => absurd (by simp [hfind]) hnew⟩
  · refine ⟨fun hold => absurd hfind hold, fun _ => ⟨_, hadd, fun k d => ?_⟩⟩
    exact registered_register ha hc (hf.not_found ha)

theorem agree_clientStep {op : ClientOp} (ha : s.table.Agree) (hfit : CallFits (s, op)) :
    ∃ u, clientStep reclaim s op = some u ∧ u.table.Agree := by
  cases op with
  | newClient mem =>
      refine ⟨_, rfl, ?_⟩
      cases mem with
      | none => exact ha
      | some c => exact ha.malloc _
  | addClient client =>
      cases client with
      | none => exact ⟨_, rfl, ha⟩
      | some h =>
          have hf : s.table.Fresh h := hfit
          obtain ⟨c, hc⟩ := Option.isSome_iff_exists.1 hf.1
          rcases addClient_cases reclaim ha hc with ⟨k, -, hadd⟩ | ⟨hfind, hadd⟩
          · exact ⟨s, by simp [clientStep, hadd], ha⟩
          · exact ⟨_, by simp [clientStep, hadd]; rfl,
              ha.register hc (hf.not_found ha) hfind⟩
  | deleteClient client =>
      cases client with
      | none => exact ⟨_, rfl, ha⟩
      | some h =>
          obtain ⟨c, hr⟩ : ∃ c, s.table.Registered h c := hfit
          exact ⟨_, by simp [clientStep, deleteClient_eq hr.1, reclaimIp]; rfl, ha.drop h⟩
  | deleteClientByIp ip flag =>
      cases flag with
      | false => exact ⟨_, by simp [clientStep, deleteClientByIp_keep ha]; rfl, ha.evict ip⟩
      | true =>
          cases hfind : s.table.findClient ip with
          | none => exact ⟨s, by simp [clientStep, deleteClientByIp_reclaim ha, hfind], ha⟩
          | some k =>
              exact ⟨_, by simp [clientStep, deleteClientByIp_reclaim ha, hfind, reclaimIp]; rfl,
                ha.drop k⟩
  | deleteAllClients => exact ⟨_, rfl, ha.deleteAllClients⟩

end Calls

/-! ### Every sequence of calls -/

/-- From empty tables every sequence of calls runs through and leaves two indexes that agree. -/
theorem indexes_agree {ρ : Type} (reclaim : ρ → UInt32 → ρ) (pool : ρ) (ops : List ClientOp)
    (hfit : ∀ m ∈ Run.attempts (clientStep reclaim) ⟨pool, .empty⟩ ops, CallFits m) :
    ∃ s, Run.exec (clientStep reclaim) ⟨pool, .empty⟩ ops = some s ∧ s.table.IndexesAgree ∧
      AddsExactly reclaim s := by
  have hstep : ∀ (s : Clients ρ) (op : ClientOp), s.table.Agree → CallFits (s, op) →
      ∃ u, clientStep reclaim s op = some u ∧ u.table.Agree :=
    fun _ _ ha hfit => agree_clientStep reclaim ha hfit
  obtain ⟨s, hrun, ha⟩ := Run.exec_of_forall_attempts hstep ClientTable.agree_empty hfit
  exact ⟨s, hrun, ha.indexesAgree, addsExactly_of_agree reclaim ha⟩

theorem indexes_agree_takingOver :
    ∃ s, Run.exec (clientStep fun pool ip => pool ++ [ip]) ⟨[], .empty⟩ takingOver = some s ∧
      s.table.IndexesAgree ∧ AddsExactly (fun pool ip => pool ++ [ip]) s :=
  indexes_agree _ _ _ (by decide +kernel)

end TunnelServer
