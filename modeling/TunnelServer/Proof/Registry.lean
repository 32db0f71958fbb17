import TunnelServer.Client

/-!
# The registry: both indexes over one set of records

`Agree` is what every operation of `client.c` keeps: the two tables are finite maps, and an entry of
either leads to a live record that the other one also has, under that record's own key. The lemmas
say what each operation does to the two lookups and to the heap; nothing later looks at the entry
lists of a table.
-/

namespace TunnelServer

namespace ClientTable

variable {t : ClientTable} {h h' : Handle} {c c' : Client}

structure Agree (t : ClientTable) : Prop where
  ip_keyed : t.gClientsIp.Keyed
  guid_keyed : t.gClientsGuid.Keyed
  ip_sound : ∀ ip h, t.findClient ip = some h →
    ∃ c, t.heap h = some c ∧ c.ip = ip ∧ t.gClientsGuid.find (cString c.guid) = some h
  guid_sound : ∀ g h, t.gClientsGuid.find g = some h →
    ∃ c, t.heap h = some c ∧ cString c.guid = g ∧ t.findClient c.ip = some h
  heap_lt : ∀ h c, t.heap h = some c → h < t.brk

theorem agree_empty : empty.Agree where
  ip_keyed := HashIndex.keyed_empty
  guid_keyed := HashIndex.keyed_empty
  ip_sound := fun _ _ h => nomatch h
  guid_sound := fun _ _ h => nomatch h
  heap_lt := fun _ _ h => nomatch h

namespace Agree

variable (ha : t.Agree)
include ha

theorem registered_of_findClient {ip : UInt32} (hfind : t.findClient ip = some h) :
    ∃ c, t.Registered h c ∧ c.ip = ip := by
  obtain ⟨c, hc, rfl, -⟩ := ha.ip_sound ip h hfind
  exact ⟨c, ⟨hc, hfind⟩, rfl⟩

theorem registered_of_findGuid {g : List UInt8} (hfind : t.gClientsGuid.find g = some h) :
    ∃ c, t.Registered h c ∧ cString c.guid = g := by
  obtain ⟨c, hc, hg, hip⟩ := ha.guid_sound g h hfind
  exact ⟨c, ⟨hc, hip⟩, hg⟩

theorem findGuid_of_registered (hr : t.Registered h c) :
    t.gClientsGuid.find (cString c.guid) = some h := by
  obtain ⟨c', hc', -, hguid⟩ := ha.ip_sound _ _ hr.2
  cases hr.1.symm.trans hc'
  exact hguid

theorem findGuid_iff {g : List UInt8} :
    t.gClientsGuid.find g = some h ↔ ∃ c, t.Registered h c ∧ cString c.guid = g := by
  refine ⟨ha.registered_of_findGuid, ?_⟩
  intro hkeyed
  obtain ⟨c, hr, rfl⟩ := hkeyed
  exact ha.findGuid_of_registered hr

/-- No two registered records share an address or a GUID. -/
theorem registered_inj (hr : t.Registered h c) (hr' : t.Registered h' c')
    (hkey : c.ip = c'.ip ∨ cString c.guid = cString c'.guid) : h = h' := by
  rcases hkey with hip | hguid
  · have hfind := hr.2
    rw [hip, hr'.2] at hfind
    exact (Option.some.inj hfind).symm
  · have hfind := ha.findGuid_of_registered hr
    rw [hguid, ha.findGuid_of_registered hr'] at hfind
    exact (Option.some.inj hfind).symm

omit ha in
theorem registered_unique (hr : t.Registered h c) (hr' : t.Registered h c') : c = c' :=
  Option.some.inj (hr.1.symm.trans hr'.1)

theorem not_found_of_brk_le (hbrk : t.brk ≤ h) :
    (∀ ip, t.findClient ip ≠ some h) ∧ ∀ g, t.gClientsGuid.find g ≠ some h := by
  constructor
  · intro ip hfind
    obtain ⟨c, hc, -⟩ := ha.ip_sound ip h hfind
    exact absurd (ha.heap_lt h c hc) (Nat.not_lt.2 hbrk)
  · intro g hfind
    obtain ⟨c, hc, -⟩ := ha.guid_sound g h hfind
    exact absurd (ha.heap_lt h c hc) (Nat.not_lt.2 hbrk)

end Agree

/-! ### Removal -/

theorem drop_heap (h' : Handle) : (t.drop h).heap h' = if h' = h then none else t.heap h' := by
  show Function.update t.heap h none h' = _
  rw [Function.update_apply]

theorem findClient_drop (ha : t.Agree) (ip : UInt32) :
    (t.drop h).findClient ip = if t.findClient ip = some h then none else t.findClient ip :=
  HashIndex.find_delete ha.ip_keyed h ip

theorem findGuid_drop (ha : t.Agree) (g : List UInt8) :
    (t.drop h).gClientsGuid.find g =
      if t.gClientsGuid.find g = some h then none else t.gClientsGuid.find g :=
  HashIndex.find_delete ha.guid_keyed h g

theorem findClient_drop_eq_some (ha : t.Agree) {ip : UInt32} :
    (t.drop h).findClient ip = some h' ↔ t.findClient ip = some h' ∧ h' ≠ h :=
  HashIndex.find_delete_eq_some ha.ip_keyed

theorem findGuid_drop_eq_some (ha : t.Agree) {g : List UInt8} :
    (t.drop h).gClientsGuid.find g = some h' ↔ t.gClientsGuid.find g = some h' ∧ h' ≠ h :=
  HashIndex.find_delete_eq_some ha.guid_keyed

theorem Agree.drop (ha : t.Agree) (h : Handle) : (t.drop h).Agree where
  ip_keyed := ha.ip_keyed.delete h
  guid_keyed := ha.guid_keyed.delete h
  ip_sound := by
    intro ip h' hfind
    rw [findClient_drop_eq_some ha] at hfind
    obtain ⟨c, hc, hip, hguid⟩ := ha.ip_sound ip h' hfind.1
    exact ⟨c, by rw [drop_heap, if_neg hfind.2, hc], hip,
      (findGuid_drop_eq_some ha).2 ⟨hguid, hfind.2⟩⟩
  guid_sound := by
    intro g h' hfind
    rw [findGuid_drop_eq_some ha] at hfind
    obtain ⟨c, hc, hguid, hip⟩ := ha.guid_sound g h' hfind.1
    exact ⟨c, by rw [drop_heap, if_neg hfind.2, hc], hguid,
      (findClient_drop_eq_some ha).2 ⟨hip, hfind.2⟩⟩
  heap_lt := by
    intro h' c hc
    rw [drop_heap] at hc
    split at hc
    · cases hc
    · exact ha.heap_lt h' c hc

theorem findClient_drop_registered (ha : t.Agree) (hr : t.Registered h c) (ip : UInt32) :
    (t.drop h).findClient ip = if ip = c.ip then none else t.findClient ip := by
  rw [findClient_drop ha]
  by_cases hip : ip = c.ip
  · rw [if_pos hip, hip, if_pos hr.2]
  · rw [if_neg hip, if_neg]
    intro hfind
    obtain ⟨d, hd, rfl⟩ := ha.registered_of_findClient hfind
    exact hip (by rw [Agree.registered_unique hd hr])

theorem registered_drop (ha : t.Agree) :
    (t.drop h).Registered h' c' ↔ t.Registered h' c' ∧ h' ≠ h := by
  unfold Registered
  rw [drop_heap, findClient_drop_eq_some ha]
  by_cases heq : h' = h <;> simp [heq]

/-! ### Changes to a record -/

theorem set_heap (h' : Handle) :
    (t.set h c).heap h' = if h' = h then some c else t.heap h' := by
  show Function.update t.heap h (some c) h' = _
  rw [Function.update_apply]

@[simp] theorem findClient_set (ip : UInt32) : (t.set h c).findClient ip = t.findClient ip := rfl

theorem Agree.set (ha : t.Agree) (hc : t.heap h = some c) (hip : c'.ip = c.ip)
    (hguid : cString c'.guid = cString c.guid) : (t.set h c').Agree where
  ip_keyed := ha.ip_keyed
  guid_keyed := ha.guid_keyed
  ip_sound := by
    intro ip h' hfind
    obtain ⟨d, hd, hdip, hdguid⟩ := ha.ip_sound ip h' hfind
    rw [set_heap]
    by_cases heq : h' = h
    · subst heq
      cases hc.symm.trans hd
      exact ⟨c', by rw [if_pos rfl], hip.trans hdip, by rw [hguid]; exact hdguid⟩
    · exact ⟨d, by rw [if_neg heq, hd], hdip, hdguid⟩
  guid_sound := by
    intro g h' hfind
    obtain ⟨d, hd, hdguid, hdip⟩ := ha.guid_sound g h' hfind
    rw [set_heap]
    by_cases heq : h' = h
    · subst heq
      cases hc.symm.trans hd
      exact ⟨c', by rw [if_pos rfl], hguid.trans hdguid, by rw [hip]; exact hdip⟩
    · exact ⟨d, by rw [if_neg heq, hd], hdguid, hdip⟩
  heap_lt := by
    intro h' d hd
    rw [set_heap] at hd
    by_cases heq : h' = h
    · exact heq ▸ ha.heap_lt h c hc
    · rw [if_neg heq] at hd
      exact ha.heap_lt h' d hd

theorem registered_set (hr : t.Registered h c) (hip : c'.ip = c.ip) {k : Handle} {d : Client} :
    (t.set h c').Registered k d ↔ (k = h ∧ d = c') ∨ (k ≠ h ∧ t.Registered k d) := by
  unfold Registered
  rw [set_heap, findClient_set]
  by_cases heq : k = h
  · subst heq
    rw [if_pos rfl, Option.some.injEq]
    constructor
    · intro hrecord
      obtain ⟨rfl, -⟩ := hrecord
      exact Or.inl ⟨rfl, rfl⟩
    · intro hrecord
      rcases hrecord with ⟨-, rfl⟩ | ⟨hne, -⟩
      · exact ⟨rfl, hip ▸ hr.2⟩
      · exact absurd rfl hne
  · simp [heq]

theorem registered_set_self (hr : t.Registered h c) (hip : c'.ip = c.ip) :
    (t.set h c').Registered h c' :=
  (registered_set hr hip).2 (Or.inl ⟨rfl, rfl⟩)

/-! ### Registration -/

def evict (t : ClientTable) (ip : UInt32) : ClientTable :=
  match t.findClient ip with
  | none => t
  | some s => t.drop s

def register (t : ClientTable) (h : Handle) (c : Client) : ClientTable :=
  { t.evict c.ip with
    gClientsGuid := (t.evict c.ip).gClientsGuid.add (cString c.guid) h
    gClientsIp := (t.evict c.ip).gClientsIp.add c.ip h }

theorem Agree.evict (ha : t.Agree) (ip : UInt32) : (t.evict ip).Agree := by
  unfold ClientTable.evict
  split
  · exact ha
  · exact ha.drop _

theorem evict_brk (ip : UInt32) : (t.evict ip).brk = t.brk := by
  unfold evict
  split <;> rfl

theorem evict_heap (ip : UInt32) (h' : Handle) :
    (t.evict ip).heap h' = if t.findClient ip = some h' then none else t.heap h' := by
  unfold evict
  split
  · rename_i hfind
    simp [hfind]
  · rename_i s hfind
    rw [drop_heap, hfind]
    by_cases heq : h' = s
    · simp [heq]
    · simp [heq, Ne.symm heq]

theorem findClient_evict_eq_some (ha : t.Agree) {ip ip' : UInt32} :
    (t.evict ip).findClient ip' = some h' ↔ t.findClient ip' = some h' ∧ ip' ≠ ip := by
  unfold evict
  split
  · rename_i hfind
    refine ⟨fun hf => ⟨hf, ?_⟩, fun hf => hf.1⟩
    intro heq
    subst heq
    rw [hfind] at hf
    cases hf
  · rename_i s hfind
    rw [findClient_drop_eq_some ha]
    refine and_congr_right fun hf => not_congr ⟨?_, ?_⟩
    · intro heq
      subst heq
      obtain ⟨c, hr, rfl⟩ := ha.registered_of_findClient hf
      obtain ⟨c', hr', rfl⟩ := ha.registered_of_findClient hfind
      rw [Agree.registered_unique hr hr']
    · intro heq
      subst heq
      exact Option.some.inj (hf.symm.trans hfind)

theorem findClient_evict_self (ha : t.Agree) (ip : UInt32) : (t.evict ip).findClient ip = none := by
  rw [Option.eq_none_iff_forall_ne_some]
  intro h' hfind
  exact ((findClient_evict_eq_some ha).1 hfind).2 rfl

theorem findGuid_evict_eq_some (ha : t.Agree) {ip : UInt32} {g : List UInt8} :
    (t.evict ip).gClientsGuid.find g = some h' ↔
      t.gClientsGuid.find g = some h' ∧ t.findClient ip ≠ some h' := by
  unfold evict
  split
  · rename_i hfind
    simp [hfind]
  · rename_i s hfind
    rw [findGuid_drop_eq_some ha, hfind]
    exact and_congr_right fun _ => not_congr ⟨fun h => by rw [h], fun h => (Option.some.inj h).symm⟩

theorem register_heap (h' : Handle) :
    (t.register h c).heap h' = if t.findClient c.ip = some h' then none else t.heap h' :=
  evict_heap c.ip h'

theorem register_brk : (t.register h c).brk = t.brk := evict_brk c.ip

theorem findClient_register (ip : UInt32) :
    (t.register h c).findClient ip = if ip = c.ip then some h else (t.evict c.ip).findClient ip :=
  HashIndex.find_add _ _ _ _

theorem findGuid_register (g : List UInt8) :
    (t.register h c).gClientsGuid.find g =
      if g = cString c.guid then some h else (t.evict c.ip).gClientsGuid.find g :=
  HashIndex.find_add _ _ _ _

theorem Agree.register (ha : t.Agree) (hc : t.heap h = some c)
    (hnew : ∀ ip, t.findClient ip ≠ some h) (hguid : t.gClientsGuid.find (cString c.guid) = none) :
    (t.register h c).Agree := by
  have he := ha.evict c.ip
  have hlive : (t.register h c).heap h = some c := by
    rw [register_heap, if_neg (hnew _), hc]
  have hguid' : (t.evict c.ip).gClientsGuid.find (cString c.guid) = none := by
    rw [Option.eq_none_iff_forall_ne_some]
    intro h' hfind
    have hf := ((findGuid_evict_eq_some ha).1 hfind).1
    rw [hguid] at hf
    cases hf
  refine
    { ip_keyed := he.ip_keyed.add (findClient_evict_self ha c.ip) h
      guid_keyed := he.guid_keyed.add hguid' h
      ip_sound := ?_
      guid_sound := ?_
      heap_lt := ?_ }
  · intro ip h' hfind
    rw [findClient_register] at hfind
    split at hfind
    · rename_i hip
      cases hfind
      exact ⟨c, hlive, hip.symm, by rw [findGuid_register, if_pos rfl]⟩
    · obtain ⟨d, hd, hdip, hdguid⟩ := he.ip_sound ip h' hfind
      refine ⟨d, hd, hdip, ?_⟩
      rw [findGuid_register, if_neg]
      · exact hdguid
      · intro heq
        rw [heq, hguid'] at hdguid
        cases hdguid
  · intro g h' hfind
    rw [findGuid_register] at hfind
    split at hfind
    · rename_i hg
      cases hfind
      exact ⟨c, hlive, hg.symm, by rw [findClient_register, if_pos rfl]⟩
    · obtain ⟨d, hd, hdguid, hdip⟩ := he.guid_sound g h' hfind
      refine ⟨d, hd, hdguid, ?_⟩
      rw [findClient_register, if_neg]
      · exact hdip
      · intro heq
        rw [heq, findClient_evict_self ha] at hdip
        cases hdip
  · intro h' d hd
    rw [register_heap] at hd
    rw [register_brk]
    split at hd
    · cases hd
    · exact ha.heap_lt h' d hd

/-- Registering a record adds it and removes exactly the earlier holder of its address. -/
theorem registered_register (ha : t.Agree) (hc : t.heap h = some c)
    (hnew : ∀ ip, t.findClient ip ≠ some h) :
    (t.register h c).Registered h' c' ↔
      (h' = h ∧ c' = c) ∨ (t.Registered h' c' ∧ c'.ip ≠ c.ip) := by
  unfold Registered
  rw [register_heap, findClient_register]
  by_cases hip : c'.ip = c.ip
  · rw [if_pos hip, Option.some.injEq]
    constructor
    · intro hrecord
      obtain ⟨hheap, rfl⟩ := hrecord
      rw [if_neg (hnew _), hc, Option.some.injEq] at hheap
      exact Or.inl ⟨rfl, hheap.symm⟩
    · intro hrecord
      rcases hrecord with ⟨rfl, rfl⟩ | ⟨-, hne⟩
      · exact ⟨by rw [if_neg (hnew _), hc], rfl⟩
      · exact absurd hip hne
  · rw [if_neg hip, findClient_evict_eq_some ha]
    constructor
    · intro hrecord
      obtain ⟨hheap, hfind, hne⟩ := hrecord
      split at hheap
      · cases hheap
      · exact Or.inr ⟨⟨hheap, hfind⟩, hne⟩
    · intro hrecord
      rcases hrecord with ⟨rfl, rfl⟩ | ⟨⟨hheap, hfind⟩, hne⟩
      · exact absurd rfl hip
      · refine ⟨?_, hfind, hne⟩
        rw [if_neg, hheap]
        intro hholder
        obtain ⟨d, hr, hdip⟩ := ha.registered_of_findClient hholder
        rw [Agree.registered_unique ⟨hheap, hfind⟩ hr] at hip
        exact hip hdip

/-! ### What the operations of `client.c` return -/

section Operations

variable {ρ : Type} {reclaim : ρ → UInt32 → Option ρ} {pool : ρ}

theorem deleteClientByIp_keep (ha : t.Agree) (ip : UInt32) :
    deleteClientByIp reclaim ip false pool t = some (pool, t.evict ip) := by
  unfold deleteClientByIp evict
  cases hfind : t.findClient ip with
  | none => rfl
  | some s =>
      obtain ⟨c, hr, -⟩ := ha.registered_of_findClient hfind
      simp [hr.1]

theorem deleteClientByIp_reclaim (ha : t.Agree) (ip : UInt32) :
    deleteClientByIp reclaim ip true pool t =
      match t.findClient ip with
      | none => some (pool, t)
      | some s => (reclaim pool ip).map fun pool => (pool, t.drop s) := by
  unfold deleteClientByIp
  cases hfind : t.findClient ip with
  | none => rfl
  | some s =>
      obtain ⟨c, hr, rfl⟩ := ha.registered_of_findClient hfind
      cases hpool : reclaim pool c.ip <;> simp [hr.1, hpool]

theorem addClient_of_known (hc : t.heap h = some c) (hfind : t.findClientByGuid c.guid = some h') :
    addClient reclaim (some h) pool t = some (false, pool, t) := by
  simp [addClient, hc, hfind]

theorem addClient_of_new (ha : t.Agree) (hc : t.heap h = some c)
    (hfind : t.findClientByGuid c.guid = none) :
    addClient reclaim (some h) pool t = some (true, pool, t.register h c) := by
  simp [addClient, hc, hfind, deleteClientByIp_keep ha, register]

theorem deleteClient_eq (hc : t.heap h = some c) :
    deleteClient reclaim (some h) pool t =
      (reclaim pool c.ip).map fun pool => (pool, t.drop h) := by
  cases hpool : reclaim pool c.ip <;> simp [deleteClient, hc, hpool]

end Operations

/-! ### A fresh record -/

def malloc (t : ClientTable) (c : Client) : ClientTable :=
  { t with heap := Function.update t.heap t.brk (some c), brk := t.brk + 1 }

theorem malloc_heap (h : Handle) :
    (t.malloc c).heap h = if h = t.brk then some c else t.heap h := by
  show Function.update t.heap t.brk (some c) h = _
  rw [Function.update_apply]

theorem set_malloc (m : Client) : (t.malloc m).set t.brk c = t.malloc c := by
  simp [malloc, set]

theorem Agree.heap_ne_brk (ha : t.Agree) (hc : t.heap h = some c) : h ≠ t.brk :=
  Nat.ne_of_lt (ha.heap_lt h c hc)

theorem Agree.malloc (ha : t.Agree) (c : Client) : (t.malloc c).Agree where
  ip_keyed := ha.ip_keyed
  guid_keyed := ha.guid_keyed
  ip_sound := by
    intro ip h hfind
    obtain ⟨d, hd, hrest⟩ := ha.ip_sound ip h hfind
    exact ⟨d, by rw [malloc_heap, if_neg (ha.heap_ne_brk hd), hd], hrest⟩
  guid_sound := by
    intro g h hfind
    obtain ⟨d, hd, hrest⟩ := ha.guid_sound g h hfind
    exact ⟨d, by rw [malloc_heap, if_neg (ha.heap_ne_brk hd), hd], hrest⟩
  heap_lt := by
    intro h d hd
    rw [malloc_heap] at hd
    by_cases heq : h = t.brk
    · exact heq ▸ Nat.lt_succ_self _
    · rw [if_neg heq] at hd
      exact Nat.lt_succ_of_lt (ha.heap_lt h d hd)

theorem registered_malloc (ha : t.Agree) :
    (t.malloc c).Registered h' c' ↔ t.Registered h' c' := by
  unfold Registered
  rw [malloc_heap]
  refine and_congr_left fun hfind => ?_
  obtain ⟨d, hr, -⟩ := ha.registered_of_findClient hfind
  rw [if_neg (ha.heap_ne_brk hr.1)]

/-! ### A new client -/

def enroll (t : ClientTable) (c : Client) : ClientTable := (t.malloc c).register t.brk c

theorem not_found_malloc (ha : t.Agree) (c : Client) (ip : UInt32) :
    (t.malloc c).findClient ip ≠ some t.brk :=
  (ha.not_found_of_brk_le (Nat.le_refl _)).1 ip

theorem enroll_brk : (t.enroll c).brk = t.brk + 1 := register_brk

theorem enroll_heap (ha : t.Agree) (h : Handle) :
    (t.enroll c).heap h =
      if h = t.brk then some c else if t.findClient c.ip = some h then none else t.heap h := by
  rw [enroll, register_heap]
  by_cases heq : h = t.brk
  · rw [if_pos heq, heq, if_neg (not_found_malloc ha c _), malloc_heap, if_pos rfl]
  · rw [if_neg heq, malloc_heap, if_neg heq]
    rfl

theorem findClient_enroll (ha : t.Agree) (ip : UInt32) :
    (t.enroll c).findClient ip = if ip = c.ip then some t.brk else t.findClient ip := by
  rw [enroll, findClient_register]
  by_cases heq : ip = c.ip
  · rw [if_pos heq, if_pos heq]
  · rw [if_neg heq, if_neg heq]
    apply Option.ext
    intro h
    rw [findClient_evict_eq_some (ha.malloc c)]
    exact and_iff_left heq

theorem Agree.enroll (ha : t.Agree) (hguid : t.gClientsGuid.find (cString c.guid) = none) :
    (t.enroll c).Agree :=
  (ha.malloc c).register (by rw [malloc_heap, if_pos rfl]) (not_found_malloc ha c) hguid

theorem registered_enroll (ha : t.Agree) :
    (t.enroll c).Registered h' c' ↔
      (h' = t.brk ∧ c' = c) ∨ (t.Registered h' c' ∧ c'.ip ≠ c.ip) := by
  rw [enroll, registered_register (ha.malloc c) (by rw [malloc_heap, if_pos rfl])
    (not_found_malloc ha c), registered_malloc ha]

/-- The code registers the record first and completes it afterwards. -/
theorem set_register_malloc (ha : t.Agree) (m : Client) (hip : c.ip = m.ip)
    (hguid : c.guid = m.guid) : ((t.malloc m).register t.brk m).set t.brk c = t.enroll c := by
  have hheap : (((t.malloc m).register t.brk m).set t.brk c).heap = (t.enroll c).heap := by
    funext h
    rw [set_heap, enroll_heap ha, register_heap, malloc_heap, hip]
    by_cases heq : h = t.brk
    · rw [if_pos heq, if_pos heq]
    · rw [if_neg heq, if_neg heq, if_neg heq]
      rfl
  have hindexes : ∀ m ip, ((t.malloc m).evict ip).gClientsIp = (t.evict ip).gClientsIp ∧
      ((t.malloc m).evict ip).gClientsGuid = (t.evict ip).gClientsGuid := by
    intro m ip
    have hfind : (t.malloc m).findClient ip = t.findClient ip := rfl
    unfold evict
    rw [hfind]
    cases t.findClient ip <;> exact ⟨rfl, rfl⟩
  have hbrk : ∀ m ip, ((t.malloc m).evict ip).brk = t.brk + 1 := fun m ip => evict_brk ip
  simp only [enroll, register, set, mk.injEq, hbrk, hindexes, hip, hguid, and_true] at hheap ⊢
  exact hheap

end ClientTable

end TunnelServer
