import TunnelServer.HashRuns
import TunnelServer.Proof.HashLoad

/-!
# A hash table as an index

`Represents` ties the memory of a table to the keyed index it stands for. While the table is empty nothing
is allocated; otherwise one table is, and it is whole and within its load. Every macro takes a memory that
represents an index to one that represents the index after the operation of the same name.
-/

namespace TunnelServer

namespace UtHash

open Links

variable {hash : List UInt8 → UInt32} {key : Handle → List UInt8} {field : Handle → List UInt8}
  {m : UtHash} {es : List Handle} {idx : HashIndex (List UInt8) Handle} {e : Handle} {fuel : Nat}

/-- The memory holds the elements `es`: no table when there are none, and a single one otherwise. -/
structure Holds (hash : List UInt8 → UInt32) (key : Handle → List UInt8) (m : UtHash)
    (es : List Handle) : Prop where
  fresh : ∀ c, m.nextTable ≤ c → m.tables c = none
  empty : es = [] → m.head = none ∧ ∀ c, m.tables c = none
  built : es ≠ [] → ∃ a t chain, Built hash key m a t es chain ∧ Load t ∧
    ∀ c, c ≠ a → m.tables c = none

theorem holds_nil (hash : List UInt8 → UInt32) (key : Handle → List UInt8) (hfresh : ∀ c, m.tables c = none)
    (hhead : m.head = none) : Holds hash key m [] where
  fresh := fun c _ => hfresh c
  empty := fun _ => ⟨hhead, hfresh⟩
  built := fun h => absurd rfl h

theorem Holds.small (h : Holds hash key m es) (hs : m.Small) {a : Nat} {t : UtHashTable}
    (ht : m.tables a = some t) : t.log2NumBuckets < 31 ∧ t.numItems.toNat < 2 ^ 28 := by
  have hlt : a < m.nextTable := by
    by_contra hle
    rw [h.fresh a (Nat.not_lt.1 hle)] at ht
    cases ht
  exact hs a hlt t ht

theorem small_of_tables (hall : ∀ a t, m.tables a = some t →
    t.log2NumBuckets < 31 ∧ t.numItems.toNat < 2 ^ 28) : m.Small :=
  fun a _ t ht => hall a t ht

/-- An element outside the table can be written to, allocated and freed. -/
theorem Holds.update (h : Holds hash key m es) {x : Handle} (hx : x ∉ es) (r : Option UtHashHandle) :
    Holds hash key (m.setHh (Function.update m.hh x r)) es where
  fresh := h.fresh
  empty := h.empty
  built := by
    intro hne
    obtain ⟨a, t, chain, hb, hrest⟩ := h.built hne
    refine ⟨a, t, chain, ⟨hb.ordered.update hx r, ?_, hb.items⟩, hrest⟩
    refine hb.bucketed.congr (fun e he => ?_) (fun _ _ => rfl) rfl rfl rfl
    have hex : e ≠ x := fun heq => hx (heq ▸ he)
    simp [bktLinks, hex]

/-! ### Adding -/

/-- The bucket of a new element, with the expansion it may lead to. -/
theorem hashAddToBkt_built {a : Nat} {t : UtHashTable} {chain : Nat → List Handle}
    (ho : Ordered hash key m a t (es ++ [e])) (hb : Bucketed hash key (bktLinks m.hh) t es chain)
    (hnodup : es.Nodup) (he : e ∉ es) (hitems : t.numItems.toNat = (es ++ [e]).length)
    (hload : Load t) (hlog : t.log2NumBuckets < 31) (hroom : es.length < 2 ^ 28)
    (hfuel : es.length < fuel) :
    ∃ hh u chain', hashAddToBkt fuel true (hashToBkt (hash (key e)) t.numBuckets) e m =
        some ((m.setHh hh).setTable a u) ∧
      Built hash key ((m.setHh hh).setTable a u) a u (es ++ [e]) chain' ∧ Load u ∧
      appLinks hh = appLinks m.hh := by
  have hmem : ∀ x, x ∈ es ++ [e] ↔ x ∈ es ∨ x = e := by simp
  have hin : e ∈ es ++ [e] := List.mem_append_right _ List.mem_cons_self
  have hlen : (es ++ [e]).length = es.length + 1 := List.length_append
  obtain ⟨b, hbkt⟩ : ∃ b, hashToBkt (hash (key e)) t.numBuckets = b := ⟨_, rfl⟩
  obtain ⟨hh₁, hadd, ho₁, hb₁, happ₁⟩ := hashAddToBkt_eq ho hb hin he hmem hbkt (by omega) fuel true
  have hbuilt : Built hash key ((m.setHh hh₁).setTable a (addBucket t b e)) a (addBucket t b e)
      (es ++ [e]) (Function.update chain b (e :: chain b)) := ⟨ho₁, hb₁, hitems⟩
  rw [hbkt, hadd]
  by_cases hfull : Overfull ((addBucket t b e).buckets.cell b) ∧ t.noexpand ≠ 1
  · obtain ⟨hh₂, u, hexpand, hbuilt₂, hx, happ₂⟩ :=
      hbuilt.hashExpandBuckets_eq (List.ne_nil_of_mem hin) hlog (hlen.trans_le hfuel)
    rw [setTable_setHh, setTable_setTable, setHh_setHh] at hexpand hbuilt₂
    have hzero : t.noexpand = 0 := hload.flag.resolve_right hfull.2
    have hbelow : t.numItems.toNat ≤
        2 * HASH_BKT_CAPACITY_THRESH.toNat * t.numBuckets.toNat := by
      have hlt := hload.sum_lt hzero (hb.pow ▸ Nat.two_pow_pos _)
      rw [hb.sum_count hnodup] at hlt
      rw [hitems, hlen]
      exact hlt
    have hsum := hbuilt₂.bucketed.sum_count ho.order.nodup
    have hsome : 0 < t.numItems.toNat := by
      rw [hitems, hlen]
      exact Nat.succ_pos _
    have hcap : t.numItems.toNat ≤ 2 ^ 28 := by
      rw [hitems, hlen]
      exact hroom
    exact ⟨hh₂, u, _, by rw [if_pos hfull, hexpand], hbuilt₂,
      hx.load hzero hb.pow hlog hsome hcap hbelow
        (hsum.trans hitems.symm), happ₂.trans happ₁⟩
  · refine ⟨hh₁, addBucket t b e, _, by rw [if_neg hfull], hbuilt, ?_, happ₁⟩
    refine hload.update rfl rfl rfl rfl fun hzero hlt => Or.inr ?_
    have hbelow : ¬ Overfull ((addBucket t b e).buckets.cell b) :=
      fun hover => hfull ⟨hover, by rw [hzero]; decide⟩
    have hlimit := hload.limit hzero b hlt
    rw [addBucket_cell_self, overfull_iff (by exact hlimit), Nat.not_le] at hbelow
    exact hbelow

theorem Holds.hashAdd_first (h : Holds hash key m []) (hlive : ∃ r, m.hh e = some r) {keylen : Nat}
    (hlen : keylen ≤ (field e).length) (hfuel : 0 < fuel) :
    ∃ u, hashAdd hash field fuel true keylen e m = some u ∧
      Holds hash (Function.update key e ((field e).take keylen)) u [e] ∧
      ∀ x, (u.hh x).isSome = (m.hh x).isSome := by
  have hk : ((field e).take keylen).length = keylen := List.length_take_of_le hlen
  have hkey : hash (Function.update key e ((field e).take keylen) e) = hash ((field e).take keylen) := by
    rw [Function.update_self]
  obtain ⟨hhead, hnone⟩ := h.empty rfl
  obtain ⟨m₁, horder, ho₁, htables, hnext, hrest⟩ :=
    hashAddToOrder_empty hash key hhead hlive ((field e).take keylen)
  obtain ⟨hh, u, chain, hadd, hbuilt, hload, happ⟩ := hashAddToBkt_built ho₁
    (bucketed_newTable _ e) List.nodup_nil List.not_mem_nil rfl (load_newTable e)
    (show HASH_INITIAL_NUM_BUCKETS_LOG2 < 31 by decide) (by decide) hfuel
  rw [hk] at horder
  rw [hkey] at hadd
  have htable : ∀ c, c ≠ m.nextTable → ((m₁.setHh hh).setTable m.nextTable u).tables c = none := by
    intro c hc
    rw [setTable_tables, if_neg hc, setHh_tables, htables, Function.update_of_ne hc, hnone]
  have hlives : ∀ x, (hh x).isSome = (m.hh x).isSome := by
    intro x
    rw [← appLinks_isSome, happ, appLinks_isSome]
    by_cases hx : x = e
    · obtain ⟨r, hr⟩ := hlive
      obtain ⟨s, hs⟩ := ho₁.live List.mem_cons_self
      rw [hx, hr, hs]
      rfl
    · rw [hrest x hx]
  refine ⟨_, ?_, ⟨fun c hc => htable c ?_, fun habs => absurd habs (by simp),
    fun _ => ⟨_, u, chain, hbuilt, hload, htable⟩⟩, hlives⟩
  · simp only [UtHash.hashAdd, horder, ho₁.tbl_eq (List.cons_ne_nil _ _), Option.bind_eq_bind,
      Option.bind_some]
    exact hadd
  · intro heq
    rw [setTable_nextTable, setHh_nextTable, hnext, heq] at hc
    exact Nat.not_succ_le_self _ hc

theorem Holds.hashAdd_more (h : Holds hash key m es) (hs : m.Small) (hne : es ≠ [])
    (hlive : ∃ r, m.hh e = some r) (he : e ∉ es) {keylen : Nat} (hlen : keylen ≤ (field e).length)
    (hfuel : es.length < fuel) :
    ∃ u, hashAdd hash field fuel true keylen e m = some u ∧
      Holds hash (Function.update key e ((field e).take keylen)) u (es ++ [e]) ∧
      ∀ x, (u.hh x).isSome = (m.hh x).isSome := by
  have hk : ((field e).take keylen).length = keylen := List.length_take_of_le hlen
  have hkey : hash (Function.update key e ((field e).take keylen) e) = hash ((field e).take keylen) := by
    rw [Function.update_self]
  obtain ⟨a, t, chain, hb, hload, hone⟩ := h.built hne
  obtain ⟨hlog, hroom⟩ := h.small hs hb.ordered.table
  have hitems : (t.numItems + 1).toNat = (es ++ [e]).length := by
    rw [toNat_add_one (by omega), hb.items, List.length_append, List.length_singleton]
  rw [hb.items] at hroom
  obtain ⟨hh₁, horder, ho₁, hbkt⟩ := hashAddToOrder_eq hb hne he hlive ((field e).take keylen)
  have hbuckets : Bucketed hash (Function.update key e ((field e).take keylen)) (bktLinks hh₁)
      { t with tail := some e, numItems := t.numItems + 1 } es chain :=
    hb.bucketed.congr (fun x _ => by rw [hbkt]) (update_key_of_mem he _) rfl rfl rfl
  obtain ⟨hh, u, chain', hadd, hbuilt, hload', happ⟩ := hashAddToBkt_built ho₁ hbuckets
    hb.ordered.order.nodup he hitems (hload.congr rfl rfl rfl) hlog hroom hfuel
  rw [hk] at horder
  rw [hkey] at hadd
  rw [setTable_setHh, setTable_setTable, setHh_setHh] at hadd hbuilt
  have htable : ∀ c, c ≠ a → ((m.setHh hh).setTable a u).tables c = none := by
    intro c hc
    rw [setTable_tables, if_neg hc]
    exact hone c hc
  have hlives : ∀ x, (hh x).isSome = (m.hh x).isSome := by
    intro x
    rw [← appLinks_isSome, happ, appLinks_isSome, setTable_hh, setHh_hh, ← bktLinks_isSome, hbkt,
      bktLinks_isSome]
  refine ⟨_, ?_, ⟨fun c hc => htable c ?_, fun habs => absurd habs (by simp),
    fun _ => ⟨_, u, chain', hbuilt, hload', htable⟩⟩, hlives⟩
  · simp only [UtHash.hashAdd, horder, ho₁.tbl_eq (List.append_ne_nil_of_left_ne_nil hne _),
      Option.bind_eq_bind, Option.bind_some]
    exact hadd
  · intro heq
    have hfree := h.fresh c hc
    rw [heq, hb.ordered.table] at hfree
    cases hfree

theorem Holds.hashAdd (h : Holds hash key m es) (hs : m.Small) (hlive : ∃ r, m.hh e = some r)
    (he : e ∉ es) {keylen : Nat} (hlen : keylen ≤ (field e).length) (hfuel : es.length < fuel) :
    ∃ u, hashAdd hash field fuel true keylen e m = some u ∧
      Holds hash (Function.update key e ((field e).take keylen)) u (es ++ [e]) ∧
      ∀ x, (u.hh x).isSome = (m.hh x).isSome := by
  by_cases hne : es = []
  · subst hne
    exact h.hashAdd_first hlive hlen hfuel
  · exact h.hashAdd_more hs hne hlive he hlen hfuel

/-! ### Deleting and clearing -/

/-- `HASH_DELETE` of an element of the table. With the last one the table is freed. -/
theorem Holds.hashDelete (h : Holds hash key m es) (he : e ∈ es) :
    ∃ u, hashDelete e m = some u ∧ Holds hash key u (es.erase e) ∧
      (∀ x, (u.hh x).isSome = (m.hh x).isSome) ∧ (m.Small → u.Small) := by
  obtain ⟨a, t, chain, hb, hload, hone⟩ := h.built (List.ne_nil_of_mem he)
  by_cases hne : es.erase e = []
  · -- nothing else is in the table
    have hes : es = [e] := by
      have hperm := List.perm_cons_erase he
      rw [hne] at hperm
      exact List.perm_singleton.1 hperm
    subst hes
    have hnone : ∀ c, Function.update m.tables a none c = none := by
      intro c
      by_cases hc : c = a
      · subst hc
        exact Function.update_self _ _ _
      · exact (Function.update_of_ne hc _ _).trans (hone c hc)
    refine ⟨_, hb.hashDelete_last, ?_, fun _ => rfl, fun _ => small_of_tables fun c t ht => ?_⟩
    · rw [hne]
      exact holds_nil hash key hnone rfl
    · cases (hnone c).symm.trans ht
  · obtain ⟨hh, head, tail, b, hdelete, hbuilt, hlives⟩ := hb.hashDelete_eq he hne
    have htable : ∀ c, c ≠ a → (((m.setHh hh).setHead (es.erase e).head?).setTable a
        (deletedTable t b head tail)).tables c = none := by
      intro c hc
      rw [setTable_tables, if_neg hc]
      exact hone c hc
    refine ⟨_, hdelete, ⟨fun c hc => htable c ?_, fun habs => absurd habs hne,
      fun _ => ⟨a, _, _, hbuilt, ?_, htable⟩⟩, hlives, fun hs => small_of_tables fun c u hu => ?_⟩
    · intro heq
      have hfree := h.fresh c hc
      rw [heq, hb.ordered.table] at hfree
      cases hfree
    · refine hload.update rfl rfl rfl rfl fun _ hlt => Or.inl ?_
      have hcell := hbuilt.bucketed.count b hlt
      simp only [deletedTable, popBucket, Function.update_self] at hcell
      rw [hcell, hb.bucketed.count b hlt]
      exact List.length_erase_le
    · obtain ⟨hlog, hroom⟩ := h.small hs hb.ordered.table
      by_cases hc : c = a
      · subst hc
        obtain rfl : deletedTable t b head tail = u :=
          Option.some.inj (hbuilt.ordered.table.symm.trans hu)
        refine ⟨hlog, ?_⟩
        rw [hbuilt.items]
        exact List.length_erase_le.trans_lt (hb.items ▸ hroom)
      · rw [htable c hc] at hu
        cases hu

theorem Holds.hashClear (h : Holds hash key m es) :
    ∃ u, hashClear m = some u ∧ Holds hash key u [] ∧ u.hh = m.hh := by
  by_cases hne : es = []
  · obtain ⟨hhead, hnone⟩ := h.empty hne
    exact ⟨m, by rw [UtHash.hashClear, hhead], holds_nil hash key hnone hhead, rfl⟩
  · obtain ⟨a, t, chain, hb, -, hone⟩ := h.built hne
    obtain ⟨first, rest, hes⟩ := List.exists_cons_of_ne_nil hne
    have hhead : m.head = some first := by rw [hb.ordered.head, hes]; rfl
    refine ⟨{ m with tables := Function.update m.tables a none, head := none }, ?_,
      holds_nil hash key (fun c => ?_) rfl, rfl⟩
    · simp only [UtHash.hashClear, hhead, hb.ordered.tbl_eq hne, Option.bind_eq_bind,
        Option.bind_some]
    · by_cases hc : c = a
      · subst hc
        exact Function.update_self _ _ _
      · exact (Function.update_of_ne hc _ _).trans (hone c hc)

/-! ### The index -/

theorem index_concat (he : e ∉ es) (k : List UInt8) :
    index (Function.update key e k) (es ++ [e]) = (index key es).add k e := by
  have hold : es.map (fun x => (Function.update key e k x, x)) = es.map fun x => (key x, x) :=
    List.map_congr_left fun x hx => by rw [update_key_of_mem he k x hx]
  simp [index, HashIndex.add, hold]

theorem index_erase (hnodup : es.Nodup) : index key (es.erase e) = (index key es).delete e := by
  have hfilter : es.filter (· != e) =
      es.filter ((fun p : List UInt8 × Handle => decide (p.2 ≠ e)) ∘ fun x => (key x, x)) :=
    List.filter_congr fun x _ => by by_cases hx : x = e <;> simp [hx]
  rw [hnodup.erase_eq_filter, index, index, HashIndex.delete, List.filter_reverse, List.filter_map,
    hfilter]

theorem map_snd_index : (index key es).entries.map Prod.snd = es.reverse := by
  simp [index, Function.comp_def]

/-- The memory stands for an index: its elements have the keys they are found under. -/
def Represents (hash : List UInt8 → UInt32) (field : Handle → List UInt8) (m : UtHash)
    (idx : HashIndex (List UInt8) Handle) : Prop :=
  ∃ key es, Holds hash key m es ∧ idx = index key es ∧ (es.map key).Nodup ∧
    ∀ e ∈ es, (field e).take (key e).length = key e

theorem Represents.small (h : Represents hash field m idx) (hs : m.Small) {a : Nat} {t : UtHashTable}
    (ht : m.tables a = some t) : t.log2NumBuckets < 31 ∧ t.numItems.toNat < 2 ^ 28 := by
  obtain ⟨key, es, hholds, -⟩ := h
  exact hholds.small hs ht

theorem represents_empty (hash : List UInt8 → UInt32) (field : Handle → List UInt8)
    (hfresh : ∀ c, m.tables c = none) (hhead : m.head = none) : Represents hash field m .empty :=
  ⟨fun _ => [], [], holds_nil hash _ hfresh hhead, rfl, List.nodup_nil, fun _ h => nomatch h⟩

/-- Memory outside the table and fields outside the keys may change. -/
theorem Represents.frame (h : Represents hash field m idx) {x : Handle}
    (hx : x ∉ idx.entries.map Prod.snd) (r : Option UtHashHandle) {field' : Handle → List UInt8}
    (hfield : ∀ e, e ≠ x → field' e = field e) :
    Represents hash field' (m.setHh (Function.update m.hh x r)) idx := by
  obtain ⟨key, es, hholds, rfl, hkeys, hread⟩ := h
  rw [map_snd_index, List.mem_reverse] at hx
  refine ⟨key, es, hholds.update hx r, rfl, hkeys, fun e he => ?_⟩
  rw [hfield e fun heq => hx (heq ▸ he)]
  exact hread e he

theorem Represents.hashAdd (h : Represents hash field m idx) (hs : m.Small)
    (hlive : ∃ r, m.hh e = some r)
    (he : e ∉ idx.entries.map Prod.snd) {keylen : Nat} (hlen : keylen ≤ (field e).length)
    (hnew : idx.find ((field e).take keylen) = none) (hfuel : idx.count < fuel) :
    ∃ u, UtHash.hashAdd hash field fuel true keylen e m = some u ∧
      Represents hash field u (idx.add ((field e).take keylen) e) ∧
      ∀ x, (u.hh x).isSome = (m.hh x).isSome := by
  obtain ⟨key, es, hholds, rfl, hkeys, hread⟩ := h
  rw [map_snd_index, List.mem_reverse] at he
  rw [HashIndex.count, index, List.length_reverse, List.length_map] at hfuel
  obtain ⟨u, hadd, hholds', hlives⟩ := hholds.hashAdd hs hlive he hlen hfuel
  have hfresh : (field e).take keylen ∉ es.map key := by
    rw [HashIndex.find_eq_none, HashIndex.keys] at hnew
    intro hmem
    obtain ⟨x, hx, hkx⟩ := List.mem_map.1 hmem
    exact hnew (List.mem_map.2 ⟨(key x, x), mem_index.2 ⟨hx, rfl⟩, hkx⟩)
  have hmap : es.map (Function.update key e ((field e).take keylen)) = es.map key :=
    List.map_congr_left (update_key_of_mem he _)
  refine ⟨u, hadd, ⟨_, _, hholds', (index_concat he _).symm, ?_, fun x hx => ?_⟩, hlives⟩
  · rw [List.map_append, hmap, List.map_singleton, Function.update_self, List.nodup_append]
    refine ⟨hkeys, List.nodup_singleton _, fun k hk k' hk' heq => hfresh ?_⟩
    rw [List.mem_singleton] at hk'
    rwa [← hk', ← heq]
  · rcases List.mem_append.1 hx with hx | hx
    · rw [update_key_of_mem he _ x hx]
      exact hread x hx
    · rw [List.mem_singleton] at hx
      subst hx
      rw [Function.update_self, List.length_take_of_le hlen]

theorem Represents.hashDelete (h : Represents hash field m idx) (he : e ∈ idx.entries.map Prod.snd) :
    ∃ u, UtHash.hashDelete e m = some u ∧ Represents hash field u (idx.delete e) ∧
      (∀ x, (u.hh x).isSome = (m.hh x).isSome) ∧ (m.Small → u.Small) := by
  obtain ⟨key, es, hholds, rfl, hkeys, hread⟩ := h
  rw [map_snd_index, List.mem_reverse] at he
  obtain ⟨u, hdelete, hholds', hlives⟩ := hholds.hashDelete he
  refine ⟨u, hdelete, ⟨key, es.erase e, hholds', (index_erase hkeys.of_map).symm, ?_, ?_⟩, hlives⟩
  · exact (List.erase_sublist.map key).nodup hkeys
  · intro x hx
    exact hread x (List.mem_of_mem_erase hx)

theorem Represents.hashClear (h : Represents hash field m idx) :
    ∃ u, UtHash.hashClear m = some u ∧ Represents hash field u .empty ∧ u.hh = m.hh := by
  obtain ⟨key, es, hholds, -, -, -⟩ := h
  obtain ⟨u, hclear, hholds', hsame⟩ := hholds.hashClear
  exact ⟨u, hclear, ⟨key, [], hholds', rfl, List.nodup_nil, fun _ h => nomatch h⟩, hsame⟩

/-! ### What can be read off a table -/

theorem Represents.hashFind (h : Represents hash field m idx) (hfuel : idx.count ≤ fuel)
    (k : List UInt8) : UtHash.hashFind hash field fuel k m = some (idx.find k) := by
  obtain ⟨key, es, hholds, rfl, hkeys, hread⟩ := h
  rw [HashIndex.count, index, List.length_reverse, List.length_map] at hfuel
  by_cases hne : es = []
  · rw [UtHash.hashFind, (hholds.empty hne).1, hne]
    rfl
  · obtain ⟨a, t, chain, hb, -⟩ := hholds.built hne
    exact hb.hashFind_eq hread hkeys k
      ((hb.bucketed.length_chain_le (hb.bucketed.bucket_lt k)).trans hfuel)

theorem Represents.hashCnt (h : Represents hash field m idx) :
    (UtHash.hashCnt m).map UInt32.toNat = some idx.count := by
  obtain ⟨key, es, hholds, rfl, hkeys, hread⟩ := h
  rw [HashIndex.count, index, List.length_reverse, List.length_map]
  by_cases hne : es = []
  · rw [UtHash.hashCnt, (hholds.empty hne).1, hne]
    rfl
  · obtain ⟨a, t, chain, hb, -⟩ := hholds.built hne
    exact hb.hashCnt_eq hne

theorem Represents.hashFsck (h : Represents hash field m idx) (hfuel : idx.count ≤ fuel) :
    UtHash.hashFsck fuel m = some () := by
  obtain ⟨key, es, hholds, rfl, hkeys, hread⟩ := h
  rw [HashIndex.count, index, List.length_reverse, List.length_map] at hfuel
  by_cases hne : es = []
  · rw [UtHash.hashFsck, (hholds.empty hne).1]
  · obtain ⟨a, t, chain, hb, -⟩ := hholds.built hne
    exact hb.hashFsck_eq hfuel

theorem Represents.count_lt (h : Represents hash field m idx) (hs : m.Small) : idx.count < 2 ^ 28 := by
  obtain ⟨key, es, hholds, rfl, -, -⟩ := h
  rw [HashIndex.count, index, List.length_reverse, List.length_map]
  by_cases hne : es = []
  · rw [hne]
    decide
  · obtain ⟨a, t, chain, hb, -⟩ := hholds.built hne
    rw [← hb.items]
    exact (hholds.small hs hb.ordered.table).2

theorem Represents.hashVisit (h : Represents hash field m idx) (hfuel : idx.count ≤ fuel) :
    UtHash.hashVisit fuel m = some (idx.entries.map Prod.snd).reverse := by
  obtain ⟨key, es, hholds, rfl, hkeys, hread⟩ := h
  rw [HashIndex.count, index, List.length_reverse, List.length_map] at hfuel
  rw [map_snd_index, List.reverse_reverse]
  by_cases hne : es = []
  · rw [UtHash.hashVisit, (hholds.empty hne).1, hne]
    cases fuel <;> rfl
  · obtain ⟨a, t, chain, hb, -⟩ := hholds.built hne
    exact hb.hashVisit_eq hfuel

theorem Represents.tbl_of_tables (h : Represents hash field m idx) {a : Nat} {t : UtHashTable}
    (ht : m.tables a = some t) : m.tbl = some (a, t) := by
  obtain ⟨key, es, hholds, -, -, -⟩ := h
  by_cases hne : es = []
  · rw [(hholds.empty hne).2 a] at ht
    cases ht
  · obtain ⟨c, u, chain, hb, -, hone⟩ := hholds.built hne
    have hac : a = c := by
      by_contra hac
      rw [hone a hac] at ht
      cases ht
    subst hac
    rw [hb.ordered.table, Option.some.injEq] at ht
    rw [← ht, hb.ordered.tbl_eq hne]

theorem Represents.head_eq (h : Represents hash field m idx) :
    m.head = (idx.entries.map Prod.snd).reverse.head? := by
  obtain ⟨key, es, hholds, rfl, -, -⟩ := h
  rw [map_snd_index, List.reverse_reverse]
  by_cases hne : es = []
  · rw [(hholds.empty hne).1, hne]
    rfl
  · obtain ⟨a, t, chain, hb, -⟩ := hholds.built hne
    exact hb.ordered.head

theorem Represents.next_eq (h : Represents hash field m idx) {rest : List Handle}
    (hes : (idx.entries.map Prod.snd).reverse = e :: rest) :
    (m.hh e).map UtHashHandle.next = some rest.head? := by
  obtain ⟨key, es, hholds, rfl, -, -⟩ := h
  rw [map_snd_index, List.reverse_reverse] at hes
  subst hes
  obtain ⟨a, t, chain, hb, -⟩ := hholds.built (List.cons_ne_nil _ _)
  obtain ⟨r, hr⟩ := hb.ordered.live List.mem_cons_self
  have horder : DList (appLinks m.hh) ([] ++ e :: rest) := hb.ordered.order
  have hfirst := horder.at
  rw [appLinks_eq hr, Option.some.injEq] at hfirst
  rw [hr]
  exact congrArg (fun k => some k.next) hfirst

/-! ### The load of a table -/

theorem Represents.built (h : Represents hash field m idx) {a : Nat} {t : UtHashTable}
    (ht : m.tables a = some t) : ∃ key es chain, Built hash key m a t es chain ∧ Load t ∧ es ≠ [] ∧
      idx = index key es ∧ (es.map key).Nodup ∧ (∀ e ∈ es, (field e).take (key e).length = key e) ∧
      (∀ c, m.nextTable ≤ c → m.tables c = none) ∧ ∀ c, c ≠ a → m.tables c = none := by
  obtain ⟨key, es, hholds, hidx, hkeys, hread⟩ := h
  by_cases hne : es = []
  · rw [(hholds.empty hne).2 a] at ht
    cases ht
  · obtain ⟨c, u, chain, hb, hload, hone⟩ := hholds.built hne
    have hac : a = c := by
      by_contra hac
      rw [hone a hac] at ht
      cases ht
    subst hac
    obtain rfl : u = t := Option.some.inj (hb.ordered.table.symm.trans ht)
    exact ⟨key, es, chain, hb, hload, hne, hidx, hkeys, hread, hholds.fresh, hone⟩

/-- While expansion is not inhibited, a search takes no more rounds than the limit of its bucket, the
multipliers add up to no more than the buckets, and there are fewer than twenty elements a bucket. -/
theorem Represents.bounded (h : Represents hash field m idx) {a : Nat} {t : UtHashTable}
    (ht : m.tables a = some t) (hexpand : t.noexpand ≠ 1) :
    (∀ k, UtHash.hashFind hash field (HASH_BKT_CAPACITY_THRESH.toNat *
        ((t.buckets.cell (hashToBkt (hash k) t.numBuckets)).expandMult.toNat + 1)) k m =
          some (idx.find k)) ∧
      ∑ b ∈ Finset.range t.numBuckets.toNat, (t.buckets.cell b).expandMult.toNat ≤
        t.numBuckets.toNat ∧
      idx.count < 2 * HASH_BKT_CAPACITY_THRESH.toNat * t.numBuckets.toNat := by
  obtain ⟨key, es, chain, hb, hload, -, rfl, hkeys, hread, -⟩ := h.built ht
  have hzero := hload.flag.resolve_right hexpand
  refine ⟨fun k => hb.hashFind_eq hread hkeys k ?_, hload.mult hzero, ?_⟩
  · have hlt := hb.bucketed.bucket_lt k
    rw [← hb.bucketed.count _ hlt]
    exact hload.short hzero _ hlt
  · have hsum := hload.sum_lt hzero (hb.bucketed.pow ▸ Nat.two_pow_pos _)
    rw [hb.bucketed.sum_count hb.ordered.order.nodup] at hsum
    simpa [HashIndex.count, index] using hsum

end UtHash

end TunnelServer
