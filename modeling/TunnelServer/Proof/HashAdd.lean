import TunnelServer.Proof.HashTable

/-!
# Adding to a hash table

`HASH_ADD` writes the fields of the new handle, puts the element behind the last one in application
order and in front of the chain of its bucket. What the bucket expansion does afterwards is left to
`HashExpand`.
-/

namespace TunnelServer

namespace UtHash

open Links

variable {hash : List UInt8 → UInt32} {key : Handle → List UInt8} {m : UtHash} {a : Nat}
  {t : UtHashTable} {es : List Handle} {chain : Nat → List Handle} {add : Handle}
  {r : UtHashHandle}

/-! ### The application order -/

theorem update_key_of_mem (hadd : add ∉ es) (k : List UInt8) :
    ∀ e ∈ es, Function.update key add k e = key e :=
  fun e he => Function.update_of_ne (fun heq : e = add => hadd (heq ▸ he)) _ _

theorem hashAppendList_eq (ho : Ordered hash key m a t es) (hne : es ≠ []) (hadd : add ∉ es)
    (hr : m.hh add = some r) {k : List UInt8} (htags : tags m.hh add = some (some a, k.length, hash k)) :
    ∃ hh, hashAppendList add m = some ((m.setHh hh).setTable a { t with tail := some add }) ∧
      Ordered hash (Function.update key add k) ((m.setHh hh).setTable a { t with tail := some add })
        a { t with tail := some add } (es ++ [add]) ∧
      bktLinks hh = bktLinks m.hh := by
  obtain ⟨z, hz⟩ : ∃ z, es.getLast? = some z :=
    ⟨es.getLast hne, List.getLast?_eq_some_getLast hne⟩
  have hzmem : z ∈ es := List.mem_of_getLast? hz
  have htail : t.tail = some z := ho.tail.trans hz
  obtain ⟨s, hs⟩ := ho.live hzmem
  have hza : z ≠ add := fun heq => hadd (heq ▸ hzmem)
  -- the two writes to the new element come down to one
  have hfirst : m.hh.store add (fun r => { r with next := none }) =
      some (Function.update m.hh add (some { r with next := none })) := store_eq hr
  have hsecond : UtHashHandles.store (Function.update m.hh add (some { r with next := none })) add
      (fun r => { r with prev := some z }) =
        some (Function.update m.hh add (some { r with next := none, prev := some z })) := by
    rw [store_eq (Function.update_self _ _ _), Function.update_idem]
  have hlast : ∃ s, Function.update m.hh add (some { r with next := none, prev := some z }) z =
      some s :=
    ⟨s, by rw [Function.update_of_ne hza, hs]⟩
  obtain ⟨hh, hstore, happ, hbkt, htag⟩ := store_next hlast (some add)
  have htbl := (ho.update hadd (some { r with next := none })).tbl_eq hne
  rw [appLinks_update] at happ
  rw [bktLinks_update, update_bkt_same hr] at hbkt
  rw [tags_update, update_tags_same hr] at htag
  refine ⟨hh, ?_, ⟨Function.update_self _ _ _, ?_, List.getLast?_concat.symm, ?_, ?_⟩, hbkt⟩
  · simp only [hashAppendList, hfirst, htbl, htail, setHh_hh, hsecond, hstore, setHh_setHh,
      Option.bind_eq_bind, Option.bind_some]
  · rw [List.head?_append_of_ne_nil _ hne]
    exact ho.head
  · show DList (appLinks hh) (es ++ [add])
    have hpush := ho.order.pushBack hadd
    rw [hz] at hpush
    rwa [happ]
  · intro e he
    show UtHash.tags hh e = _
    rw [htag]
    rcases List.mem_append.1 he with he | he
    · rw [update_key_of_mem hadd k e he]
      exact ho.tags e he
    · rw [List.mem_singleton] at he
      subst he
      rw [Function.update_self]
      exact htags

theorem hashAddToOrder_eq (hb : Built hash key m a t es chain) (hne : es ≠ []) (hadd : add ∉ es)
    (hlive : ∃ r, m.hh add = some r) (k : List UInt8) :
    ∃ hh, hashAddToOrder true (hash k) k.length add m =
        some ((m.setHh hh).setTable a { t with tail := some add, numItems := t.numItems + 1 }) ∧
      Ordered hash (Function.update key add k)
        ((m.setHh hh).setTable a { t with tail := some add, numItems := t.numItems + 1 }) a
        { t with tail := some add, numItems := t.numItems + 1 } (es ++ [add]) ∧
      bktLinks hh = bktLinks m.hh := by
  obtain ⟨r, hr⟩ := hlive
  obtain ⟨first, rest, hes⟩ := List.exists_cons_of_ne_nil hne
  have hfirst : first ∈ es := hes ▸ List.mem_cons_self
  have hhead : m.head = some first := by rw [hb.ordered.head, hes]; rfl
  obtain ⟨s, hs, htbl, -⟩ := hb.ordered.handle hfirst
  have hfa : first ≠ add := fun heq => hadd (heq ▸ hfirst)
  have hfill : m.hh.store add (fun r => { r with hashv := hash k, keylen := k.length }) =
      some (Function.update m.hh add (some { r with hashv := hash k, keylen := k.length })) :=
    store_eq hr
  have hread : Function.update m.hh add (some { r with hashv := hash k, keylen := k.length }) first =
      some s := by
    rw [Function.update_of_ne hfa, hs]
  have howner :
      UtHashHandles.store
        (Function.update m.hh add (some { r with hashv := hash k, keylen := k.length })) add
        (fun r => { r with tbl := some a }) =
      some (Function.update m.hh add
        (some { r with tbl := some a, hashv := hash k, keylen := k.length })) := by
    rw [store_eq (Function.update_self _ _ _), Function.update_idem]
  have ho := hb.ordered.update hadd
    (some { r with tbl := some a, hashv := hash k, keylen := k.length })
  obtain ⟨hh, happend, horder, hbkt⟩ := hashAppendList_eq ho hne hadd (Function.update_self _ _ _)
    (k := k) (by rw [setHh_hh, tags_eq (Function.update_self _ _ _)])
  rw [setHh_setHh] at happend horder
  have hcount := horder.storeTbl_eq (by simp) fun t => { t with numItems := t.numItems + 1 }
  refine ⟨hh, ?_, ?_, ?_⟩
  · simp only [hashAddToOrder, hfill, setHh_head, hhead, setHh_hh, hread, htbl, howner, setHh_setHh,
      happend, Option.bind_eq_bind, Option.bind_some]
    rw [hcount, setTable_setTable]
  · have hset := horder.setTable
      (u := { t with tail := some add, numItems := t.numItems + 1 }) rfl
    rwa [setTable_setTable] at hset
  · rw [hbkt, setHh_hh, bktLinks_update, update_bkt_same hr]

def newTable (add : Handle) : UtHashTable where
  buckets := ⟨HASH_INITIAL_NUM_BUCKETS.toNat, fun _ => emptyBucket⟩
  numBuckets := HASH_INITIAL_NUM_BUCKETS
  log2NumBuckets := HASH_INITIAL_NUM_BUCKETS_LOG2
  numItems := 1
  tail := some add
  idealChainMaxlen := 0
  nonidealItems := 0
  ineffExpands := 0
  noexpand := 0

theorem bucketed_newTable (L : Links Handle) (add : Handle) :
    Bucketed hash key L (newTable add) [] fun _ => [] where
  pow := rfl
  buckets := rfl
  chains := fun _ _ => dlist_nil L
  hhHead := fun _ _ => rfl
  count := fun _ _ => rfl
  mem := by simp

theorem hashAddToOrder_empty (hash : List UInt8 → UInt32) (key : Handle → List UInt8)
    (hhead : m.head = none) (hlive : ∃ r, m.hh add = some r) (k : List UInt8) :
    ∃ u, hashAddToOrder true (hash k) k.length add m = some u ∧
      Ordered hash (Function.update key add k) u m.nextTable (newTable add) [add] ∧
      u.tables = Function.update m.tables m.nextTable (some (newTable add)) ∧
      u.nextTable = m.nextTable + 1 ∧ ∀ e ≠ add, u.hh e = m.hh e := by
  obtain ⟨r, hr⟩ := hlive
  have horder : ∀ u : UtHash, u.head = some add → u.tables m.nextTable = some (newTable add) →
      u.hh add = some
        { r with
          tbl := some m.nextTable, prev := none, next := none, keylen := k.length,
          hashv := hash k } →
      Ordered hash (Function.update key add k) u m.nextTable (newTable add) [add] := by
    intro u hhead htable hadd
    refine ⟨htable, hhead, rfl, ⟨List.nodup_singleton _, appLinks_eq hadd, trivial⟩, ?_⟩
    intro e he
    rw [List.mem_singleton] at he
    subst he
    rw [tags_eq hadd, Function.update_self]
  refine ⟨
    { hh := Function.update m.hh add
        (some
          { r with
            tbl := some m.nextTable, prev := none, next := none, keylen := k.length,
            hashv := hash k })
      tables := Function.update m.tables m.nextTable (some (newTable add))
      nextTable := m.nextTable + 1
      head := some add }, ?_, ?_, rfl, rfl, fun e he => Function.update_of_ne he _ _⟩
  · simp [hashAddToOrder, hashMakeTable, UtHashHandles.store, setHh, setHead, setTable, storeTbl, UtHash.tbl,
      hhead, hr, newTable]
  · exact horder _ rfl (Function.update_self _ _ _) (Function.update_self _ _ _)

/-! ### The bucket -/

/-- The table with an element put in front of the chain of bucket `b`, which gets the multiplier
`mult`. -/
def pushBucket (t : UtHashTable) (b : Nat) (add : Handle) (mult : UInt32) : UtHashTable :=
  { t with
    buckets :=
      { t.buckets with
        cell := Function.update t.buckets.cell b
          { hhHead := some add
            count := (t.buckets.cell b).count + 1
            expandMult := mult } } }

def addBucket (t : UtHashTable) (b : Nat) (add : Handle) : UtHashTable :=
  pushBucket t b add (t.buckets.cell b).expandMult

theorem addBucket_cell_self (t : UtHashTable) (b : Nat) (add : Handle) :
    (addBucket t b add).buckets.cell b =
      { hhHead := some add
        count := (t.buckets.cell b).count + 1
        expandMult := (t.buckets.cell b).expandMult } :=
  Function.update_self _ _ _

/-- A bucket has reached the length at which it asks for an expansion. -/
def Overfull (b : UtHashBucket) : Prop := b.count ≥ (b.expandMult + 1) * HASH_BKT_CAPACITY_THRESH

instance (b : UtHashBucket) : Decidable (Overfull b) := inferInstanceAs (Decidable (_ ≥ _))

/-- The writes that put an element in front of a chain. -/
theorem store_front {hh : UtHashHandles} {head : Option Handle} (hlive : ∃ r, hh add = some r)
    (hhead : ∀ f, head = some f → f ≠ add ∧ ∃ r, hh f = some r) :
    ∃ hh₁ hh₂, hh.store add (fun r => { r with hhNext := head, hhPrev := none }) = some hh₁ ∧
      hh₁.storeAt head (fun r => { r with hhPrev := some add }) = some hh₂ ∧
      Parts hh₂ (appLinks hh) ((bktLinks hh).pushFront head add) (tags hh) ∧
      ∀ e, e ≠ add → head ≠ some e → hh₂ e = hh e := by
  obtain ⟨r, hr⟩ := hlive
  have hrest : ∀ e, e ≠ add → Function.update hh add
      (some { r with hhNext := head, hhPrev := none }) e = hh e :=
    fun e he => Function.update_of_ne he _ _
  cases head with
  | none =>
      refine ⟨_, _, store_eq hr, rfl, ⟨?_, ?_, ?_⟩, fun e he _ => hrest e he⟩
      · rw [appLinks_update, update_app_same hr]
      · rw [bktLinks_update]
        rfl
      · rw [tags_update, update_tags_same hr]
  | some f =>
      obtain ⟨hfa, s, hs⟩ := hhead f rfl
      have hs' : Function.update hh add (some { r with hhNext := some f, hhPrev := none }) f =
          some s := by
        rw [hrest f hfa, hs]
      refine ⟨_, _, store_eq hr, store_eq hs', ⟨?_, ?_, ?_⟩, ?_⟩
      · rw [appLinks_update, update_app_same hs', appLinks_update, update_app_same hr]
      · rw [bktLinks_update, bktLinks_update, pushFront]
        show _ = setPrev _ f _
        rw [setPrev, Function.update_of_ne hfa,
          bktLinks_eq hs]
        rfl
      · rw [tags_update, update_tags_same hs', tags_update, update_tags_same hr]
      · intro e he hef
        have hne : e ≠ f := fun heq => hef (by rw [heq])
        rw [Function.update_of_ne hne, hrest e he]

/-- The chain of a bucket grows by one element and the other chains stay. -/
theorem Bucketed.push {L : Links Handle} (hb : Bucketed hash key L t es chain) (hadd : add ∉ es)
    {es' : List Handle} (hes : ∀ e, e ∈ es' ↔ e ∈ es ∨ e = add) {b : Nat}
    (hbkt : hashToBkt (hash (key add)) t.numBuckets = b) (hroom : (chain b).length + 1 < 2 ^ 32)
    (mult : UInt32) :
    Bucketed hash key (L.pushFront (chain b).head? add) (pushBucket t b add mult) es'
      (Function.update chain b (add :: chain b)) := by
  have hblt : b < t.numBuckets.toNat := hbkt ▸ hb.bucket_lt _
  have hnot : ∀ c < t.numBuckets.toNat, add ∉ chain c := fun c hlt hc => hadd ((hb.mem c hlt add).1 hc).1
  refine ⟨hb.pow, hb.buckets, ?_, ?_, ?_, ?_⟩
  · intro c hlt
    by_cases hc : c = b
    · subst hc
      rw [Function.update_self]
      exact (hb.chains c hlt).pushFront (hnot c hlt)
    · rw [Function.update_of_ne hc]
      refine (hb.chains c hlt).congr fun e he => pushFront_of_ne ?_ ?_
      · intro heq
        exact hnot c hlt (heq ▸ he)
      · intro hhead
        exact hb.chains_apart hlt hblt hc he (List.mem_of_head? hhead)
  · intro c hlt
    by_cases hc : c = b
    · subst hc
      simp [pushBucket]
    · simpa [pushBucket, hc] using hb.hhHead c hlt
  · intro c hlt
    by_cases hc : c = b
    · subst hc
      rw [← hb.count c hlt] at hroom
      simp only [pushBucket, Function.update_self, List.length_cons]
      rw [toNat_add_one hroom, hb.count c hlt]
    · simpa [pushBucket, hc] using hb.count c hlt
  · intro c hlt e
    show e ∈ _ ↔ e ∈ es' ∧ hashToBkt (hash (key e)) t.numBuckets = c
    rw [hes]
    by_cases hc : c = b
    · subst hc
      rw [Function.update_self, List.mem_cons, hb.mem c hlt e]
      constructor
      · intro he
        rcases he with rfl | he
        · exact ⟨Or.inr rfl, hbkt⟩
        · exact ⟨Or.inl he.1, he.2⟩
      · intro he
        rcases he.1 with hold | rfl
        · exact Or.inr ⟨hold, he.2⟩
        · exact Or.inl rfl
    · rw [Function.update_of_ne hc, hb.mem c hlt e]
      refine and_congr_left fun heq => ⟨Or.inl, fun he => he.resolve_right ?_⟩
      intro hea
      exact hc (by rw [← heq, hea, hbkt])

/-- `HASH_ADD_TO_BKT` for an element that is already last in application order. -/
theorem hashAddToBkt_eq (ho : Ordered hash key m a t es) {old : List Handle}
    (hb : Bucketed hash key (bktLinks m.hh) t old chain) (hadd : add ∈ es) (hold : add ∉ old)
    (hes : ∀ e, e ∈ es ↔ e ∈ old ∨ e = add) {b : Nat}
    (hbkt : hashToBkt (hash (key add)) t.numBuckets = b) (hroom : old.length + 1 < 2 ^ 32)
    (fuel : Nat) (mem : Bool) :
    ∃ hh, hashAddToBkt fuel mem b add m =
        (if Overfull ((addBucket t b add).buckets.cell b) ∧ t.noexpand ≠ 1 then
          hashExpandBuckets fuel mem a ((m.setHh hh).setTable a (addBucket t b add))
        else some ((m.setHh hh).setTable a (addBucket t b add))) ∧
      Ordered hash key ((m.setHh hh).setTable a (addBucket t b add)) a (addBucket t b add) es ∧
      Bucketed hash key (bktLinks hh) (addBucket t b add) es
        (Function.update chain b (add :: chain b)) ∧
      appLinks hh = appLinks m.hh := by
  have hne : es ≠ [] := List.ne_nil_of_mem hadd
  have hblt : b < t.numBuckets.toNat := hbkt ▸ hb.bucket_lt _
  obtain ⟨r, hr, htbl, -⟩ := ho.handle hadd
  have hshort := hb.length_chain_le hblt
  have hpush := hb.push hold hes hbkt (by omega) (t.buckets.cell b).expandMult
  have hfront : ∀ f, (t.buckets.cell b).hhHead = some f → f ≠ add ∧ ∃ r, m.hh f = some r := by
    intro f hf
    rw [hb.hhHead b hblt] at hf
    have hmem := List.mem_of_head? hf
    exact ⟨fun heq => hold (heq ▸ ((hb.mem b hblt f).1 hmem).1),
      live_of_bktLinks ((hb.chains b hblt).live hmem)⟩
  obtain ⟨hh₁, hh, hfirst, hsecond, ⟨happ, hlinks, htags⟩, -⟩ := store_front ⟨r, hr⟩ hfront
  rw [hb.hhHead b hblt] at hlinks
  have hadds : (hh add).isSome := by
    have hlive : (appLinks hh add).isSome := by
      rw [happ]
      exact ho.order.live hadd
    rwa [appLinks, Option.isSome_map] at hlive
  obtain ⟨s, hs⟩ := Option.isSome_iff_exists.1 hadds
  have hown : s.tbl = some a := by
    have htag := tags_eq hs
    rw [htags, tags_eq hr, Option.some.injEq, Prod.mk.injEq] at htag
    rw [← htag.1, htbl]
  refine ⟨hh, ?_, (ho.setHh happ htags).setTable rfl, ?_, happ⟩
  · simp only [hashAddToBkt, ho.tbl_eq hne, hb.read_bucket hblt, hfirst, hsecond, setTable_hh,
      setHh_hh, hs, hown, setTable_tables, if_true, Option.bind_eq_bind, Option.bind_some,
      CArray.write_natCast (show b < t.buckets.length by rw [hb.buckets]; exact hblt)]
    have hover : Overfull ((addBucket t b add).buckets.cell b) ↔
        (t.buckets.cell b).count + 1 ≥
          ((t.buckets.cell b).expandMult + 1) * HASH_BKT_CAPACITY_THRESH := by
      rw [addBucket_cell_self, Overfull]
    simp only [hover, ite_and]
    rfl
  · rw [hlinks]
    exact hpush

end UtHash

end TunnelServer
