import TunnelServer.Proof.HashTable

/-!
# Deleting from a hash table

`HASH_DELETE` unlinks the element from the application order and from the chain of its bucket. It
follows the head to the table once more after it may have changed the head, which is where every element
having its own pointer to the table matters.
-/

namespace TunnelServer

namespace UtHash

open Links

variable {hash : List UInt8 → UInt32} {key : Handle → List UInt8} {m : UtHash} {a : Nat}
  {t : UtHashTable} {es : List Handle} {chain : Nat → List Handle} {del : Handle}

/-! ### Unlinking -/

/-- A handle is its place in the two lists and its tags. -/
theorem handle_ext {hh hh' : UtHashHandles} {e : Handle} (happ : appLinks hh' e = appLinks hh e)
    (hbkt : bktLinks hh' e = bktLinks hh e) (htags : tags hh' e = tags hh e) : hh' e = hh e := by
  cases hr : hh e <;> cases hr' : hh' e <;> simp [appLinks, bktLinks, tags, hr, hr'] at *
  rename_i r r'
  obtain ⟨tbl, prev, next, hhPrev, hhNext, keylen, hashv⟩ := r
  obtain ⟨tbl', prev', next', hhPrev', hhNext', keylen', hashv'⟩ := r'
  simp_all

section Unlink

variable {hh : UtHashHandles} {d : UtHashHandle}

theorem storeAt_next {p : Option Handle} (hp : ∀ z, p = some z → ∃ r, hh z = some r)
    (n : Option Handle) :
    ∃ hh', hh.storeAt p (fun r => { r with next := n }) = some hh' ∧
      Parts hh' ((appLinks hh).setNextAt p n) (bktLinks hh) (tags hh) := by
  cases p with
  | none => exact ⟨hh, rfl, rfl, rfl, rfl⟩
  | some z => exact store_next (hp z rfl) n

theorem storeAt_prev {n : Option Handle} (hn : ∀ z, n = some z → ∃ r, hh z = some r)
    (p : Option Handle) :
    ∃ hh', hh.storeAt n (fun r => { r with prev := p }) = some hh' ∧
      Parts hh' ((appLinks hh).setPrevAt n p) (bktLinks hh) (tags hh) := by
  cases n with
  | none => exact ⟨hh, rfl, rfl, rfl, rfl⟩
  | some z => exact store_prev (hn z rfl) p

theorem storeAt_hhNext {p : Option Handle} (hp : ∀ z, p = some z → ∃ r, hh z = some r)
    (n : Option Handle) :
    ∃ hh', hh.storeAt p (fun r => { r with hhNext := n }) = some hh' ∧
      Parts hh' (appLinks hh) ((bktLinks hh).setNextAt p n) (tags hh) := by
  cases p with
  | none => exact ⟨hh, rfl, rfl, rfl, rfl⟩
  | some z => exact store_hhNext (hp z rfl) n

theorem storeAt_hhPrev {n : Option Handle} (hn : ∀ z, n = some z → ∃ r, hh z = some r)
    (p : Option Handle) :
    ∃ hh', hh.storeAt n (fun r => { r with hhPrev := p }) = some hh' ∧
      Parts hh' (appLinks hh) ((bktLinks hh).setPrevAt n p) (tags hh) := by
  cases n with
  | none => exact ⟨hh, rfl, rfl, rfl, rfl⟩
  | some z => exact store_hhPrev (hn z rfl) p

theorem store_unlink_app (hd : hh del = some d)
    (hprev : ∀ z, d.prev = some z → z ≠ del ∧ ∃ r, hh z = some r)
    (hnext : ∀ y, d.next = some y → y ≠ del ∧ ∃ r, hh y = some r) :
    ∃ hh₁ hh₂, hh.storeAt d.prev (fun r => { r with next := d.next }) = some hh₁ ∧
      hh₁ del = some d ∧ hh₁.storeAt d.next (fun r => { r with prev := d.prev }) = some hh₂ ∧
      hh₂ del = some d ∧ Parts hh₂ ((appLinks hh).unlink del) (bktLinks hh) (tags hh) := by
  have hp : d.prev ≠ some del := fun heq => (hprev del heq).1 rfl
  have hn : d.next ≠ some del := fun heq => (hnext del heq).1 rfl
  obtain ⟨hh₁, hfirst, happ₁, hbkt₁, htags₁⟩ := storeAt_next (fun z hz => (hprev z hz).2) d.next
  have hlive : ∀ y, d.next = some y → ∃ r, hh₁ y = some r := by
    intro y hy
    obtain ⟨r, hr⟩ := (hnext y hy).2
    exact live_of_bktLinks (by rw [hbkt₁, bktLinks_eq hr]; rfl)
  obtain ⟨hh₂, hsecond, happ₂, hbkt₂, htags₂⟩ := storeAt_prev hlive d.prev
  have hd₁ : hh₁ del = some d := by
    rw [← hd]
    exact handle_ext (by rw [happ₁, setNextAt_of_ne hp]) (by rw [hbkt₁]) (by rw [htags₁])
  have hd₂ : hh₂ del = some d := by
    rw [← hd₁]
    exact handle_ext (by rw [happ₂, setPrevAt_of_ne hn]) (by rw [hbkt₂]) (by rw [htags₂])
  refine ⟨hh₁, hh₂, hfirst, hd₁, hsecond, hd₂, ?_, hbkt₂.trans hbkt₁, htags₂.trans htags₁⟩
  rw [happ₂, happ₁, unlink, appLinks_eq hd]

theorem store_unlink_bkt (hd : hh del = some d)
    (hprev : ∀ z, d.hhPrev = some z → z ≠ del ∧ ∃ r, hh z = some r)
    (hnext : ∀ y, d.hhNext = some y → y ≠ del ∧ ∃ r, hh y = some r) :
    ∃ hh₁ hh₂, hh.storeAt d.hhPrev (fun r => { r with hhNext := d.hhNext }) = some hh₁ ∧
      hh₁ del = some d ∧ hh₁.storeAt d.hhNext (fun r => { r with hhPrev := d.hhPrev }) = some hh₂ ∧
      Parts hh₂ (appLinks hh) ((bktLinks hh).unlink del) (tags hh) := by
  have hp : d.hhPrev ≠ some del := fun heq => (hprev del heq).1 rfl
  obtain ⟨hh₁, hfirst, happ₁, hbkt₁, htags₁⟩ :=
    storeAt_hhNext (fun z hz => (hprev z hz).2) d.hhNext
  have hlive : ∀ y, d.hhNext = some y → ∃ r, hh₁ y = some r := by
    intro y hy
    obtain ⟨r, hr⟩ := (hnext y hy).2
    exact live_of_appLinks (by rw [happ₁, appLinks_eq hr]; rfl)
  obtain ⟨hh₂, hsecond, happ₂, hbkt₂, htags₂⟩ := storeAt_hhPrev hlive d.hhPrev
  have hd₁ : hh₁ del = some d := by
    rw [← hd]
    exact handle_ext (by rw [happ₁]) (by rw [hbkt₁, setNextAt_of_ne hp]) (by rw [htags₁])
  refine ⟨hh₁, hh₂, hfirst, hd₁, hsecond, happ₂.trans happ₁, ?_, htags₂.trans htags₁⟩
  rw [hbkt₂, hbkt₁, unlink, bktLinks_eq hd]

end Unlink

/-! ### The bucket -/

/-- The table with an element taken out of bucket `b`; `head` is what the bucket then starts with. -/
def popBucket (t : UtHashTable) (b : Nat) (head : Option Handle) : UtHashTable :=
  { t with
    buckets :=
      { t.buckets with
        cell := Function.update t.buckets.cell b
          { t.buckets.cell b with
            count := (t.buckets.cell b).count - 1
            hhHead := head } } }

/-- The chain of a bucket loses an element and the other chains stay. -/
theorem Bucketed.pop {L : Links Handle} (hb : Bucketed hash key L t es chain) (hnodup : es.Nodup)
    (hdel : del ∈ es) {b : Nat} (hbkt : hashToBkt (hash (key del)) t.numBuckets = b) {k : Link Handle}
    (hk : L del = some k) :
    Bucketed hash key (L.unlink del)
      (popBucket t b
        (if (t.buckets.cell b).hhHead = some del then k.next else (t.buckets.cell b).hhHead))
      (es.erase del) (Function.update chain b ((chain b).erase del)) := by
  have hblt : b < t.numBuckets.toNat := hbkt ▸ hb.bucket_lt _
  have hmem : del ∈ chain b := hbkt ▸ hb.mem_chain hdel
  have hchain := hb.chains b hblt
  refine ⟨hb.pow, hb.buckets, fun c hlt => ?_, fun c hlt => ?_, fun c hlt => ?_, fun c hlt e => ?_⟩
  · by_cases hc : c = b
    · subst hc
      rw [Function.update_self]
      exact hchain.unlink hmem
    · rw [Function.update_of_ne hc]
      refine (hb.chains c hlt).congr fun e he => unlink_of_not_mem hchain hmem ?_
      exact hb.chains_apart hlt hblt hc he
  · by_cases hc : c = b
    · subst hc
      have hhead := hchain.head_iff hmem hk
      simp only [popBucket, Function.update_self, hb.hhHead c hblt, (hchain.erase_ends hmem hk).1]
      by_cases hfirst : (chain c).head? = some del
      · rw [if_pos hfirst, if_neg (not_not.2 (hhead.2 hfirst))]
      · rw [if_neg hfirst, if_pos (mt hhead.1 hfirst)]
    · simpa [popBucket, hc] using hb.hhHead c hlt
  · by_cases hc : c = b
    · subst hc
      have hpos := List.length_pos_of_mem hmem
      rw [← hb.count c hblt] at hpos
      simp only [popBucket, Function.update_self]
      rw [toNat_sub_one hpos, hb.count c hblt, List.length_erase_of_mem hmem]
    · simpa [popBucket, hc] using hb.count c hlt
  · show e ∈ _ ↔ e ∈ es.erase del ∧ hashToBkt (hash (key e)) t.numBuckets = c
    rw [hnodup.mem_erase_iff, and_assoc, ← hb.mem c hlt e]
    by_cases hc : c = b
    · subst hc
      rw [Function.update_self, hchain.nodup.mem_erase_iff]
    · rw [Function.update_of_ne hc]
      refine (and_iff_right_of_imp fun he heq => ?_).symm
      exact hb.chains_apart hlt hblt hc (heq ▸ he) hmem

theorem hashDelInBkt_eq {rest : List Handle} (ho : Ordered hash key m a t rest) (hne : rest ≠ [])
    (hb : Bucketed hash key (bktLinks m.hh) t es chain) (hnodup : es.Nodup) (hdel : del ∈ es) {b : Nat}
    (hbkt : hashToBkt (hash (key del)) t.numBuckets = b) :
    ∃ hh head, hashDelInBkt b del m = some ((m.setHh hh).setTable a (popBucket t b head)) ∧
      Bucketed hash key (bktLinks hh) (popBucket t b head) (es.erase del)
        (Function.update chain b ((chain b).erase del)) ∧
      appLinks hh = appLinks m.hh ∧ tags hh = tags m.hh := by
  have hblt : b < t.numBuckets.toNat := hbkt ▸ hb.bucket_lt _
  have hmem : del ∈ chain b := hbkt ▸ hb.mem_chain hdel
  have hchain := hb.chains b hblt
  obtain ⟨d, hd⟩ := live_of_bktLinks (hchain.live hmem)
  obtain ⟨hprev, hnext⟩ := hchain.neighbours hmem (bktLinks_eq hd)
  have hother : ∀ z ∈ (chain b).erase del, z ≠ del ∧ ∃ r, m.hh z = some r := by
    intro z hz
    rw [hchain.nodup.mem_erase_iff] at hz
    exact ⟨hz.1, live_of_bktLinks (hchain.live hz.2)⟩
  obtain ⟨hh₁, hh, hfirst, hd₁, hsecond, happ, hlinks, htags⟩ :=
    store_unlink_bkt hd (fun z hz => hother z (hprev z hz)) fun y hy => hother y (hnext y hy)
  have hpop := hb.pop hnodup hdel hbkt (bktLinks_eq hd)
  rw [← hlinks] at hpop
  refine ⟨hh, _, ?_, hpop, happ, htags⟩
  simp only [hashDelInBkt, ho.tbl_eq hne, hb.read_bucket hblt, hd, hfirst, hd₁, hsecond,
    Option.bind_eq_bind, Option.bind_some,
    CArray.write_natCast (show b < t.buckets.length by rw [hb.buckets]; exact hblt)]
  rfl

/-! ### The whole deletion -/

def deletedTable (t : UtHashTable) (b : Nat) (head tail : Option Handle) : UtHashTable :=
  { popBucket t b head with tail, numItems := t.numItems - 1 }

theorem Built.hashDelete_last (hb : Built hash key m a t [del] chain) :
    hashDelete del m = some { m with tables := Function.update m.tables a none, head := none } := by
  have htbl := hb.ordered.tbl_eq (List.cons_ne_nil _ _)
  obtain ⟨d, hd⟩ := hb.ordered.live List.mem_cons_self
  have hlink := hb.ordered.order.seg.1
  rw [appLinks_eq hd, Option.some.injEq, Link.mk.injEq] at hlink
  simp [hashDelete, hd, hlink.1, hlink.2, htbl]

theorem Ordered.unlink (ho : Ordered hash key m a t es) (hdel : del ∈ es) {hh : UtHashHandles}
    {u : UtHashTable} (happ : appLinks hh = (appLinks m.hh).unlink del)
    (htags : UtHash.tags hh = UtHash.tags m.hh) (htail : u.tail = (es.erase del).getLast?) :
    Ordered hash key (((m.setHh hh).setHead (es.erase del).head?).setTable a u) a u (es.erase del) := by
  refine ⟨Function.update_self _ _ _, rfl, htail, ?_, ?_⟩
  · show DList (appLinks hh) _
    rw [happ]
    exact ho.order.unlink hdel
  · intro e he
    show UtHash.tags hh e = _
    rw [htags]
    exact ho.tags e (List.mem_of_mem_erase he)

theorem Built.hashDelete_eq (hb : Built hash key m a t es chain) (hdel : del ∈ es)
    (hne : es.erase del ≠ []) :
    ∃ hh head tail b, hashDelete del m =
        some (((m.setHh hh).setHead (es.erase del).head?).setTable a
          (deletedTable t b head tail)) ∧
      Built hash key
        (((m.setHh hh).setHead (es.erase del).head?).setTable a
        (deletedTable t b head tail)) a (deletedTable t b head tail) (es.erase del)
        (Function.update chain b ((chain b).erase del)) ∧
      ∀ x, (hh x).isSome = (m.hh x).isSome := by
  have ho := hb.ordered
  have horder := ho.order
  obtain ⟨d, hd, -, -, hhash⟩ := ho.handle hdel
  have hlink := appLinks_eq hd
  obtain ⟨hprev, hnext⟩ := horder.neighbours hdel hlink
  have hother : ∀ z ∈ es.erase del, z ≠ del ∧ ∃ r, m.hh z = some r := by
    intro z hz
    rw [horder.nodup.mem_erase_iff] at hz
    exact ⟨hz.1, ho.live hz.2⟩
  obtain ⟨hh₁, hh₂, hfirst, hd₁, hsecond, hd₂, happ, hbkt, htags⟩ :=
    store_unlink_app hd (fun z hz => hother z (hprev z hz)) fun y hy => hother y (hnext y hy)
  obtain ⟨hhead, htail⟩ := horder.erase_ends hdel hlink
  have halone : ¬ (d.prev = none ∧ d.next = none) := by
    intro hnone
    refine hne ?_
    rw [horder.eq_singleton hdel (by rw [hlink, hnone.1, hnone.2]), List.erase_cons_head]
  have hguard : t.tail = some del → d.prev ≠ none := by
    intro hlast hprev
    rw [ho.tail] at hlast
    exact halone ⟨hprev, (horder.last_iff hdel hlink).2 hlast⟩
  -- the table and the memory once the element is out of the application order
  have ht₁ : (if t.tail = some del then m.setTable a { t with tail := d.prev } else m) =
      m.setTable a { t with tail := (es.erase del).getLast? } := by
    rw [htail, ← ho.tail]
    split_ifs
    · rfl
    · exact (setTable_self ho.table).symm
  have ho₁ : Ordered hash key _ a { t with tail := (es.erase del).getLast? } _ :=
    ho.unlink hdel happ htags rfl
  have hb₁ : Bucketed hash key (bktLinks hh₂) { t with tail := (es.erase del).getLast? } es chain :=
    hb.bucketed.congr (fun e _ => by rw [hbkt]) (fun _ _ => rfl) rfl rfl rfl
  obtain ⟨b, hb'⟩ : ∃ b, hashToBkt (hash (key del)) t.numBuckets = b := ⟨_, rfl⟩
  obtain ⟨hh, head, hdelin, hbuckets, happ', htags'⟩ :=
    hashDelInBkt_eq ho₁ hne hb₁ horder.nodup hdel hb'
  have ho₂ : Ordered hash key
      (((m.setHh hh).setHead (es.erase del).head?).setTable a
        (popBucket { t with tail := (es.erase del).getLast? } b head)) a
      (popBucket { t with tail := (es.erase del).getLast? } b head) (es.erase del) := by
    have hpopped := (ho₁.setHh happ' htags').setTable
      (u := popBucket { t with tail := (es.erase del).getLast? } b head) rfl
    rwa [setTable_setHh, setTable_setTable] at hpopped
  have hcount := ho₂.storeTbl_eq hne fun t => { t with numItems := t.numItems - 1 }
  refine ⟨hh, head, (es.erase del).getLast?, b, ?_,
    ⟨?_, hbuckets.congr (fun _ _ => rfl) (fun _ _ => rfl) rfl rfl rfl, ?_⟩, fun x => ?_⟩
  · have htbl := ho₁.tbl_eq hne
    have hpass : (guard (t.tail = some del → d.prev ≠ none) : Option Unit) = some () := by
      rw [guard, if_pos hguard]
      rfl
    have hfirst' : (if d.prev ≠ none then es.head? else d.next) = (es.erase del).head? := hhead.symm
    simp only [hashDelete, hd, halone, if_false, ho.tbl_eq (List.ne_nil_of_mem hdel), hpass, ht₁,
      setTable_hh, hfirst, setTable_setHh, setHh_hh, setTable_head, ho.head, hfirst',
      setTable_setHead, setHead_hh, hd₁, hsecond, setHead_setHh, setHh_setHh, hd₂, htbl, hhash, hb',
      Option.bind_eq_bind, Option.bind_some]
    rw [hdelin]
    simp only [setTable_setHh, setHead_setHh, setHh_setHh, setTable_setTable, Option.bind_some,
      hcount]
    rfl
  · have hset := ho₂.setTable
      (u := deletedTable t b head (es.erase del).getLast?) rfl
    rwa [setTable_setTable] at hset
  · show (t.numItems - 1).toNat = _
    have hpos := List.length_pos_of_mem hdel
    rw [← hb.items] at hpos
    rw [toNat_sub_one hpos, hb.items, List.length_erase_of_mem hdel]
  · rw [← appLinks_isSome, happ', appLinks_isSome, ← bktLinks_isSome]
    show (bktLinks hh₂ x).isSome = _
    rw [hbkt, bktLinks_isSome]

end UtHash

end TunnelServer
