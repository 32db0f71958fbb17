import Mathlib.Algebra.BigOperators.Group.Finset.Basic
import TunnelServer.Proof.HashAdd

/-!
# Expanding the buckets

`HASH_EXPAND_BUCKETS` takes the old chains apart from the front and puts each element in front of its
new chain. `Moved` is the invariant of its two loops: the new buckets are those of a table over the
elements moved so far, and the handles of the others are as they were.
-/

namespace TunnelServer

namespace UtHash

open Links Finset

variable {hash : List UInt8 → UInt32} {key : Handle → List UInt8} {m : UtHash} {a : Nat}
  {t : UtHashTable} {es moved : List Handle} {chain : Nat → List Handle} {e : Handle} {ideal : UInt32}
  {x : Expansion} {hh : UtHashHandles}

/-! ### Twice the buckets -/

theorem log2_add_one (hlog : t.log2NumBuckets < 31) :
    (t.log2NumBuckets + 1).toNat = t.log2NumBuckets.toNat + 1 := by
  have hlt : t.log2NumBuckets.toNat < 31 := hlog
  exact toNat_add_one (by omega)

theorem double_toNat (hpow : t.numBuckets.toNat = 2 ^ t.log2NumBuckets.toNat)
    (hlog : t.log2NumBuckets < 31) : (t.numBuckets * 2).toNat = t.numBuckets.toNat * 2 := by
  have hlt : t.log2NumBuckets.toNat < 31 := hlog
  have hle : 2 ^ t.log2NumBuckets.toNat ≤ 2 ^ 30 := Nat.pow_le_pow_right (by decide) (by omega)
  rw [UInt32.toNat_mul, hpow]
  exact Nat.mod_eq_of_lt (Nat.lt_of_le_of_lt (Nat.mul_le_mul_right 2 hle) (by decide))

theorem double_pow (hpow : t.numBuckets.toNat = 2 ^ t.log2NumBuckets.toNat)
    (hlog : t.log2NumBuckets < 31) : (t.numBuckets * 2).toNat = 2 ^ (t.log2NumBuckets.toNat + 1) := by
  rw [double_toNat hpow hlog, hpow, Nat.pow_succ]

def idealOf (t : UtHashTable) : UInt32 :=
  (t.numItems >>> (t.log2NumBuckets + 1)) + if t.numItems &&& (t.numBuckets * 2 - 1) ≠ 0 then 1 else 0

/-- It is the number of elements over the number of new buckets, rounded up. -/
theorem idealOf_eq (hpow : t.numBuckets.toNat = 2 ^ t.log2NumBuckets.toNat)
    (hlog : t.log2NumBuckets < 31) : (idealOf t).toNat =
      (t.numItems.toNat + ((t.numBuckets * 2).toNat - 1)) / (t.numBuckets * 2).toNat := by
  have hlt : t.log2NumBuckets.toNat < 31 := hlog
  have hdouble := double_pow hpow hlog
  have hshift : (t.numItems >>> (t.log2NumBuckets + 1)).toNat =
      t.numItems.toNat / (t.numBuckets * 2).toNat := by
    rw [UInt32.toNat_shiftRight, log2_add_one hlog, Nat.mod_eq_of_lt (by omega),
      Nat.shiftRight_eq_div_pow, hdouble]
  have hmask : (t.numItems &&& (t.numBuckets * 2 - 1)) ≠ 0 ↔
      t.numItems.toNat % (t.numBuckets * 2).toNat ≠ 0 := by
    rw [← and_sub_one_toNat t.numItems hdouble, ne_eq, ne_eq, ← UInt32.toNat_inj, UInt32.toNat_zero]
  have htwo : 2 ≤ (t.numBuckets * 2).toNat := by
    rw [hdouble, Nat.pow_succ]
    have := Nat.two_pow_pos t.log2NumBuckets.toNat
    omega
  have hitems := t.numItems.toNat_lt
  rw [idealOf, UInt32.toNat_add, hshift]
  simp only [hmask]
  generalize (t.numBuckets * 2).toNat = n at htwo
  generalize t.numItems.toNat = k at hitems
  have hpos : 0 < n := by omega
  have hmod := Nat.mod_lt k hpos
  have hhalf : k / n ≤ k / 2 := Nat.div_le_div_left htwo (by decide)
  have hsplit : k + (n - 1) = n * (k / n) + (k % n + (n - 1)) := by
    have := Nat.div_add_mod k n
    omega
  rw [hsplit, Nat.mul_add_div hpos]
  split_ifs with hrest
  · rw [UInt32.toNat_one, Nat.mod_eq_of_lt (by omega), Nat.add_left_cancel_iff]
    exact (Nat.div_eq_of_lt_le (by omega) (by omega)).symm
  · rw [UInt32.toNat_zero, Nat.mod_eq_of_lt (by omega), Nat.add_left_cancel_iff]
    exact (Nat.div_eq_of_lt (by omega)).symm

theorem idealOf_pos (hpow : t.numBuckets.toNat = 2 ^ t.log2NumBuckets.toNat)
    (hlog : t.log2NumBuckets < 31) (hitems : 0 < t.numItems.toNat) : 0 < (idealOf t).toNat := by
  have hpos : 0 < (t.numBuckets * 2).toNat := double_pow hpow hlog ▸ Nat.two_pow_pos _
  rw [idealOf_eq hpow hlog]
  exact Nat.div_pos (by omega) hpos

theorem numItems_le_idealOf (hpow : t.numBuckets.toNat = 2 ^ t.log2NumBuckets.toNat)
    (hlog : t.log2NumBuckets < 31) :
    t.numItems.toNat ≤ (idealOf t).toNat * (t.numBuckets * 2).toNat := by
  have hpos : 0 < (t.numBuckets * 2).toNat := double_pow hpow hlog ▸ Nat.two_pow_pos _
  rw [idealOf_eq hpow hlog]
  have := Nat.lt_div_mul_add (a := t.numItems.toNat + ((t.numBuckets * 2).toNat - 1)) hpos
  omega

/-! ### The loops -/

def doubled (t : UtHashTable) (buckets : CArray UtHashBucket) : UtHashTable :=
  { t with buckets, numBuckets := t.numBuckets * 2, log2NumBuckets := t.log2NumBuckets + 1 }

/-- The chain of a new bucket once the elements `moved` have been moved in this order. -/
def newChain (hash : List UInt8 → UInt32) (key : Handle → List UInt8) (n : UInt32)
    (moved : List Handle) (b : Nat) : List Handle :=
  (moved.filter fun e => hashToBkt (hash (key e)) n = b).reverse

/-- The elements `moved` have been moved, and nothing else has happened to the handles `hh`. -/
structure Moved (hash : List UInt8 → UInt32) (key : Handle → List UInt8) (t : UtHashTable)
    (ideal : UInt32) (hh : UtHashHandles) (moved : List Handle) (x : Expansion) : Prop where
  rest : ∀ e ∉ moved, x.hh e = hh e
  app : appLinks x.hh = appLinks hh
  tag : tags x.hh = tags hh
  bucketed : Bucketed hash key (bktLinks x.hh) (doubled t x.newBuckets) moved
    (newChain hash key (t.numBuckets * 2) moved)
  mult : ∀ b < (t.numBuckets * 2).toNat, (x.newBuckets.cell b).expandMult =
    if (x.newBuckets.cell b).count > ideal then (x.newBuckets.cell b).count / ideal else 0
  nonideal : x.nonidealItems.toNat =
    ∑ b ∈ range (t.numBuckets * 2).toNat, ((x.newBuckets.cell b).count.toNat - ideal.toNat)
  le : x.nonidealItems.toNat ≤ moved.length

theorem length_newChain_le (n : UInt32) (b : Nat) :
    (newChain hash key n moved b).length ≤ moved.length := by
  rw [newChain, List.length_reverse]
  exact List.length_filter_le _ _

theorem newChain_concat (n : UInt32) :
    newChain hash key n (moved ++ [e]) =
      Function.update (newChain hash key n moved) (hashToBkt (hash (key e)) n)
        (e :: newChain hash key n moved (hashToBkt (hash (key e)) n)) := by
  funext b
  by_cases hb : b = hashToBkt (hash (key e)) n
  · subst hb
    simp [newChain]
  · simp [newChain, hb, Ne.symm hb]

theorem moved_nil (hpow : t.numBuckets.toNat = 2 ^ t.log2NumBuckets.toNat)
    (hlog : t.log2NumBuckets < 31) (hh : UtHashHandles) (ideal : UInt32) :
    Moved hash key t ideal hh []
      { hh, newBuckets := ⟨2 * t.numBuckets.toNat, fun _ => emptyBucket⟩, nonidealItems := 0 } where
  rest := fun _ _ => rfl
  app := rfl
  tag := rfl
  bucketed :=
    { pow := (double_pow hpow hlog).trans (congrArg (2 ^ ·) (log2_add_one hlog).symm)
      buckets := (Nat.mul_comm _ _).trans (double_toNat hpow hlog).symm
      chains := fun _ _ => dlist_nil _
      hhHead := fun _ _ => rfl
      count := fun _ _ => rfl
      mem := by simp [newChain] }
  mult := by simp [emptyBucket]
  nonideal := by simp [emptyBucket]
  le := Nat.le_refl _

/-- One more element in a bucket is one more above the ideal length, unless there is room below it. -/
theorem sum_excess_update {cell : Nat → UtHashBucket} {n b : Nat} (hb : b < n) {bkt : UtHashBucket}
    (hcount : bkt.count.toNat = (cell b).count.toNat + 1) (ideal : UInt32) :
    ∑ c ∈ range n, ((Function.update cell b bkt c).count.toNat - ideal.toNat) =
      (∑ c ∈ range n, ((cell c).count.toNat - ideal.toNat)) + if bkt.count > ideal then 1 else 0 := by
  have hmem : b ∈ range n := mem_range.2 hb
  have hrest : ∑ c ∈ (range n).erase b, ((Function.update cell b bkt c).count.toNat - ideal.toNat) =
      ∑ c ∈ (range n).erase b, ((cell c).count.toNat - ideal.toNat) :=
    sum_congr rfl fun c hc => by rw [Function.update_of_ne (ne_of_mem_erase hc)]
  rw [← add_sum_erase _ _ hmem, ← add_sum_erase _ (fun c => (cell c).count.toNat - ideal.toNat) hmem,
    hrest, Function.update_self]
  simp only [gt_iff_lt, UInt32.lt_iff_toNat_lt, hcount]
  split_ifs <;> omega

theorem expandChain_cons (hx : Moved hash key t ideal hh moved x) (hideal : 0 < ideal.toNat)
    (he : e ∉ moved) (hroom : moved.length + 1 < 2 ^ 32) {r : UtHashHandle} (hr : hh e = some r)
    (hhash : r.hashv = hash (key e)) (fuel : Nat) :
    ∃ y, expandChain t.numBuckets ideal (fuel + 1) (some e) x =
        expandChain t.numBuckets ideal fuel r.hhNext y ∧
      Moved hash key t ideal hh (moved ++ [e]) y := by
  have hb := hx.bucketed
  have hxe : x.hh e = some r := (hx.rest e he).trans hr
  have hne : ideal ≠ 0 := fun heq => absurd hideal (by rw [heq]; decide)
  obtain ⟨b, hbkt⟩ : ∃ b, hashToBkt (hash (key e)) (t.numBuckets * 2) = b := ⟨_, rfl⟩
  have hlt : b < (t.numBuckets * 2).toNat := hbkt ▸ hb.bucket_lt (key e)
  have hfront : ∀ f, (x.newBuckets.cell b).hhHead = some f → f ≠ e ∧ ∃ r, x.hh f = some r := by
    intro f hf
    have hmem := List.mem_of_head? ((hb.hhHead b hlt).symm.trans hf)
    exact ⟨fun heq => he (heq ▸ ((hb.mem b hlt f).1 hmem).1),
      live_of_bktLinks ((hb.chains b hlt).live hmem)⟩
  obtain ⟨hh₁, hh₂, hfirst, hsecond, ⟨happ, hlinks, htags⟩, hrest⟩ := store_front ⟨r, hxe⟩ hfront
  have hhead : (x.newBuckets.cell b).hhHead = (newChain hash key (t.numBuckets * 2) moved b).head? :=
    hb.hhHead b hlt
  have hlen : (newChain hash key (t.numBuckets * 2) moved b).length + 1 < 2 ^ 32 :=
    Nat.lt_of_le_of_lt (Nat.succ_le_succ (length_newChain_le _ b)) hroom
  -- what the round writes to the bucket
  let count := (x.newBuckets.cell b).count + 1
  let mult := if count > ideal then count / ideal else (x.newBuckets.cell b).expandMult
  have hcount : count.toNat = (x.newBuckets.cell b).count.toNat + 1 :=
    toNat_add_one (Nat.lt_of_le_of_lt (Nat.le_of_eq (congrArg (· + 1) (hb.count b hlt))) hlen)
  have hle := hx.le
  have hnonideal : (if count > ideal then x.nonidealItems + 1 else x.nonidealItems).toNat =
      x.nonidealItems.toNat + if count > ideal then 1 else 0 := by
    split_ifs
    · exact toNat_add_one (by omega)
    · rfl
  refine ⟨
    { hh := hh₂
      newBuckets := ⟨x.newBuckets.length,
        Function.update x.newBuckets.cell b { hhHead := some e, count, expandMult := mult }⟩
      nonidealItems := if count > ideal then x.nonidealItems + 1 else x.nonidealItems },
    ?_, ?_, happ.trans hx.app, htags.trans hx.tag, ?_, ?_, ?_, ?_⟩
  · have hwrite : ∀ u, x.newBuckets.write b u =
        some ⟨x.newBuckets.length, Function.update x.newBuckets.cell b u⟩ :=
      fun u => CArray.write_natCast (hb.buckets.symm ▸ hlt) u
    have hread : x.newBuckets.read b = some (x.newBuckets.cell b) := hb.read_bucket hlt
    simp only [expandChain, hxe, hhash, hbkt, hread, hne, ne_eq, not_false_eq_true, implies_true,
      guard_true, hfirst, hsecond, hwrite, Option.bind_eq_bind, Option.bind_some]
    rfl
  · intro f hf
    rw [List.mem_append, List.mem_singleton, not_or] at hf
    show hh₂ f = hh f
    rw [hrest f hf.2, hx.rest f hf.1]
    intro heq
    exact hf.1 ((hb.mem b hlt f).1 (List.mem_of_head? (hhead.symm.trans heq))).1
  · have hmem : ∀ f, f ∈ moved ++ [e] ↔ f ∈ moved ∨ f = e := by simp
    have hpush := hb.push he hmem hbkt hlen mult
    rw [newChain_concat, hbkt]
    show Bucketed hash key (bktLinks hh₂) _ _ _
    rw [hlinks, hhead]
    exact hpush
  · intro c hc
    have hold := hx.mult c hc
    by_cases hcb : c = b
    · subst hcb
      simp only [Function.update_self]
      show (if count > ideal then count / ideal else (x.newBuckets.cell c).expandMult) = _
      rw [hold]
      split_ifs with hnew hbefore
      · rfl
      · rw [gt_iff_lt, UInt32.lt_iff_toNat_lt] at hnew hbefore
        omega
      · rfl
    · simp only [Function.update_of_ne hcb]
      exact hold
  · show (if count > ideal then x.nonidealItems + 1 else x.nonidealItems).toNat = _
    rw [sum_excess_update hlt hcount, hnonideal, hx.nonideal]
  · show (if count > ideal then x.nonidealItems + 1 else x.nonidealItems).toNat ≤ _
    rw [hnonideal, List.length_append, List.length_singleton]
    split_ifs <;> omega

theorem expandChain_eq {p : Option Handle} {l : List Handle}
    (hseg : Seg (bktLinks hh) p l none) (hnodup : l.Nodup)
    (htags : ∀ e ∈ l, ∃ r, hh e = some r ∧ r.hashv = hash (key e)) (hideal : 0 < ideal.toNat)
    (hx : Moved hash key t ideal hh moved x) (hnew : ∀ e ∈ l, e ∉ moved)
    (hroom : (moved ++ l).length < 2 ^ 32) {fuel : Nat} (hfuel : l.length ≤ fuel) :
    ∃ y, expandChain t.numBuckets ideal fuel l.head? x = some y ∧
      Moved hash key t ideal hh (moved ++ l) y := by
  induction l generalizing p x moved fuel with
  | nil => exact ⟨x, by cases fuel <;> rfl, by rwa [List.append_nil]⟩
  | cons e l ih =>
      obtain ⟨fuel, rfl⟩ : ∃ f, fuel = f + 1 := ⟨fuel - 1, by simp at hfuel; omega⟩
      obtain ⟨r, hr, hhash⟩ := htags e List.mem_cons_self
      obtain ⟨hlink, hrest⟩ := hseg
      rw [bktLinks_eq hr, Option.some.injEq, Link.mk.injEq, Option.or_none] at hlink
      obtain ⟨hel, hl⟩ := List.nodup_cons.1 hnodup
      rw [List.append_cons] at hroom
      have hnext : moved.length + 1 < 2 ^ 32 := by
        rw [List.length_append, List.length_append, List.length_singleton] at hroom
        omega
      obtain ⟨y, hround, hy⟩ :=
        expandChain_cons hx hideal (hnew e List.mem_cons_self) hnext hr hhash fuel
      have hother : ∀ f ∈ l, f ∉ moved ++ [e] := by
        intro f hf
        rw [List.mem_append, List.mem_singleton, not_or]
        exact ⟨hnew f (List.mem_cons_of_mem _ hf), fun heq => hel (heq ▸ hf)⟩
      obtain ⟨z, hz, hmoved⟩ := ih hrest hl (fun f hf => htags f (List.mem_cons_of_mem _ hf)) hy
        hother hroom (Nat.le_of_succ_le_succ hfuel)
      refine ⟨z, ?_, ?_⟩
      · rw [List.head?_cons, hround, hlink.2, hz]
      · rwa [List.append_assoc, List.singleton_append] at hmoved

theorem expandBuckets_eq (ho : Ordered hash key m a t es)
    (hb : Bucketed hash key (bktLinks m.hh) t es chain) (hideal : 0 < ideal.toNat) {fuel : Nat}
    (hfuel : es.length ≤ fuel) (bs : List Nat) (hbs : ∀ b ∈ bs, b < t.numBuckets.toNat)
    (hnodup : bs.Nodup) (hx : Moved hash key t ideal m.hh moved x)
    (hnew : ∀ b ∈ bs, ∀ e ∈ chain b, e ∉ moved)
    (hroom : (moved ++ bs.flatMap chain).length < 2 ^ 32) :
    ∃ y, bs.foldlM (expandBucket t ideal fuel) x = some y ∧
      Moved hash key t ideal m.hh (moved ++ bs.flatMap chain) y := by
  induction bs generalizing x moved with
  | nil => exact ⟨x, rfl, by rwa [List.flatMap_nil, List.append_nil]⟩
  | cons b bs ih =>
      have hlt := hbs b List.mem_cons_self
      obtain ⟨hbnot, hrestnodup⟩ := List.nodup_cons.1 hnodup
      have htags : ∀ e ∈ chain b, ∃ r, m.hh e = some r ∧ r.hashv = hash (key e) := by
        intro e he
        obtain ⟨r, hr, -, -, hhash⟩ := ho.handle ((hb.mem b hlt e).1 he).1
        exact ⟨r, hr, hhash⟩
      rw [List.flatMap_cons, ← List.append_assoc] at hroom
      have hnext : (moved ++ chain b).length < 2 ^ 32 := by
        rw [List.length_append] at hroom
        omega
      obtain ⟨y, hround, hy⟩ := expandChain_eq (hb.chains b hlt).seg (hb.chains b hlt).nodup htags
        hideal hx (hnew b List.mem_cons_self) hnext ((hb.length_chain_le hlt).trans hfuel)
      have hother : ∀ c ∈ bs, ∀ e ∈ chain c, e ∉ moved ++ chain b := by
        intro c hc e he
        rw [List.mem_append, not_or]
        have hne : c ≠ b := fun heq => hbnot (heq ▸ hc)
        exact ⟨hnew c (List.mem_cons_of_mem _ hc) e he,
          hb.chains_apart (hbs c (List.mem_cons_of_mem _ hc)) hlt hne he⟩
      obtain ⟨z, hz, hmoved⟩ := ih (fun c hc => hbs c (List.mem_cons_of_mem _ hc)) hrestnodup hy hother
        hroom
      refine ⟨z, ?_, ?_⟩
      · have hfirst : expandBucket t ideal fuel x b = some y := by
          simp [expandBucket, hb.read_bucket hlt, hb.hhHead b hlt, hround]
        rw [List.foldlM_cons, hfirst, Option.bind_eq_bind, Option.bind_some, hz]
      · rwa [List.append_assoc, ← List.flatMap_cons] at hmoved

/-! ### The whole expansion -/

def expanded (t : UtHashTable) (buckets : CArray UtHashBucket) (nonideal : UInt32) : UtHashTable :=
  let ineffExpands := if nonideal > t.numItems >>> 1 then t.ineffExpands + 1 else 0
  { doubled t buckets with
    idealChainMaxlen := idealOf t
    nonidealItems := nonideal
    ineffExpands
    noexpand := if ineffExpands > 1 then 1 else t.noexpand }

/-- The chain of bucket `b` after an expansion: the elements of the old bucket it comes from that
belong there, in reverse. -/
def splitChain (hash : List UInt8 → UInt32) (key : Handle → List UInt8) (n : UInt32)
    (chain : Nat → List Handle) (b : Nat) : List Handle :=
  ((chain (b % n.toNat)).filter fun e => hashToBkt (hash (key e)) (n * 2) = b).reverse

/-- Taking the old buckets in turn gives each new bucket elements of one old bucket only. -/
theorem newChain_flatMap {L : Links Handle} (hb : Bucketed hash key L t es chain)
    (hlog : t.log2NumBuckets < 31) (b : Nat) :
    newChain hash key (t.numBuckets * 2) ((List.range t.numBuckets.toNat).flatMap chain) b =
      splitChain hash key t.numBuckets chain b := by
  have hpos : 0 < t.numBuckets.toNat := hb.pow ▸ Nat.two_pow_pos _
  have hfilter : ∀ c < t.numBuckets.toNat, c ≠ b % t.numBuckets.toNat →
      (chain c).filter (fun e => hashToBkt (hash (key e)) (t.numBuckets * 2) = b) = [] := by
    intro c hc hne
    rw [List.filter_eq_nil_iff]
    intro e he heq
    rw [decide_eq_true_eq] at heq
    have hold := ((hb.mem c hc e).1 he).2
    rw [← hashToBkt_double _ hb.pow (double_pow hb.pow hlog), heq] at hold
    exact hne hold.symm
  have hone : ∀ (bs : List Nat), bs.Nodup → (∀ c ∈ bs, c < t.numBuckets.toNat) →
      (bs.flatMap chain).filter (fun e => hashToBkt (hash (key e)) (t.numBuckets * 2) = b) =
        if b % t.numBuckets.toNat ∈ bs then
          (chain (b % t.numBuckets.toNat)).filter
            (fun e => hashToBkt (hash (key e)) (t.numBuckets * 2) = b)
        else [] := by
    intro bs
    induction bs with
    | nil => exact fun _ _ => rfl
    | cons c bs ih =>
        intro hnodup hbs
        obtain ⟨hc, hnodup⟩ := List.nodup_cons.1 hnodup
        rw [List.flatMap_cons, List.filter_append,
          ih hnodup fun d hd => hbs d (List.mem_cons_of_mem _ hd)]
        by_cases heq : c = b % t.numBuckets.toNat
        · subst heq
          rw [if_neg hc, if_pos List.mem_cons_self, List.append_nil]
        · rw [hfilter c (hbs c List.mem_cons_self) heq, List.nil_append]
          simp only [List.mem_cons, Ne.symm heq, false_or]
  rw [newChain, splitChain, hone _ List.nodup_range fun c hc => List.mem_range.1 hc,
    if_pos (List.mem_range.2 (Nat.mod_lt _ hpos))]

/-- What an expansion makes of a whole table. -/
structure Expanded (hash : List UInt8 → UInt32) (key : Handle → List UInt8) (t u : UtHashTable)
    (chain : Nat → List Handle) : Prop where
  table : u = expanded t u.buckets u.nonidealItems
  mult : ∀ b < u.numBuckets.toNat, (u.buckets.cell b).expandMult =
    if (u.buckets.cell b).count > u.idealChainMaxlen then
      (u.buckets.cell b).count / u.idealChainMaxlen
    else 0
  nonideal : u.nonidealItems.toNat =
    ∑ b ∈ range u.numBuckets.toNat, ((u.buckets.cell b).count.toNat - u.idealChainMaxlen.toNat)
  count : ∀ b < u.numBuckets.toNat, (u.buckets.cell b).count.toNat =
    (splitChain hash key t.numBuckets chain b).length

/-- `HASH_EXPAND_BUCKETS` on a whole table that has elements. -/
theorem Built.hashExpandBuckets_eq (hb : Built hash key m a t es chain) (hne : es ≠ [])
    (hlog : t.log2NumBuckets < 31) {fuel : Nat} (hfuel : es.length ≤ fuel) :
    ∃ hh u, hashExpandBuckets fuel true a m = some ((m.setHh hh).setTable a u) ∧
      Built hash key ((m.setHh hh).setTable a u) a u es (splitChain hash key t.numBuckets chain) ∧
      Expanded hash key t u chain ∧ appLinks hh = appLinks m.hh := by
  have hitems : 0 < t.numItems.toNat := by
    rw [hb.items]
    exact List.length_pos_iff.2 hne
  have hideal := idealOf_pos hb.bucketed.pow hlog hitems
  have hperm := hb.bucketed.flatMap_perm hb.ordered.order.nodup
  have hroom : ([] ++ (List.range t.numBuckets.toNat).flatMap chain).length < 2 ^ 32 := by
    rw [List.nil_append, hperm.length_eq, ← hb.items]
    exact t.numItems.toNat_lt
  obtain ⟨x, hloop, hx⟩ := expandBuckets_eq hb.ordered hb.bucketed hideal hfuel
    (List.range t.numBuckets.toNat) (fun b hlt => List.mem_range.1 hlt) List.nodup_range
    (moved_nil hb.bucketed.pow hlog m.hh (idealOf t)) (fun _ _ _ _ => List.not_mem_nil) hroom
  rw [List.nil_append] at hx
  have hsplit : ∀ b, newChain hash key (t.numBuckets * 2)
      ((List.range t.numBuckets.toNat).flatMap chain) b = splitChain hash key t.numBuckets chain b :=
    newChain_flatMap hb.bucketed hlog
  have hbuckets : Bucketed hash key (bktLinks x.hh) (expanded t x.newBuckets x.nonidealItems) es
      (splitChain hash key t.numBuckets chain) := by
    have hold := hx.bucketed
    refine ⟨hold.pow, hold.buckets, fun b hlt => ?_, fun b hlt => ?_, fun b hlt => ?_,
      fun b hlt e => ?_⟩
    · rw [← hsplit b]
      exact hold.chains b hlt
    · rw [← hsplit b]
      exact hold.hhHead b hlt
    · rw [← hsplit b]
      exact hold.count b hlt
    · rw [← hsplit b, hold.mem b hlt e, hperm.mem_iff]
      rfl
  have horder : Ordered hash key
      ((m.setHh x.hh).setTable a (expanded t x.newBuckets x.nonidealItems)) a
      (expanded t x.newBuckets x.nonidealItems) es :=
    (hb.ordered.setHh hx.app hx.tag).setTable rfl
  refine ⟨x.hh, expanded t x.newBuckets x.nonidealItems, ?_, ⟨horder, hbuckets, hb.items⟩,
    ⟨rfl, hx.mult, hx.nonideal, hbuckets.count⟩, hx.app⟩
  have hshift : t.log2NumBuckets + 1 < 32 := by
    rw [UInt32.lt_iff_toNat_lt, log2_add_one hlog]
    exact Nat.succ_lt_succ hlog
  rw [hashExpandBuckets, hb.ordered.table]
  simp only [hshift, guard_true, Option.bind_eq_bind, Option.bind_some]
  show (List.foldlM (expandBucket t (idealOf t) fuel) _ _).bind _ = _
  rw [hloop]
  rfl

end UtHash

end TunnelServer
