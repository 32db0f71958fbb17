import Mathlib.Data.List.Nodup
import Mathlib.Logic.Function.Basic
import Mathlib.Tactic.Common

/-!
# Doubly linked lists in memory

A memory of nodes, each with a pointer to the node before it and one to the node after it; where
nothing is stored the block has been freed. `DList L l` says that the nodes of `l`, in this order, are
strung together. The three operations write only to the node they are given and to its neighbours, so
each comes with what it does to the list the node is in and with the nodes it leaves alone.
-/

structure Link (α : Type*) where
  prev : Option α
  next : Option α

abbrev Links (α : Type*) := α → Option (Link α)

namespace Links

variable {α : Type*}

/-- A stretch of a list: `p` stands before its nodes and `n` behind them. -/
def Seg (L : Links α) : Option α → List α → Option α → Prop
  | _, [], _ => True
  | p, x :: xs, n => L x = some ⟨p, xs.head?.or n⟩ ∧ Seg L (some x) xs n

/-- The nodes of `l` are all of one list, each once. -/
structure DList (L : Links α) (l : List α) : Prop where
  nodup : l.Nodup
  seg : Seg L none l none

variable {L L' : Links α} {l xs ys : List α} {p n q : Option α} {x y z : α}

theorem seg_append :
    Seg L p (xs ++ ys) n ↔ Seg L p xs (ys.head?.or n) ∧ Seg L (xs.getLast?.or p) ys n := by
  induction xs generalizing p with
  | nil => simp [Seg]
  | cons x xs ih =>
      have hhead : (xs ++ ys).head?.or n = xs.head?.or (ys.head?.or n) := by
        rw [List.head?_append, Option.or_assoc]
      have hlast : (x :: xs).getLast?.or p = xs.getLast?.or (some x) := by
        rw [List.getLast?_cons]
        cases xs.getLast? <;> rfl
      rw [List.cons_append, Seg, Seg, ih, hhead, hlast, and_assoc]

theorem Seg.congr (h : Seg L p xs n) (heq : ∀ x ∈ xs, L' x = L x) : Seg L' p xs n := by
  induction xs generalizing p with
  | nil => trivial
  | cons x xs ih =>
      obtain ⟨hx, hxs⟩ := h
      refine ⟨?_, ih hxs fun y hy => heq y (List.mem_cons_of_mem _ hy)⟩
      rw [heq x List.mem_cons_self, hx]

theorem DList.congr (h : DList L l) (heq : ∀ x ∈ l, L' x = L x) : DList L' l :=
  ⟨h.nodup, h.seg.congr heq⟩

theorem dlist_nil (L : Links α) : DList L [] := ⟨List.nodup_nil, trivial⟩

theorem DList.at (h : DList L (xs ++ x :: ys)) : L x = some ⟨xs.getLast?, ys.head?⟩ := by
  have hx := ((seg_append.1 h.seg).2).1
  rwa [Option.or_none, Option.or_none] at hx

theorem DList.live (h : DList L l) (hx : x ∈ l) : (L x).isSome := by
  obtain ⟨xs, ys, rfl⟩ := List.append_of_mem hx
  rw [h.at]
  rfl

theorem DList.erase_ends [DecidableEq α] (h : DList L l) (hx : x ∈ l) {k : Link α}
    (hk : L x = some k) :
    (l.erase x).head? = (if k.prev ≠ none then l.head? else k.next) ∧
      (l.erase x).getLast? = if l.getLast? = some x then k.prev else l.getLast? := by
  obtain ⟨xs, ys, rfl⟩ := List.append_of_mem hx
  rw [h.at, Option.some.injEq] at hk
  subst hk
  have hnodup := List.nodup_append.1 h.nodup
  have hnot : x ∉ xs := fun hmem => hnodup.2.2 x hmem x List.mem_cons_self rfl
  rw [List.erase_append_right _ hnot, List.erase_cons_head]
  constructor
  · cases xs <;> simp
  · cases hys : ys.getLast? with
    | none =>
        rw [List.getLast?_eq_none_iff] at hys
        simp [hys]
    | some y =>
        have hne : y ≠ x := by
          intro heq
          exact (List.nodup_cons.1 hnodup.2.1).1 (heq ▸ List.mem_of_getLast? hys)
        simp [List.getLast?_append, List.getLast?_cons, hys, hne]

theorem DList.neighbours [DecidableEq α] (h : DList L l) (hx : x ∈ l) {k : Link α}
    (hk : L x = some k) :
    (∀ y, k.prev = some y → y ∈ l.erase x) ∧ ∀ y, k.next = some y → y ∈ l.erase x := by
  obtain ⟨xs, ys, rfl⟩ := List.append_of_mem hx
  have hnot : x ∉ xs := fun hmem =>
    (List.nodup_append.1 h.nodup).2.2 x hmem x List.mem_cons_self rfl
  rw [h.at, Option.some.injEq] at hk
  subst hk
  rw [List.erase_append_right _ hnot, List.erase_cons_head]
  constructor
  · intro y hy
    exact List.mem_append_left _ (List.mem_of_getLast? hy)
  · intro y hy
    exact List.mem_append_right _ (List.mem_of_head? hy)

theorem DList.eq_singleton (h : DList L l) (hx : x ∈ l) (hk : L x = some ⟨none, none⟩) :
    l = [x] := by
  obtain ⟨xs, ys, rfl⟩ := List.append_of_mem hx
  rw [h.at, Option.some.injEq, Link.mk.injEq, List.getLast?_eq_none_iff, List.head?_eq_none_iff] at hk
  obtain ⟨hxs, hys⟩ := hk
  rw [hxs, hys, List.nil_append]

theorem DList.head_iff (h : DList L l) (hx : x ∈ l) {k : Link α} (hk : L x = some k) :
    k.prev = none ↔ l.head? = some x := by
  obtain ⟨xs, ys, rfl⟩ := List.append_of_mem hx
  rw [h.at, Option.some.injEq] at hk
  subst hk
  cases xs with
  | nil => simp
  | cons z xs =>
      have hne : z ≠ x := by
        intro heq
        have hnodup := (List.nodup_cons.1 h.nodup).1
        exact hnodup (heq ▸ List.mem_append_right _ List.mem_cons_self)
      simp [hne]

theorem DList.last_iff (h : DList L l) (hx : x ∈ l) {k : Link α} (hk : L x = some k) :
    k.next = none ↔ l.getLast? = some x := by
  obtain ⟨xs, ys, rfl⟩ := List.append_of_mem hx
  rw [h.at, Option.some.injEq] at hk
  subst hk
  have hnodup : (x :: ys).Nodup := (List.nodup_append.1 h.nodup).2.1
  rw [List.getLast?_append_of_ne_nil _ (List.cons_ne_nil x ys), List.getLast?_cons,
    Option.some.injEq]
  cases ys with
  | nil => simp
  | cons z ys =>
      have hne : (z :: ys).getLast?.getD x ≠ x := by
        intro heq
        rw [List.getLast?_eq_some_getLast (List.cons_ne_nil z ys), Option.getD_some] at heq
        exact (List.nodup_cons.1 hnodup).1 (heq ▸ List.getLast_mem _)
      simpa using hne

/-! ### Writing a pointer -/

variable [DecidableEq α]

def setPrev (L : Links α) (x : α) (p : Option α) : Links α :=
  Function.update L x ((L x).map fun k => { k with prev := p })

def setNext (L : Links α) (x : α) (n : Option α) : Links α :=
  Function.update L x ((L x).map fun k => { k with next := n })

theorem setPrev_of_ne (h : y ≠ x) : L.setPrev x p y = L y := Function.update_of_ne h _ _

theorem setNext_of_ne (h : y ≠ x) : L.setNext x n y = L y := Function.update_of_ne h _ _

theorem setPrev_self : L.setPrev x p x = (L x).map fun k => { k with prev := p } :=
  Function.update_self _ _ _

theorem setNext_self : L.setNext x n x = (L x).map fun k => { k with next := n } :=
  Function.update_self _ _ _

/-- `p->prev = q`, unless `p` is `NULL`. -/
def setPrevAt (L : Links α) (p q : Option α) : Links α :=
  match p with
  | none => L
  | some x => L.setPrev x q

def setNextAt (L : Links α) (p q : Option α) : Links α :=
  match p with
  | none => L
  | some x => L.setNext x q

theorem setPrevAt_of_ne (h : p ≠ some y) : L.setPrevAt p q y = L y := by
  cases p with
  | none => rfl
  | some x => exact setPrev_of_ne fun heq => h (by rw [heq])

theorem setNextAt_of_ne (h : p ≠ some y) : L.setNextAt p q y = L y := by
  cases p with
  | none => rfl
  | some x => exact setNext_of_ne fun heq => h (by rw [heq])

/-- Other nodes can be strung in front of a stretch by changing its first node. -/
theorem Seg.setPrev (h : Seg L p (y :: ys) n) (hnodup : (y :: ys).Nodup) :
    Seg (L.setPrev y q) q (y :: ys) n := by
  obtain ⟨hy, hys⟩ := h
  refine ⟨by rw [setPrev_self, hy]; rfl, hys.congr fun x hx => setPrev_of_ne ?_⟩
  intro heq
  exact (List.nodup_cons.1 hnodup).1 (heq ▸ hx)

theorem Seg.setNext (h : Seg L p (xs ++ [z]) n) (hnodup : (xs ++ [z]).Nodup) :
    Seg (L.setNext z q) p (xs ++ [z]) q := by
  rw [seg_append] at h ⊢
  obtain ⟨hxs, hz, -⟩ := h
  refine ⟨hxs.congr fun x hx => setNext_of_ne ?_, ?_, trivial⟩
  · intro heq
    exact (List.nodup_append.1 hnodup).2.2 x hx z List.mem_cons_self heq
  · rw [setNext_self, hz]
    rfl

/-! ### The three operations -/

/-- Put a node in front of the list that starts at `head`. -/
def pushFront (L : Links α) (head : Option α) (x : α) : Links α :=
  setPrevAt (Function.update L x (some ⟨none, head⟩)) head (some x)

def pushBack (L : Links α) (tail : Option α) (x : α) : Links α :=
  setNextAt (Function.update L x (some ⟨tail, none⟩)) tail (some x)

/-- Let the neighbours of a node point to each other. The node keeps its own pointers. -/
def unlink (L : Links α) (x : α) : Links α :=
  match L x with
  | none => L
  | some k => (L.setNextAt k.prev k.next).setPrevAt k.next k.prev

theorem pushFront_of_ne (hx : y ≠ x) (hhead : p ≠ some y) : L.pushFront p x y = L y :=
  (setPrevAt_of_ne hhead).trans (Function.update_of_ne hx _ _)

theorem pushFront_self (hhead : p ≠ some x) : L.pushFront p x x = some ⟨none, p⟩ :=
  (setPrevAt_of_ne hhead).trans (Function.update_self _ _ _)

theorem DList.pushFront (h : DList L l) (hx : x ∉ l) : DList (L.pushFront l.head? x) (x :: l) := by
  refine ⟨List.nodup_cons.2 ⟨hx, h.nodup⟩, ?_, ?_⟩
  · rw [pushFront_self, Option.or_none]
    intro heq
    exact hx (List.mem_of_head? heq)
  · cases l with
    | nil => trivial
    | cons y ys =>
        refine Seg.setPrev (Seg.congr h.seg fun w hw => Function.update_of_ne ?_ _ _) h.nodup
        intro heq
        exact hx (heq ▸ hw)

theorem pushBack_self (htail : p ≠ some x) : L.pushBack p x x = some ⟨p, none⟩ :=
  (setNextAt_of_ne htail).trans (Function.update_self _ _ _)

theorem DList.pushBack (h : DList L l) (hx : x ∉ l) :
    DList (L.pushBack l.getLast? x) (l ++ [x]) := by
  have hnodup : (l ++ [x]).Nodup := List.nodup_append.2
    ⟨h.nodup, List.nodup_singleton x, fun y hy z hz heq => hx (by simp_all)⟩
  refine ⟨hnodup, seg_append.2 ⟨?_, ?_, trivial⟩⟩
  · cases hlast : l.getLast? with
    | none =>
        rw [List.getLast?_eq_none_iff] at hlast
        rw [hlast]
        trivial
    | some z =>
        obtain ⟨init, rfl⟩ := List.getLast?_eq_some_iff.1 hlast
        refine Seg.setNext (Seg.congr h.seg fun w hw => Function.update_of_ne ?_ _ _) h.nodup
        intro heq
        exact hx (heq ▸ hw)
  · rw [pushBack_self, Option.or_none]
    · rfl
    · intro heq
      exact hx (List.mem_of_getLast? heq)

theorem unlink_of_not_mem (h : DList L l) (hx : x ∈ l) (hy : y ∉ l) : L.unlink x y = L y := by
  obtain ⟨k, hk⟩ := Option.isSome_iff_exists.1 (h.live hx)
  obtain ⟨hprev, hnext⟩ := h.neighbours hx hk
  rw [unlink, hk]
  refine (setPrevAt_of_ne fun heq => ?_).trans (setNextAt_of_ne fun heq => ?_)
  · exact hy (List.mem_of_mem_erase (hnext y heq))
  · exact hy (List.mem_of_mem_erase (hprev y heq))

theorem DList.unlink (h : DList L l) (hx : x ∈ l) : DList (L.unlink x) (l.erase x) := by
  refine ⟨h.nodup.erase x, ?_⟩
  obtain ⟨xs, ys, rfl⟩ := List.append_of_mem hx
  have hnodup := List.nodup_append.1 h.nodup
  have hnot : x ∉ xs := fun hmem => hnodup.2.2 x hmem x List.mem_cons_self rfl
  have hapart : ∀ z ∈ xs, ∀ y ∈ ys, z ≠ y :=
    fun z hz y hy => hnodup.2.2 z hz y (List.mem_cons_of_mem _ hy)
  have hys := (List.nodup_cons.1 hnodup.2.1).2
  obtain ⟨hfirst, -, hsecond⟩ := seg_append.1 h.seg
  rw [List.erase_append_right _ hnot, List.erase_cons_head, seg_append, Option.or_none,
    Option.or_none]
  unfold Links.unlink
  rw [h.at]
  -- the node before `x` is the last of `xs`, the node behind it the first of `ys`
  rcases List.eq_nil_or_concat xs with rfl | ⟨init, z, rfl⟩
  · cases ys with
    | nil => exact ⟨trivial, trivial⟩
    | cons y ys => exact ⟨trivial, Seg.setPrev hsecond hys⟩
  · rw [List.concat_eq_append] at *
    have hlast : (init ++ [z]).getLast? = some z := List.getLast?_concat
    rw [hlast]
    cases ys with
    | nil => exact ⟨Seg.setNext hfirst hnodup.1, trivial⟩
    | cons y ys =>
        constructor
        · refine Seg.congr (Seg.setNext hfirst hnodup.1) fun w hw => setPrev_of_ne ?_
          exact hapart w hw y List.mem_cons_self
        · refine Seg.setPrev (Seg.congr hsecond fun w hw => setNext_of_ne ?_) hys
          exact (hapart z (List.mem_append_right _ List.mem_cons_self) w hw).symm

end Links
