import Mathlib.Data.List.Nodup
import Mathlib.Data.List.Perm.Subperm
import Mathlib.Data.List.Range
import Mathlib.Logic.Equiv.Basic
import Mathlib.Tactic.Common

/-!
# A ring of seats with an open stretch

`size` distinct values sit on the seats of a ring. The stretch from the cursor `next` round to the
cursor `last` is open; the other seats are taken. Popping hands out the value at `next` and moves
that cursor on. Giving a taken value back moves `last` on and exchanges the value with whatever sat
there, so the open stretch read from `next` is a queue although the array is never shifted.

A stretch between two cursors has at least one seat. `Tracks` says that the open seats are exactly
the values nobody holds; it survives a pop as long as two seats are open. `Exhausted` is the state
reached by popping the last open seat: the cursors then frame a seat whose value is held.
-/

namespace SeatRing

def advance (n i : Nat) : Nat := if i + 1 = n then 0 else i + 1

def slotAt (n start k : Nat) : Nat := if start + k < n then start + k else start + k - n

/-- How many places after `start` the seat `i` lies. -/
def placeOf (n start i : Nat) : Nat := if start ≤ i then i - start else i + n - start

theorem advance_lt {n i : Nat} (hi : i < n) : advance n i < n := by
  unfold advance
  split <;> omega

theorem slotAt_lt {n start k : Nat} (hs : start < n) (hk : k < n) : slotAt n start k < n := by
  unfold slotAt
  split <;> omega

theorem placeOf_lt {n start i : Nat} (hs : start < n) (hi : i < n) : placeOf n start i < n := by
  unfold placeOf
  split <;> omega

theorem slotAt_placeOf {n start i : Nat} (hs : start < n) (hi : i < n) :
    slotAt n start (placeOf n start i) = i := by
  unfold slotAt placeOf
  split <;> split <;> omega

theorem placeOf_slotAt {n start k : Nat} (hs : start < n) (hk : k < n) :
    placeOf n start (slotAt n start k) = k := by
  unfold slotAt placeOf
  split <;> split <;> omega

@[simp] theorem slotAt_zero {n start : Nat} (hs : start < n) : slotAt n start 0 = start := by
  simp [slotAt, hs]

@[simp] theorem placeOf_self (n start : Nat) : placeOf n start start = 0 := by
  simp [placeOf]

theorem slotAt_advance {n start k : Nat} (hk : k + 1 < n) :
    slotAt n (advance n start) k = slotAt n start (k + 1) := by
  unfold slotAt advance
  split <;> split <;> split <;> omega

/-- Moving the far cursor on lengthens the stretch by one, unless it already covers the ring. -/
theorem placeOf_advance {n start i : Nat} (hs : start < n) (hi : i < n)
    (hroom : placeOf n start i + 1 < n) :
    placeOf n start (advance n i) = placeOf n start i + 1 := by
  unfold placeOf at hroom
  unfold placeOf advance
  split at hroom <;> split <;> split <;> omega

/-- Moving the near cursor on brings every other seat one place closer. -/
theorem placeOf_advance_start {n start i : Nat} (hs : start < n) (hi : i < n) (hne : i ≠ start) :
    placeOf n (advance n start) i + 1 = placeOf n start i := by
  unfold placeOf advance
  split <;> split <;> split <;> omega

theorem placeOf_eq_zero {n start i : Nat} (hs : start < n) :
    placeOf n start i = 0 ↔ i = start := by
  unfold placeOf
  split <;> omega

theorem placeOf_inj {n start i j : Nat} (hs : start < n) (hi : i < n) (hj : j < n)
    (h : placeOf n start i = placeOf n start j) : i = j := by
  rw [← slotAt_placeOf hs hi, h, slotAt_placeOf hs hj]

theorem advance_ne {n i : Nat} (hn : 2 ≤ n) : advance n i ≠ i := by
  unfold advance
  split <;> omega

end SeatRing

/-- Values on the seats of a ring, with the cursors that frame the open stretch. -/
structure SeatRing (α : Type*) where
  size : Nat
  seat : Nat → α
  next : Nat
  last : Nat
  next_lt : next < size
  last_lt : last < size
  seat_inj : ∀ i < size, ∀ j < size, seat i = seat j → i = j

namespace SeatRing

variable {α : Type*} (r : SeatRing α)

def Open (i : Nat) : Prop := placeOf r.size r.next i ≤ placeOf r.size r.next r.last

instance (i : Nat) : Decidable (r.Open i) := inferInstanceAs (Decidable (_ ≤ _))

/-- The open values, in the order they will be handed out. -/
def window : List α :=
  (List.range (placeOf r.size r.next r.last + 1)).map fun k => r.seat (slotAt r.size r.next k)

/-- Hand out the value at `next`. When that was the only open seat, `last` moves on with it. -/
def pop : SeatRing α :=
  { r with
    next := advance r.size r.next
    last := if r.next = r.last then advance r.size r.last else r.last
    next_lt := advance_lt r.next_lt
    last_lt := by split <;> [exact advance_lt r.last_lt; exact r.last_lt] }

/-- Give back the value on seat `i`: it changes places with the one on the seat after `last`. -/
def giveBack (i : Nat) (hi : i < r.size) : SeatRing α :=
  { r with
    seat := fun k => r.seat (Equiv.swap i (advance r.size r.last) k)
    last := advance r.size r.last
    last_lt := advance_lt r.last_lt
    seat_inj := by
      have hbound : ∀ k < r.size, Equiv.swap i (advance r.size r.last) k < r.size := by
        intro k hk
        have hl := advance_lt r.last_lt
        rw [Equiv.swap_apply_def]
        split_ifs <;> assumption
      intro j hj k hk h
      exact (Equiv.swap _ _).injective (r.seat_inj _ (hbound j hj) _ (hbound k hk) h) }

@[simp] theorem pop_size : r.pop.size = r.size := rfl
@[simp] theorem pop_seat : r.pop.seat = r.seat := rfl
@[simp] theorem pop_next : r.pop.next = advance r.size r.next := rfl
@[simp] theorem giveBack_size (i : Nat) (hi : i < r.size) : (r.giveBack i hi).size = r.size := rfl
@[simp] theorem giveBack_next (i : Nat) (hi : i < r.size) : (r.giveBack i hi).next = r.next := rfl
@[simp] theorem giveBack_last (i : Nat) (hi : i < r.size) :
    (r.giveBack i hi).last = advance r.size r.last := rfl
theorem giveBack_seat (i : Nat) (hi : i < r.size) (k : Nat) :
    (r.giveBack i hi).seat k = r.seat (Equiv.swap i (advance r.size r.last) k) := rfl

theorem pop_last (h : r.next ≠ r.last) : r.pop.last = r.last := if_neg h

theorem pop_last_of_eq (h : r.next = r.last) : r.pop.last = advance r.size r.last := if_pos h

/-! ### The open seats -/

theorem open_next : r.Open r.next := by
  simp [Open]

theorem mem_window {a : α} : a ∈ r.window ↔ ∃ i < r.size, r.Open i ∧ r.seat i = a := by
  have hspan := placeOf_lt r.next_lt r.last_lt
  simp only [window, List.mem_map, List.mem_range, Nat.lt_succ_iff]
  constructor
  · intro hmem
    obtain ⟨k, hk, rfl⟩ := hmem
    have hkn : k < r.size := by omega
    refine ⟨slotAt r.size r.next k, slotAt_lt r.next_lt hkn, ?_, rfl⟩
    rw [Open, placeOf_slotAt r.next_lt hkn]
    exact hk
  · intro hopen
    obtain ⟨i, hi, hopen, rfl⟩ := hopen
    exact ⟨placeOf r.size r.next i, hopen, by rw [slotAt_placeOf r.next_lt hi]⟩

theorem window_nodup : r.window.Nodup := by
  refine List.Nodup.map_on ?_ List.nodup_range
  intro j hj k hk h
  have hspan := placeOf_lt r.next_lt r.last_lt
  rw [List.mem_range] at hj hk
  have hslots := r.seat_inj _ (slotAt_lt r.next_lt (by omega)) _ (slotAt_lt r.next_lt (by omega)) h
  rw [← placeOf_slotAt r.next_lt (k := j) (by omega), hslots, placeOf_slotAt r.next_lt (by omega)]

theorem room_of_not_open {i : Nat} (hi : i < r.size) (h : ¬ r.Open i) :
    placeOf r.size r.next r.last + 1 < r.size := by
  have := placeOf_lt r.next_lt hi
  unfold Open at h
  omega

theorem not_open_advance_last {i : Nat} (hi : i < r.size) (h : ¬ r.Open i) :
    ¬ r.Open (advance r.size r.last) := by
  rw [Open, placeOf_advance r.next_lt r.last_lt (r.room_of_not_open hi h)]
  omega

theorem open_pop (hne : r.next ≠ r.last) {i : Nat} (hi : i < r.size) :
    r.pop.Open i ↔ r.Open i ∧ i ≠ r.next := by
  have hlast := placeOf_advance_start r.next_lt r.last_lt (Ne.symm hne)
  rw [Open, Open, r.pop_last hne, pop_size, pop_next]
  by_cases heq : i = r.next
  · subst heq
    have hself : placeOf r.size (advance r.size r.next) r.next + 1 = r.size := by
      have := r.next_lt
      unfold placeOf advance
      split <;> split <;> omega
    have := placeOf_lt r.next_lt r.last_lt
    simp only [ne_eq, not_true_eq_false, and_false, iff_false]
    omega
  · have := placeOf_advance_start r.next_lt hi heq
    simp only [ne_eq, heq, not_false_eq_true, and_true]
    omega

/-- The queue law of a pop: the window loses its head. -/
theorem window_pop (hne : r.next ≠ r.last) : r.window = r.seat r.next :: r.pop.window := by
  have hlast := placeOf_advance_start r.next_lt r.last_lt (Ne.symm hne)
  have hspan := placeOf_lt r.next_lt r.last_lt
  rw [window, window, List.range_succ_eq_map, List.map_cons, slotAt_zero r.next_lt, r.pop_last hne,
    pop_size, pop_next, pop_seat, hlast, List.map_map]
  congr 1
  apply List.map_congr_left
  intro k hk
  rw [List.mem_range] at hk
  rw [Function.comp_apply, slotAt_advance (by omega)]

theorem open_giveBack {i j : Nat} (hi : i < r.size) (hj : j < r.size) (htaken : ¬ r.Open i) :
    (r.giveBack i hi).Open j ↔ r.Open j ∨ j = advance r.size r.last := by
  have hroom := placeOf_advance r.next_lt r.last_lt (r.room_of_not_open hi htaken)
  have hplace : placeOf r.size r.next j = placeOf r.size r.next (advance r.size r.last) ↔
      j = advance r.size r.last :=
    ⟨placeOf_inj r.next_lt hj (advance_lt r.last_lt), fun h => by rw [h]⟩
  rw [Open, Open, giveBack_size, giveBack_next, giveBack_last, ← hplace, hroom]
  omega

theorem giveBack_seat_of_open {i j : Nat} (hi : i < r.size) (htaken : ¬ r.Open i)
    (hopen : r.Open j) : (r.giveBack i hi).seat j = r.seat j := by
  have hji : j ≠ i := fun h => htaken (h ▸ hopen)
  have hjl : j ≠ advance r.size r.last := fun h => r.not_open_advance_last hi htaken (h ▸ hopen)
  rw [giveBack_seat, Equiv.swap_apply_of_ne_of_ne hji hjl]

@[simp] theorem giveBack_seat_last {i : Nat} (hi : i < r.size) :
    (r.giveBack i hi).seat (advance r.size r.last) = r.seat i := by
  rw [giveBack_seat, Equiv.swap_apply_right]

/-- The queue law of a return: the value joins the window at its tail. -/
theorem window_giveBack {i : Nat} (hi : i < r.size) (htaken : ¬ r.Open i) :
    (r.giveBack i hi).window = r.window ++ [r.seat i] := by
  have hroom := r.room_of_not_open hi htaken
  have hspan := placeOf_advance r.next_lt r.last_lt hroom
  have hlast : slotAt r.size r.next (placeOf r.size r.next r.last + 1) = advance r.size r.last := by
    rw [← hspan, slotAt_placeOf r.next_lt (advance_lt r.last_lt)]
  rw [window, window, giveBack_size, giveBack_next, giveBack_last, hspan, List.range_succ,
    List.map_append, List.map_singleton, hlast, giveBack_seat_last]
  congr 1
  apply List.map_congr_left
  intro k hk
  rw [List.mem_range] at hk
  refine r.giveBack_seat_of_open hi htaken ?_
  rw [Open, placeOf_slotAt r.next_lt (by omega)]
  omega

/-! ### Who holds what -/

/-- The open seats carry exactly the values nobody holds. -/
def Tracks (held : α → Prop) : Prop := ∀ i < r.size, r.Open i ↔ ¬ held (r.seat i)

/-- Every value is held and the cursors frame a single seat. -/
def Exhausted (held : α → Prop) : Prop := r.next = r.last ∧ ∀ i < r.size, held (r.seat i)

variable {r} {held held' : α → Prop}

theorem Tracks.congr (h : r.Tracks held) (hheld : ∀ a, held' a ↔ held a) : r.Tracks held' :=
  fun i hi => (h i hi).trans (not_congr (hheld _)).symm

theorem Exhausted.congr (h : r.Exhausted held) (hheld : ∀ a, held' a ↔ held a) :
    r.Exhausted held' :=
  ⟨h.1, fun i hi => (hheld _).2 (h.2 i hi)⟩

/-- The value a pop hands out is held by nobody. -/
theorem Tracks.not_held_next (h : r.Tracks held) : ¬ held (r.seat r.next) :=
  (h _ r.next_lt).1 r.open_next

theorem Tracks.mem_window (h : r.Tracks held) {a : α} :
    a ∈ r.window ↔ (∃ i < r.size, r.seat i = a) ∧ ¬ held a := by
  rw [SeatRing.mem_window]
  constructor
  · intro hmem
    obtain ⟨i, hi, hopen, rfl⟩ := hmem
    exact ⟨⟨i, hi, rfl⟩, (h i hi).1 hopen⟩
  · intro hmem
    obtain ⟨⟨i, hi, rfl⟩, hfree⟩ := hmem
    exact ⟨i, hi, (h i hi).2 hfree, rfl⟩

theorem Tracks.pop (h : r.Tracks held) (hne : r.next ≠ r.last)
    (hheld : ∀ a, held' a ↔ held a ∨ a = r.seat r.next) : r.pop.Tracks held' := by
  intro i hi
  rw [pop_size] at hi
  have hseat : r.seat i = r.seat r.next ↔ i = r.next :=
    ⟨r.seat_inj i hi _ r.next_lt, fun h => by rw [h]⟩
  rw [r.open_pop hne hi, pop_seat, hheld, h i hi, hseat, not_or]

theorem Tracks.pop_exhausts (h : r.Tracks held) (heq : r.next = r.last)
    (hheld : ∀ a, held' a ↔ held a ∨ a = r.seat r.next) : r.pop.Exhausted held' := by
  refine ⟨by rw [pop_next, r.pop_last_of_eq heq, heq], fun i hi => ?_⟩
  rw [pop_size] at hi
  rw [pop_seat, hheld]
  by_cases hi' : i = r.next
  · exact Or.inr (by rw [hi'])
  · left
    by_contra hfree
    have hopen := (h i hi).2 hfree
    rw [Open, ← heq, placeOf_self, Nat.le_zero, placeOf_eq_zero r.next_lt] at hopen
    exact hi' hopen

theorem Exhausted.pop (h : r.Exhausted held) (hheld : ∀ a, held a → held' a) :
    r.pop.Exhausted held' :=
  ⟨by rw [pop_next, r.pop_last_of_eq h.1, h.1], fun i hi => hheld _ (h.2 i hi)⟩

theorem Exhausted.size_le_length {l : List α} (h : r.Exhausted (· ∈ l)) : r.size ≤ l.length := by
  have hnodup : ((List.range r.size).map r.seat).Nodup := by
    refine List.Nodup.map_on (fun i hi j hj heq => ?_) List.nodup_range
    exact r.seat_inj i (List.mem_range.1 hi) j (List.mem_range.1 hj) heq
  have hsub : (List.range r.size).map r.seat ⊆ l := by
    intro a ha
    obtain ⟨i, hi, rfl⟩ := List.mem_map.1 ha
    exact h.2 i (List.mem_range.1 hi)
  simpa using (List.Nodup.subperm hnodup hsub).length_le

theorem Tracks.giveBack (h : r.Tracks held) {i : Nat} (hi : i < r.size) (hi' : held (r.seat i))
    (hheld : ∀ a, held' a ↔ held a ∧ a ≠ r.seat i) : (r.giveBack i hi).Tracks held' := by
  have htaken : ¬ r.Open i := fun hopen => (h i hi).1 hopen hi'
  intro j hj
  rw [giveBack_size] at hj
  rw [r.open_giveBack hi hj htaken, hheld]
  by_cases hopen : r.Open j
  · rw [r.giveBack_seat_of_open hi htaken hopen]
    simp [hopen, (h j hj).1 hopen]
  · by_cases hlast : j = advance r.size r.last
    · subst hlast
      simp
    · have hheldj : held ((r.giveBack i hi).seat j) ∧ (r.giveBack i hi).seat j ≠ r.seat i := by
        by_cases hji : j = i
        · subst hji
          have hl := advance_lt r.last_lt
          rw [giveBack_seat, Equiv.swap_apply_left]
          refine ⟨by_contra fun hfree => r.not_open_advance_last hj htaken ((h _ hl).2 hfree),
            fun heq => hlast (r.seat_inj _ hl _ hj heq).symm⟩
        · rw [giveBack_seat, Equiv.swap_apply_of_ne_of_ne hji hlast]
          exact ⟨by_contra fun hfree => hopen ((h j hj).2 hfree),
            fun heq => hji (r.seat_inj _ hj _ hi heq)⟩
      simp [hopen, hlast, hheldj]

/-- A return to an exhausted ring leaves a held value at the head of the window and a free one
behind it. -/
theorem Exhausted.giveBack_next_held (h : r.Exhausted held) (hsize : 2 ≤ r.size) {i : Nat}
    (hi : i < r.size) (hheld : ∀ a, held' a ↔ held a ∧ a ≠ r.seat i) :
    held' ((r.giveBack i hi).seat r.next) := by
  have hne : r.next ≠ advance r.size r.last := by
    rw [← h.1]
    exact (advance_ne hsize).symm
  have hl := advance_lt r.last_lt
  rw [hheld, giveBack_seat]
  by_cases hni : r.next = i
  · subst hni
    rw [Equiv.swap_apply_left]
    exact ⟨h.2 _ hl, fun heq => hne (r.seat_inj _ hl _ hi heq).symm⟩
  · rw [Equiv.swap_apply_of_ne_of_ne hni hne]
    exact ⟨h.2 _ r.next_lt, fun heq => hni (r.seat_inj _ r.next_lt _ hi heq)⟩

end SeatRing
