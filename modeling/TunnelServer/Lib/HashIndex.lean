import Mathlib.Data.List.Nodup
import Mathlib.Tactic.Common

/-!
# A keyed index

A hash table of elements under keys, as a list of entries with the newest first. Nothing stops a
caller from adding a key twice, so that the keys are distinct (`Keyed`) is a fact to be proved about
a program and not a property of the type. Where it holds, the index is a finite map, and `find_add`
and `find_delete` say how the operations change it.
-/

/-- A hash table: the elements in it, each with the key it was added under. -/
structure HashIndex (κ ρ : Type*) where
  entries : List (κ × ρ)

namespace HashIndex

variable {κ ρ : Type*}

def empty : HashIndex κ ρ := ⟨[]⟩

def keys (t : HashIndex κ ρ) : List κ := t.entries.map Prod.fst

def find [DecidableEq κ] (t : HashIndex κ ρ) (k : κ) : Option ρ :=
  (t.entries.find? fun e => e.1 = k).map Prod.snd

def add (t : HashIndex κ ρ) (k : κ) (x : ρ) : HashIndex κ ρ := ⟨(k, x) :: t.entries⟩

def delete [DecidableEq ρ] (t : HashIndex κ ρ) (x : ρ) : HashIndex κ ρ :=
  ⟨t.entries.filter fun e => e.2 ≠ x⟩

def count (t : HashIndex κ ρ) : Nat := t.entries.length

/-- No key stands in the table twice. -/
def Keyed (t : HashIndex κ ρ) : Prop := t.keys.Nodup

theorem keyed_empty : (empty : HashIndex κ ρ).Keyed := List.nodup_nil

@[simp] theorem length_keys (t : HashIndex κ ρ) : t.keys.length = t.count := by
  simp [keys, count]

theorem mem_keys {t : HashIndex κ ρ} {k : κ} : k ∈ t.keys ↔ ∃ x, (k, x) ∈ t.entries := by
  simp [keys]

section Find

variable [DecidableEq κ]

theorem mem_of_find {t : HashIndex κ ρ} {k : κ} {x : ρ} (h : t.find k = some x) :
    (k, x) ∈ t.entries := by
  rw [find, Option.map_eq_some_iff] at h
  obtain ⟨e, hfind, rfl⟩ := h
  have hkey : e.1 = k := by simpa using List.find?_some hfind
  exact hkey ▸ List.mem_of_find?_eq_some hfind

theorem find_eq_none {t : HashIndex κ ρ} {k : κ} : t.find k = none ↔ k ∉ t.keys := by
  simp only [find, Option.map_eq_none_iff, List.find?_eq_none, decide_eq_true_eq, mem_keys,
    not_exists]
  exact ⟨fun h x hx => h _ hx rfl, fun h e he hk => h e.2 (hk ▸ he)⟩

theorem find_isSome {t : HashIndex κ ρ} {k : κ} : (t.find k).isSome ↔ k ∈ t.keys := by
  rw [← not_iff_not, ← find_eq_none, Option.not_isSome_iff_eq_none]

theorem find_of_mem {t : HashIndex κ ρ} (hkeyed : t.Keyed) {k : κ} {x : ρ}
    (hmem : (k, x) ∈ t.entries) : t.find k = some x := by
  obtain ⟨entries⟩ := t
  induction entries with
  | nil => simp at hmem
  | cons e entries ih =>
      obtain ⟨k', y⟩ := e
      have hsplit := List.nodup_cons.mp hkeyed
      rcases List.mem_cons.mp hmem with heq | hrest
      · cases heq
        simp [find]
      · have hk : k ∈ entries.map Prod.fst := List.mem_map.2 ⟨_, hrest, rfl⟩
        have hne : k' ≠ k := fun h => hsplit.1 (h ▸ hk)
        have := ih hsplit.2 hrest
        simpa [find, hne] using this

theorem find_eq_some_iff {t : HashIndex κ ρ} (hkeyed : t.Keyed) {k : κ} {x : ρ} :
    t.find k = some x ↔ (k, x) ∈ t.entries :=
  ⟨mem_of_find, find_of_mem hkeyed⟩

theorem find_add (t : HashIndex κ ρ) (k k' : κ) (x : ρ) :
    (t.add k x).find k' = if k' = k then some x else t.find k' := by
  by_cases h : k' = k
  · subst h
    simp [find, add]
  · have hne : k ≠ k' := Ne.symm h
    simp [find, add, h, hne]

theorem Keyed.add {t : HashIndex κ ρ} (h : t.Keyed) {k : κ} (hfree : t.find k = none) (x : ρ) :
    (t.add k x).Keyed :=
  List.nodup_cons.2 ⟨find_eq_none.1 hfree, h⟩

variable [DecidableEq ρ]

omit [DecidableEq κ] in
theorem mem_delete {t : HashIndex κ ρ} {x : ρ} {e : κ × ρ} :
    e ∈ (t.delete x).entries ↔ e ∈ t.entries ∧ e.2 ≠ x := by
  simp [delete]

omit [DecidableEq κ] in
theorem Keyed.delete {t : HashIndex κ ρ} (h : t.Keyed) (x : ρ) : (t.delete x).Keyed :=
  (List.Sublist.map Prod.fst List.filter_sublist).nodup h

theorem find_delete_eq_some {t : HashIndex κ ρ} (hkeyed : t.Keyed) {x y : ρ} {k : κ} :
    (t.delete x).find k = some y ↔ t.find k = some y ∧ y ≠ x := by
  rw [find_eq_some_iff (hkeyed.delete x), mem_delete, ← find_eq_some_iff hkeyed]

theorem find_delete {t : HashIndex κ ρ} (hkeyed : t.Keyed) (x : ρ) (k : κ) :
    (t.delete x).find k = if t.find k = some x then none else t.find k := by
  apply Option.ext
  intro y
  rw [find_delete_eq_some hkeyed]
  by_cases h : t.find k = some x
  · simp only [h, if_true, Option.some.injEq, reduceCtorEq, iff_false, not_and, not_not]
    exact fun heq => heq.symm
  · rw [if_neg h]
    exact ⟨fun hy => hy.1, fun hy => ⟨hy, fun heq => h (heq ▸ hy)⟩⟩

end Find

/-! ### Encoded keys -/

section MapKeys

variable {κ' : Type*} {f : κ → κ'}

def mapKeys (f : κ → κ') (t : HashIndex κ ρ) : HashIndex κ' ρ := ⟨t.entries.map (Prod.map f id)⟩

@[simp] theorem map_snd_mapKeys (f : κ → κ') (t : HashIndex κ ρ) :
    (t.mapKeys f).entries.map Prod.snd = t.entries.map Prod.snd := by
  simp [mapKeys]

@[simp] theorem count_mapKeys (f : κ → κ') (t : HashIndex κ ρ) : (t.mapKeys f).count = t.count := by
  simp [mapKeys, count]

theorem mapKeys_add (f : κ → κ') (t : HashIndex κ ρ) (k : κ) (x : ρ) :
    (t.add k x).mapKeys f = (t.mapKeys f).add (f k) x := rfl

theorem mapKeys_delete [DecidableEq ρ] (f : κ → κ') (t : HashIndex κ ρ) (x : ρ) :
    (t.delete x).mapKeys f = (t.mapKeys f).delete x := by
  simp only [mapKeys, delete, List.filter_map]
  rfl

/-- A code that tells the keys apart finds the same elements. -/
theorem find_mapKeys [DecidableEq κ] [DecidableEq κ'] (hf : Function.Injective f)
    (t : HashIndex κ ρ) (k : κ) : (t.mapKeys f).find (f k) = t.find k := by
  obtain ⟨entries⟩ := t
  induction entries with
  | nil => rfl
  | cons e entries ih =>
      by_cases hk : e.1 = k
      · simp [find, mapKeys, hk]
      · have hne : f e.1 ≠ f k := fun heq => hk (hf heq)
        simpa [find, mapKeys, hk, hne] using ih

end MapKeys

end HashIndex
