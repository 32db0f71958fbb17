import Mathlib.Data.Finset.Basic
import TunnelServer.Lib.Run

/-!
# Programs that make calls

A program is a tree: it returns, or it makes a call and goes on with whatever the call returns. One way
through the tree is a log of calls with what they returned, and nothing is said about who answers.

Calls acquire resources, use them and release them. A contract says which operations a call stands for
and what its answers are like. The triples at the end are about a program from the resources it starts
with: whichever answers keep the contract, it touches nothing but what it holds.
-/

/-! ### Resources -/

namespace Resource

variable {ι : Type*}

inductive Op (ι : Type*)
  | acquire (i : ι)
  | use (i : ι)
  | release (i : ι)

variable [DecidableEq ι]

/-- An operation on the resources that are held. -/
def step (held : Finset ι) : Op ι → Option (Finset ι)
  | .acquire i => some (insert i held)
  | .use i => if i ∈ held then some held else none
  | .release i => if i ∈ held then some (held.erase i) else none

def Op.New : Finset ι × Op ι → Prop
  | (held, .acquire i) => i ∉ held
  | _ => True

instance (m : Finset ι × Op ι) : Decidable (Op.New m) :=
  match m with
  | (_, .acquire _) => inferInstanceAs (Decidable (_ ∉ _))
  | (_, .use _) | (_, .release _) => .isTrue trivial

def Fresh (held : Finset ι) (ops : List (Op ι)) : Prop :=
  ∀ m ∈ Run.attempts step held ops, Op.New m

instance (held : Finset ι) (ops : List (Op ι)) : Decidable (Fresh held ops) :=
  inferInstanceAs (Decidable (∀ m ∈ _, _))

theorem Fresh.right {held held' : Finset ι} {xs ys : List (Op ι)} (h : Fresh held (xs ++ ys))
    (hrun : Run.exec step held xs = some held') : Fresh held' ys := by
  rw [Fresh, Run.attempts_append hrun] at h
  exact fun m hm => h m (List.mem_append_right _ hm)

theorem notMem_of_fresh {held : Finset ι} {i : ι} (h : Fresh held [.acquire i]) : i ∉ held :=
  h _ List.mem_cons_self

theorem exec_use {held : Finset ι} {i : ι} (hi : i ∈ held) :
    Run.exec step held [.use i] = some held := by
  rw [Run.exec_cons, step, if_pos hi]
  rfl

theorem exec_release {held : Finset ι} {i : ι} (hi : i ∈ held) :
    Run.exec step held [.release i] = some (held.erase i) := by
  rw [Run.exec_cons, step, if_pos hi]
  rfl

/-- What is released in a sequence that goes through was held before it or acquired in it. -/
theorem held_of_release {held held' : Finset ι} {ops : List (Op ι)} {i : ι}
    (hrun : Run.exec step held ops = some held') (hi : .release i ∈ ops) :
    i ∈ held ∨ .acquire i ∈ ops := by
  induction ops generalizing held with
  | nil => cases hi
  | cons op ops ih =>
      rw [Run.exec_cons, Option.bind_eq_some_iff] at hrun
      obtain ⟨mid, hop, hrun⟩ := hrun
      rcases List.mem_cons.1 hi with rfl | hi
      · rw [step] at hop
        split_ifs at hop with hheld
        exact Or.inl hheld
      · rcases ih hrun hi with hmid | hacquired
        · cases op with
          | acquire j =>
              cases hop
              rcases Finset.mem_insert.1 hmid with rfl | hheld
              · exact Or.inr List.mem_cons_self
              · exact Or.inl hheld
          | use j =>
              rw [step] at hop
              split_ifs at hop
              cases hop
              exact Or.inl hmid
          | release j =>
              rw [step] at hop
              split_ifs at hop
              cases hop
              exact Or.inl (Finset.mem_of_mem_erase hmid)
        · exact Or.inr (List.mem_cons_of_mem _ hacquired)

end Resource

/-! ### Programs -/

/-- A program that makes calls of the kinds in `κ`, which return values in `ρ`. -/
inductive Calls (κ : Type) (ρ : κ → Type) (α : Type)
  | ret (a : α)
  | call (k : κ) (next : ρ k → Calls κ ρ α)

namespace Calls

variable {κ : Type} {ρ : κ → Type} {α β : Type}

def bind : Calls κ ρ α → (α → Calls κ ρ β) → Calls κ ρ β
  | .ret a, f => f a
  | .call k next, f => .call k fun r => (next r).bind f

instance : Monad (Calls κ ρ) where
  pure := .ret
  bind := bind

def perform (k : κ) : Calls κ ρ (ρ k) := .call k .ret

/-- The program can make the calls of the log, with the results in it, and return the value. -/
def Yields : Calls κ ρ α → List (Σ k, ρ k) → α → Prop
  | .ret a, log, b => log = [] ∧ b = a
  | .call k next, log, b => ∃ r rest, log = ⟨k, r⟩ :: rest ∧ (next r).Yields rest b

theorem yields_bind {p : Calls κ ρ α} {f : α → Calls κ ρ β} {log : List (Σ k, ρ k)} {b : β} :
    (p >>= f).Yields log b ↔
      ∃ log₁ a log₂, log = log₁ ++ log₂ ∧ p.Yields log₁ a ∧ (f a).Yields log₂ b := by
  induction p generalizing log with
  | ret a =>
      constructor
      · intro hf
        exact ⟨[], a, log, rfl, ⟨rfl, rfl⟩, hf⟩
      · rintro ⟨_, _, log₂, rfl, ⟨rfl, rfl⟩, hf⟩
        exact hf
  | call k next ih =>
      constructor
      · rintro ⟨r, rest, rfl, hnext⟩
        obtain ⟨log₁, a, log₂, rfl, hp, hf⟩ := (ih r).1 hnext
        exact ⟨⟨k, r⟩ :: log₁, a, log₂, rfl, ⟨r, log₁, rfl, hp⟩, hf⟩
      · rintro ⟨_, a, log₂, rfl, ⟨r, rest, rfl, hp⟩, hf⟩
        exact ⟨r, rest ++ log₂, rfl, (ih r).2 ⟨rest, a, log₂, rfl, hp, hf⟩⟩

theorem Yields.of_ite {c : Prop} [Decidable c] {p q : Calls κ ρ α} {log : List (Σ k, ρ k)} {a : α}
    (h : (if c then p else q).Yields log a) : (c ∧ p.Yields log a) ∨ (¬ c ∧ q.Yields log a) := by
  split_ifs at h with hc
  · exact Or.inl ⟨hc, h⟩
  · exact Or.inr ⟨hc, h⟩

def Only (P : κ → Prop) : Calls κ ρ α → Prop
  | .ret _ => True
  | .call k next => P k ∧ ∀ r, (next r).Only P

theorem Only.of_yields {P : κ → Prop} {p : Calls κ ρ α} (hp : p.Only P) {log : List (Σ k, ρ k)} {a : α}
    (hlog : p.Yields log a) : ∀ x ∈ log, P x.1 := by
  induction p generalizing log with
  | ret b =>
      obtain ⟨rfl, -⟩ := hlog
      exact fun _ hx => nomatch hx
  | call k next ih =>
      obtain ⟨r, rest, rfl, hnext⟩ := hlog
      exact List.forall_mem_cons.2 ⟨hp.1, ih r (hp.2 r) hnext⟩

theorem Only.bind {P : κ → Prop} {p : Calls κ ρ α} {f : α → Calls κ ρ β} (hp : p.Only P)
    (hf : ∀ a, (f a).Only P) : (p >>= f).Only P := by
  induction p with
  | ret a => exact hf a
  | call k next ih => exact ⟨hp.1, fun r => ih r (hp.2 r)⟩

theorem only_ite {P : κ → Prop} {c : Prop} [Decidable c] {p q : Calls κ ρ α} (hp : p.Only P)
    (hq : q.Only P) : (if c then p else q).Only P := by
  split_ifs
  · exact hp
  · exact hq

def runWith (answer : ∀ k, ρ k) : Calls κ ρ α → List (Σ k, ρ k) × α
  | .ret a => ([], a)
  | .call k next =>
    let (log, a) := runWith answer (next (answer k))
    (⟨k, answer k⟩ :: log, a)

theorem yields_runWith (answer : ∀ k, ρ k) (p : Calls κ ρ α) :
    p.Yields (p.runWith answer).1 (p.runWith answer).2 := by
  induction p with
  | ret a => exact ⟨rfl, rfl⟩
  | call k next ih => exact ⟨answer k, _, rfl, ih _⟩

/-! ### Contracts and triples -/

/-- What the calls stand for: which answers they give and which operations on resources they are. -/
structure Contract (κ : Type) (ρ : κ → Type) (ι : Type) where
  allows : (Σ k, ρ k) → Prop
  ops : (Σ k, ρ k) → List (Resource.Op ι)

variable {ι : Type} [DecidableEq ι]

/-- The answers in the log keep the contract, and no call acquires what is held. -/
structure Contract.Honours (C : Contract κ ρ ι) (held : Finset ι) (log : List (Σ k, ρ k)) : Prop where
  allows : ∀ x ∈ log, C.allows x
  fresh : Resource.Fresh held (log.flatMap C.ops)

theorem Contract.Honours.left {C : Contract κ ρ ι} {held : Finset ι} {xs ys : List (Σ k, ρ k)}
    (h : C.Honours held (xs ++ ys)) : C.Honours held xs where
  allows := fun x hx => h.allows x (List.mem_append_left _ hx)
  fresh := fun m hm => by
    have hfresh := h.fresh
    rw [List.flatMap_append] at hfresh
    exact hfresh m (Run.mem_attempts_append_left hm _)

theorem Contract.Honours.right {C : Contract κ ρ ι} {held held' : Finset ι}
    {xs ys : List (Σ k, ρ k)} (h : C.Honours held (xs ++ ys))
    (hrun : Run.exec Resource.step held (xs.flatMap C.ops) = some held') : C.Honours held' ys where
  allows := fun x hx => h.allows x (List.mem_append_right _ hx)
  fresh := by
    have hfresh := h.fresh
    rw [List.flatMap_append] at hfresh
    exact hfresh.right hrun

/-- From the resources in `held` the program touches only what it holds, and ends with a log, a value
and resources as `Q` says, whichever answers keep the contract. -/
def Triple (C : Contract κ ρ ι) (held : Finset ι) (p : Calls κ ρ α)
    (Q : List (Σ k, ρ k) → α → Finset ι → Prop) : Prop :=
  ∀ log a, p.Yields log a → C.Honours held log →
    ∃ held', Run.exec Resource.step held (log.flatMap C.ops) = some held' ∧ Q log a held'

variable {C : Contract κ ρ ι} {held : Finset ι}

theorem triple_pure {a : α} {Q : List (Σ k, ρ k) → α → Finset ι → Prop} (hQ : Q [] a held) :
    Triple C held (pure a) Q := by
  rintro log b ⟨rfl, rfl⟩ -
  exact ⟨held, rfl, hQ⟩

/-- A call whose operations go through, and what comes after it. -/
theorem triple_call {k : κ} {f : ρ k → Calls κ ρ α} {Q : List (Σ k, ρ k) → α → Finset ι → Prop}
    (hcall : ∀ r, C.allows ⟨k, r⟩ → Resource.Fresh held (C.ops ⟨k, r⟩) →
      ∃ held', Run.exec Resource.step held (C.ops ⟨k, r⟩) = some held' ∧
        Triple C held' (f r) fun log a held'' => Q (⟨k, r⟩ :: log) a held'') :
    Triple C held (perform k >>= f) Q := by
  rintro _ a ⟨r, rest, rfl, hf⟩ hhonours
  have hfirst := (List.singleton_append ▸ hhonours : C.Honours held ([⟨k, r⟩] ++ rest))
  have hfresh := hfirst.left.fresh
  rw [List.flatMap_singleton] at hfresh
  obtain ⟨mid, hmid, hnext⟩ := hcall r (hhonours.allows _ List.mem_cons_self) hfresh
  obtain ⟨held', hlast, hQ⟩ := hnext rest a hf
    (hfirst.right (by rw [List.flatMap_singleton]; exact hmid))
  refine ⟨held', ?_, hQ⟩
  rw [List.flatMap_cons, Run.exec_append, hmid]
  exact hlast

theorem triple_bind {p : Calls κ ρ α} {f : α → Calls κ ρ β}
    {Q : List (Σ k, ρ k) → α → Finset ι → Prop} {R : List (Σ k, ρ k) → β → Finset ι → Prop}
    (hp : Triple C held p Q)
    (hf : ∀ log₁ a held', Q log₁ a held' →
      Triple C held' (f a) fun log₂ b held'' => R (log₁ ++ log₂) b held'') :
    Triple C held (p >>= f) R := by
  intro log b hlog hhonours
  obtain ⟨log₁, a, log₂, rfl, hp', hf'⟩ := yields_bind.1 hlog
  obtain ⟨mid, hmid, hQ⟩ := hp log₁ a hp' hhonours.left
  obtain ⟨held'', hlast, hR⟩ := hf log₁ a mid hQ log₂ b hf' (hhonours.right hmid)
  refine ⟨held'', ?_, hR⟩
  rw [List.flatMap_append, Run.exec_append, hmid]
  exact hlast

theorem triple_ite {c : Prop} [Decidable c] {p q : Calls κ ρ α}
    {Q : List (Σ k, ρ k) → α → Finset ι → Prop} (hp : c → Triple C held p Q)
    (hq : ¬ c → Triple C held q Q) : Triple C held (if c then p else q) Q := by
  split_ifs with h
  · exact hp h
  · exact hq h

theorem Triple.mono {p : Calls κ ρ α} {Q R : List (Σ k, ρ k) → α → Finset ι → Prop}
    (hp : Triple C held p Q) (hQR : ∀ log a held', Q log a held' → R log a held') :
    Triple C held p R := by
  intro log a hlog hhonours
  obtain ⟨held', hrun, hQ⟩ := hp log a hlog hhonours
  exact ⟨held', hrun, hQR log a held' hQ⟩

end Calls
