import Mathlib.Data.List.Basic
import Mathlib.Tactic.Common

/-!
# First in, first out

A queue together with everything that ever left it. What was there plus what was pushed is what left
plus what is there, in this order, so an element leaves only after everything that stood before it.
-/

structure Fifo (α : Type*) where
  queue : List α
  out : List α

inductive FifoOp (α : Type*)
  | pop
  | push (a : α)

namespace Fifo

variable {α : Type*}

def step (s : Fifo α) : FifoOp α → Fifo α
  | .pop => { queue := s.queue.tail, out := s.out ++ s.queue.head?.toList }
  | .push a => { s with queue := s.queue ++ [a] }

def pushed : List (FifoOp α) → List α
  | [] => []
  | .pop :: ops => pushed ops
  | .push a :: ops => a :: pushed ops

theorem conserved (ops : List (FifoOp α)) (s : Fifo α) :
    (ops.foldl step s).out ++ (ops.foldl step s).queue = s.out ++ s.queue ++ pushed ops := by
  induction ops generalizing s with
  | nil => simp [pushed]
  | cons op ops ih =>
      rw [List.foldl_cons, ih]
      cases op with
      | pop => cases hq : s.queue <;> simp [step, pushed, hq]
      | push a => simp [step, pushed]

theorem out_prefix (ops : List (FifoOp α)) (s : Fifo α) : s.out <+: (ops.foldl step s).out := by
  induction ops generalizing s with
  | nil => exact List.prefix_rfl
  | cons op ops ih =>
      refine List.IsPrefix.trans ?_ (ih (s.step op))
      cases op with
      | pop => exact List.prefix_append _ _
      | push a => exact List.prefix_rfl

/-- What stands before `a` in the queue leaves before `a` does. -/
theorem out_before {ops : List (FifoOp α)} {s : Fifo α} {before behind outs : List α} {a : α}
    (hqueue : s.queue = before ++ a :: behind) (ha : a ∉ before)
    (houts : (ops.foldl step s).out = s.out ++ outs) {i : Nat} (hi : outs[i]? = some a) :
    ∀ b ∈ before, ∃ j < i, outs[j]? = some b := by
  have hsplit : outs ++ (ops.foldl step s).queue = before ++ (a :: behind ++ pushed ops) := by
    have h := conserved ops s
    rw [houts, hqueue, List.append_assoc, List.append_assoc] at h
    simpa using List.append_cancel_left h
  obtain ⟨hilt, hia⟩ := List.getElem?_eq_some_iff.1 hi
  have hget : ∀ j < outs.length, ∀ b, before[j]? = some b → outs[j]? = some b := by
    intro j hj b hb
    have h := congrArg (·[j]?) hsplit
    simp only [List.getElem?_append_left hj] at h
    rw [h, List.getElem?_append_left (List.getElem?_eq_some_iff.1 hb).1, hb]
  have hbehind : before.length ≤ i := by
    by_contra hlt
    have hlt' : i < before.length := by omega
    have hsame := hget i hilt before[i] (List.getElem?_eq_getElem hlt')
    rw [hi, Option.some.injEq] at hsame
    exact ha (hsame ▸ List.getElem_mem hlt')
  intro b hb
  obtain ⟨j, hj, rfl⟩ := List.getElem_of_mem hb
  exact ⟨j, by omega, hget j (by omega) _ (List.getElem?_eq_getElem hj)⟩

end Fifo
