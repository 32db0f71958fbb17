import Mathlib.Data.List.Basic

/-!
# Runs of a partial transition function

A system is a function `step` that takes a state and an event to the next state, or to `none` when
the event cannot happen there or leaves no defined state behind. A run is a list of events. Three
lists describe it: the steps it attempts, the steps it completes and the states it visits. The rules
at the end carry an invariant along a run once, so that a property of every reached state is reduced
to one step.
-/

namespace Run

variable {σ ε : Type*} (step : σ → ε → Option σ)

/-- The state after all the events, when every one of them has a successor. -/
def exec : σ → List ε → Option σ
  | s, [] => some s
  | s, e :: es => (step s e).bind fun t => exec t es

/-- The steps the run tries, with the state each is tried in. The last one may have no successor. -/
def attempts : σ → List ε → List (σ × ε)
  | _, [] => []
  | s, e :: es => (s, e) :: (step s e).elim [] fun t => attempts t es

/-- The steps the run completes: the state before, the event, the state after. -/
def taken : σ → List ε → List (σ × ε × σ)
  | _, [] => []
  | s, e :: es => (step s e).elim [] fun t => (s, e, t) :: taken t es

/-- The states the run passes through, the first included. -/
def visited (s : σ) (es : List ε) : List σ := s :: (taken step s es).map fun m => m.2.2

variable {step}

@[simp] theorem exec_nil (s : σ) : exec step s [] = some s := rfl

theorem exec_cons (s : σ) (e : ε) (es : List ε) :
    exec step s (e :: es) = (step s e).bind fun t => exec step t es := rfl

theorem exec_append (s : σ) (es fs : List ε) :
    exec step s (es ++ fs) = (exec step s es).bind fun t => exec step t fs := by
  induction es generalizing s with
  | nil => rfl
  | cons e es ih =>
      rw [List.cons_append, exec_cons, exec_cons]
      cases step s e with
      | none => rfl
      | some t => exact ih t

theorem exec_concat {s t : σ} {es : List ε} (hrun : exec step s es = some t) (e : ε) :
    exec step s (es ++ [e]) = step t e := by
  rw [exec_append, hrun]
  simp [exec_cons]

theorem taken_cons_some {s t : σ} {e : ε} (h : step s e = some t) (es : List ε) :
    taken step s (e :: es) = (s, e, t) :: taken step t es := by
  simp [taken, h]

theorem taken_cons_none {s : σ} {e : ε} (h : step s e = none) (es : List ε) :
    taken step s (e :: es) = [] := by
  simp [taken, h]

theorem attempts_cons_some {s t : σ} {e : ε} (h : step s e = some t) (es : List ε) :
    attempts step s (e :: es) = (s, e) :: attempts step t es := by
  simp [attempts, h]

theorem attempts_append {s t : σ} {es : List ε} (hrun : exec step s es = some t) (fs : List ε) :
    attempts step s (es ++ fs) = attempts step s es ++ attempts step t fs := by
  induction es generalizing s with
  | nil =>
      have hst : s = t := Option.some.inj hrun
      rw [hst]
      rfl
  | cons e es ih =>
      cases hmove : step s e with
      | none => simp [exec_cons, hmove] at hrun
      | some u =>
          rw [exec_cons, hmove] at hrun
          rw [List.cons_append, attempts_cons_some hmove, attempts_cons_some hmove,
            List.cons_append, ih hrun]

theorem mem_attempts_append_left {s : σ} {es : List ε} {m : σ × ε} (hm : m ∈ attempts step s es)
    (fs : List ε) : m ∈ attempts step s (es ++ fs) := by
  induction es generalizing s with
  | nil => cases hm
  | cons e es ih =>
      rw [attempts, List.mem_cons] at hm
      rw [List.cons_append, attempts, List.mem_cons]
      refine hm.imp_right fun hm => ?_
      cases hmove : step s e with
      | none => simp [hmove] at hm
      | some u =>
          rw [hmove] at hm
          exact ih hm

theorem snd_mem_of_mem_attempts {s : σ} {es : List ε} {m : σ × ε}
    (hm : m ∈ attempts step s es) : m.2 ∈ es := by
  induction es generalizing s with
  | nil => simp [attempts] at hm
  | cons e es ih =>
      rw [attempts, List.mem_cons] at hm
      rcases hm with rfl | hm
      · exact List.mem_cons_self
      · cases hmove : step s e with
        | none => simp [hmove] at hm
        | some u =>
            rw [hmove] at hm
            exact List.mem_cons_of_mem _ (ih hm)

theorem mem_visited_self (s : σ) (es : List ε) : s ∈ visited step s es := List.mem_cons_self

theorem visited_cons_some {s t : σ} {e : ε} (h : step s e = some t) (es : List ε) :
    visited step s (e :: es) = s :: visited step t es := by
  simp [visited, taken_cons_some h]

theorem exec_mem_visited {s t : σ} {es : List ε} (hrun : exec step s es = some t) :
    t ∈ visited step s es := by
  induction es generalizing s with
  | nil =>
      have hst : s = t := Option.some.inj hrun
      exact hst ▸ mem_visited_self s []
  | cons e es ih =>
      cases hstep : step s e with
      | none => simp [exec_cons, hstep] at hrun
      | some u =>
          rw [exec_cons, hstep] at hrun
          rw [visited_cons_some hstep]
          exact List.mem_cons_of_mem _ (ih hrun)

theorem mem_visited_append_left {s t : σ} {es : List ε} (ht : t ∈ visited step s es)
    (fs : List ε) : t ∈ visited step s (es ++ fs) := by
  induction es generalizing s with
  | nil =>
      simp only [visited, taken, List.map_nil, List.mem_singleton] at ht
      rw [ht]
      exact mem_visited_self s _
  | cons e es ih =>
      cases hmove : step s e with
      | none =>
          simp only [visited, taken_cons_none hmove, List.map_nil, List.mem_singleton] at ht
          rw [ht]
          exact mem_visited_self s _
      | some u =>
          rw [visited_cons_some hmove, List.mem_cons] at ht
          rw [List.cons_append, visited_cons_some hmove, List.mem_cons]
          exact ht.imp_right ih

/-- Every completed step is a step, from a state the run visits to the next one it visits. -/
theorem of_mem_taken {s : σ} {es : List ε} {m : σ × ε × σ} (hm : m ∈ taken step s es) :
    m.1 ∈ visited step s es ∧ step m.1 m.2.1 = some m.2.2 ∧ m.2.2 ∈ visited step s es := by
  induction es generalizing s with
  | nil => simp [taken] at hm
  | cons e es ih =>
      cases hstep : step s e with
      | none => simp [taken_cons_none hstep] at hm
      | some u =>
          rw [taken_cons_some hstep, List.mem_cons] at hm
          rw [visited_cons_some hstep]
          rcases hm with rfl | hm
          · exact ⟨List.mem_cons_self, hstep, List.mem_cons_of_mem _ (mem_visited_self u es)⟩
          · obtain ⟨hfrom, hmove, hto⟩ := ih hm
            exact ⟨List.mem_cons_of_mem _ hfrom, hmove, List.mem_cons_of_mem _ hto⟩

theorem taken_append {s t : σ} {es : List ε} (hrun : exec step s es = some t) (fs : List ε) :
    taken step s (es ++ fs) = taken step s es ++ taken step t fs := by
  induction es generalizing s with
  | nil =>
      have hst : s = t := Option.some.inj hrun
      rw [hst]
      rfl
  | cons e es ih =>
      cases hmove : step s e with
      | none => simp [exec_cons, hmove] at hrun
      | some u =>
          rw [exec_cons, hmove] at hrun
          rw [List.cons_append, taken_cons_some hmove, taken_cons_some hmove, List.cons_append,
            ih hrun]

theorem mem_taken_concat {s t u : σ} {es : List ε} {e : ε} (hrun : exec step s es = some t)
    (hstep : step t e = some u) : (t, e, u) ∈ taken step s (es ++ [e]) := by
  rw [taken_append hrun, taken_cons_some hstep]
  exact List.mem_append_right _ List.mem_cons_self

theorem map_event_taken {s t : σ} {es : List ε} (hrun : exec step s es = some t) :
    (taken step s es).map (fun m => m.2.1) = es := by
  induction es generalizing s with
  | nil => rfl
  | cons e es ih =>
      cases hmove : step s e with
      | none => simp [exec_cons, hmove] at hrun
      | some u =>
          rw [exec_cons, hmove] at hrun
          rw [taken_cons_some hmove, List.map_cons, ih hrun]

/-- What the last event to report something reported. -/
def latest {α : Type*} (report : ε → Option α) (es : List ε) : Option α :=
  (es.filterMap report).getLast?

theorem latest_concat {α : Type*} (report : ε → Option α) (es : List ε) (e : ε) :
    latest report (es ++ [e]) = (report e).or (latest report es) := by
  rw [latest, List.filterMap_append, List.getLast?_append]
  cases hreport : report e <;> simp [hreport, latest]

/-! ### Invariant rules -/

section Rules

variable {Inv P : σ → Prop} {C : σ → ε → Prop}

/-- An invariant of the steps that meet `C` holds in every state of a run whose steps all meet `C`. -/
theorem forall_visited_of_forall_taken
    (hstep : ∀ s e t, Inv s → C s e → step s e = some t → Inv t) {s : σ} (hinit : Inv s)
    {es : List ε} (hC : ∀ m ∈ taken step s es, C m.1 m.2.1) : ∀ t ∈ visited step s es, Inv t := by
  induction es generalizing s with
  | nil =>
      intro t ht
      simp only [visited, taken, List.map_nil, List.mem_singleton] at ht
      exact ht ▸ hinit
  | cons e es ih =>
      intro t ht
      cases hmove : step s e with
      | none =>
          simp only [visited, taken_cons_none hmove, List.map_nil, List.mem_singleton] at ht
          exact ht ▸ hinit
      | some u =>
          rw [taken_cons_some hmove] at hC
          rw [visited_cons_some hmove, List.mem_cons] at ht
          rcases ht with rfl | ht
          · exact hinit
          · have hu : Inv u := hstep s e u hinit (hC _ List.mem_cons_self) hmove
            exact ih hu (fun m hm => hC m (List.mem_cons_of_mem _ hm)) t ht

/-- An invariant of all steps holds in every visited state. -/
theorem forall_visited (hstep : ∀ s e t, Inv s → step s e = some t → Inv t) {s : σ}
    (hinit : Inv s) (es : List ε) : ∀ t ∈ visited step s es, Inv t :=
  forall_visited_of_forall_taken (C := fun _ _ => True) (fun s e t hs _ => hstep s e t hs) hinit
    fun _ _ => trivial

theorem inv_of_exec (hstep : ∀ s e t, Inv s → step s e = some t → Inv t) {s t : σ}
    (hinit : Inv s) {es : List ε} (hrun : exec step s es = some t) : Inv t :=
  forall_visited hstep hinit es t (exec_mem_visited hrun)

/-- When every attempted step meets `C`, and `C` with the invariant gives a successor that keeps the
invariant, the run completes. -/
theorem exec_of_forall_attempts
    (hstep : ∀ s e, Inv s → C s e → ∃ t, step s e = some t ∧ Inv t) {s : σ} (hinit : Inv s)
    {es : List ε} (hC : ∀ m ∈ attempts step s es, C m.1 m.2) :
    ∃ t, exec step s es = some t ∧ Inv t := by
  induction es generalizing s with
  | nil => exact ⟨s, rfl, hinit⟩
  | cons e es ih =>
      obtain ⟨u, hmove, hu⟩ := hstep s e hinit (hC _ List.mem_cons_self)
      rw [attempts_cons_some hmove] at hC
      obtain ⟨t, hrun, ht⟩ := ih hu fun m hm => hC m (List.mem_cons_of_mem _ hm)
      exact ⟨t, by rw [exec_cons, hmove]; exact hrun, ht⟩

theorem step_of_mem_attempts {s t : σ} {es : List ε} (hrun : exec step s es = some t) {m : σ × ε}
    (hm : m ∈ attempts step s es) : ∃ u, step m.1 m.2 = some u := by
  induction es generalizing s with
  | nil => simp [attempts] at hm
  | cons e es ih =>
      cases hmove : step s e with
      | none => simp [exec_cons, hmove] at hrun
      | some u =>
          rw [exec_cons, hmove] at hrun
          rw [attempts_cons_some hmove, List.mem_cons] at hm
          rcases hm with rfl | hm
          · exact ⟨u, hmove⟩
          · exact ih hrun hm

/-- When `C` is what a step needs in a state that keeps the invariant, it is what a run needs. -/
theorem exec_isSome_iff (hstep : ∀ s e t, Inv s → step s e = some t → Inv t)
    (hdefined : ∀ s e, Inv s → ((step s e).isSome ↔ C s e)) {s : σ} (hinit : Inv s) (es : List ε) :
    (exec step s es).isSome ↔ ∀ m ∈ attempts step s es, C m.1 m.2 := by
  induction es generalizing s with
  | nil => exact iff_of_true rfl fun _ hm => nomatch hm
  | cons e es ih =>
      cases hmove : step s e with
      | none =>
          have hstuck : ¬ C s e := fun hC => by
            have hsome := (hdefined s e hinit).2 hC
            rw [hmove] at hsome
            cases hsome
          refine iff_of_false ?_ fun hall => hstuck (hall _ List.mem_cons_self)
          rw [exec_cons, hmove]
          exact Bool.false_ne_true
      | some u =>
          have hC : C s e := (hdefined s e hinit).1 (by rw [hmove]; rfl)
          rw [exec_cons, hmove, attempts_cons_some hmove, List.forall_mem_cons]
          exact (ih (hstep s e u hinit hmove)).trans (and_iff_right hC).symm

/-- A concrete system that can follow every step of an abstract run that meets `C`, as long as its own
state satisfies `P`, follows the whole run when all states it visits do. The relation may depend on how
many steps are still to come. -/
theorem exec_of_simulation {τ : Type*} {stepC : τ → ε → Option τ} {R : Nat → τ → σ → Prop}
    {P : τ → Prop}
    (hstep : ∀ n c s e, R (n + 1) c s → P c → C s e →
      ∃ d t, stepC c e = some d ∧ step s e = some t ∧ R n d t) {c : τ} {s : σ} {es : List ε}
    (hinit : R es.length c s) (hP : ∀ d ∈ visited stepC c es, P d)
    (hC : ∀ m ∈ attempts step s es, C m.1 m.2) :
    ∃ d t, exec stepC c es = some d ∧ exec step s es = some t ∧ R 0 d t := by
  induction es generalizing c s with
  | nil => exact ⟨c, s, rfl, rfl, hinit⟩
  | cons e es ih =>
      obtain ⟨d, u, hc, hs, hR⟩ := hstep es.length c s e hinit (hP c (mem_visited_self c _))
        (hC _ List.mem_cons_self)
      rw [attempts_cons_some hs] at hC
      rw [visited_cons_some hc] at hP
      obtain ⟨d', t, hrunC, hrun, hend⟩ := ih hR (fun d hd => hP d (List.mem_cons_of_mem _ hd))
        fun m hm => hC m (List.mem_cons_of_mem _ hm)
      exact ⟨d', t, by rw [exec_cons, hc]; exact hrunC, by rw [exec_cons, hs]; exact hrun, hend⟩

/-- A part of the state that some steps move, by a step function of its own, and that the others leave
alone has a run of its own for as long as it is there. These steps show what that run shows. -/
theorem exec_part {ρ β γ : Type*} {stepPart : ρ → β → Option ρ} {part : σ → Option ρ}
    {own : σ × ε × σ → Option γ} {event : γ → β} {exchange : ρ × β × ρ → γ} {s t : σ} {es : List ε}
    (hothers : ∀ m ∈ taken step s es, ∀ l, part m.1 = some l → own m = none → part m.2.2 = some l)
    (hown : ∀ m ∈ taken step s es, ∀ l y, part m.1 = some l → own m = some y →
      part m.2.2 = stepPart l (event y) ∧ ∀ l', part m.2.2 = some l' → y = exchange (l, event y, l'))
    (hlive : ∀ u ∈ visited step s es, (part u).isSome) (hrun : exec step s es = some t) {l : ρ}
    (hl : part s = some l) :
    part t = exec stepPart l (((taken step s es).filterMap own).map event) ∧
      (taken step s es).filterMap own =
        (taken stepPart l (((taken step s es).filterMap own).map event)).map exchange := by
  induction es generalizing s l with
  | nil =>
      have hst : s = t := Option.some.inj hrun
      exact ⟨hst ▸ hl, rfl⟩
  | cons e es ih =>
      cases hmove : step s e with
      | none => simp [exec_cons, hmove] at hrun
      | some u =>
          rw [exec_cons, hmove] at hrun
          rw [taken_cons_some hmove, List.forall_mem_cons] at hothers hown
          rw [visited_cons_some hmove, List.forall_mem_cons] at hlive
          rw [taken_cons_some hmove, List.filterMap_cons]
          cases hmine : own (s, e, u) with
          | none => exact ih hothers.2 hown.2 hlive.2 hrun (hothers.1 l hl hmine)
          | some y =>
              obtain ⟨hpart, hshown⟩ := hown.1 l y hl hmine
              obtain ⟨k, hk⟩ := Option.isSome_iff_exists.1 (hlive.2 u (mem_visited_self u es))
              have hstep : stepPart l (event y) = some k := hpart.symm.trans hk
              obtain ⟨hend, hrest⟩ := ih hothers.2 hown.2 hlive.2 hrun hk
              rw [List.map_cons, exec_cons, hstep, taken_cons_some hstep, List.map_cons,
                ← hshown k hk]
              exact ⟨hend, congrArg _ hrest⟩

theorem forall_attempts_of_forall_attempts
    (hstep : ∀ s e t, Inv s → C s e → step s e = some t → Inv t) {s : σ} (hinit : Inv s)
    {es : List ε} (hC : ∀ m ∈ attempts step s es, C m.1 m.2) :
    ∀ m ∈ attempts step s es, Inv m.1 := by
  induction es generalizing s with
  | nil => simp [attempts]
  | cons e es ih =>
      intro m hm
      cases hmove : step s e with
      | none =>
          simp only [attempts, hmove, Option.elim_none, List.mem_singleton] at hm
          exact hm ▸ hinit
      | some u =>
          rw [attempts_cons_some hmove] at hC hm
          rcases List.mem_cons.1 hm with rfl | hm
          · exact hinit
          · exact ih (hstep s e u hinit (hC _ List.mem_cons_self) hmove)
              (fun m hm => hC m (List.mem_cons_of_mem _ hm)) m hm

theorem taken_mem_attempts {s : σ} {es : List ε} {m : σ × ε × σ} (hm : m ∈ taken step s es) :
    (m.1, m.2.1) ∈ attempts step s es := by
  induction es generalizing s with
  | nil => simp [taken] at hm
  | cons e es ih =>
      cases hmove : step s e with
      | none => simp [taken_cons_none hmove] at hm
      | some u =>
          rw [taken_cons_some hmove, List.mem_cons] at hm
          rw [attempts_cons_some hmove, List.mem_cons]
          exact hm.imp (fun h => by rw [h]) ih

theorem mem_visited_of_mem_attempts {s t : σ} {es : List ε} {m : σ × ε}
    (hm : m ∈ attempts step s es) (hstep : step m.1 m.2 = some t) : t ∈ visited step s es := by
  induction es generalizing s with
  | nil => simp [attempts] at hm
  | cons e es ih =>
      cases hmove : step s e with
      | none =>
          simp only [attempts, hmove, Option.elim_none, List.mem_singleton] at hm
          rw [hm, hmove] at hstep
          cases hstep
      | some u =>
          rw [attempts_cons_some hmove, List.mem_cons] at hm
          rw [visited_cons_some hmove]
          rcases hm with rfl | hm
          · rw [hmove] at hstep
            cases hstep
            exact List.mem_cons_of_mem _ (mem_visited_self _ es)
          · exact List.mem_cons_of_mem _ (ih hm)

/-- In a run over events that satisfy `E`, `P` holds in every visited state exactly when every
completed step meets `C`, where `C` carries an invariant that implies `P` and a step that breaks `C`
reaches a state without `P`. -/
theorem forall_visited_iff_forall_taken {E : ε → Prop}
    (hstep : ∀ s e t, Inv s → E e → C s e → step s e = some t → Inv t) (hP : ∀ s, Inv s → P s)
    (hbreak : ∀ s e t, Inv s → E e → step s e = some t → ¬ C s e → ¬ P t) {s : σ} (hinit : Inv s)
    {es : List ε} (hE : ∀ e ∈ es, E e) :
    (∀ t ∈ visited step s es, P t) ↔ ∀ m ∈ taken step s es, C m.1 m.2.1 := by
  induction es generalizing s with
  | nil =>
      simp only [visited, taken, List.map_nil, List.mem_singleton, List.not_mem_nil, false_implies,
        implies_true, iff_true, forall_eq]
      exact hP s hinit
  | cons e es ih =>
      have he := hE e List.mem_cons_self
      have hes : ∀ f ∈ es, E f := fun f hf => hE f (List.mem_cons_of_mem _ hf)
      cases hmove : step s e with
      | none =>
          simp only [visited, taken_cons_none hmove, List.map_nil, List.mem_singleton,
            List.not_mem_nil, false_implies, implies_true, iff_true, forall_eq]
          exact hP s hinit
      | some u =>
          rw [visited_cons_some hmove, taken_cons_some hmove, List.forall_mem_cons,
            List.forall_mem_cons]
          constructor
          · intro hmoves
            obtain ⟨-, hrest⟩ := hmoves
            have hC : C s e := by
              by_contra hnot
              exact hbreak s e u hinit he hmove hnot (hrest u (mem_visited_self u es))
            exact ⟨hC, (ih (hstep s e u hinit he hC hmove) hes).1 hrest⟩
          · intro hmoves
            obtain ⟨hC, hrest⟩ := hmoves
            exact ⟨hP s hinit, (ih (hstep s e u hinit he hC hmove) hes).2 hrest⟩

/-- A property of the steps completed so far and the state they lead to, kept by every step that meets
`C`, holds after a run whose steps all meet `C`. -/
theorem inv_history {Inv : List (σ × ε × σ) → σ → Prop} {C : List (σ × ε × σ) → σ → ε → Prop}
    (hstep : ∀ past s e t, Inv past s → C past s e → step s e = some t →
      Inv (past ++ [(s, e, t)]) t) {s t : σ} (hinit : Inv [] s) {es : List ε}
    (hrun : exec step s es = some t)
    (hC : ∀ past m rest, taken step s es = past ++ m :: rest → C past m.1 m.2.1) :
    Inv (taken step s es) t := by
  suffices hfrom : ∀ before, Inv before s →
      (∀ past m rest, taken step s es = past ++ m :: rest → C (before ++ past) m.1 m.2.1) →
        Inv (before ++ taken step s es) t from
    hfrom [] hinit hC
  clear hinit hC
  induction es generalizing s with
  | nil =>
      intro before hbefore _
      have hst : s = t := Option.some.inj hrun
      rw [taken, List.append_nil]
      exact hst ▸ hbefore
  | cons e es ih =>
      intro before hbefore hC
      cases hmove : step s e with
      | none => simp [exec_cons, hmove] at hrun
      | some u =>
          rw [exec_cons, hmove] at hrun
          rw [taken_cons_some hmove] at hC ⊢
          have hnext : Inv (before ++ [(s, e, u)]) u := by
            refine hstep before s e u hbefore ?_ hmove
            have hfirst := hC [] (s, e, u) (taken step u es) rfl
            rwa [List.append_nil] at hfirst
          rw [List.append_cons]
          refine ih hrun _ hnext fun past m rest hsplit => ?_
          rw [List.append_assoc, List.singleton_append]
          exact hC ((s, e, u) :: past) m rest (by rw [hsplit, List.cons_append])

/-- The same for a property of the events alone, over events that satisfy `E`. -/
theorem inv_events {Inv : List ε → σ → Prop} {E : ε → Prop}
    (hstep : ∀ past s e t, Inv past s → E e → step s e = some t → Inv (past ++ [e]) t) {s t : σ}
    (hinit : Inv [] s) {es : List ε} (hrun : exec step s es = some t) (hE : ∀ e ∈ es, E e) :
    Inv es t := by
  let History := fun (past : List (σ × ε × σ)) s => Inv (past.map fun m => m.2.1) s
  have hkept : ∀ past s e t, History past s → E e → step s e = some t →
      History (past ++ [(s, e, t)]) t := by
    intro past s e t hs he hmove
    show Inv ((past ++ [(s, e, t)]).map fun m => m.2.1) t
    rw [List.map_append]
    exact hstep _ s e t hs he hmove
  have hhistory : History (taken step s es) t := by
    refine inv_history (C := fun _ _ e => E e) hkept hinit hrun fun past m rest hsplit => ?_
    have hmem : m.2.1 ∈ (taken step s es).map fun m => m.2.1 := by
      rw [hsplit]
      simp
    rw [map_event_taken hrun] at hmem
    exact hE _ hmem
  change Inv ((taken step s es).map fun m => m.2.1) t at hhistory
  rwa [map_event_taken hrun] at hhistory

end Rules

end Run
