import TunnelServer.Proof.Sound

/-!
# The runs that go through

A step has no outcome where a handler follows a pointer to freed memory or `NULL` or leaves an array; a
read of uninitialised memory does not stop it, as what it gives comes from the environment. The conditions
are few, and none can be dropped: a GUID fits the buffer of `server_on_connect`, `malloc` has a block for
a new client, a timer that fires belongs to a live client, and an address given back sits in a slot that
an `int16_t` holds.
-/

namespace TunnelServer

namespace Server

open ClientTable

variable {n : Nat} {s : Server} {e : Event}

/-- What the handlers ask of an event in a state. -/
structure Safe (s : Server) (e : Event) : Prop where
  guidLen : ∀ ctx env, e.command TUNNEL_CMD_CONNECT = some (ctx, env) →
    0 ≤ ctx.guidLen ∧ ctx.guidLen < 60
  mem : ∀ ctx env, e.command TUNNEL_CMD_CONNECT = some (ctx, env) →
    s.clients.findClientByGuid ctx.connectGuid = none → env.mem.isSome
  owned : TimerOwned (s, e)
  small : GivesBackSmall (s, e)

theorem Sound.connect_isSome_of_safe (hs : s.Sound n) (hsafe : s.Safe e) {ctx : ServerCtx} {env : Env}
    (hcmd : e.command TUNNEL_CMD_CONNECT = some (ctx, env)) : (step s e).isSome := by
  have hlen := hsafe.guidLen ctx env hcmd
  cases hfind : s.clients.findClientByGuid ctx.connectGuid with
  | some h =>
      obtain ⟨c, hr, -⟩ := hs.agree.registered_of_findGuid hfind
      obtain ⟨ctx', heq⟩ := step_reconnect hcmd hlen hfind hr
      rw [heq]
      rfl
  | none =>
      obtain ⟨m, hmem⟩ := Option.isSome_iff_exists.1 (hsafe.mem ctx env hcmd hfind)
      obtain ⟨ctx', heq⟩ := hs.step_create hcmd hlen hfind hmem
      rw [heq]
      rfl

theorem Sound.step_isSome_of_safe (hs : s.Sound n) (hsafe : s.Safe e) : (step s e).isSome := by
  cases hcmd : e.command TUNNEL_CMD_CONNECT with
  | some d => exact hs.connect_isSome_of_safe hsafe hcmd
  | none =>
      refine hs.step_isSome (fun ctx env hconnect => ?_) hsafe.owned hsafe.small
      rw [hcmd] at hconnect
      cases hconnect

theorem Sound.safe_of_step (hs : s.Sound n) {t : Server} (hstep : step s e = some t) : s.Safe e where
  guidLen := fun _ _ hcmd => (hs.connect_cases hcmd hstep).1
  mem := by
    intro ctx env hcmd hfind
    obtain ⟨-, ⟨h, c, ctx', hfound, -⟩ | ⟨m, ctx', -, hmem, -⟩⟩ := hs.connect_cases hcmd hstep
    · rw [hfind] at hfound
      cases hfound
    · rw [hmem]
      rfl
  owned := by
    intro w error env hevent
    cases hevent
    have hfire : s.fire w error env = some t := hstep
    cases htimer : s.timers w with
    | none => simp [fire, htimer] at hfire
    | some timer =>
        cases hc : s.clients.heap w with
        | none => simp [fire, htimer, hc] at hfire
        | some c => exact ⟨rfl, c, hs.registered w c hc⟩
  small := by
    intro w c hexp
    have hip := hs.owned w c (heap_of_expiring hexp)
    rw [← IpPool.serverReclaimIp_isSome_iff hs.coherent hip, ← Option.isSome_map,
      ← hs.step_of_expiring hexp, hstep]
    rfl

theorem Sound.step_isSome_iff (hs : s.Sound n) : (step s e).isSome ↔ s.Safe e := by
  constructor
  · intro hsome
    obtain ⟨t, hstep⟩ := Option.isSome_iff_exists.1 hsome
    exact hs.safe_of_step hstep
  · exact hs.step_isSome_of_safe

end Server

open Server

/-- The handlers get through a run without touching freed memory, following `NULL` or leaving an array
exactly when every event is safe in the state it comes in. -/
theorem runs_through_iff {n : Nat} (hmin : 2 ≤ n) (hmax : n ≤ 65533) (es : List Event) :
    (Run.exec step (serverInit (ipPoolOf n)) es).isSome ↔
      ∀ m ∈ Run.attempts step (serverInit (ipPoolOf n)) es, m.1.Safe m.2 :=
  Run.exec_isSome_iff (fun _ _ _ hs hstep => hs.of_step hstep) (fun _ _ hs => hs.step_isSome_iff)
    (serverInit_sound hmin hmax) es

theorem runs_through_iff_comingAndGoing :
    (Run.exec step (serverInit (ipPoolOf 65533)) comingAndGoing).isSome ∧
      List.Forall (fun m => m.1.Safe m.2)
        (Run.attempts step (serverInit (ipPoolOf 65533)) comingAndGoing) :=
  ⟨comingAndGoing_runs, List.forall_iff_forall_mem.2
    ((runs_through_iff (by decide) (by decide) comingAndGoing).1 comingAndGoing_runs)⟩

end TunnelServer
