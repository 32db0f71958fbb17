import TunnelServer.Proof.Routing

/-!
# What reaches the tun device

The packets of the accepted trans-out datagrams are written to the tun device, each once and in the order
in which they came. Reading from the device is started once, after the first of them.
-/

namespace TunnelServer

instance : DecidablePred Effect.OnTun := fun x =>
  match x with
  | .write count packet => isTrue (Or.inl ⟨count, packet, rfl⟩)
  | .evIoStart => isTrue (Or.inr rfl)
  | .allocate .. | .sendto .. | .evTimerStop _ | .evTimerInit .. | .evTimerStart _ =>
    isFalse (by simp [Effect.OnTun])

def tunCalls : List (Int × List UInt8) → List Effect
  | [] => []
  | w :: ws => .write w.1 w.2 :: .evIoStart :: ws.map fun w => .write w.1 w.2

theorem tunCalls_concat (ws : List (Int × List UInt8)) (w : Int × List UInt8) :
    tunCalls (ws ++ [w]) =
      tunCalls ws ++ (.write w.1 w.2 :: if ws = [] then [.evIoStart] else []) := by
  cases ws with
  | nil => rfl
  | cons v ws => simp [tunCalls]

namespace Server

variable {n : Nat} {s t : Server} {e : Event} {h : Handle} {ctx : ServerCtx} {env : Env}

def relayed (m : Server × Event × Server) : Option (Int × List UInt8) :=
  (m.1.accepts m.2.1).map fun d =>
    (d.2.1.ippackSize, d.2.1.ippack.take d.2.1.ippackSize.toNat)

theorem Sound.trace_of_step (hs : s.Sound n) (hstep : step s e = some t) :
    t.trace = s.trace ++ logged s t := by
  cases hs.step_cases hstep with
  | quiet | touch | create => rw [logged_append rfl]
  | lapse | expire =>
      rw [logged]
      exact (List.append_nil _).symm.trans (congrArg _ List.drop_length.symm)

theorem Sound.onTun_of_accepts (hs : s.Sound n) (hstep : step s e = some t)
    (hacc : s.accepts e = some (h, ctx, env)) :
    (logged s t).filter (fun x => x.OnTun) =
        tunEffects { ctx with tunReadStart := s.ctx.tunReadStart } ∧
      t.ctx.tunReadStart = true := by
  obtain ⟨bytes, src, rfl, -, -⟩ := datagram_of_accepts hacc
  obtain ⟨c, c', timer, ys, -, -, hys, heq⟩ := hs.step_accepted hacc
  cases Option.some.inj (hstep.symm.trans heq)
  rw [logged_append rfl]
  refine ⟨?_, rfl⟩
  have htun : ∀ x ∈ tunEffects { ctx with tunReadStart := s.ctx.tunReadStart }, x.OnTun := by
    intro x hx
    rcases List.mem_cons.1 hx with rfl | hx
    · exact Or.inl ⟨_, _, rfl⟩
    · split_ifs at hx
      · cases hx
      · exact Or.inr (List.mem_singleton.1 hx)
  have hrest : ∀ x ∈ ys, ¬ x.OnTun := by
    rcases hys with rfl | rfl
    · exact fun _ hx => nomatch hx
    · simp [refreshCalls, Effect.OnTun]
  rw [List.filter_append, List.filter_eq_self.2 (by simpa using htun),
    List.filter_eq_nil_iff.2 (by simpa using hrest), List.append_nil]

theorem tunReadStart_serverOnTransin {junk : UInt32} (ht : s.serverOnTransin junk = some t) :
    t.ctx.tunReadStart = s.ctx.tunReadStart := by
  rw [serverOnTransin] at ht
  split at ht
  · cases ht
    rfl
  · simp only [Option.bind_eq_bind, Option.bind_eq_some_iff, Option.some.injEq] at ht
    obtain ⟨c, -, rfl⟩ := ht
    rfl

/-- Nothing else starts the watcher of the device. -/
theorem Sound.tunReadStart_of_not_accepts (hs : s.Sound n) (hstep : step s e = some t)
    (hacc : s.accepts e = none) : t.ctx.tunReadStart = s.ctx.tunReadStart := by
  cases e with
  | socketRead error received env =>
      rcases error with _ | _ <;> rcases received with _ | ⟨bytes, src⟩
      · cases hstep
        rfl
      · by_cases htrans : (datagramCtx bytes src).cmd = TUNNEL_CMD_TRANS_OUT
        · cases Option.some.inj (hstep.symm.trans (hs.step_refused htrans hacc))
          rfl
        change (s.receive bytes src).dispatch env = some t at hstep
        unfold dispatch at hstep
        split_ifs at hstep with hconnect hdone htrans'
        · rw [ctx_serverOnConnect hstep]
          rfl
        · rw [ctx_serverOnConnectDone hstep]
          rfl
        · exact absurd htrans' htrans
        · cases hstep
          rfl
      · cases hstep
        rfl
      · cases hstep
        rfl
  | tunRead error received junk =>
      cases error with
      | true =>
          cases hstep
          rfl
      | false =>
          rw [step_tunRead] at hstep
          rw [tunReadStart_serverOnTransin hstep]
  | timer w error env =>
      simp only [step, fire, Option.bind_eq_bind, Option.bind_eq_some_iff] at hstep
      obtain ⟨timer, -, c, -, hstep⟩ := hstep
      split at hstep
      · rw [ctx_timeoutCb hstep]
      · rw [ctx_timeoutCbDeleteClient hstep]

structure Relaying (n : Nat) (past : List (Server × Event × Server)) (s : Server) : Prop where
  sound : s.Sound n
  calls : s.trace.filter (fun x => x.OnTun) = tunCalls (past.filterMap relayed)
  started : s.ctx.tunReadStart = true ↔ past.filterMap relayed ≠ []

theorem Relaying.of_step {past : List (Server × Event × Server)} (hs : s.Relaying n past)
    (hstep : step s e = some t) : t.Relaying n (past ++ [(s, e, t)]) := by
  have ht := hs.sound.of_step hstep
  have hcalls : t.trace.filter (fun x => x.OnTun) =
      tunCalls (past.filterMap relayed) ++ (logged s t).filter fun x => x.OnTun := by
    rw [hs.sound.trace_of_step hstep, List.filter_append, hs.calls]
  have hpast : (past ++ [(s, e, t)]).filterMap relayed =
      past.filterMap relayed ++ (relayed (s, e, t)).toList := by
    rw [List.filterMap_append]
    cases hrelayed : relayed (s, e, t) <;> simp [hrelayed]
  cases hacc : s.accepts e with
  | none =>
      have hnone : relayed (s, e, t) = none := congrArg (Option.map _) hacc
      have hquiet : (logged s t).filter (fun x => x.OnTun) = [] := by
        refine List.filter_eq_nil_iff.2 fun x hx htun => ?_
        obtain ⟨h, ctx, env, hsome⟩ := hs.sound.accepts_of_onTun hstep hx (of_decide_eq_true htun)
        rw [hacc] at hsome
        cases hsome
      rw [hnone, Option.toList_none, List.append_nil] at hpast
      refine ⟨ht, ?_, ?_⟩
      · rw [hcalls, hquiet, List.append_nil, hpast]
      · rw [hs.sound.tunReadStart_of_not_accepts hstep hacc, hpast]
        exact hs.started
  | some accepted =>
      obtain ⟨h, ctx, env⟩ := accepted
      have hsome : relayed (s, e, t) =
          some (ctx.ippackSize, ctx.ippack.take ctx.ippackSize.toNat) := congrArg (Option.map _) hacc
      obtain ⟨hlogged, hstarted⟩ := hs.sound.onTun_of_accepts hstep hacc
      rw [hsome, Option.toList_some] at hpast
      have hwatcher : (if s.ctx.tunReadStart then [] else [Effect.evIoStart]) =
          if past.filterMap relayed = [] then [.evIoStart] else [] := by
        by_cases hfirst : past.filterMap relayed = []
        · rw [if_pos hfirst, if_neg (mt hs.started.1 (not_not_intro hfirst))]
        · rw [if_neg hfirst, if_pos (hs.started.2 hfirst)]
      refine ⟨ht, ?_, ?_⟩
      · rw [hcalls, hlogged, hpast, tunCalls_concat, ← hwatcher]
        rfl
      · rw [hpast]
        exact iff_of_true hstarted (List.append_ne_nil_of_right_ne_nil _ (List.cons_ne_nil _ _))

end Server

open Server

/-- In every run the packets of the accepted trans-out datagrams are written to the tun device, each once
and in the order in which they were accepted. Reading from the device is started once, after the first
write, and nothing else is done with it. -/
theorem tun_written_in_order {n : Nat} (hmin : 2 ≤ n) (hmax : n ≤ 65533) (es : List Event)
    (t : Server) (hrun : Run.exec step (serverInit (ipPoolOf n)) es = some t) :
    t.trace.filter (fun x => x.OnTun) =
      tunCalls ((Run.taken step (serverInit (ipPoolOf n)) es).filterMap relayed) := by
  have hkept : ∀ past s e t, s.Relaying n past → True → step s e = some t →
      t.Relaying n (past ++ [(s, e, t)]) := fun _ _ _ _ hs _ hstep => hs.of_step hstep
  have hinit : (serverInit (ipPoolOf n)).Relaying n [] :=
    ⟨serverInit_sound hmin hmax, rfl, iff_of_false Bool.false_ne_true fun h => h rfl⟩
  exact (Run.inv_history (C := fun _ _ _ => True) hkept hinit hrun fun _ _ _ _ => trivial).calls

theorem tun_written_in_order_roaming :
    ∃ t, Run.exec step (serverInit (ipPoolOf 65533)) roaming = some t ∧
      t.trace.filter (fun x => x.OnTun) = [.write 20 (ipv4Header (htonl minIp) 0), .evIoStart] := by
  have hsome : (Run.exec step (serverInit (ipPoolOf 65533)) roaming).isSome = true := by decide +kernel
  obtain ⟨t, hrun⟩ := Option.isSome_iff_exists.1 hsome
  have hrelayed : tunCalls ((Run.taken step (serverInit (ipPoolOf 65533)) roaming).filterMap relayed) =
      [.write 20 (ipv4Header (htonl minIp) 0), .evIoStart] := by decide +kernel
  exact ⟨t, hrun, (tun_written_in_order (by decide) le_rfl roaming t hrun).trans hrelayed⟩

end TunnelServer
