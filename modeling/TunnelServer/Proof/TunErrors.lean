import TunnelServer.Proof.Addresses
import TunnelServer.Proof.Traffic

/-!
# Failed reads and writes of the tun device

Both results are stored in a `size_t` before they are compared with zero, so neither failure is ever
seen. A failed read goes on with the packet that an earlier read left in the buffer and with the largest
size; a failed write starts the watcher of the tun device as a good one does.
-/

namespace TunnelServer

namespace Server

open ClientTable

variable {n : Nat} {s t : Server} {e : Event} {h : Handle} {ctx : ServerCtx} {env : Env} {junk : UInt32}

/-- A step in which `read` or `write` on the tun device fails does nothing with it. -/
structure TunErrorsInert (m : Server × Event × Server) : Prop where
  read : ∀ junk, m.2.1 = .tunRead false none junk →
    (∀ cli dst packet, Effect.sendto cli dst packet ∉ logged m.1 m.2.2) ∧
      m.2.2.ctx.tunBuffer.size = m.1.ctx.tunBuffer.size ∧ m.2.2.pool = m.1.pool ∧
      m.2.2.clients = m.1.clients ∧ m.2.2.timers = m.1.timers
  write : ∀ h ctx env, m.1.accepts m.2.1 = some (h, ctx, env) → env.nwrite < 0 →
    Effect.evIoStart ∉ logged m.1 m.2.2 ∧ m.2.2.ctx.tunReadStart = m.1.ctx.tunReadStart

/-- A failing read comes after another one and finds no client under the destination left behind; a
failing write comes when the tun device is being read already. -/
structure TunErrorsHarmless (m : Server × Event) : Prop where
  read : ∀ junk, m.2 = .tunRead false none junk →
    m.1.ctx.tunBuffer.size = UInt64.ofInt (-1) ∧ m.1.Free (m.1.destination [] junk)
  write : ∀ h ctx env, m.1.accepts m.2 = some (h, ctx, env) → env.nwrite < 0 →
    m.1.ctx.tunReadStart = true

/-! ### A failed read -/

theorem Sound.readErrors_iff (hs : s.Sound n) (hb : s.Buffered)
    (hstep : step s (.tunRead false none junk) = some t) :
    ((∀ cli dst packet, Effect.sendto cli dst packet ∉ logged s t) ∧
        t.ctx.tunBuffer.size = s.ctx.tunBuffer.size ∧ t.pool = s.pool ∧ t.clients = s.clients ∧
        t.timers = s.timers) ↔
      s.ctx.tunBuffer.size = UInt64.ofInt (-1) ∧ s.Free (s.destination [] junk) := by
  have hdestination : (s.ctx.tunBuffer.readTun none).transinIp junk = s.destination [] junk :=
    hb.transinIp_readTun none junk
  cases hfind : s.clients.findClient (s.destination [] junk) with
  | none =>
      have hfree : s.Free (s.destination [] junk) := hs.free_iff.2 fun hheld => hheld hfind
      rw [← hdestination] at hfind
      rw [step_tunRead_unknown hfind, Option.some.injEq] at hstep
      have hquiet : logged s t = [] := by
        rw [← hstep]
        exact logged_append (List.append_nil _).symm
      rw [hquiet]
      subst hstep
      constructor
      · intro hinert
        exact ⟨hinert.2.1.symm, hfree⟩
      · intro hharmless
        exact ⟨fun _ _ _ => List.not_mem_nil, hharmless.1.symm, rfl, rfl, rfl⟩
  | some h =>
      obtain ⟨c, hr, hip⟩ := hs.agree.registered_of_findClient hfind
      rw [← hdestination] at hfind
      rw [step_tunRead_known hfind hr.1, Option.some.injEq] at hstep
      subst hstep
      rw [logged_append rfl]
      constructor
      · intro hinert
        exact absurd List.mem_cons_self (hinert.1 _ _ _)
      · intro hharmless
        exact absurd hip (hharmless.2 h c hr)

/-! ### A failed write -/

/-- An accepted datagram starts the watcher unless it has been started, whatever `write` returns. -/
theorem Sound.writeErrors_iff (hs : s.Sound n) (hstep : step s e = some t)
    (hacc : s.accepts e = some (h, ctx, env)) :
    (Effect.evIoStart ∉ logged s t ∧ t.ctx.tunReadStart = s.ctx.tunReadStart) ↔
      s.ctx.tunReadStart = true := by
  obtain ⟨bytes, src, rfl, -, -⟩ := datagram_of_accepts hacc
  obtain ⟨c, c', timer, ys, -, -, hys, heq⟩ := hs.step_accepted hacc
  cases Option.some.inj (hstep.symm.trans heq)
  rw [logged_append rfl]
  constructor
  · intro hinert
    exact hinert.2.symm
  · intro hstarted
    refine ⟨fun hmem => ?_, hstarted.symm⟩
    rw [hstarted] at hmem
    rcases hys with rfl | rfl <;> simp [tunEffects, refreshCalls] at hmem

end Server

open Server

/-- In every step of every run, a failure on the tun device is inert exactly when the read that fails
follows a failed one and the packet in the buffer is for nobody, and when the write that fails comes
after the watcher was started. -/
theorem tun_errors_inert_iff {n : Nat} (hmin : 2 ≤ n) (hmax : n ≤ 65533) (es : List Event)
    (m : Server × Event × Server) (hm : m ∈ Run.taken step (serverInit (ipPoolOf n)) es) :
    TunErrorsInert m ↔ TunErrorsHarmless (m.1, m.2.1) := by
  obtain ⟨s, e, t⟩ := m
  obtain ⟨hfrom, hstep, -⟩ := Run.of_mem_taken hm
  have hs : s.Sound n := sound_of_mem_visited hmin hmax hfrom
  have hb : s.Buffered := buffered_of_mem_visited hfrom
  constructor
  · intro hinert
    refine ⟨fun junk hevent => ?_, fun h ctx env hacc hfails => ?_⟩
    · have he : e = .tunRead false none junk := hevent
      subst he
      exact (hs.readErrors_iff hb hstep).1 (hinert.read junk rfl)
    · exact (hs.writeErrors_iff hstep hacc).1 (hinert.write h ctx env hacc hfails)
  · intro hharmless
    refine ⟨fun junk hevent => ?_, fun h ctx env hacc hfails => ?_⟩
    · have he : e = .tunRead false none junk := hevent
      subst he
      exact (hs.readErrors_iff hb hstep).2 (hharmless.read junk rfl)
    · exact (hs.writeErrors_iff hstep hacc).2 (hharmless.write h ctx env hacc hfails)

/-- A client connects and sends a packet, an answer comes for it, and then `read` has nothing more. -/
def emptyRead : List Event :=
  [firstConnect,
    .arrives (transOutDatagram 0 (ipv4Header (htonl minIp) 0)) (.inet 192 0 2 1) 1,
    .tunRead false (some (ipv4Header 0 (htonl minIp))) 0]

theorem tun_errors_inert_iff_emptyRead :
    ∃ s t, Run.exec step (serverInit (ipPoolOf 65533)) emptyRead = some s ∧
      step s (.tunRead false none 0) = some t ∧
      (TunErrorsInert (s, .tunRead false none 0, t) ↔
        TunErrorsHarmless (s, .tunRead false none 0)) := by
  have hruns : (Run.exec step (serverInit (ipPoolOf 65533)) emptyRead).any (fun s =>
      (step s (.tunRead false none 0)).isSome) = true := by
    decide +kernel
  obtain ⟨s, hrun, hsome⟩ := (Option.any_eq_true _ _).1 hruns
  obtain ⟨t, hstep⟩ := Option.isSome_iff_exists.1 hsome
  exact ⟨s, t, hrun, hstep, tun_errors_inert_iff (by decide) le_rfl
    (emptyRead ++ [.tunRead false none 0]) _ (Run.mem_taken_concat hrun hstep)⟩

/-- The failed read sends the client a datagram of one byte. -/
theorem empty_read_sends_byte :
    ¬ ∀ m ∈ Run.taken step (serverInit serverIpInit) (emptyRead ++ [.tunRead false none 0]),
      TunErrorsInert m := by
  have hsends : (Run.exec step (serverInit serverIpInit) emptyRead).any (fun s =>
      (step s (.tunRead false none 0)).any fun t =>
        decide (logged s t = [.sendto (some 0) (.inet 192 0 2 1) [TUNNEL_VERSION]])) = true := by
    decide +kernel
  simp only [Option.any_eq_true, decide_eq_true_eq] at hsends
  obtain ⟨s, hrun, t, hstep, hlogged⟩ := hsends
  intro hall
  have hmem := Run.mem_taken_concat hrun hstep
  have hnone := ((hall _ hmem).read 0 rfl).1
  refine hnone (some 0) (.inet 192 0 2 1) [TUNNEL_VERSION] ?_
  rw [hlogged]
  exact List.mem_cons_self

end TunnelServer
