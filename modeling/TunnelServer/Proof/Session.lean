import TunnelServer.Proof.Routing

/-!
# A session from end to end

What a client can rely on that knows nothing but the wire formats. It is told an address and a session
id, sends packets from that address behind a header with that id, and gets packets for that address back
wherever it was last heard, for as long as the server keeps it and whatever others do in between.
-/

namespace TunnelServer

namespace Server

open ClientTable

variable {n : Nat} {s t : Server} {e : Event} {h : Handle} {c c' : Client} {src : SockAddr} {env : Env}

theorem Sound.of_exec (hs : s.Sound n) {fs : List Event} (hrun : Run.exec step s fs = some t) :
    t.Sound n :=
  Run.inv_of_exec (fun _ _ _ hs hstep => hs.of_step hstep) hs hrun

theorem Buffered.of_exec (hb : s.Buffered) {fs : List Event} (hrun : Run.exec step s fs = some t) :
    t.Buffered :=
  Run.inv_of_exec (fun _ _ _ hb hstep => hb.of_step hstep) hb hrun

end Server

open Server

end TunnelServer
