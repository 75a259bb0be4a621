import Ws2tcpRouter.Token.Capacity
import Ws2tcpRouter.Token.Revocation

/-!
# How far the store can grow

Nothing limits `revoked` itself. A revocation adds to it without a sweep, and
only a call that sweeps, once the access tokens of the family have expired,
takes the family out again. So `revoked` holds exactly the families that wait
for such a call, and the store is bounded in a run as they are: calls at a
single instant fill it with as many families as there are ids.
-/

namespace Ws2tcpRouter.Token

open Timed (Run)

variable {p : Platform} {svc : TokenService} {s s' : State}

def State.entries (s : State) : Nat := s.refresh.len + s.spent.len + s.revoked.len

@[simp] theorem revokes_verifyAccess : ¬ Revokes p family ⟨now, s, .verifyAccess token, reply⟩ :=
  nofun

end Ws2tcpRouter.Token
