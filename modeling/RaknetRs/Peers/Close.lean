import RaknetRs.Guard.Close
import RaknetRs.Peers.Socket

namespace RaknetRs

-- The event is not `side`'s sink refusing a send.
def PeersEvent.NoSinkError (side : Side) : PeersEvent → Prop
  | .task t e => t = side → e.NoSinkError
  | .recv _ _ => True

instance (side : Side) : DecidablePred (PeersEvent.NoSinkError side)
  | .task t e => inferInstanceAs (Decidable (t = side → e.NoSinkError))
  | .recv _ _ => isTrue trivial

section Closing

variable {clientGuard serverGuard : Guard} {cap mtu frameSetHeaderSize : Nat} {events : List PeersEvent} {side : Side}

end Closing

end RaknetRs
