import RaknetRs.Guard.Drain

namespace RaknetRs

section Parts

variable {c : Conn} {call : Call} {strategy : FlushStrategy}

end Parts

end RaknetRs
