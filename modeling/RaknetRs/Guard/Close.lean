import RaknetRs.Guard.Projection

namespace RaknetRs

theorem Conn.run_append (c : Conn) (events more : List ConnEvent) : c.run (events ++ more) = (c.run events).run more :=
  List.foldl_append _ _ _ _

section Shut

variable {s : LinkSystem}

end Shut

section Acknowledged

variable {c : Conn}

end Acknowledged

section Closing

variable (c : Conn)

end Closing

end RaknetRs
