import RaknetRs.Guard.Accounting

namespace RaknetRs

-- A connection event's deliveries stay below a bound.
def ConnEvent.SeqBelow (bound : Nat) : ConnEvent → Prop
  | .peer e => e.toLinkEvent.SeqBelow bound
  | _ => True

-- The writer's own calls into the link; none of them delivers a frame-set.
def LinkEvent.WriterCall : LinkEvent → Prop
  | .processOutgoingAck _ | .processOutgoingNack _ | .processIncoming | .processUnconnected => True
  | _ => False

theorem WriterCall.seqBelow {e : LinkEvent} (call : e.WriterCall) (bound : Nat) : e.SeqBelow bound := by
  cases e <;> trivial

section Projection

variable (c : Conn)

-- What each part of the writer leaves of the link: nothing, or what its one call took.
theorem flushCheckStep_sys (call : Call) (strategy : FlushStrategy) : (c.flushCheckStep call strategy).sys = c.sys := by
  unfold Conn.flushCheckStep Conn.returnReady
  repeat' split
  all_goals rfl

theorem frameSetStep_sys (call : Call) (strategy : FlushStrategy) (answer : SinkAnswer) :
    (c.frameSetStep call strategy answer).sys = c.sys := by
  rcases frameSetStep_cases c call strategy answer with ⟨_,next,-⟩ | ⟨_,next⟩ | ⟨_,_,_,next⟩ <;> rw [next]
  · rfl
  · simp [emit_eq]

theorem closeAssertStep_sys (answer : SinkAnswer) : (c.closeAssertStep answer).sys = c.sys := by
  unfold Conn.closeAssertStep
  repeat' split
  all_goals rfl

theorem controlStep_sys (answer : SinkAnswer) (selected : Bool) (take : LinkSystem → Except Fault (Option Ack) × LinkSystem)
    (packet : Ack → Outgoing) (next : Phase) :
    (c.controlStep answer selected take packet next).sys = c.sys ∨
      (c.controlStep answer selected take packet next).sys = (take c.sys).2 := by
  unfold Conn.controlStep
  repeat' split
  all_goals first
    | exact .inl rfl
    | (rename_i taken; exact .inr (by rw [taken]))
    | (rename_i taken _; exact .inr (by rw [taken]))

theorem unconnectedStep_sys (call : Call) (strategy : FlushStrategy) (answer : SinkAnswer) :
    (c.unconnectedStep call strategy answer).sys = c.sys ∨
      (c.unconnectedStep call strategy answer).sys = c.sys.takeUnconnected.2 := by
  unfold Conn.unconnectedStep
  repeat' split
  all_goals first
    | exact .inl rfl
    | (rename_i taken; exact .inr (by rw [taken]))
    | (rename_i taken _; exact .inr (by rw [taken]))

theorem foldl_sys (l : List Ack) (f : Conn → Ack → Conn) (keep : ∀ d a, (f d a).sys = d.sys) (d : Conn) :
    (l.foldl f d).sys = d.sys := by
  induction l generalizing d with
  | nil => rfl
  | cons a l ih => exact (ih (f d a)).trans (keep d a)

theorem begin_sys (call : Call) (strategy : Option FlushStrategy) (stale : List Uint24le) :
    (c.begin call strategy stale).sys = c.sys.takeIncoming.2 := by
  unfold Conn.begin
  rcases c.sys.takeIncoming with ⟨⟨acks,nacks⟩,sys⟩
  exact (foldl_sys nacks Conn.absorbNack (fun _ _ => rfl) _).trans (foldl_sys acks Conn.absorbAck (fun _ _ => rfl) _)

-- One connection step moves the link by writer calls, or by the other tasks' event itself.
def LinkMoves (c d : Conn) (e : ConnEvent) : Prop :=
  ∃ links : List LinkEvent, d.sys = c.sys.run links ∧
    ∀ l ∈ links, l.WriterCall ∨ ∃ p, e = .peer p ∧ l = p.toLinkEvent

theorem linkMoves_stay (e : ConnEvent) {d : Conn} (same : d.sys = c.sys) : LinkMoves c d e :=
  ⟨[],same,fun _ mem => by cases mem⟩

theorem linkMoves_call (e : ConnEvent) {d : Conn} {l : LinkEvent} (moved : d.sys = c.sys.step l) (call : l.WriterCall) :
    LinkMoves c d e :=
  ⟨[l],moved,fun _ mem => .inl (List.mem_singleton.mp mem ▸ call)⟩

theorem step_moves (e : ConnEvent) : LinkMoves c (c.step e) e := by
  cases e with
  | peer p => exact ⟨[p.toLinkEvent],rfl,fun _ mem => .inr ⟨p,rfl,List.mem_singleton.mp mem⟩⟩
  | startSend frame =>
    simp only [Conn.step]
    split <;> exact linkMoves_stay c _ rfl
  | poll call strategy stale =>
    simp only [Conn.step]
    split
    · exact @linkMoves_call c _ _ .processIncoming (begin_sys c call strategy stale) trivial
    · exact linkMoves_stay c _ rfl
  | writer answer =>
    simp only [Conn.step,Conn.advance]
    split
    · exact linkMoves_stay c _ rfl
    · exact linkMoves_stay c _ rfl
    · exact linkMoves_stay c _ rfl
    · exact linkMoves_stay c _ (flushCheckStep_sys c _ _)
    · rcases controlStep_sys c answer _ (·.takeOutgoingNack c.guard.mtu) .nack _ with same | taken
      · exact linkMoves_stay c _ same
      · exact @linkMoves_call c _ _ (.processOutgoingNack c.guard.mtu) taken trivial
    · rcases controlStep_sys c answer _ (·.takeOutgoingAck c.guard.mtu) .ack _ with same | taken
      · exact linkMoves_stay c _ same
      · exact @linkMoves_call c _ _ (.processOutgoingAck c.guard.mtu) taken trivial
    · rcases unconnectedStep_sys c _ _ answer with same | taken
      · exact linkMoves_stay c _ same
      · exact @linkMoves_call c _ _ .processUnconnected taken trivial
    · exact linkMoves_stay c _ (frameSetStep_sys c _ _ _)
    · exact linkMoves_stay c _ (closeAssertStep_sys c _)

end Projection

-- A run of the whole connection moves its link as a run of the link layer whose events are the
-- writer's calls and the other tasks' events of the run.
theorem run_moves : ∀ (events : List ConnEvent) (c : Conn), ∃ links : List LinkEvent,
    (c.run events).sys = c.sys.run links ∧ ∀ l ∈ links, l.WriterCall ∨ ∃ p, .peer p ∈ events ∧ l = p.toLinkEvent
  | [],_ => ⟨[],rfl,fun _ mem => by cases mem⟩
  | e :: events,c => by
    obtain ⟨first,moved,fromFirst⟩ := step_moves c e
    obtain ⟨rest,ran,fromRest⟩ := run_moves events (c.step e)
    refine ⟨first ++ rest,by rw [LinkSystem.run_append,← moved]; exact ran,fun l mem => ?_⟩
    rcases List.mem_append.mp mem with early | late
    · rcases fromFirst l early with call | ⟨p,rfl,rfl⟩
      · exact .inl call
      · exact .inr ⟨p,List.mem_cons_self _ _,rfl⟩
    · rcases fromRest l late with call | ⟨p,listed,rfl⟩
      · exact .inl call
      · exact .inr ⟨p,List.mem_cons_of_mem _ listed,rfl⟩

-- The frame-sets the other tasks bring into `Router::deliver` past the route-closed check.
def Conn.routes (c : Conn) : ConnEvent → List Uint24le
  | .peer p => c.sys.routes p.toLinkEvent
  | _ => []

def Conn.routed (c : Conn) (events : List ConnEvent) : List Uint24le := collect Conn.step Conn.routes c events

theorem WriterCall.routes {l : LinkEvent} (call : l.WriterCall) (s : LinkSystem) : s.routes l = [] := by
  cases l <;> first | rfl | cases call

theorem run_calls_received : ∀ (links : List LinkEvent) (s : LinkSystem), (∀ l ∈ links, l.WriterCall) →
    (s.run links).received = s.received
  | [],_,_ => rfl
  | l :: links,s,calls => by
    have quiet : (s.step l).received = s.received := by
      rw [step_received_routes,WriterCall.routes (calls l (List.mem_cons_self _ _)),List.append_nil]
    exact (run_calls_received links (s.step l) fun l' mem => calls l' (List.mem_cons_of_mem _ mem)).trans quiet

theorem Conn.step_received (c : Conn) (e : ConnEvent) : (c.step e).sys.received = c.sys.received ++ c.routes e := by
  cases e
  case peer p => exact step_received_routes c.sys p.toLinkEvent
  all_goals
    obtain ⟨links,moved,calls⟩ := step_moves c _
    rw [moved,run_calls_received links c.sys fun l mem => (calls l mem).resolve_right nofun]
    exact (List.append_nil _).symm

-- The whole connection keeps the link layer's bookkeeping: ACK egress conserves what the router
-- pushed.
theorem conn_ackConserved (link : TransferLink) (guard : Guard) (events : List ConnEvent) :
    AckConserved link.outgoingAck ((Conn.start link guard).run events).sys := by
  obtain ⟨links,ran,-⟩ := run_moves events (Conn.start link guard)
  rw [ran]
  exact run_ackConserved link links

end RaknetRs
