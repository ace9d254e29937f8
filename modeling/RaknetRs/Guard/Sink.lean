import RaknetRs.Guard.Projection

namespace RaknetRs

def Outgoing.ack? : Outgoing → Option Ack
  | .ack records => some records
  | _ => none

def Outgoing.nack? : Outgoing → Option Ack
  | .nack records => some records
  | _ => none

def Outgoing.unconnected? : Outgoing → Option UnconnectedPacket
  | .unconnected packet => some packet
  | _ => none

-- The unconnected packets another task hands the link with `send_unconnected`.
def ConnEvent.queued? : ConnEvent → Option UnconnectedPacket
  | .peer (.sendUnconnected packet) => some packet
  | _ => none

-- The packets of each class the sink accepted, in order.
def Conn.sentAcks (c : Conn) : List Ack := c.sent.filterMap Outgoing.ack?
def Conn.sentNacks (c : Conn) : List Ack := c.sent.filterMap Outgoing.nack?
def Conn.sentUnconnected (c : Conn) : List UnconnectedPacket := c.sent.filterMap Outgoing.unconnected?

-- What one step hands out: `acks` and `nacks` are the packets the link gave the writer, `moved`
-- what it took off the unconnected queue; the sink got all of them, or the step was refused and
-- it got none. Frame-sets may go out beside them.
def Handed (c d : Conn) (acks nacks : List Ack) (moved : List UnconnectedPacket) (refused : Prop) : Prop :=
  d.sys.acksReturned = c.sys.acksReturned ++ acks ∧ d.sys.nacksReturned = c.sys.nacksReturned ++ nacks ∧
    ∃ extra, d.sent = c.sent ++ extra ∧
      (extra.filterMap Outgoing.ack? = acks ∧ extra.filterMap Outgoing.nack? = nacks ∧
          extra.filterMap Outgoing.unconnected? = moved ∨
        refused ∧ extra.filterMap Outgoing.ack? = [] ∧ extra.filterMap Outgoing.nack? = [] ∧
          extra.filterMap Outgoing.unconnected? = [])

-- The same with refused sends: the sink got an order-preserving part of each, nothing twice.
def EgressWithin (c : Conn) (queued : List UnconnectedPacket) : Prop :=
  c.sentAcks.Sublist c.sys.acksReturned ∧ c.sentNacks.Sublist c.sys.nacksReturned ∧
    (c.sentUnconnected ++ c.sys.link.unconnected).Sublist queued

section Handed

variable {c d : Conn} {s : LinkSystem}

theorem handed_quiet {refused : Prop} (acks : d.sys.acksReturned = c.sys.acksReturned)
    (nacks : d.sys.nacksReturned = c.sys.nacksReturned) (sent : d.sent = c.sent ∨ ∃ seqNum frames,
      d.sent = c.sent ++ [.frameSet seqNum frames]) : Handed c d [] [] [] refused := by
  refine ⟨by rw [acks,List.append_nil],by rw [nacks,List.append_nil],?_⟩
  rcases sent with same | ⟨seqNum,frames,sent⟩
  · exact ⟨[],by rw [same,List.append_nil],.inl ⟨rfl,rfl,rfl⟩⟩
  · exact ⟨[.frameSet seqNum frames],sent,.inl ⟨rfl,rfl,rfl⟩⟩

theorem takeOutgoingAck_handed {mtu : Nat} {taken : Option Ack} (ok : (s.takeOutgoingAck mtu).1 = .ok taken) :
    (s.takeOutgoingAck mtu).2.acksReturned = s.acksReturned ++ taken.toList ∧
      (s.takeOutgoingAck mtu).2.nacksReturned = s.nacksReturned ∧
      (s.takeOutgoingAck mtu).2.link.unconnected = s.link.unconnected := by
  rcases processed : s.link.processOutgoingAck mtu with _ | ⟨ack,link⟩
  · simp [LinkSystem.takeOutgoingAck,processed] at ok
  · obtain ⟨⟨pulled,remaining⟩,-,done⟩ := bind_eq_ok.mp processed
    cases done
    simp only [LinkSystem.takeOutgoingAck,processed,Except.ok.injEq] at ok ⊢
    simp [ok]

theorem takeOutgoingNack_handed {mtu : Nat} {taken : Option Ack} (ok : (s.takeOutgoingNack mtu).1 = .ok taken) :
    (s.takeOutgoingNack mtu).2.nacksReturned = s.nacksReturned ++ taken.toList ∧
      (s.takeOutgoingNack mtu).2.acksReturned = s.acksReturned ∧ (s.takeOutgoingNack mtu).2.link = s.link := by
  rcases processed : s.link.processOutgoingNack mtu with _ | nack
  · simp [LinkSystem.takeOutgoingNack,processed] at ok
  · simp only [LinkSystem.takeOutgoingNack,processed,Except.ok.injEq] at ok ⊢
    simp [ok]

-- The first two parts of the loop hand out at most the one packet the link gave.
theorem controlStep_handed (answer : SinkAnswer) (selected : Bool) (take : LinkSystem → Except Fault (Option Ack) × LinkSystem)
    (packet : Ack → Outgoing) (next : Phase) :
    (c.controlStep answer selected take packet next).sys = c.sys ∧ (c.controlStep answer selected take packet next).sent = c.sent ∨
      ∃ taken : Option Ack, (take c.sys).1 = .ok taken ∧ (c.controlStep answer selected take packet next).sys = (take c.sys).2 ∧
        ((c.controlStep answer selected take packet next).sent = c.sent ++ (taken.map packet).toList ∨
          answer = .sendError ∧ (c.controlStep answer selected take packet next).sent = c.sent) := by
  unfold Conn.controlStep
  repeat' split
  all_goals first
    | exact .inl ⟨rfl,rfl⟩
    | (rename_i taken; exact .inr ⟨none,by rw [taken],by rw [taken],.inl (List.append_nil _).symm⟩)
    | (rename_i taken refused; exact .inr ⟨some _,by rw [taken],by rw [taken],.inr ⟨refused,rfl⟩⟩)
    | (rename_i taken _; exact .inr ⟨some _,by rw [taken],by rw [taken],.inl rfl⟩)

theorem unconnectedStep_handed (call : Call) (strategy : FlushStrategy) (answer : SinkAnswer) :
    ∃ moved, c.sys.link.unconnected = moved ++ (c.unconnectedStep call strategy answer).sys.link.unconnected ∧
      (c.unconnectedStep call strategy answer).sys.acksReturned = c.sys.acksReturned ∧
      (c.unconnectedStep call strategy answer).sys.nacksReturned = c.sys.nacksReturned ∧
      ((c.unconnectedStep call strategy answer).sent = c.sent ++ moved.map .unconnected ∨
        answer = .sendError ∧ (c.unconnectedStep call strategy answer).sent = c.sent) := by
  cases answer
  case pending | readyError => exact ⟨[],rfl,rfl,rfl,.inl (List.append_nil _).symm⟩
  all_goals
    cases queue : c.sys.link.unconnected with
    | nil =>
      have taken : c.sys.takeUnconnected = (none,c.sys) := by
        simp [LinkSystem.takeUnconnected,TransferLink.processUnconnected,queue]
      exact ⟨[],by simp [Conn.unconnectedStep,taken,queue]⟩
    | cons packet rest =>
      have taken : c.sys.takeUnconnected = (some packet,{c.sys with link := {c.sys.link with unconnected := rest}}) := by
        simp [LinkSystem.takeUnconnected,TransferLink.processUnconnected,queue]
      exact ⟨[packet],by simp [Conn.unconnectedStep,taken]⟩

-- The other tasks' steps give the writer nothing and only add to the unconnected queue.
theorem peer_handed (s : LinkSystem) (p : PeerEvent) :
    (s.step p.toLinkEvent).acksReturned = s.acksReturned ∧ (s.step p.toLinkEvent).nacksReturned = s.nacksReturned ∧
      s.link.unconnected ++ (ConnEvent.peer p).queued?.toList = (s.step p.toLinkEvent).link.unconnected := by
  cases p with
  | deliver pack =>
    simp only [PeerEvent.toLinkEvent,LinkSystem.step,LinkSystem.deliver,ConnEvent.queued?,Option.toList,List.append_nil]
    split
    · exact ⟨rfl,rfl,rfl⟩
    · cases pack <;> exact ⟨rfl,rfl,rfl⟩
  | deliverRest =>
    obtain ⟨nack,link,-,-,acks,nacks⟩ := deliverRest_keeps s
    exact ⟨acks,nacks,(List.append_nil _).trans (congrArg TransferLink.unconnected link).symm⟩
  | closeRoute => exact ⟨rfl,rfl,List.append_nil _⟩
  | sendUnconnected packet => exact ⟨rfl,rfl,rfl⟩

theorem flushCheckStep_sent (call : Call) (strategy : FlushStrategy) : (c.flushCheckStep call strategy).sent = c.sent := by
  unfold Conn.flushCheckStep Conn.returnReady
  repeat' split
  all_goals rfl

theorem closeAssertStep_sent (answer : SinkAnswer) : (c.closeAssertStep answer).sent = c.sent := by
  unfold Conn.closeAssertStep
  repeat' split
  all_goals rfl

theorem frameSetStep_sent (call : Call) (strategy : FlushStrategy) (answer : SinkAnswer) :
    (c.frameSetStep call strategy answer).sent = c.sent ∨
      ∃ seqNum frames, (c.frameSetStep call strategy answer).sent = c.sent ++ [.frameSet seqNum frames] := by
  rcases frameSetStep_cases c call strategy answer with ⟨_,next,-⟩ | ⟨_,next⟩ | ⟨frames,_,_,next⟩ <;> rw [next]
  · exact .inl rfl
  · exact .inl rfl
  · exact .inr ⟨c.guard.seqNumWriteIndex,frames,by simp [emit_eq]⟩

theorem begin_sent (call : Call) (strategy : Option FlushStrategy) (stale : List Uint24le) :
    (c.begin call strategy stale).sent = c.sent := by
  unfold Conn.begin
  obtain ⟨⟨acks,nacks⟩,sys⟩ := c.sys.takeIncoming
  have drained := foldl_invariant (·.sent = c.sent) Conn.absorbAck (fun _ _ same => same) acks {c with sys := sys} rfl
  exact foldl_invariant (·.sent = c.sent) Conn.absorbNack (fun _ _ same => same) nacks _ drained

theorem controlStep_ack_handed (answer : SinkAnswer) (selected : Bool) (next : Phase) :
    ∃ acks, Handed c (c.controlStep answer selected (·.takeOutgoingAck c.guard.mtu) .ack next) acks [] []
      (answer = .sendError) ∧
      (c.controlStep answer selected (·.takeOutgoingAck c.guard.mtu) .ack next).sys.link.unconnected = c.sys.link.unconnected := by
  rcases controlStep_handed answer selected (·.takeOutgoingAck c.guard.mtu) .ack next with ⟨sys,sent⟩ | ⟨taken,ok,sys,sent⟩
  · exact ⟨[],handed_quiet (by rw [sys]) (by rw [sys]) (.inl sent),by rw [sys]⟩
  · obtain ⟨acks,nacks,queue⟩ := takeOutgoingAck_handed ok
    refine ⟨taken.toList,⟨by rw [sys,acks],by rw [sys,nacks,List.append_nil],?_⟩,by rw [sys,queue]⟩
    rcases sent with sent | ⟨refused,sent⟩
    · exact ⟨_,sent,.inl (by cases taken <;> exact ⟨rfl,rfl,rfl⟩)⟩
    · exact ⟨[],by rw [sent,List.append_nil],.inr ⟨refused,rfl,rfl,rfl⟩⟩

theorem controlStep_nack_handed (answer : SinkAnswer) (selected : Bool) (next : Phase) :
    ∃ nacks, Handed c (c.controlStep answer selected (·.takeOutgoingNack c.guard.mtu) .nack next) [] nacks []
      (answer = .sendError) ∧
      (c.controlStep answer selected (·.takeOutgoingNack c.guard.mtu) .nack next).sys.link.unconnected =
        c.sys.link.unconnected := by
  rcases controlStep_handed answer selected (·.takeOutgoingNack c.guard.mtu) .nack next with ⟨sys,sent⟩ |
    ⟨taken,ok,sys,sent⟩
  · exact ⟨[],handed_quiet (by rw [sys]) (by rw [sys]) (.inl sent),by rw [sys]⟩
  · obtain ⟨nacks,acks,same⟩ := takeOutgoingNack_handed ok
    refine ⟨taken.toList,⟨by rw [sys,acks,List.append_nil],by rw [sys,nacks],?_⟩,by rw [sys,same]⟩
    rcases sent with sent | ⟨refused,sent⟩
    · exact ⟨_,sent,.inl (by cases taken <;> exact ⟨rfl,rfl,rfl⟩)⟩
    · exact ⟨[],by rw [sent,List.append_nil],.inr ⟨refused,rfl,rfl,rfl⟩⟩

-- Each step hands the sink what the link gave the writer in that step, or nothing when the sink
-- refused it, and takes its unconnected packets from the front of the queue.
theorem step_handed (e : ConnEvent) :
    ∃ acks nacks moved, Handed c (c.step e) acks nacks moved (e = .writer .sendError) ∧
      c.sys.link.unconnected ++ e.queued?.toList = moved ++ (c.step e).sys.link.unconnected := by
  cases e with
  | peer p =>
    obtain ⟨acks,nacks,queue⟩ := peer_handed c.sys p
    exact ⟨[],[],[],handed_quiet acks nacks (.inl rfl),queue⟩
  | startSend frame =>
    simp only [Conn.step]
    split <;> exact ⟨[],[],[],handed_quiet rfl rfl (.inl rfl),List.append_nil _⟩
  | poll call strategy stale =>
    simp only [Conn.step]
    split
    · have sys := begin_sys c call strategy stale
      exact ⟨[],[],[],handed_quiet (by rw [sys]; rfl) (by rw [sys]; rfl) (.inl (begin_sent call strategy stale)),
        by rw [sys]; simp [ConnEvent.queued?]; rfl⟩
    · exact ⟨[],[],[],handed_quiet rfl rfl (.inl rfl),List.append_nil _⟩
  | writer answer =>
    simp only [Conn.step,ConnEvent.queued?,Option.toList,List.append_nil]
    unfold Conn.advance
    split
    · exact ⟨[],[],[],handed_quiet rfl rfl (.inl rfl),rfl⟩
    · exact ⟨[],[],[],handed_quiet rfl rfl (.inl rfl),rfl⟩
    · exact ⟨[],[],[],handed_quiet rfl rfl (.inl rfl),rfl⟩
    · exact ⟨[],[],[],handed_quiet (by rw [flushCheckStep_sys]) (by rw [flushCheckStep_sys]) (.inl (flushCheckStep_sent _ _)),
        by rw [flushCheckStep_sys]; rfl⟩
    · obtain ⟨nacks,handed,queue⟩ := controlStep_nack_handed (c := c) answer _ _
      exact ⟨[],nacks,[],by simpa using handed,by rw [queue]; rfl⟩
    · obtain ⟨acks,handed,queue⟩ := controlStep_ack_handed (c := c) answer _ _
      exact ⟨acks,[],[],by simpa using handed,by rw [queue]; rfl⟩
    · obtain ⟨moved,queue,acks,nacks,sent⟩ := unconnectedStep_handed (c := c) _ _ answer
      refine ⟨[],[],moved,⟨by rw [acks,List.append_nil],by rw [nacks,List.append_nil],?_⟩,queue⟩
      rcases sent with sent | ⟨refused,sent⟩
      · refine ⟨_,sent,.inl ⟨?_,?_,?_⟩⟩ <;> simp [List.filterMap_map,Function.comp_def,Outgoing.ack?,Outgoing.nack?,
          Outgoing.unconnected?]
      · exact ⟨[],by rw [sent,List.append_nil],.inr ⟨by simpa using refused,rfl,rfl,rfl⟩⟩
    · exact ⟨[],[],[],handed_quiet (by rw [frameSetStep_sys]) (by rw [frameSetStep_sys]) (frameSetStep_sent _ _ _),
        by rw [frameSetStep_sys]; rfl⟩
    · exact ⟨[],[],[],handed_quiet (by rw [closeAssertStep_sys]) (by rw [closeAssertStep_sys]) (.inl (closeAssertStep_sent _)),
        by rw [closeAssertStep_sys]; rfl⟩

end Handed

theorem flatMap_sublist {α β : Type} (f : α → List β) {l₁ l₂ : List α} (sub : l₁.Sublist l₂) :
    (l₁.flatMap f).Sublist (l₂.flatMap f) := by
  induction sub with
  | slnil => exact .slnil
  | cons a _ ih => rw [List.flatMap_cons]; exact ih.trans (List.sublist_append_right _ _)
  | cons₂ a _ ih => rw [List.flatMap_cons,List.flatMap_cons]; exact ih.append_left _

theorem filterMap_cons_toList {α β : Type} (f : α → Option β) (a : α) (l : List α) :
    (a :: l).filterMap f = (f a).toList ++ l.filterMap f := by
  cases found : f a <;> simp [List.filterMap_cons,found]

section Runs

variable {c : Conn} {queued : List UnconnectedPacket}

theorem step_egressWithin (valid : EgressWithin c queued) (e : ConnEvent) :
    EgressWithin (c.step e) (queued ++ e.queued?.toList) := by
  obtain ⟨acks,nacks,moved,⟨ackRet,nackRet,extra,sent,kept⟩,queue⟩ := step_handed (c := c) e
  obtain ⟨validAcks,validNacks,validQueue⟩ := valid
  have whole : (c.sentUnconnected ++ (moved ++ (c.step e).sys.link.unconnected)).Sublist (queued ++ e.queued?.toList) := by
    rw [← queue,← List.append_assoc]; exact validQueue.append_right _
  simp only [EgressWithin,Conn.sentAcks,Conn.sentNacks,Conn.sentUnconnected,sent,List.filterMap_append,ackRet,nackRet]
    at validAcks validNacks whole ⊢
  rcases kept with ⟨sentAcks,sentNacks,sentMoved⟩ | ⟨-,sentAcks,sentNacks,sentMoved⟩
  · rw [sentAcks,sentNacks,sentMoved,List.append_assoc]
    exact ⟨validAcks.append_right _,validNacks.append_right _,whole⟩
  · rw [sentAcks,sentNacks,sentMoved,List.append_nil,List.append_nil,List.append_nil]
    exact ⟨validAcks.trans (List.sublist_append_left _ _),validNacks.trans (List.sublist_append_left _ _),
      ((List.sublist_append_right moved _).append_left _).trans whole⟩

theorem run_egressWithin (events : List ConnEvent) (valid : EgressWithin c queued) :
    EgressWithin (c.run events) (queued ++ events.filterMap ConnEvent.queued?) := by
  induction events generalizing c queued with
  | nil => simpa [Conn.run] using valid
  | cons e rest ih =>
    rw [filterMap_cons_toList,← List.append_assoc]
    exact ih (step_egressWithin valid e)

end Runs

end RaknetRs
