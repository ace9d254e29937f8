import RaknetRs.Peers.Socket

namespace RaknetRs

-- Every NACK the writer took names only numbers below `seq_read`.
def NacksBelow (s : LinkSystem) : Prop := ∀ nack ∈ s.nacksReturned, ∀ m ∈ nack.covered, m < s.router.seqRead.val

section Gaps

variable {s : LinkSystem}

theorem exists_ge_of_lt_readUpTo {ds : List Uint24le} {m : Nat} (lt : m < readUpTo ds) : ∃ d ∈ ds, m ≤ d.val := by
  have general (init : Nat) (ds : List Uint24le) (lt : m < ds.foldl (fun m d => max m (d.val + 1)) init) :
      m < init ∨ ∃ d ∈ ds, m ≤ d.val := by
    induction ds generalizing init with
    | nil => exact .inl lt
    | cons d rest ih =>
      rcases ih (max init (d.val + 1)) lt with early | ⟨d',mem,le⟩
      · by_cases small : m < init
        · exact .inl small
        · exact .inr ⟨d,List.mem_cons_self _ _,by omega⟩
      · exact .inr ⟨d',List.mem_cons_of_mem _ mem,le⟩
  exact (general 0 ds lt).resolve_left (Nat.not_lt_zero _)

theorem takeOutgoingNack_cases (s : LinkSystem) (mtu : Nat) :
    (s.takeOutgoingNack mtu).2 = s ∨ ∃ nack : Option Ack,
      (s.takeOutgoingNack mtu).2 = {s with nacksReturned := s.nacksReturned ++ nack.toList} ∧
      ∀ m ∈ (nack.map Ack.covered).getD [], ∃ x ∈ s.link.outgoingNack, x.val = m := by
  by_cases fits : 7 ≤ mtu
  · obtain ⟨nack,k,packed,-,-,covered⟩ := extendFrom_pulls fits s.link.outgoingNack
    refine .inr ⟨nack,by simp [LinkSystem.takeOutgoingNack,TransferLink.processOutgoingNack,packed,pure,Except.pure],
      fun m mem => ?_⟩
    rw [covered] at mem
    obtain ⟨x,taken,rfl⟩ := List.mem_map.mp mem
    exact ⟨x,List.mem_of_mem_take taken,rfl⟩
  · left
    simp [LinkSystem.takeOutgoingNack,TransferLink.processOutgoingNack,extendFrom,Nat.lt_of_not_le fits]

theorem step_nacksReturned (s : LinkSystem) (e : LinkEvent) :
    (s.step e).nacksReturned = s.nacksReturned ∨ ∃ mtu, e = .processOutgoingNack mtu := by
  cases e with
  | processOutgoingNack mtu => exact .inr ⟨mtu,rfl⟩
  | deliver pack =>
    simp only [LinkSystem.step,LinkSystem.deliver]
    split
    · exact .inl rfl
    · cases pack <;> exact .inl rfl
  | deliverRest =>
    obtain ⟨-,-,-,-,-,kept⟩ := deliverRest_keeps s
    exact .inl kept
  | processOutgoingAck mtu => simp only [LinkSystem.step,LinkSystem.takeOutgoingAck]; split <;> exact .inl rfl
  | processUnconnected =>
    left
    simp only [LinkSystem.step,LinkSystem.takeUnconnected,TransferLink.processUnconnected]
  | closeRoute | processIncoming | sendUnconnected _ => exact .inl rfl

theorem step_nacksBelow (valid : NacksBelow s) (tracked : Tracked s) (e : LinkEvent) : NacksBelow (s.step e) := by
  intro nack mem m covered
  rcases step_nacksReturned s e with same | ⟨mtu,rfl⟩
  · rw [same] at mem
    exact lt_of_lt_of_le (valid nack mem m covered) (step_seqRead_mono tracked _)
  rw [LinkSystem.step] at mem ⊢
  rcases takeOutgoingNack_cases s mtu with same | ⟨taken,next,pulled⟩
  · rw [same] at mem ⊢; exact valid nack mem m covered
  rw [next] at mem ⊢
  rcases List.mem_append.mp mem with old | new
  · exact valid nack old m covered
  cases taken with
  | none => cases new
  | some taken =>
    obtain rfl := List.mem_singleton.mp new
    obtain ⟨x,queued,rfl⟩ := pulled m covered
    exact ((tracked.1.2 x).mp queued).1

theorem conn_nacksBelow {link : TransferLink} (fresh : link.outgoingNack = []) (guard : Guard) (events : List ConnEvent)
    (below : ∀ e ∈ events, e.SeqBelow (2 ^ 24 - 1)) :
    Tracked ((Conn.start link guard).run events).sys ∧ NacksBelow ((Conn.start link guard).run events).sys := by
  obtain ⟨links,ran,origin⟩ := run_moves events (Conn.start link guard)
  rw [ran]
  refine run_induction (fun s => Tracked s ∧ NacksBelow s) (LinkEvent.SeqBelow (2 ^ 24 - 1))
    (fun _ e valid allowed => ⟨step_tracked valid.1 allowed,step_nacksBelow valid.2 valid.1 e⟩) links _
    ⟨start_tracked fresh,fun _ mem => absurd mem (List.not_mem_nil _)⟩ fun l mem => ?_
  rcases origin l mem with call | ⟨p,listed,rfl⟩
  · exact WriterCall.seqBelow call _
  · exact below _ listed

end Gaps

theorem seqBelow_of_fromSocket {e : ConnEvent} (own : e.fromSocket = false) (bound : Nat) : e.SeqBelow bound := by
  cases e with
  | peer p =>
    cases p with
    | deliver pack => cases own
    | deliverRest | closeRoute | sendUnconnected _ => trivial
  | startSend _ | poll _ _ _ | writer _ => trivial

theorem run_seqsCounted (events : List ConnEvent) (c : Conn) (seqs : SeqsCounted c) : SeqsCounted (c.run events) := by
  induction events generalizing c with
  | nil => exact seqs
  | cons e rest ih => exact ih _ (step_seqsCounted seqs e)

-- The frame-sets an end sent are numbered 0, 1, 2, ..., so every number below their count is
-- one of them.
theorem SeqsCounted.sent_of_lt {c : Conn} (seqs : SeqsCounted c) {m : Nat} (lt : m < c.frameSets.length) :
    ∃ frames, (⟨m⟩,frames) ∈ c.frameSets := by
  have listed : m ∈ c.frameSets.map (·.1.val) := by
    rw [seqs.1]
    exact List.mem_range.mpr lt
  obtain ⟨⟨⟨n⟩,frames⟩,mem,rfl⟩ := List.mem_map.mp listed
  exact ⟨frames,mem⟩

section Reachable

variable {clientGuard serverGuard : Guard} (events : List PeersEvent) (side : Side)

theorem run_peers_seqsCounted
    (numbered : ∀ t, ((Peers.start clientGuard serverGuard).get t).guard.seqNumWriteIndex = ⟨0⟩) :
    SeqsCounted (((Peers.start clientGuard serverGuard).run events).get side) := by
  obtain ⟨es,ran,-⟩ := run_traced events side (Peers.start clientGuard serverGuard)
  rw [ran]
  refine run_seqsCounted es _ ⟨by cases side <;> rfl,.inl ?_⟩
  rw [numbered]
  cases side <;> rfl

theorem run_below_seqRead
    (numbered : ∀ t, ((Peers.start clientGuard serverGuard).get t).guard.seqNumWriteIndex = ⟨0⟩)
    (few : (((Peers.start clientGuard serverGuard).run events).get side.other).frameSets.length < 2 ^ 24 - 1) :
    Tracked (((Peers.start clientGuard serverGuard).run events).get side).sys ∧
      NacksBelow (((Peers.start clientGuard serverGuard).run events).get side).sys ∧
      ∀ m < (((Peers.start clientGuard serverGuard).run events).get side).sys.router.seqRead.val,
        ∃ frames, (⟨m⟩,frames) ∈ (((Peers.start clientGuard serverGuard).run events).get side.other).frameSets := by
  have seqs := run_peers_seqsCounted events side.other numbered
  have sentBelow := seqs.below
  obtain ⟨es,ran,origin⟩ := run_traced events side (Peers.start clientGuard serverGuard)
  have below : ∀ e ∈ es, e.SeqBelow (2 ^ 24 - 1) := fun e mem => by
    rcases origin e mem with ⟨-,own⟩ | ⟨out,sent,pack,wire,rfl⟩
    · exact seqBelow_of_fromSocket own _
    cases pack with
    | frameSet fs =>
      obtain ⟨frames,rfl⟩ := wire_frameSet wire
      exact lt_of_lt_of_le (sentBelow _ (List.mem_filterMap.mpr ⟨_,sent,rfl⟩)) (by omega)
    | ack _ | nack _ => trivial
  have tracked : Tracked (((Peers.start clientGuard serverGuard).run events).get side).sys ∧
      NacksBelow (((Peers.start clientGuard serverGuard).run events).get side).sys := by
    rw [ran]
    cases side <;> exact conn_nacksBelow rfl _ es below
  refine ⟨tracked.1,tracked.2,fun m lt => ?_⟩
  rw [tracked.1.1.1] at lt
  obtain ⟨d,delivered,le⟩ := exists_ge_of_lt_readUpTo lt
  have received : d ∈ (((Peers.start clientGuard serverGuard).run events).get side).sys.received := by
    rw [tracked.1.2.2]; exact List.mem_append_left _ delivered
  obtain ⟨⟨_,frames⟩,sent,rfl⟩ := List.mem_map.mp
    ((run_heard_peers events side _ (start_heard clientGuard serverGuard side)).2 d received)
  exact seqs.sent_of_lt (lt_of_le_of_lt le (sentBelow _ sent))

end Reachable

-- NACKs name only frame-sets that were sent: over every interleaving of the two ends' tasks,
-- whatever the socket loses, duplicates or reorders, while the other end has sent fewer than
-- 2^24 - 1 frame-sets, every number an end's router holds for a NACK, and every number in a NACK
-- its writer sent, is the number of a frame-set the other end sent.
theorem peers_nack_only_sent {clientGuard serverGuard : Guard} (clientNumbered : clientGuard.seqNumWriteIndex = ⟨0⟩)
    (serverNumbered : serverGuard.seqNumWriteIndex = ⟨0⟩) (events : List PeersEvent) (side : Side)
    (few : (((Peers.start clientGuard serverGuard).run events).get side.other).frameSets.length < 2 ^ 24 - 1) :
    (∀ x ∈ (((Peers.start clientGuard serverGuard).run events).get side).sys.link.outgoingNack,
        ∃ frames, (x,frames) ∈ (((Peers.start clientGuard serverGuard).run events).get side.other).frameSets) ∧
      ∀ nack ∈ (((Peers.start clientGuard serverGuard).run events).get side).sentNacks, ∀ m ∈ nack.covered,
        ∃ frames, (⟨m⟩,frames) ∈ (((Peers.start clientGuard serverGuard).run events).get side.other).frameSets := by
  have numbered (t : Side) : ((Peers.start clientGuard serverGuard).get t).guard.seqNumWriteIndex = ⟨0⟩ := by
    cases t
    exacts [clientNumbered,serverNumbered]
  obtain ⟨tracked,nacks,sent⟩ := run_below_seqRead events side numbered few
  refine ⟨fun x queued => ?_,fun nack taken m covered => sent m (nacks nack ?_ m covered)⟩
  · exact sent x.val ((tracked.1.2 x).mp queued).1
  · obtain ⟨es,ran,-⟩ := run_traced events side (Peers.start clientGuard serverGuard)
    rw [ran] at taken ⊢
    have start : EgressWithin ((Peers.start clientGuard serverGuard).get side)
        ((Peers.start clientGuard serverGuard).get side).sys.link.unconnected := by
      cases side <;> exact ⟨.slnil,.slnil,.refl _⟩
    exact (run_egressWithin es start).2.1.subset taken

-- The server gets the client's second frame-set only, and NACKs the first.
theorem peers_nack_only_sent_sample :
    let events : List PeersEvent := [.task .client (.startSend ⟨.reliable,10⟩),.task .client (.poll .flush none [])] ++
      List.replicate 6 (.task .client (.writer .ready)) ++
      [.task .client (.startSend ⟨.reliable,20⟩),.task .client (.poll .flush none [])] ++
      List.replicate 6 (.task .client (.writer .ready)) ++
      [.recv .server 1,.task .server (.peer .deliverRest),.task .server (.poll .flush none [])] ++
      List.replicate 6 (.task .server (.writer .ready))
    ((Guard.new 2 1400 4).seqNumWriteIndex = ⟨0⟩ ∧
      (((Peers.start (Guard.new 2 1400 4) (Guard.new 2 1400 4)).run events).get Side.server.other).frameSets.length <
        2 ^ 24 - 1) ∧
      (((Peers.start (Guard.new 2 1400 4) (Guard.new 2 1400 4)).run events).get .server).sentNacks = [⟨[.single ⟨0⟩]⟩] ∧
      ∀ nack ∈ (((Peers.start (Guard.new 2 1400 4) (Guard.new 2 1400 4)).run events).get .server).sentNacks,
        ∀ m ∈ nack.covered, ∃ frames,
          (⟨m⟩,frames) ∈ (((Peers.start (Guard.new 2 1400 4) (Guard.new 2 1400 4)).run events).get Side.server.other).frameSets :=
  ⟨⟨rfl,by decide⟩,by decide,(peers_nack_only_sent rfl rfl _ _ (by decide)).2⟩

end RaknetRs
