import RaknetRs.Guard.Order

namespace RaknetRs

-- The writer's steps against a sink that is always ready and takes every send, with no other
-- task's event in between.
def Conn.drain (c : Conn) (steps : Nat) : Conn := c.run (List.replicate steps (.writer .ready))

-- What the drain loop needs of the guard: `extend_from`'s `mtu >= 7`, `peer.mtu` at least
-- FRAME_SET_HEADER_SIZE, every buffered frame within the frame-set budget, and room below 2^24
-- for the numbers of the frame-sets the buffer can still fill.
structure Drainable (c : Conn) : Prop where
  packer : 7 ≤ c.guard.mtu
  header : c.guard.frameSetHeaderSize ≤ c.guard.mtu
  fit : ∀ f ∈ c.guard.buf, f.size ≤ c.guard.mtu - c.guard.frameSetHeaderSize
  room : c.guard.seqNumWriteIndex.val + c.guard.buf.length < 2 ^ 24

def backlog (c : Conn) : Nat := c.sys.link.outgoingAck.length + c.sys.link.unconnected.length + c.guard.buf.length

def InDrainLoop (call : Call) (strategy : FlushStrategy) (phase : Phase) : Prop :=
  phase = .flushCheck call strategy ∨ phase = .nack call strategy ∨ phase = .ack call strategy ∨
    phase = .unconnected call strategy ∨ phase = .frameSet call strategy

theorem Conn.drain_add (c : Conn) (m n : Nat) : c.drain (m + n) = (c.drain m).drain n := by
  simp only [Conn.drain,Conn.run,List.replicate_add,List.foldl_append]

theorem checkFlushed_default (link : TransferLink) (buf : List Frame) :
    FlushStrategy.default.checkFlushed link buf = true ↔
      link.outgoingAck = [] ∧ link.outgoingNack = [] ∧ link.unconnected = [] ∧ buf = [] := by
  simp [FlushStrategy.checkFlushed,FlushStrategy.default,TransferLink.outgoingAckEmpty,
    TransferLink.outgoingNackEmpty,TransferLink.unconnectedEmpty,and_assoc]

theorem Drainable.keep {c d : Conn} (drain : Drainable c) (mtu : d.guard.mtu = c.guard.mtu)
    (header : d.guard.frameSetHeaderSize = c.guard.frameSetHeaderSize) (buf : ∀ f ∈ d.guard.buf, f ∈ c.guard.buf)
    (room : d.guard.seqNumWriteIndex.val + d.guard.buf.length ≤ c.guard.seqNumWriteIndex.val + c.guard.buf.length) :
    Drainable d :=
  ⟨mtu ▸ drain.packer,mtu ▸ header ▸ drain.header,fun f mem => mtu ▸ header ▸ drain.fit f (buf f mem),
    Nat.lt_of_le_of_lt room drain.room⟩

theorem Drainable.of_guard {c d : Conn} (drain : Drainable c) (same : d.guard = c.guard) : Drainable d :=
  drain.keep (by rw [same]) (by rw [same]) (fun _ mem => same ▸ mem) (by rw [same])

section Round

variable {c : Conn} {call : Call} {strategy : FlushStrategy}

theorem controlStep_ready (take : LinkSystem → Except Fault (Option Ack) × LinkSystem) (packet : Ack → Outgoing)
    (next : Phase) {ack : Option Ack} (taken : (take c.sys).1 = .ok ack) :
    c.controlStep .ready true take packet next =
      {c with sys := (take c.sys).2,sent := c.sent ++ (ack.map packet).toList,phase := next} := by
  unfold Conn.controlStep
  rcases result : take c.sys with ⟨_ | _ | records,sys⟩ <;> rw [result] at taken <;> cases taken <;> simp

theorem processUnconnected_eq (link : TransferLink) :
    link.processUnconnected.2 = {link with unconnected := link.unconnected.tail} ∧
      (link.processUnconnected.1 = none ↔ link.unconnected = []) := by
  obtain ⟨incomingAck,incomingNack,outgoingAck,outgoingNack,_ | ⟨packet,rest⟩⟩ := link <;>
    simp [TransferLink.processUnconnected]

theorem advance_nack (drain : Drainable c) (phase : c.phase = .nack call strategy) (selected : strategy.flushNack = true) :
    ∃ nack : Option Ack, (nack = none ↔ c.sys.link.outgoingNack = []) ∧ (c.step (.writer .ready)).phase = .ack call strategy ∧
      (c.step (.writer .ready)).guard = c.guard ∧ (c.step (.writer .ready)).sys.link = c.sys.link ∧
      (c.step (.writer .ready)).sys.nacksReturned = c.sys.nacksReturned ++ nack.toList := by
  obtain ⟨nack,k,packed,-,none,-⟩ := extendFrom_pulls drain.packer c.sys.link.outgoingNack
  have taken : c.sys.takeOutgoingNack c.guard.mtu =
      (.ok nack,{c.sys with nacksReturned := c.sys.nacksReturned ++ nack.toList}) := by
    simp [LinkSystem.takeOutgoingNack,TransferLink.processOutgoingNack,packed,pure,Except.pure]
  have stepped : c.step (.writer .ready) =
      c.controlStep .ready true (·.takeOutgoingNack c.guard.mtu) .nack (.ack call strategy) := by
    simp only [Conn.step,Conn.advance,phase,selected]
  rw [stepped,@controlStep_ready c (·.takeOutgoingNack c.guard.mtu) _ _ nack (congrArg Prod.fst taken),taken]
  exact ⟨nack,none,rfl,rfl,rfl,rfl⟩

theorem advance_ack (drain : Drainable c) (phase : c.phase = .ack call strategy) (selected : strategy.flushAck = true) :
    ∃ k, (0 < k ↔ c.sys.link.outgoingAck ≠ []) ∧
      (c.step (.writer .ready)).phase = (if strategy.flushPack then .unconnected call strategy else .flushCheck call strategy) ∧
      (c.step (.writer .ready)).guard = c.guard ∧
      (c.step (.writer .ready)).sys.link = {c.sys.link with outgoingAck := c.sys.link.outgoingAck.drop k} ∧
      (c.step (.writer .ready)).sys.nacksReturned = c.sys.nacksReturned := by
  obtain ⟨ack,k,packed,pulled,-,-⟩ := extendFrom_pulls drain.packer c.sys.link.outgoingAck
  have taken : c.sys.takeOutgoingAck c.guard.mtu = (.ok ack,{c.sys with
      link := {c.sys.link with outgoingAck := c.sys.link.outgoingAck.drop k},acksReturned := c.sys.acksReturned ++ ack.toList}) := by
    simp [LinkSystem.takeOutgoingAck,TransferLink.processOutgoingAck,packed,pure,Except.pure]
  have stepped : c.step (.writer .ready) = c.controlStep .ready true (·.takeOutgoingAck c.guard.mtu) .ack
      (if strategy.flushPack then .unconnected call strategy else .flushCheck call strategy) := by
    simp only [Conn.step,Conn.advance,phase,selected]
  rw [stepped,@controlStep_ready c (·.takeOutgoingAck c.guard.mtu) _ _ ack (congrArg Prod.fst taken),taken]
  exact ⟨k,pulled,rfl,rfl,rfl,rfl⟩

theorem advance_unconnected (phase : c.phase = .unconnected call strategy) :
    (c.step (.writer .ready)).phase = .frameSet call strategy ∧ (c.step (.writer .ready)).guard = c.guard ∧
      (c.step (.writer .ready)).sys.link = {c.sys.link with unconnected := c.sys.link.unconnected.tail} ∧
      (c.step (.writer .ready)).sys.nacksReturned = c.sys.nacksReturned := by
  have taken := (processUnconnected_eq c.sys.link).1
  simp only [Conn.step,Conn.advance,phase,Conn.unconnectedStep,LinkSystem.takeUnconnected] at taken ⊢
  rcases result : c.sys.link.processUnconnected with ⟨_ | packet,link⟩ <;> rw [result] at taken <;> simpa using taken

theorem advance_frameSet (drain : Drainable c) (phase : c.phase = .frameSet call strategy) :
    ∃ frames rest, c.guard.buf = frames ++ rest ∧ (c.guard.buf ≠ [] → frames ≠ []) ∧
      (c.step (.writer .ready)).phase = .flushCheck call strategy ∧ (c.step (.writer .ready)).guard.buf = rest ∧
      (c.step (.writer .ready)).guard.mtu = c.guard.mtu ∧
      (c.step (.writer .ready)).guard.frameSetHeaderSize = c.guard.frameSetHeaderSize ∧
      (c.step (.writer .ready)).guard.seqNumWriteIndex.val ≤ c.guard.seqNumWriteIndex.val + frames.length ∧
      (c.step (.writer .ready)).sys = c.sys := by
  obtain ⟨frames,rest,split,nonEmpty,-,-,packed⟩ := frameSetStep_ready c call strategy drain.header drain.fit
  have stepped : c.step (.writer .ready) = c.frameSetStep call strategy .ready := by simp only [Conn.step,Conn.advance,phase]
  refine ⟨frames,rest,split,nonEmpty,?_⟩
  rw [stepped,packed]
  by_cases empty : frames = []
  · simp [empty,Conn.setPhase,split] at split ⊢
  · have room := drain.room
    have sent := List.length_pos.mpr empty
    rw [split,List.length_append] at room
    have fits : c.guard.seqNumWriteIndex.val + 1 < 2 ^ 24 := by omega
    simp only [empty,if_false,emit_eq,fits,if_true,true_and,and_true]
    omega

theorem drain_round (drain : Drainable c) (phase : c.phase = .flushCheck call .default)
    (pending : FlushStrategy.default.checkFlushed c.sys.link c.guard.buf = false) :
    (∀ i < 5, InDrainLoop call .default (c.drain i).phase) ∧ (c.drain 5).phase = .flushCheck call .default ∧
      Drainable (c.drain 5) ∧
      (c.drain 5).sys.link.outgoingNack = c.sys.link.outgoingNack ∧ backlog (c.drain 5) ≤ backlog c ∧
      (0 < backlog c → backlog (c.drain 5) < backlog c) ∧
      (c.drain 5).sys.nacksReturned.length = c.sys.nacksReturned.length + if c.sys.link.outgoingNack = [] then 0 else 1 := by
  have tested : (c.step (.writer .ready)).phase = .nack call .default ∧ (c.step (.writer .ready)).guard = c.guard ∧
      (c.step (.writer .ready)).sys = c.sys := by
    simp [Conn.step,Conn.advance,phase,Conn.flushCheckStep,pending,Conn.setPhase]
  obtain ⟨ph₁,g₁,s₁⟩ := tested
  obtain ⟨nack,nackNone,ph₂,g₂,l₂,n₂⟩ := advance_nack (drain.of_guard g₁) ph₁ rfl
  obtain ⟨k,pulled,ph₃,g₃,l₃,n₃⟩ := advance_ack (drain.of_guard (g₂.trans g₁)) ph₂ rfl
  obtain ⟨ph₄,g₄,l₄,n₄⟩ := advance_unconnected (by rw [ph₃]; rfl)
  have same : ((((c.step (.writer .ready)).step (.writer .ready)).step (.writer .ready)).step (.writer .ready)).guard =
      c.guard := by
    rw [g₄,g₃,g₂,g₁]
  obtain ⟨frames,rest,split,nonEmpty,ph₅,b₅,m₅,h₅,i₅,s₅⟩ :=
    advance_frameSet (drain.of_guard same) ph₄
  have round : c.drain 5 = ((((c.step (.writer .ready)).step (.writer .ready)).step (.writer .ready)).step
      (.writer .ready)).step (.writer .ready) := rfl
  rw [same] at split nonEmpty m₅ h₅ i₅
  rw [l₂,s₁] at pulled
  rw [s₁] at nackNone
  have link : (c.drain 5).sys.link =
      {c.sys.link with outgoingAck := c.sys.link.outgoingAck.drop k,unconnected := c.sys.link.unconnected.tail} := by
    rw [round,s₅,l₄,l₃,l₂,s₁]
  rw [← round] at ph₅ b₅ m₅ h₅ i₅
  refine ⟨fun i less => ?_,ph₅,drain.keep m₅ h₅ (fun f mem => by rw [b₅] at mem; rw [split]; exact List.mem_append_right _ mem)
    (by rw [b₅,split,List.length_append]; omega),by rw [link],?_,fun positive => ?_,?_⟩
  · rcases (by omega : i = 0 ∨ i = 1 ∨ i = 2 ∨ i = 3 ∨ i = 4) with rfl | rfl | rfl | rfl | rfl
    · exact .inl phase
    · exact .inr (.inl ph₁)
    · exact .inr (.inr (.inl ph₂))
    · exact .inr (.inr (.inr (.inl ph₃)))
    · exact .inr (.inr (.inr (.inr ph₄)))
  · simp only [backlog,link,b₅,split,List.length_drop,List.length_tail,List.length_append]; omega
  · -- Each part that has something sends some of it.
    have acks : c.sys.link.outgoingAck.length = 0 ∨ 0 < k := (em _).imp List.length_eq_zero.mpr pulled.mpr
    have packed : c.guard.buf.length = 0 ∨ 0 < frames.length :=
      (em _).imp List.length_eq_zero.mpr fun full => List.length_pos.mpr (nonEmpty full)
    simp only [backlog,link,b₅,List.length_drop,List.length_tail] at positive ⊢
    rw [split,List.length_append] at positive packed ⊢
    omega
  · rw [round,s₅,n₄,n₃,n₂,s₁,List.length_append]
    cases nack with
    | none => simp [nackNone.mp rfl]
    | some nack =>
      have queued : c.sys.link.outgoingNack ≠ [] := fun empty => nomatch nackNone.mpr empty
      simp [queued]

theorem drain_spins (drain : Drainable c) (phase : c.phase = .flushCheck call .default)
    (queued : c.sys.link.outgoingNack ≠ []) (n : Nat) :
    (c.drain (5 * n)).phase = .flushCheck call .default ∧ Drainable (c.drain (5 * n)) ∧
      (c.drain (5 * n)).sys.link.outgoingNack = c.sys.link.outgoingNack ∧
      FlushStrategy.default.checkFlushed (c.drain (5 * n)).sys.link (c.drain (5 * n)).guard.buf = false ∧
      (c.drain (5 * n)).sys.nacksReturned.length = c.sys.nacksReturned.length + n := by
  have pending {d : Conn} (same : d.sys.link.outgoingNack = c.sys.link.outgoingNack) :
      FlushStrategy.default.checkFlushed d.sys.link d.guard.buf = false :=
    Bool.eq_false_iff.mpr fun flushed => queued (same.symm.trans ((checkFlushed_default _ _).mp flushed).2.1)
  induction n with
  | zero => exact ⟨phase,drain,rfl,pending rfl,rfl⟩
  | succ n ih =>
    obtain ⟨ph,dr,nk,test,len⟩ := ih
    obtain ⟨-,ph',dr',nk',-,-,len'⟩ := drain_round dr ph test
    rw [Nat.mul_succ,Conn.drain_add]
    refine ⟨ph',dr',nk'.trans nk,pending (nk'.trans nk),?_⟩
    rw [len',len,nk,if_neg queued]
    omega

theorem drain_terminates (drain : Drainable c) (phase : c.phase = .flushCheck call .default)
    (noNack : c.sys.link.outgoingNack = []) :
    ∃ n ≤ 5 * backlog c, (c.drain n).phase = .flushCheck call .default ∧
      FlushStrategy.default.checkFlushed (c.drain n).sys.link (c.drain n).guard.buf = true := by
  obtain ⟨m,measure⟩ : ∃ m, backlog c = m := ⟨_,rfl⟩
  induction m using Nat.strong_induction_on generalizing c with
  | _ m ih =>
    by_cases flushed : FlushStrategy.default.checkFlushed c.sys.link c.guard.buf = true
    · exact ⟨0,Nat.zero_le _,phase,flushed⟩
    have positive : 0 < backlog c := by
      by_contra empty
      simp only [backlog,Nat.not_lt,Nat.le_zero,Nat.add_eq_zero,List.length_eq_zero] at empty
      exact flushed ((checkFlushed_default _ _).mpr ⟨empty.1.1,noNack,empty.1.2,empty.2⟩)
    obtain ⟨-,ph,dr,nk,-,less,-⟩ := drain_round drain phase (Bool.eq_false_iff.mpr flushed)
    have shorter := less positive
    obtain ⟨n,bound,ph',done⟩ := ih _ (measure ▸ shorter) dr ph (nk.trans noNack) rfl
    exact ⟨5 + n,by omega,by rw [Conn.drain_add]; exact ph',by rw [Conn.drain_add]; exact done⟩

end Round

-- The drain loop with the default strategy on a sink that is always ready. While `outgoing_nack`
-- holds a number, `process_outgoing_nack` only iterates it and nothing else takes it out, so the
-- loop test fails forever: for every number of steps the writer is still inside the loop, and each
-- round sends one more NACK. Only with the NACK set empty does the backlog bound the loop.
theorem drain_loop_spins_on_pending_nack (c : Conn) (call : Call) (drain : Drainable c)
    (phase : c.phase = .flushCheck call .default) :
    (c.sys.link.outgoingNack ≠ [] → ∀ n, InDrainLoop call .default (c.drain n).phase ∧
      (c.drain (5 * n)).sys.nacksReturned.length = c.sys.nacksReturned.length + n) ∧
    (c.sys.link.outgoingNack = [] → ∃ n ≤ 5 * backlog c, (c.drain n).phase = .flushCheck call .default ∧
      FlushStrategy.default.checkFlushed (c.drain n).sys.link (c.drain n).guard.buf = true) := by
  refine ⟨fun queued n => ⟨?_,(drain_spins drain phase queued n).2.2.2.2⟩,drain_terminates drain phase⟩
  obtain ⟨ph,dr,-,test,-⟩ := drain_spins drain phase queued (n / 5)
  have within := (drain_round dr ph test).1 (n % 5) (Nat.mod_lt _ (by decide))
  rwa [← Conn.drain_add,Nat.div_add_mod] at within

-- Frame-set 1 arrives first, so the router queues the gap 0 as a NACK; then `poll_flush` runs
-- `try_empty` with the default strategy.
theorem drain_loop_spins_on_pending_nack_sample :
    let c := (Conn.start TransferLink.new (Guard.new 1 1400 4)).run
      [.peer (.deliver (.frameSet {sampleFrameSet with seqNum := ⟨1⟩})),.peer .deliverRest,.poll .flush none []]
    (Drainable c ∧ c.phase = .flushCheck .flush .default ∧ c.sys.link.outgoingNack = [⟨0⟩]) ∧
      (c.sys.link.outgoingNack ≠ [] → ∀ n, InDrainLoop .flush .default (c.drain n).phase ∧
        (c.drain (5 * n)).sys.nacksReturned.length = c.sys.nacksReturned.length + n) :=
  ⟨⟨⟨by decide,by decide,by decide,by decide⟩,by decide,by decide⟩,
    (drain_loop_spins_on_pending_nack _ .flush ⟨by decide,by decide,by decide,by decide⟩ (by decide)).1⟩

end RaknetRs
