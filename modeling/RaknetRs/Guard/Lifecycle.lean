import RaknetRs.Guard.Close

namespace RaknetRs

-- `poll_ready`'s assertion has not failed, and a `try_empty` the writer is inside, when
-- `poll_ready` started it, runs with a strategy that flushes packets.
def Phase.ReadyPacks : Phase → Prop
  | .flushCheck call strategy | .nack call strategy | .ack call strategy | .unconnected call strategy
  | .frameSet call strategy => call = .ready → strategy.flushPack = true
  | .panicked fault => fault ≠ .pollReady
  | _ => True

-- A `poll_ready` call runs `try_empty` with a strategy that flushes packets, as the default does.
def ConnEvent.ReadyPacks : ConnEvent → Prop
  | .poll call strategy _ => call = .ready → (strategy.getD .default).flushPack = true
  | _ => True

instance : DecidablePred ConnEvent.ReadyPacks
  | .poll call strategy _ => inferInstanceAs (Decidable (call = .ready → (strategy.getD .default).flushPack = true))
  | .peer _ | .startSend _ | .writer _ => isTrue trivial

section Phases

variable (c : Conn)

theorem flushCheckStep_phase (call : Call) (strategy : FlushStrategy) :
    (c.flushCheckStep call strategy).phase = .nack call strategy ∨ (c.flushCheckStep call strategy).phase = .idle ∨
      (c.flushCheckStep call strategy).phase = .closeAssert ∨
      call = .ready ∧ (c.flushCheckStep call strategy).phase = .panicked .pollReady := by
  unfold Conn.flushCheckStep
  split
  · cases call <;> simp only [Conn.returnReady] <;> (try split) <;> simp [Conn.setPhase]
  · simp [Conn.setPhase]

theorem controlStep_phase (answer : SinkAnswer) (selected : Bool) (take : LinkSystem → Except Fault (Option Ack) × LinkSystem)
    (packet : Ack → Outgoing) (next : Phase) :
    (c.controlStep answer selected take packet next).phase = next ∨
      (c.controlStep answer selected take packet next).phase = .idle ∨
      (c.controlStep answer selected take packet next).phase = .panicked .packerMtu := by
  unfold Conn.controlStep
  repeat' split
  all_goals simp [Conn.setPhase]

theorem unconnectedStep_phase (call : Call) (strategy : FlushStrategy) (answer : SinkAnswer) :
    (c.unconnectedStep call strategy answer).phase = .frameSet call strategy ∨
      (c.unconnectedStep call strategy answer).phase = .idle := by
  unfold Conn.unconnectedStep
  repeat' split
  all_goals simp [Conn.setPhase]

theorem frameSetStep_phase (call : Call) (strategy : FlushStrategy) (answer : SinkAnswer) :
    (c.frameSetStep call strategy answer).phase = .flushCheck call strategy ∨
      (c.frameSetStep call strategy answer).phase = .idle ∨
      ∃ fault, (c.frameSetStep call strategy answer).phase = .panicked fault ∧ fault ≠ .pollReady := by
  rcases frameSetStep_cases c call strategy answer with ⟨phase,next,named⟩ | ⟨_,next⟩ | ⟨_,_,_,next⟩ <;> rw [next]
  · rcases named with rfl | rfl | rfl | rfl
    · exact .inl rfl
    · exact .inr (.inl rfl)
    · exact .inr (.inr ⟨_,rfl,nofun⟩)
    · exact .inr (.inr ⟨_,rfl,nofun⟩)
  · exact .inr (.inl rfl)
  · simp only [emit_eq]
    split
    · exact .inl rfl
    · exact .inr (.inr ⟨_,rfl,nofun⟩)

theorem closeAssertStep_phase (answer : SinkAnswer) :
    (c.closeAssertStep answer).phase = .closed ∨ (c.closeAssertStep answer).phase = .idle ∨
      (c.closeAssertStep answer).phase = .panicked .pollClose := by
  unfold Conn.closeAssertStep
  repeat' split
  all_goals simp [Conn.setPhase]

theorem step_cap (e : ConnEvent) : (c.step e).guard.cap = c.guard.cap := by
  rcases step_shape c e with frozen | ⟨frame,next⟩ | ⟨call,strategy,stale,next⟩ | ⟨frames,rest,phase,-,-,next⟩ |
    ⟨-,frames,rest,-,next⟩
  · rw [frozen.guard]
  · rw [next]; rfl
  · rw [next]; exact (begin_guard call strategy stale).2.1
  · rw [next]; simp [emit_eq]
  · rw [next]

end Phases

section Ready

variable {c : Conn}

-- Each part of the loop keeps the call and the strategy it began with; only the loop test, on
-- `poll_ready`'s behalf, can reach the assertion.
theorem advance_readyPacks (valid : c.phase.ReadyPacks) (positive : 0 < c.guard.cap) (answer : SinkAnswer) :
    (c.advance answer).phase.ReadyPacks := by
  unfold Conn.advance
  split
  case h_1 | h_2 | h_3 => exact valid
  case h_4 call strategy phase =>
    rw [phase] at valid
    rcases flushCheckStep_phase c call strategy with next | next | next | ⟨rfl,next⟩ <;> rw [next]
    · exact valid
    · trivial
    · trivial
    · exact (flushCheck_ready_keeps_assertion c (valid rfl) positive next).elim
  case h_5 call strategy phase =>
    rw [phase] at valid
    rcases controlStep_phase c answer strategy.flushNack (·.takeOutgoingNack c.guard.mtu) .nack (.ack call strategy)
      with next | next | next <;> rw [next]
    · exact valid
    · trivial
    · nofun
  case h_6 call strategy phase =>
    rw [phase] at valid
    rcases controlStep_phase c answer strategy.flushAck (·.takeOutgoingAck c.guard.mtu) .ack
      (if strategy.flushPack then .unconnected call strategy else .flushCheck call strategy) with next | next | next <;>
      rw [next]
    · split <;> exact valid
    · trivial
    · nofun
  case h_7 call strategy phase =>
    rw [phase] at valid
    rcases unconnectedStep_phase c call strategy answer with next | next <;> rw [next]
    · exact valid
    · trivial
  case h_8 call strategy phase =>
    rw [phase] at valid
    rcases frameSetStep_phase c call strategy answer with next | next | ⟨fault,next,other⟩ <;> rw [next]
    · exact valid
    · trivial
    · exact other
  case h_9 =>
    rcases closeAssertStep_phase c answer with next | next | next <;> rw [next]
    · trivial
    · trivial
    · nofun

theorem step_readyPacks (valid : c.phase.ReadyPacks) (positive : 0 < c.guard.cap) (e : ConnEvent) (packs : e.ReadyPacks) :
    (c.step e).phase.ReadyPacks ∧ 0 < (c.step e).guard.cap := by
  refine ⟨?_,(step_cap c e).symm ▸ positive⟩
  cases e with
  | peer p => exact valid
  | startSend frame =>
    simp only [Conn.step]
    split
    · trivial
    · exact valid
  | poll call strategy stale =>
    simp only [Conn.step]
    split
    · exact packs
    · exact valid
  | writer answer => exact advance_readyPacks valid positive answer

theorem run_readyPacks : ∀ (events : List ConnEvent) (c : Conn), c.phase.ReadyPacks → 0 < c.guard.cap →
    (∀ e ∈ events, e.ReadyPacks) → (c.run events).phase.ReadyPacks
  | [],_,valid,_,_ => valid
  | e :: events,c,valid,positive,packs =>
    have next := step_readyPacks valid positive e (packs e (List.mem_cons_self _ _))
    run_readyPacks events (c.step e) next.1 next.2 fun e mem => packs e (List.mem_cons_of_mem _ mem)

end Ready

-- `poll_ready`'s debug assertion, that `try_empty` did not return `Ready` with the buffer at its
-- capacity, fails only in a `poll_ready` whose flush strategy leaves packets out: over every run
-- of a guard built by `handle_outgoing`, with any interleaving of the peer's events and any sink
-- answers, the writer never stops on it while each `poll_ready` flushes packets, as the default
-- strategy does.
theorem poll_ready_assertion_needs_packless_strategy {cap mtu frameSetHeaderSize : Nat} {guard : Guard}
    (built : handleOutgoing cap mtu frameSetHeaderSize = .ok guard) (link : TransferLink) (events : List ConnEvent)
    (packs : ∀ e ∈ events, e.ReadyPacks) :
    ((Conn.start link guard).run events).phase ≠ .panicked .pollReady := by
  unfold handleOutgoing at built
  split at built
  · cases built
    intro stopped
    have valid := run_readyPacks events (Conn.start link (Guard.new cap mtu frameSetHeaderSize)) trivial ‹0 < cap› packs
    rw [stopped] at valid
    exact valid rfl
  · cases built

theorem poll_ready_assertion_needs_packless_strategy_sample :
    let events : List ConnEvent := [.startSend ⟨.reliable,10⟩,.startSend ⟨.unreliable,20⟩,.poll .ready none [],
      .writer .ready,.writer .ready,.peer (.deliver (.frameSet sampleFrameSet)),.writer .ready,.writer .ready,
      .writer .ready,.writer .ready]
    handleOutgoing 1 1400 4 = .ok (Guard.new 1 1400 4) ∧ (∀ e ∈ events, e.ReadyPacks) ∧
      ((Conn.start TransferLink.new (Guard.new 1 1400 4)).run events).phase ≠ .panicked .pollReady :=
  ⟨rfl,by decide,@poll_ready_assertion_needs_packless_strategy 1 1400 4 _ rfl _ _ (by decide)⟩

end RaknetRs
