import RaknetRs.Guard.Resend

namespace RaknetRs

-- `OutgoingGuard`. `buf` lists the `VecDeque` from its back, where frames leave, to its front,
-- where `start_send` pushes. `mtu` is `peer.mtu`; FRAME_SET_HEADER_SIZE is not under src/ and
-- is the parameter `frameSetHeaderSize`. The sink, the peer's address and the role are not read
-- by anything modelled.
structure Guard where
  seqNumWriteIndex : Uint24le
  buf : List Frame
  resend : ResendMap
  cap : Nat
  mtu : Nat
  frameSetHeaderSize : Nat
deriving DecidableEq, Repr

def Guard.new (cap mtu frameSetHeaderSize : Nat) : Guard := ⟨⟨0⟩,[],ResendMap.new,cap,mtu,frameSetHeaderSize⟩

def handleOutgoing (cap mtu frameSetHeaderSize : Nat) : Except Fault Guard :=
  if cap > 0 then .ok (Guard.new cap mtu frameSetHeaderSize) else .error .panic

inductive Call where
  | ready
  | flush
  | close
deriving DecidableEq, Repr

inductive GuardFault where
  | pollReady
  | pollClose
  | frameExceedsMtu
  | mtuBelowHeader
  | packerMtu
  | writeIndexOverflow
deriving DecidableEq, Repr

-- Where the writer task is: between calls; before one of the four parts of `try_empty`'s loop
-- (each begins with the sink's `poll_ready`) or its loop test; at `poll_close`'s assertion;
-- closed; or stopped by a failed assertion.
inductive Phase where
  | idle
  | flushCheck (call : Call) (strategy : FlushStrategy)
  | nack (call : Call) (strategy : FlushStrategy)
  | ack (call : Call) (strategy : FlushStrategy)
  | unconnected (call : Call) (strategy : FlushStrategy)
  | frameSet (call : Call) (strategy : FlushStrategy)
  | closeAssert
  | closed
  | panicked (fault : GuardFault)
deriving DecidableEq, Repr

-- Between two calls: `closed` only records that the last one was a completed `poll_close`.
def Phase.between : Phase → Bool
  | .idle | .closed => true
  | _ => false

inductive SinkAnswer where
  | ready
  | pending
  | readyError
  | sendError
deriving DecidableEq, Repr

inductive Outgoing where
  | nack (nack : Ack)
  | ack (ack : Ack)
  | unconnected (packet : UnconnectedPacket)
  | frameSet (seqNum : Uint24le) (frames : List Frame)
deriving DecidableEq, Repr

def Outgoing.frameSet? : Outgoing → Option (Uint24le × List Frame)
  | .frameSet seqNum frames => some (seqNum,frames)
  | _ => none

-- The writer task, its link and the other tasks' side of the link. `submitted` (every frame
-- given to `start_send`), `acksIn` (every ACK the guard drained), `ackedSets` and `requeued`
-- (the resend entries an ACK removed, and those a NACK or a stale scan moved back) and `sent`
-- (what went to the sink) are ghost history.
structure Conn where
  sys : LinkSystem
  guard : Guard
  phase : Phase
  submitted : List Frame
  acksIn : List Ack
  ackedSets : List (Uint24le × List Frame)
  requeued : List (Uint24le × List Frame)
  sent : List Outgoing
deriving DecidableEq, Repr

inductive PeerEvent where
  | deliver (pack : Packet)
  | deliverRest
  | closeRoute
  | sendUnconnected (packet : UnconnectedPacket)
deriving DecidableEq, Repr

def PeerEvent.toLinkEvent : PeerEvent → LinkEvent
  | .deliver pack => .deliver pack
  | .deliverRest => .deliverRest
  | .closeRoute => .closeRoute
  | .sendUnconnected packet => .sendUnconnected packet

-- `poll` is a call of a `Sink` method with the strategy the task context carries and the resend
-- entries whose timeout has passed; `writer` is the writer's next step, with the sink's answer.
inductive ConnEvent where
  | peer (e : PeerEvent)
  | startSend (frame : Frame)
  | poll (call : Call) (strategy : Option FlushStrategy) (stale : List Uint24le)
  | writer (answer : SinkAnswer)
deriving DecidableEq, Repr

namespace Conn

def start (link : TransferLink) (guard : Guard) : Conn := ⟨LinkSystem.start link,guard,.idle,[],[],[],[],[]⟩

def setPhase (c : Conn) (phase : Phase) : Conn := {c with phase := phase}

def startSend (c : Conn) (frame : Frame) : Conn :=
  {c with guard := {c.guard with buf := c.guard.buf ++ [frame]},submitted := c.submitted ++ [frame]}

def absorbAck (c : Conn) (ack : Ack) : Conn :=
  {c with guard := {c.guard with resend := c.guard.resend.onAck ack},acksIn := c.acksIn ++ [ack],
          ackedSets := c.ackedSets ++ (c.guard.resend.extract (·.val ∈ ack.covered)).1}

def absorbRequeue (c : Conn) (chosen : Uint24le → Bool) : Conn :=
  let (resend,buf) := c.guard.resend.requeue chosen c.guard.buf
  {c with guard := {c.guard with resend := resend,buf := buf},
          requeued := c.requeued ++ (c.guard.resend.extract chosen).1}

def absorbNack (c : Conn) (nack : Ack) : Conn := c.absorbRequeue (·.val ∈ nack.covered)

def absorbStales (c : Conn) (stale : List Uint24le) : Conn := c.absorbRequeue (· ∈ stale)

-- The start of `try_empty`: the drained ACKs into the resend map, then the NACKs, then the
-- stale entries; then the strategy, `unwrap_or_default`. Draining the two lock-free queues is
-- one step: a push that lands during a drain commutes to just before or just after it.
def begin (c : Conn) (call : Call) (strategy : Option FlushStrategy) (stale : List Uint24le) : Conn :=
  let ((acks,nacks),sys) := c.sys.takeIncoming
  let c := nacks.foldl absorbNack (acks.foldl absorbAck {c with sys := sys})
  (c.absorbStales stale).setPhase (.flushCheck call (strategy.getD .default))

def returnReady (c : Conn) : Call → Conn
  | .ready => if c.guard.buf.length ≥ c.guard.cap then c.setPhase (.panicked .pollReady) else c.setPhase .idle
  | .flush => c.setPhase .idle
  | .close => c.setPhase .closeAssert

def flushCheckStep (c : Conn) (call : Call) (strategy : FlushStrategy) : Conn :=
  if strategy.checkFlushed c.sys.link c.guard.buf then c.returnReady call else c.setPhase (.nack call strategy)

def controlStep (c : Conn) (answer : SinkAnswer) (selected : Bool)
    (take : LinkSystem → Except Fault (Option Ack) × LinkSystem) (packet : Ack → Outgoing) (next : Phase) : Conn :=
  match answer with
  | .pending | .readyError => c.setPhase .idle
  | .ready | .sendError =>
    if selected then
      match take c.sys with
      | (.error _,_) => c.setPhase (.panicked .packerMtu)
      | (.ok none,sys) => {c with sys := sys,phase := next}
      | (.ok (some records),sys) =>
        if answer = .sendError then {c with sys := sys,phase := .idle}
        else {c with sys := sys,sent := c.sent ++ [packet records],phase := next}
    else c.setPhase next

def unconnectedStep (c : Conn) (call : Call) (strategy : FlushStrategy) (answer : SinkAnswer) : Conn :=
  match answer with
  | .pending | .readyError => c.setPhase .idle
  | .ready | .sendError =>
    match c.sys.takeUnconnected with
    | (none,sys) => {c with sys := sys,phase := .frameSet call strategy}
    | (some packet,sys) =>
      if answer = .sendError then {c with sys := sys,phase := .idle}
      else {c with sys := sys,sent := c.sent ++ [.unconnected packet],phase := .frameSet call strategy}

-- A packed frame-set goes out under the write index and is recorded when it holds a reliable
-- frame; then `seq_num_write_index += 1`, which panics past 2^24 - 1.
def emit (c : Conn) (frames : List Frame) (reliable : Bool) (rest : List Frame) (next : Phase) : Conn :=
  let seqNum := c.guard.seqNumWriteIndex
  let resend := if reliable then c.guard.resend.record seqNum frames else c.guard.resend
  let sent := c.sent ++ [.frameSet seqNum frames]
  match seqNum.succ with
  | .ok index => {c with guard := {c.guard with buf := rest,seqNumWriteIndex := index,resend := resend},sent := sent,
                         phase := next}
  | .error _ => {c with guard := {c.guard with buf := rest,resend := resend},sent := sent,
                         phase := .panicked .writeIndexOverflow}

-- The 4th part: `poll_ready`, then one frame-set packed from the back of the buffer. When the
-- sink refuses it, the frames already popped are lost with the error.
def frameSetStep (c : Conn) (call : Call) (strategy : FlushStrategy) (answer : SinkAnswer) : Conn :=
  match answer with
  | .pending | .readyError => c.setPhase .idle
  | .ready | .sendError =>
    if c.guard.mtu < c.guard.frameSetHeaderSize then c.setPhase (.panicked .mtuBelowHeader)
    else
      let (frames,reliable,rest) := packLoop [] false (c.guard.mtu - c.guard.frameSetHeaderSize) c.guard.buf
      if !(rest.isEmpty || !frames.isEmpty) then c.setPhase (.panicked .frameExceedsMtu)
      else if frames.isEmpty then c.setPhase (.flushCheck call strategy)
      else if answer = .sendError then {c with guard := {c.guard with buf := rest},phase := .idle}
      else c.emit frames reliable rest (.flushCheck call strategy)

def closeAssertStep (c : Conn) (answer : SinkAnswer) : Conn :=
  if c.guard.buf.isEmpty && c.sys.link.unconnectedEmpty && c.sys.link.outgoingAckEmpty &&
      c.sys.link.outgoingNackEmpty then
    match answer with
    | .ready => if c.guard.resend.isEmpty then c.setPhase .closed else c.setPhase .idle
    | _ => c.setPhase .idle
  else c.setPhase (.panicked .pollClose)

def advance (c : Conn) (answer : SinkAnswer) : Conn :=
  match c.phase with
  | .idle | .closed | .panicked _ => c
  | .flushCheck call strategy => c.flushCheckStep call strategy
  | .nack call strategy =>
    c.controlStep answer strategy.flushNack (·.takeOutgoingNack c.guard.mtu) .nack (.ack call strategy)
  | .ack call strategy =>
    c.controlStep answer strategy.flushAck (·.takeOutgoingAck c.guard.mtu) .ack
      (if strategy.flushPack then .unconnected call strategy else .flushCheck call strategy)
  | .unconnected call strategy => c.unconnectedStep call strategy answer
  | .frameSet call strategy => c.frameSetStep call strategy answer
  | .closeAssert => c.closeAssertStep answer

-- `start_send` and the `poll_*` methods run on the writer task between its calls, never inside
-- one another, and a completed `poll_close` leaves the guard open to both.
def step (c : Conn) : ConnEvent → Conn
  | .peer e => {c with sys := c.sys.step e.toLinkEvent}
  | .startSend frame => if c.phase.between then (c.startSend frame).setPhase .idle else c
  | .poll call strategy stale => if c.phase.between then c.begin call strategy stale else c
  | .writer answer => c.advance answer

def run (c : Conn) (events : List ConnEvent) : Conn := events.foldl step c

end Conn

-- With a strategy that leaves the buffer out, `poll_ready` finds `try_empty` done at once and
-- the buffer still full; and a frame-set delivered between `try_empty`'s return and
-- `poll_close`'s assertion leaves an ACK queued there.
theorem guard_assertions_fail :
    ((Conn.start TransferLink.new (Guard.new 1 1400 4)).run
      [.startSend ⟨.reliable,10⟩,.poll .ready (some ⟨true,false,false⟩) [],.writer .ready]).phase =
        .panicked .pollReady ∧
    ((Conn.start TransferLink.new (Guard.new 1 1400 4)).run
      [.poll .close none [],.writer .ready,.peer (.deliver (.frameSet sampleFrameSet)),.writer .ready]).phase =
        .panicked .pollClose := by
  decide

-- With the packet class selected, `try_empty` returns `Ready(Ok)` only on an empty buffer, so
-- `poll_ready`'s assertion holds for every positive capacity.
theorem flushCheck_ready_keeps_assertion (c : Conn) {strategy : FlushStrategy} (pack : strategy.flushPack = true)
    (positive : 0 < c.guard.cap) : (c.flushCheckStep .ready strategy).phase ≠ .panicked .pollReady := by
  unfold Conn.flushCheckStep
  split
  · rename_i flushed
    have empty : c.guard.buf = [] := by
      simp only [FlushStrategy.checkFlushed,pack,Bool.not_true,Bool.false_or,Bool.and_eq_true,
        List.isEmpty_iff] at flushed
      exact flushed.2.2
    simp [Conn.returnReady,Conn.setPhase,empty,Nat.not_le.mpr positive]
  · simp [Conn.setPhase]

end RaknetRs
