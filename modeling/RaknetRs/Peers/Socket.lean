import RaknetRs.Guard.Sink

namespace RaknetRs

-- The two ends of a connection, the client's and the server's, each a guard over its own link,
-- joined by the UDP socket.
inductive Side where
  | client
  | server
deriving DecidableEq, Repr

def Side.other : Side → Side
  | .client => .server
  | .server => .client

structure Peers where
  client : Conn
  server : Conn
deriving DecidableEq, Repr

-- What the other end's router gets of a sent packet: the frame-set `frame_encoded` wrote, of
-- which `Router::deliver` reads the sequence number only, or the ACK and NACK records. An
-- unconnected packet goes to the other end's offline handler, not to its router.
def Outgoing.wire : Outgoing → Option Packet
  | .frameSet seqNum _ => some (.frameSet ⟨seqNum,⟨0⟩,none,none,none,none,[]⟩)
  | .ack records => some (.ack records)
  | .nack records => some (.nack records)
  | .unconnected _ => none

def ConnEvent.fromSocket : ConnEvent → Bool
  | .peer (.deliver _) => true
  | _ => false

-- `task` is an event of one end's own tasks; `recv` hands that end's router the packet the other
-- end's writer sent `index`-th. The socket is the history of what was sent: a run may hand over
-- any packet, any number of times, in any order, or never.
inductive PeersEvent where
  | task (side : Side) (e : ConnEvent)
  | recv (side : Side) (index : Nat)
deriving DecidableEq, Repr

namespace Peers

/-- Modelled from the spec: both ends over a link from `Link::new_arc`. The server end's receive
path, `filter_incoming_ack`, is not under src/; the spec's per-peer Router input drives the same
ACK and NACK bookkeeping, so both ends deliver with `Router::deliver`. -/
def start (clientGuard serverGuard : Guard) : Peers :=
  ⟨Conn.start TransferLink.new clientGuard,Conn.start TransferLink.new serverGuard⟩

def get (p : Peers) : Side → Conn
  | .client => p.client
  | .server => p.server

def update (p : Peers) (side : Side) (e : ConnEvent) : Peers :=
  match side with
  | .client => {p with client := p.client.step e}
  | .server => {p with server := p.server.step e}

def step (p : Peers) : PeersEvent → Peers
  | .task side e => if e.fromSocket then p else p.update side e
  | .recv side index =>
    match ((p.get side.other).sent[index]?).bind Outgoing.wire with
    | some pack => p.update side (.peer (.deliver pack))
    | none => p

def run (p : Peers) (events : List PeersEvent) : Peers := events.foldl step p

theorem get_update (p : Peers) (side : Side) (e : ConnEvent) : (p.update side e).get side = (p.get side).step e := by
  cases side <;> rfl

theorem get_update_other (p : Peers) (side : Side) (e : ConnEvent) :
    (p.update side.other e).get side = p.get side := by
  cases side <;> rfl

theorem get_other_update (p : Peers) (side : Side) (e : ConnEvent) :
    (p.update side e).get side.other = p.get side.other := by
  cases side <;> rfl

theorem step_cases (p : Peers) (ev : PeersEvent) :
    p.step ev = p ∨ ∃ side e, p.step ev = p.update side e ∧ (ev = .task side e ∧ e.fromSocket = false ∨
      ∃ out ∈ (p.get side.other).sent, ∃ pack, out.wire = some pack ∧ e = .peer (.deliver pack)) := by
  cases ev with
  | task side e =>
    cases socket : e.fromSocket
    · exact .inr ⟨side,e,by simp [step,socket],.inl ⟨rfl,socket⟩⟩
    · exact .inl (by simp [step,socket])
  | recv side index =>
    simp only [step]
    split
    · rename_i pack found
      obtain ⟨out,got,wire⟩ := Option.bind_eq_some.mp found
      exact .inr ⟨side,_,rfl,.inr ⟨out,List.getElem?_mem got,pack,wire,rfl⟩⟩
    · exact .inl rfl

end Peers

theorem Side.eq_or_other (t side : Side) : t = side ∨ t = side.other := by
  cases t <;> cases side <;> simp [Side.other]

theorem wire_ack {out : Outgoing} {ack : Ack} (wire : out.wire = some (.ack ack)) : out = .ack ack := by
  cases out <;> simp_all [Outgoing.wire]

theorem wire_frameSet {out : Outgoing} {fs : FrameSet} (wire : out.wire = some (.frameSet fs)) :
    ∃ frames, out = .frameSet fs.seqNum frames := by
  cases out <;> simp only [Outgoing.wire,Option.some.injEq,reduceCtorEq,Packet.frameSet.injEq] at wire
  exact ⟨_,by rw [← wire]⟩

section Heard

variable {s : LinkSystem} {c : Conn}

theorem mem_forcePush {α : Type} {cap : Nat} {queue : List α} {item x : α} (mem : x ∈ forcePush cap queue item) :
    x ∈ queue ∨ x = item := by
  unfold forcePush at mem
  split at mem <;> rcases List.mem_append.mp mem with old | new
  · exact .inl old
  · exact .inr (List.mem_singleton.mp new)
  · exact .inl (List.mem_of_mem_tail old)
  · exact .inr (List.mem_singleton.mp new)

theorem mem_step_incomingAck (l : LinkEvent) {ack : Ack} (mem : ack ∈ (s.step l).link.incomingAck) :
    ack ∈ s.link.incomingAck ∨ l = .deliver (.ack ack) := by
  cases l with
  | deliver pack =>
    simp only [LinkSystem.step,LinkSystem.deliver] at mem
    split at mem
    · exact .inl mem
    · cases pack with
      | ack records => exact (mem_forcePush mem).imp id (fun same => by rw [same])
      | frameSet fs | nack records => exact .inl mem
  | deliverRest =>
    obtain ⟨nack,link,-⟩ := deliverRest_keeps s
    exact .inl ((congrArg TransferLink.incomingAck link) ▸ mem)
  | processOutgoingAck mtu =>
    rcases takeOutgoingAck_cases s mtu with same | ⟨_,_,taken,-⟩
    · rw [LinkSystem.step,same] at mem; exact .inl mem
    · rw [LinkSystem.step,taken] at mem; exact .inl mem
  | processOutgoingNack mtu =>
    simp only [LinkSystem.step,LinkSystem.takeOutgoingNack] at mem
    split at mem <;> exact .inl mem
  | processUnconnected =>
    simp only [LinkSystem.step,LinkSystem.takeUnconnected,TransferLink.processUnconnected] at mem
    split at mem <;> exact .inl mem
  | processIncoming => cases mem
  | closeRoute | sendUnconnected _ => exact .inl mem

theorem mem_step_received (l : LinkEvent) {x : Uint24le} (mem : x ∈ (s.step l).received) :
    x ∈ s.received ∨ ∃ fs, l = .deliver (.frameSet fs) ∧ x = fs.seqNum := by
  rcases step_cases s l with quiet | ⟨-,fs,rfl,next⟩ | ⟨p,pending,-,next⟩ | ⟨_,_,next,-⟩
  · exact .inl (quiet.received ▸ mem)
  · rw [next] at mem
    rcases List.mem_append.mp mem with old | new
    · exact .inl old
    · exact .inr ⟨fs,rfl,List.mem_singleton.mp new⟩
  · obtain ⟨-,-,-,received,-⟩ := deliverRest_keeps s
    rw [next,received] at mem; exact .inl mem
  · rw [next] at mem; exact .inl mem

theorem run_heard (links : List LinkEvent) (s : LinkSystem) :
    (∀ ack ∈ (s.run links).link.incomingAck, ack ∈ s.link.incomingAck ∨ .deliver (.ack ack) ∈ links) ∧
      ∀ x ∈ (s.run links).received, x ∈ s.received ∨ ∃ fs, .deliver (.frameSet fs) ∈ links ∧ x = fs.seqNum := by
  induction links generalizing s with
  | nil => exact ⟨fun _ mem => .inl mem,fun _ mem => .inl mem⟩
  | cons l rest ih =>
    refine ⟨fun ack mem => ?_,fun x mem => ?_⟩
    · rcases (ih (s.step l)).1 ack mem with early | late
      · rcases mem_step_incomingAck l early with old | rfl
        · exact .inl old
        · exact .inr (List.mem_cons_self _ _)
      · exact .inr (List.mem_cons_of_mem _ late)
    · rcases (ih (s.step l)).2 x mem with early | ⟨fs,late,rfl⟩
      · rcases mem_step_received l early with old | ⟨fs,rfl,rfl⟩
        · exact .inl old
        · exact .inr ⟨fs,List.mem_cons_self _ _,rfl⟩
      · exact .inr ⟨fs,List.mem_cons_of_mem _ late,rfl⟩

theorem foldl_absorbAck_acksIn (acks : List Ack) (d : Conn) : (acks.foldl Conn.absorbAck d).acksIn = d.acksIn ++ acks := by
  induction acks generalizing d with
  | nil => exact (List.append_nil _).symm
  | cons ack rest ih => rw [List.foldl_cons,ih,Conn.absorbAck,List.append_assoc,List.singleton_append]

theorem begin_acksIn (call : Call) (strategy : Option FlushStrategy) (stale : List Uint24le) :
    (c.begin call strategy stale).acksIn = c.acksIn ++ c.sys.link.incomingAck := by
  unfold Conn.begin
  exact foldl_invariant (·.acksIn = c.acksIn ++ c.sys.link.incomingAck) Conn.absorbNack (fun _ _ same => same)
    c.sys.takeIncoming.1.2 _ (foldl_absorbAck_acksIn c.sys.link.incomingAck {c with sys := c.sys.takeIncoming.2})

theorem step_acksIn (e : ConnEvent) {ack : Ack} (mem : ack ∈ (c.step e).acksIn) : ack ∈ c.acksIn ++ c.sys.link.incomingAck := by
  rcases step_shape c e with frozen | ⟨_,next⟩ | ⟨call,strategy,stale,next⟩ | ⟨_,_,_,-,-,next⟩ | ⟨-,_,_,-,next⟩
  · exact List.mem_append_left _ (frozen.acksIn ▸ mem)
  all_goals rw [next] at mem
  · exact List.mem_append_left _ mem
  · rwa [begin_acksIn] at mem
  · simp only [emit_eq] at mem; exact List.mem_append_left _ mem
  · exact List.mem_append_left _ mem

theorem step_heard (e : ConnEvent) :
    (∀ ack ∈ (c.step e).acksIn ++ (c.step e).sys.link.incomingAck,
        ack ∈ c.acksIn ++ c.sys.link.incomingAck ∨ e = .peer (.deliver (.ack ack))) ∧
      ∀ x ∈ (c.step e).sys.received, x ∈ c.sys.received ∨ ∃ fs, e = .peer (.deliver (.frameSet fs)) ∧ x = fs.seqNum := by
  obtain ⟨links,moved,origin⟩ := step_moves c e
  have delivered {pack : Packet} (mem : .deliver pack ∈ links) : e = .peer (.deliver pack) := by
    rcases origin _ mem with call | ⟨p,rfl,same⟩
    · cases call
    · cases p <;> cases same; rfl
  rw [moved]
  refine ⟨fun ack mem => ?_,fun x mem => ?_⟩
  · rcases List.mem_append.mp mem with drained | queued
    · exact .inl (step_acksIn e drained)
    · exact ((run_heard links c.sys).1 ack queued).imp (List.mem_append_right _) delivered
  · exact ((run_heard links c.sys).2 x mem).imp id fun ⟨fs,mem,seq⟩ => ⟨fs,delivered mem,seq⟩

theorem step_sent (e : ConnEvent) : ∃ extra, (c.step e).sent = c.sent ++ extra := by
  obtain ⟨-,-,-,⟨-,-,extra,sent,-⟩,-⟩ := step_handed (c := c) e
  exact ⟨extra,sent⟩

theorem sentAcks_covered (link : TransferLink) (guard : Guard) (events : List ConnEvent) {ack : Ack}
    (sent : ack ∈ ((Conn.start link guard).run events).sentAcks) {n : Nat} (covered : n ∈ ack.covered) :
    ∃ x ∈ link.outgoingAck ++ ((Conn.start link guard).run events).sys.received, x.val = n := by
  have within := (run_egressWithin events (show EgressWithin (Conn.start link guard) link.unconnected from
    ⟨.slnil,.slnil,.refl _⟩)).1
  have returned := (flatMap_sublist Ack.covered within).subset (List.mem_flatMap.mpr ⟨ack,sent,covered⟩)
  exact List.mem_map.mp ((conn_ackConserved link guard events).subset (List.mem_append_left _ returned))

end Heard

-- What one end heard came from the other end: every ACK its guard drained or still has queued
-- was sent by the other end's writer, and every frame-set number its router received is that
-- of a frame-set the other end sent.
def Heard (p : Peers) (side : Side) : Prop :=
  (∀ ack ∈ (p.get side).acksIn ++ (p.get side).sys.link.incomingAck, ack ∈ (p.get side.other).sentAcks) ∧
    ∀ x ∈ (p.get side).sys.received, x ∈ (p.get side.other).frameSets.map (·.1)

section Network

variable {p : Peers}

theorem heard_of_listener {side : Side} {c d : Conn} (valid : Heard p side) (same : c = p.get side)
    (grown : ∃ extra, d.sent = (p.get side.other).sent ++ extra) :
    (∀ ack ∈ c.acksIn ++ c.sys.link.incomingAck, ack ∈ d.sentAcks) ∧ ∀ x ∈ c.sys.received, x ∈ d.frameSets.map (·.1) := by
  obtain ⟨extra,sent⟩ := grown
  subst same
  refine ⟨fun ack mem => ?_,fun x mem => ?_⟩
  · have old := valid.1 ack mem
    simp only [Conn.sentAcks,sent,List.filterMap_append] at old ⊢
    exact List.mem_append_left _ old
  · have old := valid.2 x mem
    simp only [Conn.frameSets,sent,List.filterMap_append,List.map_append] at old ⊢
    exact List.mem_append_left _ old

theorem Peers.step_sent (p : Peers) (ev : PeersEvent) (t : Side) :
    ∃ extra, ((p.step ev).get t).sent = (p.get t).sent ++ extra := by
  rcases Peers.step_cases p ev with same | ⟨u,e,next,-⟩
  · exact ⟨[],by rw [same,List.append_nil]⟩
  rw [next]
  rcases Side.eq_or_other u t with rfl | rfl
  · rw [Peers.get_update]; exact RaknetRs.step_sent e
  · exact ⟨[],by rw [Peers.get_update_other,List.append_nil]⟩

theorem step_heard_peers {side : Side} (valid : Heard p side) (ev : PeersEvent) : Heard (p.step ev) side := by
  rcases Peers.step_cases p ev with same | ⟨t,e,next,origin⟩
  · rw [same]; exact valid
  rw [next]
  rcases Side.eq_or_other t side with rfl | rfl
  · have ours := step_heard (c := p.get t) e
    have socket {pack : Packet} (delivered : e = .peer (.deliver pack)) :
        ∃ out ∈ (p.get t.other).sent, out.wire = some pack := by
      rcases origin with ⟨-,own⟩ | ⟨out,mem,pack',wire,rfl⟩
      · rw [delivered] at own; cases own
      · cases delivered; exact ⟨out,mem,wire⟩
    refine ⟨fun ack mem => ?_,fun x mem => ?_⟩ <;> rw [Peers.get_other_update]
    · rw [Peers.get_update] at mem
      rcases ours.1 ack mem with old | delivered
      · exact valid.1 ack old
      · obtain ⟨out,mem,wire⟩ := socket delivered
        exact List.mem_filterMap.mpr ⟨out,mem,by rw [wire_ack wire]; rfl⟩
    · rw [Peers.get_update] at mem
      rcases ours.2 x mem with old | ⟨fs,delivered,rfl⟩
      · exact valid.2 x old
      · obtain ⟨out,mem,wire⟩ := socket delivered
        obtain ⟨frames,rfl⟩ := wire_frameSet wire
        exact List.mem_map.mpr ⟨(fs.seqNum,frames),List.mem_filterMap.mpr ⟨_,mem,rfl⟩,rfl⟩
  · exact heard_of_listener valid (Peers.get_update_other p side e) (next ▸ Peers.step_sent p ev side.other)

theorem run_heard_peers (events : List PeersEvent) (side : Side) (p : Peers) (valid : Heard p side) :
    Heard (p.run events) side := by
  induction events generalizing p with
  | nil => exact valid
  | cons ev rest ih => exact ih _ (step_heard_peers valid ev)

theorem run_cons (p : Peers) (ev : PeersEvent) (rest : List PeersEvent) : p.run (ev :: rest) = (p.step ev).run rest := rfl

theorem run_sent (events : List PeersEvent) (t : Side) (p : Peers) :
    ∃ extra, ((p.run events).get t).sent = (p.get t).sent ++ extra := by
  induction events generalizing p with
  | nil => exact ⟨[],(List.append_nil _).symm⟩
  | cons ev rest ih =>
    obtain ⟨later,grown⟩ := ih (p.step ev)
    obtain ⟨first,stepped⟩ := Peers.step_sent p ev t
    exact ⟨first ++ later,by rw [run_cons,grown,stepped,List.append_assoc]⟩

-- Each end's part of a run is a run of that end's own connection, whose events are its own
-- tasks' events of the run and deliveries of packets the other end sent.
theorem run_traced (events : List PeersEvent) (side : Side) (p : Peers) :
    ∃ es, (p.run events).get side = (p.get side).run es ∧ ∀ e ∈ es, .task side e ∈ events ∧ e.fromSocket = false ∨
      ∃ out ∈ ((p.run events).get side.other).sent, ∃ pack, out.wire = some pack ∧ e = .peer (.deliver pack) := by
  induction events generalizing p with
  | nil => exact ⟨[],rfl,nofun⟩
  | cons ev rest ih =>
    obtain ⟨es,ran,origin⟩ := ih (p.step ev)
    rw [run_cons]
    rcases Peers.step_cases p ev with same | ⟨t,e,next,first⟩
    · exact ⟨es,by rw [ran,same],
        fun e' mem => (origin e' mem).imp_left fun ⟨listed,own⟩ => ⟨List.mem_cons_of_mem _ listed,own⟩⟩
    rw [next] at ran origin ⊢
    rcases Side.eq_or_other t side with rfl | rfl
    · refine ⟨e :: es,by rw [ran,Peers.get_update]; rfl,fun e' mem => ?_⟩
      rcases List.mem_cons.mp mem with rfl | later
      · obtain ⟨extra,grown⟩ := run_sent rest t.other (p.update t e')
        rw [grown,Peers.get_other_update]
        exact first.imp (fun ⟨same,own⟩ => ⟨same ▸ List.mem_cons_self _ _,own⟩)
          fun ⟨out,sent,pack,wire,same⟩ => ⟨out,List.mem_append_left _ sent,pack,wire,same⟩
      · exact (origin e' later).imp_left fun ⟨listed,own⟩ => ⟨List.mem_cons_of_mem _ listed,own⟩
    · exact ⟨es,by rw [ran,Peers.get_update_other],
        fun e' mem => (origin e' mem).imp_left fun ⟨listed,own⟩ => ⟨List.mem_cons_of_mem _ listed,own⟩⟩

theorem Side.other_ne (side : Side) : side.other ≠ side := by
  cases side <;> nofun

-- The frames an end's `start_send` events hand its guard over a run of both ends.
def Peers.sends (side : Side) (p : Peers) : PeersEvent → List Frame
  | .task t e => if t = side then (p.get side).sends e else []
  | .recv _ _ => []

def Peers.given (p : Peers) (side : Side) (events : List PeersEvent) : List Frame := collect Peers.step (Peers.sends side) p events

theorem sends_of_fromSocket (c : Conn) {e : ConnEvent} (socket : e.fromSocket = true) : c.sends e = [] := by
  cases e <;> first | rfl | cases socket

theorem Peers.step_submitted (p : Peers) (side : Side) (ev : PeersEvent) :
    ((p.step ev).get side).submitted = (p.get side).submitted ++ Peers.sends side p ev := by
  cases ev with
  | task t e =>
    simp only [Peers.step,Peers.sends]
    split
    · rename_i socket
      split <;> simp [sends_of_fromSocket _ socket]
    · rcases Side.eq_or_other t side with rfl | rfl
      · rw [Peers.get_update,RaknetRs.step_submitted,if_pos rfl]
      · rw [Peers.get_update_other,if_neg (Side.other_ne side),List.append_nil]
  | recv t index =>
    simp only [Peers.step,Peers.sends,List.append_nil]
    split
    · rcases Side.eq_or_other t side with rfl | rfl
      · rw [Peers.get_update]; rfl
      · rw [Peers.get_update_other]
    · rfl

theorem Peers.run_submitted (p : Peers) (side : Side) (events : List PeersEvent) :
    ((p.run events).get side).submitted = (p.get side).submitted ++ p.given side events :=
  foldl_collect (fun p => (p.get side).submitted) (fun p ev => p.step_submitted side ev) events p

end Network

section Reachable

variable (clientGuard serverGuard : Guard) (events : List PeersEvent) (side : Side)

theorem start_heard : Heard (Peers.start clientGuard serverGuard) side := by
  cases side <;> exact ⟨fun _ mem => absurd mem (List.not_mem_nil _),fun _ mem => absurd mem (List.not_mem_nil _)⟩

theorem run_acks_received {ack : Ack} (mem : ack ∈ (((Peers.start clientGuard serverGuard).run events).get side).acksIn)
    {n : Nat} (covered : n ∈ ack.covered) :
    ∃ x ∈ (((Peers.start clientGuard serverGuard).run events).get side.other).sys.received, x.val = n := by
  have sent := (run_heard_peers events side _ (start_heard clientGuard serverGuard side)).1 ack (List.mem_append_left _ mem)
  obtain ⟨others,ran,-⟩ := run_traced events side.other (Peers.start clientGuard serverGuard)
  rw [ran] at sent ⊢
  cases side <;> exact sentAcks_covered TransferLink.new _ others sent covered

theorem run_acked_received (acked : AckedCovered (((Peers.start clientGuard serverGuard).run events).get side)) :
    ∀ e ∈ (((Peers.start clientGuard serverGuard).run events).get side).ackedSets,
      e.1 ∈ (((Peers.start clientGuard serverGuard).run events).get side.other).sys.received := fun e mem => by
  obtain ⟨ack,drained,covered⟩ := acked e mem
  obtain ⟨x,received,same⟩ := run_acks_received clientGuard serverGuard events side drained covered
  rwa [← uint24_val_inj.mp same]

end Reachable

theorem run_peers_numbered (clientCap clientMtu clientHeader serverCap serverMtu serverHeader : Nat)
    (events : List PeersEvent) (side : Side) :
    Numbered (((Peers.start (Guard.new clientCap clientMtu clientHeader) (Guard.new serverCap serverMtu serverHeader)).run
      events).get side) := by
  obtain ⟨es,ran,-⟩ := run_traced events side _
  rw [ran]
  cases side <;> exact run_numbered es _ (start_accounted TransferLink.new _ _ _).toNumbered

-- No false acknowledgement: an ACK an end drained covers only numbers the other end's router
-- received; a frame-set leaves an end's resend map on an ACK only when it is one this end sent,
-- frames and all, and the other end's router received its number; that router received only
-- numbers of frame-sets this end sent; and this end never sent two frame-sets under one number.
def NoFalseAck (p : Peers) (side : Side) : Prop :=
  (∀ ack ∈ (p.get side).acksIn, ∀ n ∈ ack.covered, ∃ x ∈ (p.get side.other).sys.received, x.val = n) ∧
    (∀ e ∈ (p.get side).ackedSets, e ∈ (p.get side).frameSets ∧ e.1 ∈ (p.get side.other).sys.received) ∧
    (∀ x ∈ (p.get side.other).sys.received, x ∈ (p.get side).frameSets.map (·.1)) ∧
    ∀ e ∈ (p.get side).frameSets, ∀ e' ∈ (p.get side).frameSets, e.1 = e'.1 → e = e'

-- Over every interleaving of two ends with new guards, whatever the socket loses, duplicates or
-- reorders and whatever the sinks answer, neither end takes a frame-set for acknowledged unless
-- the other end's router received that very frame-set.
theorem peers_never_ack_unreceived (clientCap clientMtu clientHeader serverCap serverMtu serverHeader : Nat)
    (events : List PeersEvent) (side : Side) :
    NoFalseAck ((Peers.start (Guard.new clientCap clientMtu clientHeader) (Guard.new serverCap serverMtu serverHeader)).run
      events) side := by
  have numbered := run_peers_numbered clientCap clientMtu clientHeader serverCap serverMtu serverHeader events side
  refine ⟨fun _ mem _ covered => run_acks_received _ _ events side mem covered,fun e mem => ⟨?_,
    run_acked_received _ _ events side numbered.acked e mem⟩,fun x mem => ?_,numbered.seqs.unique⟩
  · exact List.mem_of_mem_filter (numbered.sets.mem_iff.mpr (List.mem_append_left _ (List.mem_append_right _ mem)))
  · have theirs := (run_heard_peers events side.other _ (start_heard _ _ side.other)).2 x mem
    cases side <;> exact theirs

-- A reliable frame the client sends is acknowledged once the server's ACK comes back.
example :
    ((Peers.start (Guard.new 2 1400 4) (Guard.new 2 1400 4)).run
      ([.task .client (.startSend ⟨.reliable,10⟩),.task .client (.poll .flush none [])] ++
        List.replicate 6 (.task .client (.writer .ready)) ++
        [.recv .server 0,.task .server (.peer .deliverRest),.task .server (.poll .flush none [])] ++
        List.replicate 6 (.task .server (.writer .ready)) ++
        [.recv .client 0,.task .client (.poll .flush none [])])).client.ackedSets = [(⟨0⟩,[⟨.reliable,10⟩])] := by
  decide

end RaknetRs
