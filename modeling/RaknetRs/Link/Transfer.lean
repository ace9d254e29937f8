import Mathlib.Data.List.Sort
import RaknetRs.Packet.Connected

namespace RaknetRs

/-- Modelled from the spec: `unconnected::Packet` is not under src/; the link only queues it
and the guard only forwards it. -/
structure UnconnectedPacket where
  bytes : List UInt8
deriving DecidableEq, Repr

/-- Modelled from the spec: `u24` (crate::utils) is not under src/. It is the spec's uint24-LE,
a counter whose lifetime fits in 24 bits, and its `+ 1` panics past 2^24 - 1. -/
def Uint24le.succ (x : Uint24le) : Except Fault Uint24le :=
  if x.val + 1 < 2 ^ 24 then .ok ⟨x.val + 1⟩ else .error .panic

theorem Uint24le.succ_of_lt {x : Uint24le} (fits : x.val + 1 < 2 ^ 24) : x.succ = .ok ⟨x.val + 1⟩ := if_pos fits

-- The queues of `TransferLink`. The `BinaryHeap<Reverse<u24>>` of acks to send is kept in
-- pop order (least first), the `BTreeSet<Reverse<u24>>` of nacks in its iteration order
-- (greatest first). Receive timestamps, the waking flag and the frame-body mailbox are not
-- read by anything modelled here.
structure TransferLink where
  incomingAck : List Ack
  incomingNack : List Ack
  outgoingAck : List Uint24le
  outgoingNack : List Uint24le
  unconnected : List UnconnectedPacket
deriving DecidableEq, Repr

def maxAckBuffer : Nat := 1024

def TransferLink.new : TransferLink := ⟨[],[],[],[],[]⟩

-- `ConcurrentQueue::force_push` on a bounded queue displaces the oldest item when full.
def forcePush {α : Type} (cap : Nat) (queue : List α) (item : α) : List α :=
  if queue.length < cap then queue ++ [item] else queue.tail ++ [item]

def heapPush (seqNum : Uint24le) (heap : List Uint24le) : List Uint24le :=
  heap.orderedInsert (fun a b => a.val ≤ b.val) seqNum

def nackInsert (seqNum : Uint24le) (nack : List Uint24le) : List Uint24le :=
  if seqNum ∈ nack then nack else nack.orderedInsert (fun a b => b.val ≤ a.val) seqNum

def nackRemove (seqNum : Uint24le) (nack : List Uint24le) : List Uint24le :=
  nack.filter (· ≠ seqNum)

-- `for n in pre_read.to_u32()..seq_num.to_u32() { nack.insert(Reverse(n.into())) }`
def insertGaps (preRead seqNum : Nat) (nack : List Uint24le) : List Uint24le :=
  (List.range' preRead (seqNum - preRead)).foldl (fun nack n => nackInsert ⟨n⟩ nack) nack

namespace TransferLink

def incomingAck' (link : TransferLink) (records : Ack) : TransferLink :=
  {link with incomingAck := forcePush maxAckBuffer link.incomingAck records}

def incomingNack' (link : TransferLink) (records : Ack) : TransferLink :=
  {link with incomingNack := forcePush maxAckBuffer link.incomingNack records}

def sendUnconnected (link : TransferLink) (packet : UnconnectedPacket) : TransferLink :=
  {link with unconnected := link.unconnected ++ [packet]}

-- `process_ack` and `process_nack` drain their queue through `try_iter`.
def processAck (link : TransferLink) : List Ack × TransferLink := (link.incomingAck,{link with incomingAck := []})

def processNack (link : TransferLink) : List Ack × TransferLink :=
  (link.incomingNack,{link with incomingNack := []})

-- `BatchRecv` pops the heap while `extend_from` pulls, all under one lock.
def processOutgoingAck (link : TransferLink) (mtu : Nat) : Except Fault (Option Ack × TransferLink) := do
  let (ack,remaining) ← extendFrom link.outgoingAck mtu
  pure (ack,{link with outgoingAck := remaining})

-- The nack set is only iterated: nothing is taken out of it.
def processOutgoingNack (link : TransferLink) (mtu : Nat) : Except Fault (Option Ack) := do
  let (nack,_) ← extendFrom link.outgoingNack mtu
  pure nack

-- The guard takes one packet of `process_unconnected()` per round.
def processUnconnected (link : TransferLink) : Option UnconnectedPacket × TransferLink :=
  match link.unconnected with
  | [] => (none,link)
  | packet :: rest => (some packet,{link with unconnected := rest})

def outgoingAckEmpty (link : TransferLink) : Bool := link.outgoingAck.isEmpty
def outgoingNackEmpty (link : TransferLink) : Bool := link.outgoingNack.isEmpty
def unconnectedEmpty (link : TransferLink) : Bool := link.unconnected.isEmpty

end TransferLink

-- `Router`: `closed` is `router_tx.is_closed()`; the frame-sets it forwards go to the frame
-- decoder, outside this model.
structure Router where
  seqRead : Uint24le
  closed : Bool
deriving DecidableEq, Repr

def Router.new : Router := ⟨⟨0⟩,false⟩

-- The first locked section of `Router::deliver` on a frame-set.
def Router.pushAck (link : TransferLink) (seqNum : Uint24le) : TransferLink :=
  {link with outgoingAck := heapPush seqNum link.outgoingAck}

-- The second locked section: forget the arrived number and, past `seq_read`, record the gap.
-- `seq_num + 1` panics with the number already forgotten and the lock released.
def Router.updateNack (router : Router) (link : TransferLink) (seqNum : Uint24le) : Except Fault Router × TransferLink :=
  let nack := nackRemove seqNum link.outgoingNack
  let preRead := router.seqRead
  if preRead.val ≤ seqNum.val then
    match seqNum.succ with
    | .ok next => (.ok {router with seqRead := next},{link with outgoingNack := insertGaps preRead.val seqNum.val nack})
    | .error e => (.error e,{link with outgoingNack := nack})
  else (.ok router,{link with outgoingNack := nack})

-- `Router::deliver` run without interruption; returns false once the route is closed.
def Router.deliver (router : Router) (link : TransferLink) (pack : Packet) : Except Fault (Bool × Router) × TransferLink :=
  if router.closed then (.ok (false,router),link)
  else match pack with
    | .frameSet fs =>
      let (router,link) := router.updateNack (Router.pushAck link fs.seqNum) fs.seqNum
      (router.map fun router => (!router.closed,router),link)
    | .ack records => (.ok (true,router),link.incomingAck' records)
    | .nack records => (.ok (true,router),link.incomingNack' records)

section Sets

variable {x a : Uint24le} {heap nack : List Uint24le}

theorem heapPush_perm (a : Uint24le) (heap : List Uint24le) : (heapPush a heap).Perm (a :: heap) :=
  List.perm_orderedInsert _ _ _

theorem mem_nackInsert : x ∈ nackInsert a nack ↔ x = a ∨ x ∈ nack := by
  unfold nackInsert
  split
  · rename_i present; constructor
    · exact .inr
    · rintro (rfl | mem) <;> assumption
  · exact List.mem_orderedInsert _

theorem mem_nackRemove : x ∈ nackRemove a nack ↔ x ≠ a ∧ x ∈ nack := by
  simp [nackRemove,and_comm]

theorem mem_foldl_nackInsert (ns : List Nat) :
    x ∈ ns.foldl (fun nack n => nackInsert ⟨n⟩ nack) nack ↔ x ∈ nack ∨ x.val ∈ ns := by
  induction ns generalizing nack with
  | nil => simp
  | cons n rest ih =>
    simp only [List.foldl_cons,ih,mem_nackInsert,List.mem_cons]
    constructor
    · rintro ((rfl | mem) | mem) <;> simp_all
    · rintro (mem | rfl | mem) <;> simp_all [Uint24le.mk.injEq]

theorem mem_insertGaps {preRead seqNum : Nat} :
    x ∈ insertGaps preRead seqNum nack ↔ x ∈ nack ∨ (preRead ≤ x.val ∧ x.val < seqNum) := by
  rw [insertGaps,mem_foldl_nackInsert,List.mem_range']
  constructor
  · rintro (mem | ⟨i,small,eq⟩)
    · exact .inl mem
    · exact .inr (by omega)
  · rintro (mem | ⟨low,high⟩)
    · exact .inl mem
    · exact .inr ⟨x.val - preRead,by omega,by omega⟩

end Sets

section Egress

variable {link : TransferLink} {mtu : Nat}

-- The egress packer against the peer's parser: a packet is accepted, with the records it was
-- given, exactly when it covers at most 8192 numbers, and it covers no more than its queue held.
theorem egress_accepted_within_limit (fits : 7 ≤ mtu) (u16 : mtu < 2 ^ 16)
    (small : ∀ x ∈ link.outgoingAck ++ link.outgoingNack, x.val < 2 ^ 24) (rest : List UInt8) :
    (∀ ack after, link.processOutgoingAck mtu = .ok (some ack,after) →
      Ack.read (ack.write ++ rest) = (if ack.covered.length ≤ maxAcknowledgementPackets then .ok (ack,rest)
        else .error (.codec .ackCountExceed)) ∧ ack.covered.length ≤ link.outgoingAck.length) ∧
    ∀ nack, link.processOutgoingNack mtu = .ok (some nack) →
      Ack.read (nack.write ++ rest) = (if nack.covered.length ≤ maxAcknowledgementPackets then .ok (nack,rest)
        else .error (.codec .ackCountExceed)) ∧ nack.covered.length ≤ link.outgoingNack.length := by
  refine ⟨fun ack after taken => ?_,fun nack taken => ?_⟩
  · obtain ⟨⟨pulled,remaining⟩,packed,done⟩ := bind_eq_ok.mp taken
    cases done
    exact extendFrom_read fits u16 (fun x mem => small x (List.mem_append_left _ mem)) packed rest
  · obtain ⟨⟨pulled,remaining⟩,packed,done⟩ := bind_eq_ok.mp taken
    cases done
    exact extendFrom_read fits u16 (fun x mem => small x (List.mem_append_right _ mem)) packed rest

theorem egress_accepted_within_limit_sample :
    let link : TransferLink := {TransferLink.new with outgoingAck := [⟨3⟩,⟨4⟩,⟨9⟩],outgoingNack := [⟨2⟩]}
    (7 ≤ 21 ∧ 21 < 2 ^ 16 ∧ ∀ x ∈ link.outgoingAck ++ link.outgoingNack, x.val < 2 ^ 24) ∧
      ∀ ack after, link.processOutgoingAck 21 = .ok (some ack,after) →
        Ack.read (ack.write ++ []) = (if ack.covered.length ≤ maxAcknowledgementPackets then .ok (ack,[])
          else .error (.codec .ackCountExceed)) ∧ ack.covered.length ≤ link.outgoingAck.length :=
  ⟨⟨by decide,by decide,by decide⟩,(egress_accepted_within_limit (by decide) (by decide) (by decide) []).1⟩

-- 8193 consecutive numbers waiting to be acknowledged go out as the one record
-- `Range(0, 8192)`, which the peer rejects.
theorem egress_ack_rejected :
    ∃ ack after, ({TransferLink.new with outgoingAck := (List.range' 0 8193).map Uint24le.mk}).processOutgoingAck 14 =
      .ok (some ack,after) ∧ Ack.read ack.write = .error (.codec .ackCountExceed) := by
  have run := @extendLoop_run ⟨0⟩ ⟨0⟩ true 7 8192 (by decide) (fun _ => by decide)
  refine ⟨⟨[.range ⟨0⟩ ⟨8192⟩]⟩,{TransferLink.new with outgoingAck := []},?_,by decide⟩
  rw [TransferLink.processOutgoingAck,List.range'_succ 0 8192,List.map_cons,
    extendFrom_cons (by decide : 7 ≤ 14),show 14 - 7 = 7 from rfl,run]
  rfl

end Egress

end RaknetRs
