import RaknetRs.Link.System

namespace RaknetRs

/-- Modelled from the spec: the guard's `Frame` (the version of `packet::connected` that guard.rs
imports is not under src/). The guard reads only a frame's reliability and its `size()`; the
rest of a frame is carried along unread and is left out. -/
structure Frame where
  reliability : Reliability
  size : Nat
deriving DecidableEq, Repr

def Frame.reliable (frame : Frame) : Bool := frame.reliability.isReliable

def hasReliable (frames : List Frame) : Bool := frames.any Frame.reliable

/-- Modelled from the spec (section 4.2): `ResendMap` is not under src/. The ordered map from a
reliable frame-set's sequence number to its frames. Send times are left out: which entries
have gone stale is the input of `processStales`. -/
structure ResendMap where
  entries : List (Uint24le × List Frame)
deriving DecidableEq, Repr

namespace ResendMap

/-- Modelled from the spec: an empty map. -/
def new : ResendMap := ⟨[]⟩

/-- Modelled from the spec: `is_empty`. -/
def isEmpty (m : ResendMap) : Bool := m.entries.isEmpty

def frames (m : ResendMap) : List Frame := m.entries.flatMap (·.2)

/-- Modelled from the spec: `record` inserts under the sequence number, in key order, replacing
what the map held there. -/
def record (m : ResendMap) (seqNum : Uint24le) (frames : List Frame) : ResendMap :=
  ⟨(m.entries.filter (·.1 ≠ seqNum)).orderedInsert (fun a b => a.1.val ≤ b.1.val) (seqNum,frames)⟩

/-- Modelled from the spec: the entries whose number is chosen, and the map without them. -/
def extract (m : ResendMap) (chosen : Uint24le → Bool) : List (Uint24le × List Frame) × ResendMap :=
  (m.entries.filter (chosen ·.1),⟨m.entries.filter (!chosen ·.1)⟩)

/-- Modelled from the spec: `on_ack` removes every entry the ACK's records cover. -/
def onAck (m : ResendMap) (ack : Ack) : ResendMap := (m.extract (·.val ∈ ack.covered)).2

/-- Modelled from the spec: the chosen entries leave the map and their frames go back onto the
front of the buffer, which `Guard.buf` keeps last. -/
def requeue (m : ResendMap) (chosen : Uint24le → Bool) (buf : List Frame) : ResendMap × List Frame :=
  let (removed,m) := m.extract chosen
  (m,buf ++ removed.flatMap (·.2))

/-- Modelled from the spec: `on_nack_into` re-queues the entries the NACK covers. -/
def onNackInto (m : ResendMap) (nack : Ack) (buf : List Frame) : ResendMap × List Frame :=
  m.requeue (·.val ∈ nack.covered) buf

/-- Modelled from the spec: `process_stales` re-queues the entries past their timeout. -/
def processStales (m : ResendMap) (stale : List Uint24le) (buf : List Frame) : ResendMap × List Frame :=
  m.requeue (· ∈ stale) buf

end ResendMap

/-- Modelled from the spec (section 4.6): `FlushStrategy` (crate::opts) is not under src/. Its
three selectors; the counters it caches for observers are written and never read here, and
are left out. -/
structure FlushStrategy where
  flushAck : Bool
  flushNack : Bool
  flushPack : Bool
deriving DecidableEq, Repr

/-- Modelled from the spec: the default flushes all three classes. -/
def FlushStrategy.default : FlushStrategy := ⟨true,true,true⟩

/-- Modelled from the spec: the drain loop is done when the queues of every selected class are
empty; the packet class holds the unconnected queue and the frame buffer. -/
def FlushStrategy.checkFlushed (strategy : FlushStrategy) (link : TransferLink) (buf : List Frame) : Bool :=
  (!strategy.flushAck || link.outgoingAckEmpty) && (!strategy.flushNack || link.outgoingNackEmpty) &&
    (!strategy.flushPack || (link.unconnectedEmpty && buf.isEmpty))

-- The 4th part of `try_empty`'s loop: frames come off the back of the buffer (the head of
-- `Guard.buf`) while they fit in `remain`; `frames` and `reliable` are its accumulators.
def packLoop (frames : List Frame) (reliable : Bool) (remain : Nat) : List Frame → List Frame × Bool × List Frame
  | [] => (frames,reliable,[])
  | frame :: buf =>
    if remain ≥ frame.size then packLoop (frames ++ [frame]) (reliable || frame.reliable) (remain - frame.size) buf
    else (frames,reliable,frame :: buf)

section Resend

variable {m : ResendMap} {chosen : Uint24le → Bool} {seqNum : Uint24le} {frames : List Frame}

theorem extract_perm (m : ResendMap) (chosen : Uint24le → Bool) :
    ((m.extract chosen).1 ++ (m.extract chosen).2.entries).Perm m.entries :=
  List.filter_append_perm _ _

theorem requeue_eq (m : ResendMap) (chosen : Uint24le → Bool) (buf : List Frame) :
    m.requeue chosen buf = ((m.extract chosen).2,buf ++ (m.extract chosen).1.flatMap (·.2)) := rfl

theorem mem_extract_fst {entry : Uint24le × List Frame} :
    entry ∈ (m.extract chosen).1 ↔ entry ∈ m.entries ∧ chosen entry.1 := List.mem_filter

-- A number the map does not hold is recorded as one more entry.
theorem record_perm (fresh : ∀ e ∈ m.entries, e.1 ≠ seqNum) :
    (m.record seqNum frames).entries.Perm ((seqNum,frames) :: m.entries) := by
  have kept : m.entries.filter (·.1 ≠ seqNum) = m.entries :=
    List.filter_eq_self.mpr fun e mem => by simpa using fresh e mem
  rw [ResendMap.record,kept]
  exact List.perm_orderedInsert _ _ _

theorem mem_record : (seqNum,frames) ∈ (m.record seqNum frames).entries :=
  (List.mem_orderedInsert _).mpr (.inl rfl)

end Resend

-- One call takes a prefix of the buffer that fits the budget, and its flag says whether the
-- prefix holds a reliable frame; it stops at the first frame that does not fit.
theorem packLoop_eq (frames : List Frame) (reliable : Bool) (remain : Nat) (buf : List Frame) :
    ∃ taken rest, buf = taken ++ rest ∧
      packLoop frames reliable remain buf = (frames ++ taken,reliable || hasReliable taken,rest) ∧
      (taken.map Frame.size).sum ≤ remain ∧ ∀ f ∈ rest.head?, remain - (taken.map Frame.size).sum < f.size := by
  induction buf generalizing frames reliable remain with
  | nil => exact ⟨[],[],rfl,by simp [packLoop,hasReliable],by simp,by simp⟩
  | cons frame buf ih =>
    by_cases fits : remain ≥ frame.size
    · obtain ⟨taken,rest,split,packed,sum,stop⟩ := ih (frames ++ [frame]) (reliable || frame.reliable) (remain - frame.size)
      refine ⟨frame :: taken,rest,by rw [split]; rfl,?_,by simp; omega,fun f mem => ?_⟩
      · rw [packLoop,if_pos fits,packed]; simp [hasReliable,Bool.or_assoc]
      · have := stop f mem; simp only [List.map_cons,List.sum_cons]; omega
    · exact ⟨[],frame :: buf,rfl,by simp [packLoop,fits,hasReliable],by simp,by simp; omega⟩

end RaknetRs
