import RaknetRs.Guard.Outgoing

namespace RaknetRs

def Conn.frameSets (c : Conn) : List (Uint24le × List Frame) := c.sent.filterMap Outgoing.frameSet?

-- The frame a `start_send` event hands the guard, and the frames a run gives it.
def Conn.sends (c : Conn) : ConnEvent → List Frame
  | .startSend frame => if c.phase.between then [frame] else []
  | _ => []

def Conn.given (c : Conn) (events : List ConnEvent) : List Frame := collect Conn.step Conn.sends c events

def ConnEvent.NoSinkError : ConnEvent → Prop
  | .writer answer => answer = .ready ∨ answer = .pending
  | _ => True

instance : DecidablePred ConnEvent.NoSinkError
  | .writer answer => inferInstanceAs (Decidable (answer = .ready ∨ answer = .pending))
  | .peer _ | .startSend _ | .poll _ _ _ => isTrue trivial

-- What the frame accounting reads of a state is left as it was.
structure Frozen (c d : Conn) : Prop where
  guard : d.guard = c.guard
  submitted : d.submitted = c.submitted
  acksIn : d.acksIn = c.acksIn
  ackedSets : d.ackedSets = c.ackedSets
  requeued : d.requeued = c.requeued
  frameSets : d.frameSets = c.frameSets

section Shapes

variable (c : Conn)

theorem emit_eq (frames : List Frame) (reliable : Bool) (rest : List Frame) (next : Phase) :
    c.emit frames reliable rest next =
      {c with guard := {c.guard with
                buf := rest,
                seqNumWriteIndex := if c.guard.seqNumWriteIndex.val + 1 < 2 ^ 24 then ⟨c.guard.seqNumWriteIndex.val + 1⟩
                  else c.guard.seqNumWriteIndex,
                resend := if reliable then c.guard.resend.record c.guard.seqNumWriteIndex frames else c.guard.resend},
              sent := c.sent ++ [.frameSet c.guard.seqNumWriteIndex frames],
              phase := if c.guard.seqNumWriteIndex.val + 1 < 2 ^ 24 then next else .panicked .writeIndexOverflow} := by
  by_cases fits : c.guard.seqNumWriteIndex.val + 1 < 2 ^ 24 <;> simp only [Conn.emit,Uint24le.succ,fits,↓reduceIte]

theorem frozen_setPhase (phase : Phase) : Frozen c (c.setPhase phase) := ⟨rfl,rfl,rfl,rfl,rfl,rfl⟩

theorem frozen_sys (sys : LinkSystem) (phase : Phase) : Frozen c {c with sys := sys,phase := phase} :=
  ⟨rfl,rfl,rfl,rfl,rfl,rfl⟩

theorem frozen_send (sys : LinkSystem) {packet : Outgoing} (control : packet.frameSet? = none) (phase : Phase) :
    Frozen c {c with sys := sys,sent := c.sent ++ [packet],phase := phase} :=
  ⟨rfl,rfl,rfl,rfl,rfl,by simp [Conn.frameSets,List.filterMap_append,control]⟩

-- The steps that touch neither the buffer nor the resend map: every branch sets the phase,
-- and at most takes from the link and sends an ACK, a NACK or an unconnected packet.
theorem returnReady_frozen (call : Call) : Frozen c (c.returnReady call) := by
  cases call <;> simp only [Conn.returnReady] <;> (try split) <;> exact frozen_setPhase _ _

theorem flushCheckStep_frozen (call : Call) (strategy : FlushStrategy) : Frozen c (c.flushCheckStep call strategy) := by
  unfold Conn.flushCheckStep
  split
  · exact returnReady_frozen _ _
  · exact frozen_setPhase _ _

theorem controlStep_frozen (answer : SinkAnswer) (selected : Bool) (take : LinkSystem → Except Fault (Option Ack) × LinkSystem)
    {packet : Ack → Outgoing} (control : ∀ records, (packet records).frameSet? = none) (next : Phase) :
    Frozen c (c.controlStep answer selected take packet next) := by
  unfold Conn.controlStep
  repeat' split
  all_goals first | exact frozen_setPhase _ _ | exact frozen_sys _ _ _ | exact frozen_send _ _ (control _) _

theorem unconnectedStep_frozen (call : Call) (strategy : FlushStrategy) (answer : SinkAnswer) :
    Frozen c (c.unconnectedStep call strategy answer) := by
  unfold Conn.unconnectedStep
  repeat' split
  all_goals first | exact frozen_setPhase _ _ | exact frozen_sys _ _ _ | exact frozen_send _ _ (by rfl) _

theorem closeAssertStep_frozen (answer : SinkAnswer) : Frozen c (c.closeAssertStep answer) := by
  unfold Conn.closeAssertStep
  repeat' split
  all_goals exact frozen_setPhase _ _

-- Every step leaves the accounting alone, takes a frame from `start_send`, begins a
-- `try_empty`, sends a frame-set packed from a prefix of the buffer, or (only when the sink
-- refuses the frame-set) loses that prefix.
def StepShape (c d : Conn) (refused : Prop) : Prop :=
  Frozen c d ∨ (∃ frame, d = (c.startSend frame).setPhase .idle) ∨ (∃ call strategy stale, d = c.begin call strategy stale) ∨
    (∃ frames rest phase, c.guard.buf = frames ++ rest ∧ frames ≠ [] ∧
      d = c.emit frames (hasReliable frames) rest phase) ∨
    (refused ∧ ∃ frames rest, c.guard.buf = frames ++ rest ∧ d = {c with guard := {c.guard with buf := rest},phase := .idle})

theorem frameSetStep_shape (call : Call) (strategy : FlushStrategy) (answer : SinkAnswer) :
    StepShape c (c.frameSetStep call strategy answer) (answer = .sendError) := by
  obtain ⟨taken,rest,split,packed,-,-⟩ := packLoop_eq [] false (c.guard.mtu - c.guard.frameSetHeaderSize) c.guard.buf
  cases answer
  case pending | readyError => exact .inl (frozen_setPhase _ _)
  all_goals
    simp only [Conn.frameSetStep,packed,List.nil_append,Bool.false_or,reduceCtorEq,if_false]
    split_ifs with short assertion empty
    all_goals first
      | exact .inl (frozen_setPhase _ _)
      | exact .inr (.inr (.inr (.inl ⟨taken,rest,_,split,by simpa using empty,rfl⟩)))
      | exact .inr (.inr (.inr (.inr ⟨trivial,taken,rest,split,rfl⟩)))

-- The frame-set part sets a phase, drops the frames it popped when the sink refuses them, or
-- sends a frame-set and goes back to the loop test.
theorem frameSetStep_cases (call : Call) (strategy : FlushStrategy) (answer : SinkAnswer) :
    (∃ phase, c.frameSetStep call strategy answer = c.setPhase phase ∧ (phase = .flushCheck call strategy ∨
        phase = .idle ∨ phase = .panicked .mtuBelowHeader ∨ phase = .panicked .frameExceedsMtu)) ∨
      (∃ rest, c.frameSetStep call strategy answer = {c with guard := {c.guard with buf := rest},phase := .idle}) ∨
      ∃ frames reliable rest,
        c.frameSetStep call strategy answer = c.emit frames reliable rest (.flushCheck call strategy) := by
  obtain ⟨taken,rest,-,packed,-,-⟩ := packLoop_eq [] false (c.guard.mtu - c.guard.frameSetHeaderSize) c.guard.buf
  cases answer
  case pending | readyError => exact .inl ⟨_,rfl,.inr (.inl rfl)⟩
  all_goals
    simp only [Conn.frameSetStep,packed,List.nil_append,Bool.false_or,reduceCtorEq,if_false]
    split_ifs
    all_goals first
      | exact .inl ⟨_,rfl,.inl rfl⟩
      | exact .inl ⟨_,rfl,.inr (.inr (.inl rfl))⟩
      | exact .inl ⟨_,rfl,.inr (.inr (.inr rfl))⟩
      | exact .inr (.inl ⟨_,rfl⟩)
      | exact .inr (.inr ⟨_,_,_,rfl⟩)

theorem advance_shape (answer : SinkAnswer) : StepShape c (c.advance answer) (answer = .sendError) := by
  unfold Conn.advance
  split
  · exact .inl ⟨rfl,rfl,rfl,rfl,rfl,rfl⟩
  · exact .inl ⟨rfl,rfl,rfl,rfl,rfl,rfl⟩
  · exact .inl ⟨rfl,rfl,rfl,rfl,rfl,rfl⟩
  · exact .inl (flushCheckStep_frozen _ _ _)
  · exact .inl (controlStep_frozen _ _ _ _ (fun _ => by rfl) _)
  · exact .inl (controlStep_frozen _ _ _ _ (fun _ => by rfl) _)
  · exact .inl (unconnectedStep_frozen _ _ _ _)
  · exact frameSetStep_shape _ _ _ _
  · exact .inl (closeAssertStep_frozen _ _)

theorem step_shape (e : ConnEvent) : StepShape c (c.step e) (e = .writer .sendError) := by
  cases e with
  | peer e => exact .inl ⟨rfl,rfl,rfl,rfl,rfl,rfl⟩
  | startSend frame =>
    simp only [Conn.step]
    split
    · exact .inr (.inl ⟨frame,rfl⟩)
    · exact .inl ⟨rfl,rfl,rfl,rfl,rfl,rfl⟩
  | poll call strategy stale =>
    simp only [Conn.step]
    split
    · exact .inr (.inr (.inl ⟨call,strategy,stale,rfl⟩))
    · exact .inl ⟨rfl,rfl,rfl,rfl,rfl,rfl⟩
  | writer answer =>
    have shape := advance_shape c answer
    simpa only [Conn.step,ConnEvent.writer.injEq] using shape

end Shapes

-- Every reliable frame of `submitted` is, as many times as it was given, in the buffer, in the
-- resend map, or in a frame-set an incoming ACK removed from the map.
def FramesAccounted (c : Conn) (submitted : List Frame) : Prop :=
  ((c.guard.buf ++ c.guard.resend.frames ++ c.ackedSets.flatMap (·.2)).filter Frame.reliable).Perm
    (submitted.filter Frame.reliable)

-- Every frame-set sent with a reliable frame is, with its whole frame list, in the resend map,
-- among those an ACK removed, or among those a NACK or a stale scan moved back to the buffer.
def SetsAccounted (c : Conn) : Prop :=
  (c.frameSets.filter (hasReliable ·.2)).Perm (c.guard.resend.entries ++ c.ackedSets ++ c.requeued)

-- The frame-sets were numbered 0, 1, 2, ..., and the write index holds the next unless its
-- increment panicked after number 2^24 - 1.
def SeqsCounted (c : Conn) : Prop :=
  c.frameSets.map (·.1.val) = List.range c.frameSets.length ∧
    (c.guard.seqNumWriteIndex.val = c.frameSets.length ∨
      c.phase = .panicked .writeIndexOverflow ∧ 2 ^ 24 ≤ c.frameSets.length)

-- An entry left the resend map on an ACK only when that ACK covered its number.
def AckedCovered (c : Conn) : Prop := ∀ e ∈ c.ackedSets, ∃ ack ∈ c.acksIn, e.1.val ∈ ack.covered

-- The frame-set bookkeeping, which holds along every run.
structure Numbered (c : Conn) : Prop where
  sets : SetsAccounted c
  seqs : SeqsCounted c
  acked : AckedCovered c

-- With the frames themselves, accounted for while the sink refuses no frame-set.
structure Accounted (c : Conn) extends Numbered c : Prop where
  frames : FramesAccounted c c.submitted

section Preservation

variable {c d : Conn}

theorem foldl_invariant {α : Type} (P : Conn → Prop) (f : Conn → α → Conn) (keeps : ∀ c a, P c → P (f c a)) :
    ∀ (l : List α) (c : Conn), P c → P (l.foldl f c)
  | [],_,valid => valid
  | a :: l,c,valid => foldl_invariant P f keeps l (f c a) (keeps c a valid)

-- A stopped writer task does nothing more: later events reach its link only.
theorem step_panicked {fault : GuardFault} (stopped : c.phase = .panicked fault) (e : ConnEvent) :
    c.step e = {c with sys := (c.step e).sys} := by
  cases c
  subst stopped
  cases e <;> rfl

theorem begin_frameSets (call : Call) (strategy : Option FlushStrategy) (stale : List Uint24le) :
    (c.begin call strategy stale).frameSets = c.frameSets := by
  unfold Conn.begin
  obtain ⟨⟨acks,nacks⟩,sys⟩ := c.sys.takeIncoming
  have drained := foldl_invariant (·.frameSets = c.frameSets) Conn.absorbAck (fun _ _ same => same) acks
    {c with sys := sys} rfl
  exact foldl_invariant (·.frameSets = c.frameSets) Conn.absorbNack (fun _ _ same => same) nacks _ drained

-- The start of `try_empty` moves frames between the resend map and the buffer only: the write
-- index, the capacity and what was submitted stay.
theorem begin_guard (call : Call) (strategy : Option FlushStrategy) (stale : List Uint24le) :
    (c.begin call strategy stale).guard.seqNumWriteIndex = c.guard.seqNumWriteIndex ∧
      (c.begin call strategy stale).guard.cap = c.guard.cap ∧ (c.begin call strategy stale).submitted = c.submitted := by
  unfold Conn.begin
  obtain ⟨⟨acks,nacks⟩,sys⟩ := c.sys.takeIncoming
  let Kept (d : Conn) : Prop :=
    d.guard.seqNumWriteIndex = c.guard.seqNumWriteIndex ∧ d.guard.cap = c.guard.cap ∧ d.submitted = c.submitted
  have drained := foldl_invariant Kept Conn.absorbAck (fun _ _ same => same) acks {c with sys := sys} ⟨rfl,rfl,rfl⟩
  exact foldl_invariant Kept Conn.absorbNack (fun _ _ same => same) nacks _ drained

theorem Frozen.numbered (frozen : Frozen c d) (valid : Numbered c)
    (counted : c.guard.seqNumWriteIndex.val = c.frameSets.length) : Numbered d := by
  obtain ⟨guard,-,acksIn,ackedSets,requeued,frameSets⟩ := frozen
  obtain ⟨sets,seqs,acked⟩ := valid
  exact ⟨by rw [SetsAccounted,frameSets,guard,ackedSets,requeued]; exact sets,
    by rw [SeqsCounted,frameSets,guard]; exact ⟨seqs.1,.inl counted⟩,by rw [AckedCovered,ackedSets,acksIn]; exact acked⟩

theorem Frozen.frames (frozen : Frozen c d) (valid : FramesAccounted c c.submitted) : FramesAccounted d d.submitted := by
  rw [FramesAccounted,frozen.guard,frozen.ackedSets,frozen.submitted]; exact valid

theorem startSend_frames (valid : FramesAccounted c c.submitted) (frame : Frame) :
    FramesAccounted ((c.startSend frame).setPhase .idle) ((c.startSend frame).setPhase .idle).submitted := by
  refine List.perm_iff_count.mpr fun a => ?_
  have old := List.perm_iff_count.mp valid a
  simp only [Conn.startSend,Conn.setPhase,List.filter_append,List.count_append] at old ⊢
  omega

theorem absorbAck_ackedCovered (valid : AckedCovered c) (ack : Ack) : AckedCovered (c.absorbAck ack) := by
  intro e mem
  rcases List.mem_append.mp mem with old | removed
  · obtain ⟨ack',mem',covered⟩ := valid e old
    exact ⟨ack',List.mem_append_left _ mem',covered⟩
  · exact ⟨ack,List.mem_append_right _ (List.mem_singleton_self _),of_decide_eq_true (mem_extract_fst.mp removed).2⟩

-- An ACK or a requeue moves whole entries out of the resend map, each into the list that records
-- it.
theorem absorbAck_numbered (valid : Numbered c) (ack : Ack) : Numbered (c.absorbAck ack) := by
  refine ⟨List.perm_iff_count.mpr fun e => ?_,valid.seqs,absorbAck_ackedCovered valid.acked ack⟩
  have old := List.perm_iff_count.mp valid.sets e
  have moved := (extract_perm c.guard.resend (·.val ∈ ack.covered)).count_eq e
  simp only [Conn.absorbAck,Conn.frameSets,ResendMap.onAck,List.count_append] at old moved ⊢
  omega

theorem absorbAck_frames (valid : FramesAccounted c c.submitted) (ack : Ack) :
    FramesAccounted (c.absorbAck ack) (c.absorbAck ack).submitted := by
  refine List.perm_iff_count.mpr fun a => ?_
  have old := List.perm_iff_count.mp valid a
  have moved := (((extract_perm c.guard.resend (·.val ∈ ack.covered)).flatMap_right (·.2)).filter Frame.reliable).count_eq a
  simp only [Conn.absorbAck,ResendMap.onAck,ResendMap.frames,List.filter_append,List.count_append,
    List.flatMap_append] at old moved ⊢
  omega

theorem absorbRequeue_numbered (valid : Numbered c) (chosen : Uint24le → Bool) : Numbered (c.absorbRequeue chosen) := by
  refine ⟨List.perm_iff_count.mpr fun e => ?_,valid.seqs,valid.acked⟩
  have old := List.perm_iff_count.mp valid.sets e
  have moved := (extract_perm c.guard.resend chosen).count_eq e
  simp only [Conn.absorbRequeue,Conn.frameSets,requeue_eq,List.count_append] at old moved ⊢
  omega

theorem absorbRequeue_frames (valid : FramesAccounted c c.submitted) (chosen : Uint24le → Bool) :
    FramesAccounted (c.absorbRequeue chosen) (c.absorbRequeue chosen).submitted := by
  refine List.perm_iff_count.mpr fun a => ?_
  have old := List.perm_iff_count.mp valid a
  have moved := (((extract_perm c.guard.resend chosen).flatMap_right (·.2)).filter Frame.reliable).count_eq a
  simp only [Conn.absorbRequeue,requeue_eq,ResendMap.frames,List.filter_append,List.count_append,
    List.flatMap_append] at old moved ⊢
  omega

theorem begin_numbered (valid : Numbered c) (counted : c.guard.seqNumWriteIndex.val = c.frameSets.length)
    (call : Call) (strategy : Option FlushStrategy) (stale : List Uint24le) : Numbered (c.begin call strategy stale) := by
  have kept : (c.begin call strategy stale).guard.seqNumWriteIndex.val = (c.begin call strategy stale).frameSets.length := by
    rw [(begin_guard call strategy stale).1,begin_frameSets,counted]
  unfold Conn.begin at kept ⊢
  generalize c.sys.takeIncoming = taken at kept ⊢
  obtain ⟨⟨acks,nacks⟩,sys⟩ := taken
  have drained := foldl_invariant Numbered _ (fun _ ack valid => absorbAck_numbered valid ack) acks {c with sys := sys}
    ⟨valid.sets,valid.seqs,valid.acked⟩
  have requeued := foldl_invariant Numbered Conn.absorbNack (fun _ _ valid => absorbRequeue_numbered valid _) nacks _ drained
  exact (frozen_setPhase _ _).numbered (absorbRequeue_numbered requeued _) kept

theorem begin_frames (valid : FramesAccounted c c.submitted) (call : Call) (strategy : Option FlushStrategy)
    (stale : List Uint24le) : FramesAccounted (c.begin call strategy stale) (c.begin call strategy stale).submitted := by
  unfold Conn.begin
  obtain ⟨⟨acks,nacks⟩,sys⟩ := c.sys.takeIncoming
  have drained := foldl_invariant (fun d => FramesAccounted d d.submitted) _ (fun _ ack valid => absorbAck_frames valid ack)
    acks {c with sys := sys} valid
  have requeued := foldl_invariant (fun d => FramesAccounted d d.submitted) Conn.absorbNack
    (fun _ _ valid => absorbRequeue_frames valid _) nacks _ drained
  exact (frozen_setPhase _ _).frames (absorbRequeue_frames requeued _)

theorem emit_frameSets (frames : List Frame) (reliable : Bool) (rest : List Frame) (next : Phase) :
    (c.emit frames reliable rest next).frameSets = c.frameSets ++ [(c.guard.seqNumWriteIndex,frames)] := by
  simp [emit_eq,Conn.frameSets,List.filterMap_append,Outgoing.frameSet?]

-- The frame-sets an end sent are numbered below their count.
theorem SeqsCounted.below (seqs : SeqsCounted c) : ∀ x ∈ c.frameSets, x.1.val < c.frameSets.length := fun x mem => by
  have listed : x.1.val ∈ c.frameSets.map (·.1.val) := List.mem_map_of_mem _ mem
  rw [seqs.1] at listed
  exact List.mem_range.mp listed

theorem emit_seqsCounted (seqs : SeqsCounted c) (counted : c.guard.seqNumWriteIndex.val = c.frameSets.length)
    (frames : List Frame) (reliable : Bool) (rest : List Frame) (next : Phase) :
    SeqsCounted (c.emit frames reliable rest next) := by
  rw [SeqsCounted,emit_frameSets,List.map_append,seqs.1,List.length_append,List.length_singleton,
    List.range_succ]
  refine ⟨by simp [counted],?_⟩
  by_cases fits : c.guard.seqNumWriteIndex.val + 1 < 2 ^ 24
  · left; simp only [emit_eq,fits,↓reduceIte]; omega
  · right; simp only [emit_eq,fits,↓reduceIte,true_and]; omega

-- The write index is a number no frame-set still in the resend map carries.
theorem Numbered.fresh (valid : Numbered c) (counted : c.guard.seqNumWriteIndex.val = c.frameSets.length) :
    ∀ e ∈ c.guard.resend.entries, e.1 ≠ c.guard.seqNumWriteIndex := fun e mem same => by
  have sent := List.mem_of_mem_filter (valid.sets.mem_iff.mpr (List.mem_append_left _ (List.mem_append_left _ mem)))
  have := valid.seqs.below e sent
  rw [same,counted] at this
  exact Nat.lt_irrefl _ this

theorem emit_numbered (valid : Numbered c) (counted : c.guard.seqNumWriteIndex.val = c.frameSets.length)
    (frames rest : List Frame) (next : Phase) : Numbered (c.emit frames (hasReliable frames) rest next) := by
  refine ⟨List.perm_iff_count.mpr fun e => ?_,emit_seqsCounted valid.seqs counted _ _ _ _,
    by simpa [emit_eq] using valid.acked⟩
  have old := List.perm_iff_count.mp valid.sets e
  rw [emit_frameSets]
  cases reliable : hasReliable frames
  · simpa [emit_eq,reliable,List.filter_append] using old
  · have moved := (@record_perm c.guard.resend c.guard.seqNumWriteIndex frames (valid.fresh counted)).count_eq e
    simp only [emit_eq,reliable,if_true,List.filter_append,List.filter_singleton,List.count_append,
      List.count_cons,List.count_nil,cond_true] at old moved ⊢
    omega

theorem emit_frames (valid : Accounted c) (counted : c.guard.seqNumWriteIndex.val = c.frameSets.length)
    {frames rest : List Frame} (split : c.guard.buf = frames ++ rest) (next : Phase) :
    FramesAccounted (c.emit frames (hasReliable frames) rest next) (c.emit frames (hasReliable frames) rest next).submitted := by
  refine List.perm_iff_count.mpr fun a => ?_
  have old := List.perm_iff_count.mp valid.frames a
  cases reliable : hasReliable frames
  · have none : frames.filter Frame.reliable = [] := List.filter_eq_nil_iff.mpr (by simpa [hasReliable] using reliable)
    simp only [FramesAccounted,emit_eq,reliable,Bool.false_eq_true,if_false,split,List.filter_append,none,
      List.nil_append] at old ⊢
    omega
  · have moved := (((@record_perm c.guard.resend c.guard.seqNumWriteIndex frames (valid.fresh counted)).flatMap_right (·.2)).filter
      Frame.reliable).count_eq a
    simp only [FramesAccounted,emit_eq,reliable,if_true,ResendMap.frames,split,List.filter_append,List.flatMap_cons,
      List.count_append] at old moved ⊢
    omega

-- The numbering survives every step, a refused frame-set included: it only loses buffered frames.
theorem step_numbered (valid : Numbered c) (e : ConnEvent) : Numbered (c.step e) := by
  rcases valid.seqs.2 with counted | ⟨stopped,-⟩
  · rcases step_shape c e with frozen | ⟨frame,next⟩ | ⟨call,strategy,stale,next⟩ |
      ⟨frames,rest,phase,-,-,next⟩ | ⟨-,frames,rest,-,next⟩
    · exact frozen.numbered valid counted
    · rw [next]; exact ⟨valid.sets,⟨valid.seqs.1,.inl counted⟩,valid.acked⟩
    · rw [next]; exact begin_numbered valid counted call strategy stale
    · rw [next]; exact emit_numbered valid counted frames rest phase
    · rw [next]; exact ⟨valid.sets,⟨valid.seqs.1,.inl counted⟩,valid.acked⟩
  · rw [step_panicked stopped e]; exact ⟨valid.sets,valid.seqs,valid.acked⟩

theorem step_accounted (valid : Accounted c) (e : ConnEvent) (noError : e.NoSinkError) : Accounted (c.step e) := by
  refine ⟨step_numbered valid.toNumbered e,?_⟩
  rcases valid.seqs.2 with counted | ⟨stopped,-⟩
  · rcases step_shape c e with frozen | ⟨frame,next⟩ | ⟨call,strategy,stale,next⟩ |
      ⟨frames,rest,phase,split,-,next⟩ | ⟨refused,-⟩
    · exact frozen.frames valid.frames
    · rw [next]; exact startSend_frames valid.frames frame
    · rw [next]; exact begin_frames valid.frames call strategy stale
    · rw [next]; exact emit_frames valid counted split phase
    · subst refused
      simp [ConnEvent.NoSinkError] at noError
  · rw [step_panicked stopped e]; exact valid.frames

-- The numbering alone holds from any guard whose write index starts at 0.
theorem step_seqsCounted (seqs : SeqsCounted c) (e : ConnEvent) : SeqsCounted (c.step e) := by
  rcases seqs.2 with counted | ⟨stopped,-⟩
  · rcases step_shape c e with frozen | ⟨_,next⟩ | ⟨call,strategy,stale,next⟩ | ⟨frames,rest,phase,-,-,next⟩ |
      ⟨-,_,_,-,next⟩
    · rw [SeqsCounted,frozen.frameSets,frozen.guard]; exact ⟨seqs.1,.inl counted⟩
    all_goals rw [next]
    · exact ⟨seqs.1,.inl counted⟩
    · rw [SeqsCounted,begin_frameSets,(begin_guard call strategy stale).1]; exact ⟨seqs.1,.inl counted⟩
    · exact emit_seqsCounted seqs counted frames _ rest phase
    · exact ⟨seqs.1,.inl counted⟩
  · rw [step_panicked stopped e]; exact seqs

theorem step_frameSets_length (c : Conn) (e : ConnEvent) : c.frameSets.length ≤ (c.step e).frameSets.length := by
  rcases step_shape c e with frozen | ⟨frame,next⟩ | ⟨call,strategy,stale,next⟩ |
    ⟨frames,rest,phase,-,-,next⟩ | ⟨-,frames,rest,-,next⟩
  · exact (congrArg List.length frozen.frameSets).symm.le
  · rw [next]; exact Nat.le_refl _
  · rw [next,begin_frameSets]
  · rw [next,emit_frameSets,List.length_append]
    exact Nat.le_add_right _ _
  · rw [next]; exact Nat.le_refl _

-- A step that sends a frame-set holding a reliable frame records it, with its whole frame list.
theorem step_records (c : Conn) (e : ConnEvent) {seqNum : Uint24le} {frames : List Frame}
    (sent : (c.step e).frameSets = c.frameSets ++ [(seqNum,frames)]) (reliable : hasReliable frames) :
    (seqNum,frames) ∈ (c.step e).guard.resend.entries := by
  rcases step_shape c e with frozen | ⟨frame,next⟩ | ⟨call,strategy,stale,next⟩ |
    ⟨taken,rest,phase,-,-,next⟩ | ⟨-,taken,rest,-,next⟩
  · rw [frozen.frameSets] at sent; simp at sent
  · have same : ((c.startSend frame).setPhase .idle).frameSets = c.frameSets := rfl
    rw [next,same] at sent; simp at sent
  · rw [next,begin_frameSets] at sent; simp at sent
  · rw [next] at sent ⊢
    rw [emit_frameSets] at sent
    obtain ⟨rfl,rfl⟩ := Prod.mk.inj (List.singleton_inj.mp (List.append_cancel_left sent))
    simp only [emit_eq,reliable,if_true]
    exact mem_record
  · have same : {c with guard := {c.guard with buf := rest},phase := .idle}.frameSets = c.frameSets := rfl
    rw [next,same] at sent; simp at sent

theorem advance_submitted (c : Conn) (answer : SinkAnswer) : (c.advance answer).submitted = c.submitted := by
  unfold Conn.advance
  split
  case h_4 => exact (flushCheckStep_frozen _ _ _).submitted
  case h_5 | h_6 => exact (controlStep_frozen _ _ _ _ (fun _ => by rfl) _).submitted
  case h_7 => exact (unconnectedStep_frozen _ _ _ _).submitted
  case h_8 _ call strategy _ =>
    rcases frameSetStep_cases c call strategy answer with ⟨_,next,-⟩ | ⟨_,next⟩ | ⟨_,_,_,next⟩ <;> rw [next]
    · rfl
    · simp [emit_eq]
  case h_9 => exact (closeAssertStep_frozen _ _).submitted
  all_goals rfl

-- What a run submitted is what its `start_send` events gave.
theorem step_submitted (c : Conn) (e : ConnEvent) : (c.step e).submitted = c.submitted ++ c.sends e := by
  cases e with
  | startSend frame => simp only [Conn.step,Conn.sends]; split <;> simp [Conn.startSend,Conn.setPhase]
  | poll call strategy stale => simp only [Conn.step,Conn.sends]; split <;> simp [(begin_guard call strategy stale).2.2]
  | writer answer => simp [Conn.step,Conn.sends,advance_submitted]
  | peer => simp [Conn.step,Conn.sends]

theorem run_submitted (c : Conn) (events : List ConnEvent) : (c.run events).submitted = c.submitted ++ c.given events :=
  foldl_collect Conn.submitted step_submitted events c

end Preservation

section Runs

theorem run_frameSets_length : ∀ (events : List ConnEvent) (c : Conn),
    c.frameSets.length ≤ (c.run events).frameSets.length
  | [],_ => Nat.le_refl _
  | e :: events,c => (step_frameSets_length c e).trans (run_frameSets_length events (c.step e))

theorem run_numbered : ∀ (events : List ConnEvent) (c : Conn), Numbered c → Numbered (c.run events)
  | [],_,valid => valid
  | e :: events,c,valid => run_numbered events (c.step e) (step_numbered valid e)

theorem run_accounted : ∀ (events : List ConnEvent) (c : Conn), Accounted c → (∀ e ∈ events, e.NoSinkError) →
    Accounted (c.run events)
  | [],_,valid,_ => valid
  | e :: events,c,valid,noError =>
    run_accounted events (c.step e) (step_accounted valid e (noError e (List.mem_cons_self _ _)))
      (fun e' mem => noError e' (List.mem_cons_of_mem _ mem))

theorem start_accounted (link : TransferLink) (cap mtu frameSetHeaderSize : Nat) :
    Accounted (Conn.start link (Guard.new cap mtu frameSetHeaderSize)) :=
  ⟨⟨List.Perm.refl _,⟨rfl,.inl rfl⟩,fun _ mem => absurd mem (List.not_mem_nil _)⟩,List.Perm.refl _⟩

-- Numbers 0, 1, 2, ... in order: each frame-set's number is above every earlier one's.
theorem SeqsCounted.increasing {c : Conn} (seqs : SeqsCounted c) : c.frameSets.Pairwise (fun a b => a.1.val < b.1.val) :=
  List.pairwise_map.mp (seqs.1 ▸ List.pairwise_lt_range _)

-- So no two frame-sets an end sent share a number.
theorem SeqsCounted.unique {c : Conn} (seqs : SeqsCounted c) :
    ∀ e ∈ c.frameSets, ∀ e' ∈ c.frameSets, e.1 = e'.1 → e = e' := fun _ mem _ mem' same =>
  List.inj_on_of_nodup_map (seqs.1 ▸ List.nodup_range _) mem mem' (congrArg Uint24le.val same)

theorem reliable_frames_accounted (link : TransferLink) (cap mtu frameSetHeaderSize : Nat) (events : List ConnEvent)
    (noSinkError : ∀ e ∈ events, e.NoSinkError) :
    let c := (Conn.start link (Guard.new cap mtu frameSetHeaderSize)).run events
    FramesAccounted c ((Conn.start link (Guard.new cap mtu frameSetHeaderSize)).given events) ∧ SetsAccounted c ∧
      AckedCovered c ∧ c.frameSets.Pairwise (fun a b => a.1.val < b.1.val) ∧
      ∀ e seqNum frames, (c.step e).frameSets = c.frameSets ++ [(seqNum,frames)] → hasReliable frames →
        (seqNum,frames) ∈ (c.step e).guard.resend.entries := by
  intro c
  have valid := run_accounted events _ (start_accounted link cap mtu frameSetHeaderSize) noSinkError
  have given : c.submitted = (Conn.start link (Guard.new cap mtu frameSetHeaderSize)).given events := by
    simpa using run_submitted (Conn.start link (Guard.new cap mtu frameSetHeaderSize)) events
  exact ⟨given ▸ valid.frames,valid.sets,valid.acked,valid.seqs.increasing,
    fun e _ _ sent reliable => step_records c e sent reliable⟩

theorem reliable_frames_accounted_sample :
    let events : List ConnEvent := [.startSend ⟨.reliable,10⟩,.poll .ready none [],.writer .ready,.writer .ready,
      .writer .ready,.writer .ready,.writer .ready,.writer .ready]
    (∀ e ∈ events, e.NoSinkError) ∧
      FramesAccounted ((Conn.start TransferLink.new (Guard.new 2 1400 4)).run events)
        ((Conn.start TransferLink.new (Guard.new 2 1400 4)).given events) :=
  ⟨by decide,(reliable_frames_accounted TransferLink.new 2 1400 4 _ (by decide)).1⟩

end Runs

end RaknetRs
