import Mathlib.Algebra.BigOperators.Group.List
import RaknetRs.Guard.Accounting

namespace RaknetRs

-- One round of the packing loop on a buffer whose frames each fit the budget: it takes the
-- longest prefix (the back of the `VecDeque`) whose sizes fit, something whenever there is
-- anything, and its flag says whether a reliable frame is among them.
theorem packLoop_longest (budget : Nat) (buf : List Frame) (fit : ∀ f ∈ buf, f.size ≤ budget) :
    ∃ frames rest, buf = frames ++ rest ∧ packLoop [] false budget buf = (frames,hasReliable frames,rest) ∧
      (buf ≠ [] → frames ≠ []) ∧ (frames.map Frame.size).sum ≤ budget ∧
      ∀ j ≤ buf.length, frames.length < j → budget < ((buf.take j).map Frame.size).sum := by
  obtain ⟨frames,rest,split,packed,sum,stop⟩ := packLoop_eq [] false budget buf
  refine ⟨frames,rest,split,by simpa using packed,fun full empty => ?_,sum,fun j within longer => ?_⟩
  · subst empty
    obtain ⟨f,rest,rfl⟩ := List.exists_cons_of_ne_nil (by simpa [split] using full)
    have := stop f (by simp)
    have := fit f (by simp [split])
    simp at *; omega
  · cases rest with
    | nil => simp [split] at within; omega
    | cons f rest =>
      have over := stop f (by simp)
      have tail : j - frames.length = (j - frames.length - 1) + 1 := by omega
      rw [split,List.take_append_eq_append_take,List.take_of_length_le (by omega),tail,List.take_succ_cons]
      simp only [List.map_append,List.map_cons,List.sum_append,List.sum_cons]
      omega

theorem frameSetStep_ready (c : Conn) (call : Call) (strategy : FlushStrategy)
    (header : c.guard.frameSetHeaderSize ≤ c.guard.mtu)
    (fit : ∀ f ∈ c.guard.buf, f.size ≤ c.guard.mtu - c.guard.frameSetHeaderSize) :
    ∃ frames rest, c.guard.buf = frames ++ rest ∧ (c.guard.buf ≠ [] → frames ≠ []) ∧
      (frames.map Frame.size).sum ≤ c.guard.mtu - c.guard.frameSetHeaderSize ∧
      (∀ j ≤ c.guard.buf.length, frames.length < j →
        c.guard.mtu - c.guard.frameSetHeaderSize < ((c.guard.buf.take j).map Frame.size).sum) ∧
      c.frameSetStep call strategy .ready = if frames = [] then c.setPhase (.flushCheck call strategy)
        else c.emit frames (hasReliable frames) rest (.flushCheck call strategy) := by
  obtain ⟨frames,rest,split,packed,nonEmpty,sum,longest⟩ := packLoop_longest _ c.guard.buf fit
  refine ⟨frames,rest,split,nonEmpty,sum,longest,?_⟩
  have notBelow : ¬c.guard.mtu < c.guard.frameSetHeaderSize := by omega
  by_cases empty : frames = []
  · have drained : rest = [] := by
      subst empty
      by_contra left
      exact nonEmpty (by simpa [split] using left) rfl
    simp [Conn.frameSetStep,notBelow,packed,empty,drained]
  · simp [Conn.frameSetStep,notBelow,packed,empty]

-- What left the buffer, in order, followed by the buffer, is a shuffle of the frames given to
-- `start_send` and those re-queued, in which the submitted frames keep their order; the frames
-- sent in frame-sets are among what left, in order (those the sink refused are the others).
def FifoOrder (c : Conn) (submitted : List Frame) : Prop :=
  ∃ left : List Frame, (c.frameSets.flatMap (·.2)).Sublist left ∧ submitted.Sublist (left ++ c.guard.buf) ∧
    (left ++ c.guard.buf).Perm (submitted ++ c.requeued.flatMap (·.2))

section Fifo

variable {c d : Conn}

theorem Frozen.fifo (frozen : Frozen c d) (valid : FifoOrder c c.submitted) : FifoOrder d d.submitted := by
  rw [FifoOrder,frozen.frameSets,frozen.guard,frozen.submitted,frozen.requeued]
  exact valid

theorem startSend_fifo (valid : FifoOrder c c.submitted) (frame : Frame) :
    FifoOrder (c.startSend frame) (c.submitted ++ [frame]) := by
  obtain ⟨left,sent,submitted,perm⟩ := valid
  refine ⟨left,sent,by simpa [Conn.startSend] using submitted.append (List.Sublist.refl [frame]),?_⟩
  simp only [Conn.startSend,← List.append_assoc]
  exact (perm.append_right [frame]).trans (by simp [List.perm_append_comm,List.perm_append_left_iff])

theorem absorbRequeue_fifo (valid : FifoOrder c c.submitted) (chosen : Uint24le → Bool) :
    FifoOrder (c.absorbRequeue chosen) c.submitted := by
  obtain ⟨left,sent,submitted,perm⟩ := valid
  refine ⟨left,sent,?_,?_⟩
  · simpa [Conn.absorbRequeue,requeue_eq] using submitted.trans (List.sublist_append_left _ _)
  · simpa [Conn.absorbRequeue,requeue_eq,List.flatMap_append] using perm.append_right _

theorem begin_fifo (valid : FifoOrder c c.submitted) (call : Call) (strategy : Option FlushStrategy)
    (stale : List Uint24le) : FifoOrder (c.begin call strategy stale) (c.begin call strategy stale).submitted := by
  unfold Conn.begin
  obtain ⟨⟨acks,nacks⟩,sys⟩ := c.sys.takeIncoming
  have drained := foldl_invariant (fun d => FifoOrder d d.submitted) Conn.absorbAck (fun _ _ valid => valid) acks _
    ((frozen_sys c sys c.phase).fifo valid)
  have requeued := foldl_invariant (fun d => FifoOrder d d.submitted) Conn.absorbNack
    (fun _ _ valid => absorbRequeue_fifo valid _) nacks _ drained
  exact (frozen_setPhase _ _).fifo (absorbRequeue_fifo requeued _)

theorem packed_fifo (valid : FifoOrder c c.submitted) {frames rest : List Frame} (split : c.guard.buf = frames ++ rest)
    (emitted : (d.frameSets.flatMap (·.2)).Sublist ((c.frameSets.flatMap (·.2)) ++ frames))
    (buf : d.guard.buf = rest) (submitted : d.submitted = c.submitted) (requeued : d.requeued = c.requeued) :
    FifoOrder d d.submitted := by
  obtain ⟨left,sent,before,perm⟩ := valid
  rw [split,← List.append_assoc] at before perm
  rw [FifoOrder,buf,submitted,requeued]
  exact ⟨left ++ frames,emitted.trans (sent.append (List.Sublist.refl frames)),before,perm⟩

theorem step_fifo (valid : FifoOrder c c.submitted) (e : ConnEvent) : FifoOrder (c.step e) (c.step e).submitted := by
  rcases step_shape c e with frozen | ⟨frame,next⟩ | ⟨call,strategy,stale,next⟩ |
    ⟨frames,rest,phase,split,-,next⟩ | ⟨-,frames,rest,split,next⟩
  · exact frozen.fifo valid
  · rw [next]; exact startSend_fifo valid frame
  · rw [next]; exact begin_fifo valid call strategy stale
  · rw [next]
    exact packed_fifo valid split (by simp [emit_frameSets]) (by simp [emit_eq]) (by simp [emit_eq]) (by simp [emit_eq])
  · rw [next]
    exact packed_fifo valid split (List.sublist_append_left _ _) rfl rfl rfl

theorem run_fifo : ∀ (events : List ConnEvent) (c : Conn), FifoOrder c c.submitted →
    FifoOrder (c.run events) (c.run events).submitted
  | [],_,valid => valid
  | e :: events,c,valid => run_fifo events (c.step e) (step_fifo valid e)

theorem FifoOrder.sent_sublist {submitted : List Frame} (valid : FifoOrder c submitted) (none : c.requeued = []) :
    (c.frameSets.flatMap (·.2)).Sublist submitted := by
  obtain ⟨left,sent,submitted,perm⟩ := valid
  rw [none,List.flatMap_nil,List.append_nil] at perm
  rw [submitted.eq_of_length perm.length_eq.symm]
  exact sent.trans (List.sublist_append_left _ _)

end Fifo

-- Each frame-set the packing loop builds is the longest fitting prefix of the buffer, taken from
-- its back, non-empty when the buffer is, with the reliable flag of its frames; so along every
-- run the frames that are not re-queued go out in submission order, none twice.
theorem frame_set_packs_longest_fit :
    (∀ (c : Conn) (call : Call) (strategy : FlushStrategy), c.guard.frameSetHeaderSize ≤ c.guard.mtu →
      (∀ f ∈ c.guard.buf, f.size ≤ c.guard.mtu - c.guard.frameSetHeaderSize) →
      ∃ frames rest, c.guard.buf = frames ++ rest ∧ (c.guard.buf ≠ [] → frames ≠ []) ∧
        (frames.map Frame.size).sum ≤ c.guard.mtu - c.guard.frameSetHeaderSize ∧
        (∀ j ≤ c.guard.buf.length, frames.length < j →
          c.guard.mtu - c.guard.frameSetHeaderSize < ((c.guard.buf.take j).map Frame.size).sum) ∧
        c.frameSetStep call strategy .ready = if frames = [] then c.setPhase (.flushCheck call strategy)
          else c.emit frames (hasReliable frames) rest (.flushCheck call strategy)) ∧
    ∀ (link : TransferLink) (cap mtu frameSetHeaderSize : Nat) (events : List ConnEvent),
      FifoOrder ((Conn.start link (Guard.new cap mtu frameSetHeaderSize)).run events)
        ((Conn.start link (Guard.new cap mtu frameSetHeaderSize)).given events) ∧
      (((Conn.start link (Guard.new cap mtu frameSetHeaderSize)).run events).requeued = [] →
        (((Conn.start link (Guard.new cap mtu frameSetHeaderSize)).run events).frameSets.flatMap (·.2)).Sublist
          ((Conn.start link (Guard.new cap mtu frameSetHeaderSize)).given events)) := by
  refine ⟨fun c call strategy header fit => frameSetStep_ready c call strategy header fit,
    fun link cap mtu frameSetHeaderSize events => ?_⟩
  have valid := run_fifo events (Conn.start link (Guard.new cap mtu frameSetHeaderSize))
    ⟨[],List.nil_sublist _,List.nil_sublist _,List.Perm.refl _⟩
  rw [run_submitted,Conn.start,List.nil_append] at valid
  exact ⟨valid,valid.sent_sublist⟩

end RaknetRs
