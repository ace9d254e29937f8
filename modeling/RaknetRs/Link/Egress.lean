import RaknetRs.Link.System

namespace RaknetRs

-- The order the NACK set iterates in: `BTreeSet<Reverse<u24>>` yields each number once, the
-- greatest first.
def Descending (seqNums : List Uint24le) : Prop := seqNums.Sorted (fun a b => b.val < a.val)

instance (seqNums : List Uint24le) : Decidable (Descending seqNums) := inferInstanceAs (Decidable (List.Pairwise _ _))

section Descending

variable {first last : Uint24le} {seqNums : List Uint24le}

-- Over numbers that only go down no number is the last one plus one: every run is one number.
theorem runsFrom_descending (desc : Descending (last :: seqNums)) :
    runsFrom first last seqNums = (first,last) :: seqNums.map fun x => (x,x) := by
  induction seqNums generalizing first last with
  | nil => rfl
  | cons x rest ih =>
    obtain ⟨below,desc⟩ := List.sorted_cons.mp desc
    have down : x.val < last.val := below x (List.mem_cons_self _ _)
    rw [runsFrom,if_neg (by omega),ih desc]
    rfl

theorem runs_descending (desc : Descending seqNums) : runs seqNums = seqNums.map fun x => (x,x) := by
  cases seqNums with
  | nil => rfl
  | cons x rest => exact runsFrom_descending desc

end Descending

section Egress

variable {mtu : Nat}

-- What the two egress calls send. The ACK packet is the runs, by `next == last + 1`, of the
-- numbers popped from the heap, and covers them with their repetitions; the NACK set comes in
-- greatest first, so its packet is one Single per number.
theorem egress_records_follow_successor (fits : 7 ≤ mtu) (link : TransferLink) :
    (∀ ack after, link.processOutgoingAck mtu = .ok (some ack,after) → ∃ k, 0 < k ∧
      after.outgoingAck = link.outgoingAck.drop k ∧
      ack.records = (runs (link.outgoingAck.take k)).map (fun r => runRecord r.1 r.2) ∧
      ack.covered = (link.outgoingAck.take k).map Uint24le.val) ∧
    (Descending link.outgoingNack → ∀ nack, link.processOutgoingNack mtu = .ok (some nack) →
      ∃ k, 0 < k ∧ nack.records = (link.outgoingNack.take k).map Record.single) := by
  refine ⟨fun ack after taken => ?_,fun desc nack taken => ?_⟩
  · obtain ⟨⟨pulled,remaining⟩,packed,done⟩ := bind_eq_ok.mp taken
    cases done
    obtain ⟨k,positive,rfl,records,covered⟩ := extendFrom_packs_runs fits packed
    exact ⟨k,positive,rfl,records,covered⟩
  · obtain ⟨⟨pulled,remaining⟩,packed,done⟩ := bind_eq_ok.mp taken
    cases done
    obtain ⟨k,positive,-,records,-⟩ := extendFrom_packs_runs fits packed
    refine ⟨k,positive,?_⟩
    rw [records,runs_descending (desc.sublist (List.take_sublist k _)),List.map_map]
    exact List.map_congr_left fun x _ => by simp [runRecord]

-- Frame-set 2 delivered twice from the start: the heap holds 2 twice and the NACK set {1, 0}.
-- The ACK goes out as two Singles of 2, the NACK as Single(1), Single(0) and not Range(0, 1).
theorem egress_records_follow_successor_sample :
    let link := ((LinkSystem.start TransferLink.new).run [.deliver (.frameSet {sampleFrameSet with seqNum := ⟨2⟩}),
      .deliverRest,.deliver (.frameSet {sampleFrameSet with seqNum := ⟨2⟩}),.deliverRest]).link
    (7 ≤ 1400 ∧ link.outgoingAck = [⟨2⟩,⟨2⟩] ∧ link.outgoingNack = [⟨1⟩,⟨0⟩] ∧ Descending link.outgoingNack ∧
      link.processOutgoingAck 1400 = .ok (some ⟨[.single ⟨2⟩,.single ⟨2⟩]⟩,{link with outgoingAck := []}) ∧
      link.processOutgoingNack 1400 = .ok (some ⟨[.single ⟨1⟩,.single ⟨0⟩]⟩)) ∧
      ∀ nack, link.processOutgoingNack 1400 = .ok (some nack) →
        ∃ k, 0 < k ∧ nack.records = (link.outgoingNack.take k).map Record.single :=
  ⟨by decide,(egress_records_follow_successor (by decide) _).2 (by decide)⟩

end Egress

end RaknetRs
