import RaknetRs.Packet.FrameSet

namespace RaknetRs

inductive Record where
  | range (start stop : Uint24le)
  | single (idx : Uint24le)
deriving DecidableEq, Repr

structure Ack where
  records : List Record
deriving DecidableEq, Repr

def recordRange : UInt8 := 0
def recordSingle : UInt8 := 1
def maxAcknowledgementPackets : Nat := 8192

-- u32 addition of a debug build.
def addU32 (a b : Nat) : Except Fault Nat := if a + b < 2 ^ 32 then .ok (a + b) else .error .panic

def Record.read (buf : List UInt8) : Except Fault (Record × List UInt8) := do
  let (recordType,buf) ← getU8 buf
  if recordType = recordRange then do
    let (start,buf) ← Uint24le.read buf
    let (stop,buf) ← Uint24le.read buf
    pure (.range start stop,buf)
  else if recordType = recordSingle then do
    let (idx,buf) ← Uint24le.read buf
    pure (.single idx,buf)
  else .error (.codec (.invalidRecordType recordType))

def Record.write : Record → List UInt8
  | .range start stop => [recordRange] ++ start.write ++ stop.write
  | .single idx => [recordSingle] ++ idx.write

-- `end.0 - start.0 + 1` in u32: a debug build panics on the subtraction when `end < start`.
def Record.ackCnt : Record → Except Fault Nat
  | .range start stop => if stop.val < start.val then .error .panic else addU32 (stop.val - start.val) 1
  | .single _ => .ok 1

-- The sequence numbers a record acknowledges: `start ..= end`, or the single one.
def Record.covered : Record → List Nat
  | .range start stop => List.range' start.val (stop.val + 1 - start.val)
  | .single idx => [idx.val]

def Ack.covered (ack : Ack) : List Nat := ack.records.flatMap Record.covered

-- The `for _ in 0..record_cnt` loop of `Ack::read`, with the running `ack_cnt`.
def Ack.readRecords : Nat → Nat → List UInt8 → Except Fault (List Record × List UInt8)
  | 0,_,buf => .ok ([],buf)
  | count+1,ackCnt,buf => do
    let (record,buf) ← Record.read buf
    let cnt ← record.ackCnt
    let ackCnt ← addU32 ackCnt cnt
    if ackCnt > maxAcknowledgementPackets then .error (.codec .ackCountExceed) else do
    let (records,buf) ← Ack.readRecords count ackCnt buf
    pure (record :: records,buf)

def Ack.read (buf : List UInt8) : Except Fault (Ack × List UInt8) := do
  let (recordCnt,buf) ← getU16 buf
  let (records,buf) ← Ack.readRecords recordCnt 0 buf
  pure (⟨records⟩,buf)

-- The count is `self.records.len() as u16`.
def Ack.write (ack : Ack) : List UInt8 := putU16 ack.records.length ++ ack.records.flatMap Record.write

def Record.WellFormed : Record → Prop
  | .range start stop => start.val ≤ stop.val ∧ stop.val < 2 ^ 24
  | .single idx => idx.val < 2 ^ 24

instance : DecidablePred Record.WellFormed
  | .range _ _ => inferInstanceAs (Decidable (_ ∧ _))
  | .single _ => inferInstanceAs (Decidable (_ < _))

section Records

variable {buf rest : List UInt8} {record : Record}

@[simp] theorem length_write_range (start stop : Uint24le) : (Record.range start stop).write.length = 7 := by
  simp [Record.write,Uint24le.write,putUintLe,length_leBytes]

@[simp] theorem length_write_single (idx : Uint24le) : (Record.single idx).write.length = 4 := by
  simp [Record.write,Uint24le.write,putUintLe,length_leBytes]

-- A Range record reads back whatever the order of its two numbers.
theorem range_read {start stop : Uint24le} (smallStart : start.val < 2 ^ 24) (smallStop : stop.val < 2 ^ 24)
    (rest : List UInt8) : Record.read ((Record.range start stop).write ++ rest) = .ok (.range start stop,rest) := by
  simp [Record.write,Record.read,recordRange,uint24_roundtrip smallStart,uint24_roundtrip smallStop,pure,Except.pure]

theorem record_roundtrip (wf : record.WellFormed) (rest : List UInt8) :
    Record.read (record.write ++ rest) = .ok (record,rest) := by
  cases record with
  | range start stop => exact range_read (lt_of_le_of_lt wf.1 wf.2) wf.2 rest
  | single idx => simp [Record.write,Record.read,recordSingle,recordRange,uint24_roundtrip wf,pure,Except.pure]

theorem record_canonical (read : Record.read buf = .ok (record,rest)) :
    buf = record.write ++ rest := by
  cases buf with
  | nil => cases read
  | cons b buf =>
    simp only [Record.read,getU8_cons,bind_ok_eq] at read
    split at read
    · rename_i isRange
      obtain ⟨⟨start,buf₁⟩,gotStart,read⟩ := bind_eq_ok.mp read
      obtain ⟨⟨stop,buf₂⟩,gotStop,done⟩ := bind_eq_ok.mp read
      cases done
      obtain ⟨rfl,-⟩ := uint24_canonical gotStart
      obtain ⟨rfl,-⟩ := uint24_canonical gotStop
      simp [Record.write,isRange]
    · split at read
      · rename_i isSingle
        obtain ⟨⟨idx,buf₁⟩,gotIdx,done⟩ := bind_eq_ok.mp read
        cases done
        obtain ⟨rfl,-⟩ := uint24_canonical gotIdx
        simp [Record.write,isSingle]
      · cases read

theorem ackCnt_wellFormed (wf : record.WellFormed) : record.ackCnt = .ok record.covered.length := by
  cases record with
  | range start stop =>
    obtain ⟨ordered,small⟩ : start.val ≤ stop.val ∧ stop.val < 2 ^ 24 := wf
    have fits : stop.val + 1 - start.val < 2 ^ 32 := by omega
    have count : stop.val - start.val + 1 = stop.val + 1 - start.val := by omega
    simp only [Record.ackCnt,addU32,Record.covered,List.length_range',Nat.not_lt.mpr ordered,if_false,count,fits,
      if_true]
  | single idx => rfl

-- A record that reads and is counted is well formed, and counted by the numbers it covers.
theorem counted_wellFormed {n : Nat} (read : Record.read buf = .ok (record,rest)) (counted : record.ackCnt = .ok n) :
    record.WellFormed ∧ n = record.covered.length := by
  cases buf with
  | nil => cases read
  | cons b buf =>
    simp only [Record.read,getU8_cons,bind_ok_eq] at read
    split at read
    · obtain ⟨⟨start,buf₁⟩,-,read⟩ := bind_eq_ok.mp read
      obtain ⟨⟨stop,buf₂⟩,gotStop,done⟩ := bind_eq_ok.mp read
      cases done
      simp only [Record.ackCnt,addU32] at counted ⊢
      split at counted
      · cases counted
      · rename_i ordered
        split at counted <;> cases counted
        exact ⟨⟨by omega,(uint24_canonical gotStop).2⟩,by simp only [Record.covered,List.length_range']; omega⟩
    · split at read
      · obtain ⟨⟨idx,buf₁⟩,gotIdx,done⟩ := bind_eq_ok.mp read
        cases done
        cases counted
        exact ⟨(uint24_canonical gotIdx).2,rfl⟩
      · cases read

theorem covered_length_lt (wf : record.WellFormed) : record.covered.length ≤ 2 ^ 24 := by
  cases record with
  | range start stop => simp only [Record.WellFormed] at wf; simp [Record.covered]; omega
  | single idx => simp [Record.covered]

end Records

section Codec

variable {buf rest : List UInt8} {ack : Ack}

-- One round of the record loop over a written well-formed record, entered within the limit:
-- the running count grows by what the record covers and cannot overflow its u32.
theorem readRecords_written_cons {r : Record} (wfr : r.WellFormed) {count acc : Nat}
    (within : acc ≤ maxAcknowledgementPackets) (tail : List UInt8) :
    Ack.readRecords (count + 1) acc (r.write ++ tail) =
      if acc + r.covered.length > maxAcknowledgementPackets then .error (.codec .ackCountExceed)
      else (do let (records,buf) ← Ack.readRecords count (acc + r.covered.length) tail; pure (r :: records,buf)) := by
  have fits : acc + r.covered.length < 2 ^ 32 := by
    have := covered_length_lt wfr; simp only [maxAcknowledgementPackets] at within; omega
  simp only [Ack.readRecords,record_roundtrip wfr,bind_ok_eq,ackCnt_wellFormed wfr,addU32,fits,if_true]

-- The record loop over written records, entered with a running count within the limit.
theorem readRecords_written {records : List Record} (wf : ∀ r ∈ records, r.WellFormed) {acc : Nat}
    (within : acc ≤ maxAcknowledgementPackets) (rest : List UInt8) :
    Ack.readRecords records.length acc (records.flatMap Record.write ++ rest) =
      if acc + (records.flatMap Record.covered).length ≤ maxAcknowledgementPackets then .ok (records,rest)
      else .error (.codec .ackCountExceed) := by
  induction records generalizing acc with
  | nil => simp [Ack.readRecords,within]
  | cons r rs ih =>
    have wfr := wf r (List.mem_cons_self _ _)
    simp only [List.length_cons,List.flatMap_cons,List.append_assoc,readRecords_written_cons wfr within,
      List.length_append]
    by_cases over : acc + r.covered.length > maxAcknowledgementPackets
    · rw [if_pos over,if_neg (by omega)]
    · rw [if_neg over,ih (fun x mem => wf x (List.mem_cons_of_mem _ mem)) (by omega),← Nat.add_assoc]
      split <;> rfl

theorem readRecords_canonical {count acc : Nat} {records : List Record}
    (read : Ack.readRecords count acc buf = .ok (records,rest)) :
    records.length = count ∧ buf = records.flatMap Record.write ++ rest := by
  induction count generalizing acc buf records with
  | zero => cases read; simp
  | succ count ih =>
    obtain ⟨⟨record,buf₁⟩,gotRecord,read⟩ := bind_eq_ok.mp read
    obtain ⟨cnt,-,read⟩ := bind_eq_ok.mp read
    obtain ⟨acc',-,read⟩ := bind_eq_ok.mp read
    split at read
    · cases read
    obtain ⟨⟨records',buf₂⟩,gotRest,done⟩ := bind_eq_ok.mp read
    cases done
    obtain ⟨length,rfl⟩ := ih gotRest
    obtain rfl := record_canonical gotRecord
    simp [length]

-- A record loop that succeeds has read well-formed records within the limit.
theorem readRecords_within {count acc : Nat} {records : List Record} (start : acc ≤ maxAcknowledgementPackets)
    (read : Ack.readRecords count acc buf = .ok (records,rest)) :
    (∀ r ∈ records, r.WellFormed) ∧ acc + (records.flatMap Record.covered).length ≤ maxAcknowledgementPackets := by
  induction count generalizing acc buf records with
  | zero => cases read; simpa using start
  | succ count ih =>
    obtain ⟨⟨record,buf₁⟩,gotRecord,read⟩ := bind_eq_ok.mp read
    obtain ⟨cnt,counted,read⟩ := bind_eq_ok.mp read
    obtain ⟨acc',added,read⟩ := bind_eq_ok.mp read
    split at read
    · cases read
    rename_i within
    obtain ⟨⟨records',buf₂⟩,gotRest,done⟩ := bind_eq_ok.mp read
    cases done
    obtain ⟨wf,rfl⟩ := counted_wellFormed gotRecord counted
    have sum : acc' = acc + record.covered.length := by
      simp only [addU32] at added; split at added <;> cases added; rfl
    obtain ⟨wfRest,bound⟩ := ih (by omega) gotRest
    refine ⟨fun r mem => ?_,by simp only [List.flatMap_cons,List.length_append]; omega⟩
    rcases List.mem_cons.mp mem with rfl | later
    · exact wf
    · exact wfRest r later

-- Written well-formed records within the limit pass a failure of what follows them through.
theorem readRecords_prefix_error {records : List Record} (wf : ∀ r ∈ records, r.WellFormed) {acc count : Nat}
    {tail : List UInt8} {e : Fault} (within : acc + (records.flatMap Record.covered).length ≤ maxAcknowledgementPackets)
    (failed : Ack.readRecords count (acc + (records.flatMap Record.covered).length) tail = .error e) :
    Ack.readRecords (records.length + count) acc (records.flatMap Record.write ++ tail) = .error e := by
  induction records generalizing acc with
  | nil => simpa using failed
  | cons r rs ih =>
    simp only [List.flatMap_cons,List.length_append] at within failed
    have later := @ih (fun x mem => wf x (List.mem_cons_of_mem _ mem)) (acc + r.covered.length) (by omega)
      (by rw [Nat.add_assoc]; exact failed)
    rw [List.length_cons,Nat.add_right_comm,List.flatMap_cons,List.append_assoc,
      readRecords_written_cons (wf r (List.mem_cons_self _ _)) (by omega),if_neg (by omega),later]
    rfl

-- The count of an inverted Range underflows its u32 subtraction.
theorem readRecords_inverted {start stop : Uint24le} (inverted : stop.val < start.val) (small : start.val < 2 ^ 24)
    (count acc : Nat) (tail : List UInt8) :
    Ack.readRecords (count + 1) acc ((Record.range start stop).write ++ tail) = .error .panic := by
  simp only [Ack.readRecords,@range_read start stop small (by omega),bind_ok_eq,Record.ackCnt,if_pos inverted,bind_error_eq]

theorem ack_roundtrip (few : ack.records.length < 65535) (wf : ∀ r ∈ ack.records, r.WellFormed)
    (rest : List UInt8) :
    Ack.read (ack.write ++ rest) = if ack.covered.length ≤ maxAcknowledgementPackets then .ok (ack,rest)
      else .error (.codec .ackCountExceed) := by
  simp only [Ack.write,List.append_assoc,Ack.read,getU16_roundtrip (by omega : ack.records.length < 2 ^ 16),
    bind_ok_eq,readRecords_written wf (Nat.zero_le _),Nat.zero_add,Ack.covered]
  split <;> rfl

theorem ack_canonical (read : Ack.read buf = .ok (ack,rest)) : buf = ack.write ++ rest := by
  obtain ⟨⟨recordCnt,buf₁⟩,gotCnt,read⟩ := bind_eq_ok.mp read
  obtain ⟨⟨records,buf₂⟩,gotRecords,done⟩ := bind_eq_ok.mp read
  cases done
  obtain ⟨rfl,-⟩ := getU16_canonical gotCnt
  obtain ⟨length,rfl⟩ := readRecords_canonical gotRecords
  simp [Ack.write,length]

theorem ack_codec_inverse :
    (∀ ack : Ack, ack.records.length < 65535 → (∀ r ∈ ack.records, r.WellFormed) → ∀ rest,
      (ack.covered.length ≤ maxAcknowledgementPackets → Ack.read (ack.write ++ rest) = .ok (ack,rest)) ∧
      (maxAcknowledgementPackets < ack.covered.length →
        Ack.read (ack.write ++ rest) = .error (.codec .ackCountExceed))) ∧
    ∀ buf rest (ack : Ack), Ack.read buf = .ok (ack,rest) → buf = ack.write ++ rest := by
  refine ⟨fun ack few wf rest => ⟨fun within => ?_,fun over => ?_⟩,fun _ _ _ read => ack_canonical read⟩
  · rw [ack_roundtrip few wf,if_pos within]
  · rw [ack_roundtrip few wf,if_neg (Nat.not_le.mpr over)]

theorem ack_codec_inverse_sample :
    let ack : Ack := ⟨[.range ⟨0⟩ ⟨2⟩,.single ⟨7⟩]⟩
    (ack.records.length < 65535 ∧ ∀ r ∈ ack.records, r.WellFormed) ∧ Ack.read (ack.write ++ [5]) = .ok (ack,[5]) :=
  have wf : ∀ r ∈ [Record.range ⟨0⟩ ⟨2⟩,.single ⟨7⟩], r.WellFormed := by decide
  ⟨⟨by decide,wf⟩,(ack_codec_inverse.1 ⟨[.range ⟨0⟩ ⟨2⟩,.single ⟨7⟩]⟩ (by decide) wf [5]).1 (by decide)⟩

theorem read_within_limit (read : Ack.read buf = .ok (ack,rest)) :
    (∀ r ∈ ack.records, r.WellFormed) ∧ ack.covered.length ≤ maxAcknowledgementPackets := by
  obtain ⟨⟨recordCnt,buf₁⟩,-,read⟩ := bind_eq_ok.mp read
  obtain ⟨⟨records,buf₂⟩,gotRecords,done⟩ := bind_eq_ok.mp read
  cases done
  simpa [Ack.covered] using readRecords_within (Nat.zero_le _) gotRecords

-- What `Ack::read` accepts is well formed and within the limit; but a Range whose end is below
-- its start, reached within the limit, stops the reader at the subtraction in `ack_cnt`.
theorem ack_read_inverted_range_panics :
    (∀ buf rest (ack : Ack), Ack.read buf = .ok (ack,rest) →
      (∀ r ∈ ack.records, r.WellFormed) ∧ ack.covered.length ≤ maxAcknowledgementPackets) ∧
    ∀ (records later : List Record) (start stop : Uint24le) (rest : List UInt8),
      records.length + 1 + later.length < 2 ^ 16 → (∀ r ∈ records, r.WellFormed) →
      (records.flatMap Record.covered).length ≤ maxAcknowledgementPackets → stop.val < start.val →
      start.val < 2 ^ 24 → Ack.read ((⟨records ++ .range start stop :: later⟩ : Ack).write ++ rest) = .error .panic := by
  refine ⟨fun _ _ _ read => read_within_limit read,fun records later start stop rest few wf within inverted small => ?_⟩
  have failed := readRecords_prefix_error wf (by omega : 0 + _ ≤ _)
    (readRecords_inverted inverted small later.length _ (later.flatMap Record.write ++ rest))
  have count : (records ++ Record.range start stop :: later).length = records.length + (later.length + 1) := by
    simp only [List.length_append,List.length_cons]
  simp only [Ack.write,count,List.flatMap_append,List.flatMap_cons,List.append_assoc,Ack.read,
    getU16_roundtrip (by omega : records.length + (later.length + 1) < 2 ^ 16),bind_ok_eq,failed,bind_error_eq]

theorem ack_read_inverted_range_panics_sample : Ack.read [0,1,0,5,0,0,3,0,0] = .error .panic :=
  ack_read_inverted_range_panics.2 [] [] ⟨5⟩ ⟨3⟩ [] (by decide) (by decide) (by decide) (by decide) (by decide)

end Codec

end RaknetRs
