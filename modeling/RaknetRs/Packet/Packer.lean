import RaknetRs.Packet.Ack

namespace RaknetRs

-- A finished run `first ..= last` is a Range when it holds two or more numbers.
def runRecord (first last : Uint24le) : Record :=
  if first.val ≠ last.val then .range first last else .single first

-- The loop of `Ack::extend_from`: `first ..= last` is the run being built, `upgradeFlag` says
-- the run is still charged as a Single, `mtu` is the budget left. It returns the records and
-- what is left in the iterator; a run breaks at the first number that is not `last + 1`.
def extendLoop (first last : Uint24le) (upgradeFlag : Bool) (mtu : Nat) :
    List Uint24le → List Record × List Uint24le
  | [] => ([runRecord first last],[])
  | seqNum :: rest =>
    if mtu < 4 then ([runRecord first last],seqNum :: rest)
    else if seqNum.val = last.val + 1 then
      extendLoop first seqNum false (if upgradeFlag then mtu - 3 else mtu) rest
    else
      let (records,remaining) := extendLoop seqNum seqNum true (mtu - 4) rest
      (runRecord first last :: records,remaining)

-- `Ack::extend_from`; its `debug_assert!(mtu >= 7)` comes before the first `next()`.
def extendFrom (sortedSeqNums : List Uint24le) (mtu : Nat) : Except Fault (Option Ack × List Uint24le) :=
  if mtu < 7 then .error .panic
  else match sortedSeqNums with
    | [] => .ok (none,[])
    | first :: rest =>
      let (records,remaining) := extendLoop first first true (mtu - 7) rest
      .ok (some ⟨records⟩,remaining)

-- Successive `extend_from` calls on one iterator, at most `calls` of them, until one returns
-- `None`: what the drain loop does to a queue nothing else touches.
def extendFromRepeated (mtu : Nat) : Nat → List Uint24le → Except Fault (List Ack × List Uint24le)
  | 0,seqNums => .ok ([],seqNums)
  | calls+1,seqNums => do
    let (ack,remaining) ← extendFrom seqNums mtu
    match ack with
    | none => pure ([],remaining)
    | some ack =>
      let (acks,remaining) ← extendFromRepeated mtu calls remaining
      pure (ack :: acks,remaining)

/-- Modelled from the spec: runs are detected by `next == last + 1`. `runsFrom first last`
continues the run `first ..= last` over the numbers that follow; a run is its first and its last
number. -/
def runsFrom (first last : Uint24le) : List Uint24le → List (Uint24le × Uint24le)
  | [] => [(first,last)]
  | seqNum :: rest =>
    if seqNum.val = last.val + 1 then runsFrom first seqNum rest else (first,last) :: runsFrom seqNum seqNum rest

/-- Modelled from the spec: the runs of a sequence. -/
def runs : List Uint24le → List (Uint24le × Uint24le)
  | [] => []
  | first :: rest => runsFrom first first rest

/-- Modelled from the spec: a run costs 4 bytes as a Single and 7 as a Range. -/
def runCost (run : Uint24le × Uint24le) : Nat := if run.1.val = run.2.val then 4 else 7

def runsCost (runs : List (Uint24le × Uint24le)) : Nat := (runs.map runCost).sum

/-- Modelled from the spec: the bytes of the packet of a sequence's runs: the pack id and the
record count, then each run's record. -/
def encodingCost (seqNums : List Uint24le) : Nat := 3 + runsCost (runs seqNums)

@[simp] theorem runsCost_nil : runsCost [] = 0 := rfl

@[simp] theorem runsCost_cons (r : Uint24le × Uint24le) (rs : List (Uint24le × Uint24le)) :
    runsCost (r :: rs) = runCost r + runsCost rs := by
  simp [runsCost]

section Loop

variable {first last : Uint24le} {upgradeFlag : Bool} {mtu : Nat}

theorem covered_runRecord (first last : Uint24le) :
    (runRecord first last).covered = List.range' first.val (last.val + 1 - first.val) := by
  unfold runRecord
  split
  · rfl
  · rename_i same
    have : last.val + 1 - first.val = 1 := by omega
    simp [Record.covered,this]

theorem wellFormed_runRecord (ordered : first.val ≤ last.val) (small : last.val < 2 ^ 24) :
    (runRecord first last).WellFormed := by
  unfold runRecord
  split
  · exact ⟨ordered,small⟩
  · exact lt_of_le_of_lt ordered small

theorem extendLoop_wellFormed (ordered : first.val ≤ last.val) (small : last.val < 2 ^ 24)
    {seqNums : List Uint24le} (fits : ∀ x ∈ seqNums, x.val < 2 ^ 24) :
    ∀ r ∈ (extendLoop first last upgradeFlag mtu seqNums).1, r.WellFormed := by
  induction seqNums generalizing first last upgradeFlag mtu with
  | nil => simp [extendLoop,wellFormed_runRecord ordered small]
  | cons seqNum rest ih =>
    have fitsRest : ∀ x ∈ rest, x.val < 2 ^ 24 := fun x mem => fits x (List.mem_cons_of_mem _ mem)
    have fitsHead := fits seqNum (List.mem_cons_self _ _)
    unfold extendLoop
    split
    · simp [wellFormed_runRecord ordered small]
    split
    · exact ih (by omega) fitsHead fitsRest
    · intro r mem
      rcases List.mem_cons.mp mem with rfl | later
      · exact wellFormed_runRecord ordered small
      · exact ih (Nat.le_refl _) fitsHead fitsRest r later

-- Every record after the first is charged 4 bytes of a budget that never goes below zero.
theorem extendLoop_length (seqNums : List Uint24le) :
    (extendLoop first last upgradeFlag mtu seqNums).1.length ≤ 1 + mtu / 4 := by
  induction seqNums generalizing first last upgradeFlag mtu with
  | nil => simp [extendLoop]
  | cons seqNum rest ih =>
    unfold extendLoop
    split
    · simp
    split
    · have charged : (if upgradeFlag then mtu - 3 else mtu) ≤ mtu := by split <;> omega
      have := @ih first seqNum false (if upgradeFlag then mtu - 3 else mtu)
      generalize (if upgradeFlag then mtu - 3 else mtu) = budget at charged this
      omega
    · have := @ih seqNum seqNum true (mtu - 4)
      simp only [List.length_cons]
      omega

-- A run of consecutive numbers is one record however long it is, once the budget has paid
-- for the Range: the budget is charged at the upgrade and never again.
theorem extendLoop_run (n : Nat) (budget : 4 ≤ mtu) (upgrade : upgradeFlag = true → 7 ≤ mtu) :
    extendLoop first last upgradeFlag mtu ((List.range' (last.val + 1) n).map Uint24le.mk) =
      ([runRecord first ⟨last.val + n⟩],[]) := by
  induction n generalizing last upgradeFlag mtu with
  | zero => rfl
  | succ n ih =>
    have after : 4 ≤ (if upgradeFlag then mtu - 3 else mtu) := by
      cases upgradeFlag
      · exact budget
      · have := upgrade rfl; simp only [if_true]; omega
    simp only [List.range'_succ,List.map_cons,extendLoop,Nat.not_lt.mpr budget,if_false,if_true]
    rw [@ih ⟨last.val + 1⟩ false _ after (by simp)]
    simp only [Nat.add_assoc,Nat.add_comm 1 n]

-- The records of the runs cover the numbers they were made of, in order, duplicates included.
theorem covered_runsFrom (ordered : first.val ≤ last.val) (seqNums : List Uint24le) :
    ((runsFrom first last seqNums).map fun r => runRecord r.1 r.2).flatMap Record.covered =
      List.range' first.val (last.val + 1 - first.val) ++ seqNums.map Uint24le.val := by
  induction seqNums generalizing first last with
  | nil => simp [runsFrom,covered_runRecord]
  | cons seqNum rest ih =>
    by_cases next : seqNum.val = last.val + 1
    · have grow : seqNum.val + 1 - first.val = (last.val + 1 - first.val) + 1 := by omega
      rw [runsFrom,if_pos next,ih (by omega),grow,List.range'_1_concat]
      simp [next]
      omega
    · rw [runsFrom,if_neg next]
      simp [covered_runRecord,ih (Nat.le_refl seqNum.val)]

-- What the loop does, run by run: it packs the runs of the numbers it pulls, and it pulls the
-- next number exactly while the runs so far leave 4 bytes of the budget.
theorem extendLoop_runs (ordered : first.val ≤ last.val) (flag : upgradeFlag = decide (first.val = last.val))
    (seqNums : List Uint24le) :
    ∃ k, extendLoop first last upgradeFlag mtu seqNums =
        ((runsFrom first last (seqNums.take k)).map fun r => runRecord r.1 r.2,seqNums.drop k) ∧
      runsCost (runsFrom first last (seqNums.take k)) ≤ mtu + runCost (first,last) ∧
      (k < seqNums.length → mtu + runCost (first,last) < runsCost (runsFrom first last (seqNums.take k)) + 4) ∧
      ∀ j < k, runsCost (runsFrom first last (seqNums.take j)) + 4 ≤ mtu + runCost (first,last) := by
  induction seqNums generalizing first last upgradeFlag mtu with
  | nil => exact ⟨0,rfl,by simp [runsFrom],by simp,by simp⟩
  | cons seqNum rest ih =>
    by_cases low : mtu < 4
    · exact ⟨0,by simp [extendLoop,low,runsFrom],by simp [runsFrom],fun _ => by simp [runsFrom]; omega,by simp⟩
    have atStart : runsCost (runsFrom first last []) + 4 ≤ mtu + runCost (first,last) := by simp [runsFrom]; omega
    by_cases next : seqNum.val = last.val + 1
    · -- The run grows: a Single is upgraded to a Range for 3 bytes, a Range costs nothing more.
      have shift (t : List Uint24le) : runsFrom first last (seqNum :: t) = runsFrom first seqNum t := by
        simp [runsFrom,next]
      have budget : (if upgradeFlag then mtu - 3 else mtu) + runCost (first,seqNum) = mtu + runCost (first,last) := by
        have far : first.val ≠ seqNum.val := by omega
        have farLast : last.val ≠ seqNum.val := by omega
        subst flag
        by_cases same : first.val = last.val
        · simp [runCost,same,far,farLast]; omega
        · simp [runCost,same,far,farLast]
      obtain ⟨k,loop,fits,stop,cont⟩ := @ih first seqNum false (if upgradeFlag then mtu - 3 else mtu) (by omega)
        (by simp; omega)
      refine ⟨k + 1,by simp [extendLoop,low,next,loop,shift],by rw [List.take_succ_cons,shift]; omega,
        fun more => by rw [List.take_succ_cons,shift]; have := stop (by simpa using more); omega,fun j less => ?_⟩
      cases j with
      | zero => exact atStart
      | succ j => rw [List.take_succ_cons,shift]; have := cont j (by omega); omega
    · -- A new run starts and its Single costs 4 bytes.
      have shift (t : List Uint24le) : runsFrom first last (seqNum :: t) = (first,last) :: runsFrom seqNum seqNum t := by
        simp [runsFrom,next]
      have single : runCost (seqNum,seqNum) = 4 := by simp [runCost]
      obtain ⟨k,loop,fits,stop,cont⟩ := @ih seqNum seqNum true (mtu - 4) (Nat.le_refl _) (by simp)
      refine ⟨k + 1,by simp [extendLoop,low,next,loop,shift],by rw [List.take_succ_cons,shift,runsCost_cons]; omega,
        fun more => by rw [List.take_succ_cons,shift,runsCost_cons]; have := stop (by simpa using more); omega,
        fun j less => ?_⟩
      cases j with
      | zero => exact atStart
      | succ j => rw [List.take_succ_cons,shift,runsCost_cons]; have := cont j (by omega); omega

end Loop

section Packer

variable {mtu : Nat} {seqNums : List Uint24le}

theorem extendFrom_nil (fits : 7 ≤ mtu) : extendFrom [] mtu = .ok (none,[]) := by
  simp [extendFrom,Nat.not_lt.mpr fits]

theorem extendFrom_cons (fits : 7 ≤ mtu) (first : Uint24le) (rest : List Uint24le) :
    extendFrom (first :: rest) mtu =
      .ok (some ⟨(extendLoop first first true (mtu - 7) rest).1⟩,(extendLoop first first true (mtu - 7) rest).2) := by
  simp [extendFrom,Nat.not_lt.mpr fits]

-- One call on a non-empty iterator, run by run: the packet holds the runs of the prefix it
-- pulls, and it pulls the next number exactly while those runs leave 4 bytes of `mtu`.
theorem extendFrom_runs (fits : 7 ≤ mtu) (first : Uint24le) (rest : List Uint24le) :
    ∃ k, extendFrom (first :: rest) mtu =
        .ok (some ⟨(runs (first :: rest.take k)).map fun r => runRecord r.1 r.2⟩,rest.drop k) ∧
      encodingCost (first :: rest.take k) ≤ mtu ∧ (k < rest.length → mtu < encodingCost (first :: rest.take k) + 4) ∧
      ∀ j < k, encodingCost (first :: rest.take j) + 4 ≤ mtu := by
  obtain ⟨k,loop,fitsRuns,stop,cont⟩ := @extendLoop_runs first first true (mtu - 7) (Nat.le_refl _) (by simp) rest
  have single : runCost (first,first) = 4 := by simp [runCost]
  refine ⟨k,by rw [extendFrom_cons fits,loop]; rfl,?_,fun more => ?_,fun j less => ?_⟩
  · simp only [encodingCost,runs]; omega
  · have := stop more; simp only [encodingCost,runs]; omega
  · have := cont j less; simp only [encodingCost,runs]; omega

-- A packet is the runs of the prefix it pulled, and covers exactly that prefix.
theorem extendFrom_packs_runs (fits : 7 ≤ mtu) {ack : Ack} {remaining : List Uint24le}
    (packed : extendFrom seqNums mtu = .ok (some ack,remaining)) :
    ∃ k, 0 < k ∧ remaining = seqNums.drop k ∧ ack.records = (runs (seqNums.take k)).map (fun r => runRecord r.1 r.2) ∧
      ack.covered = (seqNums.take k).map Uint24le.val := by
  cases seqNums with
  | nil => rw [extendFrom_nil fits] at packed; cases packed
  | cons first rest =>
    obtain ⟨k,result,-⟩ := extendFrom_runs fits first rest
    rw [result] at packed
    cases packed
    refine ⟨k + 1,by omega,rfl,rfl,?_⟩
    simp only [Ack.covered,List.take_succ_cons,runs,covered_runsFrom (Nat.le_refl first.val)]
    simp

-- What one call does to its iterator: it pulls a prefix, non-empty unless the iterator is, packs
-- exactly those numbers in order, returns `None` only on an empty iterator, and leaves the rest.
theorem extendFrom_pulls (fits : 7 ≤ mtu) (seqNums : List Uint24le) :
    ∃ ack k, extendFrom seqNums mtu = .ok (ack,seqNums.drop k) ∧ (0 < k ↔ seqNums ≠ []) ∧
      (ack = none ↔ seqNums = []) ∧ (ack.map Ack.covered).getD [] = (seqNums.take k).map Uint24le.val := by
  cases seqNums with
  | nil => exact ⟨none,0,extendFrom_nil fits,by simp,by simp,rfl⟩
  | cons first rest =>
    obtain ⟨k,result,-⟩ := extendFrom_runs fits first rest
    obtain ⟨k,positive,remaining,-,covered⟩ := extendFrom_packs_runs fits result
    exact ⟨_,k,by rw [result,remaining],by simp [positive],by simp,by simp [covered]⟩

-- Each call pulls a prefix of the iterator and packs exactly it, so successive calls split the
-- iterator into packets that together cover it, nothing dropped or repeated.
theorem extend_from_pulls_prefix (fits : 7 ≤ mtu) (seqNums : List Uint24le) :
    (∃ ack k, extendFrom seqNums mtu = .ok (ack,seqNums.drop k) ∧ (0 < k ↔ seqNums ≠ []) ∧
      (ack = none ↔ seqNums = []) ∧ (ack.map Ack.covered).getD [] = (seqNums.take k).map Uint24le.val) ∧
    ∀ calls, ∃ acks remaining, extendFromRepeated mtu calls seqNums = .ok (acks,remaining) ∧
      acks.flatMap Ack.covered ++ remaining.map Uint24le.val = seqNums.map Uint24le.val ∧
      (seqNums.length ≤ calls → remaining = []) := by
  refine ⟨extendFrom_pulls fits seqNums,fun calls => ?_⟩
  induction calls generalizing seqNums with
  | zero => exact ⟨[],seqNums,rfl,rfl,fun short => List.eq_nil_of_length_eq_zero (by omega)⟩
  | succ calls ih =>
    obtain ⟨ack,k,packed,pulled,none,covered⟩ := extendFrom_pulls fits seqNums
    cases ack with
    | none =>
      obtain rfl := none.mp rfl
      exact ⟨[],[],by simp [extendFromRepeated,packed,pure,Except.pure],rfl,fun _ => rfl⟩
    | some ack =>
      have nonEmpty : seqNums ≠ [] := fun empty => nomatch none.mpr empty
      obtain ⟨acks,remaining,later,cat,done⟩ := ih (seqNums.drop k)
      refine ⟨ack :: acks,remaining,by simp [extendFromRepeated,packed,later,pure,Except.pure],?_,fun short => ?_⟩
      · simp only [Option.map_some',Option.getD_some] at covered
        rw [List.flatMap_cons,List.append_assoc,cat,covered,← List.map_append,List.take_append_drop]
      · exact done (by have := pulled.mpr nonEmpty; simp only [List.length_drop]; omega)

theorem extend_from_pulls_prefix_sample :
    let seqNums : List Uint24le := [⟨0⟩,⟨1⟩,⟨2⟩,⟨4⟩,⟨5⟩,⟨7⟩,⟨8⟩]
    7 ≤ 21 ∧ ∃ acks remaining, extendFromRepeated 21 7 seqNums = .ok (acks,remaining) ∧
      acks.flatMap Ack.covered ++ remaining.map Uint24le.val = seqNums.map Uint24le.val ∧
      (seqNums.length ≤ 7 → remaining = []) :=
  ⟨by decide,( extend_from_pulls_prefix (by decide) _).2 7⟩

-- On `[0, 1]` with 10 bytes the packer stops after `0`, with 3 bytes left, though the Range
-- `0 ..= 1` would fill the 10 bytes exactly.
theorem extend_from_stops_before_fit :
    extendFrom [⟨0⟩,⟨1⟩] 10 = .ok (some ⟨[.single ⟨0⟩]⟩,[⟨1⟩]) ∧ encodingCost [⟨0⟩,⟨1⟩] ≤ 10 := by
  decide

-- What the packer does consume: the shortest prefix whose runs leave fewer than 4 bytes of `mtu`,
-- or the whole sequence; that prefix fits in `mtu`.
theorem extend_from_stops_below_four (fits : 7 ≤ mtu) (seqNums : List Uint24le) :
    ∃ ack k, extendFrom seqNums mtu = .ok (ack,seqNums.drop k) ∧ (seqNums ≠ [] →
      encodingCost (seqNums.take k) ≤ mtu ∧ (k < seqNums.length → mtu < encodingCost (seqNums.take k) + 4) ∧
      ∀ j, 0 < j → j < k → encodingCost (seqNums.take j) + 4 ≤ mtu) := by
  cases seqNums with
  | nil => exact ⟨none,0,extendFrom_nil fits,fun empty => absurd rfl empty⟩
  | cons first rest =>
    obtain ⟨k,result,cost,stop,cont⟩ := extendFrom_runs fits first rest
    refine ⟨some ⟨(runs (first :: rest.take k)).map fun r => runRecord r.1 r.2⟩,k + 1,result,
      fun _ => ⟨cost,fun more => stop (by simpa using more),fun j positive less => ?_⟩⟩
    obtain ⟨j,rfl⟩ := Nat.exists_eq_add_of_lt positive
    simpa [Nat.add_comm] using cont j (by omega)

theorem extend_from_stops_below_four_sample :
    let seqNums : List Uint24le := [⟨0⟩,⟨1⟩]
    7 ≤ 10 ∧ ∃ ack k, extendFrom seqNums 10 = .ok (ack,seqNums.drop k) ∧ (seqNums ≠ [] →
      encodingCost (seqNums.take k) ≤ 10 ∧ (k < seqNums.length → 10 < encodingCost (seqNums.take k) + 4) ∧
      ∀ j, 0 < j → j < k → encodingCost (seqNums.take j) + 4 ≤ 10) :=
  ⟨by decide,extend_from_stops_below_four (by decide) _⟩

theorem extendFrom_wellFormed (fits : 7 ≤ mtu) (small : ∀ x ∈ seqNums, x.val < 2 ^ 24)
    {ack : Ack} {remaining : List Uint24le} (packed : extendFrom seqNums mtu = .ok (some ack,remaining)) :
    (∀ r ∈ ack.records, r.WellFormed) ∧ ack.records.length ≤ 1 + (mtu - 7) / 4 := by
  cases seqNums with
  | nil => rw [extendFrom_nil fits] at packed; cases packed
  | cons first rest =>
    rw [extendFrom_cons fits] at packed
    cases packed
    exact ⟨extendLoop_wellFormed (Nat.le_refl _) (small first (List.mem_cons_self _ _))
      (fun x mem => small x (List.mem_cons_of_mem _ mem)),extendLoop_length rest⟩

-- What the peer's `Ack::read` makes of a packed Ack: the same records exactly when they cover
-- at most 8192 numbers, which they do whenever at most 8192 numbers were there to pull.
theorem extendFrom_read (fits : 7 ≤ mtu) (u16 : mtu < 2 ^ 16) (small : ∀ x ∈ seqNums, x.val < 2 ^ 24)
    {ack : Ack} {remaining : List Uint24le} (packed : extendFrom seqNums mtu = .ok (some ack,remaining))
    (rest : List UInt8) :
    Ack.read (ack.write ++ rest) = (if ack.covered.length ≤ maxAcknowledgementPackets then .ok (ack,rest)
      else .error (.codec .ackCountExceed)) ∧ ack.covered.length ≤ seqNums.length := by
  obtain ⟨wf,few⟩ := extendFrom_wellFormed fits small packed
  obtain ⟨pulled,k,result,-,-,covered⟩ := extendFrom_pulls fits seqNums
  rw [packed] at result
  cases result
  refine ⟨ack_roundtrip (by omega) wf rest,?_⟩
  simp only [Option.map_some',Option.getD_some] at covered
  rw [covered,List.length_map,List.length_take]
  exact Nat.min_le_right _ _

end Packer

end RaknetRs
