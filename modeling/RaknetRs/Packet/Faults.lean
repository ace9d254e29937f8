import RaknetRs.Packet.Connected

namespace RaknetRs

-- Past the header, every read of the frame-set reader is a `Buf` read: it can panic, never
-- return a codec error.

section NoCodec

variable {α β : Type} {buf : List UInt8} {e : CodecError}

theorem map_eq_error' {f : α → β} {x : Except Fault α} {err : Fault} : (f <$> x) = .error err ↔ x = .error err := by
  cases x <;> simp [Functor.map,Except.map]

theorem takeBytes_noCodec (n : Nat) : takeBytes n buf ≠ .error (.codec e) := fun failed => by
  cases (takeBytes_eq_error.mp failed).2

theorem uint24Read_noCodec : Uint24le.read buf ≠ .error (.codec e) := by
  simp [Uint24le.read,getUintLe,bind_eq_error,map_eq_error',takeBytes_noCodec]

theorem readOrdered_noCodec : readOrdered buf ≠ .error (.codec e) := by
  simp [readOrdered,advance,bind_eq_error,map_eq_error',takeBytes_noCodec,uint24Read_noCodec]

theorem fragmentRead_noCodec : Fragment.read buf ≠ .error (.codec e) := by
  simp [Fragment.read,getU16,getU32,bind_eq_error,map_eq_error',takeBytes_noCodec]

theorem readIf_noCodec {present : Bool} {read : List UInt8 → Except Fault (α × List UInt8)}
    (never : ∀ buf, read buf ≠ .error (.codec e)) : readIf present read buf ≠ .error (.codec e) := by
  unfold readIf
  split
  · simp [bind_eq_error,map_eq_error',never]
  · exact nofun

theorem splitTo_noCodec (n : Nat) : splitTo buf n ≠ .error (.codec e) := takeBytes_noCodec n

theorem reliability_eq_error {flags : Flags} {err : CodecError} :
    flags.reliability = .error err ↔ 4 < flags.val.toNat >>> 5 ∧ err = .invalidReliability (UInt8.ofNat (flags.val.toNat >>> 5)) := by
  unfold Flags.reliability
  dsimp only
  split <;> simp_all [eq_comm]

end NoCodec

-- Fewer than six bytes cannot hold the header: the reader panics in the first `Buf` read that
-- runs out.
theorem read_short {buf : List UInt8} (short : buf.length < 6) : FrameSet.read buf = .error .panic := by
  rcases buf with _ | ⟨s₀,_ | ⟨s₁,_ | ⟨s₂,_ | ⟨flags,_ | ⟨hi,_ | ⟨lo,rest⟩⟩⟩⟩⟩⟩
  · rfl
  · rfl
  · rfl
  · rfl
  · rfl
  · rfl
  · simp only [List.length_cons] at short; omega

theorem read_header_error (s₀ s₁ s₂ flags hi lo : UInt8) (rest : List UInt8) (e : CodecError) :
    FrameSet.read (s₀ :: s₁ :: s₂ :: flags :: hi :: lo :: rest) = .error (.codec e) ↔
      beValue [hi,lo] >>> 3 = 0 ∧ e = .invalidPacketLength ∨
        beValue [hi,lo] >>> 3 ≠ 0 ∧ 4 < flags.toNat >>> 5 ∧ e = .invalidReliability (UInt8.ofNat (flags.toNat >>> 5)) := by
  simp only [FrameSet.read,Uint24le.read,getUintLe,takeBytes,List.length_cons,le_add_iff_nonneg_left,zero_le,
    if_true,List.take_succ_cons,List.take_zero,List.drop_succ_cons,List.drop_zero,bind_pure_comp,Except.map_ok,Flags.read,
    getU16,bind_map_left,bind_ok_eq,getU8_cons]
  by_cases empty : beValue [hi,lo] >>> 3 = 0
  · simp [empty,eq_comm]
  · cases reliability : Flags.reliability ⟨flags⟩ with
    | error err =>
      obtain ⟨big,rfl⟩ := reliability_eq_error.mp reliability
      simpa [empty,liftCodec,big] using eq_comm
    | ok r =>
      have fine : ¬ 4 < flags.toNat >>> 5 := fun big => nomatch reliability.symm.trans (reliability_eq_error.mpr ⟨big,rfl⟩)
      simp [empty,fine,liftCodec,bind_eq_error,map_eq_error',readIf_noCodec (fun _ => uint24Read_noCodec),
        readIf_noCodec (fun _ => readOrdered_noCodec),readIf_noCodec (fun _ => fragmentRead_noCodec),splitTo_noCodec]

-- `FrameSet::read` returns a codec error only for its 6-byte header: `InvalidPacketLength` when
-- the length field counts no body byte, and `InvalidReliability` when a frame-set with a body
-- has flags naming none of the five reliabilities. Every field after the header only panics,
-- and so does a buffer too short for the header.
theorem frameSet_read_faults (buf : List UInt8) :
    (buf.length < 6 → FrameSet.read buf = .error .panic) ∧
      ∀ e, FrameSet.read buf = .error (.codec e) ↔
        ∃ (s₀ s₁ s₂ flags hi lo : UInt8) (rest : List UInt8), buf = s₀ :: s₁ :: s₂ :: flags :: hi :: lo :: rest ∧
          (beValue [hi,lo] >>> 3 = 0 ∧ e = .invalidPacketLength ∨
            beValue [hi,lo] >>> 3 ≠ 0 ∧ 4 < flags.toNat >>> 5 ∧ e = .invalidReliability (UInt8.ofNat (flags.toNat >>> 5))) := by
  refine ⟨read_short,fun e => ?_⟩
  rcases buf with _ | ⟨s₀,_ | ⟨s₁,_ | ⟨s₂,_ | ⟨flags,_ | ⟨hi,_ | ⟨lo,rest⟩⟩⟩⟩⟩⟩ <;>
    simp [read_short,read_header_error,and_assoc,exists_eq_left']

end RaknetRs
