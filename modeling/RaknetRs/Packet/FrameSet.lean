import RaknetRs.Packet.Buf

namespace RaknetRs

-- `Uint24le(u32)`: a uint24 held in a 32-bit value; only its low 3 bytes go on the wire.
structure Uint24le where
  val : Nat
deriving DecidableEq, Repr

def Uint24le.read (buf : List UInt8) : Except Fault (Uint24le × List UInt8) := do
  let (v,rest) ← getUintLe buf 3
  pure (⟨v⟩,rest)

def Uint24le.write (x : Uint24le) : List UInt8 := putUintLe x.val 3

structure Flags where
  val : UInt8
deriving DecidableEq, Repr

inductive Reliability where
  | unreliable
  | unreliableSequenced
  | reliable
  | reliableOrdered
  | reliableSequenced
deriving DecidableEq, Repr

def Reliability.isReliable : Reliability → Bool
  | .reliable | .reliableSequenced | .reliableOrdered => true
  | _ => false

def Reliability.isSequencedOrOrdered : Reliability → Bool
  | .reliableSequenced | .reliableOrdered | .unreliableSequenced => true
  | _ => false

def Reliability.isSequenced : Reliability → Bool
  | .unreliableSequenced | .reliableSequenced => true
  | _ => false

-- The `transmute` of `Flags::reliability`, reached only once `r ≤ 4` is checked.
def Reliability.ofRepr : Nat → Reliability
  | 0 => .unreliable
  | 1 => .unreliableSequenced
  | 2 => .reliable
  | 3 => .reliableOrdered
  | _ => .reliableSequenced

def Flags.read (buf : List UInt8) : Except Fault (Flags × List UInt8) := do
  let (b,rest) ← getU8 buf
  pure (⟨b⟩,rest)

def Flags.write (flags : Flags) : List UInt8 := [flags.val]

-- `self.0 >> 5`
def Flags.reliability (flags : Flags) : Except CodecError Reliability :=
  let r := flags.val.toNat >>> 5
  if r > 4 then .error (.invalidReliability (UInt8.ofNat r)) else .ok (Reliability.ofRepr r)

def Flags.parted (flags : Flags) : Bool := flags.val &&& 0x10 != 0

structure Fragment where
  partedSize : UInt32
  partedId : UInt16
  partedIndex : UInt32
deriving DecidableEq, Repr

def Fragment.read (buf : List UInt8) : Except Fault (Fragment × List UInt8) := do
  let (partedSize,buf) ← getU32 buf
  let (partedId,buf) ← getU16 buf
  let (partedIndex,buf) ← getU32 buf
  pure (⟨UInt32.ofNat partedSize,UInt16.ofNat partedId,UInt32.ofNat partedIndex⟩,buf)

def Fragment.write (fragment : Fragment) : List UInt8 :=
  putU32 fragment.partedSize.toNat ++ putU16 fragment.partedId.toNat ++ putU32 fragment.partedIndex.toNat

-- One frame-set of the connected codec: header fields, the optional indices its flags call
-- for, and the body. The order channel byte is skipped on read and not kept.
structure FrameSet where
  seqNum : Uint24le
  flags : Flags
  reliableFrameIndex : Option Uint24le
  seqFrameIndex : Option Uint24le
  orderedFrameIndex : Option Uint24le
  fragment : Option Fragment
  body : List UInt8
deriving DecidableEq, Repr

def liftCodec {α : Type} : Except CodecError α → Except Fault α
  | .ok a => .ok a
  | .error e => .error (.codec e)

-- An optional field: read when its flag bit says it is present.
def readIf {α : Type} (present : Bool) (read : List UInt8 → Except Fault (α × List UInt8))
    (buf : List UInt8) : Except Fault (Option α × List UInt8) :=
  if present then do let (a,rest) ← read buf; pure (some a,rest) else pure (none,buf)

-- `ordered_frame_index`, then `buf.advance(1)` over the order channel.
def readOrdered (buf : List UInt8) : Except Fault (Uint24le × List UInt8) := do
  let (index,buf) ← Uint24le.read buf
  let buf ← advance buf 1
  pure (index,buf)

def FrameSet.read (buf : List UInt8) : Except Fault (FrameSet × List UInt8) := do
  let (seqNum,buf) ← Uint24le.read buf
  let (flags,buf) ← Flags.read buf
  let (lengthBits,buf) ← getU16 buf
  let length := lengthBits >>> 3
  if length = 0 then .error (.codec .invalidPacketLength) else do
  let reliability ← liftCodec flags.reliability
  let (reliableFrameIndex,buf) ← readIf reliability.isReliable Uint24le.read buf
  let (seqFrameIndex,buf) ← readIf reliability.isSequenced Uint24le.read buf
  let (orderedFrameIndex,buf) ← readIf reliability.isSequencedOrOrdered readOrdered buf
  let (fragment,buf) ← readIf flags.parted Fragment.read buf
  let (body,buf) ← splitTo buf length
  pure (⟨seqNum,flags,reliableFrameIndex,seqFrameIndex,orderedFrameIndex,fragment,body⟩,buf)

-- The length field is `(body.len() << 3) as u16`; `put_u16` keeps its low 16 bits.
def FrameSet.write (fs : FrameSet) : List UInt8 :=
  fs.seqNum.write ++ fs.flags.write ++ putU16 (fs.body.length <<< 3) ++
    (fs.reliableFrameIndex.map Uint24le.write).getD [] ++
    (fs.seqFrameIndex.map Uint24le.write).getD [] ++
    (fs.orderedFrameIndex.map fun index => index.write ++ [0]).getD [] ++
    (fs.fragment.map Fragment.write).getD [] ++ fs.body

-- `write` with the two things `read` does not keep as parameters: the three low bits of the
-- length field and the order channel byte.
def FrameSet.layout (fs : FrameSet) (lowBits : Nat) (channel : UInt8) : List UInt8 :=
  fs.seqNum.write ++ fs.flags.write ++ putU16 (fs.body.length <<< 3 + lowBits) ++
    (fs.reliableFrameIndex.map Uint24le.write).getD [] ++
    (fs.seqFrameIndex.map Uint24le.write).getD [] ++
    (fs.orderedFrameIndex.map fun index => index.write ++ [channel]).getD [] ++
    (fs.fragment.map Fragment.write).getD [] ++ fs.body

theorem write_eq_layout (fs : FrameSet) : fs.write = fs.layout 0 0 := rfl

-- Every field `write` puts before the body.
def FrameSet.header (fs : FrameSet) : List UInt8 :=
  fs.seqNum.write ++ fs.flags.write ++ putU16 (fs.body.length <<< 3) ++
    (fs.reliableFrameIndex.map Uint24le.write).getD [] ++
    (fs.seqFrameIndex.map Uint24le.write).getD [] ++
    (fs.orderedFrameIndex.map fun index => index.write ++ [0]).getD [] ++
    (fs.fragment.map Fragment.write).getD []

theorem write_eq_header (fs : FrameSet) : fs.write = fs.header ++ fs.body := rfl

def FrameSet.indices (fs : FrameSet) : List Uint24le :=
  fs.seqNum :: (fs.reliableFrameIndex.toList ++ fs.seqFrameIndex.toList ++ fs.orderedFrameIndex.toList)

-- A frame-set the writer can emit and the reader gives back: flags name a reliability, the
-- optional fields are present exactly as the flags say, indices fit in 24 bits, and the body
-- is non-empty and short enough for the 13-bit length.
def FrameSet.WellFormed (fs : FrameSet) : Prop :=
  (∃ r, fs.flags.reliability = .ok r ∧ fs.reliableFrameIndex.isSome = r.isReliable ∧
      fs.seqFrameIndex.isSome = r.isSequenced ∧ fs.orderedFrameIndex.isSome = r.isSequencedOrOrdered) ∧
    fs.fragment.isSome = fs.flags.parted ∧ (∀ i ∈ fs.indices, i.val < 2 ^ 24) ∧
    0 < fs.body.length ∧ fs.body.length < 8191

section Fields

variable {buf rest : List UInt8} {x : Uint24le} {flags : Flags} {fragment : Fragment} {α : Type}

theorem uint24_roundtrip (small : x.val < 2 ^ 24) (rest : List UInt8) :
    Uint24le.read (x.write ++ rest) = .ok (x,rest) := by
  have fits : x.val < 256 ^ 3 := small
  simp [Uint24le.read,Uint24le.write,getUintLe_roundtrip fits,pure,Except.pure]

theorem uint24_canonical (read : Uint24le.read buf = .ok (x,rest)) :
    buf = x.write ++ rest ∧ x.val < 2 ^ 24 := by
  obtain ⟨⟨v,tail⟩,got,done⟩ := bind_eq_ok.mp read
  cases done
  exact getUintLe_canonical got

theorem flags_roundtrip (rest : List UInt8) : Flags.read (flags.write ++ rest) = .ok (flags,rest) := rfl

theorem flags_canonical (read : Flags.read buf = .ok (flags,rest)) : buf = flags.write ++ rest := by
  cases buf with
  | nil => cases read
  | cons b tail => cases read; rfl

theorem u32_lt (a : UInt32) : a.toNat < 2 ^ 32 := a.toBitVec.isLt
theorem u16_lt (a : UInt16) : a.toNat < 2 ^ 16 := a.toBitVec.isLt

theorem ofNat_toNat32 (a : UInt32) : UInt32.ofNat a.toNat = a :=
  UInt32.toNat.inj (by show a.toNat % 2 ^ 32 = a.toNat; exact Nat.mod_eq_of_lt (u32_lt a))

theorem ofNat_toNat16 (a : UInt16) : UInt16.ofNat a.toNat = a :=
  UInt16.toNat.inj (by show a.toNat % 2 ^ 16 = a.toNat; exact Nat.mod_eq_of_lt (u16_lt a))

theorem fragment_roundtrip (rest : List UInt8) :
    Fragment.read (fragment.write ++ rest) = .ok (fragment,rest) := by
  simp only [Fragment.write,List.append_assoc,Fragment.read,getU32_roundtrip (u32_lt _),
    getU16_roundtrip (u16_lt _),bind_ok_eq,ofNat_toNat32,ofNat_toNat16]
  rfl

theorem fragment_canonical (read : Fragment.read buf = .ok (fragment,rest)) :
    buf = fragment.write ++ rest := by
  obtain ⟨⟨size,buf₁⟩,gotSize,read⟩ := bind_eq_ok.mp read
  obtain ⟨⟨ident,buf₂⟩,gotIdent,read⟩ := bind_eq_ok.mp read
  obtain ⟨⟨index,buf₃⟩,gotIndex,done⟩ := bind_eq_ok.mp read
  cases done
  obtain ⟨rfl,sizeLt⟩ := getU32_canonical gotSize
  obtain ⟨rfl,identLt⟩ := getU16_canonical gotIdent
  obtain ⟨rfl,indexLt⟩ := getU32_canonical gotIndex
  have (m : Nat) (lt : m < 2 ^ 32) : (UInt32.ofNat m).toNat = m := Nat.mod_eq_of_lt lt
  have ident : (UInt16.ofNat ident).toNat = ident := Nat.mod_eq_of_lt identLt
  simp [Fragment.write,this size sizeLt,this index indexLt,ident]

theorem ordered_roundtrip (small : x.val < 2 ^ 24) (channel : UInt8) (rest : List UInt8) :
    readOrdered (x.write ++ [channel] ++ rest) = .ok (x,rest) := by
  have skip : takeBytes 1 (channel :: rest) = .ok ([channel],rest) := @takeBytes_append 1 [channel] rest rfl
  simp [readOrdered,uint24_roundtrip small,advance,skip,pure,Except.pure]

theorem ordered_canonical (read : readOrdered buf = .ok (x,rest)) :
    ∃ channel, buf = x.write ++ [channel] ++ rest ∧ x.val < 2 ^ 24 := by
  obtain ⟨⟨index,tail⟩,got,read⟩ := bind_eq_ok.mp read
  obtain ⟨after,skipped,done⟩ := bind_eq_ok.mp read
  cases done
  obtain ⟨⟨skip,after⟩,taken,done⟩ := bind_eq_ok.mp skipped
  cases done
  obtain ⟨one,rfl⟩ := takeBytes_eq_ok.mp taken
  obtain ⟨rfl,small⟩ := uint24_canonical got
  match skip,one with
  | [channel],_ => exact ⟨channel,by simp,small⟩

-- An optional field comes back when it was written exactly when its flag says so.
theorem readIf_roundtrip {read : List UInt8 → Except Fault (α × List UInt8)} {write : α → List UInt8}
    {field : Option α} (each : ∀ a ∈ field, ∀ rest, read (write a ++ rest) = .ok (a,rest))
    (rest : List UInt8) :
    readIf field.isSome read ((field.map write).getD [] ++ rest) = .ok (field,rest) := by
  cases field with
  | none => rfl
  | some a => simp [readIf,each a rfl rest,pure,Except.pure]

theorem readIf_canonical {present : Bool} {read : List UInt8 → Except Fault (α × List UInt8)}
    {field : Option α} (got : readIf present read buf = .ok (field,rest)) :
    field.isSome = present ∧ (field = none ∧ buf = rest ∨ ∃ a, field = some a ∧ read buf = .ok (a,rest)) := by
  unfold readIf at got
  split at got
  · obtain ⟨⟨a,tail⟩,readA,done⟩ := bind_eq_ok.mp got
    cases done
    exact ⟨by simp [*],.inr ⟨a,rfl,readA⟩⟩
  · cases got
    exact ⟨by simp [*],.inl ⟨rfl,rfl⟩⟩

theorem readIf_layout {present : Bool} {read : List UInt8 → Except Fault (α × List UInt8)}
    {write : α → List UInt8} {field : Option α}
    (canon : ∀ {b r a}, read b = .ok (a,r) → b = write a ++ r)
    (got : readIf present read buf = .ok (field,rest)) :
    field.isSome = present ∧ buf = (field.map write).getD [] ++ rest := by
  obtain ⟨present,none | ⟨a,rfl,readA⟩⟩ := readIf_canonical got
  · obtain ⟨rfl,rfl⟩ := none; exact ⟨present,rfl⟩
  · exact ⟨present,canon readA⟩

end Fields

section Codec

variable {buf rest : List UInt8} {fs : FrameSet}

theorem length_field (short : fs.body.length < 8191) :
    (fs.body.length <<< 3) >>> 3 = fs.body.length ∧ fs.body.length <<< 3 < 2 ^ 16 := by
  simp only [Nat.shiftLeft_eq,Nat.shiftRight_eq_div_pow]
  omega

-- Everything up to the body is read back; the body is then `split_to(length)` of what follows.
theorem read_header (wf : fs.WellFormed) (tail : List UInt8) :
    FrameSet.read (fs.header ++ tail) =
      (do let (body,rest) ← splitTo tail fs.body.length; pure ({fs with body := body},rest)) := by
  obtain ⟨⟨r,hr,hrel,hseq,hord⟩,hfrag,small,pos,short⟩ := wf
  have reliable : ∀ a ∈ fs.reliableFrameIndex, ∀ rest, Uint24le.read (a.write ++ rest) = .ok (a,rest) :=
    fun a mem rest => uint24_roundtrip (small a (by simp [FrameSet.indices,mem])) rest
  have sequenced : ∀ a ∈ fs.seqFrameIndex, ∀ rest, Uint24le.read (a.write ++ rest) = .ok (a,rest) :=
    fun a mem rest => uint24_roundtrip (small a (by simp [FrameSet.indices,mem])) rest
  have ordered : ∀ a ∈ fs.orderedFrameIndex, ∀ rest, readOrdered (a.write ++ [0] ++ rest) = .ok (a,rest) :=
    fun a mem rest => ordered_roundtrip (small a (by simp [FrameSet.indices,mem])) 0 rest
  obtain ⟨back,fits⟩ := length_field short
  simp only [FrameSet.header,List.append_assoc,FrameSet.read,
    uint24_roundtrip (small _ (List.mem_cons_self _ _)),flags_roundtrip,getU16_roundtrip fits,bind_ok_eq,
    back,Nat.pos_iff_ne_zero.mp pos,if_false,hr,liftCodec,← hrel,← hseq,← hord,← hfrag,
    readIf_roundtrip reliable,readIf_roundtrip sequenced,readIf_roundtrip ordered,
    readIf_roundtrip (fun _ _ rest => fragment_roundtrip rest)]

theorem frameSet_roundtrip (wf : fs.WellFormed) (rest : List UInt8) :
    FrameSet.read (fs.write ++ rest) = .ok (fs,rest) := by
  rw [write_eq_header,List.append_assoc,read_header wf,splitTo,takeBytes_append rfl]
  rfl

theorem frameSet_canonical (read : FrameSet.read buf = .ok (fs,rest)) :
    ∃ lowBits channel, lowBits < 8 ∧ buf = fs.layout lowBits channel ++ rest := by
  obtain ⟨⟨seqNum,buf₁⟩,gotSeq,read⟩ := bind_eq_ok.mp read
  obtain ⟨⟨flags,buf₂⟩,gotFlags,read⟩ := bind_eq_ok.mp read
  obtain ⟨⟨lengthBits,buf₃⟩,gotLength,read⟩ := bind_eq_ok.mp read
  simp only at read
  split at read
  · cases read
  obtain ⟨r,gotR,read⟩ := bind_eq_ok.mp read
  obtain ⟨⟨rel,buf₄⟩,gotRel,read⟩ := bind_eq_ok.mp read
  obtain ⟨⟨sq,buf₅⟩,gotSq,read⟩ := bind_eq_ok.mp read
  obtain ⟨⟨ord,buf₆⟩,gotOrd,read⟩ := bind_eq_ok.mp read
  obtain ⟨⟨frag,buf₇⟩,gotFrag,read⟩ := bind_eq_ok.mp read
  obtain ⟨⟨body,buf₈⟩,gotBody,done⟩ := bind_eq_ok.mp read
  cases done
  obtain ⟨rfl,-⟩ := uint24_canonical gotSeq
  obtain rfl := flags_canonical gotFlags
  obtain ⟨rfl,-⟩ := getU16_canonical gotLength
  obtain ⟨-,rfl⟩ := readIf_layout (fun got => (uint24_canonical got).1) gotRel
  obtain ⟨-,rfl⟩ := readIf_layout (fun got => (uint24_canonical got).1) gotSq
  -- The order channel is the one byte the reader skips.
  obtain ⟨channel,rfl⟩ : ∃ channel : UInt8, buf₅ = (ord.map fun index => index.write ++ [channel]).getD [] ++ buf₆ := by
    obtain ⟨-,⟨rfl,rfl⟩ | ⟨index,rfl,gotIndex⟩⟩ := readIf_canonical gotOrd
    · exact ⟨0,rfl⟩
    · obtain ⟨channel,rfl,-⟩ := ordered_canonical gotIndex
      exact ⟨channel,by simp⟩
  obtain ⟨-,rfl⟩ := readIf_layout (fun got => fragment_canonical got) gotFrag
  obtain ⟨taken,rfl⟩ := takeBytes_eq_ok.mp gotBody
  refine ⟨lengthBits % 8,channel,Nat.mod_lt _ (by decide),?_⟩
  simp only [FrameSet.layout,taken,List.append_assoc,Nat.shiftLeft_eq,Nat.shiftRight_eq_div_pow,Nat.div_add_mod']

theorem frameSet_codec_inverse :
    (∀ fs : FrameSet, fs.WellFormed → ∀ rest, FrameSet.read (fs.write ++ rest) = .ok (fs,rest)) ∧
    ∀ buf rest (fs : FrameSet), FrameSet.read buf = .ok (fs,rest) → fs.body.length < 8191 →
      ∃ lowBits channel, lowBits < 8 ∧ buf = fs.layout lowBits channel ++ rest ∧ fs.write = fs.layout 0 0 :=
  ⟨fun _ wf rest => frameSet_roundtrip wf rest,fun _ _ _ read _ =>
    let ⟨lowBits,channel,low,split⟩ := frameSet_canonical read
    ⟨lowBits,channel,low,split,write_eq_layout _⟩⟩

-- Reliable-ordered and parted, so every optional field is present but the sequenced index.
def sampleFrameSet : FrameSet := ⟨⟨5⟩,⟨0x70⟩,some ⟨7⟩,none,some ⟨9⟩,some ⟨1,2,3⟩,[1,2,3]⟩

theorem frameSet_codec_inverse_sample :
    sampleFrameSet.WellFormed ∧ FrameSet.read (sampleFrameSet.write ++ [9]) = .ok (sampleFrameSet,[9]) :=
  have wf : sampleFrameSet.WellFormed := ⟨⟨.reliableOrdered,rfl,rfl,rfl,rfl⟩,rfl,by decide,by decide,by decide⟩
  ⟨wf,frameSet_codec_inverse.1 _ wf [9]⟩

end Codec

end RaknetRs
