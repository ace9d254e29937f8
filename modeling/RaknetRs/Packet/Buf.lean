import Mathlib.Algebra.Order.Ring.Nat
import Mathlib.Data.List.Basic

namespace RaknetRs

/-- Modelled from the spec: `crate::errors::CodecError` is not under src/; these are the
variants the connected-packet codec raises (spec section 7). -/
inductive CodecError where
  | invalidPacketLength
  | invalidReliability (r : UInt8)
  | invalidRecordType (recordType : UInt8)
  | ackCountExceed
deriving DecidableEq, Repr

-- What a call can end in besides its value: a codec error returned as `Err`, or a panic
-- (a `bytes` read past the end, a failed debug assertion, an arithmetic overflow of a
-- debug build).
inductive Fault where
  | codec (e : CodecError)
  | panic
deriving DecidableEq, Repr

instance instDecidableEqExcept {ε α : Type} [DecidableEq ε] [DecidableEq α] : DecidableEq (Except ε α)
  | .ok a,.ok b => if same : a = b then isTrue (same ▸ rfl) else isFalse fun eq => same (Except.ok.inj eq)
  | .error a,.error b => if same : a = b then isTrue (same ▸ rfl) else isFalse fun eq => same (Except.error.inj eq)
  | .ok _,.error _ => isFalse Except.noConfusion
  | .error _,.ok _ => isFalse Except.noConfusion

-- `bytes::Buf` reads consume the front of the buffer; every fixed-width getter, `advance`
-- and `split_to` panic when fewer bytes remain than they ask for.
def takeBytes (n : Nat) (buf : List UInt8) : Except Fault (List UInt8 × List UInt8) :=
  if n ≤ buf.length then .ok (buf.take n,buf.drop n) else .error .panic

def leValue : List UInt8 → Nat
  | [] => 0
  | b :: rest => b.toNat + 256 * leValue rest

def beValue (bytes : List UInt8) : Nat := leValue bytes.reverse

def getU8 : List UInt8 → Except Fault (UInt8 × List UInt8)
  | [] => .error .panic
  | b :: rest => .ok (b,rest)

def getU16 (buf : List UInt8) : Except Fault (Nat × List UInt8) := do
  let (bytes,rest) ← takeBytes 2 buf
  pure (beValue bytes,rest)

def getU32 (buf : List UInt8) : Except Fault (Nat × List UInt8) := do
  let (bytes,rest) ← takeBytes 4 buf
  pure (beValue bytes,rest)

def getUintLe (buf : List UInt8) (width : Nat) : Except Fault (Nat × List UInt8) := do
  let (bytes,rest) ← takeBytes width buf
  pure (leValue bytes,rest)

def advance (buf : List UInt8) (cnt : Nat) : Except Fault (List UInt8) := do
  let (_,rest) ← takeBytes cnt buf
  pure rest

def splitTo (buf : List UInt8) (at_ : Nat) : Except Fault (List UInt8 × List UInt8) :=
  takeBytes at_ buf

-- `bytes::BufMut` writes append; a value wider than the field keeps its low bytes, which is
-- also what an `as u16` cast before `put_u16` does.
def leBytes : Nat → Nat → List UInt8
  | 0,_ => []
  | width+1,n => UInt8.ofNat n :: leBytes width (n / 256)

def beBytes (width n : Nat) : List UInt8 := (leBytes width n).reverse

def putU16 (n : Nat) : List UInt8 := beBytes 2 n
def putU32 (n : Nat) : List UInt8 := beBytes 4 n
def putUintLe (n width : Nat) : List UInt8 := leBytes width n

section Reads

variable {n : Nat} {buf pre rest : List UInt8} {α β : Type} {x : Except Fault α}
  {f : α → Except Fault β}

@[simp] theorem bind_ok_eq (a : α) : (Except.ok a >>= f) = f a := rfl
@[simp] theorem bind_error_eq (e : Fault) : (Except.error e >>= f) = .error e := rfl

theorem bind_eq_ok {b : β} : (x >>= f) = .ok b ↔ ∃ a, x = .ok a ∧ f a = .ok b := by
  cases x <;> simp [bind,Except.bind]

theorem bind_eq_error {e : Fault} :
    (x >>= f) = .error e ↔ x = .error e ∨ ∃ a, x = .ok a ∧ f a = .error e := by
  cases x <;> simp [bind,Except.bind]

@[simp] theorem takeBytes_append (exact : pre.length = n) :
    takeBytes n (pre ++ rest) = .ok (pre,rest) := by
  subst exact; simp [takeBytes]

theorem takeBytes_eq_ok : takeBytes n buf = .ok (pre,rest) ↔ pre.length = n ∧ buf = pre ++ rest := by
  unfold takeBytes
  split
  · rename_i fits
    simp only [Except.ok.injEq,Prod.mk.injEq]
    constructor
    · rintro ⟨rfl,rfl⟩; simp [fits]
    · rintro ⟨rfl,rfl⟩; simp
  · rename_i short
    simp only [reduceCtorEq,false_iff,not_and]
    rintro rfl rfl; simp at short

theorem takeBytes_eq_error {e : Fault} : takeBytes n buf = .error e ↔ buf.length < n ∧ e = .panic := by
  unfold takeBytes
  split <;> simp_all [eq_comm]

@[simp] theorem getU8_cons (b : UInt8) : getU8 (b :: rest) = .ok (b,rest) := rfl

end Reads

section Bytes

theorem byte_lt (b : UInt8) : b.toNat < 256 := b.toBitVec.isLt

theorem length_leBytes (width n : Nat) : (leBytes width n).length = width := by
  induction width generalizing n with
  | zero => rfl
  | succ width ih => simp [leBytes,ih]

@[simp] theorem length_beBytes (width n : Nat) : (beBytes width n).length = width := by
  simp [beBytes,length_leBytes]

theorem leValue_leBytes (width n : Nat) : leValue (leBytes width n) = n % 256 ^ width := by
  induction width generalizing n with
  | zero => simp [leBytes,leValue,Nat.mod_one]
  | succ width ih =>
    have low : (UInt8.ofNat n).toNat = n % 256 := rfl
    simp only [leBytes,leValue,low,ih,Nat.pow_succ',Nat.mod_mul,Nat.mod_mul_left_div_self]

theorem leBytes_leValue (bytes : List UInt8) : leBytes bytes.length (leValue bytes) = bytes := by
  induction bytes with
  | nil => rfl
  | cons b rest ih =>
    have low : UInt8.ofNat (b.toNat + 256 * leValue rest) = b :=
      UInt8.toNat.inj (by show (b.toNat + 256 * leValue rest) % 256 = b.toNat; have := byte_lt b; omega)
    have high : (b.toNat + 256 * leValue rest) / 256 = leValue rest := by have := byte_lt b; omega
    simp only [List.length_cons,leBytes,leValue,low,high,ih]

theorem leValue_lt (bytes : List UInt8) : leValue bytes < 256 ^ bytes.length := by
  induction bytes with
  | nil => simp [leValue]
  | cons b rest ih => have := byte_lt b; simp only [leValue,List.length_cons,Nat.pow_succ']; omega

@[simp] theorem beValue_beBytes (width n : Nat) : beValue (beBytes width n) = n % 256 ^ width := by
  simp [beValue,beBytes,leValue_leBytes]

theorem beBytes_beValue (bytes : List UInt8) : beBytes bytes.length (beValue bytes) = bytes := by
  have := leBytes_leValue bytes.reverse
  simp only [List.length_reverse] at this
  simp [beBytes,beValue,this]

theorem beValue_lt (bytes : List UInt8) : beValue bytes < 256 ^ bytes.length := by
  simpa [beValue] using leValue_lt bytes.reverse

end Bytes

section Fields

variable {buf rest : List UInt8} {n width : Nat}

-- Each fixed-width read gives back what the matching write put, and what it read is what
-- that write would have put.
theorem getUintLe_roundtrip (small : n < 256 ^ width) (rest : List UInt8) :
    getUintLe (putUintLe n width ++ rest) width = .ok (n,rest) := by
  simp [getUintLe,putUintLe,length_leBytes,leValue_leBytes,Nat.mod_eq_of_lt small,pure,Except.pure]

theorem getUintLe_canonical (read : getUintLe buf width = .ok (n,rest)) :
    buf = putUintLe n width ++ rest ∧ n < 256 ^ width := by
  obtain ⟨⟨bytes,tail⟩,taken,done⟩ := bind_eq_ok.mp read
  obtain ⟨rfl,rfl⟩ := takeBytes_eq_ok.mp taken
  cases done
  exact ⟨by rw [putUintLe,leBytes_leValue],leValue_lt bytes⟩

theorem getBe_roundtrip (small : n < 256 ^ width) (rest : List UInt8) :
    (do let (bytes,rest) ← takeBytes width (beBytes width n ++ rest); pure (beValue bytes,rest)) =
      (Except.ok (n,rest) : Except Fault (Nat × List UInt8)) := by
  simp [Nat.mod_eq_of_lt small,pure,Except.pure]

theorem getBe_canonical
    (read : (do let (bytes,rest) ← takeBytes width buf; pure (beValue bytes,rest)) =
      (Except.ok (n,rest) : Except Fault (Nat × List UInt8))) :
    buf = beBytes width n ++ rest ∧ n < 256 ^ width := by
  obtain ⟨⟨bytes,tail⟩,taken,done⟩ := bind_eq_ok.mp read
  obtain ⟨rfl,rfl⟩ := takeBytes_eq_ok.mp taken
  cases done
  exact ⟨by rw [beBytes_beValue],beValue_lt bytes⟩

theorem getU16_roundtrip (small : n < 2 ^ 16) (rest : List UInt8) :
    getU16 (putU16 n ++ rest) = .ok (n,rest) := getBe_roundtrip small rest

theorem getU16_canonical (read : getU16 buf = .ok (n,rest)) : buf = putU16 n ++ rest ∧ n < 2 ^ 16 :=
  getBe_canonical read

theorem getU32_roundtrip (small : n < 2 ^ 32) (rest : List UInt8) :
    getU32 (putU32 n ++ rest) = .ok (n,rest) := getBe_roundtrip small rest

theorem getU32_canonical (read : getU32 buf = .ok (n,rest)) : buf = putU32 n ++ rest ∧ n < 2 ^ 32 :=
  getBe_canonical read

end Fields

end RaknetRs
