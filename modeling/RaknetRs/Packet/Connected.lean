import RaknetRs.Packet.Packer

namespace RaknetRs

-- A packet of an established connection; the pack id before it is the enclosing codec's.
inductive Packet where
  | frameSet (fs : FrameSet)
  | ack (ack : Ack)
  | nack (nack : Ack)
deriving DecidableEq, Repr

def Packet.readFrameSet (buf : List UInt8) : Except Fault (Packet × List UInt8) := do
  let (fs,rest) ← FrameSet.read buf
  pure (.frameSet fs,rest)

def Packet.readAck (buf : List UInt8) : Except Fault (Packet × List UInt8) := do
  let (received,rest) ← Ack.read buf
  pure (.ack received,rest)

def Packet.readNack (buf : List UInt8) : Except Fault (Packet × List UInt8) := do
  let (received,rest) ← Ack.read buf
  pure (.nack received,rest)

def Packet.write : Packet → List UInt8
  | .frameSet fs => fs.write
  | .ack records | .nack records => records.write

-- No reader checks what remains before a `Buf` read: a datagram holding nothing after the
-- pack id makes each of them panic rather than return an error.
theorem readers_panic_on_empty_body :
    Packet.readFrameSet [] = .error .panic ∧ Packet.readAck [] = .error .panic ∧
      Packet.readNack [] = .error .panic := by decide

end RaknetRs
