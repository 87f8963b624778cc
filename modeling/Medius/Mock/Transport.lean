import Medius.Mock.Responder

/-! The in-memory transport: the box decodes what the host writes, and the host reads the bytes of
what the box sends.  A frame too long to encode ends it all. -/

namespace Medius.Mock

open Protocol

structure MockTransport where
  inbound : List UInt8
  outDecoder : FrameDecoder
  box : Box

namespace MockTransport

def new (b : Box) : MockTransport where
  inbound := []
  outDecoder := .new
  box := b

def pushBytes (t : MockTransport) (bytes : List UInt8) : MockTransport :=
  { t with inbound := t.inbound ++ bytes }

def pushFrame (t : MockTransport) (f : DecodedFrame) : Except FrameError MockTransport := do
  return t.pushBytes (← encode f.ty f.seq f.payload)

variable (digest : List UInt8 → Vector UInt8 32)

/-- One frame of a write, after the replies to those before it. -/
def answer (now : Nat) (st : Box × List UInt8) (f : DecodedFrame) :
    Except FrameError (Box × List UInt8) := do
  let (b, out) := st.1.onFrame digest now f
  return (b, st.2 ++ (← Box.encodeAll out))

def writeAll (t : MockTransport) (now : Nat) (buf : List UInt8) :
    Except FrameError MockTransport := do
  let (decoder, frames) := t.outDecoder.feed buf
  let (b, replies) ← frames.foldlM (answer digest now) (t.box, [])
  return { inbound := t.inbound ++ replies, outDecoder := decoder, box := b }

def read (t : MockTransport) (n : Nat) : List UInt8 × MockTransport :=
  (t.inbound.take n, { t with inbound := t.inbound.drop n })

/-- What happens to the box otherwise, and what it says at that. -/
def befall (t : MockTransport) (now : Nat) (e : Box.Event) : Except FrameError MockTransport := do
  let (b, out) := t.box.step digest now e
  return { t with box := b }.pushBytes (← Box.encodeAll out)

end MockTransport

end Medius.Mock
