import Medius.Device.Unsent
import Medius.Lib.Packing
import Medius.Types.ClipFrame

/-! A clip's entries encoded, cut into payloads and appended. -/

namespace Medius.Device

open Protocol Link Medius.Types

def validateRawDirection (direction : Direction) : Except Error Unit :=
  match direction with
  | .positive | .negative => .ok ()
  | d => if d.isRelative then .error (.relativeDirection d "raw endpoint") else .error (.rawDirection d)

/-- The bytes of a transfer's data stage that follow its setup packet. -/
def outLen (setup : Setup) : Nat := if setup.isIn then 0 else setup.length.toNat

def validateTransferData (item : TransferItem) : Except Error Unit :=
  if item.out.length ≠ outLen item.setup then
    .error (.clipTransferData (outLen item.setup) item.out.length)
  else .ok ()

/-- An empty tick would collide with the gap's tag: it is a zero cursor motion. -/
def orFlags (xy wheel pan edges raw xfer : Bool) : UInt8 :=
  let flags :=
    (if xy then clipFXy else 0) ||| (if wheel then clipFWheel else 0) |||
    (if pan then clipFPan else 0) ||| (if edges then clipFEdges else 0) |||
    (if raw then clipFRaw else 0) ||| (if xfer then clipFXfer else 0)
  if flags = 0 then clipFXy else flags

def frameFlags (f : ClipFrame) : UInt8 :=
  orFlags (f.dx ≠ 0 || f.dy ≠ 0) (f.wheel ≠ 0) (f.pan ≠ 0) (f.edges ≠ []) (f.raw ≠ [])
    (f.transfers ≠ [])

/-- A list's length in its byte. -/
def count {α : Type} (items : List α) : UInt8 := UInt8.ofNat items.length

def edgeBytes (e : Usage × Action) : List UInt8 :=
  e.1.classId.1 :: toLeBytes e.1.classId.2 ++ [e.2.asU8]

def rawLen (item : RawItem) : UInt16 := UInt16.ofNat item.bytes.length

def rawBytes (item : RawItem) : List UInt8 :=
  [item.ep &&& 0x0F, item.direction.asU8] ++ toLeBytes (rawLen item) ++ item.bytes

def transferBytes (item : TransferItem) : List UInt8 :=
  item.ep :: item.setup.toBytes ++ item.out

/-- Fields follow the tag in this order, not the flags' bit order. -/
def frameBytes (f : ClipFrame) : List UInt8 :=
  let flags := frameFlags f
  [flags] ++
  (if flags &&& clipFXy ≠ 0 then toLeBytes f.dx.toUInt16 ++ toLeBytes f.dy.toUInt16 else []) ++
  (if flags &&& clipFWheel ≠ 0 then toLeBytes f.wheel.toUInt16 else []) ++
  (if flags &&& clipFPan ≠ 0 then toLeBytes f.pan.toUInt16 else []) ++
  (if flags &&& clipFEdges ≠ 0 then count f.edges :: f.edges.flatMap edgeBytes else []) ++
  (if flags &&& clipFRaw ≠ 0 then count f.raw :: f.raw.flatMap rawBytes else []) ++
  (if flags &&& clipFXfer ≠ 0 then count f.transfers :: f.transfers.flatMap transferBytes else [])

def encodeFrame (f : ClipFrame) : Except Error (List UInt8) :=
  if f.edges.length > clipEdgesMax then
    .error (.clipFrameCount "edges" f.edges.length clipEdgesMax)
  else if f.raw.length > clipRawMax then
    .error (.clipFrameCount "raw reports" f.raw.length clipRawMax)
  else
    match f.raw.forM fun item => validateRawDirection item.direction with
    | .error e => .error e
    | .ok () =>
      match f.transfers.forM validateTransferData with
      | .error e => .error e
      | .ok () =>
        if f.byteLen > clipEntryMax then .error (.clipFrameTooLong f.byteLen)
        else .ok (frameBytes f)

def encodeEntry : ClipEntry → Except Error (List UInt8)
  | .gap n => .ok (clipTagGap :: toLeBytes n)
  | .frame f => encodeFrame f

def encodeEntries (limit : Nat) (s : List (List UInt8) × List UInt8) :
    List ClipEntry → Except Error (List (List UInt8) × List UInt8)
  | [] => .ok s
  | e :: es =>
    match encodeEntry e with
    | .error err => .error err
    | .ok entry => encodeEntries limit (Packing.push limit s entry) es

/-- Every entry is validated before any chunk is returned. -/
def encodeChunks (clip : ClipBuilder) (limit : Nat) : Except Error (List (List UInt8)) :=
  (encodeEntries limit ([], []) clip.entries).map Packing.finish

namespace ClipHandle

variable {σ : Type} (send : σ → List UInt8 → σ × Except Error Unit)

def sendChunks (s : σ) (d : DesiredState) : List (List UInt8) → σ × DesiredState × Except Error Unit
  | [] => (s, d, .ok ())
  | chunk :: chunks =>
    match send s chunk with
    | (s, .error e) => (s, d, .error e)
    | (s, .ok ()) => sendChunks s (d.clipLoaded true) chunks

/-- `send` stamps and writes one chunk; its state is the link's. -/
def append (s : σ) (d : DesiredState) (clip : ClipBuilder) : σ × DesiredState × Except Error Unit :=
  match encodeChunks clip maxPayload with
  | .error e => (s, d, .error e)
  | .ok chunks => sendChunks send s d chunks

end ClipHandle

end Medius.Device
