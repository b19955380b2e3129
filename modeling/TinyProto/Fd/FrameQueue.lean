import TinyProto.Crc

namespace TinyProto

structure FrameHeader where
  address : UInt8
  control : UInt8
  deriving DecidableEq, Repr

inductive QueuedFrameType
  | free
  | uFrame
  | sFrame
  | iFrame
  deriving DecidableEq, Repr

structure FrameInfo where
  frameType : QueuedFrameType
  header : FrameHeader
  payload : Bytes
  deriving DecidableEq, Repr

namespace FrameInfo

def toBytes (frame : FrameInfo) : Bytes :=
  frame.header.address :: frame.header.control :: frame.payload

def ns (frame : FrameInfo) : UInt8 := (frame.header.control >>> 5) &&& 0x07

end FrameInfo

structure FrameQueue where
  frames : List (Option FrameInfo)
  mtu : ℕ
  lookupIndex : ℕ
  deriving DecidableEq, Repr

namespace FrameQueue

def new (maxFrames mtu : ℕ) : FrameQueue := ⟨List.replicate maxFrames none, mtu, 0⟩

def reset (q : FrameQueue) : FrameQueue :=
  { q with frames := q.frames.map (fun _ ↦ none), lookupIndex := 0 }

def resetFor (q : FrameQueue) (address : UInt8) : FrameQueue :=
  { q with frames := q.frames.map fun slot ↦
      match slot with
      | some frame => if frame.header.address = address then none else some frame
      | none => none }

def hasFreeSlots (q : FrameQueue) : Bool := q.frames.any Option.isNone

/-- The search starts at `lookup_index` and wraps; the result is the slot taken. -/
def allocate (q : FrameQueue) (frameType : QueuedFrameType) (header : FrameHeader) (data : Bytes) :
    FrameQueue × Option ℕ :=
  let len := q.frames.length
  match (List.range len).find? (fun i ↦ (q.frames[(q.lookupIndex + i) % len]?).join.isNone) with
  | some i =>
    let idx := (q.lookupIndex + i) % len
    ({ q with frames := q.frames.set idx (some ⟨frameType, header, data⟩), lookupIndex :=
      (idx + 1) % len },
      some idx)
  | none => (q, none)

def getNext (q : FrameQueue) (frameType : QueuedFrameType) (address arg : UInt8) :
    Option (ℕ × FrameInfo) :=
  q.frames.zipIdx.findSome? fun (slot, i) ↦
    match slot with
    | some frame =>
      if frame.frameType = frameType ∧ frame.header.address = address then
        if frameType = .iFrame ∧ frame.ns ≠ arg then none else some (i, frame)
      else none
    | none => none

def get (q : FrameQueue) (index : ℕ) : Option FrameInfo := (q.frames[index]?).join

def free (q : FrameQueue) (index : ℕ) : FrameQueue := { q with frames := q.frames.set index none }

def freeFirst (q : FrameQueue) (p : FrameInfo → Bool) : FrameQueue :=
  match q.frames.findIdx? (fun slot ↦ slot.any p) with
  | some i => q.free i
  | none => q

def freeByHeader (q : FrameQueue) (address control : UInt8) : FrameQueue :=
  q.freeFirst fun frame ↦ frame.header.address == address && frame.header.control == control

def freeByNs (q : FrameQueue) (address ns : UInt8) : FrameQueue :=
  q.freeFirst fun frame ↦
    frame.header.address == address && frame.frameType == .iFrame && frame.ns == ns

def count (q : FrameQueue) : ℕ := (q.frames.filter Option.isSome).length

def capacity (q : FrameQueue) : ℕ := q.frames.length

end FrameQueue

structure FramesQueue where
  iQueue : FrameQueue
  sQueue : FrameQueue
  deriving DecidableEq, Repr

namespace FramesQueue

def new (iQueueSize sQueueSize mtu : ℕ) : FramesQueue := ⟨.new iQueueSize mtu, .new sQueueSize mtu⟩

/-- The body of the source's `reset` is empty. -/
def reset (q : FramesQueue) : FramesQueue := q

end FramesQueue

end TinyProto
