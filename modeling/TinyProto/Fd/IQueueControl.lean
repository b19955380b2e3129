import TinyProto.Fd.Defines

namespace TinyProto

structure IQueueControlSend where
  lastNs : UInt8
  confirmNs : UInt8
  nextNs : UInt8
  deriving DecidableEq, Repr

structure IQueueControlRecv where
  nextNr : UInt8
  deriving DecidableEq, Repr

structure IQueueControl where
  txState : IQueueControlSend
  rxState : IQueueControlRecv
  deriving DecidableEq, Repr

namespace IQueueControl

def new : IQueueControl := ⟨⟨0, 0, 0⟩, ⟨0⟩⟩

def reset (_ : IQueueControl) : IQueueControl := ⟨⟨0, 0, 0⟩, ⟨0⟩⟩

def getNextFrameToConfirm (c : IQueueControl) : UInt8 := c.txState.confirmNs

variable {σ : Type}

/-- The rounds of `confirm_sent_frames`; `onConfirm` threads the state that the
source's closure captures. -/
def confirmLoop (nr : UInt8) (onConfirm : σ → UInt8 → σ × Bool) :
    ℕ → IQueueControl → σ → Bool → IQueueControl × σ × Bool
  | 0, c, s, confirmed => (c, s, confirmed)
  | fuel + 1, c, s, confirmed =>
    if c.txState.confirmNs = nr then (c, s, confirmed)
    else
      match onConfirm s c.txState.confirmNs with
      | (s, false) => (c, s, confirmed)
      | (s, true) =>
        confirmLoop nr onConfirm fuel
          { c with txState :=
            { c.txState with confirmNs := (c.txState.confirmNs + 1) &&& seqBitsMask } }
          s true

/-- Eight rounds pass through every sequence number, so the loop has met any `nr` up
to 7 by then (`confirmSentFrames_true`). -/
def confirmSentFrames (c : IQueueControl) (nr : UInt8) (onConfirm : σ → UInt8 → σ × Bool) (s : σ) :
    IQueueControl × σ × Bool :=
  confirmLoop nr onConfirm 8 c s false

def retransmitFrame (c : IQueueControl) (nr : UInt8) (onRetransmit : UInt8 → Bool) :
    IQueueControl × Bool :=
  if c.txState.nextNs = nr then (c, false)
  else ({ c with txState := { c.txState with nextNs := nr } }, onRetransmit nr)

def getLastNs (c : IQueueControl) : UInt8 := c.txState.lastNs

def getNextFrameToSend (c : IQueueControl) : UInt8 := c.txState.nextNs

def getNextFrameToReceive (c : IQueueControl) : UInt8 := c.rxState.nextNr

def moveToNextFrameToReceive (c : IQueueControl) : IQueueControl :=
  { c with rxState := ⟨(c.rxState.nextNr + 1) &&& seqBitsMask⟩ }

@[simp] theorem txState_moveToNextFrameToReceive (c : IQueueControl) :
    c.moveToNextFrameToReceive.txState = c.txState := rfl

def moveToNextNs (c : IQueueControl) : IQueueControl :=
  { c with txState := { c.txState with lastNs := (c.txState.lastNs + 1) &&& seqBitsMask } }

def advanceNextNs (c : IQueueControl) : IQueueControl :=
  { c with txState := { c.txState with nextNs := (c.txState.nextNs + 1) &&& seqBitsMask } }

def hasUnconfirmedFrames (c : IQueueControl) : Bool := c.txState.confirmNs != c.txState.lastNs

def allFramesAreSent (c : IQueueControl) : Bool := c.txState.nextNs == c.txState.lastNs

def txFull (c : IQueueControl) : Bool :=
  ((c.txState.lastNs + 1) &&& seqBitsMask) == c.txState.confirmNs

end IQueueControl

end TinyProto
