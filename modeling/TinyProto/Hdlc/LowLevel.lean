import TinyProto.Crc
import TinyProto.Error

namespace TinyProto

def flagSequence : UInt8 := 0x7E
def escapeChar : UInt8 := 0x7D
def escapeBit : UInt8 := 0x20

inductive ResetFlags
  | both
  | txOnly
  | rxOnly
  deriving DecidableEq, Repr

inductive RxState
  | start
  | data
  | end_
  deriving DecidableEq, Repr

inductive TxState
  | start
  | data
  | crc
  | end_
  deriving DecidableEq, Repr

structure HdlcLlInit where
  crcType : HdlcCrcT
  mtu : ℕ
  rxBufSize : ℕ

/-- The framing state machine. `rxFrames` and `txSentFrames` are the two
notification queues that the owner drains. -/
structure HdlcLl where
  crcType : HdlcCrcT
  physMtu : ℕ
  rxBuf : Bytes
  rxState : RxState
  rxPtr : ℕ
  rxEscape : Bool
  txState : TxState
  txData : Option Bytes
  txPos : ℕ
  txCrc : UInt32
  txCrcBitsSent : ℕ
  txEscape : Bool
  rxFrames : List Bytes
  txSentFrames : List Bytes
  deriving DecidableEq, Repr

def isSpecial (b : UInt8) : Bool := b == flagSequence || b == escapeChar

def calculateCrc (crcType : HdlcCrcT) (data : Bytes) : UInt32 :=
  match crcType with
  | .hdlcCrc8 => (Crc8.new.sumBytes data).get.toUInt32
  | .hdlcCrc16 => (Crc16.new.sumBytes data).get.toUInt32
  | .hdlcCrc32 | .hdlcCrcDefault => (Crc32.new.sumBytes data).get
  | .hdlcCrcOff => 0

namespace HdlcLl

def new (init : HdlcLlInit) : TinyResult HdlcLl :=
  if init.rxBufSize = 0 then .error .invalidData
  else .ok {
    crcType := init.crcType
    physMtu := if init.mtu > 0 then init.mtu + getCrcFieldSize init.crcType else init.rxBufSize
    rxBuf := []
    rxState := .start
    rxPtr := 0
    rxEscape := false
    txState := .start
    txData := none
    txPos := 0
    txCrc := 0
    txCrcBitsSent := 0
    txEscape := false
    rxFrames := []
    txSentFrames := [] }

def reset (ll : HdlcLl) (flags : ResetFlags) : HdlcLl :=
  let ll :=
    if flags ≠ .txOnly then
      { ll with rxState := .start, rxBuf := [], rxPtr := 0, rxEscape := false }
    else ll
  if flags ≠ .rxOnly then
    { ll with txData := none, txPos := 0, txEscape := false, txState := .start, txCrcBitsSent := 0 }
  else ll

def putFrame (ll : HdlcLl) (data : Bytes) : HdlcLl × TinyResult Unit :=
  if data = [] then (ll, .ok ())
  else if ll.txData.isSome then (ll, .error .busy)
  else ({ ll with txData := some data, txPos := 0 }, .ok ())

def isTxBusy (ll : HdlcLl) : Bool := ll.txData.isSome

def readCrcFromBuffer (ll : HdlcLl) (payloadLen : ℕ) : UInt32 :=
  (List.range (getCrcFieldSize ll.crcType)).foldl
    (fun v i ↦ v ||| (ll.rxBuf.getD (payloadLen + i) 0).toUInt32 <<< UInt32.ofNat (i * 8)) 0

/-- The `Start` arm of `run_rx` on one byte. -/
def rxStart (ll : HdlcLl) (byte : UInt8) : HdlcLl :=
  if byte = flagSequence then
    { ll with rxEscape := false, rxBuf := [], rxPtr := 0, rxState := .data }
  else ll

def rxData (ll : HdlcLl) (byte : UInt8) : HdlcLl :=
  if byte = flagSequence then { ll with rxState := .end_ }
  else if byte = escapeChar then { ll with rxEscape := true }
  else
    let decoded := if ll.rxEscape then byte ^^^ escapeBit else byte
    let ll := { ll with rxEscape := false }
    -- bytes past the MTU are dropped silently
    if ll.rxPtr < ll.physMtu then
      { ll with rxBuf := ll.rxBuf ++ [decoded], rxPtr := ll.rxPtr + 1 }
    else ll

/-- The `End` arm of `run_rx`, which reads no byte and breaks out of the loop
with an error or stays in it. -/
def rxEnd (ll : HdlcLl) : HdlcLl × Option TinyError :=
  if ll.rxBuf = [] then ({ ll with rxEscape := false, rxState := .data }, none)
  else
    let ll := { ll with rxState := .start }
    let len := ll.rxBuf.length
    if len > ll.physMtu then (ll, some .dataTooLarge)
    else if len < getCrcFieldSize ll.crcType then (ll, some .wrongCrc)
    else
      let payloadLen := len - getCrcFieldSize ll.crcType
      if calculateCrc ll.crcType (ll.rxBuf.take payloadLen) ≠ ll.readCrcFromBuffer payloadLen then
        (ll, some .wrongCrc)
      else ({ ll with rxFrames := ll.rxFrames ++ [ll.rxBuf.take payloadLen], rxBuf := [] }, none)

/-- The loop of `run_rx` over the remaining input. An iteration in `End` reads
no byte and leaves `End`, so at most one of them stands before each byte and
one after the last. -/
def runRxLoop (ll : HdlcLl) (consumed : ℕ) : Bytes → HdlcLl × ℕ × Option TinyError
  | [] => if ll.rxState = .end_ then (ll.rxEnd.1, consumed, ll.rxEnd.2) else (ll, consumed, none)
  | byte :: data =>
    match ll.rxState with
    | .start => runRxLoop (ll.rxStart byte) (consumed + 1) data
    | .data => runRxLoop (ll.rxData byte) (consumed + 1) data
    | .end_ =>
      match ll.rxEnd with
      | (ll, some error) => (ll, consumed, some error)
      | (ll, none) =>
        if ll.rxState = .start then runRxLoop (ll.rxStart byte) (consumed + 1) data
        else runRxLoop (ll.rxData byte) (consumed + 1) data

def runRx (ll : HdlcLl) (data : Bytes) : HdlcLl × ℕ × Option TinyError := ll.runRxLoop 0 data

def getRxFrame (ll : HdlcLl) : HdlcLl × Option Bytes :=
  match ll.rxFrames with
  | [] => (ll, none)
  | frame :: rest => ({ ll with rxFrames := rest }, some frame)

/-- The `tx_send_*` functions take the room left in the output buffer and give
the bytes they write there. -/
def txSendStart (ll : HdlcLl) (room : ℕ) : HdlcLl × Bytes :=
  match ll.txData with
  | none => (ll, [])
  | some data =>
    if room = 0 then (ll, [])
    else
      ({ ll with
          txCrc := calculateCrc ll.crcType data
          txState := .data
          txPos := 0
          txEscape := false }, [flagSequence])

/-- The result is `none` where the source unwraps an absent `tx_data`. -/
def txSendData (ll : HdlcLl) (room : ℕ) : Option (HdlcLl × Bytes) :=
  if room = 0 then some (ll, [])
  else
    match ll.txData with
    | none => none
    | some data =>
      match data[ll.txPos]? with
      | none => some ({ ll with txState := .crc, txCrcBitsSent := 0, txEscape := false }, [])
      | some byte =>
        if isSpecial byte then
          if !ll.txEscape then some ({ ll with txEscape := true }, [escapeChar])
          else some ({ ll with txEscape := false, txPos := ll.txPos + 1 }, [byte ^^^ escapeBit])
        else
          let run := ((data.drop ll.txPos).take room).takeWhile (fun b ↦ !isSpecial b)
          some ({ ll with txPos := ll.txPos + run.length }, run)

def txSendCrc (ll : HdlcLl) (room : ℕ) : HdlcLl × Bytes :=
  if room = 0 then (ll, [])
  else if ll.txCrcBitsSent ≥ getCrcFieldSize ll.crcType * 8 then ({ ll with txState := .end_ }, [])
  else
    let byte := (ll.txCrc >>> UInt32.ofNat ll.txCrcBitsSent).toUInt8
    if isSpecial byte then
      if !ll.txEscape then ({ ll with txEscape := true }, [escapeChar])
      else ({ ll with txEscape := false, txCrcBitsSent := ll.txCrcBitsSent + 8 },
        [byte ^^^ escapeBit])
    else ({ ll with txCrcBitsSent := ll.txCrcBitsSent + 8 }, [byte])

def txSendEnd (ll : HdlcLl) (room : ℕ) : HdlcLl × Bytes :=
  if room = 0 then (ll, [])
  else
    ({ ll with
        txState := .start
        txEscape := false
        txData := none
        txSentFrames := ll.txSentFrames ++ ll.txData.toList }, [flagSequence])

def txSend (ll : HdlcLl) (room : ℕ) : Option (HdlcLl × Bytes) :=
  match ll.txState with
  | .start => some (ll.txSendStart room)
  | .data => ll.txSendData room
  | .crc => some (ll.txSendCrc room)
  | .end_ => some (ll.txSendEnd room)

/-- The loop of `run_tx`. At most two silent transitions stand between two
written bytes, so three rounds for each byte of room suffice. -/
def runTxLoop : ℕ → HdlcLl → ℕ → Bytes → Option (HdlcLl × Bytes)
  | 0, ll, _, out => some (ll, out)
  | fuel + 1, ll, room, out =>
    if room = 0 then some (ll, out)
    else
      match ll.txSend room with
      | none => none
      | some (ll', []) => if ll'.txState = ll.txState then some (ll', out)
          else runTxLoop fuel ll' room out
      | some (ll', bytes) => runTxLoop fuel ll' (room - bytes.length) (out ++ bytes)

def runTx (ll : HdlcLl) (room : ℕ) : Option (HdlcLl × Bytes) := runTxLoop (3 * room + 3) ll room []

def getTxSentFrame (ll : HdlcLl) : HdlcLl × Option Bytes :=
  match ll.txSentFrames with
  | [] => (ll, none)
  | frame :: rest => ({ ll with txSentFrames := rest }, some frame)

end HdlcLl

end TinyProto
