import TinyProto.Fd.Reachable

namespace TinyProto

open Lib

/-- One end of a connection: a station, what is on its way to it, whether the
frame that it is sending gets lost, and the payloads that its `send_packet` has
accepted so far. -/
structure Side (ι : Type) where
  station : TinyFd
  inbox : List ι
  dropping : Bool
  accepted : List Bytes

namespace Side

variable {ι : Type}

def put (net : Bool → Side ι) (s : Bool) (side : Side ι) : Bool → Side ι := fun t ↦
    if t = s then side else net t

variable {net : Bool → Side ι} {s : Bool} {side side' : Side ι}

@[simp] theorem put_self : put net s side s = side := if_pos rfl

@[simp] theorem put_not : put net s side (!s) = net (!s) := if_neg (by cases s <;> decide)

@[simp] theorem put_of_not : put net (!s) side s = net s := if_neg (by cases s <;> decide)

theorem both {P : Bool → Prop} (s : Bool) (hs : P s) (hn : P !s) (t : Bool) : P t := by
  rcases Bool.eq_or_eq_not t s with rfl | rfl
  · exact hs
  · exact hn

theorem ext_not {net' : Bool → Side ι} (hs : net s = net' s) (hn : net (!s) = net' (!s)) :
    net = net' :=
  funext (both s hs hn)

theorem put_put : put (put net s side) s side' = put net s side' := by
  apply ext_not
  · rw [put_self, put_self]
  · rw [put_not, put_not, put_not]

end Side

/-- Two stations and the bytes on their way to each. -/
abbrev Net := Bool → Side UInt8

namespace Net

open Side

/-- The calls on the two stations. `lost` decides the fate of the frame that a
call of `get_tx_data` starts, and `count` is how many bytes of the channel a call
of `on_rx_data` is given. -/
inductive Op
  | sendPacket (s : Bool) (address : UInt8) (data : Bytes) (timeoutMs : ℕ)
  | disconnect (s : Bool)
  | getTxData (s : Bool) (now : Instant) (room timeoutMs : ℕ) (lost : Bool)
  | onRxData (s : Bool) (now : Instant) (count : ℕ)

def step (net : Net) : Op → Option Net
  | .sendPacket s address data timeoutMs =>
    let r := (net s).station.sendPacket address data timeoutMs
    some (put net s { net s with
      station := r.1
      accepted := if r.2.isOk then (net s).accepted ++ [data] else (net s).accepted })
  | .disconnect s => some (put net s { net s with station := (net s).station.disconnect.1 })
  | .getTxData s now room timeoutMs lost =>
    ((net s).station.getTxData now room timeoutMs).map fun (fd, out) ↦
      let dropping := if (net s).station.hdlc.isTxBusy then (net s).dropping else lost
      put (put net s { net s with station := fd, dropping := dropping }) (!s)
        { net (!s) with inbox := (net (!s)).inbox ++ if dropping then [] else out }
  | .onRxData s now count =>
    some (put net s { net s with
      station := (net s).station.onRxData now ((net s).inbox.take count)
      inbox := (net s).inbox.drop count })

def replay (config : Bool → TinyFdConfig) (now : Instant) (ops : List Op) : Option Net :=
  match TinyFd.new (config true) now, TinyFd.new (config false) now with
  | .ok a, .ok b => run step (fun s ↦ ⟨if s then a else b, [], false, []⟩) ops
  | _, _ => none

theorem station_step {P : Bool → TinyFd → Prop}
    (hP : ∀ s fd op fd', P s fd → TinyFd.step fd op = some fd' → P s fd') {net net' : Net}
    (h : ∀ s, P s (net s).station) {op : Op} (hs : net.step op = some net') :
    ∀ s, P s (net' s).station := by
  cases op with
  | sendPacket s address data timeoutMs =>
    rw [← Option.some.inj hs]
    refine both s ?_ ?_
    · rw [put_self]
      exact hP s _ (.sendPacket address data timeoutMs) _ (h s) rfl
    · rw [put_not]
      exact h _
  | disconnect s =>
    rw [← Option.some.inj hs]
    refine both s ?_ ?_
    · rw [put_self]
      exact hP s _ .disconnect _ (h s) rfl
    · rw [put_not]
      exact h _
  | getTxData s now room timeoutMs lost =>
    obtain ⟨⟨fd, out⟩, hget, rfl⟩ := Option.map_eq_some_iff.mp hs
    refine both s ?_ ?_ <;> dsimp only
    · rw [put_of_not, put_self]
      exact hP s _ (.getTxData now room timeoutMs) _ (h s) (by rw [TinyFd.step, hget]; rfl)
    · rw [put_self]
      exact h _
  | onRxData s now count =>
    rw [← Option.some.inj hs]
    refine both s ?_ ?_
    · rw [put_self]
      exact hP s _ (.onRxData now ((net s).inbox.take count)) _ (h s) rfl
    · rw [put_not]
      exact h _

theorem reachable_step {config : Bool → TinyFdConfig} {net net' : Net}
    (h : ∀ s, TinyFd.Reachable (config s) (net s).station) {op : Op}
    (hs : net.step op = some net') :
    ∀ s, TinyFd.Reachable (config s) (net' s).station :=
  station_step (P := fun s fd ↦ TinyFd.Reachable (config s) fd)
    (fun _ _ _ _ hr hs ↦ hr.step hs) h hs

theorem reachable_replay {config : Bool → TinyFdConfig} {now : Instant} {ops : List Op}
    (h : (replay config now ops).isSome) (s : Bool) :
    TinyFd.Reachable (config s) (((replay config now ops).get h) s).station := by
  have hget := (Option.some_get h).symm
  generalize (replay config now ops).get h = net at hget
  rw [replay] at hget
  split at hget
  · rename_i a b ha hb
    have hstart : ∀ s, TinyFd.Reachable (config s) (if s then a else b) := by
      intro s
      cases s with
      | true => exact .new ha
      | false => exact .new hb
    have hstep : ∀ (net : Net) (op : Op) (net' : Net),
        (∀ s, TinyFd.Reachable (config s) (net s).station) → True → net.step op = some net' → ∀ s,
        TinyFd.Reachable (config s) (net' s).station :=
      fun _ _ _ h _ hs ↦ reachable_step h hs
    exact run_invariant hstep hstart (EachStep.trivial _ _) hget s
  · cases hget

/-- The bytes that station `s` has yet to receive: those of the channel and the
rest of the frame that is being sent. -/
def pending (net : Net) (s : Bool) : Bytes :=
  (net s).inbox ++ if (net (!s)).dropping then [] else (net (!s)).station.hdlc.txRest

end Net

namespace TinyFd

def decode (fd : TinyFd) (p : Phase UInt8) (bytes : Bytes) : Phase UInt8 × List Bytes :=
  ((hdlcStuffing.receiveAll fd.hdlc.physMtu p bytes).1,
    HdlcLl.goodFrames fd.hdlc.crcType (hdlcStuffing.receiveAll fd.hdlc.physMtu p bytes).2)

variable {fd fd' : TinyFd}

theorem decode_append (fd : TinyFd) (p : Phase UInt8) (xs ys : Bytes) :
    fd.decode p (xs ++ ys) =
      ((fd.decode (fd.decode p xs).1 ys).1,
        (fd.decode p xs).2 ++ (fd.decode (fd.decode p xs).1 ys).2) := by
  rw [decode, Stuffing.receiveAll_append, HdlcLl.goodFrames_append]
  rfl

theorem decode_congr (hcrc : fd'.hdlc.crcType = fd.hdlc.crcType)
    (hmtu : fd'.hdlc.physMtu = fd.hdlc.physMtu) : fd'.decode = fd.decode := by
  funext p bytes
  rw [decode, decode, hcrc, hmtu]

end TinyFd

/-- The same two stations, with whole frames on their way. -/
abbrev Frames := Bool → Side Bytes

namespace Frames

open Side

def sendPacket (f : Frames) (s : Bool) (address : UInt8) (data : Bytes) (timeoutMs : ℕ) : Frames :=
  let r := (f s).station.sendPacket address data timeoutMs
  put f s { f s with
    station := r.1
    accepted := if r.2.isOk then (f s).accepted ++ [data] else (f s).accepted }

def disconnect (f : Frames) (s : Bool) : Frames :=
  put f s { f s with station := (f s).station.disconnect.1 }

def checkTimeouts (f : Frames) (s : Bool) (now : Instant) : Frames :=
  put f s { f s with station := (f s).station.checkTimeouts now }

def generateTxFrames (f : Frames) (s : Bool) (now : Instant) (arrived : List Bytes) : Frames :=
  put (put f s { f s with station := (f s).station.generateTxFrames now }) (!s)
    { f (!s) with inbox := (f (!s)).inbox ++ arrived }

theorem generateTxFrames_self (f : Frames) (s : Bool) (now : Instant) (arrived : List Bytes) :
    f.generateTxFrames s now arrived s =
      { f s with station := (f s).station.generateTxFrames now } := by
  rw [Frames.generateTxFrames, put_of_not, put_self]

theorem generateTxFrames_not (f : Frames) (s : Bool) (now : Instant) (arrived : List Bytes) :
    f.generateTxFrames s now arrived (!s) = { f (!s) with inbox := (f (!s)).inbox ++ arrived } :=
      put_self

def receive (f : Frames) (s : Bool) (now : Instant) : Frames :=
  match (f s).inbox with
  | [] => f
  | frame :: rest =>
      put f s { f s with station := (f s).station.onFrameReceived now frame, inbox := rest }

theorem receive_self {f : Frames} {s : Bool} {frame : Bytes}
    {rest : List Bytes} (hin : (f s).inbox = frame :: rest) (now : Instant) : f.receive s now s =
      { f s with station := (f s).station.onFrameReceived now frame, inbox := rest } := by
  rw [Frames.receive, hin]
  exact put_self

theorem receive_not (f : Frames) (s : Bool) (now : Instant) : f.receive s now (!s) = f (!s) := by
  rw [Frames.receive]
  cases (f s).inbox with
  | nil => rfl
  | cons frame rest => exact put_not

def withHdlc (f : Frames) (s : Bool) (ll : HdlcLl) : Frames :=
  put f s { f s with station := (f s).station.withHdlc ll }

/-- The frames that station `s` has yet to receive, and the service frames that
wait for their turn on the other side. -/
def coming (f : Frames) (s : Bool) : List Bytes :=
  (f s).inbox ++ (f (!s)).station.frames.sQueue.held.map FrameInfo.toBytes

theorem receive_iterate (s : Bool) (now : Instant) (xs ys : List Bytes) {f : Frames}
    (h : (f s).inbox = xs ++ ys) :
    (fun f : Frames ↦ f.receive s now)^[xs.length] f =
      put f s { f s with station := TinyFd.deliver now (f s).station xs, inbox := ys } := by
  induction xs generalizing f with
  | nil =>
    apply Side.ext_not
    · rw [put_self]
      rw [List.nil_append] at h
      rw [← h]
      rfl
    · rw [put_not]
      rfl
  | cons x xs ih =>
    rw [List.cons_append] at h
    rw [List.length_cons, Function.iterate_succ_apply]
    have hr : f.receive s now = put f s { f s with
        station := (f s).station.onFrameReceived now x, inbox := xs ++ ys } := by
      rw [receive, h]
    rw [hr, ih (by rw [put_self])]
    apply Side.ext_not
    · rw [put_self, put_self, put_self]
      rfl
    · rw [put_not, put_not, put_not]

end Frames

namespace Net

open TinyFd Side

/-- The receiver's phase once everything pending has arrived, and the frames that
complete on the way. -/
def outlook (net : Net) (s : Bool) : Phase UInt8 × List Bytes :=
  (net s).station.decode (net s).station.hdlc.phase (net.pending s)

def frames (net : Net) : Frames :=
  fun s ↦ ⟨(net s).station, (net.outlook s).2, false, (net s).accepted⟩

/-- The encoding of the frame that a call of `generate_tx_frames` has handed
over, as far as it travels. -/
def sentBytes (fd fd' : TinyFd) (lost : Bool) : Bytes :=
  if fd.hdlc.txData = none ∧ lost = false then fd'.hdlc.txRest else []

variable {net net' : Net} {s : Bool}

theorem outlook_congr (hh : (net' s).station.hdlc = (net s).station.hdlc)
    (hp : net'.pending s = net.pending s) : net'.outlook s = net.outlook s := by
  have hd : (net' s).station.decode = (net s).station.decode :=
    decode_congr (by rw [hh]) (by rw [hh])
  rw [outlook, outlook, hp, hh, hd]

theorem outlook_put {side : Side UInt8} (hh : side.station.hdlc = (net s).station.hdlc)
    (hi : side.inbox = (net s).inbox) (hd : side.dropping = (net s).dropping) (t : Bool) :
    outlook (put net s side) t = net.outlook t := by
  apply outlook_congr
  · rcases Bool.eq_or_eq_not t s with rfl | rfl
    · rwa [put_self]
    · rw [put_not]
  · rcases Bool.eq_or_eq_not t s with rfl | rfl
    · rw [pending, put_self, put_not, pending, hi]
    · rw [pending, Bool.not_not, put_self, put_not, pending, Bool.not_not, hd, HdlcLl.txRest, hh]
      rfl

theorem frames_sendPacket {address : UInt8} {data : Bytes} {timeoutMs : ℕ}
    (hs : net.step (.sendPacket s address data timeoutMs) = some net') :
    net'.frames = net.frames.sendPacket s address data timeoutMs ∧
      ∀ t, (net'.outlook t).1 = (net.outlook t).1 := by
  rw [step, Option.some.injEq] at hs
  have hout : ∀ t, net'.outlook t = net.outlook t := by
    subst hs
    exact outlook_put (sendPacket_hdlc ..) rfl rfl
  refine ⟨?_, fun t ↦ by rw [hout t]⟩
  apply Side.ext_not
  · rw [frames, hout, ← hs, Frames.sendPacket, put_self, put_self]
    rfl
  · rw [frames, hout, ← hs, Frames.sendPacket, put_not, put_not]
    rfl

theorem frames_disconnect (hs : net.step (.disconnect s) = some net') :
    net'.frames = net.frames.disconnect s ∧ ∀ t, (net'.outlook t).1 = (net.outlook t).1 := by
  rw [step, Option.some.injEq] at hs
  have hout : ∀ t, net'.outlook t = net.outlook t := by
    subst hs
    exact outlook_put (disconnect_hdlc _) rfl rfl
  refine ⟨?_, fun t ↦ by rw [hout t]⟩
  apply Side.ext_not
  · rw [frames, hout, ← hs, Frames.disconnect, put_self, put_self]
    rfl
  · rw [frames, hout, ← hs, Frames.disconnect, put_not, put_not]
    rfl

/-- A call of `get_tx_data` is the timers, the choice of a frame and a stretch of
its encoding; the frame is on its way from the moment it is chosen. -/
theorem frames_getTxData (hwf : WellFormed (net s).station) {now : Instant}
    {room timeoutMs : ℕ} {lost : Bool}
    (hs : net.step (.getTxData s now room timeoutMs lost) = some net') :
    let fd := (net s).station.checkTimeouts now
    let arrived :=
      (net (!s)).station.decode (net.outlook (!s)).1 (sentBytes fd (fd.generateTxFrames now) lost)
    ∃ ll,
      net'.frames =
        ((net.frames.checkTimeouts s now).generateTxFrames s now arrived.2).withHdlc s ll ∧
      (net'.outlook (!s)).1 = arrived.1 ∧ (net'.outlook s).1 = (net.outlook s).1 ∧ ll.TxOk ∧
      ll.eraseTx = (fd.generateTxFrames now).hdlc.eraseTx ∧
      ll.txRest = (fd.generateTxFrames now).hdlc.txRest.drop room := by
  intro fd arrived
  obtain ⟨ll, hget, hok, hrest, herase, -⟩ := getTxData_eq hwf.tx now room timeoutMs
  rw [step, hget, Option.map_some, Option.some.injEq] at hs
  dsimp only at hs
  generalize hdrop : (if (net s).station.hdlc.isTxBusy = true then (net s).dropping else lost) =
    dropping at hs
  have hs₁ : net' s = { net s with
      station := (fd.generateTxFrames now).withHdlc ll
      dropping := dropping } := by
    rw [← hs, put_of_not, put_self]
  have hn₁ : net' (!s) = { net (!s) with
      inbox := (net (!s)).inbox ++ if dropping then []
        else (fd.generateTxFrames now).hdlc.txRest.take room } := by
    rw [← hs, put_self]
  have hhdlc : fd.hdlc = (net s).station.hdlc := checkTimeouts_hdlc ..
  have hphase : (fd.generateTxFrames now).hdlc.eraseTx = (net s).station.hdlc.eraseTx := by
    rcases fd.generateTxFrames_hdlc now with he | ⟨data, -, -, he⟩ <;> rw [he, ← hhdlc]
    rfl
  have hll : ll.eraseTx = (net s).station.hdlc.eraseTx := herase.trans hphase
  have hd : ((fd.generateTxFrames now).withHdlc ll).decode = (net s).station.decode :=
    decode_congr (crcType_of_eraseTx hll) (physMtu_of_eraseTx hll)
  have hself : net'.outlook s = net.outlook s := by
    have hp : net'.pending s = net.pending s := by rw [pending, hs₁, hn₁, pending]
    rw [outlook, hp, hs₁, hd, hdlc_withHdlc, phase_of_eraseTx hll, outlook]
  have hother : net'.pending (!s) = net.pending (!s) ++
      sentBytes fd (fd.generateTxFrames now) lost := by
    rw [pending, Bool.not_not, hs₁, hn₁, pending, Bool.not_not]
    dsimp only
    rw [hdlc_withHdlc]
    by_cases hidle : (net s).station.hdlc.txData = none
    · have hbusy : (net s).station.hdlc.isTxBusy = false := by rw [HdlcLl.isTxBusy, hidle]; rfl
      rw [hbusy, if_neg (by decide)] at hdrop
      rw [HdlcLl.txRest_eq_nil.mpr hidle, ← hdrop]
      cases lost with
      | true => simp [sentBytes]
      | false =>
        have hsent : sentBytes fd (fd.generateTxFrames now) false =
            (fd.generateTxFrames now).hdlc.txRest :=
          if_pos ⟨by rw [hhdlc, hidle], rfl⟩
        have hcut : (fd.generateTxFrames now).hdlc.txRest =
            (fd.generateTxFrames now).hdlc.txRest.take room ++ ll.txRest := hrest
        rw [hsent, if_neg (by decide), if_neg (by decide), List.append_assoc, ← hcut, ite_self,
          List.append_nil]
    · have hbusy : (net s).station.hdlc.isTxBusy = true := Option.isSome_iff_ne_none.mpr hidle
      have hsame : fd.generateTxFrames now = fd := by
        rcases fd.generateTxFrames_cases now with ⟨-, he⟩ | ⟨hno, -⟩ | ⟨hno, -⟩ | ⟨hno, -⟩
        · exact he
        all_goals exact absurd (hhdlc ▸ hno) hidle
      have hcut : fd.hdlc.txRest = fd.hdlc.txRest.take room ++ ll.txRest := by
        rw [← hsame]
        exact hrest
      have hsent : sentBytes fd (fd.generateTxFrames now) lost = [] :=
        if_neg fun h ↦ hidle (hhdlc ▸ h.1)
      rw [hbusy, if_pos rfl] at hdrop
      rw [hsent, ← hdrop, hsame, ← hhdlc, List.append_nil]
      cases (net s).dropping with
      | true => simp
      | false =>
          rw [if_neg (by decide), if_neg (by decide), if_neg (by decide), List.append_assoc, ← hcut]
  have hnot : net'.outlook (!s) = (arrived.1, (net.outlook (!s)).2 ++ arrived.2) := by
    rw [outlook, hother, hn₁, decode_append]
    rfl
  refine ⟨ll, ?_, by rw [hnot], by rw [hself], hok, herase, ?_⟩
  · apply Side.ext_not
    · rw [frames, hself, hs₁, Frames.withHdlc, put_self, Frames.generateTxFrames,
        put_of_not, put_self, Frames.checkTimeouts, put_self]
      rfl
    · rw [frames, hnot, hn₁, Frames.withHdlc, put_not, Frames.generateTxFrames, put_self,
        Frames.checkTimeouts, put_not]
      rfl
  · have hcut := hrest
    conv_lhs at hcut => rw [← List.take_append_drop room (fd.generateTxFrames now).hdlc.txRest]
    exact (List.append_cancel_left hcut).symm

theorem frames_onRxData (hwf : WellFormed (net s).station) {now : Instant} {count : ℕ}
    (hs : net.step (.onRxData s now count) = some net') :
    let arrived := (net s).station.decode (net s).station.hdlc.phase ((net s).inbox.take count)
    ∃ ll, net'.frames =
        ((fun f : Frames ↦ f.receive s now)^[arrived.2.length] net.frames).withHdlc s ll ∧
      arrived.2 <+: (net.frames s).inbox ∧ (∀ t, (net'.outlook t).1 = (net.outlook t).1) ∧ ll.RxOk ∧
      ll.rxFrames = [] ∧ ll.eraseRx = (net s).station.hdlc.eraseRx := by
  intro arrived
  rw [step, Option.some.injEq, onRxData_eq hwf.rx hwf.rxFrames] at hs
  have hspec := HdlcLl.feed_spec hwf.rx ((net s).inbox.take count)
  have herase : (((net s).station.hdlc.feed ((net s).inbox.take count)).withRxFrames []).eraseRx =
      (net s).station.hdlc.eraseRx := hspec.frame_rule
  have hok : (((net s).station.hdlc.feed ((net s).inbox.take count)).withRxFrames []).RxOk :=
    hspec.ok.withRxFrames []
  have hphase : (((net s).station.hdlc.feed ((net s).inbox.take count)).withRxFrames []).phase =
      arrived.1 :=
    hspec.phase
  have hframes : (((net s).station.hdlc.feed ((net s).inbox.take count)).withRxFrames []).rxFrames =
      [] := rfl
  generalize ((net s).station.hdlc.feed ((net s).inbox.take count)).withRxFrames [] =
    ll at hs herase hok hphase hframes
  have hs₁ : net' s = { net s with
      station := (deliver now (net s).station arrived.2).withHdlc ll, inbox :=
        (net s).inbox.drop count } := by
    rw [← hs, put_self]
    rfl
  have hn₁ : net' (!s) = net (!s) := by rw [← hs, put_not]
  have hd : ((deliver now (net s).station arrived.2).withHdlc ll).decode = (net s).station.decode :=
    decode_congr (HdlcLl.eraseRx_crcType herase) (HdlcLl.eraseRx_physMtu herase)
  have hpending : net.pending s = (net s).inbox.take count ++ net'.pending s := by
    rw [pending, pending, hs₁, hn₁, ← List.append_assoc, List.take_append_drop]
  have hself : net.outlook s = ((net'.outlook s).1, arrived.2 ++ (net'.outlook s).2) := by
    rw [outlook, hpending, decode_append, outlook, hs₁, hd, hdlc_withHdlc, hphase]
  have hother : net'.outlook (!s) = net.outlook (!s) := by
    apply outlook_congr
    · rw [hn₁]
    · rw [pending, pending, Bool.not_not, hn₁, hs₁, hdlc_withHdlc, txRest_of_eraseRx herase]
  refine ⟨ll, ?_, ?_, ?_, hok, hframes, herase⟩
  · have hin : (net.frames s).inbox = arrived.2 ++ (net'.outlook s).2 := by rw [frames, hself]
    rw [Frames.receive_iterate s now _ _ hin]
    apply Side.ext_not
    · rw [frames, hs₁, Frames.withHdlc, put_self, put_self]
      rfl
    · rw [frames, hother, hn₁, Frames.withHdlc, put_not, put_not]
      rfl
  · rw [frames, hself]
    exact List.prefix_append _ _
  · intro t
    rcases Bool.eq_or_eq_not t s with rfl | rfl
    · rw [hself]
    · rw [hother]

end Net

end TinyProto
