import TinyProto.Fd.Single
import TinyProto.Net.System

namespace TinyProto

open Lib

/-- The two configurations of a connection: a primary with one peer, and that
peer, with equal frames. -/
structure Pair (config : Bool → TinyFdConfig) : Prop where
  primary : (config true).addr = 0 ∧ (config true).peersCount ≤ 1
  secondary : (config false).addr = 1
  crcType : (config false).crcType = (config true).crcType
  mtu : (config false).mtu = (config true).mtu

/-- Two stations with one peer each that understand each other's frames. -/
structure Linked {ι : Type} (net : Bool → Side ι) : Prop where
  wf : ∀ s, TinyFd.WellFormed (net s).station
  one : ∀ s, (net s).station.peerMgr.peers.length = 1
  address : ∀ s, (net (!s)).station.addrField 0 = (net s).station.addrField 0
  addressed : ∀ s, (net s).station.peerMgr.addressFieldToPeer ((net s).station.addrField 0) = 0
  crcType : ∀ s, (net (!s)).station.hdlc.crcType = (net s).station.hdlc.crcType
  physMtu : ∀ s, (net (!s)).station.hdlc.physMtu = (net s).station.hdlc.physMtu

section Linked

open TinyFd Side

theorem peers_primary {count : UInt8} (hcount : count ≤ 1) (now : Instant) :
    (PeerManager.new (hdlcPrimaryAddr ||| hdlcEBit) count now).peers = [.new 5 now] := by
  have hp : isPrimaryAddress (hdlcPrimaryAddr ||| hdlcEBit) = true := by decide
  have hmax : max count 1 = 1 := if_pos hcount
  rw [PeerManager.new, hp, if_pos rfl, hmax]
  rfl

theorem new_primary {config : TinyFdConfig} {now : Instant} {fd : TinyFd}
    (h : TinyFd.new config now = .ok fd) (haddr : config.addr = 0)
    (hcount : config.peersCount ≤ 1) : fd.peerMgr.peers.length = 1 ∧ fd.addrField 0 = 5 ∧
    fd.peerMgr.addressFieldToPeer 5 = 0 := by
  have hm : fd.peerMgr = .new (hdlcPrimaryAddr ||| hdlcEBit) config.peersCount now := by
    rw [TinyFd.new, haddr] at h
    split at h
    · cases h
    dsimp only at h
    split at h
    · cases h
    injection h with h
    rw [← h]
    rfl
  have hpeers := peers_primary hcount now
  have hprim :
      (PeerManager.new (hdlcPrimaryAddr ||| hdlcEBit) config.peersCount now).isPrimaryStation =
        true := by
    change isPrimaryAddress (hdlcPrimaryAddr ||| hdlcEBit) = true
    decide
  have ha : ((PeerInfo.new 5 now).addr &&& ~~~hdlcCrBit == (5 &&& ~~~hdlcCrBit : UInt8)) =
      true := by
    change (5 &&& ~~~hdlcCrBit == (5 &&& ~~~hdlcCrBit : UInt8)) = true
    decide
  refine ⟨by rw [hm, hpeers]; rfl, ?_, ?_⟩
  · rw [addrField, hm, PeerManager.peerToAddressField, if_pos hprim, PeerManager.peer, hpeers]
    change (5 &&& ~~~hdlcCrBit : UInt8) = 5
    decide
  · rw [hm, PeerManager.addressFieldToPeer, if_pos hprim, hpeers, List.findIdx?_cons, if_pos ha]
    rfl

theorem new_secondary {config : TinyFdConfig} {now : Instant} {fd : TinyFd}
    (h : TinyFd.new config now = .ok fd) (haddr : config.addr = 1) :
    fd.peerMgr.peers.length = 1 ∧ fd.addrField 0 = 5 ∧ fd.peerMgr.addressFieldToPeer 5 = 0 := by
  have hm : fd.peerMgr = .new 5 config.peersCount now := by
    rw [TinyFd.new, haddr] at h
    split at h
    · cases h
    dsimp only at h
    split at h
    · cases h
    injection h with h
    rw [← h]
    rfl
  have hprim : (PeerManager.new 5 config.peersCount now).isPrimaryStation = false := by
    change isPrimaryAddress 5 = false
    decide
  have hours : (5 &&& ~~~hdlcCrBit : UInt8) = 5 &&& ~~~hdlcCrBit ∨
      isPrimaryAddress (5 &&& ~~~hdlcCrBit) := .inl rfl
  refine ⟨by rw [hm]; rfl, ?_, ?_⟩
  · rw [addrField, hm, PeerManager.peerToAddressField, hprim]
    change (5 &&& ~~~hdlcCrBit : UInt8) = 5
    decide
  · rw [hm, PeerManager.addressFieldToPeer, hprim]
    exact if_pos hours

theorem new_frames {config : TinyFdConfig} {now : Instant} {fd : TinyFd}
    (h : TinyFd.new config now = .ok fd) : fd.hdlc.crcType = config.crcType ∧
    fd.mtu = if config.mtu > 0 then config.mtu else 64 := by
  rw [TinyFd.new] at h
  split at h
  · cases h
  dsimp only at h
  split at h
  · cases h
  rename_i hnew
  injection h with h
  subst h
  obtain ⟨-, -, -, -, -, -, hcrc⟩ := HdlcLl.new_ok hnew
  exact ⟨hcrc, rfl⟩

variable {ι : Type} {net : Bool → Side ι}

theorem linked_of_reachable {config : Bool → TinyFdConfig} (hp : Pair config)
    (hr : ∀ s, Reachable (config s) (net s).station) : Linked net := by
  have hall : ∀ s, (net s).station.peerMgr.peers.length = 1 ∧ (net s).station.addrField 0 = 5 ∧
      (net s).station.peerMgr.addressFieldToPeer 5 = 0 := by
    intro s
    obtain ⟨now, fd₀, hnew, hset, -⟩ := (hr s).origin
    rw [peers_length_congr hset, addrField_congr hset, addressFieldToPeer_congr hset]
    cases s with
    | true => exact new_primary hnew hp.primary.1 hp.primary.2
    | false => exact new_secondary hnew hp.secondary
  have hframes : ∀ s, (net s).station.hdlc.crcType = (config true).crcType ∧
      (net s).station.mtu = if (config true).mtu > 0 then (config true).mtu else 64 := by
    intro s
    obtain ⟨now, fd₀, hnew, hset, hcrc⟩ := (hr s).origin
    have hmtu : (net s).station.mtu = fd₀.mtu := congrArg Setup.mtu hset
    obtain ⟨hc, hm⟩ := new_frames hnew
    rw [hcrc, hmtu, hc, hm]
    cases s with
    | true => exact ⟨rfl, rfl⟩
    | false => exact ⟨hp.crcType, by rw [hp.mtu]⟩
  refine ⟨fun s ↦ (hr s).wellFormed, fun s ↦ (hall s).1, ?_, ?_, ?_, ?_⟩
  · intro s
    rw [(hall s).2.1, (hall !s).2.1]
  · intro s
    rw [(hall s).2.1]
    exact (hall s).2.2
  · intro s
    rw [(hframes s).1, (hframes !s).1]
  · intro s
    rw [(hr s).wellFormed.physMtu, (hr !s).wellFormed.physMtu, (hframes s).1, (hframes !s).1,
      (hframes s).2, (hframes !s).2]

theorem Linked.put (h : Linked net) {s : Bool} {side : Side ι} (hwf : WellFormed side.station)
    (hs : side.station.setup = (net s).station.setup)
    (hc : side.station.hdlc.crcType = (net s).station.hdlc.crcType) : Linked (put net s side) := by
  have hmtu : side.station.hdlc.physMtu = (net s).station.hdlc.physMtu := by
    rw [hwf.physMtu, (h.wf s).physMtu, hc,
      show side.station.mtu = (net s).station.mtu from congrArg Setup.mtu hs]
  have hall : ∀ t, WellFormed (Side.put net s side t).station ∧
      (Side.put net s side t).station.setup = (net t).station.setup ∧
      (Side.put net s side t).station.hdlc.crcType = (net t).station.hdlc.crcType ∧
      (Side.put net s side t).station.hdlc.physMtu = (net t).station.hdlc.physMtu := by
    intro t
    rcases Bool.eq_or_eq_not t s with rfl | rfl
    · rw [put_self]
      exact ⟨hwf, hs, hc, hmtu⟩
    · rw [put_not]
      exact ⟨h.wf _, rfl, rfl, rfl⟩
  refine ⟨fun t ↦ (hall t).1, ?_, ?_, ?_, ?_, ?_⟩
  · intro t
    rw [peers_length_congr (hall t).2.1]
    exact h.one t
  · intro t
    rw [addrField_congr (hall t).2.1, addrField_congr (hall !t).2.1]
    exact h.address t
  · intro t
    rw [addrField_congr (hall t).2.1, addressFieldToPeer_congr (hall t).2.1]
    exact h.addressed t
  · intro t
    rw [(hall t).2.2.1, (hall !t).2.2.1]
    exact h.crcType t
  · intro t
    rw [(hall t).2.2.2, (hall !t).2.2.2]
    exact h.physMtu t

variable {f : Frames} {s : Bool}

theorem Linked.sendPacket (h : Linked f) (s : Bool) (address : UInt8) (data : Bytes)
    (timeoutMs : ℕ) :
    Linked (f.sendPacket s address data timeoutMs) := by
  apply h.put (wellFormed_sendPacket (h.wf s) ..) (setup_sendPacket ..)
  dsimp only
  rw [sendPacket_hdlc]

theorem Linked.disconnect (h : Linked f) (s : Bool) : Linked (f.disconnect s) := by
  apply h.put (wellFormed_disconnect (h.wf s)) (setup_disconnect _)
  dsimp only
  rw [disconnect_hdlc]

theorem Linked.checkTimeouts (h : Linked f) (s : Bool) (now : Instant) :
    Linked (f.checkTimeouts s now) := by
  apply h.put (wellFormed_checkTimeouts (h.wf s) now) (setup_checkTimeouts ..)
  dsimp only
  rw [checkTimeouts_hdlc]

theorem Linked.generateTxFrames (h : Linked f) (s : Bool) (now : Instant) (arrived : List Bytes) :
    Linked (f.generateTxFrames s now arrived) := by
  have h₁ : Linked (Side.put f s { f s with station := (f s).station.generateTxFrames now }) := by
    apply h.put (wellFormed_generateTxFrames (h.wf s) now) (setup_generateTxFrames ..)
    rcases (f s).station.generateTxFrames_hdlc now with he | ⟨data, -, -, he⟩ <;>
      dsimp only <;> rw [he]
    rfl
  apply h₁.put
  · exact h.wf _
  · rw [put_not]
  · rw [put_not]

theorem Linked.receive (h : Linked f) (s : Bool) (now : Instant) : Linked (f.receive s now) := by
  rw [Frames.receive]
  split
  · exact h
  · rename_i frame rest _
    apply h.put (wellFormed_onFrameReceived (h.wf s) now frame)
      (setup_onFrameReceived (h.wf s) now frame)
    dsimp only
    rw [hdlc_onFrameReceived]

theorem Linked.receives (h : Linked f) (s : Bool) (now : Instant) (k : ℕ) :
    Linked ((fun f : Frames ↦ f.receive s now)^[k] f) := by
  induction k with
  | zero => exact h
  | succ k ih =>
    rw [Function.iterate_succ_apply']
    exact ih.receive s now

structure Moved (ll ll' : HdlcLl) : Prop where
  tx : ll'.TxOk
  rx : ll'.RxOk
  rxFrames : ll'.rxFrames = []
  crcType : ll'.crcType = ll.crcType
  physMtu : ll'.physMtu = ll.physMtu

theorem moved_tx {ll ll' : HdlcLl} (hrx : ll.RxOk) (hframes : ll.rxFrames = []) (htx : ll'.TxOk)
    (he : ll'.eraseTx = ll.eraseTx) : Moved ll ll' :=
  ⟨htx, rxOk_of_eraseTx he hrx, (rxFrames_of_eraseTx he).trans hframes, crcType_of_eraseTx he,
    physMtu_of_eraseTx he⟩

theorem moved_rx {ll ll' : HdlcLl} (htx : ll.TxOk) (hrx : ll'.RxOk) (hframes : ll'.rxFrames = [])
    (he : ll'.eraseRx = ll.eraseRx) : Moved ll ll' :=
  ⟨txOk_of_eraseRx he htx, hrx, hframes, HdlcLl.eraseRx_crcType he, HdlcLl.eraseRx_physMtu he⟩

theorem Linked.withHdlc (h : Linked f) {ll : HdlcLl} (hm : Moved (f s).station.hdlc ll) :
    Linked (f.withHdlc s ll) :=
  h.put ((h.wf s).withHdlc hm.tx hm.rx hm.rxFrames hm.crcType hm.physMtu) rfl hm.crcType

theorem Linked.of_frames {net : Net} (h : Linked net.frames) : Linked net :=
  ⟨h.wf, h.one, h.address, h.addressed, h.crcType, h.physMtu⟩

theorem Linked.frames {net : Net} (h : Linked net) : Linked net.frames :=
  ⟨h.wf, h.one, h.address, h.addressed, h.crcType, h.physMtu⟩

end Linked

namespace Net

open TinyFd Side

/-- Nothing on its way leaves a receiver in the middle of a frame. -/
def Settled (net : Net) : Prop := ∀ s, (net.outlook s).1.Aligned

instance (net : Net) : Decidable net.Settled := by unfold Settled; infer_instance

variable {net net' : Net} {s : Bool}

/-- A receiver takes from an encoding exactly the frame handed over. -/
theorem decode_sentBytes (hcrc' : (net (!s)).station.hdlc.crcType = (net s).station.hdlc.crcType)
    (hmtu' : (net (!s)).station.hdlc.physMtu = (net s).station.hdlc.physMtu) {fd : TinyFd}
    (hwf : WellFormed fd) (hcrc : fd.hdlc.crcType = (net s).station.hdlc.crcType)
    (hmtu : fd.hdlc.physMtu = (net s).station.hdlc.physMtu) (now : Instant) (lost : Bool)
    {p : Phase UInt8} (hp : p.Aligned) : ∃ p' : Phase UInt8, p'.Aligned ∧
      (net (!s)).station.decode p (sentBytes fd (fd.generateTxFrames now) lost) =
        (p', if lost then [] else (handed fd (fd.generateTxFrames now)).toList) := by
  by_cases hnone : sentBytes fd (fd.generateTxFrames now) lost = []
  · refine ⟨p, hp, ?_⟩
    rw [hnone, decode, Stuffing.receiveAll_nil]
    rw [sentBytes] at hnone
    cases lost with
    | true => rfl
    | false =>
      rw [handed]
      by_cases hidle : fd.hdlc.txData = none
      · rw [if_pos ⟨hidle, rfl⟩, HdlcLl.txRest_eq_nil] at hnone
        rw [if_pos hidle, hnone]
        rfl
      · rw [if_neg hidle]
        rfl
  · have hsome : fd.hdlc.txData = none ∧ lost = false := by
      by_contra hno
      exact hnone (if_neg hno)
    obtain ⟨hidle, rfl⟩ := hsome
    rcases fd.generateTxFrames_hdlc now with he | ⟨data, -, hne, he⟩
    · exfalso
      apply hnone
      rw [sentBytes, if_pos ⟨hidle, rfl⟩, he, HdlcLl.txRest_eq_nil.mpr hidle]
    · have hdata : handed fd (fd.generateTxFrames now) = some data := by
        rw [handed, if_pos hidle, he]
        rfl
      have hbytes : sentBytes fd (fd.generateTxFrames now) false =
          wireFrame fd.hdlc.crcType data := by
        rw [sentBytes, if_pos ⟨hidle, rfl⟩, he]
        exact (txOk_handOver hwf.tx hidle hne).2
      have hfit := (handed_fits hwf now hdata).2
      have hcap : data.length + getCrcFieldSize fd.hdlc.crcType ≤
          (net (!s)).station.hdlc.physMtu := by
        rw [hmtu', ← hmtu, hwf.physMtu]
        omega
      have hgood := HdlcLl.goodFrames_bodies fd.hdlc.crcType [data]
      refine ⟨.hunt, trivial, ?_⟩
      rw [hbytes, wireFrame, decode, HdlcLl.receiveAll_body _ hp ⟨hne, hcap⟩, hdata, hcrc', ← hcrc]
      exact congrArg (Prod.mk Phase.hunt) hgood

theorem getTxData_settled (h : Linked net) (ha : net.Settled) {now : Instant}
    {room timeoutMs : ℕ} {lost : Bool}
    (hs : net.step (.getTxData s now room timeoutMs lost) = some net') :
    let fd := (net s).station.checkTimeouts now
    ∃ ll, net'.frames = ((net.frames.checkTimeouts s now).generateTxFrames s now
        (if lost then [] else (handed fd (fd.generateTxFrames now)).toList)).withHdlc s ll ∧
      Linked net' ∧ net'.Settled ∧ ll.txRest = (fd.generateTxFrames now).hdlc.txRest.drop room := by
  intro fd
  obtain ⟨ll, hf, hother, hself, hok, herase, hrest⟩ := frames_getTxData (h.wf s) hs
  have hwf := wellFormed_checkTimeouts (h.wf s) now
  have hhdlc : fd.hdlc = (net s).station.hdlc := checkTimeouts_hdlc ..
  obtain ⟨p, hp, hdec⟩ := decode_sentBytes (h.crcType s) (h.physMtu s) hwf (by rw [hhdlc])
    (by rw [hhdlc]) now lost (ha !s)
  rw [hdec] at hf hother
  have hwf' := wellFormed_generateTxFrames hwf now
  have hlinked := (h.frames.checkTimeouts s now).generateTxFrames s now
    (if lost then [] else (handed fd (fd.generateTxFrames now)).toList)
  refine ⟨ll, hf, ?_, ?_, hrest⟩
  · apply Linked.of_frames
    rw [hf]
    apply hlinked.withHdlc
    have hst : (((net.frames.checkTimeouts s now).generateTxFrames s now
        (if lost then [] else (handed fd (fd.generateTxFrames now)).toList)) s).station =
          fd.generateTxFrames now := by
      rw [Frames.generateTxFrames, put_of_not, put_self, Frames.checkTimeouts, put_self]
      rfl
    rw [hst]
    exact moved_tx hwf'.rx hwf'.rxFrames hok herase
  · intro t
    rcases Bool.eq_or_eq_not t s with rfl | rfl
    · rw [hself]
      exact ha t
    · rw [hother]
      exact hp

theorem onRxData_settled (h : Linked net) (ha : net.Settled) {now : Instant} {count : ℕ}
    (hs : net.step (.onRxData s now count) = some net') :
    let arrived := (net s).station.decode (net s).station.hdlc.phase ((net s).inbox.take count)
    ∃ ll, net'.frames =
        ((fun f : Frames ↦ f.receive s now)^[arrived.2.length] net.frames).withHdlc s ll ∧
      arrived.2 <+: (net.frames s).inbox ∧ Linked net' ∧ net'.Settled := by
  intro arrived
  obtain ⟨ll, hf, hpre, hphase, hok, hframes, herase⟩ := frames_onRxData (h.wf s) hs
  refine ⟨ll, hf, hpre, ?_, ?_⟩
  · apply Linked.of_frames
    rw [hf]
    have hlinked := h.frames.receives s now arrived.2.length
    obtain ⟨rest, hrest⟩ := hpre
    apply hlinked.withHdlc
    rw [Frames.receive_iterate s now _ _ hrest.symm, put_self, deliver_hdlc]
    exact moved_rx (h.wf s).tx hok hframes herase
  · intro t
    rw [hphase t]
    exact ha t

theorem sendPacket_settled (h : Linked net) (ha : net.Settled) {address : UInt8} {data : Bytes}
    {timeoutMs : ℕ} (hs : net.step (.sendPacket s address data timeoutMs) = some net') :
    net'.frames = net.frames.sendPacket s address data timeoutMs ∧ Linked net' ∧ net'.Settled := by
  obtain ⟨hf, hphase⟩ := frames_sendPacket hs
  refine ⟨hf, ?_, fun t ↦ by rw [hphase t]; exact ha t⟩
  apply Linked.of_frames
  rw [hf]
  exact h.frames.sendPacket ..

theorem disconnect_settled (h : Linked net) (ha : net.Settled)
    (hs : net.step (.disconnect s) = some net') : net'.frames = net.frames.disconnect s ∧
    Linked net' ∧ net'.Settled := by
  obtain ⟨hf, hphase⟩ := frames_disconnect hs
  refine ⟨hf, ?_, fun t ↦ by rw [hphase t]; exact ha t⟩
  apply Linked.of_frames
  rw [hf]
  exact h.frames.disconnect s

def emitted (net : Net) : Op → Bytes
  | .getTxData s now room timeoutMs _ =>
      (((net s).station.getTxData now room timeoutMs).map Prod.snd).getD []
  | _ => []

theorem sentBytes_handed {fd : TinyFd} (hwf : WellFormed fd) (now : Instant) :
    sentBytes fd (fd.generateTxFrames now) false =
      match handed fd (fd.generateTxFrames now) with
      | none => []
      | some data => wireFrame fd.hdlc.crcType data := by
  rw [sentBytes, handed]
  by_cases hidle : fd.hdlc.txData = none
  · rw [if_pos ⟨hidle, rfl⟩, if_pos hidle]
    rcases fd.generateTxFrames_hdlc now with he | ⟨data, -, hne, he⟩ <;> rw [he]
    · rw [hidle]
      exact HdlcLl.txRest_eq_nil.mpr hidle
    · exact (txOk_handOver hwf.tx hidle hne).2
  · rw [if_neg fun h ↦ hidle h.1, if_neg hidle]

theorem frames_quiet {s : Bool} {now : Instant} (hq : (net s).station.Quiet now) :
    net.frames.checkTimeouts s now = net.frames := by
  apply ext_not
  · rw [Frames.checkTimeouts, put_self]
    exact congrArg (Side.mk · _ _ _) (checkTimeouts_quiet hq)
  · rw [Frames.checkTimeouts, put_not]

/-- A call that moves bytes, with no timer running out and nothing lost. -/
def Exchange (net : Net) : Op → Prop
  | .getTxData s now _ _ lost => (net s).station.Quiet now ∧ lost = false
  | .onRxData .. => True
  | _ => False

instance (op : Op) : Decidable (net.Exchange op) := by
  cases op <;> unfold Exchange <;> infer_instance

def plainConfig (s : Bool) : TinyFdConfig := { crcType := .hdlcCrcOff, addr := if s then 0 else 1 }

theorem plainConfig_pair : Pair plainConfig := ⟨by decide, by decide, rfl, rfl⟩

def handshake : List Op :=
  [.getTxData true 0 8 0 false, .onRxData false 0 8, .getTxData false 0 8 0 false,
    .onRxData true 0 8]

def connectedNet : Net := (replay plainConfig 0 handshake).get (by decide +kernel)

end Net

end TinyProto
