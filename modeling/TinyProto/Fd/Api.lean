import TinyProto.Fd.Transmit
import TinyProto.Hdlc.RoundTrip

namespace TinyProto.TinyFd

open Lib

variable {fd : TinyFd}

def withHdlc (fd : TinyFd) (ll : HdlcLl) : TinyFd := { fd with hdlc := ll }

section WithHdlc

variable (fd) (ll : HdlcLl)

@[simp] theorem hdlc_withHdlc : (fd.withHdlc ll).hdlc = ll := rfl
@[simp] theorem peerMgr_withHdlc : (fd.withHdlc ll).peerMgr = fd.peerMgr := rfl
@[simp] theorem peer_withHdlc (p : ℕ) : (fd.withHdlc ll).peer p = fd.peer p := rfl
@[simp] theorem frames_withHdlc : (fd.withHdlc ll).frames = fd.frames := rfl
@[simp] theorem callbacks_withHdlc : (fd.withHdlc ll).callbacks = fd.callbacks := rfl
@[simp] theorem setup_withHdlc : (fd.withHdlc ll).setup = fd.setup := rfl
@[simp] theorem withHdlc_withHdlc (ll' : HdlcLl) :
    (fd.withHdlc ll).withHdlc ll' = fd.withHdlc ll' := rfl
theorem withHdlc_self : fd.withHdlc fd.hdlc = fd := rfl

/-! The handlers of received frames never look at the framing layer. -/

theorem putUSFrame_withHdlc (frameType : QueuedFrameType) (header : FrameHeader) (data : Bytes) :
    ((fd.withHdlc ll).putUSFrame frameType header data).1 =
      (fd.putUSFrame frameType header data).1.withHdlc ll := by
  simp only [putUSFrame, frames_withHdlc]
  split <;> rfl

theorem modifyPeer_withHdlc (p : ℕ) (f : PeerInfo → PeerInfo) :
    (fd.withHdlc ll).modifyPeer p f = (fd.modifyPeer p f).withHdlc ll := rfl

theorem setEvents_withHdlc (bits : UInt8) :
    (fd.withHdlc ll).setEvents bits = (fd.setEvents bits).withHdlc ll := rfl

theorem call_withHdlc (c : Callback) : (fd.withHdlc ll).call c = (fd.call c).withHdlc ll := rfl

theorem addrField_withHdlc (p : ℕ) : (fd.withHdlc ll).addrField p = fd.addrField p := rfl

theorem userAddress_withHdlc (p : ℕ) : (fd.withHdlc ll).userAddress p = fd.userAddress p := rfl

theorem confirmFrames_withHdlc (p : ℕ) (nr : UInt8) :
    (fd.withHdlc ll).confirmFrames p nr = (fd.confirmFrames p nr).withHdlc ll := by
  simp only [confirmFrames]
  rw [apply_ite fun fd : TinyFd ↦ fd.withHdlc ll]
  rfl

theorem switchToConnected_withHdlc (p : ℕ) (now : Instant) :
    (fd.withHdlc ll).switchToConnected p now = (fd.switchToConnected p now).withHdlc ll := by
  simp only [switchToConnected, peer_withHdlc]
  rw [apply_ite fun fd : TinyFd ↦ fd.withHdlc ll]
  congr 1
  simp only [modifyPeer_withHdlc, setEvents_withHdlc, frames_withHdlc, ← call_withHdlc]
  rw [apply_ite fun fd : TinyFd ↦ fd.withHdlc ll]
  rfl

theorem switchToDisconnected_withHdlc (p : ℕ) (now : Instant) :
    (fd.withHdlc ll).switchToDisconnected p now = (fd.switchToDisconnected p now).withHdlc ll := by
  simp only [switchToDisconnected]
  rw [apply_ite fun fd : TinyFd ↦ fd.withHdlc ll]
  rfl

theorem onUFrameReceived_withHdlc (p : ℕ) (now : Instant) (data : Bytes) :
    (fd.withHdlc ll).onUFrameReceived p now data =
      (fd.onUFrameReceived p now data).withHdlc ll := by
  simp only [onUFrameReceived, addrField_withHdlc, putUSFrame_withHdlc, switchToConnected_withHdlc,
    switchToDisconnected_withHdlc, peer_withHdlc]
  split_ifs
  · rfl
  · cases (fd.peer p).state <;> rfl
  all_goals rfl

theorem onIFrameReceived_withHdlc (p : ℕ) (data : Bytes) :
    (fd.withHdlc ll).onIFrameReceived p data = (fd.onIFrameReceived p data).withHdlc ll := by
  simp only [onIFrameReceived, addrField_withHdlc, userAddress_withHdlc, confirmFrames_withHdlc,
    peer_withHdlc, modifyPeer_withHdlc, call_withHdlc, putUSFrame_withHdlc]
  split_ifs <;> rfl

theorem onSFrameReceived_withHdlc (p : ℕ) (data : Bytes) :
    (fd.withHdlc ll).onSFrameReceived p data = (fd.onSFrameReceived p data).withHdlc ll := by
  simp only [onSFrameReceived, confirmFrames_withHdlc, modifyPeer_withHdlc, setEvents_withHdlc]
  split_ifs <;> rfl

theorem onFrameReceived_withHdlc (now : Instant) (data : Bytes) :
    (fd.withHdlc ll).onFrameReceived now data = (fd.onFrameReceived now data).withHdlc ll := by
  match data with
  | [] => rfl
  | [_] => rfl
  | address :: control :: payload =>
    simp only [onFrameReceived, peerMgr_withHdlc, modifyPeer_withHdlc, onUFrameReceived_withHdlc,
      onIFrameReceived_withHdlc, onSFrameReceived_withHdlc, putUSFrame_withHdlc, addrField_withHdlc,
      peer_withHdlc]
    split_ifs <;> rfl

end WithHdlc

def deliver (now : Instant) (fd : TinyFd) (frames : List Bytes) : TinyFd :=
  frames.foldl (fun fd frame ↦ fd.onFrameReceived now frame) fd

theorem deliver_append (now : Instant) (fd : TinyFd) (xs ys : List Bytes) :
    deliver now fd (xs ++ ys) = deliver now (deliver now fd xs) ys := List.foldl_append

theorem deliver_withHdlc (now : Instant) (fd : TinyFd) (ll : HdlcLl) (frames : List Bytes) :
    deliver now (fd.withHdlc ll) frames = (deliver now fd frames).withHdlc ll := by
  induction frames generalizing fd with
  | nil => rfl
  | cons frame frames ih =>
      simp only [deliver, List.foldl_cons, onFrameReceived_withHdlc] at ih ⊢; exact ih _

theorem hdlc_onFrameReceived (fd : TinyFd) (now : Instant) (data : Bytes) :
    (fd.onFrameReceived now data).hdlc = fd.hdlc := by
  have h := onFrameReceived_withHdlc fd fd.hdlc now data
  rw [withHdlc_self] at h
  rw [h, hdlc_withHdlc]

theorem deliver_hdlc (now : Instant) (fd : TinyFd) (frames : List Bytes) :
    (deliver now fd frames).hdlc = fd.hdlc := by
  have h := deliver_withHdlc now fd fd.hdlc frames
  rw [withHdlc_self] at h
  rw [h, hdlc_withHdlc]

theorem onRxLoop_pass (now : Instant) (fuel : ℕ) {data : Bytes} (hd : data ≠ [])
    {ll : HdlcLl} {k : ℕ} {e : Option TinyError} (hrun : fd.hdlc.runRx data = (ll, k + 1, e)) :
    onRxLoop now (fuel + 1) fd data =
      onRxLoop now fuel (({ fd with hdlc := ll } : TinyFd).processRxFrames now)
        (data.drop (k + 1)) := by
  rw [onRxLoop, if_neg hd, hrun]
  cases e <;> rfl

theorem onRxLoop_eq (now : Instant) (fuel : ℕ) {fd : TinyFd} (h : fd.hdlc.RxOk)
    (hf : fd.hdlc.rxFrames = []) (data : Bytes) (hfuel : data.length < fuel) :
    onRxLoop now fuel fd data =
      (deliver now fd (HdlcLl.goodFrames fd.hdlc.crcType
        (hdlcStuffing.receiveAll fd.hdlc.physMtu fd.hdlc.phase data).2)).withHdlc
          ((fd.hdlc.feed data).withRxFrames []) := by
  induction fuel generalizing fd data with
  | zero => omega
  | succ fuel ih =>
    by_cases hd : data = []
    · subst hd
      rw [onRxLoop, if_pos rfl]
      have hll : (fd.hdlc.feed []).withRxFrames [] = fd.hdlc := by
        rw [HdlcLl.feed_nil, HdlcLl.withRxFrames, ← hf]
      rw [hll]
      rfl
    · obtain ⟨k, e, hrun, hle, hpos, -⟩ := HdlcLl.runRx_feed h data
      have hk := hpos hd
      have hspec := HdlcLl.feed_spec h (data.take k)
      obtain ⟨k, rfl⟩ : ∃ m, k = m + 1 := ⟨k - 1, by omega⟩
      have hframes : (fd.hdlc.feed (data.take (k + 1))).rxFrames = HdlcLl.goodFrames fd.hdlc.crcType
          (hdlcStuffing.receiveAll fd.hdlc.physMtu fd.hdlc.phase (data.take (k + 1))).2 := by
        rw [hspec.frames, hf, List.nil_append]
      have hproc :
          ({ fd with hdlc := fd.hdlc.feed (data.take (k + 1)) } : TinyFd).processRxFrames now =
            (deliver now fd
              (HdlcLl.goodFrames fd.hdlc.crcType
                (hdlcStuffing.receiveAll fd.hdlc.physMtu fd.hdlc.phase
                  (data.take (k + 1))).2)).withHdlc
                    ((fd.hdlc.feed (data.take (k + 1))).withRxFrames []) := by
        rw [← hframes, ← deliver_withHdlc]
        rfl
      have hok : ((fd.hdlc.feed (data.take (k + 1))).withRxFrames []).RxOk :=
        hspec.ok.withRxFrames []
      have hphase : ((fd.hdlc.feed (data.take (k + 1))).withRxFrames []).phase =
          (hdlcStuffing.receiveAll fd.hdlc.physMtu fd.hdlc.phase (data.take (k + 1))).1 :=
            hspec.phase
      have hcrc : ((fd.hdlc.feed (data.take (k + 1))).withRxFrames []).crcType = fd.hdlc.crcType :=
        HdlcLl.eraseRx_crcType hspec.frame_rule
      have hmtu : ((fd.hdlc.feed (data.take (k + 1))).withRxFrames []).physMtu = fd.hdlc.physMtu :=
        HdlcLl.eraseRx_physMtu hspec.frame_rule
      rw [onRxLoop_pass now fuel hd hrun, hproc, ih hok rfl _ (by rw [List.length_drop]; omega)]
      simp only [hdlc_withHdlc, hphase, hcrc, hmtu, deliver_withHdlc, withHdlc_withHdlc,
        HdlcLl.feed_withRxFrames]
      rw [← deliver_append, ← HdlcLl.goodFrames_append, ← HdlcLl.feed_append]
      conv_rhs => rw [← List.take_append_drop (k + 1) data, Stuffing.receiveAll_append]

/-- `on_rx_data` hands every frame that the bytes complete to the protocol, in
order, however the source's loop cuts the bytes. -/
theorem onRxData_eq (h : fd.hdlc.RxOk) (hf : fd.hdlc.rxFrames = []) (now : Instant) (data : Bytes) :
    fd.onRxData now data =
      (deliver now fd (HdlcLl.goodFrames fd.hdlc.crcType
        (hdlcStuffing.receiveAll fd.hdlc.physMtu fd.hdlc.phase data).2)).withHdlc
          ((fd.hdlc.feed data).withRxFrames []) :=
  onRxLoop_eq now _ h hf data (Nat.lt_succ_self _)

theorem txOk_handOver (h : fd.hdlc.TxOk) (hidle : fd.hdlc.txData = none) {data : Bytes}
    (hne : data ≠ []) : (fd.handOver data).hdlc.TxOk ∧
    (fd.handOver data).hdlc.txRest = wireFrame fd.hdlc.crcType data := by
  have hs := h.idle hidle
  constructor
  · constructor <;> simp [handOver, hne, hs]
  · simp [HdlcLl.txRest, handOver, hs]

def Hands (fd fd' : TinyFd) (data : Bytes) : Prop :=
  fd.hdlc.txData = none ∧ data ≠ [] ∧ fd'.hdlc = (fd.handOver data).hdlc

theorem generateTxFrames_hdlc (fd : TinyFd) (now : Instant) :
    (fd.generateTxFrames now).hdlc = fd.hdlc ∨ ∃ data, Hands fd (fd.generateTxFrames now) data := by
  rcases fd.generateTxFrames_cases now with ⟨-, h⟩ | ⟨hidle, i, frame, -, -, h⟩ |
    ⟨hidle, -, p, frame, -, -, h⟩ | ⟨-, -, -, h⟩
  · exact .inl (by rw [h])
  · exact .inr ⟨_, hidle, toBytes_ne_nil frame, by rw [h]⟩
  · exact .inr ⟨fd.sendIData p frame, hidle, by simp [sendIData, FrameInfo.toBytes], by rw [h]; rfl⟩
  · exact .inl (by rw [h])

theorem generateTxFrames_txOk (h : fd.hdlc.TxOk) (now : Instant) :
    (fd.generateTxFrames now).hdlc.TxOk := by
  rcases fd.generateTxFrames_hdlc now with he | ⟨data, hidle, hne, he⟩
  · rwa [he]
  · rw [he]
    exact (txOk_handOver h hidle hne).1

theorem generateTxFrames_again (now : Instant) {ll : HdlcLl}
    (hll : ll.txData = none → (fd.generateTxFrames now).hdlc.txData = none) :
    ((fd.generateTxFrames now).withHdlc ll).generateTxFrames now =
      (fd.generateTxFrames now).withHdlc ll := by
  by_cases hidle : ll.txData = none
  · have hnone := hll hidle
    rcases fd.generateTxFrames_cases now with ⟨hbusy, h⟩ | ⟨-, i, frame, -, -, h⟩ |
      ⟨-, -, p, frame, -, -, h⟩ | ⟨hfree, hserv, hno, h⟩
    · rw [h] at hnone
      exact absurd hnone hbusy
    · rw [h] at hnone
      cases hnone
    · rw [h] at hnone
      cases hnone
    · rw [h]
      rcases (fd.withHdlc ll).generateTxFrames_cases now with ⟨-, h'⟩ | ⟨-, i, frame, hi, -, -⟩ |
        ⟨-, -, p, frame, hp, hs, -⟩ | ⟨-, -, -, h'⟩
      · exact h'
      · exact absurd ((hserv i).symm.trans hi) (by simp)
      · exact absurd hs (hno p hp frame)
      · exact h'
  · rw [generateTxFrames,
      if_pos (by simpa [HdlcLl.isTxBusy, Option.isSome_iff_ne_none] using hidle)]

theorem checkTimeouts_ind {P : TinyFd → Prop} (now : Instant) (h : P fd)
    (hstep : ∀ p < fd.peerMgr.peers.length, ∀ fd', P fd' → P (fd'.checkTimeout now p)) :
    P (fd.checkTimeouts now) := by
  have hall : ∀ n ≤ fd.peerMgr.peers.length,
      P ((List.range n).foldl (fun fd peer ↦ fd.checkTimeout now peer) fd) := by
    intro n hn
    induction n with
    | zero => exact h
    | succ n ih =>
      rw [List.range_succ, List.foldl_append]
      exact hstep n (by omega) _ (ih (by omega))
  exact hall _ le_rfl

theorem checkTimeout_hdlc (fd : TinyFd) (now : Instant) (p : ℕ) :
    (fd.checkTimeout now p).hdlc = fd.hdlc := by
  rcases fd.checkTimeout_cases now p with ⟨h, -⟩ | ⟨-, -, h⟩ | ⟨-, -, ⟨-, h⟩ | ⟨-, h⟩⟩ | ⟨-, -, -,
    -, h⟩ | ⟨-, h⟩ <;> rw [h] <;> simp

theorem setup_checkTimeout (fd : TinyFd) (now : Instant) (p : ℕ) :
    (fd.checkTimeout now p).setup = fd.setup := by
  rcases fd.checkTimeout_cases now p with ⟨h, -⟩ | ⟨-, -, h⟩ | ⟨-, -, ⟨-, h⟩ | ⟨-, h⟩⟩ | ⟨-, -, -,
    -, h⟩ | ⟨-, h⟩ <;> rw [h]
  · refine (setup_modifyPeer p ?_).trans (setup_putUSFrame ..)
    intro _
    rfl
  · refine setup_modifyPeer p ?_
    intro _
    rfl
  · refine (setup_modifyPeer p ?_).trans ((setup_putUSFrame ..).trans (setup_modifyPeer p ?_)) <;>
    · intro _
      rfl
  · exact setup_switchToDisconnected ..
  · rw [setup_setEvents]
    refine setup_modifyPeer p ?_
    intro _
    rfl

theorem checkTimeouts_hdlc (fd : TinyFd) (now : Instant) :
    (fd.checkTimeouts now).hdlc = fd.hdlc := by
  apply checkTimeouts_ind (P := fun fd' ↦ fd'.hdlc = fd.hdlc) now rfl
  intro p _ fd' h
  rw [checkTimeout_hdlc, h]

theorem generateTxFrames_waiting {fd₁ : TinyFd} (now : Instant)
    (hgen : fd.generateTxFrames now = fd₁) (h : fd₁.hdlc.TxOk) {room : ℕ} {fd₂ : TinyFd}
    (hrun : fd₁.runTx room = some (fd₂, [])) :
    fd₂.dropSentFrames.generateTxFrames now = fd₂.dropSentFrames := by
  obtain ⟨ll, hll, hsends⟩ := HdlcLl.runTx_spec h room
  rw [runTx, hll, Option.map_some, Option.some.injEq, Prod.mk.injEq] at hrun
  have hidle : ll.txData = none → fd₁.hdlc.txData = none := by
    have hrest := hsends.rest
    rw [hrun.2, List.nil_append] at hrest
    rw [← HdlcLl.txRest_eq_nil, ← HdlcLl.txRest_eq_nil, hrest]
    exact id
  rw [← hgen] at hrun hidle
  rw [← hrun.1]
  exact @generateTxFrames_again fd now { ll with txSentFrames := [] } hidle

/-- `get_tx_data` is the timers, at most one frame for the framing layer, and as
many bytes of it as the buffer takes. Waiting changes none of this. -/
theorem getTxData_eq (h : fd.hdlc.TxOk) (now : Instant) (room timeoutMs : ℕ) :
    let fd₁ := (fd.checkTimeouts now).generateTxFrames now
    ∃ ll, fd.getTxData now room timeoutMs = some (fd₁.withHdlc ll, fd₁.hdlc.txRest.take room) ∧
    ll.TxOk ∧
      fd₁.hdlc.txRest = fd₁.hdlc.txRest.take room ++ ll.txRest ∧ ll.eraseTx = fd₁.hdlc.eraseTx ∧
      (ll.txData = none ∨ ll.txData = fd₁.hdlc.txData) := by
  have hok := @generateTxFrames_txOk (fd.checkTimeouts now) (by rwa [checkTimeouts_hdlc]) now
  rw [getTxData]
  generalize hgen : (fd.checkTimeouts now).generateTxFrames now = fd₁ at hok ⊢
  obtain ⟨ll, hrun, hsends⟩ := HdlcLl.runTx_spec hok room
  have hrun₁ : fd₁.runTx room = some (fd₁.withHdlc ll, fd₁.hdlc.txRest.take room) := by
    rw [runTx, hrun]
    rfl
  rw [hrun₁]
  dsimp only
  by_cases hwait : fd₁.hdlc.txRest.take room = [] ∧ timeoutMs > 0 ∧
      ((fd₁.withHdlc ll).dropSentFrames).waitEvents fdEventTxDataAvailable ≠ 0
  · rw [if_pos hwait]
    obtain ⟨ll', hrun', hsends'⟩ := HdlcLl.runTx_spec (hsends.ok.withTxSentFrames []) room
    have hrest : ll.txRest = fd₁.hdlc.txRest := by
      have hr := hsends.rest
      rw [hwait.1, List.nil_append] at hr
      exact hr.symm
    have hll : ({ ll with txSentFrames := [] } : HdlcLl).txRest = fd₁.hdlc.txRest := hrest
    rw [hwait.1] at hrun₁
    rw [generateTxFrames_waiting now hgen hok hrun₁, runTx]
    refine ⟨ll', ?_, hsends'.ok, ?_, hsends'.frame_rule.trans hsends.frame_rule, ?_⟩
    · rw [show (fd₁.withHdlc ll).dropSentFrames.hdlc = { ll with txSentFrames := [] } from rfl,
        hrun', hll]
      rfl
    · rw [← hll]
      exact hsends'.rest
    · rcases hsends'.txData with hnone | hsame
      · exact .inl hnone
      · exact hsends.txData.imp hsame.trans hsame.trans
  · exact ⟨{ ll with txSentFrames := [] }, if_neg hwait, hsends.ok.withTxSentFrames [], hsends.rest,
      hsends.frame_rule, hsends.txData⟩

end TinyProto.TinyFd
