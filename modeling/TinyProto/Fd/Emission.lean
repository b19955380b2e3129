import TinyProto.Fd.Single

namespace TinyProto

open Lib

namespace TinyFd

/-- What a call of `generate_tx_frames` does to the queues and the counters. -/
inductive Generated (fd fd' : TinyFd) : Prop
  | service (i : ℕ) (frame : FrameInfo) : fd.frames.sQueue.get i = some frame →
      handed fd fd' = some frame.toBytes →
      fd'.frames = { fd.frames with sQueue := fd.frames.sQueue.free i } → fd'.peerMgr = fd.peerMgr →
      Generated fd fd'
  | information (p : ℕ) (frame : FrameInfo) : p < fd.peerMgr.peers.length →
      frame ∈ fd.frames.iQueue.held →
      handed fd fd' = some (fd.sendIData p frame) → fd'.frames = fd.frames →
      (fd'.peer p).iQueueControl = (fd.peer p).iQueueControl.advanceNextNs →
      (∀ j, j ≠ p → fd'.peer j = fd.peer j) → Generated fd fd'
  | nothing : handed fd fd' = none → fd' = fd → Generated fd fd'

/-- `get_tx_data` together with the frames that it hands to `put_frame`. -/
def getTxDataLog (fd : TinyFd) (now : Instant) (room timeoutMs : ℕ) :
    Option (TinyFd × Bytes × List Bytes) :=
  let fd₀ := fd.checkTimeouts now
  let fd₁ := fd₀.generateTxFrames now
  match fd₁.runTx room with
  | none => none
  | some (fd₂, out) =>
    let fd₂ := fd₂.dropSentFrames
    if out = [] ∧ timeoutMs > 0 ∧ fd₂.waitEvents fdEventTxDataAvailable ≠ 0 then
      let fd₃ := fd₂.generateTxFrames now
      (fd₃.runTx room).map fun (fd, out) ↦
        (fd, out, (handed fd₀ fd₁).toList ++ (handed fd₂ fd₃).toList)
    else some (fd₂, out, (handed fd₀ fd₁).toList)

/-- A station with all the bytes that it has put out and all the frames that it has
handed to `put_frame`. -/
structure Emission where
  fd : TinyFd
  out : Bytes
  handed : List Bytes

def Emission.step (e : Emission) : Op → Option Emission
  | .getTxData now room timeoutMs =>
    (e.fd.getTxDataLog now room timeoutMs).map fun (fd, out, frames) ↦
      ⟨fd, e.out ++ out, e.handed ++ frames⟩
  | op => (e.fd.step op).map fun fd ↦ { e with fd := fd }

def onRxLoopLog (now : Instant) : ℕ → TinyFd → Bytes → TinyFd × List Bytes × List TinyError
  | 0, fd, _ => (fd, [], [])
  | fuel + 1, fd, remaining =>
    if remaining = [] then (fd, [], [])
    else
      match fd.hdlc.runRx remaining with
      | (hdlc, 0, none) => ({ fd with hdlc := hdlc }, [], [])
      | (hdlc, consumed, error) =>
        let rest := onRxLoopLog now fuel ({ fd with hdlc := hdlc }.processRxFrames now)
          (remaining.drop consumed)
        (rest.1, hdlc.rxFrames ++ rest.2.1, error.toList ++ rest.2.2)

def onRxDataLog (fd : TinyFd) (now : Instant) (data : Bytes) :
    TinyFd × List Bytes × List TinyError :=
  onRxLoopLog now (data.length + 1) fd data

def receiveLog : TinyFd → List (Instant × Bytes) → TinyFd × List Bytes × List TinyError
  | fd, [] => (fd, [], [])
  | fd, (now, piece) :: pieces =>
    let first := fd.onRxDataLog now piece
    let rest := first.1.receiveLog pieces
    (rest.1, first.2.1 ++ rest.2.1, first.2.2 ++ rest.2.2)

section Logs

variable {fd : TinyFd}

/-! The logs are about the functions of the source. -/

theorem getTxDataLog_fst (now : Instant) (room timeoutMs : ℕ) :
    (fd.getTxDataLog now room timeoutMs).map (fun r ↦ (r.1, r.2.1)) =
      fd.getTxData now room timeoutMs := by
  rw [getTxDataLog, getTxData]
  dsimp only
  rcases ((fd.checkTimeouts now).generateTxFrames now).runTx room with _ | ⟨fd₂, out⟩
  · rfl
  · dsimp only
    split
    · rw [Option.map_map]
      exact Option.map_id'
    · rfl

theorem emission_step (e : Emission) (op : Op) : (e.step op).map Emission.fd = e.fd.step op := by
  cases op with
  | getTxData now room timeoutMs =>
    rw [Emission.step, step, Option.map_map, ← getTxDataLog_fst, Option.map_map]
    rfl
  | sendPacket address data timeoutMs => rfl
  | disconnect => rfl
  | onRxData now data => rfl

theorem onRxLoopLog_fst (now : Instant) (fuel : ℕ) (fd : TinyFd) (data : Bytes) :
    (onRxLoopLog now fuel fd data).1 = onRxLoop now fuel fd data := by
  induction fuel generalizing fd data with
  | zero => rfl
  | succ fuel ih =>
    rw [onRxLoopLog, onRxLoop]
    split
    · rfl
    · rcases fd.hdlc.runRx data with ⟨hdlc, _ | consumed, _ | error⟩
      · rfl
      all_goals exact ih _ _

theorem receiveLog_fst (fd : TinyFd) (pieces : List (Instant × Bytes)) :
    (fd.receiveLog pieces).1 = pieces.foldl (fun fd piece ↦ fd.onRxData piece.1 piece.2) fd := by
  induction pieces generalizing fd with
  | nil => rfl
  | cons piece pieces ih =>
    rw [List.foldl_cons, ← ih, onRxData, ← onRxLoopLog_fst]
    rfl

end Logs

section Generate

variable {fd : TinyFd}

theorem generateTxFrames_generated (fd : TinyFd) (now : Instant) :
    Generated fd (fd.generateTxFrames now) := by
  rcases fd.generateTxFrames_cases now with ⟨hbusy, he⟩ | ⟨hidle, i, frame, hi, -, he⟩ |
    ⟨hidle, -, p, frame, hp, hs, he⟩ | ⟨hidle, -, -, he⟩
  · exact .nothing (if_neg hbusy) he
  · refine .service i frame hi ?_ (by rw [he]) (by rw [he]; rfl)
    rw [handed, if_pos hidle, he]
    rfl
  · obtain ⟨-, -, k, hget⟩ := hs
    have hp' : p < (fd.handOver (fd.sendIData p frame)).peerMgr.peers.length := hp
    refine .information p frame hp (FrameQueue.getNext_some hget).1 ?_ (by rw [he]; rfl) ?_ ?_
    · rw [handed, if_pos hidle, he]
      rfl
    · rw [he, peer_modifyPeer_self hp']
      rfl
    · intro j hj
      rw [he, peer_modifyPeer_ne hj]
      rfl
  · refine .nothing ?_ he
    rw [handed, if_pos hidle, he, hidle]

end Generate

section Carried

/-- The bytes put out are the encodings of the frames handed over, except for what
is left of the one in hand. -/
def Carried (ll : HdlcLl) (out : Bytes) (frames : List Bytes) : Prop :=
  ∃ sent part, frames = sent ++ ll.txData.toList ∧
    out = sent.flatMap (wireFrame ll.crcType) ++ part ∧
    part ++ ll.txRest = ll.txData.toList.flatMap (wireFrame ll.crcType)

variable {ll ll' : HdlcLl} {out : Bytes} {frames : List Bytes}

theorem Carried.congr (h : Carried ll out frames) (hdata : ll'.txData = ll.txData)
    (hrest : ll'.txRest = ll.txRest) (hcrc : ll'.crcType = ll.crcType) :
    Carried ll' out frames := by
  rw [Carried, hdata, hrest, hcrc]
  exact h

theorem Carried.generate {fd : TinyFd} (h : Carried fd.hdlc out frames) (hok : fd.hdlc.TxOk)
    (now : Instant) :
    Carried (fd.generateTxFrames now).hdlc out
      (frames ++ (handed fd (fd.generateTxFrames now)).toList) := by
  rcases fd.generateTxFrames_hdlc now with he | ⟨data, hidle, hne, he⟩
  · have hnone : handed fd (fd.generateTxFrames now) = none := by
      rw [handed, he]
      split
      · assumption
      · rfl
    rw [hnone, Option.toList_none, List.append_nil, he]
    exact h
  · obtain ⟨sent, part, hframes, hout, hpart⟩ := h
    rw [hidle, Option.toList_none, List.append_nil] at hframes
    rw [hidle, Option.toList_none, List.flatMap_nil, List.append_eq_nil_iff] at hpart
    have hsome : handed fd (fd.generateTxFrames now) = some data := by
      rw [handed, if_pos hidle, he]
      rfl
    rw [he, hsome]
    refine ⟨sent, [], by rw [hframes]; rfl, by rw [hout, hpart.1]; rfl, ?_⟩
    rw [(txOk_handOver hok hidle hne).2]
    exact (List.flatMap_singleton ..).symm

theorem Carried.write (h : Carried ll out frames) {bytes : Bytes}
    (hrest : ll.txRest = bytes ++ ll'.txRest) (hdata : ll'.txData = none ∨ ll'.txData = ll.txData)
    (hcrc : ll'.crcType = ll.crcType) : Carried ll' (out ++ bytes) frames := by
  obtain ⟨sent, part, hframes, hout, hpart⟩ := h
  rw [hrest, ← List.append_assoc] at hpart
  by_cases hnone : ll'.txData = none
  · rw [HdlcLl.txRest_eq_nil.mpr hnone, List.append_nil] at hpart
    refine ⟨frames, [], ?_, ?_, ?_⟩
    · rw [hnone, Option.toList_none, List.append_nil]
    · rw [hframes, hout, hcrc, List.flatMap_append, List.append_nil, List.append_assoc, hpart]
    · rw [HdlcLl.txRest_eq_nil.mpr hnone, hnone]
      rfl
  · have hsame := hdata.resolve_left hnone
    refine ⟨sent,
      part ++
        bytes, by rw [hframes, hsame], by rw [hout, hcrc,
          List.append_assoc], by rw [hpart, hsame, hcrc]⟩

theorem Carried.received (h : Carried ll out frames) {cap : ℕ}
    (hfit : ∀ data ∈ frames, data ≠ [] ∧ data.length + getCrcFieldSize ll.crcType ≤ cap) :
    ∃ sent, frames = sent ++ ll.txData.toList ∧
      (hdlcStuffing.receiveAll cap .hunt out).2 = sent.map (frameBody ll.crcType) := by
  obtain ⟨sent, part, hframes, hout, hpart⟩ := h
  refine ⟨sent, hframes, ?_⟩
  have hquiet : (hdlcStuffing.receiveAll cap .hunt part).2 = [] := by
    cases hdata : ll.txData with
    | none =>
      rw [hdata, Option.toList_none, List.flatMap_nil, List.append_eq_nil_iff] at hpart
      rw [hpart.1]
      rfl
    | some data =>
      rw [hdata, Option.toList_some, List.flatMap_singleton] at hpart
      apply hdlcStuffing.receiveAll_part cap hpart
      rw [ne_eq, HdlcLl.txRest_eq_nil, hdata]
      exact Option.some_ne_none data
  have hsent := HdlcLl.receiveAll_frames_hunt ll.crcType sent fun data hmem ↦
    hfit data (by rw [hframes]; exact List.mem_append_left _ hmem)
  rw [hout, Stuffing.receiveAll_append, hsent]
  dsimp only
  rw [hquiet, List.append_nil]

end Carried

section Run

variable {fd fd' : TinyFd}

theorem handed_self (fd : TinyFd) : handed fd fd = none := by
  rw [handed]
  split
  · assumption
  · rfl

theorem getTxDataLog_eq (h : fd.hdlc.TxOk) (now : Instant) (room timeoutMs : ℕ) :
    fd.getTxDataLog now room timeoutMs = (fd.getTxData now room timeoutMs).map fun r ↦
      (r.1, r.2,
        (handed (fd.checkTimeouts now) ((fd.checkTimeouts now).generateTxFrames now)).toList) := by
  have hok := @generateTxFrames_txOk (fd.checkTimeouts now) (by rwa [checkTimeouts_hdlc]) now
  have hwaiting : ∀ fd₂, ((fd.checkTimeouts now).generateTxFrames now).runTx room = some (fd₂, []) →
      fd₂.dropSentFrames.generateTxFrames now = fd₂.dropSentFrames :=
    fun _ hrun ↦ generateTxFrames_waiting now rfl hok hrun
  rw [getTxDataLog, getTxData]
  dsimp only
  rcases hrun : ((fd.checkTimeouts now).generateTxFrames now).runTx room with _ | ⟨fd₂, out⟩
  · rfl
  · dsimp only
    by_cases hwait : out = [] ∧ timeoutMs > 0 ∧
        fd₂.dropSentFrames.waitEvents fdEventTxDataAvailable ≠ 0
    · rw [if_pos hwait, if_pos hwait, hwaiting fd₂ (by rw [hrun, hwait.1]), handed_self,
        Option.toList_none, List.append_nil]
    · rw [if_neg hwait, if_neg hwait]
      rfl

structure Emitted (origin : TinyFd) (e : Emission) : Prop where
  wf : WellFormed e.fd
  crcType : e.fd.hdlc.crcType = origin.hdlc.crcType
  mtu : e.fd.mtu = origin.mtu
  fits : ∀ data ∈ e.handed, data ≠ [] ∧ data.length ≤ origin.mtu + 2
  carried : Carried e.fd.hdlc e.out e.handed

theorem emitted_new {config : TinyFdConfig} {now : Instant}
    (hnew : TinyFd.new config now = .ok fd) :
    Emitted fd ⟨fd, [], []⟩ := by
  have hidle := (initial_new hnew).txData
  refine ⟨wellFormed_new hnew, rfl, rfl, fun _ hmem ↦ absurd hmem List.not_mem_nil, [],
    [], ?_, rfl, ?_⟩
  · rw [hidle]
    rfl
  · rw [hidle, HdlcLl.txRest_eq_nil.mpr hidle]
    rfl

theorem Emitted.getTxData {origin : TinyFd} {e : Emission} (h : Emitted origin e) (now : Instant)
    (room timeoutMs : ℕ) : ∃ e', e.step (.getTxData now room timeoutMs) = some e' ∧
    Emitted origin e' := by
  have hlog := getTxDataLog_eq h.wf.tx now room timeoutMs
  obtain ⟨ll, hget, -, hrest, herase, hdata⟩ := getTxData_eq h.wf.tx now room timeoutMs
  have hwf := wellFormed_getTxData h.wf hget
  have hstep : e.fd.step (.getTxData now room timeoutMs) =
      some (((e.fd.checkTimeouts now).generateTxFrames now).withHdlc ll) := by
    rw [TinyFd.step, hget]
    rfl
  have hcrc := crcType_step h.wf hstep
  have hset := setup_step h.wf hstep
  have hwf₀ := wellFormed_checkTimeouts h.wf now
  have hmtu₀ : (e.fd.checkTimeouts now).mtu = e.fd.mtu :=
    congrArg Setup.mtu (setup_checkTimeouts e.fd now)
  have hcarried₀ : Carried (e.fd.checkTimeouts now).hdlc e.out e.handed := by
    rw [checkTimeouts_hdlc]
    exact h.carried
  rw [hget, Option.map_some] at hlog
  refine ⟨_, by rw [Emission.step, hlog]; rfl, hwf, hcrc.trans h.crcType,
    (congrArg Setup.mtu hset).trans h.mtu, ?_, ?_⟩
  · intro data hmem
    rcases List.mem_append.mp hmem with hmem | hmem
    · exact h.fits data hmem
    · rw [← h.mtu, ← hmtu₀]
      exact handed_fits hwf₀ now (Option.mem_toList.mp hmem)
  · exact (hcarried₀.generate hwf₀.tx now).write hrest hdata (crcType_of_eraseTx herase)

theorem Emitted.step {origin : TinyFd} {e : Emission} (h : Emitted origin e) (op : Op) :
    ∃ e', e.step op = some e' ∧ Emitted origin e' := by
  have hother : ∀ {fd' : TinyFd}, e.fd.step op = some fd' →
      (∀ now room timeoutMs, op ≠ .getTxData now room timeoutMs) →
      Emitted origin { e with fd := fd' } := by
    intro fd' hs hop
    have herase := step_eraseRx h.wf hs hop
    exact ⟨wellFormed_step h.wf hs, (crcType_step h.wf hs).trans h.crcType,
      (congrArg Setup.mtu (setup_step h.wf hs)).trans h.mtu, h.fits,
      h.carried.congr (txData_of_eraseRx herase) (txRest_of_eraseRx herase)
        (HdlcLl.eraseRx_crcType herase)⟩
  cases op with
  | getTxData now room timeoutMs => exact h.getTxData now room timeoutMs
  | sendPacket address data timeoutMs => exact ⟨_, rfl, hother rfl fun _ _ _ ↦ Op.noConfusion⟩
  | disconnect => exact ⟨_, rfl, hother rfl fun _ _ _ ↦ Op.noConfusion⟩
  | onRxData now data => exact ⟨_, rfl, hother rfl fun _ _ _ ↦ Op.noConfusion⟩

theorem Emitted.run {origin : TinyFd} {e : Emission} (h : Emitted origin e) (ops : List Op) :
    ∃ e', Lib.run Emission.step e ops = some e' ∧ Lib.run TinyFd.step e.fd ops = some e'.fd ∧
    Emitted origin e' := by
  induction ops generalizing e with
  | nil => exact ⟨e, rfl, rfl, h⟩
  | cons op ops ih =>
    obtain ⟨e₁, hs, h₁⟩ := h.step op
    obtain ⟨e₂, hrun, hrun', h₂⟩ := ih h₁
    have hs' : e.fd.step op = some e₁.fd := by rw [← emission_step, hs, Option.map_some]
    exact ⟨e₂, run_cons.mpr ⟨e₁, hs, hrun⟩, run_cons.mpr ⟨e₁.fd, hs', hrun'⟩, h₂⟩

end Run

section Reception

variable {fd : TinyFd}

theorem hdlc_processRxFrames (fd : TinyFd) (now : Instant) :
    (fd.processRxFrames now).hdlc = fd.hdlc.withRxFrames [] :=
  deliver_hdlc now (fd.withHdlc (fd.hdlc.withRxFrames [])) fd.hdlc.rxFrames

theorem onRxLoopLog_pass (now : Instant) (fuel : ℕ) {data : Bytes} (hd : data ≠ [])
    {ll : HdlcLl} {k : ℕ} {e : Option TinyError} (hrun : fd.hdlc.runRx data = (ll, k + 1, e)) :
    (onRxLoopLog now (fuel + 1) fd data).2 =
      (ll.rxFrames ++
        (onRxLoopLog now fuel ((fd.withHdlc ll).processRxFrames now) (data.drop (k + 1))).2.1,
        e.toList ++
          (onRxLoopLog now fuel ((fd.withHdlc ll).processRxFrames now)
            (data.drop (k + 1))).2.2) := by
  rw [onRxLoopLog, if_neg hd, hrun]
  cases e <;> rfl

theorem onRxLoopLog_eq (now : Instant) (fuel : ℕ) (h : fd.hdlc.RxOk) (hf : fd.hdlc.rxFrames = [])
    (data : Bytes) (hfuel : data.length < fuel) :
    let bodies := (hdlcStuffing.receiveAll fd.hdlc.physMtu fd.hdlc.phase data).2
    (onRxLoopLog now fuel fd data).2 =
      (HdlcLl.goodFrames fd.hdlc.crcType bodies, HdlcLl.badBodies fd.hdlc.crcType bodies) := by
  intro bodies
  induction fuel generalizing fd data with
  | zero => omega
  | succ fuel ih =>
    by_cases hd : data = []
    · rw [onRxLoopLog, if_pos hd]
      simp only [bodies, hd]
      rfl
    · obtain ⟨k, e, hrun, -, hpos, -, herr⟩ := HdlcLl.runRx_feed h data
      obtain ⟨k, rfl⟩ : ∃ m, k = m + 1 := ⟨k - 1, by have hk := hpos hd; omega⟩
      have hshort : data.length - (k + 1) < fuel := by
        have hpos := List.length_pos_iff.mpr hd
        omega
      have hspec := HdlcLl.feed_spec h (data.take (k + 1))
      have hgood := hspec.frames
      rw [hf, List.nil_append] at hgood
      have hhdlc := hdlc_processRxFrames (fd.withHdlc (fd.hdlc.feed (data.take (k + 1)))) now
      rw [hdlc_withHdlc] at hhdlc
      have hrest := @ih ((fd.withHdlc (fd.hdlc.feed (data.take (k + 1)))).processRxFrames now)
        (by rw [hhdlc]; exact hspec.ok.withRxFrames []) (by rw [hhdlc]; rfl) (data.drop (k + 1))
        (by rw [List.length_drop]; exact hshort)
      have hphase : ((fd.hdlc.feed (data.take (k + 1))).withRxFrames []).phase = _ := hspec.phase
      have hcrc : ((fd.hdlc.feed (data.take (k + 1))).withRxFrames []).crcType = _ :=
        HdlcLl.eraseRx_crcType hspec.frame_rule
      have hmtu : ((fd.hdlc.feed (data.take (k + 1))).withRxFrames []).physMtu = _ :=
        HdlcLl.eraseRx_physMtu hspec.frame_rule
      rw [hhdlc, hphase, hcrc, hmtu] at hrest
      have hcut : bodies =
          (hdlcStuffing.receiveAll fd.hdlc.physMtu fd.hdlc.phase (data.take (k + 1))).2 ++
            (hdlcStuffing.receiveAll fd.hdlc.physMtu
              (hdlcStuffing.receiveAll fd.hdlc.physMtu fd.hdlc.phase (data.take (k + 1))).1
                (data.drop (k + 1))).2 := by
        simp only [bodies]
        conv_lhs => rw [← List.take_append_drop (k + 1) data, Stuffing.receiveAll_append]
      have hpass := onRxLoopLog_pass now fuel hd hrun
      rw [hpass, hrest, hgood, herr, hcut, HdlcLl.goodFrames_append, HdlcLl.badBodies_append]

theorem onRxDataLog_eq (h : fd.hdlc.RxOk) (hf : fd.hdlc.rxFrames = []) (now : Instant)
    (data : Bytes) :
    let bodies := (hdlcStuffing.receiveAll fd.hdlc.physMtu fd.hdlc.phase data).2
    (fd.onRxDataLog now data).2 =
      (HdlcLl.goodFrames fd.hdlc.crcType bodies, HdlcLl.badBodies fd.hdlc.crcType bodies) :=
  onRxLoopLog_eq now _ h hf data (Nat.lt_succ_self _)

theorem receiveLog_eq (h : WellFormed fd) (pieces : List (Instant × Bytes)) :
    let bodies :=
      (hdlcStuffing.receiveAll fd.hdlc.physMtu fd.hdlc.phase (pieces.map Prod.snd).flatten).2
    (fd.receiveLog pieces).2 =
      (HdlcLl.goodFrames fd.hdlc.crcType bodies, HdlcLl.badBodies fd.hdlc.crcType bodies) := by
  induction pieces generalizing fd with
  | nil => rfl
  | cons piece pieces ih =>
    obtain ⟨now, data⟩ := piece
    have hone := onRxDataLog_eq h.rx h.rxFrames now data
    have hfst : (fd.onRxDataLog now data).1 = fd.onRxData now data := onRxLoopLog_fst ..
    have hrest := ih (wellFormed_onRxData h now data)
    have hspec := HdlcLl.feed_spec h.rx data
    have hhdlc : (fd.onRxData now data).hdlc = (fd.hdlc.feed data).withRxFrames [] := by
      rw [onRxData_eq h.rx h.rxFrames, hdlc_withHdlc]
    have hphase : ((fd.hdlc.feed data).withRxFrames []).phase = _ := hspec.phase
    have hcrc : ((fd.hdlc.feed data).withRxFrames []).crcType = _ :=
      HdlcLl.eraseRx_crcType hspec.frame_rule
    have hmtu : ((fd.hdlc.feed data).withRxFrames []).physMtu = _ :=
      HdlcLl.eraseRx_physMtu hspec.frame_rule
    rw [hhdlc, hphase, hcrc, hmtu, ← hfst] at hrest
    dsimp only at hone hrest ⊢
    change ((fd.onRxDataLog now data).2.1 ++ _, (fd.onRxDataLog now data).2.2 ++ _) = _
    rw [hone, hrest, List.map_cons, List.flatten_cons, Stuffing.receiveAll_append,
      HdlcLl.goodFrames_append, HdlcLl.badBodies_append]

theorem handled_withHdlc (fd : TinyFd) (ll : HdlcLl) (stamped : List (Instant × Bytes)) :
    stamped.foldl (fun fd frame ↦ fd.onFrameReceived frame.1 frame.2) (fd.withHdlc ll) =
      (stamped.foldl (fun fd frame ↦ fd.onFrameReceived frame.1 frame.2) fd).withHdlc ll := by
  induction stamped generalizing fd with
  | nil => rfl
  | cons frame stamped ih =>
    rw [List.foldl_cons, List.foldl_cons, onFrameReceived_withHdlc]
    exact ih _

/-- The station after the pieces: each frame has been handled, at the time of the piece
that completed it. -/
theorem receiveLog_state (h : WellFormed fd) (pieces : List (Instant × Bytes)) :
    ∃ stamped : List (Instant × Bytes),
      stamped.map Prod.snd = (fd.receiveLog pieces).2.1 ∧
      (∀ frame ∈ stamped, frame.1 ∈ pieces.map Prod.fst) ∧ (fd.receiveLog pieces).1 =
        (stamped.foldl (fun fd frame ↦ fd.onFrameReceived frame.1 frame.2) fd).withHdlc
          ((fd.hdlc.feed (pieces.map Prod.snd).flatten).withRxFrames []) := by
  induction pieces generalizing fd with
  | nil =>
    refine ⟨[], rfl, fun frame hmem ↦ absurd hmem List.not_mem_nil, ?_⟩
    rw [List.map_nil, List.flatten_nil, HdlcLl.feed_nil, HdlcLl.withRxFrames, ← h.rxFrames]
    rfl
  | cons piece pieces ih =>
    obtain ⟨now, data⟩ := piece
    have hfst : (fd.onRxDataLog now data).1 = fd.onRxData now data := onRxLoopLog_fst ..
    have hone : (fd.onRxDataLog now data).2.1 = HdlcLl.goodFrames fd.hdlc.crcType
        (hdlcStuffing.receiveAll fd.hdlc.physMtu fd.hdlc.phase data).2 :=
      congrArg Prod.fst (onRxDataLog_eq h.rx h.rxFrames now data)
    have hpiece := onRxData_eq h.rx h.rxFrames now data
    rw [← hone] at hpiece
    obtain ⟨stamped, hframes, htimes, hstate⟩ := ih (wellFormed_onRxData h now data)
    have hhdlc : (fd.onRxData now data).hdlc = (fd.hdlc.feed data).withRxFrames [] := by
      rw [hpiece, hdlc_withHdlc]
    refine ⟨(fd.onRxDataLog now data).2.1.map (Prod.mk now) ++ stamped, ?_, fun frame hmem ↦ ?_, ?_⟩
    · rw [List.map_append, List.map_map, hframes, ← hfst]
      exact congrArg (· ++ _) (List.map_id _)
    · rcases List.mem_append.mp hmem with hmem | hmem
      · obtain ⟨data', -, rfl⟩ := List.mem_map.mp hmem
        exact List.mem_cons_self
      · exact List.mem_cons_of_mem now (htimes frame hmem)
    · have hlog : (fd.receiveLog ((now, data) :: pieces)).1 =
          ((fd.onRxData now data).receiveLog pieces).1 := by
        rw [← hfst]
        rfl
      rw [hlog, hstate, hhdlc, List.foldl_append, List.foldl_map, List.map_cons,
        List.flatten_cons, hpiece, handled_withHdlc, withHdlc_withHdlc, HdlcLl.feed_withRxFrames,
        ← HdlcLl.feed_append]
      rfl

end Reception

/-- Between the queues and the peer's protocol layer nothing gets lost: the frames
handed to the framing layer, one at a time, are the frames that the peer handles. -/
theorem handed_frames_arrive {config : TinyFdConfig} {now : Instant} {fd : TinyFd}
    (hnew : TinyFd.new config now = .ok fd) (ops : List Op) :
    ∃ e, run Emission.step ⟨fd, [], []⟩ ops = some e ∧ run step fd ops = some e.fd ∧
      (∀ {peerConfig : TinyFdConfig} {peer : TinyFd}, Reachable peerConfig peer →
        peer.hdlc.crcType = fd.hdlc.crcType → fd.mtu ≤ peer.mtu → peer.hdlc.rxState = .start →
        ∀ pieces : List (Instant × Bytes), (pieces.map Prod.snd).flatten = e.out →
          ∃ received, e.handed = received ++ e.fd.hdlc.txData.toList ∧
            (peer.receiveLog pieces).2 = (received, []) ∧
            ∃ stamped : List (Instant × Bytes), stamped.map Prod.snd = received ∧
              (∀ frame ∈ stamped, frame.1 ∈ pieces.map Prod.fst) ∧
              pieces.foldl (fun fd piece ↦ fd.onRxData piece.1 piece.2) peer =
                (stamped.foldl (fun fd frame ↦ fd.onFrameReceived frame.1 frame.2) peer).withHdlc
                  ((peer.hdlc.feed e.out).withRxFrames [])) ∧
      ∀ (fd' : TinyFd) (now' : Instant), Generated fd' (fd'.generateTxFrames now') := by
  obtain ⟨e, hrun, hrun', h⟩ := (emitted_new hnew).run ops
  refine ⟨e, hrun, hrun', ?_, generateTxFrames_generated⟩
  intro peerConfig peer hpeer hcrc hmtu hstart pieces hpieces
  have hwf := hpeer.wellFormed
  have hphase : peer.hdlc.phase = .hunt := by rw [HdlcLl.phase, hstart]
  have hfit : ∀ data ∈ e.handed, data ≠ [] ∧
      data.length + getCrcFieldSize e.fd.hdlc.crcType ≤ peer.hdlc.physMtu := by
    intro data hmem
    obtain ⟨hne, hlen⟩ := h.fits data hmem
    refine ⟨hne, ?_⟩
    rw [hwf.physMtu, h.crcType, hcrc]
    omega
  obtain ⟨received, hhanded, hbodies⟩ := h.carried.received hfit
  have hlog : (peer.receiveLog pieces).2 = (received, []) := by
    rw [receiveLog_eq hwf, hpieces, hphase, hbodies, h.crcType, hcrc, HdlcLl.goodFrames_bodies,
      HdlcLl.badBodies_bodies]
  obtain ⟨stamped, hframes, htimes, hstate⟩ := receiveLog_state hwf pieces
  rw [hlog] at hframes
  rw [receiveLog_fst, hpieces] at hstate
  exact ⟨received, hhanded, hlog, stamped, hframes, htimes, hstate⟩

def sabmOps : List Op :=
  [.getTxData 500000000 3 0, .getTxData 500000000 0 5, .getTxData 500000000 9 0,
    .getTxData 900000000 2 0,
    .getTxData 900000000 2 0]

theorem handed_frames_arrive_sabm :
    ∃ fd peer : TinyFd, TinyFd.new { crcType := .hdlcCrcOff } 0 = .ok fd ∧
      TinyFd.new { crcType := .hdlcCrcOff, addr := 1 } 0 = .ok peer ∧
      ∃ (e : Emission) (received : List Bytes) (stamped : List (Instant × Bytes)),
        run Emission.step ⟨fd, [], []⟩ sabmOps = some e ∧
        e.handed = [[5, 0x3F], [5, 0x3F]] ∧ e.handed = received ++ e.fd.hdlc.txData.toList ∧
        (peer.receiveLog [(1, [0x7E, 5]), (2, [0x3F, 0x7E, 0x7E]), (3, [5])]).2 = (received, []) ∧
        stamped.map Prod.snd = received ∧
        [(1, [0x7E, 5]), (2, [0x3F, 0x7E, 0x7E]), (3, [5])].foldl
            (fun fd piece ↦ TinyFd.onRxData fd piece.1 piece.2) peer =
          (stamped.foldl (fun fd frame ↦ TinyFd.onFrameReceived fd frame.1 frame.2) peer).withHdlc
            ((peer.hdlc.feed e.out).withRxFrames []) := by
  have hnew : TinyFd.new { crcType := .hdlcCrcOff } 0 = .ok _ := rfl
  have hpeer : TinyFd.new { crcType := .hdlcCrcOff, addr := 1 } 0 = .ok _ := rfl
  obtain ⟨e, hrun, -, harrive, -⟩ := handed_frames_arrive hnew sabmOps
  have hsome : ∀ fd, TinyFd.new { crcType := .hdlcCrcOff } 0 = .ok fd →
      (run Emission.step ⟨fd, [], []⟩ sabmOps).map (fun e : Emission ↦ (e.out, e.handed)) =
        some ([0x7E, 5, 0x3F, 0x7E, 0x7E, 5], [[5, 0x3F], [5, 0x3F]]) := by
    intro fd h
    rw [← Except.ok.inj h]
    decide +kernel
  have hlogs := hsome _ hnew
  rw [hrun, Option.map_some, Option.some.injEq, Prod.mk.injEq] at hlogs
  obtain ⟨received, hhanded, hlog, stamped, hframes, -, hstate⟩ :=
    harrive (.new hpeer) rfl le_rfl rfl [(1, [0x7E, 5]), (2, [0x3F, 0x7E, 0x7E]),
      (3, [5])] hlogs.1.symm
  exact ⟨_, _, hnew, hpeer, e, received, stamped, hrun, hlogs.2, hhanded, hlog, hframes, hstate⟩

end TinyFd

end TinyProto
