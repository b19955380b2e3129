import TinyProto.Hdlc.Receiver
import TinyProto.Hdlc.Transmitter

namespace TinyProto

open Lib

/-! Each half of the framing layer is blind to the other. -/

section Halves

variable {ll ll' : HdlcLl}

theorem txOk_of_eraseRx (he : ll'.eraseRx = ll.eraseRx) (h : ll.TxOk) : ll'.TxOk := by
  have h' : ll'.eraseRx.TxOk := by
    rw [he]
    exact ⟨h.idle, h.nonempty, h.crc, h.data_escape, h.crc_bits, h.crc_escape⟩
  exact ⟨h'.idle, h'.nonempty, h'.crc, h'.data_escape, h'.crc_bits, h'.crc_escape⟩

theorem txRest_of_eraseRx (he : ll'.eraseRx = ll.eraseRx) : ll'.txRest = ll.txRest := by
  have h := congrArg HdlcLl.txRest he
  exact h

theorem txData_of_eraseRx (he : ll'.eraseRx = ll.eraseRx) : ll'.txData = ll.txData := by
  have h := congrArg HdlcLl.txData he
  exact h

theorem txSentFrames_of_eraseRx (he : ll'.eraseRx = ll.eraseRx) :
    ll'.txSentFrames = ll.txSentFrames := by
  have h := congrArg HdlcLl.txSentFrames he
  exact h

theorem rxOk_of_eraseTx (he : ll'.eraseTx = ll.eraseTx) (h : ll.RxOk) : ll'.RxOk := by
  have h' : ll'.eraseTx.RxOk := by
    rw [he]
    exact ⟨h.settled, h.ptr, h.fits⟩
  exact ⟨h'.settled, h'.ptr, h'.fits⟩

theorem phase_of_eraseTx (he : ll'.eraseTx = ll.eraseTx) : ll'.phase = ll.phase := by
  have h := congrArg HdlcLl.phase he
  exact h

theorem rxFrames_of_eraseTx (he : ll'.eraseTx = ll.eraseTx) : ll'.rxFrames = ll.rxFrames := by
  have h := congrArg HdlcLl.rxFrames he
  exact h

theorem crcType_of_eraseTx (he : ll'.eraseTx = ll.eraseTx) : ll'.crcType = ll.crcType := by
  have h := congrArg HdlcLl.crcType he
  exact h

theorem physMtu_of_eraseTx (he : ll'.eraseTx = ll.eraseTx) : ll'.physMtu = ll.physMtu := by
  have h := congrArg HdlcLl.physMtu he
  exact h

end Halves

namespace HdlcLl

def Yields (get : HdlcLl → HdlcLl × Option Bytes) : HdlcLl → List Bytes → Prop
  | ll, [] => (get ll).2 = none
  | ll, frame :: frames => (get ll).2 = some frame ∧ Yields get (get ll).1 frames

theorem yields_rxFrames (ll : HdlcLl) : Yields getRxFrame ll ll.rxFrames := by
  generalize hf : ll.rxFrames = frames
  induction frames generalizing ll with
  | nil => simp [Yields, getRxFrame, hf]
  | cons frame frames ih => exact ⟨by simp [getRxFrame, hf], ih _ (by simp [getRxFrame, hf])⟩

theorem yields_txSentFrames (ll : HdlcLl) : Yields getTxSentFrame ll ll.txSentFrames := by
  generalize hf : ll.txSentFrames = frames
  induction frames generalizing ll with
  | nil => simp [Yields, getTxSentFrame, hf]
  | cons frame frames ih =>
      exact ⟨by simp [getTxSentFrame, hf], ih _ (by simp [getTxSentFrame, hf])⟩

/-- `run_tx` with the buffer sizes `sizes k`, `sizes (k + 1)`, … for as long as a
frame is in hand; `none` on a panic, or when the fuel does not suffice. -/
def drain (sizes : ℕ → ℕ) : ℕ → ℕ → HdlcLl → Bytes → Option (HdlcLl × Bytes)
  | 0, _, ll, out => if ll.isTxBusy then none else some (ll, out)
  | fuel + 1, k, ll, out =>
    if ll.isTxBusy then
      match ll.runTx (sizes k) with
      | none => none
      | some (ll', bytes) => drain sizes fuel (k + 1) ll' (out ++ bytes)
    else some (ll, out)

def sendAll (sizes : ℕ → ℕ → ℕ) : ℕ → HdlcLl → List Bytes → Option (HdlcLl × Bytes)
  | _, ll, [] => some (ll, [])
  | i, ll, data :: rest =>
    match ll.putFrame data with
    | (_, .error _) => none
    | (ll, .ok ()) =>
      match drain (sizes i) (2 * data.length + 10) 0 ll [] with
      | none => none
      | some (ll, out) => (sendAll sizes (i + 1) ll rest).map fun (ll, out') ↦ (ll, out ++ out')

def runRxs : HdlcLl → List Bytes → HdlcLl × List (ℕ × Option TinyError)
  | ll, [] => (ll, [])
  | ll, chunk :: chunks =>
    let r := ll.runRx chunk
    ((runRxs r.1 chunks).1, r.2 :: (runRxs r.1 chunks).2)

theorem txRest_start {ll : HdlcLl} {data : Bytes} (hs : ll.txState = .start)
    (hd : ll.txData = some data) :
    ll.txRest = wireFrame ll.crcType data := by
  simp [txRest, hs, hd]

theorem wireFrame_length_le (crcType : HdlcCrcT) (data : Bytes) :
    (wireFrame crcType data).length ≤ 2 * data.length + 10 := by
  have h := hdlcStuffing.frame_length_le (frameBody crcType data)
  have hc := getCrcFieldSize_le crcType
  rw [frameBody_length] at h
  simp only [wireFrame]
  omega

theorem putFrame_eq (ll : HdlcLl) (data : Bytes) :
    ll.putFrame data =
      if data ≠ [] ∧ ll.txData ≠ none then (ll, .error .busy)
      else ((ll.putFrame data).1, .ok ()) := by
  rw [putFrame]
  by_cases hempty : data = []
  · rw [if_pos hempty, if_neg fun hboth ↦ hboth.1 hempty]
  · rw [if_neg hempty]
    by_cases hbusy : ll.txData.isSome
    · rw [if_pos hbusy, if_pos ⟨hempty, Option.isSome_iff_ne_none.mp hbusy⟩]
    · rw [if_neg hbusy, if_neg fun hboth ↦ hbusy (Option.isSome_iff_ne_none.mpr hboth.2)]

theorem putFrame_idle {ll : HdlcLl} (h : ll.TxOk) (hidle : ll.txData = none) {data : Bytes}
    (hne : data ≠ []) :
    ∃ ll', ll.putFrame data = (ll', .ok ()) ∧ ll'.TxOk ∧ ll'.txRest = wireFrame ll.crcType data ∧
      ll'.eraseTx = ll.eraseTx ∧ ll'.txData = some data ∧ ll'.txSentFrames = ll.txSentFrames := by
  have hs := h.idle hidle
  refine ⟨{ ll with txData := some data, txPos := 0 }, by simp [putFrame, hne, hidle], ?_, ?_,
    rfl, rfl, rfl⟩
  · constructor <;> simp [hne, hs]
  · exact txRest_start (by simpa using hs) rfl

theorem drain_spec {sizes : ℕ → ℕ} (hsizes : ∀ k, 1 ≤ sizes k) (fuel k : ℕ)
    {ll : HdlcLl} (h : ll.TxOk)
    (out : Bytes) (hfuel : ll.txRest.length ≤ fuel) :
    ∃ ll', drain sizes fuel k ll out = some (ll', out ++ ll.txRest) ∧ Sends ll ll' ll.txRest ∧
      ll'.txData = none := by
  have hidle : ll.isTxBusy = false ↔ ll.txRest = [] := by simp [txRest_eq_nil, isTxBusy]
  induction fuel generalizing k ll out with
  | zero =>
    have hr : ll.txRest = [] := List.length_eq_zero_iff.mp (by omega)
    exact ⟨ll, by simp [drain, hidle.mpr hr, hr], hr ▸ .refl h, txRest_eq_nil.mp hr⟩
  | succ fuel ih =>
    by_cases hr : ll.txRest = []
    · exact ⟨ll, by simp [drain, hidle.mpr hr, hr], hr ▸ .refl h, txRest_eq_nil.mp hr⟩
    · have hbusy : ll.isTxBusy = true := by simpa using mt hidle.mp hr
      obtain ⟨ll₁, hrun, hsends⟩ := runTx_spec h (sizes k)
      have hrest := hsends.txRest
      have hlen : ll₁.txRest.length ≤ fuel := by
        have hk := hsizes k
        rw [hrest, List.length_drop]
        omega
      obtain ⟨ll₂, hdrain, hsends', hend⟩ :=
        ih (k + 1) hsends.ok (out ++ ll.txRest.take (sizes k)) hlen
          (by simp [txRest_eq_nil, isTxBusy])
      have hall : ll.txRest.take (sizes k) ++ ll₁.txRest = ll.txRest := by
        rw [hrest, List.take_append_drop]
      refine ⟨ll₂, ?_, ?_, hend⟩
      · rw [drain, if_pos hbusy, hrun]
        simp only [hdrain, List.append_assoc, hall]
      · simpa only [hall] using hsends.trans hsends'

theorem putFrame_drain {sizes : ℕ → ℕ} (hsizes : ∀ k, 1 ≤ sizes k) {ll : HdlcLl} (h : ll.TxOk)
    (hidle : ll.txData = none) {data : Bytes} (hne : data ≠ []) :
    ∃ ll₁ ll₂, ll.putFrame data = (ll₁, .ok ()) ∧
      drain sizes (2 * data.length + 10) 0 ll₁ [] = some (ll₂, wireFrame ll.crcType data) ∧
      ll₂.txData = none := by
  obtain ⟨ll₁, hput, hok, hrest, -, -, -⟩ := putFrame_idle h hidle hne
  obtain ⟨ll₂, hdrain, -, hdone⟩ := drain_spec hsizes (2 * data.length + 10) 0 hok []
    (by rw [hrest]; exact wireFrame_length_le _ _)
  rw [hrest, List.nil_append] at hdrain
  exact ⟨ll₁, ll₂, hput, hdrain, hdone⟩

theorem sendAll_spec {sizes : ℕ → ℕ → ℕ} (hsizes : ∀ i k, 1 ≤ sizes i k) (i : ℕ)
    {ll : HdlcLl} (h : ll.TxOk) (hidle : ll.txData = none) (payloads : List Bytes)
    (hne : ∀ data ∈ payloads, data ≠ []) :
    ∃ ll', sendAll sizes i ll payloads = some (ll', payloads.flatMap (wireFrame ll.crcType)) ∧
      ll'.txSentFrames = ll.txSentFrames ++ payloads := by
  induction payloads generalizing i ll with
  | nil => exact ⟨ll, rfl, by simp⟩
  | cons data rest ih =>
    obtain ⟨ll₁, hput, hok, hrest, herase, hdata, hsent⟩ :=
      putFrame_idle h hidle (hne data (by simp))
    have hcrc : ll₁.crcType = ll.crcType := by
      have hc := congrArg HdlcLl.crcType herase
      exact hc
    obtain ⟨ll₂, hdrain, hsends, hend⟩ := drain_spec (hsizes i) (2 * data.length + 10) 0 hok []
      (by rw [hrest]; exact wireFrame_length_le _ _)
    have hcrc' : ll₂.crcType = ll₁.crcType := by
      have hc := congrArg HdlcLl.crcType hsends.frame_rule
      exact hc
    have hframes : ll₂.txSentFrames = ll.txSentFrames ++ [data] := by
      simpa [hend, hdata, hsent] using hsends.frames
    obtain ⟨ll₃, hall, hsent'⟩ := ih (i + 1) hsends.ok hend fun d hd ↦ hne d (by simp [hd])
    refine ⟨ll₃, ?_, ?_⟩
    · rw [sendAll, hput]
      simp only [hdrain, hall, hrest, hcrc, hcrc', Option.map_some, List.nil_append,
        List.flatMap_cons]
    · rw [hsent', hframes, List.append_assoc, List.singleton_append]

theorem receiveAll_body (crcType : HdlcCrcT) {cap : ℕ} {p : Phase UInt8} (hp : p.Aligned)
    {data : Bytes} (hfit : data ≠ [] ∧ data.length + getCrcFieldSize crcType ≤ cap) :
    hdlcStuffing.receiveAll cap p (hdlcStuffing.frame (frameBody crcType data)) =
      (.hunt, [frameBody crcType data]) := by
  have hpos : 0 < data.length := List.length_pos_iff.mpr hfit.1
  have hbody : frameBody crcType data ≠ [] := by simp [frameBody, hfit.1]
  have htake : (frameBody crcType data).take cap = frameBody crcType data :=
    List.take_of_length_le (by simpa using hfit.2)
  rw [Stuffing.receiveAll_frame _ _ hp (by omega) hbody, htake]

theorem receiveAll_frames_clipped (crcType : HdlcCrcT) {cap : ℕ} (hcap : 0 < cap)
    (payloads : List Bytes) (hne : ∀ data ∈ payloads, data ≠ []) :
    hdlcStuffing.receiveAll cap .hunt (payloads.flatMap (wireFrame crcType)) =
      (.hunt, payloads.map fun data ↦ (frameBody crcType data).take cap) := by
  have hhunt : (Phase.hunt : Phase UInt8).Aligned := trivial
  induction payloads with
  | nil => rfl
  | cons data rest ih =>
    have hbody : frameBody crcType data ≠ [] :=
      List.append_ne_nil_of_left_ne_nil (hne data (by simp)) _
    rw [List.flatMap_cons, Stuffing.receiveAll_append, wireFrame,
      Stuffing.receiveAll_frame _ _ hhunt hcap hbody]
    dsimp only
    rw [ih fun d hd ↦ hne d (by simp [hd])]
    rfl

theorem receiveAll_frames_hunt (crcType : HdlcCrcT) {cap : ℕ} (payloads : List Bytes)
    (hfit : ∀ data ∈ payloads, data ≠ [] ∧ data.length + getCrcFieldSize crcType ≤ cap) :
    hdlcStuffing.receiveAll cap .hunt (payloads.flatMap (wireFrame crcType)) =
      (.hunt, payloads.map (frameBody crcType)) := by
  cases payloads with
  | nil => rfl
  | cons first rest =>
    have hcap : 0 < cap := by
      obtain ⟨hne, hlen⟩ := hfit first (by simp)
      have hpos := List.length_pos_iff.mpr hne
      omega
    rw [receiveAll_frames_clipped crcType hcap _ fun data hd ↦ (hfit data hd).1]
    congr 1
    apply List.map_congr_left
    intro data hd
    exact List.take_of_length_le (by simpa using (hfit data hd).2)

theorem receiveAll_frames (crcType : HdlcCrcT) {cap : ℕ} {p : Phase UInt8} (hp : p.Aligned)
    (payloads : List Bytes)
    (hfit : ∀ data ∈ payloads, data ≠ [] ∧ data.length + getCrcFieldSize crcType ≤ cap) :
    (hdlcStuffing.receiveAll cap p (payloads.flatMap (wireFrame crcType))).2 =
      payloads.map (frameBody crcType) := by
  cases payloads with
  | nil => rfl
  | cons data rest =>
    rw [List.flatMap_cons, Stuffing.receiveAll_append, wireFrame,
      receiveAll_body crcType hp (hfit data (by simp))]
    dsimp only
    rw [receiveAll_frames_hunt crcType rest fun d hd ↦ hfit d (by simp [hd])]
    rfl

theorem goodFrames_bodies (crcType : HdlcCrcT) (payloads : List Bytes) :
    goodFrames crcType (payloads.map (frameBody crcType)) = payloads := by
  induction payloads with
  | nil => rfl
  | cons data rest ih =>
    simp only [goodFrames] at ih
    simp [goodFrames, checkBody_frameBody, Except.toOption]

theorem goodFrames_clipped (crcType : HdlcCrcT) {cap : ℕ} {payloads : List Bytes}
    (h : goodFrames crcType (payloads.map fun data ↦ (frameBody crcType data).take cap) =
      payloads) :
    ∀ data ∈ payloads, data.length + getCrcFieldSize crcType ≤ cap := by
  induction payloads with
  | nil => exact fun data hd ↦ absurd hd List.not_mem_nil
  | cons data rest ih =>
    rw [goodFrames, List.map_cons, List.filterMap_cons] at h
    cases hc : checkBody crcType ((frameBody crcType data).take cap) with
    | error e =>
      rw [hc] at h
      have hlen := congrArg List.length h
      have hle := List.length_filterMap_le (fun body ↦ (checkBody crcType body).toOption)
        (rest.map fun data ↦ (frameBody crcType data).take cap)
      simp only [Except.toOption] at hlen
      rw [List.length_map] at hle
      rw [List.length_cons] at hlen
      exact absurd (hlen ▸ hle) (Nat.not_succ_le_self _)
    | ok frame =>
      rw [hc] at h
      injection h with hframe hrest
      intro d hd
      rcases List.mem_cons.mp hd with rfl | hd
      · have hwhole := congrArg List.length (checkBody_eq_ok.mp hc)
        rw [hframe, List.length_take, frameBody_length] at hwhole
        omega
      · exact ih hrest d hd

theorem firstError_bodies (crcType : HdlcCrcT) (payloads : List Bytes) :
    firstError crcType (payloads.map (frameBody crcType)) = none := by
  simp [firstError, checkBody_frameBody]

theorem badBodies_bodies (crcType : HdlcCrcT) (payloads : List Bytes) :
    badBodies crcType (payloads.map (frameBody crcType)) = [] := by
  simp [badBodies, checkBody_frameBody]

/-- Where every complete body passes its check, the cut into chunks does not
matter: each call takes its chunk without an error. -/
theorem runRxs_clean {ll : HdlcLl} (h : ll.RxOk) (chunks : List Bytes)
    (hgood : firstError ll.crcType (hdlcStuffing.receiveAll ll.physMtu ll.phase chunks.flatten).2 =
      none) :
    ll.runRxs chunks = (ll.feed chunks.flatten, chunks.map fun chunk ↦ (chunk.length, none)) := by
  induction chunks generalizing ll with
  | nil => rfl
  | cons chunk chunks ih =>
    rw [List.flatten_cons, Stuffing.receiveAll_append, firstError, List.findSome?_append,
      Option.or_eq_none_iff] at hgood
    have hr : ll.runRx chunk = (ll.feed chunk, chunk.length, none) := by
      simpa [runRx] using runRxLoop_clean h 0 chunk hgood.1
    have hf := feed_spec h chunk
    have hrest := ih hf.ok (by
      rw [eraseRx_crcType hf.frame_rule, eraseRx_physMtu hf.frame_rule, hf.phase]
      exact hgood.2)
    simp only [runRxs, hr, hrest, List.flatten_cons, feed_append, List.map_cons]

theorem new_ok {init : HdlcLlInit} {ll : HdlcLl} (h : HdlcLl.new init = .ok ll) :
    ll.TxOk ∧ ll.RxOk ∧ ll.phase = .hunt ∧ ll.txData = none ∧ ll.txSentFrames = [] ∧
    ll.rxFrames = [] ∧
      ll.crcType = init.crcType := by
  simp only [HdlcLl.new] at h
  split at h
  · cases h
  injection h with h
  subst h
  exact ⟨by constructor <;> simp, by constructor <;> simp, rfl, rfl, rfl, rfl, rfl⟩

theorem new_physMtu {init : HdlcLlInit} {ll : HdlcLl} (h : HdlcLl.new init = .ok ll)
    (hmtu : 0 < init.mtu) : ll.physMtu = init.mtu + getCrcFieldSize init.crcType := by
  simp only [HdlcLl.new] at h
  split at h
  · cases h
  injection h with h
  rw [← h]

/-- Framing survives any suspension on either side: whatever buffer sizes drain
the sender and however the bytes are cut for the receiver, no call panics or
reports an error and every payload arrives once, in order. -/
theorem streaming_round_trip {itx irx : HdlcLlInit} {tx rx : HdlcLl} (htx : HdlcLl.new itx = .ok tx)
    (hrx : HdlcLl.new irx = .ok rx) (hcrc : itx.crcType = irx.crcType) (payloads : List Bytes)
    (hfit : ∀ data ∈ payloads, data ≠ [] ∧ data.length + getCrcFieldSize rx.crcType ≤ rx.physMtu)
    (sizes : ℕ → ℕ → ℕ) (hsizes : ∀ i k, 1 ≤ sizes i k) :
    ∃ tx' out, tx.sendAll sizes 0 payloads = some (tx', out) ∧ Yields getTxSentFrame tx' payloads ∧
      ∀ chunks : List Bytes, chunks.flatten = out →
        (rx.runRxs chunks).2 = chunks.map (fun chunk ↦ (chunk.length, none)) ∧
        Yields getRxFrame (rx.runRxs chunks).1 payloads := by
  obtain ⟨htxOk, -, -, hidle, hsent, -, hctx⟩ := new_ok htx
  obtain ⟨-, hrxOk, hphase, -, -, hframes, hcrx⟩ := new_ok hrx
  have hc : tx.crcType = rx.crcType := by rw [hctx, hcrx, hcrc]
  obtain ⟨tx', hsend, hsent'⟩ := sendAll_spec hsizes 0 htxOk hidle payloads fun d hd ↦ (hfit d hd).1
  refine ⟨tx', _, hsend, ?_, fun chunks hchunks ↦ ?_⟩
  · have hy := yields_txSentFrames tx'
    rwa [hsent', hsent, List.nil_append] at hy
  · have hbodies :=
      receiveAll_frames rx.crcType (p := rx.phase) (by rw [hphase]; trivial) payloads hfit
    rw [← hc, ← hchunks] at hbodies
    rw [hc] at hbodies
    have hclean := runRxs_clean hrxOk chunks (by rw [hbodies]; exact firstError_bodies _ _)
    have hfeed := feed_spec hrxOk chunks.flatten
    have hy := yields_rxFrames (rx.feed chunks.flatten)
    rw [hfeed.frames, hframes, hbodies, goodFrames_bodies, List.nil_append] at hy
    rw [hclean]
    exact ⟨rfl, hy⟩

theorem streaming_round_trip_special :
    ∃ tx rx : HdlcLl, HdlcLl.new ⟨.hdlcCrc16, 2, 64⟩ = .ok tx ∧
    HdlcLl.new ⟨.hdlcCrc16, 0, 8⟩ = .ok rx ∧
      ∃ tx' out, tx.sendAll (fun _ _ ↦ 1) 0 [[0x7E, 0x7D], [0]] = some (tx', out) ∧
        Yields getTxSentFrame tx' [[0x7E, 0x7D], [0]] ∧
        ∀ chunks : List Bytes, chunks.flatten = out →
          (rx.runRxs chunks).2 = chunks.map (fun chunk ↦ (chunk.length, none)) ∧
          Yields getRxFrame (rx.runRxs chunks).1 [[0x7E, 0x7D], [0]] := by
  refine ⟨_, _, rfl, rfl, ?_⟩
  have htx : HdlcLl.new ⟨.hdlcCrc16, 2, 64⟩ = .ok _ := rfl
  have hrx : HdlcLl.new ⟨.hdlcCrc16, 0, 8⟩ = .ok _ := rfl
  exact streaming_round_trip htx hrx rfl [[0x7E, 0x7D], [0]] (by decide) (fun _ _ ↦ 1)
    fun _ _ ↦ le_rfl

end HdlcLl

end TinyProto
