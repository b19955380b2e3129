import TinyProto.Hdlc.RoundTrip
import TinyProto.Lib.Unstuff

namespace TinyProto

open Lib

namespace HdlcLl

inductive Op
  | putFrame (data : Bytes)
  | runTx (room : ℕ)
  | getTxSentFrame
  | runRx (data : Bytes)
  | getRxFrame
  | reset (flags : ResetFlags)

def step (ll : HdlcLl) : Op → Option HdlcLl
  | .putFrame data => some (ll.putFrame data).1
  | .runTx room => (ll.runTx room).map Prod.fst
  | .getTxSentFrame => some ll.getTxSentFrame.1
  | .runRx data => some (ll.runRx data).1
  | .getRxFrame => some ll.getRxFrame.1
  | .reset flags => some (ll.reset flags)

inductive Reachable : HdlcLl → Prop
  | new {init : HdlcLlInit} {ll : HdlcLl} : HdlcLl.new init = .ok ll → Reachable ll
  | step {ll ll' : HdlcLl} {op : Op} : Reachable ll → ll.step op = some ll' → Reachable ll'

/-- `run_rx` on the input, and again on what it leaves over, until nothing is
left, with the errors on the way; `none` when `fuel` calls do not suffice. -/
def refeed : ℕ → HdlcLl → Bytes → Option (HdlcLl × List TinyError)
  | _, ll, [] => some (ll, [])
  | 0, _, _ :: _ => none
  | fuel + 1, ll, byte :: data =>
    let (ll, consumed, error) := ll.runRx (byte :: data)
    (refeed fuel ll ((byte :: data).drop consumed)).map fun (ll, errors) ↦
      (ll, error.toList ++ errors)

/-- Each piece of the input in turn. -/
def refeeds : HdlcLl → List Bytes → Option (HdlcLl × List TinyError)
  | ll, [] => some (ll, [])
  | ll, piece :: pieces =>
    (refeed piece.length ll piece).bind fun (ll, errors) ↦
      (refeeds ll pieces).map fun (ll, errors') ↦ (ll, errors ++ errors')

theorem mem_badBodies {crcType : HdlcCrcT} {bodies : List Bytes} {e : TinyError}
    (h : e ∈ badBodies crcType bodies) : e = .wrongCrc := by
  obtain ⟨body, -, he⟩ := List.mem_filterMap.mp h
  cases hc : checkBody crcType body with
  | ok frame =>
    rw [hc] at he
    cases he
  | error e' =>
    rw [hc] at he
    injection he with he
    rw [← he]
    exact checkBody_error hc

section Reachable

variable {ll ll' : HdlcLl}

theorem rxOk_reset (h : ll.RxOk) (flags : ResetFlags) : (ll.reset flags).RxOk := by
  cases flags with
  | txOnly => exact @rxOk_of_eraseTx ll _ rfl h
  | both | rxOnly => exact ⟨RxState.noConfusion, RxState.noConfusion, RxState.noConfusion⟩

theorem txOk_reset (h : ll.TxOk) (flags : ResetFlags) : (ll.reset flags).TxOk := by
  cases flags with
  | rxOnly => exact @txOk_of_eraseRx ll _ rfl h
  | both | txOnly => constructor <;> simp [reset]

theorem txOk_putFrame (h : ll.TxOk) (data : Bytes) : (ll.putFrame data).1.TxOk := by
  rw [putFrame]
  by_cases hne : data = []
  · rwa [if_pos hne]
  · rw [if_neg hne]
    by_cases hbusy : ll.txData.isSome
    · rwa [if_pos hbusy]
    · obtain ⟨ll', hput, hok, -⟩ := putFrame_idle h (Option.not_isSome_iff_eq_none.mp hbusy) hne
      rw [putFrame, if_neg hne] at hput
      rwa [hput]

structure Settled (ll : HdlcLl) : Prop where
  tx : ll.TxOk
  rx : ll.RxOk
  physMtu : 0 < ll.physMtu

theorem settled_new {init : HdlcLlInit} (h : HdlcLl.new init = .ok ll) : ll.Settled := by
  obtain ⟨htx, hrx, -⟩ := new_ok h
  refine ⟨htx, hrx, ?_⟩
  rw [HdlcLl.new] at h
  split at h
  · cases h
  · injection h with h
    rw [← h]
    dsimp only
    split <;> omega

theorem Settled.step (h : ll.Settled) {op : Op} (hs : ll.step op = some ll') : ll'.Settled := by
  cases op with
  | putFrame data =>
    rw [← Option.some.inj hs]
    have hrx : (ll.putFrame data).1.RxOk ∧ (ll.putFrame data).1.physMtu = ll.physMtu := by
      rw [putFrame]
      split_ifs
      · exact ⟨h.rx, rfl⟩
      · exact ⟨h.rx, rfl⟩
      · exact ⟨@rxOk_of_eraseTx ll _ rfl h.rx, rfl⟩
    exact ⟨txOk_putFrame h.tx data, hrx.1, by rw [hrx.2]; exact h.physMtu⟩
  | runTx room =>
    obtain ⟨ll₁, hrun, hsends⟩ := runTx_spec h.tx room
    rw [HdlcLl.step, hrun] at hs
    rw [← Option.some.inj hs]
    exact ⟨hsends.ok,
      rxOk_of_eraseTx hsends.frame_rule
        h.rx, by rw [physMtu_of_eraseTx hsends.frame_rule]; exact h.physMtu⟩
  | getTxSentFrame =>
    rw [← Option.some.inj hs, getTxSentFrame]
    split
    · exact h
    · exact ⟨h.tx.withTxSentFrames _, @rxOk_of_eraseTx ll _ rfl h.rx, h.physMtu⟩
  | runRx data =>
    obtain ⟨k, e, hrun, -⟩ := runRx_feed h.rx data
    rw [← Option.some.inj hs, hrun]
    have hspec := feed_spec h.rx (data.take k)
    refine ⟨?_, hspec.ok, by rw [eraseRx_physMtu hspec.frame_rule]; exact h.physMtu⟩
    exact txOk_of_eraseRx hspec.frame_rule h.tx
  | getRxFrame =>
    rw [← Option.some.inj hs, getRxFrame]
    split
    · exact h
    · exact ⟨@txOk_of_eraseRx ll _ rfl h.tx, h.rx.withRxFrames _, h.physMtu⟩
  | reset flags =>
    rw [← Option.some.inj hs]
    refine ⟨txOk_reset h.tx flags, rxOk_reset h.rx flags, ?_⟩
    rw [show (ll.reset flags).physMtu = ll.physMtu by cases flags <;> rfl]
    exact h.physMtu

theorem Reachable.settled (h : ll.Reachable) : ll.Settled := by
  induction h with
  | new hnew => exact settled_new hnew
  | step _ hs ih => exact ih.step hs

end Reachable

/-- A hunting receiver takes any bytes between two flags and answers with what
their body is worth. -/
theorem runRx_framed {ll : HdlcLl} (h : ll.RxOk) (hphase : ll.phase = .hunt) {bs : Bytes}
    (hflag : flagSequence ∉ bs) (hne : hdlcStuffing.unstuff false bs ≠ [])
    (hfit : (hdlcStuffing.unstuff false bs).length ≤ ll.physMtu) :
    ∃ ll' e, ll.runRx (flagSequence :: bs ++ [flagSequence]) = (ll', bs.length + 2, e) ∧
      e.toList = badBodies ll.crcType [hdlcStuffing.unstuff false bs] ∧
      ll'.rxFrames = ll.rxFrames ++ goodFrames ll.crcType [hdlcStuffing.unstuff false bs] := by
  have hquiet : (hdlcStuffing.receiveAll ll.physMtu ll.phase (flagSequence :: bs)).2 = [] := by
    rw [hphase]
    exact congrArg Prod.snd (hdlcStuffing.receiveAll_opened hflag hfit)
  have hbodies :
      (hdlcStuffing.receiveAll ll.physMtu ll.phase (flagSequence :: bs ++ [flagSequence])).2 =
        [hdlcStuffing.unstuff false bs] := by
    rw [hphase]
    exact congrArg Prod.snd (hdlcStuffing.receiveAll_framed hflag hne hfit)
  obtain ⟨e, hrun, herr⟩ := runRx_last h (flagSequence :: bs) flagSequence hquiet
  have hframes := (feed_spec h (flagSequence :: bs ++ [flagSequence])).frames
  rw [hbodies] at herr hframes
  rw [List.length_append, List.length_cons, List.length_singleton] at hrun
  exact ⟨_, e, hrun, herr, hframes⟩

theorem runRx_frame {ll : HdlcLl} (h : ll.RxOk) (hp : ll.phase.Aligned) {body : Bytes}
    (hne : body ≠ []) (hfit : body.length ≤ ll.physMtu) :
    ∃ ll' e, ll.runRx (hdlcStuffing.frame body) = (ll', (hdlcStuffing.frame body).length, e) ∧
      e.toList = badBodies ll.crcType [body] ∧
      ll'.rxFrames = ll.rxFrames ++ goodFrames ll.crcType [body] := by
  have hcap : 0 < ll.physMtu := (List.length_pos_iff.mpr hne).trans_le hfit
  have hquiet :
      (hdlcStuffing.receiveAll ll.physMtu ll.phase (flagSequence :: hdlcStuffing.stuff body)).2 =
        [] := by
    have hopen := hdlcStuffing.receive_flag_aligned ll.physMtu hp
    have hflag : hdlcStuffing.flag = flagSequence := rfl
    rw [hflag] at hopen
    rw [Stuffing.receiveAll_cons, hopen, Stuffing.receiveAll_stuff]
    rfl
  have hbytes : hdlcStuffing.frame body = flagSequence :: hdlcStuffing.stuff body ++
      [flagSequence] := rfl
  obtain ⟨e, hrun, herr⟩ := runRx_last h _ flagSequence hquiet
  have hframes := (feed_spec h (hdlcStuffing.frame body)).frames
  rw [← hbytes] at hrun herr
  rw [hdlcStuffing.receiveAll_frame _ hp hcap hne, List.take_of_length_le hfit] at herr hframes
  exact ⟨_, e, hrun, herr, hframes⟩

section Refeed

variable {ll : HdlcLl}

theorem refeed_spec (fuel : ℕ) (h : ll.RxOk) (data : Bytes) (hfuel : data.length ≤ fuel) :
    refeed fuel ll data =
      some (ll.feed data,
        badBodies ll.crcType (hdlcStuffing.receiveAll ll.physMtu ll.phase data).2) := by
  induction fuel generalizing ll data with
  | zero =>
    rw [List.length_eq_zero_iff.mp (Nat.le_zero.mp hfuel)]
    rfl
  | succ fuel ih =>
    cases data with
    | nil => rfl
    | cons byte data =>
      obtain ⟨k, e, hrun, -, hpos, -, herr⟩ := runRx_feed h (byte :: data)
      have hk := hpos (List.cons_ne_nil byte data)
      have hspec := feed_spec h ((byte :: data).take k)
      have hrest := ih hspec.ok ((byte :: data).drop k) (by rw [List.length_drop]; omega)
      rw [eraseRx_crcType hspec.frame_rule, eraseRx_physMtu hspec.frame_rule, hspec.phase,
        ← feed_append, List.take_append_drop] at hrest
      rw [refeed, hrun]
      dsimp only
      rw [hrest, Option.map_some, herr, ← badBodies_append]
      conv_rhs => rw [← List.take_append_drop k (byte :: data), Stuffing.receiveAll_append]
      rw [List.take_append_drop]

theorem refeeds_spec (h : ll.RxOk) (pieces : List Bytes) :
    ll.refeeds pieces = some (ll.feed pieces.flatten,
      badBodies ll.crcType (hdlcStuffing.receiveAll ll.physMtu ll.phase pieces.flatten).2) := by
  induction pieces generalizing ll with
  | nil => rfl
  | cons piece pieces ih =>
    have hspec := feed_spec h piece
    have hrest := ih hspec.ok
    rw [eraseRx_crcType hspec.frame_rule, eraseRx_physMtu hspec.frame_rule, hspec.phase,
      ← feed_append] at hrest
    rw [refeeds, refeed_spec _ h piece le_rfl, Option.bind_some]
    dsimp only
    rw [hrest, Option.map_some, ← badBodies_append, List.flatten_cons, Stuffing.receiveAll_append]

theorem phase_aligned (h : ll.RxOk) : ll.phase.Aligned ↔ ll.rxState = .start ∨ ll.rxBuf = [] := by
  rw [phase]
  cases hs : ll.rxState with
  | start => exact iff_of_true trivial (.inl rfl)
  | data => exact ⟨.inr, fun ho ↦ ho.resolve_left RxState.noConfusion⟩
  | end_ => exact absurd hs h.settled

/-- Whatever has disturbed the receiver, of the frames that follow without a gap
it loses at most the first one. -/
theorem resynchronises (h : ll.Reachable) {data : Bytes} {rest : List Bytes}
    (hfit : ∀ p ∈ data :: rest, p ≠ [] ∧ p.length + getCrcFieldSize ll.crcType ≤ ll.physMtu) :
    let stream := (data :: rest).flatMap (wireFrame ll.crcType)
    ∃ ll' errors first, refeed stream.length ll stream = some (ll', errors) ∧
      ll'.rxFrames = ll.rxFrames ++ first ++ rest ∧
      (ll.rxState = .start ∨ ll.rxBuf = [] → first = [data]) ∧
      (¬ (ll.rxState = .start ∨ ll.rxBuf = []) →
        first.length ≤ 1 ∧ (ll.runRx [flagSequence]).1.rxFrames = ll.rxFrames ++ first) := by
  intro stream
  have hrx := h.settled.rx
  have hframes := (feed_spec hrx stream).frames
  by_cases hp : ll.phase.Aligned
  · refine ⟨_, _, [data], refeed_spec _ hrx stream le_rfl, ?_, fun _ ↦ rfl,
      fun hno ↦ absurd ((phase_aligned hrx).mp hp) hno⟩
    rw [hframes, receiveAll_frames ll.crcType hp (data :: rest) hfit, goodFrames_bodies,
      List.append_assoc]
    rfl
  · obtain ⟨pending, old, hphase, hold⟩ : ∃ pending old, ll.phase = .collect pending old ∧
        old ≠ [] := by
      cases hphase : ll.phase with
      | hunt =>
        rw [hphase] at hp
        exact absurd trivial hp
      | collect pending old =>
        rw [hphase] at hp
        exact ⟨pending, old, rfl, hp⟩
    refine ⟨_, _, goodFrames ll.crcType [old], refeed_spec _ hrx stream le_rfl, ?_,
      fun hno ↦ absurd ((phase_aligned hrx).mpr hno) hp, fun _ ↦ ⟨List.length_filterMap_le .., ?_⟩⟩
    · have haligned : (Phase.collect false [] : Phase UInt8).Aligned := rfl
      have hrest := receiveAll_frames ll.crcType haligned rest fun p hmem ↦
        hfit p (List.mem_cons_of_mem data hmem)
      have hstream : stream = hdlcStuffing.frame (frameBody ll.crcType data) ++
          rest.flatMap (wireFrame ll.crcType) :=
        List.flatMap_cons
      rw [hframes, hphase, hstream, Stuffing.receiveAll_append,
        hdlcStuffing.receiveAll_frame_misaligned _ pending hold]
      dsimp only
      rw [hrest, goodFrames_append, goodFrames_bodies, List.append_assoc]
    · obtain ⟨k, e, hrun, hle, hpos, -⟩ := runRx_feed hrx [flagSequence]
      have hk := hpos (List.cons_ne_nil _ _)
      have hone : ([flagSequence] : Bytes).take k = [flagSequence] := List.take_of_length_le hk
      rw [hrun, hone, (feed_spec hrx [flagSequence]).frames, hphase]
      have hflag : hdlcStuffing.receiveAll ll.physMtu (.collect pending old) [flagSequence] =
          (.hunt, [old]) := by
        have hf : flagSequence = hdlcStuffing.flag := rfl
        rw [Stuffing.receiveAll_cons, Stuffing.receive, if_pos hf, if_neg hold, if_neg hold]
        rfl
      rw [hflag]

theorem resynchronises_noise :
    let stream := [[3], [0x7E], [4, 5]].flatMap (wireFrame .hdlcCrc16)
    ∃ ll ll' : HdlcLl, ∃ errors first,
    (HdlcLl.new ⟨.hdlcCrc16, 0, 8⟩).map (fun ll ↦ (ll.runRx [9, 0x7E, 1, 2, 0x7D]).1) = .ok ll ∧
      ll.rxState = .data ∧ refeed stream.length ll stream = some (ll', errors) ∧
      ll'.rxFrames = first ++ [[0x7E], [4, 5]] ∧ first.length ≤ 1 := by
  intro stream
  have hnew : HdlcLl.new ⟨.hdlcCrc16, 0, 8⟩ = .ok _ := rfl
  have hreach :=
    Reachable.step (.new hnew) (show step _ (.runRx [9, 0x7E, 1, 2, 0x7D]) = some _ from rfl)
  have hfit : ∀ p ∈ ([[3], [0x7E], [4, 5]] : List Bytes), p ≠ [] ∧
      p.length + getCrcFieldSize .hdlcCrc16 ≤ 8 := by decide
  obtain ⟨ll', errors, first, hfeed, hframes, -, hfirst⟩ := resynchronises hreach hfit
  exact ⟨_, ll', errors, first, rfl, rfl, hfeed, hframes, (hfirst (by decide)).1⟩

end Refeed

end HdlcLl

end TinyProto
