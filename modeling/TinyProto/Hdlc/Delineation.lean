import TinyProto.Hdlc.Stream

namespace TinyProto

open Lib

namespace HdlcLl

/-- Each payload with its CRC between two flags, neighbours sharing one. -/
def singleFlags (crcType : HdlcCrcT) (payloads : List Bytes) : Bytes :=
  flagSequence :: hdlcStuffing.closed (payloads.map (frameBody crcType))

variable {init : HdlcLlInit} {ll : HdlcLl}

theorem singleFlags_frames (hnew : HdlcLl.new init = .ok ll) {payloads : List Bytes}
    (hfit : ∀ p ∈ payloads, p ≠ [] ∧ p.length + getCrcFieldSize ll.crcType ≤ ll.physMtu) :
    (ll.feed (singleFlags ll.crcType payloads)).rxFrames = everySecond payloads := by
  obtain ⟨-, hrx, hphase, -, -, hframes, -⟩ := new_ok hnew
  have hcap := (settled_new hnew).physMtu
  have hne : ∀ body ∈ payloads.map (frameBody ll.crcType), body ≠ [] := by
    intro body hbody
    obtain ⟨p, hp, rfl⟩ := List.mem_map.mp hbody
    exact List.append_ne_nil_of_left_ne_nil (hfit p hp).1 _
  have hopen : hdlcStuffing.receive ll.physMtu .hunt flagSequence = (.collect false [], []) := rfl
  have htake : (everySecond (payloads.map (frameBody ll.crcType))).map (List.take ll.physMtu) =
      (everySecond payloads).map (frameBody ll.crcType) := by
    rw [everySecond_map, List.map_map]
    apply List.map_congr_left
    intro p hp
    apply List.take_of_length_le
    rw [frameBody_length]
    exact (hfit p (mem_everySecond hp)).2
  rw [(feed_spec hrx _).frames, hframes, hphase, singleFlags, Stuffing.receiveAll_cons, hopen]
  dsimp only
  rw [hdlcStuffing.receiveAll_closed hcap hne, List.nil_append, List.nil_append, htake,
    goodFrames_bodies]

/-- Frames that share their flags arrive whole only when there is just one. -/
theorem single_flags_iff (hnew : HdlcLl.new init = .ok ll) {payloads : List Bytes}
    (hfit : ∀ p ∈ payloads, p ≠ [] ∧ p.length + getCrcFieldSize ll.crcType ≤ ll.physMtu) :
    let stream := singleFlags ll.crcType payloads
    ∃ ll' errors, refeed stream.length ll stream = some (ll', errors) ∧
      (ll'.rxFrames = payloads ↔ payloads.length ≤ 1) := by
  intro stream
  refine ⟨_, _, refeed_spec _ (settled_new hnew).rx stream le_rfl, ?_⟩
  rw [singleFlags_frames hnew hfit]
  exact everySecond_eq

theorem single_flags_iff_one :
    let stream := singleFlags .hdlcCrc16 [[1, 2, 0x7E]]
    ∃ ll ll' : HdlcLl, ∃ errors, HdlcLl.new ⟨.hdlcCrc16, 0, 64⟩ = .ok ll ∧
      refeed stream.length ll stream = some (ll', errors) ∧ ll'.rxFrames = [[1, 2, 0x7E]] := by
  have hnew : HdlcLl.new ⟨.hdlcCrc16, 0, 64⟩ = .ok _ := rfl
  have hfit : ∀ p ∈ ([[1, 2, 0x7E]] : List Bytes), p ≠ [] ∧ p.length + getCrcFieldSize .hdlcCrc16 ≤
      64 := by decide
  obtain ⟨ll', errors, hfeed, hiff⟩ := single_flags_iff hnew hfit
  exact ⟨_, ll', errors, hnew, hfeed, hiff.mpr le_rfl⟩

/-- Of two payloads with one flag between them the second one gets lost. -/
theorem single_flag_not_shared :
    ∃ ll ll' : HdlcLl, ∃ errors, HdlcLl.new ⟨.hdlcCrcOff, 0, 64⟩ = .ok ll ∧
      singleFlags .hdlcCrcOff [[1], [2]] = [0x7E, 1, 0x7E, 2, 0x7E] ∧
      refeed 5 ll [0x7E, 1, 0x7E, 2, 0x7E] = some (ll', errors) ∧ ll'.rxFrames = [[1]] ∧
      errors = [] :=
  ⟨_, _, _, rfl, rfl, rfl, rfl, rfl⟩

/-- What a receiver that has taken `stream` owes: every frame that it has handed
over is the whole of what stands between two flags, and a body that is too long for
it gives no frame and is reported. -/
structure NothingTruncated (ll ll' : HdlcLl) (stream : Bytes) (errors : List TinyError) : Prop where
  complete : ∀ frame ∈ ll'.rxFrames, hdlcStuffing.Between stream (frameBody ll.crcType frame)
  refused : ll'.rxFrames.Sublist
    (goodFrames ll.crcType
      ((hdlcStuffing.bodies stream).filter fun body ↦ body.length ≤ ll.physMtu))
  reported : errors.count .dataTooLarge = (hdlcStuffing.bodies stream).countP fun body ↦
    ll.physMtu < body.length

/-- No frame is truncated as long as every body of the stream fits, and a body
that does not fit is never reported as such. -/
theorem nothing_truncated_iff (hnew : HdlcLl.new init = .ok ll) (pieces : List Bytes) :
    ∃ ll' errors, ll.refeeds pieces = some (ll', errors) ∧
      (NothingTruncated ll ll' pieces.flatten errors ↔
        ∀ body ∈ hdlcStuffing.bodies pieces.flatten, body.length ≤ ll.physMtu) := by
  obtain ⟨-, hrx, hphase, -, -, hframes, -⟩ := new_ok hnew
  have hcap := (settled_new hnew).physMtu
  refine ⟨_, _, refeeds_spec hrx pieces, ?_⟩
  generalize pieces.flatten = stream
  have hbodies := hdlcStuffing.receiveAll_bodies hcap stream
  have hnone : (badBodies ll.crcType (hdlcStuffing.receiveAll ll.physMtu ll.phase stream).2).count
      .dataTooLarge = 0 := by
    rw [List.count_eq_zero]
    intro hmem
    cases mem_badBodies hmem
  constructor
  · intro h
    have hcount := h.reported
    rw [hnone, eq_comm, List.countP_eq_zero] at hcount
    intro body hbody
    have hle := hcount body hbody
    rw [decide_eq_true_eq] at hle
    exact Nat.le_of_not_lt hle
  · intro hfit
    have hclip : (hdlcStuffing.receiveAll ll.physMtu ll.phase stream).2 =
        hdlcStuffing.bodies stream := by
      rw [hphase, hbodies]
      conv_rhs => rw [← List.map_id (hdlcStuffing.bodies stream)]
      exact List.map_congr_left fun body hbody ↦ List.take_of_length_le (hfit body hbody)
    have hgood := (feed_spec hrx stream).frames
    rw [hframes, List.nil_append, hclip] at hgood
    refine ⟨?_, ?_, ?_⟩
    · intro frame hframe
      rw [hgood] at hframe
      obtain ⟨body, hbody, hcheck⟩ := List.mem_filterMap.mp hframe
      cases hc : checkBody ll.crcType body with
      | error e =>
        rw [hc] at hcheck
        cases hcheck
      | ok data =>
        rw [hc] at hcheck
        injection hcheck with hcheck
        rw [← hcheck, ← checkBody_eq_ok.mp hc]
        exact (hdlcStuffing.mem_bodies hbody).2
    · have hall : (hdlcStuffing.bodies stream).filter (fun body ↦ body.length ≤ ll.physMtu) =
          hdlcStuffing.bodies stream :=
        List.filter_eq_self.mpr fun body hbody ↦ decide_eq_true (hfit body hbody)
      rw [hall, hgood]
    · rw [hnone, eq_comm, List.countP_eq_zero]
      intro body hbody
      rw [decide_eq_true_eq]
      exact Nat.not_lt_of_le (hfit body hbody)

theorem nothing_truncated_iff_fits :
    ∃ ll ll' : HdlcLl, ∃ errors, HdlcLl.new ⟨.hdlcCrcOff, 0, 2⟩ = .ok ll ∧
      ll.refeeds [[0x7E, 1], [2, 0x7E, 5, 0x7E, 0x7D], [0x5E, 3, 0x7E]] = some (ll', errors) ∧
      NothingTruncated ll ll' [0x7E, 1, 2, 0x7E, 5, 0x7E, 0x7D, 0x5E, 3, 0x7E] errors := by
  have hnew : HdlcLl.new ⟨.hdlcCrcOff, 0, 2⟩ = .ok _ := rfl
  obtain ⟨ll', errors, hfeed, hiff⟩ :=
    nothing_truncated_iff hnew [[0x7E, 1], [2, 0x7E, 5, 0x7E, 0x7D], [0x5E, 3, 0x7E]]
  exact ⟨_, ll', errors, hnew, hfeed, hiff.mpr (by decide)⟩

/-- Without a CRC, a body of two bytes is handed over as its first byte where only
one fits. -/
theorem body_truncated :
    ∃ ll ll' : HdlcLl, ∃ errors, HdlcLl.new ⟨.hdlcCrcOff, 0, 1⟩ = .ok ll ∧
      ll.refeeds [[0x7E, 1, 2, 0x7E]] = some (ll', errors) ∧ ll'.rxFrames = [[1]] ∧ errors = [] ∧
      hdlcStuffing.bodies [0x7E, 1, 2, 0x7E] = [[1, 2]] ∧
      ¬ NothingTruncated ll ll' [0x7E, 1, 2, 0x7E] errors := by
  refine ⟨_, _, _, rfl, rfl, rfl, rfl, by decide, fun h ↦ ?_⟩
  exact absurd h.reported (by decide)

end HdlcLl

end TinyProto
