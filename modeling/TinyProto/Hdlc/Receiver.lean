import TinyProto.Hdlc.Body

namespace TinyProto

open Lib

namespace HdlcLl

/-- The state of the receiver between two bytes, as the framing library sees it. -/
def phase (ll : HdlcLl) : Phase UInt8 :=
  match ll.rxState with
  | .data => .collect ll.rxEscape ll.rxBuf
  | _ => .hunt

/-- What every call leaves behind: the `End` phase is never suspended, and the
write position agrees with the buffer. -/
structure RxOk (ll : HdlcLl) : Prop where
  settled : ll.rxState ≠ .end_
  ptr : ll.rxState = .data → ll.rxPtr = ll.rxBuf.length
  fits : ll.rxState = .data → ll.rxBuf.length ≤ ll.physMtu

/-- One byte, together with the `End` phase that follows it in the same call. -/
def rxStep (ll : HdlcLl) (byte : UInt8) : HdlcLl × Option TinyError :=
  let ll' := match ll.rxState with
    | .start => ll.rxStart byte
    | _ => ll.rxData byte
  if ll'.rxState = .end_ then ll'.rxEnd else (ll', none)

/-- The state with its receiver fields erased, for frame conditions. -/
def eraseRx (ll : HdlcLl) : HdlcLl :=
  { ll with rxBuf := [], rxState := .start, rxPtr := 0, rxEscape := false, rxFrames := [] }

def withRxFrames (ll : HdlcLl) (frames : List Bytes) : HdlcLl := { ll with rxFrames := frames }

theorem RxOk.withRxFrames {ll : HdlcLl} (h : ll.RxOk) (frames : List Bytes) :
    (ll.withRxFrames frames).RxOk :=
  ⟨h.settled, h.ptr, h.fits⟩

def goodFrames (crcType : HdlcCrcT) (bodies : List Bytes) : List Bytes :=
  bodies.filterMap fun body ↦ (checkBody crcType body).toOption

theorem goodFrames_eq {crcType : HdlcCrcT} {body data : Bytes} :
    goodFrames crcType [body] = [data] ↔ body = frameBody crcType data := by
  rw [← checkBody_eq_ok, goodFrames, List.filterMap_cons, List.filterMap_nil]
  cases checkBody crcType body with
  | error e => exact iff_of_false nofun nofun
  | ok frame => exact ⟨fun h ↦ congrArg _ (List.cons.inj h).1, fun h ↦ by rw [Except.ok.inj h]; rfl⟩

theorem rxEnd_empty {ll : HdlcLl} (h : ll.rxBuf = []) :
    ll.rxEnd = ({ ll with rxEscape := false, rxState := .data }, none) := by
  simp [rxEnd, h]

theorem rxEnd_full {ll : HdlcLl} (h : ll.rxBuf ≠ []) (hfit : ll.rxBuf.length ≤ ll.physMtu) :
    ll.rxEnd =
      match checkBody ll.crcType ll.rxBuf with
      | .error e => ({ ll with rxState := .start }, some e)
      | .ok frame =>
          ({ ll with rxState := .start, rxFrames := ll.rxFrames ++ [frame], rxBuf := [] },
            none) := by
  have hr : ∀ n, ({ ll with rxState := .start } : HdlcLl).readCrcFromBuffer n =
      readCrc ll.crcType ll.rxBuf n := fun _ ↦ rfl
  simp only [rxEnd, checkBody, h, if_false, gt_iff_lt, Nat.not_lt.mpr hfit, hr]
  split_ifs <;> rfl

theorem rxStep_hunt {ll : HdlcLl} (h : ll.rxState = .start) (byte : UInt8) :
    ll.rxStep byte = (ll.rxStart byte, none) := by
  by_cases hb : byte = flagSequence <;> simp [rxStep, rxStart, h, hb]

theorem rxStep_flag {ll : HdlcLl} (h : ll.rxState = .data) :
    ll.rxStep flagSequence = ({ ll with rxState := .end_ } : HdlcLl).rxEnd := by
  simp [rxStep, rxData, h]

theorem rxStep_data {ll : HdlcLl} (h : ll.rxState = .data) {byte : UInt8}
    (hb : byte ≠ flagSequence) :
    ll.rxStep byte = (ll.rxData byte, none) := by
  have hd : (ll.rxData byte).rxState = .data := by
    simp only [rxData, hb, if_false]
    split_ifs <;> exact h
  simp [rxStep, h, hd]

/-- `ll'` has received what makes the abstract receiver complete `bodies` and
stand in `p`: the good bodies are delivered, and nothing but the receiver has
changed. -/
structure Received (ll ll' : HdlcLl) (bodies : List Bytes) (p : Phase UInt8) : Prop where
  ok : ll'.RxOk
  phase : ll'.phase = p
  frames : ll'.rxFrames = ll.rxFrames ++ goodFrames ll.crcType bodies
  frame_rule : ll'.eraseRx = ll.eraseRx

theorem rxStep_spec {ll : HdlcLl} (h : ll.RxOk) (byte : UInt8) :
    Received ll (ll.rxStep byte).1 (hdlcStuffing.receive ll.physMtu ll.phase byte).2
      (hdlcStuffing.receive ll.physMtu ll.phase byte).1 := by
  cases hs : ll.rxState with
  | end_ => exact absurd hs h.settled
  | start =>
    rw [rxStep_hunt hs]
    by_cases hb : byte = flagSequence
    · constructor
      · constructor <;> simp [rxStart, hb]
      all_goals simp [rxStart, hb, phase, hs, Stuffing.receive, hdlcStuffing, goodFrames, eraseRx]
    · constructor
      · simpa [rxStart, hb] using h
      all_goals simp [rxStart, hb, phase, hs, Stuffing.receive, hdlcStuffing, goodFrames, eraseRx]
  | data =>
    have hp := h.ptr hs
    have hf := h.fits hs
    by_cases hb : byte = flagSequence
    · subst hb
      rw [rxStep_flag hs]
      by_cases he : ll.rxBuf = []
      · rw [rxEnd_empty (by simpa using he)]
        constructor
        · constructor <;> simp [he, hp]
        all_goals simp [phase, hs, he, Stuffing.receive, hdlcStuffing, goodFrames, eraseRx]
      · rw [rxEnd_full (by simpa using he) (by simpa using hf)]
        cases hc : checkBody ll.crcType ll.rxBuf with
        | error e =>
          constructor
          · constructor <;> simp
          all_goals simp [phase, hs, he, hc, Stuffing.receive, hdlcStuffing, goodFrames, eraseRx,
            Except.toOption]
        | ok frame =>
          constructor
          · constructor <;> simp
          all_goals simp [phase, hs, he, hc, Stuffing.receive, hdlcStuffing, goodFrames, eraseRx,
            Except.toOption]
    · rw [rxStep_data hs hb]
      by_cases hesc : byte = escapeChar
      · constructor
        · constructor <;> simp [rxData, hesc, hs, hp, hf, flagSequence, escapeChar]
        all_goals simp [rxData, hesc, phase, hs, Stuffing.receive, hdlcStuffing,
          goodFrames, eraseRx,
          flagSequence, escapeChar]
      · by_cases hlt : ll.rxBuf.length < ll.physMtu
        · constructor
          · refine ⟨?_, ?_, fun _ ↦ ?_⟩
            · simp [rxData, hb, hesc, hs, hp, hlt]
            · simp [rxData, hb, hesc, hs, hp, hlt]
            · rw [rxData, if_neg hb, if_neg hesc, hp]
              dsimp only
              rw [if_pos hlt, List.length_append]
              exact hlt
          all_goals simp [rxData, hb, hesc, phase, hs, hp, hlt, Stuffing.receive,
            hdlcStuffing, goodFrames,
            eraseRx]
        · constructor
          · constructor <;> simp [rxData, hb, hesc, hs, hp, hlt, hf]
          all_goals simp [rxData, hb, hesc, phase, hs, hp, hlt, Stuffing.receive,
            hdlcStuffing, goodFrames,
            eraseRx]

def firstError (crcType : HdlcCrcT) (bodies : List Bytes) : Option TinyError :=
  bodies.findSome? fun body ↦
    match checkBody crcType body with
    | .error e => some e
    | .ok _ => none

theorem rxStep_error {ll : HdlcLl} (h : ll.RxOk) (byte : UInt8) :
    (ll.rxStep byte).2 = firstError ll.crcType
      (hdlcStuffing.receive ll.physMtu ll.phase byte).2 := by
  cases hs : ll.rxState with
  | end_ => exact absurd hs h.settled
  | start => simp [rxStep_hunt hs, phase, hs, Stuffing.receive, firstError]
  | data =>
    by_cases hb : byte = flagSequence
    · subst hb
      rw [rxStep_flag hs]
      by_cases he : ll.rxBuf = []
      · rw [rxEnd_empty (by simpa using he)]
        simp [phase, hs, he, Stuffing.receive, hdlcStuffing, firstError]
      · rw [rxEnd_full (by simpa using he) (by simpa using h.fits hs)]
        cases hc : checkBody ll.crcType ll.rxBuf <;>
          simp [phase, hs, he, hc, Stuffing.receive, hdlcStuffing, firstError]
    · rw [rxStep_data hs hb]
      by_cases hesc : byte = escapeChar
      · simp [phase, hs, hesc, Stuffing.receive, hdlcStuffing, firstError, flagSequence, escapeChar]
      · simp [phase, hs, hb, hesc, Stuffing.receive, hdlcStuffing, firstError]

def badBodies (crcType : HdlcCrcT) (bodies : List Bytes) : List TinyError :=
  bodies.filterMap fun body ↦
    match checkBody crcType body with
    | .error e => some e
    | .ok _ => none

theorem badBodies_eq_nil {crcType : HdlcCrcT} {body : Bytes} :
    badBodies crcType [body] = [] ↔ ∃ data, body = frameBody crcType data := by
  simp only [← checkBody_eq_ok, badBodies, List.filterMap_cons, List.filterMap_nil]
  cases checkBody crcType body with
  | error e => exact iff_of_false nofun nofun
  | ok frame => exact iff_of_true rfl ⟨frame, rfl⟩

theorem badBodies_append (crcType : HdlcCrcT) (xs ys : List Bytes) :
    badBodies crcType (xs ++ ys) = badBodies crcType xs ++ badBodies crcType ys :=
  List.filterMap_append

theorem rxStep_errors {ll : HdlcLl} (h : ll.RxOk) (byte : UInt8) :
    (ll.rxStep byte).2.toList = badBodies ll.crcType
      (hdlcStuffing.receive ll.physMtu ll.phase byte).2 := by
  have hone : ∀ bodies : List Bytes, bodies.length ≤ 1 →
      (firstError ll.crcType bodies).toList = badBodies ll.crcType bodies := by
    intro bodies hlen
    match bodies, hlen with
    | [], _ => rfl
    | [body], _ =>
      rw [firstError, badBodies, List.findSome?_cons, List.filterMap_cons]
      cases checkBody ll.crcType body <;> rfl
  rw [rxStep_error h, hone _ (hdlcStuffing.receive_length ..)]

theorem rxEnd_settled (ll : HdlcLl) : ll.rxEnd.1.rxState ≠ .end_ := by
  unfold rxEnd
  dsimp only
  split_ifs <;> simp

theorem runRxLoop_end {ll : HdlcLl} (h : ll.rxState = .end_) (consumed : ℕ) (data : Bytes) :
    ll.runRxLoop consumed data =
      match ll.rxEnd with
      | (ll', some e) => (ll', consumed, some e)
      | (ll', none) => ll'.runRxLoop consumed data := by
  have hs := ll.rxEnd_settled
  rcases he : ll.rxEnd with ⟨ll', _ | e⟩
  · rw [he] at hs
    cases data with
    | nil => simp [runRxLoop, h, he, hs]
    | cons byte data =>
      simp only [runRxLoop, h, he]
      cases hs' : ll'.rxState with
      | end_ => exact absurd hs' hs
      | start | data => simp
  · cases data <;> simp [runRxLoop, h, he]

theorem runRxLoop_cons {ll : HdlcLl} (h : ll.RxOk) (consumed : ℕ) (byte : UInt8) (data : Bytes) :
    ll.runRxLoop consumed (byte :: data) =
      match ll.rxStep byte with
      | (ll', some e) => (ll', consumed + 1, some e)
      | (ll', none) => ll'.runRxLoop (consumed + 1) data := by
  cases hs : ll.rxState with
  | end_ => exact absurd hs h.settled
  | start =>
    simp only [runRxLoop, hs, rxStep_hunt hs]
  | data =>
    simp only [runRxLoop, rxStep, hs]
    by_cases he : (ll.rxData byte).rxState = .end_
    · rw [runRxLoop_end he, if_pos he]
    · rw [if_neg he]

def feed (ll : HdlcLl) (data : Bytes) : HdlcLl := data.foldl (fun ll byte ↦ (ll.rxStep byte).1) ll

@[simp] theorem feed_nil (ll : HdlcLl) : ll.feed [] = ll := rfl

@[simp] theorem feed_cons (ll : HdlcLl) (byte : UInt8) (data : Bytes) :
    ll.feed (byte :: data) = (ll.rxStep byte).1.feed data := rfl

theorem feed_append (ll : HdlcLl) (xs ys : Bytes) : ll.feed (xs ++ ys) = (ll.feed xs).feed ys :=
  List.foldl_append

theorem eraseRx_crcType {ll ll' : HdlcLl} (h : ll'.eraseRx = ll.eraseRx) :
    ll'.crcType = ll.crcType := by
  have hc := congrArg HdlcLl.crcType h
  exact hc

theorem eraseRx_physMtu {ll ll' : HdlcLl} (h : ll'.eraseRx = ll.eraseRx) :
    ll'.physMtu = ll.physMtu := by
  have hm := congrArg HdlcLl.physMtu h
  exact hm

theorem goodFrames_append (crcType : HdlcCrcT) (xs ys : List Bytes) :
    goodFrames crcType (xs ++ ys) = goodFrames crcType xs ++ goodFrames crcType ys :=
  List.filterMap_append

theorem feed_spec {ll : HdlcLl} (h : ll.RxOk) (data : Bytes) :
    Received ll (ll.feed data) (hdlcStuffing.receiveAll ll.physMtu ll.phase data).2
      (hdlcStuffing.receiveAll ll.physMtu ll.phase data).1 := by
  induction data generalizing ll with
  | nil => exact ⟨h, rfl, by simp [goodFrames], rfl⟩
  | cons byte data ih =>
    have hb := rxStep_spec h byte
    have hd := ih hb.ok
    rw [eraseRx_physMtu hb.frame_rule, hb.phase] at hd
    rw [feed_cons, Stuffing.receiveAll_cons]
    refine ⟨hd.ok, hd.phase, ?_, hd.frame_rule.trans hb.frame_rule⟩
    rw [hd.frames, hb.frames, eraseRx_crcType hb.frame_rule, goodFrames_append, List.append_assoc]

/-- `run_rx` feeds some non-empty prefix of its input and reports how much. It
stops early only with an error, that of the body that ends there. -/
theorem runRxLoop_feed {ll : HdlcLl} (h : ll.RxOk) (consumed : ℕ) (data : Bytes) :
    ∃ k e, ll.runRxLoop consumed data = (ll.feed (data.take k), consumed + k, e) ∧ k ≤ data.length ∧
      (data ≠ [] → 0 < k) ∧ (e = none → k = data.length) ∧
      e.toList = badBodies ll.crcType
        (hdlcStuffing.receiveAll ll.physMtu ll.phase (data.take k)).2 := by
  induction data generalizing ll consumed with
  | nil => exact ⟨0, none, by simp [runRxLoop, h.settled], le_rfl, by simp, fun _ ↦ rfl, rfl⟩
  | cons byte data ih =>
    rw [runRxLoop_cons h]
    have hspec := rxStep_spec h byte
    have herr := rxStep_errors h byte
    rcases hr : ll.rxStep byte with ⟨ll', _ | e⟩
    · rw [hr] at hspec herr
      obtain ⟨k, e, hk, hle, -, hn, he⟩ := ih hspec.ok (consumed + 1)
      rw [eraseRx_crcType hspec.frame_rule, eraseRx_physMtu hspec.frame_rule, hspec.phase] at he
      refine ⟨k + 1, e, ?_, by simpa using hle, by simp, fun he ↦ by simp [hn he], ?_⟩
      · simp [hk, hr, Nat.add_comm, Nat.add_left_comm]
      · rw [List.take_succ_cons, Stuffing.receiveAll_cons, badBodies_append, ← herr, ← he]
        rfl
    · rw [hr] at herr
      refine ⟨1, some e, by simp [hr], by simp, by simp, by simp, ?_⟩
      rw [List.take_succ_cons, List.take_zero, Stuffing.receiveAll_cons, Stuffing.receiveAll_nil,
        List.append_nil, ← herr]

theorem runRx_feed {ll : HdlcLl} (h : ll.RxOk) (data : Bytes) :
    ∃ k e, ll.runRx data = (ll.feed (data.take k), k, e) ∧ k ≤ data.length ∧
      (data ≠ [] → 0 < k) ∧ (e = none → k = data.length) ∧
      e.toList = badBodies ll.crcType
        (hdlcStuffing.receiveAll ll.physMtu ll.phase (data.take k)).2 := by
  simpa [runRx] using runRxLoop_feed h 0 data

theorem runRx_last {ll : HdlcLl} (h : ll.RxOk) (data : Bytes) (last : UInt8)
    (hquiet : (hdlcStuffing.receiveAll ll.physMtu ll.phase data).2 = []) :
    ∃ e, ll.runRx (data ++ [last]) = (ll.feed (data ++ [last]), (data ++ [last]).length, e) ∧
      e.toList = badBodies ll.crcType
        (hdlcStuffing.receiveAll ll.physMtu ll.phase (data ++ [last])).2 := by
  obtain ⟨k, e, hrun, hle, -, hall, herr⟩ := runRx_feed h (data ++ [last])
  have hk : k = (data ++ [last]).length := by
    by_contra hne
    rw [List.length_append, List.length_singleton] at hle hne
    rw [← List.take_append_drop k data] at hquiet
    rw [List.take_append_of_le_length (by omega), hdlcStuffing.receiveAll_quiet _ hquiet] at herr
    have hnone := hall (Option.toList_eq_nil_iff.mp herr)
    rw [List.length_append, List.length_singleton] at hnone
    exact hne hnone
  rw [hk, List.take_length] at hrun herr
  exact ⟨e, hrun, herr⟩

/-- Where every complete body passes its check, `run_rx` takes all its input
without an error. -/
theorem runRxLoop_clean {ll : HdlcLl} (h : ll.RxOk) (consumed : ℕ) (data : Bytes)
    (hgood : firstError ll.crcType (hdlcStuffing.receiveAll ll.physMtu ll.phase data).2 = none) :
    ll.runRxLoop consumed data = (ll.feed data, consumed + data.length, none) := by
  induction data generalizing ll consumed with
  | nil => simp [runRxLoop, h.settled]
  | cons byte data ih =>
    have hb := rxStep_spec h byte
    have he := rxStep_error h byte
    rw [Stuffing.receiveAll_cons, firstError, List.findSome?_append, Option.or_eq_none_iff] at hgood
    have hr := runRxLoop_cons h consumed byte data
    rcases hs : ll.rxStep byte with ⟨ll', e⟩
    rw [hs] at hb he hr
    have he' : e = none := he.trans hgood.1
    subst he'
    rw [hr, feed_cons, hs]
    have hd := ih hb.ok (consumed + 1)
      (by rw [eraseRx_physMtu hb.frame_rule, eraseRx_crcType hb.frame_rule,
        hb.phase]; exact hgood.2)
    simp only [hd, List.length_cons, Nat.add_assoc, Nat.add_comm 1]

/-! The frames waiting to be fetched have no influence on what is received next. -/

theorem rxData_withRxFrames (ll : HdlcLl) (byte : UInt8) :
    (ll.withRxFrames []).rxData byte = (ll.rxData byte).withRxFrames [] := by
  simp only [rxData]
  by_cases hflag : byte = flagSequence
  · rw [if_pos hflag, if_pos hflag]
    rfl
  by_cases hesc : byte = escapeChar
  · rw [if_neg hflag, if_neg hflag, if_pos hesc, if_pos hesc]
    rfl
  rw [if_neg hflag, if_neg hflag, if_neg hesc, if_neg hesc]
  rw [apply_ite fun ll : HdlcLl ↦ ll.withRxFrames []]
  rfl

theorem rxEnd_withRxFrames (ll : HdlcLl) :
    (ll.withRxFrames []).rxEnd.1.withRxFrames [] = ll.rxEnd.1.withRxFrames [] := by
  by_cases he : ll.rxBuf = []
  · rw [rxEnd_empty he, @rxEnd_empty (ll.withRxFrames []) he]
    rfl
  have hlong : ∀ ll : HdlcLl, ll.rxBuf ≠ [] → ll.physMtu < ll.rxBuf.length →
      ll.rxEnd = ({ ll with rxState := .start }, some .dataTooLarge) := by
    intro ll hne hlt
    rw [rxEnd, if_neg hne]
    exact if_pos hlt
  rcases Nat.lt_or_ge ll.physMtu ll.rxBuf.length with hlt | hfit
  · rw [hlong ll he hlt, hlong (ll.withRxFrames []) he hlt]
    rfl
  · rw [rxEnd_full he hfit, @rxEnd_full (ll.withRxFrames []) he hfit]
    have hbody : checkBody (ll.withRxFrames []).crcType (ll.withRxFrames []).rxBuf =
        checkBody ll.crcType ll.rxBuf := rfl
    rw [hbody]
    cases checkBody ll.crcType ll.rxBuf <;> rfl

theorem rxStep_withRxFrames (ll : HdlcLl) (byte : UInt8) :
    ((ll.withRxFrames []).rxStep byte).1.withRxFrames [] = (ll.rxStep byte).1.withRxFrames [] := by
  have hfinish : ∀ ll' : HdlcLl,
      (if (ll'.withRxFrames []).rxState = .end_ then (ll'.withRxFrames []).rxEnd
        else (ll'.withRxFrames [], none)).1.withRxFrames [] =
      (if ll'.rxState = .end_ then ll'.rxEnd else (ll', none)).1.withRxFrames [] := by
    intro ll'
    by_cases he : ll'.rxState = .end_
    · rw [if_pos he, if_pos (show (ll'.withRxFrames []).rxState = .end_ from he),
        rxEnd_withRxFrames]
    · rw [if_neg he, if_neg (show ¬ (ll'.withRxFrames []).rxState = .end_ from he)]
      rfl
  have hstart : (ll.withRxFrames []).rxStart byte = (ll.rxStart byte).withRxFrames [] := by
    rw [rxStart, rxStart, apply_ite fun ll : HdlcLl ↦ ll.withRxFrames []]
    rfl
  cases hs : ll.rxState with
  | start =>
    simp only [rxStep, show (ll.withRxFrames []).rxState = .start from hs, hs, hstart]
    exact hfinish _
  | data =>
    simp only [rxStep, show (ll.withRxFrames []).rxState = .data from hs, hs, rxData_withRxFrames]
    exact hfinish _
  | end_ =>
    simp only [rxStep, show (ll.withRxFrames []).rxState = .end_ from hs, hs, rxData_withRxFrames]
    exact hfinish _

theorem feed_withRxFrames (ll : HdlcLl) (data : Bytes) :
    ((ll.withRxFrames []).feed data).withRxFrames [] = (ll.feed data).withRxFrames [] := by
  induction data generalizing ll with
  | nil => rfl
  | cons byte data ih => rw [feed_cons, feed_cons, ← ih, rxStep_withRxFrames, ih]

end HdlcLl

end TinyProto
