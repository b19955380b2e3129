import TinyProto.Lib.Patience
import TinyProto.Light.Exits

namespace TinyProto.Light

open Lib

structure Resting (config : LightConfig) (light : Light) : Prop where
  rx : light.ll.RxOk
  tx : light.ll.TxOk
  rxFrames : light.ll.rxFrames = []
  crcType : light.ll.crcType = config.crcType
  physMtu : light.ll.physMtu = 256
  timeoutMs : light.timeoutMs = config.timeoutMs

section Send

variable {config : LightConfig} {light : Light}

/-- However `write_fn` answers, what it accepts is a beginning of what there is to write,
and all of it if the call returns a length. -/
structure Written (light : Light) (bytes : Bytes) (s : Sent) : Prop where
  wire : s.wire <+: bytes
  whole : s.result.isOk → s.wire = bytes
  ok : s.light.ll.TxOk
  eraseTx : s.light.ll.eraseTx = light.ll.eraseTx
  timeoutMs : s.light.timeoutMs = light.timeoutMs

theorem not_isOk {e : TinyError} {P : Prop} (h : (.error e : TinyResult ℕ).isOk) : P :=
  absurd h Bool.false_ne_true

theorem Resting.written (h : Resting config light) {bytes : Bytes} {s : Sent}
    (hs : Written light bytes s) :
    Resting config s.light := by
  refine ⟨rxOk_of_eraseTx hs.eraseTx h.rx, hs.ok, ?_, ?_, ?_, hs.timeoutMs.trans h.timeoutMs⟩
  · rw [rxFrames_of_eraseTx hs.eraseTx, h.rxFrames]
  · rw [crcType_of_eraseTx hs.eraseTx, h.crcType]
  · rw [physMtu_of_eraseTx hs.eraseTx, h.physMtu]

theorem sendLoop_written (len : ℕ) (writes : List Write) {light : Light} (h : light.ll.TxOk)
    {pending : Option UInt8} {s : Sent} (hs : sendLoop len light pending writes = some s) :
    Written light (pending.toList ++ light.ll.txRest) s := by
  induction writes generalizing light pending s with
  | nil =>
    obtain ⟨ll, hnext, hok, herase, hrest⟩ := nextByte_spec h pending
    cases hbytes : pending.toList ++ light.ll.txRest with
    | nil =>
      rw [hbytes] at hnext hrest
      rw [sendLoop, hnext] at hs
      have hdone := @finish_completes light _ hok hrest herase len []
      rw [← Option.some.inj hs]
      exact ⟨List.nil_prefix, fun _ ↦ rfl, hdone.ok, hdone.eraseTx, hdone.timeout⟩
    | cons byte bytes =>
      rw [hbytes] at hnext
      rw [sendLoop, hnext] at hs
      cases hs
  | cons write writes ih =>
    obtain ⟨ll, hnext, hok, herase, hrest⟩ := nextByte_spec h pending
    cases hbytes : pending.toList ++ light.ll.txRest with
    | nil =>
      rw [hbytes] at hnext hrest
      rw [sendLoop, hnext] at hs
      have hdone := @finish_completes light _ hok hrest herase len (write :: writes)
      rw [← Option.some.inj hs]
      exact ⟨List.nil_prefix, fun _ ↦ rfl, hdone.ok, hdone.eraseTx, hdone.timeout⟩
    | cons byte bytes =>
      rw [hbytes] at hnext hrest
      rw [sendLoop, hnext] at hs
      dsimp only [List.head?_cons] at hs
      by_cases hfail : write.sent < 0
      · rw [if_pos hfail] at hs
        rw [← Option.some.inj hs]
        exact ⟨List.nil_prefix, not_isOk, hok, herase, rfl⟩
      rw [if_neg hfail] at hs
      by_cases hmore : write.sent > 1
      · rw [if_pos hmore] at hs
        cases hs
      rw [if_neg hmore] at hs
      have hcut : (if write.sent = 1 then [byte] else []) ++
          ((if write.sent = 1 then none else some byte : Option UInt8).toList ++ ll.txRest) =
            byte :: bytes := by
        rw [hrest]
        split <;> rfl
      rw [← hcut]
      by_cases htime : write.elapsed ≥ (⟨ll, light.timeoutMs⟩ : Light).timeout
      · rw [if_pos htime] at hs
        rw [← Option.some.inj hs]
        exact ⟨List.prefix_append .., not_isOk, HdlcLl.txOk_reset hok .txOnly, herase, rfl⟩
      · rw [if_neg htime] at hs
        obtain ⟨s', hloop, rfl⟩ := Option.map_eq_some_iff.mp hs
        have hs' := @ih ⟨ll, light.timeoutMs⟩ hok _ _ hloop
        exact ⟨(List.prefix_append_right_inj _).mpr hs'.wire,
          fun hresult ↦ congrArg _ (hs'.whole hresult), hs'.ok, hs'.eraseTx.trans herase,
          hs'.timeoutMs⟩

theorem send_written (h : light.ll.TxOk) {data : Bytes} {writes : List Write} {s : Sent}
    (hs : light.send data writes = some s) : ∃ bytes, Written light bytes s ∧
      (data ≠ [] → s.wire <+: wireFrame light.ll.crcType data ∧
        (s.result.isOk → s.wire = wireFrame light.ll.crcType data)) := by
  by_cases hne : data = []
  · subst hne
    exact ⟨_, @sendLoop_written 0 writes light h none s hs, fun hnot ↦ absurd rfl hnot⟩
  cases hidle : light.ll.txData with
  | none =>
    obtain ⟨ll, hput, hok, hrest, herase, -, -⟩ := HdlcLl.putFrame_idle h hidle hne
    rw [send, hput] at hs
    have hw := @sendLoop_written data.length writes ⟨ll, light.timeoutMs⟩ hok none s hs
    rw [Option.toList_none, List.nil_append, hrest] at hw
    exact ⟨_, ⟨hw.wire, hw.whole, hw.ok, hw.eraseTx.trans herase, hw.timeoutMs⟩,
      fun _ ↦ ⟨hw.wire, hw.whole⟩⟩
  | some frame =>
    rw [send, HdlcLl.putFrame, if_neg hne, if_pos (by rw [hidle]; rfl)] at hs
    rw [← Option.some.inj hs]
    exact ⟨[], ⟨List.nil_prefix, not_isOk, h, rfl, rfl⟩, fun _ ↦ ⟨List.nil_prefix, not_isOk⟩⟩

end Send

section Read

variable {config : LightConfig} {light : Light}

/-- What an answer of `read_fn` brings, and whether the time is up with it. -/
def arrival (limit : ℕ) (answer : Read) : Arrival UInt8 :=
  ⟨if answer.bytesRead = 1 then some answer.byte else none,
    decide (0 ≤ answer.bytesRead ∧ limit ≤ answer.elapsed)⟩

def payloadOf (crcType : HdlcCrcT) (body : Bytes) : Option Bytes :=
  (checkBody crcType body).toOption

def returned (results : List (TinyResult Bytes)) : List Bytes := results.filterMap Except.toOption

theorem symbols_arrival (limit : ℕ) (reads : List Read) :
    Arrival.symbols (reads.map (arrival limit)) = carried reads := by
  induction reads with
  | nil => rfl
  | cons answer reads ih =>
    rw [List.map_cons, Arrival.symbols_cons, ih, carried, carried, List.flatMap_cons, arrival]
    dsimp only
    split <;> rfl

theorem read_answer (h : light.ll.RxOk) {answer : Read} (hok : ¬ answer.bytesRead < 0)
    (hone : ¬ answer.bytesRead > 1) (reads : List Read) :
    (∀ ll frame, (light.ll.feed (carried [answer])).getRxFrame = (ll, some frame) →
      light.read (answer :: reads) = some ⟨{ light with ll := ll }, .ok frame, reads⟩) ∧
    ∀ ll, (light.ll.feed (carried [answer])).getRxFrame = (ll, none) →
      light.read (answer :: reads) =
        if answer.elapsed ≥ light.timeout then
          some ⟨{ light with ll := ll.reset .rxOnly }, .error .timeout, reads⟩
        else read { light with ll := ll } reads := by
  rw [read, if_neg hok, if_neg hone]
  rcases (by omega : answer.bytesRead = 0 ∨ answer.bytesRead = 1) with hcount | hcount
  · have hquiet : light.ll.feed (carried [answer]) = light.ll := by simp [carried, hcount]
    rw [hcount, if_neg (by omega), hquiet]
    constructor
    · intro ll frame hget
      simp only [Option.filter_none, hget]
    · intro ll hget
      simp only [Option.filter_none, hget]
  · obtain ⟨k, e, hrun, hle, hpos, -, herr⟩ := HdlcLl.runRx_feed h [answer.byte]
    have hk : k = 1 := Nat.le_antisymm hle (hpos (List.cons_ne_nil _ _))
    have hignored : e.filter (· ≠ .wrongCrc) = none := by
      cases e with
      | none => rfl
      | some e =>
        have he : e = .wrongCrc :=
          HdlcLl.mem_badBodies (by rw [← herr]; exact List.mem_singleton_self e)
        rw [he]
        rfl
    have hbyte : carried [answer] = [answer.byte] := by simp [carried, hcount]
    rw [hcount, if_pos (by omega), hrun, hk, hbyte, List.take_one]
    constructor
    · intro ll frame hget
      simp only [List.head?_cons, Option.toList_some, hignored, hget]
    · intro ll hget
      simp only [List.head?_cons, Option.toList_some, hignored, hget]

theorem hears_failed {answer : Read} (hfail : answer.bytesRead < 0) :
    hdlcStuffing.listen 256 (payloadOf config.crcType) light.ll.phase
      [arrival light.timeout answer] = (light.ll.phase, []) := by
  have hnothing : arrival light.timeout answer = ⟨none, false⟩ := by
    rw [arrival, if_neg (by omega), decide_eq_false (by omega)]
  rw [hnothing]
  rfl

theorem symbol_arrival (limit : ℕ) (answer : Read) :
    (arrival limit answer).symbol.toList = carried [answer] := by
  rw [← symbols_arrival limit, List.map_singleton, Arrival.symbols_cons, Arrival.symbols_nil,
    List.append_nil]

theorem feed_heard (h : Resting config light) (answer : Read) :
    (light.ll.feed (carried [answer])).rxFrames =
        (hdlcStuffing.receiveAll 256 light.ll.phase (carried [answer])).2.filterMap
          (payloadOf config.crcType) ∧
      (light.ll.feed (carried [answer])).phase =
        (hdlcStuffing.receiveAll 256 light.ll.phase (carried [answer])).1 := by
  have hfeed := HdlcLl.feed_spec h.rx (carried [answer])
  have hgot := hfeed.frames
  have hphase := hfeed.phase
  rw [h.rxFrames, List.nil_append, h.physMtu, h.crcType] at hgot
  rw [h.physMtu] at hphase
  exact ⟨hgot, hphase⟩

theorem hears_answer (h : Resting config light) {answer : Read}
    (hfail : ¬ answer.bytesRead < 0) :
    hdlcStuffing.listen 256 (payloadOf config.crcType) light.ll.phase
        [arrival light.timeout answer] =
      (if decide (answer.elapsed ≥ light.timeout) &&
          (light.ll.feed (carried [answer])).rxFrames.isEmpty
        then .hunt else (light.ll.feed (carried [answer])).phase,
        (light.ll.feed (carried [answer])).rxFrames) := by
  obtain ⟨hgot, hphase⟩ := feed_heard h answer
  have hlate : (arrival light.timeout answer).late = decide (answer.elapsed ≥ light.timeout) := by
    rw [arrival, decide_eq_decide]
    exact ⟨And.right, fun hle ↦ ⟨by omega, hle⟩⟩
  rw [Stuffing.listen, symbol_arrival, hlate, hgot, hphase]
  exact congrArg _ (List.append_nil _)

theorem length_feed_le_one (h : Resting config light) (answer : Read) :
    (light.ll.feed (carried [answer])).rxFrames.length ≤ 1 := by
  rw [(feed_heard h answer).1]
  refine (List.length_filterMap_le _ _).trans ?_
  rw [← symbol_arrival light.timeout]
  cases (arrival light.timeout answer).symbol with
  | none => exact Nat.zero_le 1
  | some b =>
    rw [Option.toList_some, Stuffing.receiveAll_cons, Stuffing.receiveAll_nil, List.append_nil]
    exact hdlcStuffing.receive_length ..

theorem Resting.feed (h : Resting config light) (answer : Read) :
    Resting config ⟨{ light.ll.feed (carried [answer]) with rxFrames := [] }, light.timeoutMs⟩ := by
  have hfeed := HdlcLl.feed_spec h.rx (carried [answer])
  have hcrc := (HdlcLl.eraseRx_crcType hfeed.frame_rule).trans h.crcType
  have hcap := (HdlcLl.eraseRx_physMtu hfeed.frame_rule).trans h.physMtu
  have htx := txOk_of_eraseRx hfeed.frame_rule h.tx
  exact ⟨hfeed.ok.withRxFrames [], @txOk_of_eraseRx (light.ll.feed (carried [answer])) _ rfl htx,
    rfl, hcrc, hcap, h.timeoutMs⟩

theorem Resting.reset (h : Resting config light) :
    Resting config { light with ll := light.ll.reset .rxOnly } :=
  ⟨HdlcLl.rxOk_reset h.rx .rxOnly, HdlcLl.txOk_reset h.tx .rxOnly, h.rxFrames, h.crcType,
    h.physMtu, h.timeoutMs⟩

theorem read_step (h : Resting config light) {answer : Read} (hone : answer.bytesRead ≤ 1)
    (reads : List Read) :
    let heard :=
      hdlcStuffing.listen 256 (payloadOf config.crcType)
        light.ll.phase [arrival light.timeout answer]
    ∃ light', Resting config light' ∧ light'.ll.phase = heard.1 ∧
      ((∃ result, light.read (answer :: reads) = some ⟨light', result, reads⟩ ∧
        heard.2 = returned [result]) ∨
        (light.read (answer :: reads) = light'.read reads ∧ heard.2 = [])) := by
  intro heard
  by_cases hfail : answer.bytesRead < 0
  · rw [show heard = _ from hears_failed hfail]
    refine ⟨light, h, rfl, .inl ⟨.error .failed, ?_, rfl⟩⟩
    rw [read, if_pos hfail]
  obtain ⟨hframe, hquiet⟩ := read_answer h.rx hfail (by omega) reads
  have hshort := length_feed_le_one h answer
  have hresting := h.feed answer
  rw [show heard = _ from hears_answer h hfail]
  generalize light.ll.feed (carried [answer]) = fed at hframe hquiet hshort hresting
  cases hframes : fed.rxFrames with
  | nil =>
    have hread := hquiet fed (by rw [HdlcLl.getRxFrame, hframes])
    rw [show { fed with rxFrames := [] } = fed by rw [← hframes]] at hresting
    by_cases htime : answer.elapsed ≥ light.timeout
    · rw [if_pos htime] at hread
      refine ⟨_, hresting.reset, ?_, .inl ⟨_, hread, rfl⟩⟩
      rw [decide_eq_true htime]
      rfl
    · rw [if_neg htime] at hread
      refine ⟨_, hresting, ?_, .inr ⟨hread, rfl⟩⟩
      rw [decide_eq_false htime]
      rfl
  | cons frame queue =>
    obtain rfl : queue = [] := by
      rw [hframes, List.length_cons] at hshort
      exact List.length_eq_zero_iff.mp (by omega)
    have hread := hframe { fed with rxFrames := [] } frame (by rw [HdlcLl.getRxFrame, hframes])
    refine ⟨_, hresting, ?_, .inl ⟨_, hread, rfl⟩⟩
    rw [List.isEmpty_cons, Bool.and_false]
    rfl

/-- The calls of `read` return what an impatient listener hears. -/
theorem readAll_listen (reads : List Read) (fuel : ℕ) (h : Resting config light)
    (hfuel : reads.length ≤ fuel) (hone : ∀ answer ∈ reads, answer.bytesRead ≤ 1) :
    returned (readAll fuel light reads) =
      (hdlcStuffing.listen 256 (payloadOf config.crcType) light.ll.phase
        (reads.map (arrival light.timeout))).2 := by
  induction reads generalizing fuel light with
  | nil => cases fuel <;> rfl
  | cons answer reads ih =>
    obtain ⟨fuel, rfl⟩ : ∃ f, fuel = f + 1 :=
      Nat.exists_eq_succ_of_ne_zero (by rw [List.length_cons] at hfuel; omega)
    rw [List.length_cons] at hfuel
    obtain ⟨light', h', hphase, hcase⟩ := read_step h (hone answer List.mem_cons_self) reads
    have hlater : ∀ a ∈ reads, a.bytesRead ≤ 1 := fun a ha ↦ hone a (List.mem_cons_of_mem answer ha)
    have hlimit : light'.timeout = light.timeout := by
      rw [timeout, timeout, h'.timeoutMs, h.timeoutMs]
    rw [List.map_cons, Stuffing.listen_cons, ← hphase]
    rcases hcase with ⟨result, hread, hheard⟩ | ⟨hread, hheard⟩
    · have hrest := ih fuel h' (by omega) hlater
      rw [hlimit] at hrest
      rw [readAll, hread, hheard, ← hrest]
      exact List.filterMap_append (l := [result])
    · have hrest := ih (fuel + 1) h' (by omega) hlater
      have hskip : readAll (fuel + 1) light (answer :: reads) =
          readAll (fuel + 1) light' reads := by
        rw [readAll, readAll, hread]
      rw [hlimit] at hrest
      rw [hskip, hrest, hheard, List.nil_append]

theorem read_resting (reads : List Read) (h : Resting config light) {r : Received}
    (hr : light.read reads = some r) : Resting config r.light := by
  induction reads generalizing light with
  | nil => cases hr
  | cons answer reads ih =>
    by_cases hone : answer.bytesRead ≤ 1
    · obtain ⟨light', h', -, ⟨result, hread, -⟩ | ⟨hread, -⟩⟩ := read_step h hone reads
      · rw [hread] at hr
        cases hr
        exact h'
      · rw [hread] at hr
        exact ih h' hr
    · rw [read, if_neg (by omega), if_pos (by omega)] at hr
      cases hr

end Read

theorem Reachable.resting {config : LightConfig} {light : Light} (h : Reachable config light) :
    Resting config light := by
  induction h with
  | new h =>
    obtain ⟨htx, hrx, -, -, -, hframes, hcrc⟩ := HdlcLl.new_ok (new_eq h).1
    refine ⟨hrx, htx, hframes, hcrc, (new_eq h).2, ?_⟩
    rw [Light.new] at h
    split at h
    · cases h
    · rw [← Except.ok.inj h]
  | send _ hs ih =>
    obtain ⟨bytes, hw, -⟩ := send_written ih.tx hs
    exact ih.written hw
  | read _ hr ih => exact read_resting _ ih hr

section Fate

variable {config config' : LightConfig} {light peer : Light}

/-- What a call of `send` reports as sent it has written whole, and else a beginning. -/
def FrameWritten (crcType : HdlcCrcT) (data : Bytes) (outcome : TinyResult ℕ × Bytes) : Prop :=
  outcome.2 <+: wireFrame crcType data ∧ (outcome.1.isOk → outcome.2 = wireFrame crcType data)

theorem sendAll_written (payloads : List Bytes) (hne : ∀ data ∈ payloads, data ≠ [])
    (h : Resting config light) {writes : List Write} {outcomes : List (TinyResult ℕ × Bytes)}
    (hs : light.sendAll payloads writes = some outcomes) :
    List.Forall₂ (FrameWritten config.crcType) payloads outcomes := by
  induction payloads generalizing light writes outcomes with
  | nil =>
    rw [← Option.some.inj hs]
    exact .nil
  | cons data payloads ih =>
    rw [sendAll] at hs
    cases hsend : light.send data writes with
    | none =>
      rw [hsend] at hs
      cases hs
    | some s =>
      rw [hsend] at hs
      obtain ⟨later, hlater, rfl⟩ := Option.map_eq_some_iff.mp hs
      obtain ⟨bytes, hw, hframe⟩ := send_written h.tx hsend
      rw [h.crcType] at hframe
      exact .cons (hframe (hne data List.mem_cons_self))
        (ih (fun d hd ↦ hne d (List.mem_cons_of_mem data hd)) (h.written hw) hlater)

def arriving (limit : ℕ) (payloads : List Bytes) (passages : List (List Read)) :
    List (Bytes × List (Arrival UInt8)) :=
  payloads.zip (passages.map (List.map (arrival limit)))

def passing (crcType : HdlcCrcT) (limit : ℕ) (payloads : List Bytes) (passages : List (List Read)) :
    List (Bytes × List (Arrival UInt8)) :=
  (payloads.map (frameBody crcType)).zip (passages.map (List.map (arrival limit)))

theorem passing_eq (crcType : HdlcCrcT) (limit : ℕ) (payloads : List Bytes)
    (passages : List (List Read)) :
    passing crcType limit payloads passages =
      (arriving limit payloads passages).map (Prod.map (frameBody crcType) id) :=
  List.zip_map_left

/-- What a reader returns that holds the first part of an earlier frame, when all, a
beginning or nothing of each frame arrives. -/
inductive Fate (crcType : HdlcCrcT) : Bytes → List (Bytes × List (Arrival UInt8)) →
    List Bytes → Prop
  | done (held : Bytes) : Fate crcType held [] []
  | nothing {held data : Bytes} {wait : List (Arrival UInt8)}
      {later : List (Bytes × List (Arrival UInt8))} {out : List Bytes}
      (hwait : Arrival.symbols wait = [])
      (hlater : Fate crcType (if wait.any Arrival.late then [] else held) later out) :
      Fate crcType held ((data, wait) :: later) out
  -- the opening flag closes the part held, which is read as if it were a frame
  | closing {held data : Bytes} {wait rest : List (Arrival UInt8)} {first : Arrival UInt8}
      {later : List (Bytes × List (Arrival UInt8))} {out : List Bytes}
      (hwait : Arrival.symbols wait = []) (hfirst : first.symbol.isSome) (hheld : held ≠ [])
      (hpatient : wait.any Arrival.late = false) (hlater : Fate crcType [] later out) :
      Fate crcType held ((data, wait ++ first :: rest) :: later)
        ((payloadOf crcType held).toList ++ out)
  | late {held data : Bytes} {wait rest : List (Arrival UInt8)} {first : Arrival UInt8}
      {later : List (Bytes × List (Arrival UInt8))} {out : List Bytes}
      (hwait : Arrival.symbols wait = []) (hfirst : first.symbol.isSome)
      (hfree : held = [] ∨ wait.any Arrival.late = true)
      (hlate : (Arrival.before ((wireFrame crcType data).length - 1) (first :: rest)).any
        Arrival.late = true) (hlater : Fate crcType [] later out) :
      Fate crcType held ((data, wait ++ first :: rest) :: later) out
  | whole {held data : Bytes} {wait rest : List (Arrival UInt8)} {first : Arrival UInt8}
      {later : List (Bytes × List (Arrival UInt8))} {out : List Bytes}
      (hwait : Arrival.symbols wait = []) (hfirst : first.symbol.isSome)
      (hfree : held = [] ∨ wait.any Arrival.late = true)
      (hpatient : (Arrival.before ((wireFrame crcType data).length - 1) (first :: rest)).any
        Arrival.late = false) (hwhole : Arrival.symbols (first :: rest) = wireFrame crcType data)
      (hfits : data.length + getCrcFieldSize crcType ≤ 256) (hlater : Fate crcType [] later out) :
      Fate crcType held ((data, wait ++ first :: rest) :: later) (data :: out)
  | tooLong {held data : Bytes} {wait rest : List (Arrival UInt8)} {first : Arrival UInt8}
      {later : List (Bytes × List (Arrival UInt8))} {out : List Bytes}
      (hwait : Arrival.symbols wait = []) (hfirst : first.symbol.isSome)
      (hfree : held = [] ∨ wait.any Arrival.late = true)
      (hpatient : (Arrival.before ((wireFrame crcType data).length - 1) (first :: rest)).any
        Arrival.late = false) (hwhole : Arrival.symbols (first :: rest) = wireFrame crcType data)
      (hlong : 256 < data.length + getCrcFieldSize crcType) (hlater : Fate crcType [] later out) :
      Fate crcType held ((data, wait ++ first :: rest) :: later)
        ((payloadOf crcType ((frameBody crcType data).take 256)).toList ++ out)
  | begun {held data : Bytes} {wait rest : List (Arrival UInt8)} {first : Arrival UInt8}
      {later : List (Bytes × List (Arrival UInt8))} {out : List Bytes}
      (hwait : Arrival.symbols wait = []) (hfirst : first.symbol.isSome)
      (hfree : held = [] ∨ wait.any Arrival.late = true)
      (hpatient : (Arrival.before ((wireFrame crcType data).length - 1) (first :: rest)).any
        Arrival.late = false) (hpart : Arrival.symbols (first :: rest) ≠ wireFrame crcType data)
      (hlater : Fate crcType
        (hdlcStuffing.receiveAll 256 .hunt (Arrival.symbols (first :: rest))).1.held later out) :
      Fate crcType held ((data, wait ++ first :: rest) :: later) out

theorem filterMap_payloadOf (crcType : HdlcCrcT) (body : Bytes) :
    [body].filterMap (payloadOf crcType) = (payloadOf crcType body).toList := by
  rw [List.filterMap_cons]
  cases payloadOf crcType body <;> rfl

theorem payloadOf_whole {crcType : HdlcCrcT} {data : Bytes}
    (h : data.length + getCrcFieldSize crcType ≤ 256) :
    (payloadOf crcType ((frameBody crcType data).take 256)).toList = [data] := by
  rw [List.take_of_length_le (by rwa [frameBody_length]), payloadOf, checkBody_frameBody]
  rfl

/-- The fate of each frame is one of those listed. -/
theorem fate_spec (crcType : HdlcCrcT) (passages : List (Bytes × List (Arrival UInt8)))
    (held : Bytes) :
    Fate crcType held passages (hdlcStuffing.fate 256 (payloadOf crcType) held
      (passages.map (Prod.map (frameBody crcType) id))) := by
  induction passages generalizing held with
  | nil => exact .done held
  | cons passage passages ih =>
    obtain ⟨data, as⟩ := passage
    obtain ⟨wait, hwait⟩ : ∃ wait, as.takeWhile (fun a ↦ a.symbol.isNone) = wait := ⟨_, rfl⟩
    have hsplit := @List.takeWhile_append_dropWhile _ (fun a : Arrival UInt8 ↦ a.symbol.isNone) as
    have hquiet := Arrival.symbols_takeWhile as
    rw [hwait] at hsplit hquiet
    rw [List.map_cons, Prod.map_apply, id, Stuffing.fate, hwait]
    cases hrest : as.dropWhile (fun a ↦ a.symbol.isNone) with
    | nil =>
      rw [if_pos rfl, ← hsplit, hrest, List.append_nil]
      exact .nothing hquiet (ih _)
    | cons first rest =>
      obtain ⟨x, hx⟩ := Arrival.symbol_of_dropWhile hrest
      have hfirst : first.symbol.isSome := by rw [hx]; rfl
      rw [if_neg (List.cons_ne_nil first rest), ← hsplit, hrest, ← wireFrame]
      by_cases hheld : (if wait.any Arrival.late then [] else held) = []
      · have hfree : held = [] ∨ wait.any Arrival.late = true := by
          by_cases hlate : wait.any Arrival.late = true
          · exact .inr hlate
          · rw [if_neg hlate] at hheld
            exact .inl hheld
        rw [if_neg (not_not.mpr hheld)]
        by_cases hlate : (Arrival.before ((wireFrame crcType data).length - 1) (first :: rest)).any
            Arrival.late = true
        · rw [if_pos hlate]
          exact .late hquiet hfirst hfree hlate (ih [])
        have hpatient := Bool.eq_false_iff.mpr hlate
        rw [if_neg hlate]
        by_cases hwhole : Arrival.symbols (first :: rest) = wireFrame crcType data
        · rw [if_pos hwhole, filterMap_payloadOf]
          by_cases hfits : data.length + getCrcFieldSize crcType ≤ 256
          · rw [payloadOf_whole hfits]
            exact .whole hquiet hfirst hfree hpatient hwhole hfits (ih [])
          · exact .tooLong hquiet hfirst hfree hpatient hwhole (by omega) (ih [])
        · rw [if_neg hwhole]
          exact .begun hquiet hfirst hfree hpatient hwhole (ih _)
      · have hpatient : wait.any Arrival.late = false := by
          by_contra hlate
          exact hheld (if_pos (Bool.of_not_eq_false hlate))
        rw [hpatient, if_neg Bool.false_ne_true] at hheld
        rw [hpatient, if_neg Bool.false_ne_true, if_pos hheld, filterMap_payloadOf]
        exact .closing hquiet hfirst hheld hpatient (ih [])

theorem passing_spec {crcType : HdlcCrcT} (limit : ℕ) {payloads : List Bytes}
    {outcomes : List (TinyResult ℕ × Bytes)}
    (hw : List.Forall₂ (FrameWritten crcType) payloads outcomes)
    (hne : ∀ data ∈ payloads, data ≠ []) {passages : List (List Read)}
    (hwire : passages.map carried = outcomes.map Prod.snd) :
    (passing crcType limit payloads passages).flatMap Prod.snd = passages.flatten.map
      (arrival limit) ∧
      ∀ x ∈ passing crcType limit payloads passages, x.1 ≠ [] ∧
      Arrival.symbols x.2 <+: hdlcStuffing.frame x.1 := by
  induction hw generalizing passages with
  | nil =>
    obtain rfl := List.map_eq_nil_iff.mp hwire
    exact ⟨rfl, fun x hx ↦ absurd hx List.not_mem_nil⟩
  | @cons data outcome payloads outcomes hframe _ ih =>
    obtain ⟨reads, passages, rfl, hreads, hlater⟩ := List.map_eq_cons_iff.mp hwire
    obtain ⟨hflat, hall⟩ := ih (fun d hd ↦ hne d (List.mem_cons_of_mem data hd)) hlater
    have hsplit : passing crcType limit (data :: payloads) (reads :: passages) =
        (frameBody crcType data, reads.map (arrival limit)) ::
          passing crcType limit payloads passages := rfl
    rw [hsplit, List.flatMap_cons, hflat, List.flatten_cons, List.map_append]
    refine ⟨rfl, fun x hx ↦ ?_⟩
    rcases List.mem_cons.mp hx with rfl | hx
    · refine ⟨List.append_ne_nil_of_left_ne_nil (hne data List.mem_cons_self) _, ?_⟩
      rw [symbols_arrival, hreads]
      exact hframe.1
    · exact hall x hx

/-- Whatever a channel that drops no byte does to the calls of `send` and `read`, and
whenever their time is up, the fates of the frames decide what `read` returns. -/
theorem losses_exact (hcrc : config'.crcType = config.crcType) (hlight : Reachable config light)
    (hpeer : Reachable config' peer) {payloads : List Bytes} (hne : ∀ data ∈ payloads, data ≠ [])
    {writes : List Write} {outcomes : List (TinyResult ℕ × Bytes)}
    (hsent : light.sendAll payloads writes = some outcomes) {passages : List (List Read)}
    (hone : ∀ reads ∈ passages, ∀ answer ∈ reads, answer.bytesRead ≤ 1)
    (hwire : passages.map carried = outcomes.map Prod.snd) :
    List.Forall₂ (FrameWritten config.crcType) payloads outcomes ∧
      returned (peer.readAll passages.flatten.length passages.flatten) =
        hdlcStuffing.fate 256 (payloadOf config.crcType) peer.ll.phase.held
          (passing config.crcType peer.timeout payloads passages) ∧
      Fate config.crcType peer.ll.phase.held (arriving peer.timeout payloads passages)
        (returned (peer.readAll passages.flatten.length passages.flatten)) := by
  have hwritten := sendAll_written payloads hne hlight.resting hsent
  obtain ⟨hflat, hall⟩ := passing_spec peer.timeout hwritten hne hwire
  have hreads : ∀ answer ∈ passages.flatten, answer.bytesRead ≤ 1 := by
    intro answer hmem
    obtain ⟨reads, hin, hanswer⟩ := List.mem_flatten.mp hmem
    exact hone reads hin answer hanswer
  have hreturned : returned (peer.readAll passages.flatten.length passages.flatten) =
      hdlcStuffing.fate 256 (payloadOf config.crcType) peer.ll.phase.held
        (passing config.crcType peer.timeout payloads passages) := by
    rw [readAll_listen passages.flatten _ hpeer.resting le_rfl hreads, hcrc, ← hflat]
    exact hdlcStuffing.listen_fate 256 (payloadOf config.crcType)
      (by decide) _ (fun x hx ↦ (hall x hx).1) (fun x hx ↦ (hall x hx).2) peer.ll.phase
  refine ⟨hwritten, hreturned, ?_⟩
  rw [hreturned, passing_eq]
  exact fate_spec config.crcType _ _

def freshLight : Light := (Light.new {}).toOption.get (by decide)

def slowWrites : List Write := [⟨1, 0⟩, ⟨1, 1000000000⟩] ++ List.replicate 10 ⟨1, 0⟩

def slowPassages : List (List Read) :=
  [[0x7E, 1], wireFrame .hdlcCrc16 [2], wireFrame .hdlcCrc16 [3]].map fun wire ↦ wire.map
    fun byte ↦ ⟨1, byte, 0⟩

/-- After a call that timed out the next payload, reported as sent, gets lost. -/
theorem losses_exact_timedOut :
    ∃ outcomes, freshLight.sendAll [[1], [2], [3]] slowWrites = some outcomes ∧
      outcomes.map Prod.fst = [.error .timeout, .ok 1, .ok 1] ∧
      List.Forall₂ (FrameWritten .hdlcCrc16) [[1], [2], [3]] outcomes ∧
      returned (freshLight.readAll slowPassages.flatten.length slowPassages.flatten) =
        hdlcStuffing.fate 256 (payloadOf .hdlcCrc16) []
          (passing .hdlcCrc16 freshLight.timeout [[1], [2], [3]] slowPassages) ∧
      Fate .hdlcCrc16 [] (arriving freshLight.timeout [[1], [2], [3]] slowPassages)
        (returned (freshLight.readAll slowPassages.flatten.length slowPassages.flatten)) ∧
      hdlcStuffing.fate 256 (payloadOf .hdlcCrc16) []
        (passing .hdlcCrc16 freshLight.timeout [[1], [2], [3]] slowPassages) = [[3]] := by
  have hfresh : Reachable {} freshLight := .new rfl
  have hsent : freshLight.sendAll [[1], [2], [3]] slowWrites =
      some ((freshLight.sendAll [[1], [2], [3]] slowWrites).get (by decide +kernel)) :=
        (Option.some_get _).symm
  obtain ⟨hwritten, hreturned, hfate⟩ :=
    @losses_exact {} {} _ _ rfl hfresh hfresh _ (by decide) _ _ hsent slowPassages
      (by decide +kernel) (by decide +kernel)
  exact ⟨_, hsent, by decide +kernel, hwritten, hreturned, hfate, by decide +kernel⟩

/-- Without a checksum the part held is read as a payload. -/
example : hdlcStuffing.fate 256 (payloadOf .hdlcCrcOff) [] (passing .hdlcCrcOff 1000 [[1, 2], [3]]
    [[⟨1, 0x7E, 0⟩, ⟨1, 1, 0⟩], [⟨1, 0x7E, 0⟩, ⟨1, 3, 0⟩, ⟨1, 0x7E, 0⟩]]) = [[1]] := by
  decide +kernel

end Fate

end TinyProto.Light
