import Mathlib.Data.List.Forall2
import TinyProto.Fd.Defines
import TinyProto.Hdlc.Stream

namespace TinyProto

open Lib

structure LightConfig where
  crcType : HdlcCrcT := .hdlcCrc16
  timeoutMs : UInt32 := 1000

structure Light where
  ll : HdlcLl
  timeoutMs : UInt32

/-- An answer of `write_fn`, given `elapsed` nanoseconds after the call of `send`. -/
structure Write where
  sent : ℤ
  elapsed : ℕ

/-- An answer of `read_fn`, with the byte that it left in the buffer. -/
structure Read where
  bytesRead : ℤ
  byte : UInt8
  elapsed : ℕ

/-- A finished call of `send`: what it returned, the bytes that `write_fn` accepted
and the answers that it did not ask for. -/
structure Sent where
  light : Light
  result : TinyResult ℕ
  wire : Bytes
  rest : List Write

structure Received where
  light : Light
  result : TinyResult Bytes
  rest : List Read

namespace Light

def new (config : LightConfig) : TinyResult Light :=
  match HdlcLl.new ⟨config.crcType, 0, 256⟩ with
  | .error e => .error e
  | .ok ll => .ok ⟨ll, config.timeoutMs⟩

def timeout (light : Light) : ℕ := durationFromMillis light.timeoutMs.toNat

/-- The byte that is to be written, from the framing layer when none is left over;
`none` where `run_tx` panics. -/
def nextByte (light : Light) : Option UInt8 → Option (Light × Option UInt8)
  | some byte => some (light, some byte)
  | none => (light.ll.runTx 1).map fun (ll, out) ↦ ({ light with ll := ll }, out.head?)

/-- The frame is fully sent; its notification is dropped. -/
def finish (light : Light) (len : ℕ) (writes : List Write) : Sent :=
  ⟨{ light with ll := light.ll.getTxSentFrame.1 }, .ok len, [], writes⟩

/-- The loops of `send`, an answer of `write_fn` at a time; `none` on a panic, or
when the answers run out before the call returns. -/
def sendLoop (len : ℕ) (light : Light) (pending : Option UInt8) : List Write → Option Sent
  | [] =>
    match light.nextByte pending with
    | some (light, none) => some (light.finish len [])
    | _ => none
  | write :: writes =>
    match light.nextByte pending with
    | none => none
    | some (light, none) => some (light.finish len (write :: writes))
    | some (light, some byte) =>
      if write.sent < 0 then some ⟨light, .error .failed, [], writes⟩
      -- more than was offered: `remaining` underflows
      else if write.sent > 1 then none
      else
        let accepted := if write.sent = 1 then [byte] else []
        if write.elapsed ≥ light.timeout then
          some ⟨{ light with ll := light.ll.reset .txOnly }, .error .timeout, accepted, writes⟩
        else
          (sendLoop len light (if write.sent = 1 then none else some byte) writes).map fun s ↦
            { s with wire := accepted ++ s.wire }

def send (light : Light) (data : Bytes) (writes : List Write) : Option Sent :=
  match light.ll.putFrame data with
  | (ll, .error e) => some ⟨{ light with ll := ll }, .error e, [], writes⟩
  | (ll, .ok ()) => sendLoop data.length { light with ll := ll } none writes

def read (light : Light) : List Read → Option Received
  | [] => none
  | answer :: reads =>
    if answer.bytesRead < 0 then some ⟨light, .error .failed, reads⟩
    else if answer.bytesRead > 1 then none
    else
      let (ll, error) :=
        if answer.bytesRead > 0 then
          let (ll, _, error) := light.ll.runRx [answer.byte]
          (ll, error)
        else (light.ll, none)
      match error.filter (· ≠ .wrongCrc) with
      | some e => some ⟨{ light with ll := ll }, .error e, reads⟩
      | none =>
        match ll.getRxFrame with
        | (ll, some frame) => some ⟨{ light with ll := ll }, .ok frame, reads⟩
        | (ll, none) =>
          if answer.elapsed ≥ light.timeout then
            some ⟨{ light with ll := ll.reset .rxOnly }, .error .timeout, reads⟩
          else read { light with ll := ll } reads

def sendAll : Light → List Bytes → List Write → Option (List (TinyResult ℕ × Bytes))
  | _, [], _ => some []
  | light, data :: payloads, writes =>
    match light.send data writes with
    | none => none
    | some s => (sendAll s.light payloads s.rest).map fun outcomes ↦ (s.result, s.wire) :: outcomes

/-- What successive calls of `read` return, as long as they do; each of them asks
for an answer, so one for each suffices. -/
def readAll : ℕ → Light → List Read → List (TinyResult Bytes)
  | 0, _, _ => []
  | fuel + 1, light, reads =>
    match light.read reads with
    | none => []
    | some r => r.result :: readAll fuel r.light r.rest

/-- A channel that is never late: it takes the byte or is asked again. -/
def Prompt (limit : ℕ) (sent : ℤ) (elapsed : ℕ) : Prop := (sent = 0 ∨ sent = 1) ∧ elapsed < limit

instance (limit : ℕ) (sent : ℤ) (elapsed : ℕ) : Decidable (Prompt limit sent elapsed) := by
  unfold Prompt
  infer_instance

def accepts (writes : List Write) : ℕ := writes.countP fun write ↦ write.sent = 1

def carried (reads : List Read) : Bytes :=
  reads.flatMap fun answer ↦ if answer.bytesRead = 1 then [answer.byte] else []

def accepted (payloads : List Bytes) (outcomes : List (TinyResult ℕ × Bytes)) : List Bytes :=
  (payloads.zip outcomes).filterMap fun (data, outcome) ↦ if outcome.1.isOk then some data else none

/-- A call of `send` takes its payload or writes nothing, refuses what is too long for
the peer, and what it takes is what the calls of `read` return. -/
structure SendMeansReceived (crcType : HdlcCrcT) (payloads : List Bytes)
    (outcomes : List (TinyResult ℕ × Bytes)) (frames : List (TinyResult Bytes)) : Prop where
  answered : List.Forall₂ (fun data outcome ↦ outcome.1 = .ok data.length ∨
    (∃ e, outcome.1 = .error e) ∧ outcome.2 = []) payloads outcomes
  refused : List.Forall₂ (fun data outcome ↦ 256 < data.length + getCrcFieldSize crcType →
    outcome.1 = .error .dataTooLarge) payloads outcomes
  received : frames = (accepted payloads outcomes).map .ok

section Send

variable {light : Light}

structure Completes (light : Light) (len : ℕ) (bytes : Bytes) (writes : List Write)
    (s : Sent) : Prop where
  result : s.result = .ok len
  wire : s.wire = bytes
  ok : s.light.ll.TxOk
  idle : s.light.ll.txData = none
  eraseTx : s.light.ll.eraseTx = light.ll.eraseTx
  timeout : s.light.timeoutMs = light.timeoutMs
  rest : s.rest <:+ writes
  accepts : accepts writes = bytes.length + Light.accepts s.rest

theorem nextByte_spec (h : light.ll.TxOk) (pending : Option UInt8) :
    ∃ ll, light.nextByte pending =
        some (⟨ll, light.timeoutMs⟩, (pending.toList ++ light.ll.txRest).head?) ∧ ll.TxOk ∧
      ll.eraseTx = light.ll.eraseTx ∧ ll.txRest = (pending.toList ++ light.ll.txRest).tail := by
  cases pending with
  | some byte => exact ⟨light.ll, rfl, h, rfl, rfl⟩
  | none =>
    obtain ⟨ll, hrun, hsends⟩ := HdlcLl.runTx_spec h 1
    refine ⟨ll, ?_, hsends.ok, hsends.frame_rule, ?_⟩
    · rw [nextByte, hrun, Option.map_some]
      cases light.ll.txRest <;> rfl
    · rw [hsends.txRest]
      exact List.drop_one

theorem finish_completes {ll : HdlcLl} (hok : ll.TxOk) (hrest : ll.txRest = [])
    (herase : ll.eraseTx = light.ll.eraseTx) (len : ℕ) (writes : List Write) :
    Completes light len [] writes (finish ⟨ll, light.timeoutMs⟩ len writes) := by
  have hsame : ∀ ll : HdlcLl, ll.TxOk → ll.txData = none → ll.getTxSentFrame.1.TxOk ∧
      ll.getTxSentFrame.1.txData = none ∧ ll.getTxSentFrame.1.eraseTx = ll.eraseTx := by
    intro ll h hidle
    rw [HdlcLl.getTxSentFrame]
    split
    · exact ⟨h, hidle, rfl⟩
    · exact ⟨h.withTxSentFrames _, hidle, rfl⟩
  obtain ⟨hok', hidle', herase'⟩ := hsame ll hok (HdlcLl.txRest_eq_nil.mp hrest)
  exact ⟨rfl, rfl, hok', hidle', herase'.trans herase, rfl, List.suffix_refl _,
    (Nat.zero_add _).symm⟩

theorem sendLoop_prompt (len : ℕ) {write : Write} {writes : List Write} {pending : Option UInt8}
    {light' : Light} {byte : UInt8} (hnext : light.nextByte pending = some (light', some byte))
    (hprompt : Prompt light'.timeout write.sent write.elapsed) :
    sendLoop len light pending (write :: writes) =
      (sendLoop len light' (if write.sent = 1 then none else some byte) writes).map fun s ↦
        { s with wire := (if write.sent = 1 then [byte] else []) ++ s.wire } := by
  obtain ⟨hsent, htime⟩ := hprompt
  rw [sendLoop, hnext]
  dsimp only
  rw [if_neg (by omega), if_neg (by omega), if_neg (by omega)]

theorem sendLoop_spec (len : ℕ) (writes : List Write) {light : Light} (h : light.ll.TxOk)
    (pending : Option UInt8)
    (hprompt : ∀ write ∈ writes, Prompt light.timeout write.sent write.elapsed)
    (henough : (pending.toList ++ light.ll.txRest).length ≤ accepts writes) :
    ∃ s, sendLoop len light pending writes = some s ∧
    Completes light len (pending.toList ++ light.ll.txRest) writes s := by
  induction writes generalizing light pending with
  | nil =>
    obtain ⟨ll, hnext, hok, herase, hrest⟩ := nextByte_spec h pending
    have hnil : pending.toList ++ light.ll.txRest = [] :=
      List.length_eq_zero_iff.mp (Nat.le_zero.mp henough)
    rw [hnil] at hnext hrest ⊢
    refine ⟨_, ?_, finish_completes hok hrest herase len []⟩
    rw [sendLoop, hnext]
    rfl
  | cons write writes ih =>
    obtain ⟨ll, hnext, hok, herase, hrest⟩ := nextByte_spec h pending
    have hall := hprompt write List.mem_cons_self
    cases hbytes : pending.toList ++ light.ll.txRest with
    | nil =>
      rw [hbytes] at hnext hrest
      refine ⟨_, ?_, finish_completes hok hrest herase len (write :: writes)⟩
      rw [sendLoop, hnext]
      rfl
    | cons byte bytes =>
      rw [hbytes] at hnext hrest henough
      have hcount : accepts (write :: writes) = accepts writes +
          if write.sent = 1 then 1 else 0 := by
        rw [accepts, accepts, List.countP_cons]
        simp
      have hcut : (if write.sent = 1 then [byte] else []) ++
          ((if write.sent = 1 then none else some byte : Option UInt8).toList ++ ll.txRest) =
            byte :: bytes := by
        rw [hrest]
        split <;> rfl
      obtain ⟨s, hloop, hs⟩ := @ih ⟨ll, light.timeoutMs⟩ hok
        (if write.sent = 1 then none else some byte) (fun w hw ↦
          hprompt w (List.mem_cons_of_mem write hw)) (by
          have hlen := congrArg List.length hcut
          rw [List.length_append] at hlen
          rw [hcount] at henough
          split at hlen <;> simp_all)
      rw [sendLoop_prompt len hnext hall, hloop]
      refine ⟨_, rfl, hs.result, by rw [← hcut, ← hs.wire], hs.ok, hs.idle,
        hs.eraseTx.trans herase, hs.timeout, hs.rest.trans (List.suffix_cons write writes), ?_⟩
      have hbit : (if write.sent = 1 then [byte] else []).length =
          if write.sent = 1 then 1 else 0 := by
        split <;> rfl
      have hlen := congrArg List.length hcut
      rw [List.length_append, hbit] at hlen
      rw [hcount, hs.accepts, ← hlen]
      dsimp only
      omega

theorem sendAll_spec (payloads : List Bytes) (hne : ∀ data ∈ payloads, data ≠ []) {light : Light}
    (h : light.ll.TxOk) (hidle : light.ll.txData = none) (writes : List Write)
    (hprompt : ∀ write ∈ writes, Prompt light.timeout write.sent write.elapsed)
    (henough : (payloads.flatMap (wireFrame light.ll.crcType)).length ≤ accepts writes) :
    sendAll light payloads writes =
      some (payloads.map fun data ↦ (.ok data.length, wireFrame light.ll.crcType data)) := by
  induction payloads generalizing light writes with
  | nil => rfl
  | cons data payloads ih =>
    obtain ⟨ll, hput, hok, hrest, herase, -, -⟩ :=
      HdlcLl.putFrame_idle h hidle (hne data List.mem_cons_self)
    rw [List.flatMap_cons, List.length_append] at henough
    obtain ⟨s, hloop, hs⟩ :=
      @sendLoop_spec data.length writes ⟨ll, light.timeoutMs⟩ hok none hprompt
        (by rw [Option.toList_none, List.nil_append, hrest]; omega)
    rw [Option.toList_none, List.nil_append, hrest] at hs
    have hcrc : s.light.ll.crcType = light.ll.crcType :=
      crcType_of_eraseTx (hs.eraseTx.trans herase)
    have hlimit : s.light.timeout = light.timeout := by rw [timeout, timeout, hs.timeout]
    have hcount := hs.accepts
    have hall := ih (fun d hd ↦ hne d (List.mem_cons_of_mem data hd)) hs.ok hs.idle s.rest
      (fun w hw ↦ by rw [hlimit]; exact hprompt w (hs.rest.subset hw)) (by rw [hcrc]; omega)
    have hsend : light.send data writes = some s := by
      rw [send, hput]
      exact hloop
    rw [sendAll, hsend, List.map_cons]
    dsimp only
    rw [hall, hs.result, hs.wire, hcrc, Option.map_some]

end Send

section Read

theorem read_prompt {light : Light} (h : light.ll.RxOk) {answer : Read} {reads : List Read}
    (hprompt : Prompt light.timeout answer.bytesRead answer.elapsed) :
    light.read (answer :: reads) =
      match (light.ll.feed (carried [answer])).getRxFrame with
      | (ll, some frame) => some ⟨{ light with ll := ll }, .ok frame, reads⟩
      | (ll, none) => read { light with ll := ll } reads := by
  obtain ⟨hcount, htime⟩ := hprompt
  rw [read, if_neg (by omega), if_neg (by omega)]
  rcases hcount with hcount | hcount
  · rw [hcount, if_neg (by omega)]
    dsimp only [Option.filter_none]
    have hquiet : light.ll.feed (carried [answer]) = light.ll := by simp [carried, hcount]
    rw [hquiet]
    rcases light.ll.getRxFrame with ⟨ll, _ | frame⟩
    · dsimp only
      rw [if_neg (by omega)]
    · rfl
  · obtain ⟨k, e, hrun, hle, hpos, -, herr⟩ := HdlcLl.runRx_feed h [answer.byte]
    have hk : k = 1 := Nat.le_antisymm hle (hpos (List.cons_ne_nil _ _))
    have hignored : e.filter (· ≠ .wrongCrc) = none := by
      cases e with
      | none => rfl
      | some e =>
        have he : e = .wrongCrc :=
          HdlcLl.mem_badBodies (by rw [← herr]; exact List.mem_singleton_self e)
        rw [he]
        rfl
    have hbyte : carried [answer] = [answer.byte] := by simp [carried, hcount]
    rw [hcount, if_pos (by omega), hrun, hk, hbyte, List.take_one]
    dsimp only [List.head?_cons, Option.toList_some]
    rw [hignored]
    rcases (light.ll.feed [answer.byte]).getRxFrame with ⟨ll, _ | frame⟩
    · dsimp only
      rw [if_neg (by omega)]
    · rfl

theorem readAll_spec (reads : List Read) (fuel : ℕ) {light : Light} (h : light.ll.RxOk)
    (hframes : light.ll.rxFrames = []) (hfuel : reads.length ≤ fuel)
    (hprompt : ∀ answer ∈ reads, Prompt light.timeout answer.bytesRead answer.elapsed) :
    readAll fuel light reads =
      (HdlcLl.goodFrames light.ll.crcType
        (hdlcStuffing.receiveAll light.ll.physMtu light.ll.phase (carried reads)).2).map .ok := by
  induction reads generalizing fuel light with
  | nil => cases fuel <;> rfl
  | cons answer reads ih =>
    obtain ⟨fuel, rfl⟩ : ∃ f, fuel = f + 1 :=
      Nat.exists_eq_succ_of_ne_zero (by rw [List.length_cons] at hfuel; omega)
    have hread := @read_prompt light h answer reads (hprompt answer List.mem_cons_self)
    have hfeed := HdlcLl.feed_spec h (carried [answer])
    have hcrc := HdlcLl.eraseRx_crcType hfeed.frame_rule
    have hcap := HdlcLl.eraseRx_physMtu hfeed.frame_rule
    have hsplit : carried (answer :: reads) = carried [answer] ++ carried reads := by simp [carried]
    have hlater : ∀ a ∈ reads, Prompt light.timeout a.bytesRead a.elapsed := fun a ha ↦
      hprompt a (List.mem_cons_of_mem answer ha)
    have hone :
        (hdlcStuffing.receiveAll light.ll.physMtu light.ll.phase (carried [answer])).2.length ≤
          1 := by
      rw [carried, List.flatMap_singleton]
      split
      · rw [Stuffing.receiveAll_cons, Stuffing.receiveAll_nil, List.append_nil]
        exact hdlcStuffing.receive_length ..
      · exact Nat.zero_le 1
    have hgot := hfeed.frames
    rw [hframes, List.nil_append] at hgot
    rw [List.length_cons] at hfuel
    rw [hsplit, Stuffing.receiveAll_append, HdlcLl.goodFrames_append, List.map_append, ← hgot,
      ← hfeed.phase]
    cases hqueue : (light.ll.feed (carried [answer])).rxFrames with
    | nil =>
      have hskip : readAll (fuel + 1) light (answer :: reads) =
          readAll (fuel + 1) { light with ll := light.ll.feed (carried [answer]) } reads := by
        rw [readAll, hread, HdlcLl.getRxFrame, hqueue]
        rfl
      have hrest :=
        @ih (fuel + 1) { light with ll := light.ll.feed (carried [answer]) } hfeed.ok hqueue
          (by omega) hlater
      rw [hskip, hrest, hcrc, hcap]
      rfl
    | cons frame queue =>
      have hqueue' : queue = [] := by
        have hlen : (light.ll.feed (carried [answer])).rxFrames.length ≤ 1 := by
          rw [hgot]
          exact (List.length_filterMap_le _ _).trans hone
        rw [hqueue, List.length_cons] at hlen
        exact List.length_eq_zero_iff.mp (by omega)
      have hrest :=
        @ih fuel { light with ll := { light.ll.feed (carried [answer]) with rxFrames := [] } }
          (hfeed.ok.withRxFrames []) rfl (by omega) hlater
      rw [readAll, hread, HdlcLl.getRxFrame, hqueue, hqueue']
      dsimp only
      rw [hrest, hcrc, hcap]
      rfl

end Read

theorem new_eq {config : LightConfig} {light : Light} (h : Light.new config = .ok light) :
    HdlcLl.new ⟨config.crcType, 0, 256⟩ = .ok light.ll ∧ light.ll.physMtu = 256 := by
  injection h with h
  rw [← h]
  exact ⟨rfl, rfl⟩

theorem accepted_all (crcType : HdlcCrcT) (payloads : List Bytes) :
    accepted payloads (payloads.map fun data ↦ (.ok data.length, wireFrame crcType data)) =
      payloads := by
  induction payloads with
  | nil => rfl
  | cons data payloads ih =>
    rw [List.map_cons, accepted, List.zip_cons_cons, List.filterMap_cons]
    exact congrArg (data :: ·) ih

theorem sendAll_readAll {config : LightConfig} {light peer : Light}
    (hlight : Light.new config = .ok light) (hpeer : Light.new config = .ok peer)
    (payloads : List Bytes) (hne : ∀ data ∈ payloads, data ≠ []) (writes : List Write)
    (hwrites : ∀ write ∈ writes, Prompt light.timeout write.sent write.elapsed)
    (henough : (payloads.flatMap (wireFrame config.crcType)).length ≤ accepts writes) :
    light.sendAll payloads writes =
      some (payloads.map fun data ↦ (.ok data.length, wireFrame config.crcType data)) ∧
      ∀ reads : List Read, (∀ answer ∈ reads, Prompt peer.timeout answer.bytesRead answer.elapsed) →
        carried reads = payloads.flatMap (wireFrame config.crcType) →
        peer.readAll reads.length reads =
          (HdlcLl.goodFrames config.crcType
            (payloads.map fun data ↦ (frameBody config.crcType data).take 256)).map .ok := by
  obtain ⟨htx, -, -, hidle, -, -, hcrc⟩ := HdlcLl.new_ok (new_eq hlight).1
  obtain ⟨-, hrx, hphase, -, -, hframes, hcrc'⟩ := HdlcLl.new_ok (new_eq hpeer).1
  constructor
  · have hsend := sendAll_spec payloads hne htx hidle writes hwrites (by rw [hcrc]; exact henough)
    rwa [hcrc] at hsend
  · intro reads hreads hwire
    have hcap : 0 < 256 := by decide
    rw [readAll_spec reads reads.length hrx hframes (Nat.le_refl _) hreads, hwire, hphase, hcrc',
      (new_eq hpeer).2, HdlcLl.receiveAll_frames_clipped config.crcType hcap payloads hne]

/-- `send` takes a payload of any length; the peer returns all of them just where each
fits its buffer together with its CRC. -/
theorem send_means_received_iff {config : LightConfig} {light peer : Light}
    (hlight : Light.new config = .ok light) (hpeer : Light.new config = .ok peer)
    (payloads : List Bytes) (hne : ∀ data ∈ payloads, data ≠ []) (writes : List Write)
    (hwrites : ∀ write ∈ writes, Prompt light.timeout write.sent write.elapsed)
    (henough : (payloads.flatMap (wireFrame config.crcType)).length ≤ accepts writes) : ∃ outcomes,
    light.sendAll payloads writes = some outcomes ∧
      ∀ reads : List Read, (∀ answer ∈ reads, Prompt peer.timeout answer.bytesRead answer.elapsed) →
        carried reads = (outcomes.map Prod.snd).flatten →
        (SendMeansReceived config.crcType payloads outcomes (peer.readAll reads.length reads) ↔
          ∀ data ∈ payloads, data.length + getCrcFieldSize config.crcType ≤ 256) := by
  obtain ⟨hsend, hread⟩ := sendAll_readAll hlight hpeer payloads hne writes hwrites henough
  refine ⟨_, hsend, fun reads hreads hwire ↦ ?_⟩
  rw [List.map_map, ← List.flatMap_def] at hwire
  have hgot := hread reads hreads hwire
  constructor
  · intro h
    have hall := h.received
    rw [hgot, accepted_all] at hall
    exact HdlcLl.goodFrames_clipped config.crcType
      (List.map_injective_iff.mpr (fun _ _ ↦ Except.ok.inj) hall)
  · intro hfit
    have hwhole : payloads.map (fun data ↦ (frameBody config.crcType data).take 256) =
        payloads.map (frameBody config.crcType) :=
      List.map_congr_left fun data hd ↦
        List.take_of_length_le (by rw [frameBody_length]; exact hfit data hd)
    refine ⟨?_, ?_, ?_⟩
    · rw [List.forall₂_map_right_iff]
      exact List.forall₂_same.mpr fun data _ ↦ .inl rfl
    · rw [List.forall₂_map_right_iff]
      exact List.forall₂_same.mpr fun data hd hlong ↦ absurd (hfit data hd) (Nat.not_le.mpr hlong)
    · rw [hgot, hwhole, HdlcLl.goodFrames_bodies, accepted_all]

theorem send_means_received_iff_default :
    ∃ light, Light.new {} = .ok light ∧
      ∃ outcomes, light.sendAll [[1, 2], [0x7E]] (List.replicate 13 ⟨1, 0⟩) = some outcomes ∧
        ∀ reads : List Read,
        (∀ answer ∈ reads, Prompt light.timeout answer.bytesRead answer.elapsed) →
          carried reads = (outcomes.map Prod.snd).flatten →
          (SendMeansReceived .hdlcCrc16 [[1, 2], [0x7E]] outcomes
            (light.readAll reads.length reads) ↔
            ∀ data ∈ ([[1, 2], [0x7E]] : List Bytes),
            data.length + getCrcFieldSize .hdlcCrc16 ≤ 256) := by
  refine ⟨_, rfl, ?_⟩
  have hnew : Light.new {} = .ok _ := rfl
  exact send_means_received_iff hnew hnew [[1, 2], [0x7E]] (by decide) (List.replicate 13 ⟨1, 0⟩)
    (by decide) (by decide +kernel)

/-- A payload one byte too long, without a CRC: `send` returns its length and the peer
a frame that is one byte short. -/
theorem send_overlong_clipped :
    ∃ light, Light.new ⟨.hdlcCrcOff, 1000⟩ = .ok light ∧
      ∃ outcomes, light.sendAll [List.replicate 257 0] (List.replicate 259 ⟨1, 0⟩) = some outcomes ∧
        ∃ reads : List Read,
        (∀ answer ∈ reads, Prompt light.timeout answer.bytesRead answer.elapsed) ∧
          carried reads = (outcomes.map Prod.snd).flatten ∧ outcomes.map Prod.fst = [.ok 257] ∧
          light.readAll reads.length reads = [.ok (List.replicate 256 0)] ∧
          ¬ SendMeansReceived .hdlcCrcOff [List.replicate 257 0] outcomes
            (light.readAll reads.length reads) := by
  obtain ⟨light, hnew⟩ : ∃ light, Light.new ⟨.hdlcCrcOff, 1000⟩ = .ok light := ⟨_, rfl⟩
  have hlimit : light.timeout = durationFromMillis 1000 := by
    injection hnew with hnew
    rw [← hnew]
    rfl
  have hprompt : Prompt light.timeout 1 0 := by
    rw [hlimit]
    decide
  obtain ⟨hsend, hread⟩ :=
    sendAll_readAll hnew hnew [List.replicate 257 0] (by decide) (List.replicate 259 ⟨1, 0⟩)
      (fun write hw ↦ by rw [List.eq_of_mem_replicate hw]; exact hprompt) (by decide +kernel)
  have hclipped : HdlcLl.goodFrames .hdlcCrcOff
      [(frameBody .hdlcCrcOff (List.replicate 257 0)).take 256] = [List.replicate 256 0] := by
    decide +kernel
  rw [List.map_singleton, List.length_replicate] at hsend
  rw [List.map_singleton, List.flatMap_singleton, hclipped, List.map_singleton] at hread
  generalize wireFrame .hdlcCrcOff (List.replicate 257 0) = wire at hsend hread
  have hreads : ∀ answer ∈ wire.map fun byte ↦ (⟨1, byte, 0⟩ : Read),
      Prompt light.timeout answer.bytesRead answer.elapsed := by
    intro answer ha
    obtain ⟨byte, -, rfl⟩ := List.mem_map.mp ha
    exact hprompt
  have hcarried : carried (wire.map fun byte ↦ ⟨1, byte, 0⟩) = wire := by
    rw [carried, List.flatMap_map]
    simp
  refine ⟨light, hnew, _, hsend, _, hreads, by simpa using hcarried, rfl,
    hread _ hreads hcarried, fun h ↦ ?_⟩
  have hall := h.refused
  rw [List.forall₂_cons] at hall
  cases hall.1 (by rw [List.length_replicate]; decide)

end Light

end TinyProto
