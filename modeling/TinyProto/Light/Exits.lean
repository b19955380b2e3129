import TinyProto.Light

namespace TinyProto.Light

open Lib

inductive Reachable (config : LightConfig) : Light → Prop
  | new {light : Light} : Light.new config = .ok light → Reachable config light
  | send {light : Light} {data : Bytes} {writes : List Write} {s : Sent} : Reachable config light →
      light.send data writes = some s → Reachable config s.light
  | read {light : Light} {reads : List Read} {r : Received} : Reachable config light →
      light.read reads = some r → Reachable config r.light

/-- The transmitter is free, and the next frame starts with its opening flag. -/
structure Usable (light : Light) : Prop where
  idle : light.ll.isTxBusy = false
  start : light.ll.txState = .start
  opens : ∀ data : Bytes, data ≠ [] → ∃ ll, light.ll.putFrame data = (ll, .ok ()) ∧
    ((⟨ll, light.timeoutMs⟩ : Light).nextByte none).map Prod.snd = some (some flagSequence)

/-- How many bytes a call of `send` has to write. An empty payload adds no frame, and
the call goes on with what the framing layer has in hand. -/
def toWrite (light : Light) (data : Bytes) : ℕ :=
  if data = [] then light.ll.txRest.length else (wireFrame light.ll.crcType data).length

/-- `write_fn` fails while more than the last byte, the closing flag, is left and the
time is not up. -/
def failsEarly (limit : ℕ) : ℕ → List Write → Bool
  | 0, _ => false
  | _ + 1, [] => false
  | left + 1, write :: writes =>
    if write.sent < 0 then left ≠ 0
    else if write.elapsed ≥ limit then false
    else failsEarly limit (if write.sent = 1 then left else left + 1) writes

section Reachable

variable {light : Light}

theorem nextByte_reachable (h : light.ll.Reachable) {pending : Option UInt8} {light' : Light}
    {byte : Option UInt8} (hnext : light.nextByte pending = some (light', byte)) :
    light'.ll.Reachable := by
  cases pending with
  | some b =>
    cases hnext
    exact h
  | none =>
    obtain ⟨⟨ll, out⟩, hrun, hpair⟩ := Option.map_eq_some_iff.mp hnext
    cases hpair
    exact @HdlcLl.Reachable.step _ _ (.runTx 1) h (by rw [HdlcLl.step, hrun]; rfl)

theorem finish_reachable (h : light.ll.Reachable) (len : ℕ) (writes : List Write) :
    (light.finish len writes).light.ll.Reachable :=
  @HdlcLl.Reachable.step _ _ .getTxSentFrame h rfl

theorem sendLoop_round {len : ℕ} {write : Write} {writes : List Write} {pending : Option UInt8}
    {light' : Light} {byte : UInt8} {s : Sent}
    (hnext : light.nextByte pending = some (light', some byte))
    (hs : sendLoop len light pending (write :: writes) = some s) :
    (write.sent < 0 ∧ s = ⟨light', .error .failed, [], writes⟩) ∨
    (¬ write.sent < 0 ∧ write.elapsed ≥ light'.timeout ∧
      s.light = { light' with ll := light'.ll.reset .txOnly } ∧ s.result = .error .timeout) ∨
    (¬ write.sent < 0 ∧ ¬ write.elapsed ≥ light'.timeout ∧
      ∃ s', sendLoop len light' (if write.sent = 1 then none else some byte) writes = some s' ∧
        s.light = s'.light ∧ s.result = s'.result) := by
  rw [sendLoop, hnext] at hs
  dsimp only at hs
  by_cases hfail : write.sent < 0
  · rw [if_pos hfail] at hs
    exact .inl ⟨hfail, (Option.some.inj hs).symm⟩
  rw [if_neg hfail] at hs
  by_cases hmore : write.sent > 1
  · rw [if_pos hmore] at hs
    cases hs
  rw [if_neg hmore] at hs
  by_cases htime : write.elapsed ≥ light'.timeout
  · rw [if_pos htime] at hs
    rw [← Option.some.inj hs]
    exact .inr (.inl ⟨hfail, htime, rfl, rfl⟩)
  · rw [if_neg htime] at hs
    obtain ⟨s', hloop, hs⟩ := Option.map_eq_some_iff.mp hs
    rw [← hs]
    exact .inr (.inr ⟨hfail, htime, s', hloop, rfl, rfl⟩)

theorem sendLoop_reachable (len : ℕ) (writes : List Write) {light : Light} (h : light.ll.Reachable)
    {pending : Option UInt8} {s : Sent} (hs : sendLoop len light pending writes = some s) :
    s.light.ll.Reachable := by
  induction writes generalizing light pending s with
  | nil =>
    rw [sendLoop] at hs
    split at hs
    · rename_i light' hnext
      cases hs
      exact finish_reachable (nextByte_reachable h hnext) len []
    · cases hs
  | cons write writes ih =>
    cases hnext : light.nextByte pending with
    | none =>
      rw [sendLoop, hnext] at hs
      cases hs
    | some next =>
      obtain ⟨light', byte⟩ := next
      have h' := nextByte_reachable h hnext
      cases byte with
      | none =>
        rw [sendLoop, hnext] at hs
        cases hs
        exact finish_reachable h' len _
      | some byte =>
        rcases sendLoop_round hnext hs with ⟨-, rfl⟩ | ⟨-, -, hlight, -⟩ | ⟨-, -, s',
          hloop, hlight, -⟩
        · exact h'
        · rw [hlight]
          exact @HdlcLl.Reachable.step _ _ (.reset .txOnly) h' rfl
        · rw [hlight]
          exact ih h' hloop

theorem send_reachable (h : light.ll.Reachable) {data : Bytes} {writes : List Write} {s : Sent}
    (hs : light.send data writes = some s) : s.light.ll.Reachable := by
  have hput : (light.ll.putFrame data).1.Reachable :=
    @HdlcLl.Reachable.step _ _ (.putFrame data) h rfl
  rw [send] at hs
  split at hs
  · rename_i hll
    rw [hll] at hput
    cases hs
    exact hput
  · rename_i hll
    rw [hll] at hput
    exact sendLoop_reachable data.length writes hput hs

theorem read_reachable (reads : List Read) {light : Light} (h : light.ll.Reachable) {r : Received}
    (hr : light.read reads = some r) : r.light.ll.Reachable := by
  induction reads generalizing light with
  | nil => cases hr
  | cons answer reads ih =>
    rw [read] at hr
    by_cases hfail : answer.bytesRead < 0
    · rw [if_pos hfail] at hr
      cases hr
      exact h
    rw [if_neg hfail] at hr
    by_cases hmore : answer.bytesRead > 1
    · rw [if_pos hmore] at hr
      cases hr
    rw [if_neg hmore] at hr
    have hrun : (light.ll.runRx [answer.byte]).1.Reachable :=
      @HdlcLl.Reachable.step _ _ (.runRx [answer.byte]) h rfl
    have hfeed : ∀ fed : HdlcLl × Option TinyError,
        (if answer.bytesRead > 0
          then ((light.ll.runRx [answer.byte]).1, (light.ll.runRx [answer.byte]).2.2)
        else (light.ll, none)) = fed → fed.1.Reachable := by
      rintro fed rfl
      split
      · exact hrun
      · exact h
    generalize hfed : (ite (answer.bytesRead > 0) _ _ : HdlcLl × Option TinyError) = fed at hr
    have hreach := hfeed fed hfed
    obtain ⟨ll, error⟩ := fed
    dsimp only at hr
    split at hr
    · cases hr
      exact hreach
    · have hgot : ll.getRxFrame.1.Reachable := @HdlcLl.Reachable.step _ _ .getRxFrame hreach rfl
      split at hr
      · rename_i hframe
        rw [hframe] at hgot
        cases hr
        exact hgot
      · rename_i hframe
        rw [hframe] at hgot
        split at hr
        · cases hr
          exact @HdlcLl.Reachable.step _ _ (.reset .rxOnly) hgot rfl
        · exact ih hgot hr

theorem Reachable.ll {config : LightConfig} (h : Reachable config light) : light.ll.Reachable := by
  induction h with
  | new h => exact .new (new_eq h).1
  | send _ hs ih => exact send_reachable ih hs
  | read _ hr ih => exact read_reachable _ ih hr

end Reachable

section Exits

variable {light : Light}

/-- For the transmitter to be usable it is enough that no frame is in hand. -/
theorem usable_iff (h : light.ll.TxOk) : Usable light ↔ light.ll.txData = none := by
  constructor
  · intro husable
    simpa [HdlcLl.isTxBusy] using husable.idle
  · intro hidle
    refine ⟨by rw [HdlcLl.isTxBusy, hidle]; rfl, h.idle hidle, ?_⟩
    intro data hne
    obtain ⟨ll, hput, hok, hrest, -⟩ := HdlcLl.putFrame_idle h hidle hne
    obtain ⟨ll', hnext, -⟩ := @nextByte_spec ⟨ll, light.timeoutMs⟩ hok none
    refine ⟨ll, hput, ?_⟩
    rw [hnext, Option.map_some, hrest]
    rfl

theorem sendLoop_idle (len : ℕ) (writes : List Write) {light : Light} (h : light.ll.TxOk)
    {pending : Option UInt8} {s : Sent} (hs : sendLoop len light pending writes = some s) :
    s.light.ll.txData = none ↔
      failsEarly light.timeout (pending.toList ++ light.ll.txRest).length writes = false := by
  induction writes generalizing light pending s with
  | nil =>
    obtain ⟨ll, hnext, hok, herase, hrest⟩ := nextByte_spec h pending
    cases hbytes : pending.toList ++ light.ll.txRest with
    | nil =>
      rw [hbytes] at hnext hrest
      rw [sendLoop, hnext] at hs
      cases hs
      exact iff_of_true (@finish_completes light _ hok hrest herase len []).idle rfl
    | cons byte bytes =>
      rw [hbytes] at hnext
      rw [sendLoop, hnext] at hs
      cases hs
  | cons write writes ih =>
    obtain ⟨ll, hnext, hok, herase, hrest⟩ := nextByte_spec h pending
    cases hbytes : pending.toList ++ light.ll.txRest with
    | nil =>
      rw [hbytes] at hnext hrest
      rw [sendLoop, hnext] at hs
      cases hs
      exact iff_of_true (@finish_completes light _ hok hrest herase len (write :: writes)).idle rfl
    | cons byte bytes =>
      rw [hbytes] at hnext hrest
      rw [List.length_cons, failsEarly]
      rcases sendLoop_round hnext hs with ⟨hfail, rfl⟩ | ⟨hfail, htime, hlight, -⟩ | ⟨hfail, htime,
        s', hloop, hlight, -⟩
      · rw [if_pos hfail, ← HdlcLl.txRest_eq_nil, hrest]
        simp
      · have hlate : write.elapsed ≥ light.timeout := htime
        rw [if_neg hfail, if_pos hlate, hlight]
        exact iff_of_true rfl rfl
      · have hearly : ¬ write.elapsed ≥ light.timeout := htime
        rw [if_neg hfail, if_neg hearly, hlight, @ih ⟨ll, light.timeoutMs⟩ hok _ _ hloop, hrest]
        have hlen :
            ((if write.sent = 1 then none else some byte : Option UInt8).toList ++ bytes).length =
            if write.sent = 1 then bytes.length else bytes.length + 1 := by
          split <;> rfl
        rw [List.tail_cons, hlen]
        rfl

/-- After a call of `send` that was not refused the transmitter is usable just where
the channel did not fail before the last byte. -/
theorem send_usable_iff {config : LightConfig} (hr : Reachable config light) {data : Bytes}
    {writes : List Write} {s : Sent} (hs : light.send data writes = some s)
    (htaken : s.result ≠ .error .busy) : Usable s.light ↔
    failsEarly light.timeout (light.toWrite data) writes = false := by
  have hok := hr.ll.settled.tx
  rw [usable_iff (send_reachable hr.ll hs).settled.tx]
  by_cases hnil : data = []
  · subst hnil
    rw [toWrite, if_pos rfl]
    exact sendLoop_idle 0 writes hok hs
  · rw [toWrite, if_neg hnil]
    cases hidle : light.ll.txData with
    | none =>
      obtain ⟨ll, hput, hok', hrest, -⟩ := HdlcLl.putFrame_idle hok hidle hnil
      rw [send, hput] at hs
      rw [← hrest]
      exact @sendLoop_idle data.length writes ⟨ll, light.timeoutMs⟩ hok' none s hs
    | some frame =>
      rw [send, HdlcLl.putFrame, if_neg hnil, if_pos (by rw [hidle]; rfl)] at hs
      rw [← Option.some.inj hs] at htaken
      exact absurd rfl htaken

def plainLight : Light := (Light.new ⟨.hdlcCrcOff, 1000⟩).toOption.get (by decide)

theorem send_usable_iff_closing :
    ∃ s, plainLight.send [1] [⟨1, 0⟩, ⟨1, 0⟩, ⟨-1, 0⟩] = some s ∧ s.result = .error .failed ∧
      s.light.ll.isTxBusy = false ∧
      (Usable s.light ↔
        failsEarly plainLight.timeout (plainLight.toWrite [1])
          [⟨1, 0⟩, ⟨1, 0⟩, ⟨-1, 0⟩] = false) := by
  refine ⟨(plainLight.send [1] [⟨1, 0⟩, ⟨1, 0⟩, ⟨-1, 0⟩]).get (by decide +kernel),
    (Option.some_get _).symm,
    by decide +kernel, by decide +kernel, ?_⟩
  exact send_usable_iff (.new rfl) (Option.some_get _).symm (by decide +kernel)

/-- The channel fails on the first byte, and no frame can be sent any more. -/
theorem send_failed_busy :
    ∃ s, plainLight.send [1] [⟨-1, 0⟩] = some s ∧ s.result = .error .failed ∧
    s.light.ll.isTxBusy = true ∧
      s.light.ll.txState = .data ∧ s.light.send [2] [] = some ⟨s.light, .error .busy, [], []⟩ ∧
      ¬ Usable s.light := by
  refine ⟨_, rfl, rfl, rfl, rfl, rfl, ?_⟩
  intro h
  cases h.idle

end Exits

end TinyProto.Light
