import TinyProto.Fd.Ready
import TinyProto.Net.Reliable

namespace TinyProto

open Lib

namespace TinyFd

variable {fd fd' : TinyFd} {addr : UInt8} {old theirs mine : List Bytes} {c n r : ℕ}
    {waiting : List (Bool × ℕ)}

/-- A station that has accepted `mine`, of which `n` are sent and `c` confirmed,
and that has read `r` of the payloads `theirs`. -/
structure Level (addr : UInt8) (old theirs mine : List Bytes) (c n r : ℕ)
    (waiting : List (Bool × ℕ))
    (fd : TinyFd) : Prop where
  address : fd.addrField 0 = addr
  sends : Sends fd mine c
  nextNs : (fd.peer 0).iQueueControl.txState.nextNs = seq n
  nextNr : (fd.peer 0).iQueueControl.rxState.nextNr = seq r
  reads : fd.reads = old ++ theirs.take r
  queue : fd.frames.sQueue.Queues (waiting.map (Wire.info addr))

theorem Level.withHdlc (h : Level addr old theirs mine c n r waiting fd) {ll : HdlcLl}
    (hwf : WellFormed (fd.withHdlc ll)) :
    Level addr old theirs mine c n r waiting (fd.withHdlc ll) :=
  ⟨h.address, h.sends.withHdlc hwf, h.nextNs, h.nextNr, h.reads, h.queue⟩

theorem Level.more (h : Level addr old theirs mine c n r waiting fd) (hr : r ≤ theirs.length)
    (more : List Bytes) : Level addr old (theirs ++ more) mine c n r waiting fd := by
  refine ⟨h.address, h.sends, h.nextNs, h.nextNr, ?_, h.queue⟩
  rw [List.take_append_of_le_length hr]
  exact h.reads

theorem Level.sendPacket_ok (h : Level addr old theirs mine c n r waiting fd)
    (hone : fd.peerMgr.peers.length = 1) (hready : Ready fd) {address : UInt8}
    (hpeer : fd.sendPeer address = 0) {data : Bytes} (hlen : data.length ≤ fd.mtu)
    (hroom : mine.length < c + fd.frames.iQueue.capacity) (timeoutMs : ℕ) :
    (fd.sendPacket address data timeoutMs).2 = .ok () ∧
      Level addr old theirs (mine ++ [data]) c n r waiting
        (fd.sendPacket address data timeoutMs).1 := by
  have hok := h.sends.sendPacket_ok hone hready hpeer hlen hroom timeoutMs
  have haddr := addrField_congr (setup_sendPacket fd address data timeoutMs) 0
  obtain ⟨hsends, hq, hcb, hrx, hnext, -⟩ := h.sends.sendPacket hone address data timeoutMs
  rw [hok] at hsends
  refine ⟨hok, haddr.trans h.address, hsends, hnext.trans h.nextNs, ?_, ?_, ?_⟩
  · rw [hrx]
    exact h.nextNr
  · rw [TinyFd.reads, hcb]
    exact h.reads
  · rw [hq]
    exact h.queue

/-- A station sends the acknowledgement that waits, or else the next payload, or
nothing. -/
theorem Level.generateTxFrames (h : Level addr old theirs mine c n r waiting fd) (hc : c ≤ n)
    (hn : n ≤ mine.length) (hone : fd.peerMgr.peers.length = 1) (hidle : fd.hdlc.txData = none)
    (hwaiting : waiting.length ≤ 1) (now : Instant) : let fd' := fd.generateTxFrames now
    (waiting = [] ∧ n = mine.length ∧ handed fd fd' = none ∧ fd' = fd) ∨
    (∃ ack, waiting = [ack] ∧ handed fd fd' = some ((Wire.ack ack.1 ack.2).bytes addr mine) ∧
      Level addr old theirs mine c n r [] fd') ∨
    (waiting = [] ∧ n < mine.length ∧ handed fd fd' = some ((Wire.data n r).bytes addr mine) ∧
      Level addr old theirs mine c (n + 1) r [] fd') := by
  intro fd'
  have hwindow := h.sends.window
  have horder := h.queue.inOrder (by rwa [List.length_map])
  have haddr := addrField_congr (setup_generateTxFrames fd now) 0
  obtain ⟨hcb, -, hrx, -⟩ := generateTxFrames_calm hone now
  have hreads : fd'.reads = old ++ theirs.take r := by
    rw [TinyFd.reads, hcb]
    exact h.reads
  have hnextNr : (fd'.peer 0).iQueueControl.rxState.nextNr = seq r := by
    rw [hrx]
    exact h.nextNr
  obtain ⟨hsends, picked, rest, hhanded, hq, hpicks⟩ :=
    h.sends.generateTxFrames hone h.address now h.queue (fun _ ↦ horder) h.nextNr
  cases hpicks with
  | nothing hsame hno =>
    obtain ⟨hnil, hnone⟩ := hno hidle
    refine .inl ⟨hnil, ?_, hhanded, hsame⟩
    by_contra hne
    obtain ⟨frame, hframe⟩ := h.sends.sendable h.nextNs hc (by omega)
    exact hnone frame hframe
  | @service ack rest hacks hpeer =>
    have hrest : rest = [] := by
      rw [hacks, List.length_cons] at hwaiting
      exact List.length_eq_zero_iff.mp (by omega)
    subst hrest
    refine .inr (.inl ⟨ack, hacks, hhanded, haddr.trans h.address, hsends, ?_, hnextNr, hreads, hq⟩)
    rw [hpeer]
    exact h.nextNs
  | @data m hnil hm hlt hnext hnext' =>
    obtain rfl : m = n := seq_inj (hnext.symm.trans h.nextNs) (by omega) (by omega)
    exact .inr (.inr ⟨hnil, hlt, hhanded, haddr.trans h.address, hsends, hnext', hnextNr,
      hreads, hq⟩)

section Receive

variable (h : Level addr old theirs mine c n r [] fd) (hto : fd.peerMgr.addressFieldToPeer addr = 0)
    (now : Instant)
  {nr : ℕ} (hc : c ≤ nr) (hnr : nr ≤ mine.length)
include h hto hc hnr

theorem Level.receive_ack (payloads : List Bytes) :
    Level addr old theirs mine nr n r []
      (fd.onFrameReceived now ((Wire.ack false nr).bytes addr payloads)) := by
  obtain ⟨hsends, hnext, delivered, answer, htakes, hreads, hnextNr, hanswered⟩ :=
    h.sends.receive h.address hto now (.ack false nr) payloads hc hnr h.nextNr
  have hset := setup_onFrameReceived h.sends.wf now ((Wire.ack false nr).bytes addr payloads)
  have haddr := addrField_congr hset 0
  cases htakes with
  | ack =>
    refine ⟨haddr.trans h.address, hsends, hnext.trans h.nextNs, hnextNr, ?_, ?_⟩
    · rw [hreads, h.reads, Option.toList_none, List.append_nil]
    · rw [show _ = fd.frames.sQueue from hanswered]
      exact h.queue

theorem Level.receive_data (hr : r < theirs.length) :
    Level addr old theirs mine nr n (r + 1) [(false, r + 1)]
      (fd.onFrameReceived now ((Wire.data r nr).bytes addr theirs)) := by
  obtain ⟨hsends, hnext, delivered, answer, htakes, hreads, hnextNr, hanswered⟩ :=
    h.sends.receive h.address hto now (.data r nr) theirs hc hnr h.nextNr
  have haddr :=
    addrField_congr (setup_onFrameReceived h.sends.wf now ((Wire.data r nr).bytes addr theirs)) 0
  cases htakes with
  | refused hne => exact absurd rfl hne
  | delivered =>
    refine ⟨haddr.trans h.address, hsends, hnext.trans h.nextNs, hnextNr, ?_, ?_⟩
    · rw [hreads, h.reads, List.append_assoc, List.take_succ_eq_append_getElem hr,
        List.getD_eq_getElem _ _ hr]
      rfl
    · rcases hanswered with ⟨i, ha⟩ | ⟨hfull, -⟩
      · exact h.queue.put ha
      · rw [h.queue.held_nil, h.sends.wf.sCapacity] at hfull
        cases hfull

end Receive

end TinyFd

namespace Net

open TinyFd Side

/-- A call of `get_tx_data` on one station and, unless its output is empty, the
call of `on_rx_data` on the other one with that output. -/
def transfer (net : Net) (s : Bool) (now now' : Instant) (room : ℕ) : Option (Net × Bytes) :=
  let out := net.emitted (.getTxData s now room 0 false)
  (net.step (.getTxData s now room 0 false)).bind fun net₁ ↦
    if out = [] then some (net₁, out)
    else (net₁.step (.onRxData (!s) now' out.length)).map fun net₂ ↦ (net₂, out)

/-- Nothing is on its way between two stations that understand each other. -/
structure Still (net : Net) : Prop where
  linked : Linked net
  settled : net.Settled
  idle : ∀ s, (net s).station.hdlc.txData = none
  channel : ∀ s, (net s).inbox = []

variable {net net' : Net} {s : Bool} {room : ℕ}

theorem transfer_keeps {P : Bool → TinyFd → Prop}
    (hP : ∀ s fd op fd', P s fd → TinyFd.step fd op = some fd' → P s fd')
    (h : ∀ s, P s (net s).station) {now now' : Instant} {out : Bytes}
    (ht : net.transfer s now now' room = some (net', out)) : ∀ s, P s (net' s).station := by
  obtain ⟨net₁, hget, ht⟩ := Option.bind_eq_some_iff.mp ht
  have h₁ := station_step hP h hget
  split at ht
  · rw [Option.some.injEq, Prod.mk.injEq] at ht
    rwa [← ht.1]
  · obtain ⟨net₂, hrx, ht⟩ := Option.map_eq_some_iff.mp ht
    rw [Prod.mk.injEq] at ht
    rw [← ht.1]
    exact station_step hP h₁ hrx

structure Sent (net net' : Net) (s : Bool) (fd' : TinyFd) (frame : Option Bytes)
    (out : Bytes) : Prop where
  linked : Linked net'
  settled : net'.Settled
  self : ∃ ll, (net' s).station = fd'.withHdlc ll ∧ ll.txData = none
  silent : (net' s).inbox = [] ∧ (net' s).dropping = false
  other : (net' !s).station = (net !s).station
  inbox : (net' !s).inbox = out
  frames : (net'.frames !s).inbox = frame.toList
  nil : out = [] ↔ frame = none

theorem getTxData_sent (h : Still net) {now : Instant} {fd : TinyFd}
    (hcheck : (net s).station.checkTimeouts now = fd)
    (hroom : ∀ data, handed fd (fd.generateTxFrames now) = some data →
      (wireFrame (net s).station.hdlc.crcType data).length ≤ room) :
    ∃ net', net.step (.getTxData s now room 0 false) = some net' ∧
      Sent net net' s (fd.generateTxFrames now) (handed fd (fd.generateTxFrames now))
        (net.emitted (.getTxData s now room 0 false)) := by
  have hhdlc : fd.hdlc = (net s).station.hdlc := by rw [← hcheck, checkTimeouts_hdlc]
  have hwf : WellFormed fd := by
    rw [← hcheck]
    exact wellFormed_checkTimeouts (h.linked.wf s) now
  have hsent := sentBytes_handed hwf now
  rw [sentBytes, if_pos ⟨by rw [hhdlc, h.idle s], rfl⟩, hhdlc] at hsent
  obtain ⟨ll₀, hget, -⟩ := getTxData_eq (h.linked.wf s).tx now room 0
  rw [hcheck] at hget
  obtain ⟨net₁, hs₁⟩ : ∃ net₁, net.step (.getTxData s now room 0 false) = some net₁ := by
    rw [step, hget]
    exact ⟨_, rfl⟩
  obtain ⟨ll, hf, hl₁, ha₁, hll⟩ := getTxData_settled h.linked h.settled hs₁
  rw [hcheck] at hf hll
  rw [if_neg (by decide)] at hf
  have hstation : ((net.frames.checkTimeouts s now) s).station = fd := by
    rw [Frames.checkTimeouts, put_self]
    exact hcheck
  have hself := congrArg Side.station (congrFun hf s)
  rw [Frames.withHdlc, put_self, Frames.generateTxFrames_self, hstation] at hself
  have hnot := congrFun hf !s
  rw [Frames.withHdlc, put_not, Frames.generateTxFrames_not, Frames.checkTimeouts, put_not] at hnot
  have hlen : (fd.generateTxFrames now).hdlc.txRest.length ≤ room := by
    rw [hsent]
    cases hh : handed fd (fd.generateTxFrames now) with
    | none => exact Nat.zero_le _
    | some data => exact hroom data hh
  have hout : net.emitted (.getTxData s now room 0 false) =
      (fd.generateTxFrames now).hdlc.txRest := by
    rw [emitted, hget]
    exact List.take_of_length_le hlen
  have hbusy : (net s).station.hdlc.isTxBusy = false := by
    rw [HdlcLl.isTxBusy, h.idle s]
    rfl
  have hshape := hs₁
  rw [step, hget, Option.map_some, Option.some.injEq] at hshape
  dsimp only at hshape
  rw [hbusy, if_neg (by decide), if_neg (by decide), List.take_of_length_le hlen] at hshape
  have hempty : (net.frames !s).inbox = [] := by
    have hpending : net.pending (!s) = [] := by
      rw [pending, h.channel, Bool.not_not, HdlcLl.txRest_eq_nil.mpr (h.idle s), ite_self,
        List.append_nil]
    change (net.outlook !s).2 = []
    rw [outlook, hpending]
    rfl
  refine ⟨_, hs₁, hl₁, ha₁, ⟨ll, hself, ?_⟩, ⟨?_, ?_⟩, ?_, ?_, ?_, ?_⟩
  · rw [← HdlcLl.txRest_eq_nil, hll]
    exact List.drop_eq_nil_of_le hlen
  · rw [← hshape, put_of_not, put_self]
    exact h.channel s
  · rw [← hshape, put_of_not, put_self]
  · have hstation' := congrArg Side.station hnot
    exact hstation'
  · rw [← hshape, put_self, h.channel, hout]
    rfl
  · rw [hnot]
    change (net.frames !s).inbox ++ _ = _
    rw [hempty, List.nil_append]
  · rw [hout, hsent]
    cases hh : handed fd (fd.generateTxFrames now) with
    | none => exact iff_of_true rfl rfl
    | some data =>
      exact iff_of_false (List.ne_nil_of_length_pos (wireFrame_length_pos _ _))
        (Option.some_ne_none _)

/-- What one station hands over, the other one has received. -/
theorem transfer_spec (h : Still net) {now : Instant} (now' : Instant) {fd : TinyFd}
    (hcheck : (net s).station.checkTimeouts now = fd)
    (hroom : ∀ data, handed fd (fd.generateTxFrames now) = some data →
      (wireFrame (net s).station.hdlc.crcType data).length ≤ room) :
    let fd' := fd.generateTxFrames now
    ∃ net' out ll ll', net.transfer s now now' room = some (net', out) ∧ Still net' ∧
      (out = [] ↔ handed fd fd' = none) ∧ (net' s).station = fd'.withHdlc ll ∧
      (net' !s).station = (deliver now' (net !s).station (handed fd fd').toList).withHdlc ll' := by
  intro fd'
  obtain ⟨net₁, hs₁, hsent⟩ := getTxData_sent h hcheck hroom
  obtain ⟨ll, hself, hll⟩ := hsent.self
  rw [transfer, hs₁, Option.bind_some]
  generalize net.emitted (.getTxData s now room 0 false) = out at hsent ⊢
  by_cases hnil : out = []
  · have hnone := hsent.nil.mp hnil
    refine ⟨net₁, _, ll, (net !s).station.hdlc, if_pos hnil,
      ⟨hsent.linked, hsent.settled, both s ?_ ?_,
      both s hsent.silent.1 ?_⟩, hsent.nil, hself, ?_⟩
    · rw [hself]
      exact hll
    · rw [hsent.other]
      exact h.idle _
    · rw [hsent.inbox, hnil]
    · rw [hsent.other, show handed fd fd' = none from hnone]
      rfl
  · have hs₂ : net₁.step (.onRxData (!s) now' out.length) = some _ := rfl
    obtain ⟨-, -, -, hl₂, ha₂⟩ := onRxData_settled hsent.linked hsent.settled hs₂
    have hwf := hsent.linked.wf !s
    have harrived : ((net₁ !s).station.decode (net₁ !s).station.hdlc.phase out).2 =
        (handed fd fd').toList := by
      have hpending : net₁.pending (!s) = out := by
        rw [pending, Bool.not_not, hsent.inbox, hsent.silent.2, hself, if_neg (by decide),
          hdlc_withHdlc, HdlcLl.txRest_eq_nil.mpr hll, List.append_nil]
      rw [← hsent.frames]
      change _ = (net₁.outlook !s).2
      rw [outlook, hpending]
    have hrx : (net₁ !s).station.onRxData now' ((net₁ !s).inbox.take out.length) =
        (deliver now' (net !s).station (handed fd fd').toList).withHdlc
          (((net !s).station.hdlc.feed out).withRxFrames []) := by
      rw [onRxData_eq hwf.rx hwf.rxFrames, hsent.inbox, List.take_length, ← harrived, ← hsent.other]
      rfl
    refine ⟨_, out, ll,
      ((net !s).station.hdlc.feed out).withRxFrames [], by rw [if_neg hnil, hs₂, Option.map_some],
      ⟨hl₂, ha₂, both s ?_ ?_, both s ?_ ?_⟩, hsent.nil, ?_, ?_⟩
    · rw [put_of_not, hself]
      exact hll
    · rw [put_self]
      dsimp only
      rw [hrx, hdlc_withHdlc]
      have herase := (HdlcLl.feed_spec (h.linked.wf !s).rx out).frame_rule
      exact (txData_of_eraseRx herase).trans (h.idle _)
    · rw [put_of_not]
      exact hsent.silent.1
    · rw [put_self]
      dsimp only
      rw [hsent.inbox, List.drop_length]
    · rw [put_of_not]
      exact hself
    · rw [put_self]
      exact hrx

variable {addr : UInt8} {old acc : Bool → List Bytes} {n : Bool → ℕ} {waiting : List (Bool × ℕ)}

/-- It is the turn of station `s`: station `t` has sent `n t` of the payloads
`acc t`, the other one has read them all, and at most the last acknowledgement
waits at `s`. -/
structure Lockstep (addr : UInt8) (old acc : Bool → List Bytes) (n : Bool → ℕ) (s : Bool)
    (waiting : List (Bool × ℕ)) (net : Net) : Prop where
  still : Still net
  self : Level addr (old s) (acc !s) (acc s) (n s) (n s) (n !s) waiting (net s).station
  other : ∃ c ≤ n !s, Level addr (old !s) (acc s) (acc !s) c (n !s) (n s) [] (net !s).station ∧
    (waiting = [] → c = n !s)
  waits : waiting = [] ∨ waiting = [(false, n !s)]
  le : ∀ t, n t ≤ (acc t).length

def work (acc : Bool → List Bytes) (n : Bool → ℕ) (waiting : List (Bool × ℕ)) : ℕ :=
  2 * ((acc true).length - n true) + 2 * ((acc false).length - n false) + waiting.length

theorem lockstep_transfer (h : Lockstep addr old acc n s waiting net) {now : Instant}
    (now' : Instant) (hquiet : (net s).station.Quiet now)
    (hroom : ∀ data, data.length ≤ (net s).station.mtu + 2 →
      (wireFrame (net s).station.hdlc.crcType data).length ≤ room) :
    ∃ net' out n' waiting', net.transfer s now now' room = some (net', out) ∧
      Lockstep addr old acc n' (!s) waiting' net' ∧
      (out = [] ∧ waiting = [] ∧ n s = (acc s).length ∧ n' = n ∧ waiting' = [] ∨
        out ≠ [] ∧ work acc n' waiting' < work acc n waiting) := by
  have hone := h.still.linked.one s
  have hfits : ∀ data, handed (net s).station ((net s).station.generateTxFrames now) = some data →
      (wireFrame (net s).station.hdlc.crcType data).length ≤ room := by
    intro data hd
    exact hroom data (handed_fits (h.still.linked.wf s) now hd).2
  obtain ⟨net', out, ll, ll', htransfer, hstill, hnil, hself, hother⟩ :=
    transfer_spec h.still now' (checkTimeouts_quiet hquiet) hfits
  obtain ⟨c, hc, hlevel, hall⟩ := h.other
  have hwfs := hstill.linked.wf s
  have hwfo := hstill.linked.wf !s
  rw [hself] at hwfs
  rw [hother] at hwfo
  have hto := h.still.linked.addressed !s
  rw [hlevel.address] at hto
  have hshort : waiting.length ≤ 1 := by
    rcases h.waits with hw | hw <;> rw [hw]
    · exact Nat.zero_le _
    · exact le_rfl
  rcases h.self.generateTxFrames le_rfl (h.le s) hone (h.still.idle s) hshort now with ⟨hw, hn, hh,
    hsame⟩ | ⟨ack, hw, hh, hl⟩ | ⟨hw, hlt, hh, hl⟩
  · rw [hh] at hnil hother hwfo
    rw [hsame] at hself hwfs
    obtain rfl := hall hw
    refine ⟨net', out, n, [], htransfer, ⟨hstill, ?_, ?_, .inl rfl, h.le⟩,
      .inl ⟨hnil.mpr rfl, hw, hn, rfl, rfl⟩⟩
    · rw [hother, Bool.not_not]
      exact hlevel.withHdlc hwfo
    · rw [Bool.not_not]
      refine ⟨n s, le_rfl, ?_, fun _ ↦ rfl⟩
      rw [hself]
      have hlevel' := h.self
      rw [hw] at hlevel'
      exact hlevel'.withHdlc hwfs
  · have hack : ack = (false, n !s) := by
      rcases h.waits with hw' | hw' <;> rw [hw] at hw'
      · cases hw'
      · exact List.singleton_inj.mp hw'
    subst hack
    rw [hh] at hnil hother hwfo
    refine ⟨net', out, n, [], htransfer, ⟨hstill, ?_, ?_, .inl rfl, h.le⟩, .inr ⟨?_, ?_⟩⟩
    · rw [hother, Bool.not_not]
      exact (hlevel.receive_ack hto now' hc (h.le !s) _).withHdlc hwfo
    · rw [Bool.not_not]
      refine ⟨n s, le_rfl, ?_, fun _ ↦ rfl⟩
      rw [hself]
      exact hl.withHdlc hwfs
    · exact fun ho ↦ Option.some_ne_none _ (hnil.mp ho)
    · rw [work, work, hw]
      exact Nat.lt_succ_self _
  · rw [hh] at hnil hother hwfo
    obtain rfl := hall hw
    have hne : (!s) ≠ s := by cases s <;> decide
    have hns : Function.update n s (n s + 1) s = n s + 1 := Function.update_self ..
    have hno : Function.update n s (n s + 1) (!s) = n !s := Function.update_of_ne hne ..
    refine ⟨net', out, Function.update n s (n s + 1), [(false, n s + 1)], htransfer,
      ⟨hstill, ?_, ?_, ?_, ?_⟩,
      .inr ⟨?_, ?_⟩⟩
    · rw [hother, Bool.not_not, hns, hno]
      exact (hlevel.receive_data hto now' le_rfl (h.le !s) hlt).withHdlc hwfo
    · rw [Bool.not_not, hns, hno]
      refine ⟨n s, Nat.le_succ _, ?_, fun hcontra ↦ absurd hcontra (List.cons_ne_nil _ _)⟩
      rw [hself]
      exact hl.withHdlc hwfs
    · rw [Bool.not_not, hns]
      exact .inr rfl
    · refine both s ?_ ?_
      · rw [hns]
        exact hlt
      · rw [hno]
        exact h.le _
    · exact fun ho ↦ Option.some_ne_none _ (hnil.mp ho)
    · rw [work, work, hw]
      cases s with
      | true =>
        rw [hns, show Function.update n true (n true + 1) false = n false from hno,
          List.length_singleton, List.length_nil]
        omega
      | false =>
        rw [hns, show Function.update n false (n false + 1) true = n true from hno,
          List.length_singleton, List.length_nil]
        omega

/-- The loop that moves the outputs of the two stations to and fro until both are
empty. The `i`-th call and those after it read the clock at `clock i`, and so on;
`none` means that `fuel` passes were not enough. -/
def exchange (room : ℕ) (clock : ℕ → Instant) : ℕ → ℕ → Net → Option Net
  | 0, _, _ => none
  | fuel + 1, i, net =>
    (net.transfer true (clock i) (clock (i + 1)) room).bind fun (net₁, out₁) ↦
      (net₁.transfer false (clock (i + 2)) (clock (i + 3)) room).bind fun (net₂, out₂) ↦
        if out₁ = [] ∧ out₂ = [] then some net₂ else exchange room clock fuel (i + 4) net₂

/-- No retry timer runs out in the loop. -/
def undisturbed (room : ℕ) (clock : ℕ → Instant) : ℕ → ℕ → Net → Bool
  | 0, _, _ => true
  | fuel + 1, i, net =>
    decide ((net true).station.Quiet (clock i)) &&
      match net.transfer true (clock i) (clock (i + 1)) room with
      | none => true
      | some (net₁, out₁) =>
        decide ((net₁ false).station.Quiet (clock (i + 2))) &&
          match net₁.transfer false (clock (i + 2)) (clock (i + 3)) room with
          | none => true
          | some (net₂, out₂) =>
              decide (out₁ = [] ∧ out₂ = []) || undisturbed room clock fuel (i + 4) net₂

structure Lasting (config : TinyFdConfig) (fd₀ fd : TinyFd) : Prop where
  reachable : Reachable config fd
  setup : fd.setup = fd₀.setup
  crcType : fd.hdlc.crcType = fd₀.hdlc.crcType

theorem Lasting.step {config : TinyFdConfig} {fd₀ fd fd' : TinyFd} (h : Lasting config fd₀ fd)
    {op : TinyFd.Op} (hs : fd.step op = some fd') : Lasting config fd₀ fd' :=
  ⟨h.reachable.step hs, (setup_step h.reachable.wellFormed hs).trans h.setup,
    (crcType_step h.reachable.wellFormed hs).trans h.crcType⟩

structure Rest (addr : UInt8) (old acc : Bool → List Bytes) (net : Net) : Prop where
  still : Still net
  level : ∀ s, Level addr (old s) (acc !s) (acc s) (acc s).length (acc s).length (acc !s).length []
    (net s).station

section Exchange

variable {config : Bool → TinyFdConfig} {net₀ : Net} {clock : ℕ → Instant}
  (hroom : ∀ s (data : Bytes), data.length ≤ (net₀ s).station.mtu + 2 →
    (wireFrame (net₀ s).station.hdlc.crcType data).length ≤ room)
include hroom

/-- The loop ends before it runs out of work. -/
theorem exchange_ends (fuel : ℕ) {i : ℕ}
    (hlasting : ∀ s, Lasting (config s) (net₀ s).station (net s).station)
    (h : Lockstep addr old acc n true waiting net) (hfuel : work acc n waiting < fuel)
    (hquiet : undisturbed room clock fuel i net) :
    ∃ net', exchange room clock fuel i net = some net' ∧
      (∀ s, Lasting (config s) (net₀ s).station (net' s).station) ∧ Rest addr old acc net' := by
  induction fuel generalizing i net n waiting with
  | zero => omega
  | succ fuel ih =>
    have hfits : ∀ net : Net, (∀ s, Lasting (config s) (net₀ s).station (net s).station) →
        ∀ s (data : Bytes), data.length ≤ (net s).station.mtu + 2 →
        (wireFrame (net s).station.hdlc.crcType data).length ≤ room := by
      intro net hl s data hdata
      rw [(hl s).crcType]
      apply hroom
      rwa [← show (net s).station.mtu = (net₀ s).station.mtu from congrArg Setup.mtu (hl s).setup]
    have hkeeps : ∀ s fd op fd', Lasting (config s) (net₀ s).station fd →
        TinyFd.step fd op = some fd' →
        Lasting (config s) (net₀ s).station fd' := fun s fd op fd' hl hs ↦ hl.step hs
    rw [undisturbed, Bool.and_eq_true, decide_eq_true_eq] at hquiet
    obtain ⟨hq₁, hquiet⟩ := hquiet
    obtain ⟨net₁, out₁, n₁, waiting₁, ht₁, h₁, hwork₁⟩ :=
      lockstep_transfer h (clock (i + 1)) hq₁ (hfits net hlasting true)
    have hlasting₁ := transfer_keeps hkeeps hlasting ht₁
    rw [ht₁] at hquiet
    dsimp only at hquiet
    rw [Bool.and_eq_true, decide_eq_true_eq] at hquiet
    obtain ⟨hq₂, hquiet⟩ := hquiet
    rw [Bool.not_true] at h₁
    obtain ⟨net₂, out₂, n₂, waiting₂, ht₂, h₂, hwork₂⟩ :=
      lockstep_transfer h₁ (clock (i + 3)) hq₂ (hfits net₁ hlasting₁ false)
    have hlasting₂ := transfer_keeps hkeeps hlasting₁ ht₂
    rw [ht₂] at hquiet
    dsimp only at hquiet
    rw [Bool.not_false] at h₂
    rw [exchange, ht₁, Option.bind_some]
    dsimp only
    rw [ht₂, Option.bind_some]
    dsimp only
    by_cases hend : out₁ = [] ∧ out₂ = []
    · rw [if_pos hend]
      refine ⟨net₂, rfl, hlasting₂, h₂.still, ?_⟩
      obtain ⟨-, -, hn, rfl, -⟩ := hwork₁.resolve_right fun hw ↦ hw.1 hend.1
      obtain ⟨-, -, hn', rfl, rfl⟩ := hwork₂.resolve_right fun hw ↦ hw.1 hend.2
      obtain ⟨c, -, hother, hall⟩ := h₂.other
      obtain rfl := hall rfl
      have hself := h₂.self
      rw [Bool.not_true] at hself hother
      rw [hn, hn'] at hself hother
      exact both true hself hother
    · rw [if_neg hend]
      apply ih hlasting₂ h₂
      · rcases hwork₁ with ⟨ho₁, hw, -, rfl, rfl⟩ | ⟨-, hlt₁⟩ <;>
          rcases hwork₂ with ⟨ho₂, hw', -, rfl, rfl⟩ | ⟨-, hlt₂⟩
        · exact absurd ⟨ho₁, ho₂⟩ hend
        · rw [hw] at hfuel
          omega
        · rw [hw'] at hlt₁
          omega
        · omega
      · rw [Bool.or_eq_true, decide_eq_true_eq] at hquiet
        exact hquiet.resolve_left hend

end Exchange

def sendBatch (s : Bool) (address : UInt8) : List Bytes → Net → Option Net
  | [], net => some net
  | data :: rest, net =>
    match ((net s).station.sendPacket address data 0).2 with
    | .ok () => (net.step (.sendPacket s address data 0)).bind (sendBatch s address rest)
    | .error _ => none

theorem sendBatch_ok {config : Bool → TinyFdConfig} {net₀ : Net} {address : UInt8}
    {theirs mine old : List Bytes} {c n r : ℕ}
    (haddr : (net₀ s).station.sendPeer address = 0) (batch : List Bytes)
    (hfit : ∀ data ∈ batch, data.length ≤ (net₀ s).station.mtu)
    (hlasting : ∀ s, Lasting (config s) (net₀ s).station (net s).station) (h : Still net)
    (hlevel : Level addr old theirs mine c n r [] (net s).station)
    (hcap : mine.length + batch.length ≤ c + (config s).windowFrames.toNat) :
    ∃ net', sendBatch s address batch net = some net' ∧ Still net' ∧ net' (!s) = net (!s) ∧
      (∀ s, Lasting (config s) (net₀ s).station (net' s).station) ∧
      Level addr old theirs (mine ++ batch) c n r [] (net' s).station := by
  induction batch generalizing net mine with
  | nil =>
    refine ⟨net, rfl, h, rfl, hlasting, ?_⟩
    rwa [List.append_nil]
  | cons data rest ih =>
    have hset := (hlasting s).setup
    have hone := h.linked.one s
    have hready := (hlasting s).reachable.ready hone hlevel.sends.connected
    have hpeer : (net s).station.sendPeer address = 0 := by rw [sendPeer_congr hset, haddr]
    have hlen : data.length ≤ (net s).station.mtu := by
      rw [show (net s).station.mtu = (net₀ s).station.mtu from congrArg Setup.mtu hset]
      exact hfit data (List.mem_cons_self ..)
    have hroom : mine.length < c + (net s).station.frames.iQueue.capacity := by
      rw [(hlasting s).reachable.capacity]
      rw [List.length_cons] at hcap
      omega
    obtain ⟨hok, hlevel₁⟩ := hlevel.sendPacket_ok hone hready hpeer hlen hroom 0
    have hh := (hlevel.sends.sendPacket hone address data 0).2.2.2.2.2
    obtain ⟨net₁, hs⟩ : ∃ net₁, net.step (.sendPacket s address data 0) = some net₁ := ⟨_, rfl⟩
    obtain ⟨-, hl₁, ha₁⟩ := sendPacket_settled h.linked h.settled hs
    have hlasting₁ := station_step (P := fun s fd ↦ Lasting (config s) (net₀ s).station fd)
      (fun _ _ _ _ hl hs ↦ hl.step hs) hlasting hs
    have hnot : net₁ (!s) = net (!s) := by
      rw [← Option.some.inj hs, put_not]
    have hself : (net₁ s).station = ((net s).station.sendPacket address data 0).1 ∧
        (net₁ s).inbox = (net s).inbox := by
      rw [← Option.some.inj hs, put_self]
      exact ⟨rfl, rfl⟩
    have hstill : Still net₁ := by
      refine ⟨hl₁, ha₁, both s ?_ ?_, both s ?_ ?_⟩
      · rw [hself.1, hh]
        exact h.idle s
      · rw [hnot]
        exact h.idle _
      · rw [hself.2]
        exact h.channel s
      · rw [hnot]
        exact h.channel _
    have hlevel₂ : Level addr old theirs (mine ++ [data]) c n r [] (net₁ s).station := by
      rwa [hself.1]
    obtain ⟨net', hsend, hstill', hnot', hlasting', hlevel'⟩ := ih
      (fun d hd ↦ hfit d (List.mem_cons_of_mem data hd)) hlasting₁ hstill hlevel₂
      (by rw [List.length_append, List.length_singleton]; rw [List.length_cons] at hcap; omega)
    refine ⟨net', ?_, hstill', hnot'.trans hnot, hlasting', ?_⟩
    · rw [sendBatch, hok]
      dsimp only
      rw [hs, Option.bind_some, hsend]
    · rwa [List.append_assoc] at hlevel'

/-- The payloads that the stations are given in a round, and what the clock shows
in the exchange that follows. -/
structure Round where
  batch : Bool → List Bytes
  clock : ℕ → Instant

def Round.fuel (r : Round) : ℕ := 2 * (r.batch true).length + 2 * (r.batch false).length + 1

def fill (address : Bool → UInt8) (net : Net) (r : Round) : Option Net :=
  (sendBatch true (address true) (r.batch true) net).bind
    (sendBatch false (address false) (r.batch false))

def round (room : ℕ) (address : Bool → UInt8) (net : Net) (r : Round) : Option Net :=
  (net.fill address r).bind (exchange room r.clock r.fuel 0)

/-- The batches of a round fit into the window and into the frames, and no retry
timer runs out in its exchange. -/
def Round.Fits (config : Bool → TinyFdConfig) (room : ℕ) (address : Bool → UInt8) (net : Net)
    (r : Round) : Prop :=
  (∀ s, (r.batch s).length ≤ (config s).windowFrames.toNat ∧ ∀ data ∈ r.batch s,
    data.length ≤ (net s).station.mtu) ∧ ∀ net₁ ∈ net.fill address r,
    undisturbed room r.clock r.fuel 0 net₁

section Rounds

variable {config : Bool → TinyFdConfig} {net₀ : Net} {address : Bool → UInt8}
  (haddr : ∀ s, (net₀ s).station.sendPeer (address s) = 0)
  (hroom : ∀ s (data : Bytes), data.length ≤ (net₀ s).station.mtu + 2 →
    (wireFrame (net₀ s).station.hdlc.crcType data).length ≤ room)
include haddr hroom

/-- A round starts and ends with the two stations at rest. -/
theorem round_ends {r : Round} (hlasting : ∀ s, Lasting (config s) (net₀ s).station (net s).station)
    (h : Rest addr old acc net) (hfits : r.Fits config room address net) :
    ∃ net', round room address net r = some net' ∧
      (∀ s, Lasting (config s) (net₀ s).station (net' s).station) ∧
      Rest addr old (fun s ↦ acc s ++ r.batch s) net' := by
  obtain ⟨hbatch, hquiet⟩ := hfits
  have hlen : ∀ s, ∀ data ∈ r.batch s, data.length ≤ (net₀ s).station.mtu := by
    intro s data hmem
    rw [← show (net s).station.mtu = (net₀ s).station.mtu from congrArg Setup.mtu
      (hlasting s).setup]
    exact (hbatch s).2 data hmem
  obtain ⟨net₁, hs₁, hstill₁, hnot₁, hlasting₁, hlevel₁⟩ :=
    sendBatch_ok (haddr true) (r.batch true) (hlen true) hlasting h.still (h.level true)
      (Nat.add_le_add_left (hbatch true).1 _)
  have hlevel := h.level false
  rw [← show net₁ false = net false from hnot₁] at hlevel
  obtain ⟨net₂, hs₂, hstill₂, hnot₂, hlasting₂, hlevel₂⟩ :=
    sendBatch_ok (haddr false) (r.batch false) (hlen false) hlasting₁ hstill₁ hlevel
      (Nat.add_le_add_left (hbatch false).1 _)
  have hfill : net.fill address r = some net₂ := by rw [fill, hs₁, Option.bind_some, hs₂]
  rw [← show net₂ true = net₁ true from hnot₂] at hlevel₁
  have hlockstep : Lockstep addr old (fun s ↦ acc s ++ r.batch s) (fun s ↦ (acc s).length)
      true [] net₂ := by
    refine ⟨hstill₂, hlevel₁.more le_rfl _, ⟨_, le_rfl, hlevel₂.more le_rfl _, fun _ ↦ rfl⟩,
      .inl rfl, fun s ↦ ?_⟩
    rw [List.length_append]
    exact Nat.le_add_right _ _
  obtain ⟨net', hex, hlasting', hrest⟩ := exchange_ends hroom r.fuel hlasting₂ hlockstep
    (by simp only [work, Round.fuel, List.length_append, List.length_nil]; omega)
      (hquiet net₂ hfill)
  exact ⟨net', by rw [round, hfill, Option.bind_some, hex], hlasting', hrest⟩

theorem rounds_end {rounds : List Round}
    (hlasting : ∀ s, Lasting (config s) (net₀ s).station (net s).station)
    (h : Rest addr old acc net)
    (hfits : EachStep (round room address) (fun net r ↦ r.Fits config room address net) net
      rounds) : ∃ net', run (round room address) net rounds = some net' ∧
      Rest addr old (fun s ↦ acc s ++ rounds.flatMap (·.batch s)) net' := by
  induction rounds generalizing net acc with
  | nil => exact ⟨net, rfl, by simpa only [List.flatMap_nil, List.append_nil] using h⟩
  | cons r rounds ih =>
    obtain ⟨net₁, hround, hlasting₁, hrest⟩ := round_ends haddr hroom hlasting h hfits.1
    obtain ⟨net', hrun, hrest'⟩ := ih hlasting₁ hrest (hfits.2 net₁ hround)
    refine ⟨net', run_cons.mpr ⟨net₁, hround, hrun⟩, ?_⟩
    simpa only [List.flatMap_cons, List.append_assoc] using hrest'

end Rounds

theorem rest_start (hl : Linked net) (hj : net.JustConnected) :
    Rest ((net true).station.addrField 0) (fun s ↦ (net s).station.reads) (fun _ ↦ []) net := by
  have haddr : ∀ s, (net s).station.addrField 0 = (net true).station.addrField 0 :=
    both true rfl (hl.address true)
  refine ⟨⟨hl, hj.settled, hj.idle, hj.channel⟩,
    fun s ↦
      ⟨haddr s, ?_, ?_, hj.nextNr s, (List.append_nil _).symm, FrameQueue.queues_nil (hj.queue s)⟩⟩
  · exact Sends.of_window (Session.window_start (hl.wf s) (hj.fresh s))
  · rw [(hj.fresh s).counters]
    rfl

/-- However many rounds two stations that have just connected are given, every
payload is accepted and read by the other side, once and in order, and each
exchange ends with both stations at rest. -/
theorem lockstep_delivers {config : Bool → TinyFdConfig} (hp : Pair config)
    (hr : ∀ s, Reachable (config s) (net s).station) (hj : net.JustConnected)
    {address : Bool → UInt8} (haddr : ∀ s, (net s).station.sendPeer (address s) = 0) {room : ℕ}
    (hroom : ∀ s (data : Bytes), data.length ≤ (net s).station.mtu + 2 →
      (wireFrame (net s).station.hdlc.crcType data).length ≤ room) (rounds : List Round)
    (hfits : EachStep (round room address)
      (fun net r ↦ r.Fits config room address net) net rounds) :
    ∃ net', run (round room address) net rounds = some net' ∧
      ∀ s, (net' s).station.reads = (net s).station.reads ++ rounds.flatMap (fun r ↦ r.batch !s) ∧
        ((net' s).station.peer 0).iQueueControl.txState.confirmNs =
          ((net' s).station.peer 0).iQueueControl.txState.nextNs ∧
        ((net' s).station.peer 0).iQueueControl.txState.nextNs =
          ((net' s).station.peer 0).iQueueControl.txState.lastNs ∧
        (net' s).station.frames.iQueue.held = [] ∧ (net' s).station.frames.sQueue.held = [] := by
  have hl := linked_of_reachable hp hr
  obtain ⟨net', hrun, hrest⟩ :=
    rounds_end haddr hroom (fun s ↦ ⟨hr s, rfl, rfl⟩) (rest_start hl hj) hfits
  refine ⟨net', hrun, fun s ↦ ?_⟩
  have hlevel := hrest.level s
  have hheld := hlevel.sends.held_length (hrest.still.linked.one s)
  have hreads := hlevel.reads
  rw [List.take_length, List.nil_append] at hreads
  refine ⟨hreads, ?_, ?_, ?_, hlevel.queue.held_nil⟩
  · rw [hlevel.sends.confirmNs, hlevel.nextNs]
  · rw [hlevel.nextNs, hlevel.sends.lastNs]
  · rwa [Nat.sub_self, List.length_eq_zero_iff] at hheld

def partner (s : Bool) : UInt8 := if s then 1 else 0

def threeRounds : List Round :=
  [⟨fun s ↦ if s then [[1], [2], [3]] else [[4]], fun _ ↦ 0⟩,
    ⟨fun s ↦ if s then [[0x7E], [], [5], [6], [7], [8], [9]] else [[10], [11]], fun _ ↦ 0⟩,
    ⟨fun s ↦ if s then [] else [[12]], fun _ ↦ 0⟩]

instance (config : Bool → TinyFdConfig) (room : ℕ) (address : Bool → UInt8)
    (net : Net) (r : Round) :
    Decidable (r.Fits config room address net) := by
  unfold Round.Fits
  infer_instance

theorem lockstep_delivers_three :
    ∃ net', run (round 142 partner) connectedNet threeRounds = some net' ∧
      (net' false).station.reads = [[1], [2], [3], [0x7E], [], [5], [6], [7], [8], [9]] ∧
      (net' true).station.reads = [[4], [10], [11], [12]] := by
  have hmtu : ∀ s, (connectedNet s).station.mtu = 64 := by decide +kernel
  have hnone : ∀ s, (connectedNet s).station.reads = [] := by decide +kernel
  have hroom : ∀ s (data : Bytes), data.length ≤ (connectedNet s).station.mtu + 2 →
      (wireFrame (connectedNet s).station.hdlc.crcType data).length ≤ 142 := by
    intro s data hlen
    have hle := HdlcLl.wireFrame_length_le (connectedNet s).station.hdlc.crcType data
    rw [hmtu s] at hlen
    omega
  have hr : ∀ s, Reachable (plainConfig s) (connectedNet s).station := reachable_replay _
  have haddr : ∀ s, (connectedNet s).station.sendPeer (partner s) = 0 := by decide +kernel
  obtain ⟨net', hrun, hend⟩ :=
    lockstep_delivers plainConfig_pair hr (by decide +kernel) haddr hroom threeRounds
      (by decide +kernel)
  refine ⟨net', hrun, ?_, ?_⟩
  · rw [(hend false).1, hnone]
    rfl
  · rw [(hend true).1, hnone]
    rfl

end Net

end TinyProto
