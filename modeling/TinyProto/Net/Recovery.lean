import TinyProto.Net.Confirmed
import TinyProto.Net.Lockstep

namespace TinyProto

open Lib

namespace TinyFd

variable {fd : TinyFd} {addr : UInt8} {old theirs mine : List Bytes} {c n r : ℕ}
    {waiting : List (Bool × ℕ)}

theorem checkTimeouts_due (hone : fd.peerMgr.peers.length = 1) {now : Instant}
    (hdue : fd.retryDue 0 now) : fd.checkTimeouts now = (fd.modifyPeer 0 fun q ↦
      { q with
        retries := q.retries - 1
        iQueueControl := { q.iQueueControl with
          txState := { q.iQueueControl.txState with nextNs := q.iQueueControl.txState.confirmNs } }
        lastSentITs := now }).setEvents fdEventTxDataAvailable := by
  rw [TinyFd.checkTimeouts, hone]
  change fd.checkTimeout now 0 = _
  rcases fd.checkTimeout_cases now 0 with ⟨-, hno⟩ | ⟨hs, -⟩ | ⟨hs, -⟩ | ⟨-, -, -, hnone,
    -⟩ | ⟨-, hretry⟩
  · exact absurd hdue hno
  · rw [hdue.1] at hs
    rcases hs with hs | hs <;> cases hs
  · rw [hdue.1] at hs
    cases hs
  · exact absurd hnone hdue.2.2.2
  · exact hretry

theorem retryDur_pos {config : TinyFdConfig} (hr : Reachable config fd) : 0 < fd.retryDur := by
  obtain ⟨now, fd₀, hnew, hset, -⟩ := hr.origin
  rw [TinyFd.retryDur,
    show fd.retryTimeout = fd₀.retryTimeout from congrArg Setup.retryTimeout hset]
  rw [TinyFd.new] at hnew
  split at hnew
  · cases hnew
  dsimp only at hnew
  split at hnew
  · cases hnew
  rw [← Except.ok.inj hnew]
  dsimp only
  refine Nat.mul_pos ?_ (by decide)
  split
  · decide
  · rename_i hne
    exact Nat.pos_of_ne_zero fun h ↦ hne (UInt16.toNat_inj.mp h)

theorem quiet_rewound {config : TinyFdConfig} (hr : Reachable config fd)
    (hone : fd.peerMgr.peers.length = 1) {now : Instant} (hdue : fd.retryDue 0 now) :
    (fd.checkTimeouts now).Quiet now := by
  have hset := setup_checkTimeouts fd now
  intro p hp hagain
  rw [peers_length_congr hset, hone] at hp
  obtain rfl : p = 0 := by omega
  have hpos : 0 < (fd.checkTimeouts now).retryDur := by
    rw [TinyFd.retryDur, show (fd.checkTimeouts now).retryTimeout =
      fd.retryTimeout from congrArg Setup.retryTimeout hset]
    exact retryDur_pos hr
  have hzero : 0 < fd.peerMgr.peers.length := by omega
  have hpeer := congrArg (fun fd : TinyFd ↦ fd.peer 0) (checkTimeouts_due hone hdue)
  rw [peer_setEvents, peer_modifyPeer_self hzero] at hpeer
  rw [TimerDue, hpeer, hdue.1] at hagain
  have hlate := hagain.2
  rw [elapsed, sub_self, Int.toNat_zero] at hlate
  omega

theorem Level.rewind (h : Level addr old theirs mine c n r waiting fd)
    (hone : fd.peerMgr.peers.length = 1) {now : Instant} (hdue : fd.retryDue 0 now) :
    Level addr old theirs mine c c r waiting (fd.checkTimeouts now) := by
  have hpeer := congrArg (fun fd : TinyFd ↦ fd.peer 0) (checkTimeouts_due hone hdue)
  rw [peer_setEvents, peer_modifyPeer_self h.sends.zero_lt] at hpeer
  have hup : ((fd.checkTimeouts now).peer 0).state = .connected := by
    rw [hpeer]
    exact hdue.1
  obtain ⟨hsends, hq, hcb, hrx⟩ := h.sends.checkTimeouts hone now hup
  refine ⟨(addrField_congr (setup_checkTimeouts fd now) 0).trans h.address, hsends, ?_, ?_, ?_, ?_⟩
  · rw [hpeer]
    exact h.sends.confirmNs
  · rw [hrx]
    exact h.nextNr
  · rw [TinyFd.reads, hcb]
    exact h.reads
  · rw [hq]
    exact h.queue

section Receive

variable (h : Level addr old theirs mine c n r [] fd) (hto : fd.peerMgr.addressFieldToPeer addr = 0)
    (now : Instant)
  {nr : ℕ} (hc : c ≤ nr) (hnr : nr ≤ mine.length)
include h hto hc hnr

theorem Level.receive_refused {k : ℕ} (hk : k % 8 ≠ r % 8) :
    let fd' := fd.onFrameReceived now ((Wire.data k nr).bytes addr theirs)
    Level addr old theirs mine nr n r (if (fd.peer 0).sentReject then [] else [(true, r)]) fd' ∧
      (fd'.peer 0).sentReject = true := by
  intro fd'
  obtain ⟨hsends, hnext, delivered, answer, htakes, hreads, hnextNr, hanswered⟩ :=
    h.sends.receive h.address hto now (.data k nr) theirs hc hnr h.nextNr
  have haddr :=
    addrField_congr (setup_onFrameReceived h.sends.wf now ((Wire.data k nr).bytes addr theirs)) 0
  cases htakes with
  | delivered heq => exact absurd heq hk
  | refused =>
    have hzero := h.sends.zero_lt
    have hzero₁ : 0 < (fd.touch 0 now).peerMgr.peers.length := by rwa [peers_length_touch]
    have hpeer := peer_touch_self fd 0 now hzero
    obtain ⟨-, hI, -, hns⟩ := Wire.data_control addr theirs k nr
    have he : fd' = (fd.touch 0 now).onIFrameReceived 0 ((Wire.data k nr).bytes addr theirs) := by
      have hto' : fd.AddressedTo 0 ((Wire.data k nr).bytes addr theirs) :=
        ⟨Wire.two_le_length .., hto⟩
      have hr := onFrameReceived_reacts h.sends.wf hto' (by decide) now
      have hnot := not_isI_of_service (c := ((Wire.data k nr).bytes addr theirs).getD 1 0)
      generalize hfd : fd.onFrameReceived now ((Wire.data k nr).bytes addr theirs) = fd'' at hr
      rw [show fd' = fd'' from hfd]
      cases hr with
      | setup hkind => exact absurd hI (hnot (.inl hkind.1))
      | opened hkind => exact absurd hI (hnot (.inl hkind.1))
      | disc hkind => exact absurd hI (hnot (.inl hkind.1))
      | closed hkind => exact absurd hI (hnot (.inl (hkind.elim (·.1.1) (·.1))))
      | otherU hU => exact absurd hI (hnot (.inl hU))
      | refused _ hconn => exact absurd h.sends.connected hconn
      | iFrame => rfl
      | sFrame hS => exact absurd hI hS
    have hcounter := (wellFormed_touch h.sends.wf hzero now).counters 0 hzero₁
    obtain ⟨m, hm⟩ := exists_seq_of_lt hcounter.confirm
    rcases onIFrameReceived_rx hzero₁ hm ((Wire.data k nr).bytes addr theirs) with ⟨-, -, -, hrej,
      hq⟩ | ⟨heq, -⟩
    · rw [hpeer, addrField_congr (setup_touch fd 0 now), h.address, h.nextNr,
        frames_touch, ← he] at hq
      refine ⟨⟨haddr.trans h.address, hsends, hnext.trans h.nextNs, hnextNr, ?_, ?_⟩, he ▸ hrej⟩
      · rw [hreads, h.reads, Option.toList_none, List.append_nil]
      · rcases hq with ⟨hflag, hq⟩ | ⟨hflag, hq⟩
        · rw [if_pos hflag, hq]
          exact h.queue
        · rw [if_neg (by rw [hflag]; decide)]
          rcases hq with ⟨i, ha⟩ | ⟨hfull, -⟩
          · exact h.queue.put ha
          · rw [h.queue.held_nil, h.sends.wf.sCapacity] at hfull
            cases hfull
    · rw [hpeer, h.nextNr] at heq
      exact absurd (seq_eq_iff.mp (hns.symm.trans heq)) hk

theorem Level.receive_reject (payloads : List Bytes) :
    Level addr old theirs mine nr nr r []
      (fd.onFrameReceived now ((Wire.ack true nr).bytes addr payloads)) := by
  obtain ⟨hsends, hnext, delivered, answer, htakes, hreads, hnextNr, hanswered⟩ :=
    h.sends.receive h.address hto now (.ack true nr) payloads hc hnr h.nextNr
  have hset := setup_onFrameReceived h.sends.wf now ((Wire.ack true nr).bytes addr payloads)
  have haddr := addrField_congr hset 0
  cases htakes with
  | ack =>
    refine ⟨haddr.trans h.address, hsends, hnext, hnextNr, ?_, ?_⟩
    · rw [hreads, h.reads, Option.toList_none, List.append_nil]
    · rw [show _ = fd.frames.sQueue from hanswered]
      exact h.queue

end Receive

end TinyFd

namespace Net

open TinyFd Side Frames

variable {net net' : Net} {a : Bool} {room : ℕ} {addr : UInt8}
    {old acc : Bool → List Bytes} {c r : ℕ}

def timedOut (net : Net) (s : Bool) (now : Instant) : Net :=
  put net s { net s with station := (net s).station.checkTimeouts now }

theorem step_timedOut {s : Bool} {now : Instant} (h : ((net s).station.checkTimeouts now).Quiet now)
    (room timeoutMs : ℕ) (lost : Bool) :
    (net.timedOut s now).step (.getTxData s now room timeoutMs lost) =
      net.step (.getTxData s now room timeoutMs lost) := by
  have hget : ((net.timedOut s now) s).station.getTxData now room timeoutMs =
      (net s).station.getTxData now room timeoutMs := by
    rw [timedOut, put_self, TinyFd.getTxData, checkTimeouts_quiet h, TinyFd.getTxData]
  have hself : (net.timedOut s now) s =
      { net s with station := (net s).station.checkTimeouts now } := put_self
  have hnot : (net.timedOut s now) (!s) = net !s := put_not
  rw [step, step, hget, hself, hnot, checkTimeouts_hdlc]
  congr 1
  funext r
  obtain ⟨fd, out⟩ := r
  dsimp only
  rw [timedOut, put_put]

theorem transfer_timedOut {s : Bool} {now : Instant}
    (h : ((net s).station.checkTimeouts now).Quiet now) (now' : Instant) (room : ℕ) :
    (net.timedOut s now).transfer s now now' room = net.transfer s now now' room := by
  have hget : ((net.timedOut s now) s).station.getTxData now room 0 =
      (net s).station.getTxData now room 0 := by
    rw [timedOut, put_self, TinyFd.getTxData, checkTimeouts_quiet h, TinyFd.getTxData]
  rw [transfer, transfer, step_timedOut h, emitted, emitted, hget]

theorem Still.timedOut (h : Still net) (s : Bool) (now : Instant) : Still (net.timedOut s now) := by
  have hhdlc := checkTimeouts_hdlc (net s).station now
  refine ⟨?_, ?_, both s ?_ ?_, both s ?_ ?_⟩
  · exact h.linked.put (wellFormed_checkTimeouts (h.linked.wf s) now) (setup_checkTimeouts ..)
      (by rw [hhdlc])
  · intro t
    have hout :=
      @outlook_put net s { net s with station := (net s).station.checkTimeouts now } hhdlc rfl rfl t
    rw [Net.timedOut, hout]
    exact h.settled t
  · rw [Net.timedOut, put_self]
    dsimp only
    rw [hhdlc, h.idle]
  · rw [Net.timedOut, put_not]
    exact h.idle _
  · rw [Net.timedOut, put_self]
    exact h.channel s
  · rw [Net.timedOut, put_not]
    exact h.channel _

structure Kept (fd₀ fd : TinyFd) : Prop where
  wf : WellFormed fd
  setup : fd.setup = fd₀.setup
  crcType : fd.hdlc.crcType = fd₀.hdlc.crcType

theorem Kept.step {fd₀ fd fd' : TinyFd} (h : Kept fd₀ fd) {op : TinyFd.Op}
    (hs : fd.step op = some fd') : Kept fd₀ fd' :=
  ⟨wellFormed_step h.wf hs, (setup_step h.wf hs).trans h.setup,
    (crcType_step h.wf hs).trans h.crcType⟩

/-- Station `a` may send a frame, and the other one may answer it. -/
def pass (room : ℕ) (a : Bool) (net : Net) (clock : ℕ → Instant) : Option Net :=
  (net.transfer a (clock 0) (clock 1) room).bind fun (net₁, _) ↦
    (net₁.transfer (!a) (clock 2) (clock 3) room).map Prod.fst

/-- The timers of the other station do not run out. -/
def Answers (room : ℕ) (a : Bool) (net : Net) (clock : ℕ → Instant) : Prop :=
  ∀ r ∈ net.transfer a (clock 0) (clock 1) room, (r.1 !a).station.Quiet (clock 2)

/-- No timer runs out in the pass. -/
def Calm (room : ℕ) (a : Bool) (net : Net) (clock : ℕ → Instant) : Prop :=
  (net a).station.Quiet (clock 0) ∧ Answers room a net clock

instance (room : ℕ) (a : Bool) (net : Net) (clock : ℕ → Instant) :
    Decidable (Answers room a net clock) := by
  unfold Answers
  infer_instance

instance (room : ℕ) (a : Bool) (net : Net) (clock : ℕ → Instant) :
    Decidable (Calm room a net clock) := by
  unfold Calm
  infer_instance

/-- Station `a` repeats what the other one has read already. The other one has
asked for payload `r`, and waits for it in silence. -/
structure Behind (addr : UInt8) (old acc : Bool → List Bytes) (a : Bool) (c n r : ℕ)
    (net : Net) : Prop where
  still : Still net
  self : Level addr (old a) (acc !a) (acc a) c n (acc !a).length [] (net a).station
  other : Level addr (old !a) (acc a) (acc !a) (acc !a).length (acc !a).length r [] (net !a).station
  asked : ((net !a).station.peer 0).sentReject = true
  le : c ≤ n ∧ n ≤ r ∧ r ≤ (acc a).length

section Pass

variable {clock : ℕ → Instant} {n : ℕ} {net₀ : Net}

theorem transfer_nothing {s : Bool} {k m : ℕ} (h : Still net)
    (hself : Level addr (old s) (acc !s) (acc s) m k r [] (net s).station) (hm : m ≤ k)
    (hk : k = (acc s).length) {now now' : Instant} (hquiet : (net s).station.Quiet now) :
    ∃ net' out ll ll', net.transfer s now now' room = some (net', out) ∧ Still net' ∧
      (net' s).station = (net s).station.withHdlc ll ∧
      (net' !s).station = (net !s).station.withHdlc ll' := by
  have hcases := hself.generateTxFrames hm hk.le (h.linked.one s) (h.idle s) (Nat.zero_le 1) now
  rcases hcases with ⟨-, -, hh, hsame⟩ | ⟨ack, hw, -⟩ | ⟨-, hlt, -⟩
  · have hfits : ∀ data, handed (net s).station ((net s).station.generateTxFrames now) = some data →
        (wireFrame (net s).station.hdlc.crcType data).length ≤ room :=
          fun data hd ↦ by rw [hh] at hd; cases hd
    obtain ⟨net', out, ll, ll', htransfer, hstill, -, hst, hother⟩ :=
      transfer_spec h now' (checkTimeouts_quiet hquiet) hfits
    rw [hh] at hother
    rw [hsame] at hst
    exact ⟨net', out, ll, ll', htransfer, hstill, hst, hother⟩
  · cases hw
  · omega

theorem transfer_data {s : Bool} {k m m' : ℕ} (h : Still net)
    (hroom : ∀ data, data.length ≤ (net s).station.mtu + 2 →
      (wireFrame (net s).station.hdlc.crcType data).length ≤ room)
    (hself : Level addr (old s) (acc !s) (acc s) m k m' [] (net s).station) (hm : m ≤ k)
      (hk : k < (acc s).length)
    {now : Instant} (now' : Instant) (hquiet : (net s).station.Quiet now) :
    ∃ net' out ll, net.transfer s now now' room = some (net', out) ∧ Still net' ∧
      Level addr (old s) (acc !s) (acc s) m (k + 1) m' [] (net' s).station ∧
      (net' !s).station =
        ((net !s).station.onFrameReceived now' ((Wire.data k m').bytes addr (acc s))).withHdlc
          ll := by
  have hcases := hself.generateTxFrames hm hk.le (h.linked.one s) (h.idle s) (Nat.zero_le 1) now
  rcases hcases with ⟨-, hno, -⟩ | ⟨ack, hw, -⟩ | ⟨-, -, hh, hl⟩
  · omega
  · cases hw
  · obtain ⟨net', out, ll, ll', htransfer, hstill, -, hst, hother⟩ :=
      transfer_spec h now' (checkTimeouts_quiet hquiet)
        (fun data hd ↦ hroom data (handed_fits (h.linked.wf s) now hd).2)
    have hwf := hstill.linked.wf s
    rw [hst] at hwf
    rw [hh] at hother
    refine ⟨net', out, ll', htransfer, hstill, ?_, hother⟩
    rw [hst]
    exact hl.withHdlc hwf

theorem pass_keeps {P : Bool → TinyFd → Prop}
    (hP : ∀ s fd op fd', P s fd → TinyFd.step fd op = some fd' → P s fd')
    (h : ∀ s, P s (net s).station) (hpass : pass room a net clock = some net') :
    ∀ s, P s (net' s).station := by
  obtain ⟨⟨net₁, out₁⟩, ht₁, hpass⟩ := Option.bind_eq_some_iff.mp hpass
  obtain ⟨⟨net₂, out₂⟩, ht₂, rfl⟩ := Option.map_eq_some_iff.mp hpass
  exact transfer_keeps hP (transfer_keeps hP h ht₁) ht₂

variable (hroom : ∀ s (data : Bytes), data.length ≤ (net₀ s).station.mtu + 2 →
    (wireFrame (net₀ s).station.hdlc.crcType data).length ≤ room)
  (hkept : ∀ s, Kept (net₀ s).station (net s).station)
include hroom hkept

theorem room_kept (s : Bool) (data : Bytes) (hlen : data.length ≤ (net s).station.mtu + 2) :
    (wireFrame (net s).station.hdlc.crcType data).length ≤ room := by
  rw [(hkept s).crcType]
  apply hroom
  rwa [← show (net s).station.mtu = (net₀ s).station.mtu from congrArg Setup.mtu (hkept s).setup]

theorem Behind.again (h : Behind addr old acc a c n r net) (hn : n < r)
    (hcalm : Calm room a net clock) :
    ∃ net', pass room a net clock = some net' ∧ Behind addr old acc a c (n + 1) r net' := by
  obtain ⟨hquiet, hreply⟩ := hcalm
  obtain ⟨hc, -, hr⟩ := h.le
  obtain ⟨net₁, out₁, ll, ht₁, hstill₁, hself₁, hother₁⟩ :=
    transfer_data h.still (room_kept hroom hkept a) h.self hc (hn.trans_le hr) (clock 1) hquiet
  have hto := h.still.linked.addressed !a
  rw [h.other.address] at hto
  have hwindow := h.self.sends.window
  obtain ⟨hlevel, hasked⟩ := h.other.receive_refused hto (clock 1) le_rfl le_rfl (k := n) (by omega)
  rw [if_pos h.asked] at hlevel
  have hwf₁ := hstill₁.linked.wf !a
  rw [hother₁] at hwf₁
  have hlevel₁ := hlevel.withHdlc hwf₁
  rw [← hother₁] at hlevel₁
  have hquiet₁ := hreply _ ht₁
  obtain ⟨net₂, out₂, ll₂, ll₂', ht₂, hstill₂, hst₂, hother₂⟩ :=
    @transfer_nothing net₁ room addr old acc r (!a) _ _ hstill₁ (by rwa [Bool.not_not]) le_rfl
      rfl _ (clock 3) hquiet₁
  rw [Bool.not_not] at hother₂
  have hwfa := hstill₂.linked.wf a
  rw [hother₂] at hwfa
  have hwfo := hstill₂.linked.wf !a
  rw [hst₂] at hwfo
  refine ⟨net₂, by rw [pass, ht₁, Option.bind_some]; dsimp only; rw [ht₂]; rfl, hstill₂, ?_,
    ?_, ?_, by omega⟩
  · rw [hother₂]
    exact hself₁.withHdlc hwfa
  · rw [hst₂]
    exact hlevel₁.withHdlc hwfo
  · rw [hst₂, hother₁]
    exact hasked

theorem Behind.next (h : Behind addr old acc a c r r net) (hr : r < (acc a).length)
    (hcalm : Calm room a net clock) : ∃ net' n waiting, pass room a net clock = some net' ∧
    Lockstep addr old acc n a waiting net' ∧
      work acc n waiting < 2 * ((acc a).length - r) := by
  obtain ⟨hquiet, hreply⟩ := hcalm
  obtain ⟨net₁, out₁, ll, ht₁, hstill₁, hself₁, hother₁⟩ :=
    transfer_data h.still (room_kept hroom hkept a) h.self h.le.1 hr (clock 1) hquiet
  have hto := h.still.linked.addressed !a
  rw [h.other.address] at hto
  have hlevel := h.other.receive_data hto (clock 1) le_rfl le_rfl hr
  have hwf₁ := hstill₁.linked.wf !a
  rw [hother₁] at hwf₁
  have hlevel₁ := hlevel.withHdlc hwf₁
  rw [← hother₁] at hlevel₁
  have hlock : Lockstep addr old acc (ends a (r + 1) (acc !a).length) (!a)
      [(false, r + 1)] net₁ := by
    refine ⟨hstill₁, ?_, ?_, .inr ?_, both a ?_ ?_⟩
    · rw [Bool.not_not, ends_self, ends_not]
      exact hlevel₁
    · rw [Bool.not_not, ends_self, ends_not]
      exact ⟨c, by have hle := h.le; omega, hself₁, fun hnil ↦ absurd hnil (List.cons_ne_nil _ _)⟩
    · rw [Bool.not_not, ends_self]
    · rw [ends_self]
      exact hr
    · rw [ends_not]
  have hkept₁ := transfer_keeps (P := fun s fd ↦ Kept (net₀ s).station fd)
    (fun _ _ _ _ hl hs ↦ hl.step hs) hkept ht₁
  obtain ⟨net₂, out₂, n, waiting, ht₂, hlock₂, hwork⟩ :=
    lockstep_transfer hlock (clock 3) (hreply _ ht₁) (room_kept hroom hkept₁ !a)
  rw [Bool.not_not] at hlock₂
  refine ⟨net₂, n, waiting, by rw [pass, ht₁, Option.bind_some]; dsimp only; rw [ht₂]; rfl, hlock₂,
    ?_⟩
  rcases hwork with ⟨-, hnil, -⟩ | ⟨-, hlt⟩
  · cases hnil
  · refine hlt.trans ?_
    rw [work]
    cases a
    · rw [ends_self, show ends false (r + 1) (acc !false).length true =
        (acc true).length from ends_not ..]
      simp only [List.length_singleton]
      omega
    · rw [ends_self, show ends true (r + 1) (acc !true).length false =
        (acc false).length from ends_not ..]
      simp only [List.length_singleton]
      omega

omit hroom hkept in
theorem Behind.stuck (h : Behind addr old acc a c r r net) (hr : r = (acc a).length)
    (hcalm : Calm room a net clock) : ∃ net', pass room a net clock = some net' ∧
    Behind addr old acc a c r r net' := by
  obtain ⟨hquiet, hreply⟩ := hcalm
  obtain ⟨net₁, out₁, ll, ll', ht₁, hstill₁, hst₁, hother₁⟩ :=
    @transfer_nothing net room addr old acc _ a r c h.still h.self h.le.1 hr _ (clock 1) hquiet
  have hwf₁ := hstill₁.linked.wf
  have hself₁ := h.self.withHdlc (hst₁ ▸ hwf₁ a)
  have hlevel₁ := h.other.withHdlc (hother₁ ▸ hwf₁ !a)
  rw [← hst₁] at hself₁
  rw [← hother₁] at hlevel₁
  obtain ⟨net₂, out₂, ll₂, ll₂', ht₂, hstill₂, hst₂, hother₂⟩ :=
    @transfer_nothing net₁ room addr old acc r (!a) _ _ hstill₁ (by rwa [Bool.not_not]) le_rfl
      rfl _ (clock 3) (hreply _ ht₁)
  rw [Bool.not_not] at hother₂
  have hwf₂ := hstill₂.linked.wf
  refine ⟨net₂, by rw [pass, ht₁, Option.bind_some]; dsimp only; rw [ht₂]; rfl, hstill₂,
    ?_, ?_, ?_, h.le⟩
  · rw [hother₂]
    exact hself₁.withHdlc (hother₂ ▸ hwf₂ a)
  · rw [hst₂]
    exact hlevel₁.withHdlc (hst₂ ▸ hwf₂ !a)
  · rw [hst₂, hother₁]
    exact h.asked

/-- The first payload that the other side has read already makes it ask for the one
that it has not. -/
theorem pass_rejected (h : Still net)
    (hself : Level addr (old a) (acc !a) (acc a) c c (acc !a).length [] (net a).station)
    (hother : Level addr (old !a) (acc a) (acc !a) (acc !a).length (acc !a).length r []
      (net !a).station)
    (hasked : ((net !a).station.peer 0).sentReject = false) (hc : c < r) (hr : r ≤ (acc a).length)
    (hcalm : Calm room a net clock) :
    ∃ net', pass room a net clock = some net' ∧
      Lockstep addr old acc (ends a r (acc !a).length) a [] net' := by
  obtain ⟨hquiet, hreply⟩ := hcalm
  obtain ⟨net₁, out₁, ll, ht₁, hstill₁, hself₁, hother₁⟩ :=
    transfer_data h (room_kept hroom hkept a) hself le_rfl (hc.trans_le hr) (clock 1) hquiet
  have hto := h.linked.addressed !a
  rw [hother.address] at hto
  have hwindow := hself.sends.window
  obtain ⟨hlevel, -⟩ := hother.receive_refused hto (clock 1) le_rfl le_rfl (k := c) (by omega)
  rw [if_neg (by rw [hasked]; decide)] at hlevel
  have hlevel₁ := hlevel.withHdlc (hother₁ ▸ hstill₁.linked.wf !a)
  rw [← hother₁] at hlevel₁
  have hkept₁ := transfer_keeps (P := fun s fd ↦ Kept (net₀ s).station fd)
    (fun _ _ _ _ hl hs ↦ hl.step hs) hkept ht₁
  have hturn :=
    hlevel₁.generateTxFrames le_rfl le_rfl (hstill₁.linked.one !a)
      (hstill₁.idle !a) le_rfl (clock 2)
  rcases hturn with ⟨hw, -⟩ | ⟨ack, hw, hh, hl⟩ | ⟨hw, -⟩
  · cases hw
  · obtain rfl := List.singleton_inj.mp hw
    obtain ⟨net₂, out₂, ll₂, ll₂', ht₂, hstill₂, -, hst₂, hother₂⟩ :=
      transfer_spec hstill₁ (clock 3) (checkTimeouts_quiet (hreply _ ht₁))
        (fun data hd ↦ room_kept hroom hkept₁ _ data
          (handed_fits (hstill₁.linked.wf !a) (clock 2) hd).2)
    rw [Bool.not_not, hh] at hother₂
    have hback := h.linked.addressed a
    rw [hself.address] at hback
    have hto₁ := hstill₁.linked.addressed a
    rw [hself₁.address] at hto₁
    have hset := hself₁.receive_reject hto₁ (clock 3) hc.le hr (acc !a)
    refine ⟨net₂, by rw [pass, ht₁, Option.bind_some]; dsimp only; rw [ht₂]; rfl, hstill₂, ?_, ?_,
      .inl rfl, both a ?_ ?_⟩
    · rw [ends_self, ends_not, hother₂]
      exact hset.withHdlc (hother₂ ▸ hstill₂.linked.wf a)
    · rw [ends_self, ends_not]
      refine ⟨_, le_rfl, ?_, fun _ ↦ rfl⟩
      rw [hst₂]
      exact hl.withHdlc (hst₂ ▸ hstill₂.linked.wf !a)
    · rw [ends_self]
      exact hr
    · rw [ends_not]
  · cases hw

theorem lockstep_pass {n : Bool → ℕ} {waiting : List (Bool × ℕ)}
    (h : Lockstep addr old acc n a waiting net) (hcalm : Calm room a net clock) :
    ∃ net' n' waiting', pass room a net clock = some net' ∧
    Lockstep addr old acc n' a waiting' net' ∧
      (work acc n' waiting' < work acc n waiting ∨ work acc n waiting = 0 ∧
        work acc n' waiting' = 0) := by
  obtain ⟨hquiet, hreply⟩ := hcalm
  obtain ⟨net₁, out₁, n₁, waiting₁, ht₁, h₁, hwork₁⟩ :=
    lockstep_transfer h (clock 1) hquiet (room_kept hroom hkept a)
  have hkept₁ := transfer_keeps (P := fun s fd ↦ Kept (net₀ s).station fd)
    (fun _ _ _ _ hl hs ↦ hl.step hs) hkept ht₁
  obtain ⟨net₂, out₂, n₂, waiting₂, ht₂, h₂, hwork₂⟩ :=
    lockstep_transfer h₁ (clock 3) (hreply _ ht₁) (room_kept hroom hkept₁ !a)
  rw [Bool.not_not] at h₂
  refine ⟨net₂, n₂, waiting₂, by rw [pass, ht₁, Option.bind_some]; dsimp only; rw [ht₂]; rfl, h₂,
    ?_⟩
  rcases hwork₁ with ⟨-, hw, hn, rfl, rfl⟩ | ⟨-, hlt₁⟩ <;>
    rcases hwork₂ with ⟨-, hw', hn', rfl, rfl⟩ | ⟨-, hlt₂⟩
  · right
    have hall : ∀ t, n₂ t = (acc t).length := both a hn hn'
    rw [hw, work, hall, hall, Nat.sub_self, Nat.sub_self]
    exact ⟨rfl, rfl⟩
  · left
    rwa [hw]
  · left
    rwa [← hw']
  · exact .inl (hlt₂.trans hlt₁)

omit hroom hkept in
theorem Lockstep.rest {n : Bool → ℕ} {waiting : List (Bool × ℕ)}
    (h : Lockstep addr old acc n a waiting net) (hwork : work acc n waiting = 0) :
    Rest addr old acc net := by
  rw [work, Nat.add_eq_zero_iff, List.length_eq_zero_iff] at hwork
  obtain ⟨hsum, rfl⟩ := hwork
  have hall : ∀ t, n t = (acc t).length := by
    have hle := h.le
    refine both true ?_ ?_
    · have htrue := hle true
      omega
    · have hfalse := hle false
      rw [Bool.not_true]
      omega
  obtain ⟨c, -, hother, hc⟩ := h.other
  obtain rfl := hc rfl
  have hself := h.self
  rw [hall, hall] at hself hother
  refine ⟨h.still, both a hself ?_⟩
  rwa [Bool.not_not]

end Pass

inductive Recovering (addr : UInt8) (old acc : Bool → List Bytes) (a : Bool) (net : Net) : ℕ → Prop
  | agreed {n : Bool → ℕ} {waiting : List (Bool × ℕ)} : Lockstep addr old acc n a waiting net →
      Recovering addr old acc a net (work acc n waiting)
  | behind {c n r : ℕ} : Behind addr old acc a c n r net → r < (acc a).length →
      Recovering addr old acc a net (r - n + 2 * ((acc a).length - r))

section Run

variable {net₀ : Net}
  (hroom : ∀ s (data : Bytes), data.length ≤ (net₀ s).station.mtu + 2 →
    (wireFrame (net₀ s).station.hdlc.crcType data).length ≤ room)
include hroom

theorem recovering_pass {k : ℕ} {clock : ℕ → Instant}
    (hkept : ∀ s, Kept (net₀ s).station (net s).station) (h : Recovering addr old acc a net k)
    (hcalm : Calm room a net clock) :
    ∃ net' k', pass room a net clock = some net' ∧ Recovering addr old acc a net' k' ∧
    (k' < k ∨ k = 0 ∧ k' = 0) := by
  cases h with
  | agreed h =>
    obtain ⟨net', n', waiting', hpass, h', hwork⟩ := lockstep_pass hroom hkept h hcalm
    exact ⟨net', _, hpass, .agreed h', hwork⟩
  | @behind c n r h hr =>
    rcases h.le.2.1.lt_or_eq with hlt | rfl
    · obtain ⟨net', hpass, h'⟩ := h.again hroom hkept hlt hcalm
      exact ⟨net', _, hpass, .behind h' hr, .inl (by omega)⟩
    · obtain ⟨net', n', waiting, hpass, h', hwork⟩ := h.next hroom hkept hr hcalm
      exact ⟨net', _, hpass, .agreed h', .inl (by omega)⟩

theorem recovering_run {k : ℕ} {clocks : List (ℕ → Instant)}
    (hkept : ∀ s, Kept (net₀ s).station (net s).station) (h : Recovering addr old acc a net k)
    (hk : k ≤ clocks.length) (hcalm : EachStep (pass room a) (Calm room a) net clocks) :
    ∃ net', run (pass room a) net clocks = some net' ∧ Rest addr old acc net' := by
  induction clocks generalizing net k with
  | nil =>
    obtain rfl := Nat.le_zero.mp hk
    generalize hz : (0 : ℕ) = k at h
    cases h with
    | agreed h => exact ⟨net, rfl, h.rest hz.symm⟩
    | behind h hr => omega
  | cons clock clocks ih =>
    obtain ⟨net₁, k₁, hpass, h₁, hless⟩ := recovering_pass hroom hkept h hcalm.1
    have hkept₁ := pass_keeps (P := fun s fd ↦ Kept (net₀ s).station fd)
      (fun _ _ _ _ hl hs ↦ hl.step hs) hkept hpass
    rw [List.length_cons] at hk
    obtain ⟨net', hrun, hrest⟩ := ih hkept₁ h₁ (by omega) (hcalm.2 net₁ hpass)
    exact ⟨net', run_cons.mpr ⟨net₁, hpass, hrun⟩, hrest⟩

/-- A station whose REJ got lost after the last payload never speaks again. -/
theorem stuck_run {n : ℕ} {clocks : List (ℕ → Instant)}
    (hkept : ∀ s, Kept (net₀ s).station (net s).station)
    (h : Behind addr old acc a c n (acc a).length net)
    (hcalm : EachStep (pass room a) (Calm room a) net clocks) :
    ∃ net' n', run (pass room a) net clocks = some net' ∧
    Behind addr old acc a c n' (acc a).length net' := by
  induction clocks generalizing net n with
  | nil => exact ⟨net, n, rfl, h⟩
  | cons clock clocks ih =>
    obtain ⟨net₁, n₁, hpass, h₁⟩ : ∃ net₁ n₁, pass room a net clock = some net₁ ∧
        Behind addr old acc a c n₁ (acc a).length net₁ := by
      rcases h.le.2.1.lt_or_eq with hlt | rfl
      · obtain ⟨net₁, hpass, h₁⟩ := h.again hroom hkept hlt hcalm.1
        exact ⟨net₁, _, hpass, h₁⟩
      · obtain ⟨net₁, hpass, h₁⟩ := h.stuck rfl hcalm.1
        exact ⟨net₁, _, hpass, h₁⟩
    have hkept₁ := pass_keeps (P := fun s fd ↦ Kept (net₀ s).station fd)
      (fun _ _ _ _ hl hs ↦ hl.step hs) hkept hpass
    obtain ⟨net', n', hrun, h'⟩ := ih hkept₁ h₁ (hcalm.2 net₁ hpass)
    exact ⟨net', n', run_cons.mpr ⟨net₁, hpass, hrun⟩, h'⟩

omit hroom in
theorem Rest.read (h : Rest addr old acc net) (s : Bool) :
    (net s).station.reads = old s ++ acc (!s) ∧
      ((net s).station.peer 0).iQueueControl.hasUnconfirmedFrames = false := by
  have hlevel := h.level s
  have hreads := hlevel.reads
  rw [List.take_length] at hreads
  refine ⟨hreads, ?_⟩
  rw [IQueueControl.hasUnconfirmedFrames, hlevel.sends.confirmNs, hlevel.sends.lastNs,
    bne_self_eq_false]

theorem start_over {first : ℕ → Instant} {clocks : List (ℕ → Instant)}
    (hkept : ∀ s, Kept (net₀ s).station (net s).station) (h : Still net)
    (hself : Level addr (old a) (acc !a) (acc a) c c (acc !a).length [] (net a).station)
    (hother : Level addr (old !a) (acc a) (acc !a) (acc !a).length (acc !a).length r []
      (net !a).station)
    (hc : c ≤ r) (hr : r ≤ (acc a).length) (hpending : c ≠ (acc a).length)
      (hlong : 14 ≤ clocks.length)
    (hcalm : EachStep (pass room a) (Calm room a) net (first :: clocks)) :
    ∃ net', run (pass room a) net (first :: clocks) = some net' ∧
      (net' !a).station.reads = old (!a) ++ acc a ∧
      (((net' a).station.peer 0).iQueueControl.hasUnconfirmedFrames = false ↔
        ¬ (((net !a).station.peer 0).sentReject = true ∧ r = (acc a).length)) := by
  have hwindow := hself.sends.window
  by_cases hstuck : ((net !a).station.peer 0).sentReject = true ∧ r = (acc a).length
  · obtain ⟨hasked, rfl⟩ := hstuck
    obtain ⟨net', n', hrun, h'⟩ :=
      stuck_run hroom hkept ⟨h, hself, hother, hasked, le_rfl, hc, hr⟩ hcalm
    have hreads := h'.other.reads
    rw [List.take_length] at hreads
    refine ⟨net', hrun, hreads, iff_of_false ?_ (not_not_intro ⟨hasked, rfl⟩)⟩
    rw [IQueueControl.hasUnconfirmedFrames, h'.self.sends.confirmNs, h'.self.sends.lastNs,
      bne_eq_false_iff_eq]
    exact fun hseq ↦ hpending (seq_inj hseq (by omega) (by omega))
  have hend : (∃ net', run (pass room a) net (first :: clocks) = some net' ∧
      Rest addr old acc net') →
      ∃ net', run (pass room a) net (first :: clocks) = some net' ∧
      (net' !a).station.reads = old (!a) ++ acc a ∧
        (((net' a).station.peer 0).iQueueControl.hasUnconfirmedFrames = false ↔
          ¬ (((net !a).station.peer 0).sentReject = true ∧ r = (acc a).length)) := by
    rintro ⟨net', hrun, hrest⟩
    have hreads := (hrest.read !a).1
    rw [Bool.not_not] at hreads
    exact ⟨net', hrun, hreads, iff_of_true (hrest.read a).2 hstuck⟩
  apply hend
  have hagreed : work acc (ends a r (acc !a).length) [] = 2 * ((acc a).length - r) := by
    rw [work]
    cases a
    · rw [ends_self, show ends false r (acc !false).length true =
        (acc true).length from ends_not .., Nat.sub_self]
      simp
    · rw [ends_self, show ends true r (acc !true).length false =
        (acc false).length from ends_not .., Nat.sub_self]
      simp
  rcases hc.lt_or_eq with hlt | rfl
  · cases hflag : ((net !a).station.peer 0).sentReject with
    | true =>
      have hless : r < (acc a).length := by
        rw [hflag] at hstuck
        exact lt_of_le_of_ne hr fun he ↦ hstuck ⟨rfl, he⟩
      exact recovering_run hroom hkept (.behind ⟨h, hself, hother, hflag, le_rfl, hc, hr⟩ hless)
        (by rw [List.length_cons]; omega) hcalm
    | false =>
      obtain ⟨net₁, hpass, hlock⟩ := pass_rejected hroom hkept h hself hother hflag hlt hr hcalm.1
      have hkept₁ :=
        pass_keeps (P := fun s fd ↦ Kept (net₀ s).station fd)
          (fun _ _ _ _ hl hs ↦ hl.step hs) hkept hpass
      obtain ⟨net', hrun, hrest⟩ :=
        recovering_run hroom hkept₁ (.agreed hlock) (by rw [hagreed]; omega) (hcalm.2 net₁ hpass)
      exact ⟨net', run_cons.mpr ⟨net₁, hpass, hrun⟩, hrest⟩
  · have hlock : Lockstep addr old acc (ends a c (acc !a).length) a [] net := by
      refine ⟨h, ?_, ?_, .inl rfl, both a ?_ ?_⟩
      · rw [ends_self, ends_not]
        exact hself
      · rw [ends_self, ends_not]
        exact ⟨_, le_rfl, hother, fun _ ↦ rfl⟩
      · rw [ends_self]
        exact hr
      · rw [ends_not]
    exact recovering_run hroom hkept (.agreed hlock)
      (by rw [hagreed, List.length_cons]; omega) hcalm

end Run

theorem reachable_session {config : Bool → TinyFdConfig} {ops : List Op}
    (hr : ∀ s, Reachable (config s) (net s).station)
    (hrun : run sessionStep net ops = some net') (s : Bool) :
    Reachable (config s) (net' s).station := by
  refine run_invariant (P := fun net : Net ↦ ∀ s, Reachable (config s) (net s).station) ?_ hr
    (EachStep.trivial _ ops) hrun s
  intro net op net' h _ hs
  rw [sessionStep, Option.filter_eq_some_iff] at hs
  exact reachable_step h hs.1

theorem level_of_tracks {net₀ : Net} {h : History}
    (ht : Tracks addr (fun s ↦ (net₀ s).station.reads) h net.frames)
    (hsafe : ∀ s, (h.stream s).Safe 7) (hqueue : ∀ s, (net s).station.frames.sQueue.held = [])
    (s : Bool) {n : ℕ} (hn : ((net s).station.peer 0).iQueueControl.txState.nextNs = seq n) :
    Level addr (net₀ s).station.reads (net !s).accepted (net s).accepted (h.stream s).confirmed n
      (h.stream !s).delivered.length [] (net s).station := by
  have hself := ht.shows s
  have haccepted : ∀ s, (net s).accepted = (h.stream s).accepted := fun s ↦ (ht.shows s).accepted
  have hprefix := (hsafe !s).delivered
  refine ⟨hself.address, ?_, hn, hself.nextNr, ?_, FrameQueue.queues_nil (hqueue s)⟩
  · rw [haccepted]
    exact hself.sends
  · rw [haccepted, ← List.prefix_iff_eq_take.mp hprefix]
    exact hself.reads

/-- After any session, with whatever losses, that has come to a halt with payloads of
station `a` not confirmed, its retry timer brings over all that is missing. It
learns so, unless the other station has read everything and its REJ got lost: that
station does not repeat its REJ, and nothing else is left to answer. -/
theorem timeout_recovers {config : Bool → TinyFdConfig} (hp : Pair config) {net₀ : Net}
    (hr : ∀ s, Reachable (config s) (net₀ s).station) (hj : net₀.JustConnected) {ops : List Op}
    (htransfers : ∀ op ∈ ops, op.Transfers) (horder : EachStep sessionStep OldestFirst net₀ ops)
    (hrun : run sessionStep net₀ ops = some net) (hidle : ∀ s, (net s).station.hdlc.txData = none)
    (hchannel : ∀ s, (net s).inbox = []) (hqueue : ∀ s, (net s).station.frames.sQueue.held = [])
    (hother : ((net !a).station.peer 0).iQueueControl.hasUnconfirmedFrames = false ∧
      ((net !a).station.peer 0).iQueueControl.allFramesAreSent = true)
    (hroom : ∀ s (data : Bytes), data.length ≤ (net s).station.mtu + 2 →
      (wireFrame (net s).station.hdlc.crcType data).length ≤ room) {first : ℕ → Instant}
    (hdue : (net a).station.retryDue 0 (first 0)) (hfirst : Answers room a net first)
      {clocks : List (ℕ → Instant)}
    (hlong : 14 ≤ clocks.length)
    (hcalm : ∀ net₁, net.pass room a first = some net₁ →
      EachStep (pass room a) (Calm room a) net₁ clocks) :
    ∃ net', run (pass room a) net (first :: clocks) = some net' ∧
      (net' !a).station.reads = (net₀ !a).station.reads ++ (net a).accepted ∧
      (((net' a).station.peer 0).iQueueControl.hasUnconfirmedFrames = false ↔
        ¬ (((net !a).station.peer 0).sentReject = true ∧
          ((net !a).station.peer 0).iQueueControl.rxState.nextNr =
            ((net a).station.peer 0).iQueueControl.txState.lastNs)) := by
  have hl₀ := linked_of_reachable hp hr
  obtain ⟨hl, ha, h, ht, hsafe⟩ :=
    (tracked_session hl₀ hj.settled (tracked_start hl₀ hj) htransfers horder).of_run hrun
  generalize (net₀ true).station.addrField 0 = addr at ht
  have hr' := reachable_session hr hrun
  have hstill : Still net := ⟨hl, ha, hidle, hchannel⟩
  have hzero : ∀ s, 0 < (net s).station.peerMgr.peers.length :=
    fun s ↦ by rw [hl.one s]; exact Nat.one_pos
  have hcounts : ∀ s, (h.stream s).confirmed ≤ (h.stream s).delivered.length ∧
      (h.stream s).delivered.length ≤ (net s).accepted.length ∧
      (net s).accepted.length ≤ (h.stream s).confirmed + 7 := by
    intro s
    rw [show (net s).accepted = (h.stream s).accepted from (ht.shows s).accepted]
    exact ⟨(hsafe s).confirmed, (hsafe s).delivered.length_le, (hsafe s).window⟩
  obtain ⟨k, hk⟩ := exists_seq_of_lt ((hl.wf a).counters 0 (hzero a)).next
  have hlevel := level_of_tracks ht hsafe hqueue a hk
  have hback : Level addr (net₀ !a).station.reads (net a).accepted (net !a).accepted
      (net !a).accepted.length (net !a).accepted.length (h.stream a).delivered.length []
        (net !a).station ∧
      (h.stream !a).delivered.length = (net !a).accepted.length := by
    obtain ⟨k', hk'⟩ := exists_seq_of_lt ((hl.wf !a).counters 0 (hzero !a)).next
    have hlevel' := level_of_tracks ht hsafe hqueue (!a) hk'
    have hconf := hother.1
    have hsent := hother.2
    rw [IQueueControl.hasUnconfirmedFrames, hlevel'.sends.confirmNs, hlevel'.sends.lastNs,
      bne_eq_false_iff_eq] at hconf
    rw [IQueueControl.allFramesAreSent, hlevel'.sends.lastNs, beq_iff_eq] at hsent
    have hcount := hcounts !a
    have hall := seq_inj hconf (by omega) (by omega)
    have hlevel'' := level_of_tracks ht hsafe hqueue (!a) hsent
    rw [Bool.not_not, hall] at hlevel''
    exact ⟨hlevel'', by omega⟩
  obtain ⟨hback, hread⟩ := hback
  rw [hread] at hlevel
  have hcount := hcounts a
  generalize (h.stream a).confirmed = c at hlevel hcount
  generalize (h.stream a).delivered.length = r at hback hcount
  have hpending : c ≠ (net a).accepted.length := by
    have hun := hdue.2.1
    rw [IQueueControl.hasUnconfirmedFrames, hlevel.sends.confirmNs, hlevel.sends.lastNs] at hun
    rintro rfl
    simp at hun
  have hlast : ((net !a).station.peer 0).iQueueControl.rxState.nextNr =
      ((net a).station.peer 0).iQueueControl.txState.lastNs ↔ r = (net a).accepted.length := by
    rw [hback.nextNr, hlevel.sends.lastNs]
    exact ⟨fun he ↦ seq_inj he (by omega) (by omega), fun he ↦ by rw [he]⟩
  rw [hlast]
  have hquiet := quiet_rewound (hr' a) (hl.one a) hdue
  have hpass : net.pass room a first = (net.timedOut a (first 0)).pass room a first := by
    rw [pass, pass, transfer_timedOut hquiet]
  have hstill' := hstill.timedOut a (first 0)
  have hself : ((net.timedOut a (first 0)) a).station = (net a).station.checkTimeouts
      (first 0) := by
    rw [timedOut, put_self]
  have hnot : (net.timedOut a (first 0)) (!a) = net !a := put_not
  have hlevel' := hlevel.rewind (hl.one a) hdue
  have hcalm' : EachStep (pass room a) (Calm room a) (net.timedOut a (first 0))
      (first :: clocks) := by
    refine ⟨⟨by rwa [hself], ?_⟩, fun net₁ hs ↦ hcalm net₁ (hpass.trans hs)⟩
    rw [Answers, transfer_timedOut hquiet]
    exact hfirst
  have hkept : ∀ s, Kept (net s).station ((net.timedOut a (first 0)) s).station := by
    refine both a ?_ ?_
    · rw [hself]
      exact ⟨wellFormed_checkTimeouts (hl.wf a) _,
        setup_checkTimeouts .., by rw [checkTimeouts_hdlc]⟩
    · rw [hnot]
      exact ⟨hl.wf _, rfl, rfl⟩
  have hsame : run (pass room a) net (first :: clocks) =
      run (pass room a) (net.timedOut a (first 0)) (first :: clocks) := by
    rw [run, run, hpass]
  rw [hsame]
  rw [← hself] at hlevel'
  rw [← show ((net.timedOut a (first 0)) !a).station = (net !a).station from congrArg Side.station
    hnot] at hback ⊢
  exact @start_over _ a room addr (fun s ↦ (net₀ s).station.reads) (fun s ↦ (net s).accepted) c r
    net hroom first clocks hkept hstill' hlevel' hback hcount.1 hcount.2.1 hpending hlong hcalm'

def interrupted : List Op :=
  [.sendPacket true 1 [1] 0, .sendPacket true 1 [2] 0, .getTxData true 0 9 0 false,
    .onRxData false 0 9,
    .getTxData true 0 9 0 true, .getTxData false 0 9 0 false, .onRxData true 0 9]

def silentNet : Net := (run sessionStep connectedNet interrupted).get (by decide +kernel)

def passClock (k i : ℕ) : Instant := 200000000 + 4000 * k + 1000 * i

def laterPasses : List (ℕ → Instant) := (List.range 14).map fun k ↦ passClock (k + 1)

theorem timeout_recovers_interrupted :
    ∃ net', run (pass 142 true) silentNet (passClock 0 :: laterPasses) = some net' ∧
      (net' false).station.reads = [[1], [2]] ∧
      ((net' true).station.peer 0).iQueueControl.hasUnconfirmedFrames = false := by
  have hmtu : ∀ s, (silentNet s).station.mtu = 64 := by decide +kernel
  have hroom : ∀ s (data : Bytes), data.length ≤ (silentNet s).station.mtu + 2 →
      (wireFrame (silentNet s).station.hdlc.crcType data).length ≤ 142 := by
    intro s data hlen
    have hle := HdlcLl.wireFrame_length_le (silentNet s).station.hdlc.crcType data
    rw [hmtu s] at hlen
    omega
  have hcalm : ∃ net₁, silentNet.pass 142 true (passClock 0) = some net₁ ∧
      EachStep (pass 142 true) (Calm 142 true) net₁ laterPasses := by
    refine ⟨(silentNet.pass 142 true (passClock 0)).get (by decide +kernel),
      (Option.some_get _).symm, ?_⟩
    decide +kernel
  obtain ⟨net₁, hfirst, hcalm⟩ := hcalm
  obtain ⟨net', hrun, hreads, hconfirmed⟩ :=
    @timeout_recovers silentNet true 142 plainConfig plainConfig_pair connectedNet
      (reachable_replay _) (by decide +kernel) interrupted (by decide +kernel) (by decide +kernel)
    (Option.some_get _).symm (by decide +kernel) (by decide +kernel) (by decide +kernel)
      (by decide +kernel) hroom
    (passClock 0) (by decide +kernel) (by decide +kernel) laterPasses (by decide)
    (fun net₁' h ↦ Option.some.inj (hfirst.symm.trans h) ▸ hcalm)
  refine ⟨net', hrun, hreads.trans (by decide +kernel), hconfirmed.mpr (by decide +kernel)⟩

def unheard : List Op :=
  [.sendPacket true 1 [1] 0, .getTxData true 0 9 0 false, .onRxData false 0 9,
    .getTxData false 0 9 0 true, .getTxData true 200000000 9 0 false, .onRxData false 200000000 9,
    .getTxData false 200000000 9 0 true]

/-- The second station has read everything, has no REJ left to send, and the first
one is to repeat its payload for ever. -/
example : ((run sessionStep connectedNet unheard).map fun net ↦
    ((net false).station.reads, ((net false).station.peer 0).sentReject,
      ((net false).station.peer 0).iQueueControl.rxState.nextNr ==
        ((net true).station.peer 0).iQueueControl.txState.lastNs,
      ((net true).station.peer 0).iQueueControl.hasUnconfirmedFrames)) =
        some ([[1]], true, true, true) := by
  decide +kernel

end Net

end TinyProto
