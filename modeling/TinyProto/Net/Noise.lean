import TinyProto.Net.Multidrop

namespace TinyProto

open Lib TinyFd

namespace Frames

open Side

/-- A frame that station `s` takes to be from the other one. -/
def claims (peer : Bool → ℕ) (f : Frames) (s : Bool) (frame : Bytes) : Bool :=
  (f s).station.peerMgr.addressFieldToPeer (frame.getD 0 0) == peer s

def behind : List Bytes → List Bytes → Option (List Bytes)
  | sent, [] => some sent
  | [], _ :: _ => none
  | x :: sent, frame :: arrived => if x = frame then behind sent arrived
      else behind sent (frame :: arrived)

def heard (f : Frames) (s : Bool) (data : Bytes) : List Bytes :=
  ((f s).station.decode (f s).station.hdlc.phase data).2

inductive NoisyOp
  | sendPacket (s : Bool) (address : UInt8) (data : Bytes) (timeoutMs : ℕ)
  | disconnect (s : Bool)
  | getTxData (s : Bool) (now : Instant) (room timeoutMs : ℕ)
  | onRxData (s : Bool) (now : Instant) (data : Bytes)

/-- The calls on two stations, with any bytes for `on_rx_data`. The frames on their way
are those that the framing layer at the other end has taken. -/
def noisyStep (peer : Bool → ℕ) (f : Frames) : NoisyOp → Option Frames
  | .sendPacket s address data timeoutMs => some (f.sendPacketTo peer s address data timeoutMs)
  | .disconnect s => some (f.disconnect s)
  | .getTxData s now room timeoutMs =>
    let fd := (f s).station.checkTimeouts now
    ((f s).station.getTxData now room timeoutMs).map fun (fd', _) ↦
      put (put f s { f s with station := fd' }) (!s)
        { f (!s) with inbox := (f (!s)).inbox ++ (handed fd (fd.generateTxFrames now)).toList }
  | .onRxData s now data =>
    some (put f s { f s with
      station := (f s).station.onRxData now data
      inbox := (behind (f s).inbox ((f.heard s data).filter (f.claims peer s))).getD [] })

def noisySession (peer : Bool → ℕ) (f : Frames) (op : NoisyOp) : Option Frames :=
  (f.noisyStep peer op).filter fun f' ↦ ∀ s, ((f' s).station.peer (peer s)).state = .connected

/-- Whatever has happened to the bytes, a frame that passes the check at the other end
and claims to be from the other station is one of its frames, and comes in its place. -/
def Genuine (peer : Bool → ℕ) (f : Frames) : NoisyOp → Prop
  | .sendPacket .. => True
  | .disconnect s => peer s ≠ 0
  | .getTxData s now .. =>
    let fd := (f s).station.checkTimeouts now
    fd.hdlc.txData = none → InOrder fd.frames.sQueue.frames fd.frames.sQueue.lookupIndex
  | .onRxData s _ data => (behind (f s).inbox ((f.heard s data).filter (f.claims peer s))).isSome

variable {peer : Bool → ℕ} {addr : UInt8} {old : Bool → List Bytes} {h : History}
    {f f' : Frames} {s : Bool}

theorem behind_cons {x : Bytes} {sent arrived rest : List Bytes}
    (hb : behind sent (x :: arrived) = some rest) :
    ∃ lost sent', sent = lost ++ x :: sent' ∧ behind sent' arrived = some rest := by
  induction sent with
  | nil => cases hb
  | cons y sent ih =>
    rw [behind] at hb
    by_cases hyx : y = x
    · rw [if_pos hyx] at hb
      exact ⟨[], sent, by rw [hyx]; rfl, hb⟩
    · rw [if_neg hyx] at hb
      obtain ⟨lost, sent', rfl, hb'⟩ := ih hb
      exact ⟨y :: lost, sent', rfl, hb'⟩

def withInbox (f : Frames) (s : Bool) (inbox : List Bytes) : Frames :=
  put f s { f s with inbox := inbox }

theorem withInbox_self (f : Frames) (s : Bool) (inbox : List Bytes) :
    f.withInbox s inbox s = { f s with inbox := inbox } := put_self

theorem withInbox_same {f : Frames} {s : Bool} {inbox : List Bytes} (hin : (f s).inbox = inbox) :
    f.withInbox s inbox = f := by
  refine ext_not ?_ put_not
  rw [withInbox_self, ← hin]

theorem withInbox_withInbox (f : Frames) (s : Bool) (inbox inbox' : List Bytes) :
    (f.withInbox s inbox).withInbox s inbox' = f.withInbox s inbox' := by
  rw [withInbox, withInbox_self, withInbox, put_put]
  rfl

theorem follows_inbox (ht : Follows peer addr old h f) {inbox : List Bytes}
    (hin : inbox.filter (f.claims peer s) = f.inboxFor peer s) :
    Follows peer addr old h (f.withInbox s inbox) := by
  refine ⟨ht.wired.put (ht.wired.wf s) rfl rfl, both s ?_ ?_, both s ?_ ?_, ht.flight, ht.acks⟩
  · rw [withInbox_self]
    have hs := ht.shows s
    exact ⟨hs.accepted, hs.sends, hs.nextNr, hs.reads, hs.waits⟩
  · rw [withInbox, put_not]
    exact ht.shows _
  · rw [← ht.inbox s, inboxFor, withInbox_self]
    exact hin
  · rw [@inboxFor_congr peer f _ (!s) (by rw [withInbox, put_not]) (by rw [withInbox, put_not])]
    exact ht.inbox _

theorem followed_lose (ht : Followed peer addr old f) {frame : Bytes} {rest : List Bytes}
    (hin : (f s).inbox = frame :: rest) : Followed peer addr old (f.withInbox s rest) := by
  obtain ⟨h, ht, hsafe⟩ := ht
  have hall : f.inboxFor peer s = (frame :: rest).filter (f.claims peer s) := by
    rw [inboxFor, hin]
    rfl
  by_cases hto : f.claims peer s frame = true
  · rw [List.filter_cons_of_pos hto, ht.inbox s] at hall
    obtain ⟨x, w, hwire, -, hrest⟩ := List.map_eq_cons_iff.mp hall
    have hacks := ht.acks s
    rw [hwire, List.map_cons, List.cons_append] at hacks
    have hflight := ht.flight !s
    rw [Bool.not_not, hwire] at hflight
    have hlose : Stream.Step 7 8 (h.stream s)
        { h.stream s with acks := w.map Wire.nr ++ (h.waiting !s).map Prod.snd } := by
      apply Stream.Step.lose
      rw [hacks]
      exact List.sublist_cons_self ..
    have hpass : Relation.ReflTransGen (Stream.Step 7 8) (h.stream !s)
        { h.stream (!s) with flight := w.filterMap Wire.index } := by
      cases hx : x.index with
      | none =>
        rw [List.filterMap_cons_none hx] at hflight
        rw [← hflight]
      | some n =>
        rw [List.filterMap_cons_some hx] at hflight
        exact .single (.discard hflight)
    refine followed_leads hsafe
      (follows_ends s w (h.wire !s) (h.waiting s) (h.waiting !s) ?_ ?_ ?_ ?_ ?_ ?_ ?_ ?_ ?_)
        (leads_ends (.single hlose) hpass)
    · exact ht.wired.put (ht.wired.wf s) rfl rfl
    · rw [withInbox_self]
      have hs := ht.shows s
      exact ⟨hs.accepted, hs.sends, hs.nextNr, hs.reads, hs.waits⟩
    · rw [withInbox, put_not]
      have hnot := ht.shows !s
      rw [Bool.not_not] at hnot
      exact hnot.congr rfl rfl rfl
    · rw [inboxFor, withInbox_self]
      exact hrest.symm
    · have hin' := ht.inbox !s
      rw [Bool.not_not] at hin'
      rw [@inboxFor_congr peer f _ (!s) (by rw [withInbox, put_not]) (by rw [withInbox, put_not])]
      exact hin'
    · exact ht.flight s
    · rfl
    · rfl
    · have hacks' := ht.acks !s
      rwa [Bool.not_not] at hacks'
  · rw [List.filter_cons_of_neg hto] at hall
    exact ⟨h, follows_inbox ht hall.symm, hsafe⟩

theorem followed_lost (lost : List Bytes) {rest : List Bytes} {f : Frames}
    (ht : Followed peer addr old f) (hin : (f s).inbox = lost ++ rest) :
    Followed peer addr old (f.withInbox s rest) := by
  induction lost generalizing f with
  | nil =>
    rw [List.nil_append] at hin
    rwa [withInbox_same hin]
  | cons frame lost ih =>
    rw [List.cons_append] at hin
    have hnext := ih (followed_lose ht hin) (by rw [withInbox_self])
    rwa [withInbox_withInbox] at hnext

theorem receive_withInbox (f : Frames) (s : Bool) (now : Instant) (frame : Bytes)
    (rest : List Bytes) : (f.withInbox s (frame :: rest)).receive s now =
      put f s { f s with station := (f s).station.onFrameReceived now frame, inbox := rest } := by
  have hin : (f.withInbox s (frame :: rest) s).inbox = frame :: rest := by rw [withInbox_self]
  refine ext_not (s := s) ?_ ?_
  · rw [receive_self hin, withInbox_self, put_self]
  · rw [receive_not, withInbox, put_not, put_not]

theorem followed_arrive (now : Instant) (arrived : List Bytes) {rest : List Bytes} {f : Frames}
    (ht : Followed peer addr old f)
    (hb : behind (f s).inbox (arrived.filter (f.claims peer s)) = some rest) :
    Followed peer addr old
      (put f s { f s with station := deliver now (f s).station arrived, inbox := rest }) := by
  induction arrived generalizing f with
  | nil =>
    have hin : (f s).inbox = rest := by
      rw [List.filter_nil, behind] at hb
      exact Option.some.inj hb
    have hsame : put f s { f s with station := deliver now (f s).station [], inbox := rest } = f :=
      withInbox_same hin
    rwa [hsame]
  | cons frame arrived ih =>
    obtain ⟨sent, hbefore, hrest⟩ : ∃ sent, Followed peer addr old (f.withInbox s (frame :: sent)) ∧
        behind sent (arrived.filter (f.claims peer s)) = some rest := by
      by_cases hto : f.claims peer s frame = true
      · rw [List.filter_cons_of_pos hto] at hb
        obtain ⟨lost, sent, hin, hb⟩ := behind_cons hb
        exact ⟨sent, followed_lost lost ht hin, hb⟩
      · rw [List.filter_cons_of_neg hto] at hb
        obtain ⟨h, ht, hsafe⟩ := ht
        refine ⟨(f s).inbox, ⟨h, follows_inbox ht ?_, hsafe⟩, hb⟩
        rw [List.filter_cons_of_neg hto]
        rfl
    have hwf : WellFormed (f s).station := by
      obtain ⟨h, ht, -⟩ := ht
      exact ht.wired.wf s
    obtain ⟨h, hfollows, hsafe⟩ := hbefore
    obtain ⟨h', hfollows', hlead⟩ := follows_receive hfollows hsafe s now
    rw [receive_withInbox] at hfollows'
    have hclaims :
        claims peer
          (put f s { f s with station := (f s).station.onFrameReceived now frame, inbox := sent })
            s = f.claims peer s := by
      funext frame'
      rw [claims, put_self, addressFieldToPeer_congr (setup_onFrameReceived hwf now frame), claims]
    have hnext := ih (followed_leads hsafe hfollows' hlead) (by rw [hclaims, put_self]; exact hrest)
    rw [put_self, put_put] at hnext
    exact hnext

theorem noisy_getTxData (hwf : WellFormed (f s).station) {now : Instant} {room timeoutMs : ℕ}
    (hs : f.noisyStep peer (.getTxData s now room timeoutMs) = some f') :
    let fd := (f s).station.checkTimeouts now
    ∃ ll, f' = ((f.checkTimeouts s now).generateTxFrames s now
          (handed fd (fd.generateTxFrames now)).toList).withHdlc s ll ∧
        ll.TxOk ∧ ll.eraseTx = (fd.generateTxFrames now).hdlc.eraseTx := by
  intro fd
  obtain ⟨ll, hget, hok, -, herase, -⟩ := getTxData_eq hwf.tx now room timeoutMs
  rw [noisyStep, hget, Option.map_some, Option.some.injEq] at hs
  dsimp only at hs
  refine ⟨ll, ?_, hok, herase⟩
  rw [← hs]
  refine ext_not (s := s) ?_ ?_
  · rw [put_of_not, put_self, Frames.withHdlc, put_self, generateTxFrames_self,
      Frames.checkTimeouts, put_self]
  · rw [put_self, Frames.withHdlc, put_not, generateTxFrames_not, Frames.checkTimeouts, put_not]

theorem noisy_onRxData (hw : Wired peer addr f) {now : Instant} {data : Bytes}
    (hs : f.noisyStep peer (.onRxData s now data) = some f') :
    ∃ ll, f' = Frames.withHdlc (put f s { f s with
        station := deliver now (f s).station (f.heard s data)
        inbox := (behind (f s).inbox ((f.heard s data).filter (f.claims peer s))).getD [] }) s ll ∧
      Moved (f s).station.hdlc ll := by
  have hwf := hw.wf s
  have hspec := HdlcLl.feed_spec hwf.rx data
  refine ⟨((f s).station.hdlc.feed data).withRxFrames [], ?_, ?_⟩
  · rw [noisyStep, onRxData_eq hwf.rx hwf.rxFrames] at hs
    rw [← Option.some.inj hs, Frames.withHdlc, put_put, put_self]
    rfl
  · exact moved_rx hwf.tx (hspec.ok.withRxFrames []) rfl hspec.frame_rule

theorem noisy_step (hf : Followed peer addr old f) {op : NoisyOp} (hgenuine : f.Genuine peer op)
    (hs : f.noisySession peer op = some f') : Followed peer addr old f' := by
  rw [noisySession, Option.filter_eq_some_iff] at hs
  obtain ⟨hs, hconn⟩ := hs
  rw [decide_eq_true_eq] at hconn
  obtain ⟨h, ht, hsafe⟩ := hf
  cases op with
  | sendPacket s address data timeoutMs =>
    obtain ⟨h', ht', hlead⟩ := follows_sendPacketTo ht hsafe s address data timeoutMs
    rw [← Option.some.inj hs]
    exact followed_leads hsafe ht' hlead
  | disconnect s =>
    rw [← Option.some.inj hs]
    exact ⟨h, follows_disconnect ht s hgenuine, hsafe⟩
  | getTxData s now room timeoutMs =>
    obtain ⟨ll, rfl, hok, herase⟩ := noisy_getTxData (ht.wired.wf s) hs
    have hstation : ((f.checkTimeouts s now) s).station = (f s).station.checkTimeouts now := by
      rw [Frames.checkTimeouts, put_self]
    have hset : ((f s).station.checkTimeouts now).setup = (f s).station.setup :=
      setup_checkTimeouts ..
    have hsep := (ht.wired.separate s).congr hset
    have hlt := ht.wired.lt s
    rw [← peers_length_congr hset] at hlt
    have hwf := wellFormed_checkTimeouts (ht.wired.wf s) now
    have hup : (((f s).station.checkTimeouts now).peer (peer s)).state = .connected := by
      rw [← (generateTxFrames_keeps hwf hlt hsep.distinct now).1, ← hconn s,
        Frames.withHdlc, put_self, generateTxFrames_self, hstation]
      rfl
    have ht₁ := follows_checkTimeouts ht s now hup
    obtain ⟨h', ht', hlead⟩ :=
      follows_generateTxFrames ht₁ s now false (by rw [hstation]; exact hgenuine)
    rw [hstation, if_neg (by decide)] at ht'
    refine followed_leads hsafe (follows_withHdlc ht' (ht'.wired.withHdlc ?_)) hlead
    have hwf' := wellFormed_generateTxFrames hwf now
    rw [generateTxFrames_self, hstation]
    exact moved_tx hwf'.rx hwf'.rxFrames hok herase
  | onRxData s now data =>
    obtain ⟨rest, hrest⟩ := Option.isSome_iff_exists.mp hgenuine
    obtain ⟨ll, rfl, hmoved⟩ := noisy_onRxData ht.wired hs
    rw [hrest, Option.getD_some] at hconn ⊢
    obtain ⟨h', ht', hsafe'⟩ := followed_arrive now (f.heard s data) ⟨h, ht, hsafe⟩ hrest
    refine ⟨h', follows_withHdlc ht' (ht'.wired.withHdlc ?_), hsafe'⟩
    rw [put_self, deliver_hdlc]
    exact hmoved

/-- Two stations that have just connected to each other, as in `Net.JustJoined`; their
receivers may be in the middle of anything. -/
structure Joined (peer : Bool → ℕ) (f : Frames) : Prop where
  fresh : ∀ s, Session.Fresh (f s).station (peer s)
  nextNr : ∀ s, ((f s).station.peer (peer s)).iQueueControl.rxState.nextNr = 0
  waits : ∀ s, (f s).station.Waits ((f s).station.addrField (peer s)) []
  channel : ∀ s, ∀ frame ∈ (f s).inbox, f.claims peer s frame = false
  accepted : ∀ s, (f s).accepted = []

/-- What each of the two has read from the other one since `f₀` is a prefix of what the
other one has accepted for it. -/
def Delivers (peer : Bool → ℕ) (f₀ f : Frames) : Prop :=
  ∀ s, ∃ delivered, (f s).station.readsFrom (peer s) = (f₀ s).station.readsFrom
    (peer s) ++ delivered ∧
    delivered <+: (f !s).accepted

theorem followed_joined (hw : Wired peer addr f) (hj : Joined peer f) :
    Followed peer addr (fun s ↦ (f s).station.readsFrom (peer s)) f := by
  refine ⟨⟨fun _ ↦ .start, fun _ ↦ [], fun _ ↦ []⟩, ⟨hw, ?_, ?_, fun _ ↦ rfl, fun _ ↦ rfl⟩,
    fun _ ↦ Stream.safe_start 7⟩
  · intro s
    have hwaits := hj.waits s
    rw [hw.field s] at hwaits
    exact ⟨hj.accepted s, Session.window_start (hw.wf s) (hj.fresh s), hj.nextNr s,
      (List.append_nil _).symm, hwaits⟩
  · intro s
    rw [inboxFor, List.map_nil, List.filter_eq_nil_iff]
    intro frame hmem
    rw [← claims, hj.channel s frame hmem]
    exact Bool.false_ne_true

/-- Whatever bytes a line with noise and with any number of other stations brings, as long
as no frame with a good checksum is forged, repeated or out of its place: over a session
of a primary and one of its secondaries each of the two has read at every moment a
prefix of what the other one accepted for it. -/
theorem noise_in_order {config : Bool → TinyFdConfig} {p : ℕ} (hp : OnLine config p)
    (hr : ∀ s, Reachable (config s) (f s).station) (hj : Joined (peerOn p) f) (ops : List NoisyOp)
    (hgenuine : EachStep (noisySession (peerOn p)) (Genuine (peerOn p)) f ops) :
    EachState (noisySession (peerOn p)) (Delivers (peerOn p) f) f ops := by
  have hw := wired_of_reachable hp hr
  have hfollowed := eachState_of_eachStep
    (P := Followed (peerOn p) (peerField p) fun s ↦ (f s).station.readsFrom (peerOn p s))
    (fun _ _ _ hf hop hs ↦ noisy_step hf hop hs) (followed_joined hw hj) hgenuine
  apply hfollowed.mono
  rintro f' ⟨h, ht, hsafe⟩ s
  have haccepted := (ht.shows !s).accepted
  refine ⟨(h.stream !s).delivered, (ht.shows s).reads, ?_⟩
  rw [haccepted]
  exact (hsafe !s).delivered

instance (peer : Bool → ℕ) (f : Frames) : ∀ op, Decidable (f.Genuine peer op)
  | .sendPacket .. => .isTrue trivial
  | .disconnect _ | .getTxData .. | .onRxData .. => by unfold Genuine; infer_instance

def noisyConfig (s : Bool) : TinyFdConfig := { addr := if s then 0 else 1 }

def noisyHandshake : List Net.Op :=
  [.getTxData true 0 16 0 false, .onRxData false 0 16, .getTxData false 0 16 0 false,
    .onRxData true 0 16]

def noisyNet : Net := (Net.replay noisyConfig 0 noisyHandshake).get (by decide +kernel)

def noisyLine : Frames := noisyNet.frames

def noise : List NoisyOp :=
  [.sendPacket true 1 [1] 0, .sendPacket true 1 [2] 0, .sendPacket false 0 [3] 0,
    .getTxData true 0 32 0,
    .getTxData true 0 32 0, .getTxData false 0 32 0,
    .onRxData false 0 [0x13, 0x7E, 0x05, 0x00, 0x03, 0xF8, 0xEE, 0x7E, 0x7E, 0x05, 0x20, 0x02,
      0x50, 0xFF, 0x7E],
    .getTxData false 0 32 0,
    .onRxData true 0 [0x7E, 0x05, 0x00, 0x03, 0xEA, 0xCD, 0x7E, 0x7E, 0x55, 0x55, 0x7E],
    .onRxData true 0 [0x7E, 0x05, 0x19, 0xBF, 0xFC, 0x7E], .getTxData true 0 32 0,
      .getTxData true 0 32 0,
    .getTxData true 0 32 0,
    .onRxData false 0 [0x7E, 0x05, 0x02, 0x01, 0x48, 0xDD, 0x7E, 0x7E, 0x05, 0x22, 0x02,
      0xE0, 0xCC, 0x7E]]

def noisyEnd : Frames := (run (noisySession (peerOn 0)) noisyLine noise).get (by decide +kernel)

theorem noise_in_order_repaired :
    Delivers (peerOn 0) noisyLine noisyEnd ∧ (noisyEnd false).station.readsFrom 0 = [[1], [2]] ∧
      (noisyEnd true).station.readsFrom 0 = [[3]] := by
  refine ⟨?_, by decide +kernel, by decide +kernel⟩
  have hjoined : Joined (peerOn 0) noisyLine := by
    have hempty : ∀ s, (noisyLine s).station.frames.sQueue.held = [] := by decide +kernel
    exact ⟨by decide +kernel, by decide +kernel,
      fun s ↦ ⟨[], FrameQueue.queues_nil (hempty s), rfl⟩, by decide +kernel, by decide +kernel⟩
  have hr : ∀ s, Reachable (noisyConfig s) (noisyLine s).station := by
    intro s
    simp only [noisyLine, Net.frames]
    exact Net.reachable_replay _ s
  have h := @noise_in_order noisyLine noisyConfig 0 ⟨by decide, by decide, rfl, rfl⟩ hr hjoined
    noise (by decide +kernel)
  exact h.of_run (Option.some_get _).symm

end Frames

end TinyProto
