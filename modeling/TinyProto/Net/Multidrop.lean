import TinyProto.Fd.Multipoint
import TinyProto.Net.Reliable

namespace TinyProto

open Lib TinyFd

/-- Two stations of a line with more of them: `peer s` is the number under which
station `s` knows the other one. -/
structure Wired {ι : Type} (peer : Bool → ℕ) (addr : UInt8) (net : Bool → Side ι) : Prop where
  wf : ∀ s, WellFormed (net s).station
  lt : ∀ s, peer s < (net s).station.peerMgr.peers.length
  separate : ∀ s, Separate (net s).station (peer s)
  field : ∀ s, (net s).station.addrField (peer s) = addr
  addressed : ∀ s, (net s).station.peerMgr.addressFieldToPeer addr = peer s
  others : ∀ s, ∀ q < (net s).station.peerMgr.peers.length, q ≠ peer s →
    (net !s).station.peerMgr.addressFieldToPeer ((net s).station.addrField q) ≠ peer !s
  crcType : ∀ s, (net !s).station.hdlc.crcType = (net s).station.hdlc.crcType
  physMtu : ∀ s, (net !s).station.hdlc.physMtu = (net s).station.hdlc.physMtu

section Wired

open Side

variable {ι : Type} {peer : Bool → ℕ} {addr : UInt8} {net : Bool → Side ι}

theorem Wired.put (h : Wired peer addr net) {s : Bool} {side : Side ι}
    (hwf : WellFormed side.station) (hs : side.station.setup = (net s).station.setup)
    (hc : side.station.hdlc.crcType = (net s).station.hdlc.crcType) :
    Wired peer addr (Side.put net s side) := by
  have hmtu : side.station.hdlc.physMtu = (net s).station.hdlc.physMtu := by
    rw [hwf.physMtu, (h.wf s).physMtu, hc,
      show side.station.mtu = (net s).station.mtu from congrArg Setup.mtu hs]
  have hall : ∀ t, WellFormed (Side.put net s side t).station ∧
      (Side.put net s side t).station.setup = (net t).station.setup ∧
      (Side.put net s side t).station.hdlc.crcType = (net t).station.hdlc.crcType ∧
      (Side.put net s side t).station.hdlc.physMtu = (net t).station.hdlc.physMtu := by
    refine both s ?_ ?_
    · rw [put_self]
      exact ⟨hwf, hs, hc, hmtu⟩
    · rw [put_not]
      exact ⟨h.wf _, rfl, rfl, rfl⟩
  refine ⟨fun t ↦ (hall t).1, ?_, fun t ↦ (h.separate t).congr (hall t).2.1, ?_, ?_, ?_, ?_, ?_⟩ <;>
    intro t
  · rw [peers_length_congr (hall t).2.1]
    exact h.lt t
  · rw [addrField_congr (hall t).2.1]
    exact h.field t
  · rw [addressFieldToPeer_congr (hall t).2.1]
    exact h.addressed t
  · intro q hq hne
    rw [peers_length_congr (hall t).2.1] at hq
    rw [addrField_congr (hall t).2.1, addressFieldToPeer_congr (hall !t).2.1]
    exact h.others t q hq hne
  · rw [(hall t).2.2.1, (hall !t).2.2.1]
    exact h.crcType t
  · rw [(hall t).2.2.2, (hall !t).2.2.2]
    exact h.physMtu t

theorem Wired.of_frames {net : Net} (h : Wired peer addr net.frames) : Wired peer addr net :=
  ⟨h.wf, h.lt, h.separate, h.field, h.addressed, h.others, h.crcType, h.physMtu⟩

theorem Wired.frames {net : Net} (h : Wired peer addr net) : Wired peer addr net.frames :=
  ⟨h.wf, h.lt, h.separate, h.field, h.addressed, h.others, h.crcType, h.physMtu⟩

variable {f : Frames}

theorem Wired.checkTimeouts (h : Wired peer addr f) (s : Bool) (now : Instant) :
    Wired peer addr (f.checkTimeouts s now) := by
  apply h.put (wellFormed_checkTimeouts (h.wf s) now) (setup_checkTimeouts ..)
  dsimp only
  rw [checkTimeouts_hdlc]

theorem Wired.disconnect (h : Wired peer addr f) (s : Bool) : Wired peer addr (f.disconnect s) := by
  apply h.put (wellFormed_disconnect (h.wf s)) (setup_disconnect _)
  dsimp only
  rw [disconnect_hdlc]

theorem Wired.generateTxFrames (h : Wired peer addr f) (s : Bool) (now : Instant)
    (arrived : List Bytes) :
    Wired peer addr (f.generateTxFrames s now arrived) := by
  have h₁ :
      Wired peer addr
        (Side.put f s { f s with station := (f s).station.generateTxFrames now }) := by
    apply h.put (wellFormed_generateTxFrames (h.wf s) now) (setup_generateTxFrames ..)
    rcases (f s).station.generateTxFrames_hdlc now with he | ⟨data, -, -, he⟩ <;>
      dsimp only <;> rw [he]
    rfl
  apply h₁.put
  · exact h.wf _
  · rw [put_not]
  · rw [put_not]

theorem Wired.receive (h : Wired peer addr f) (s : Bool) (now : Instant) :
    Wired peer addr (f.receive s now) := by
  rw [Frames.receive]
  split
  · exact h
  · rename_i frame rest _
    apply h.put (wellFormed_onFrameReceived (h.wf s) now frame)
      (setup_onFrameReceived (h.wf s) now frame)
    dsimp only
    rw [hdlc_onFrameReceived]

theorem Wired.receives (h : Wired peer addr f) (s : Bool) (now : Instant) (k : ℕ) :
    Wired peer addr ((fun f : Frames ↦ f.receive s now)^[k] f) := by
  induction k with
  | zero => exact h
  | succ k ih =>
    rw [Function.iterate_succ_apply']
    exact ih.receive s now

theorem Wired.withHdlc (h : Wired peer addr f) {s : Bool} {ll : HdlcLl}
    (hm : Moved (f s).station.hdlc ll) :
    Wired peer addr (f.withHdlc s ll) :=
  h.put ((h.wf s).withHdlc hm.tx hm.rx hm.rxFrames hm.crcType hm.physMtu) rfl hm.crcType

end Wired

/-- The two configurations: a primary with up to 63 peers, and the secondary that is its
peer `p`, with equal frames. -/
structure OnLine (config : Bool → TinyFdConfig) (p : ℕ) : Prop where
  primary : (config true).addr = 0 ∧ (config true).peersCount ≤ 63 ∧
    p < (max (config true).peersCount 1).toNat
  secondary : (config false).addr = UInt8.ofNat p + 1
  crcType : (config false).crcType = (config true).crcType
  mtu : (config false).mtu = (config true).mtu

def peerOn (p : ℕ) (s : Bool) : ℕ := if s then p else 0

def peerField (p : ℕ) : UInt8 := ((UInt8.ofNat p + 1) <<< 2 ||| hdlcEBit) &&& ~~~hdlcCrBit

section Config

theorem peerField_shift : ∀ p < 63, (peerField p >>> 2).toNat = p + 1 := by
  have hall : ∀ p : Fin 63, (peerField p >>> 2).toNat = p + 1 := by decide +kernel
  exact fun p hp ↦ hall ⟨p, hp⟩

theorem peerField_inj {p q : ℕ} (hp : p < 63) (hq : q < 63) (h : peerField p = peerField q) :
    p = q := by
  have hp' := peerField_shift p hp
  have hq' := peerField_shift q hq
  rw [h] at hp'
  omega

theorem peerField_secondary {p : ℕ} (hp : p < 63) : UInt8.ofNat p + 1 ≠ 0 ∧
    isPrimaryAddress (peerField p) = false ∧
    isPrimaryAddress ((UInt8.ofNat p + 1) <<< 2 ||| hdlcEBit) = false ∧
    peerField p &&& ~~~hdlcCrBit = peerField p := by
  have hall : ∀ p : Fin 63, UInt8.ofNat p + 1 ≠ 0 ∧ isPrimaryAddress (peerField p) = false ∧
      isPrimaryAddress ((UInt8.ofNat p + 1) <<< 2 ||| hdlcEBit) = false ∧
      peerField p &&& ~~~hdlcCrBit = peerField p := by
    decide +kernel
  exact hall ⟨p, hp⟩

theorem peerMgr_new {config : TinyFdConfig} {now : Instant} {fd : TinyFd}
    (h : TinyFd.new config now = .ok fd) :
    fd.peerMgr = .new
      (if config.addr = 0 then hdlcPrimaryAddr ||| hdlcEBit else config.addr <<< 2 ||| hdlcEBit)
      config.peersCount now := by
  rw [TinyFd.new] at h
  split at h
  · cases h
  dsimp only at h
  split at h
  · cases h
  rw [← Except.ok.inj h]

theorem primary_of_reachable {config : TinyFdConfig} {fd : TinyFd} (hr : Reachable config fd)
    (haddr : config.addr = 0) (hcount : config.peersCount ≤ 63) :
    fd.peerMgr.peers.length = (max config.peersCount 1).toNat ∧ fd.peerMgr.peers.length ≤ 63 ∧
      fd.peerMgr.isPrimaryStation = true ∧ ∀ p < fd.peerMgr.peers.length,
      fd.addrField p = peerField p := by
  obtain ⟨now, fd₀, hnew, hset, -⟩ := hr.origin
  have hm := peerMgr_new hnew
  rw [if_pos haddr] at hm
  have hprim : fd.peerMgr.isPrimaryStation = true := by
    rw [isPrimaryStation_congr hset, hm]
    change isPrimaryAddress (hdlcPrimaryAddr ||| hdlcEBit) = true
    decide
  have hlen : fd.peerMgr.peers.length = (max config.peersCount 1).toNat := by
    rw [peers_length_congr hset, hm, PeerManager.new, if_pos (by decide), List.length_map,
      List.length_range]
  have hle : (max config.peersCount 1).toNat ≤ 63 := by
    rw [show max config.peersCount 1 =
      if config.peersCount ≤ 1 then 1 else config.peersCount from rfl]
    split
    · decide
    · exact UInt8.le_iff_toNat_le.mp hcount
  refine ⟨hlen, hlen.trans_le hle, hprim, ?_⟩
  intro p hp
  rw [addrField_primary hprim, addr_handling (.call hr) hprim hp, peerField]

theorem secondary_of_reachable {config : TinyFdConfig} {fd : TinyFd} (hr : Reachable config fd)
    {p : ℕ} (hp : p < 63) (haddr : config.addr = UInt8.ofNat p + 1) :
    fd.peerMgr.peers.length = 1 ∧ fd.addrField 0 = peerField p ∧
      ∀ q < 63, fd.peerMgr.addressFieldToPeer (peerField q) = if q = p then 0
      else hdlcInvalidPeerIndex := by
  obtain ⟨now, fd₀, hnew, hset, -⟩ := hr.origin
  obtain ⟨hne, -, hnot, -⟩ := peerField_secondary hp
  have hm := peerMgr_new hnew
  rw [haddr, if_neg hne] at hm
  have hprim :
      (PeerManager.new ((UInt8.ofNat p + 1) <<< 2 ||| hdlcEBit) config.peersCount
        now).isPrimaryStation = false :=
    hnot
  refine ⟨?_, ?_, ?_⟩
  · rw [peers_length_congr hset, hm, PeerManager.new, if_neg (by rw [hnot]; decide)]
    rfl
  · rw [addrField_congr hset, addrField, hm, PeerManager.peerToAddressField,
      if_neg (by rw [hprim]; decide)]
    rfl
  · intro q hq
    obtain ⟨-, hother, -, hmask⟩ := peerField_secondary hq
    rw [addressFieldToPeer_congr hset, hm, PeerManager.addressFieldToPeer,
      if_neg (by rw [hprim]; decide)]
    dsimp only
    rw [hmask, hother]
    by_cases hqp : q = p
    · rw [if_pos hqp, hqp]
      exact if_pos (.inl rfl)
    · rw [if_neg hqp]
      refine if_neg ?_
      rintro (he | he)
      · exact hqp (peerField_inj hq hp he)
      · cases he

theorem wired_of_reachable {ι : Type} {net : Bool → Side ι} {config : Bool → TinyFdConfig} {p : ℕ}
    (hp : OnLine config p) (hr : ∀ s, Reachable (config s) (net s).station) :
    Wired (peerOn p) (peerField p) net := by
  obtain ⟨haddr, hcount, hlt⟩ := hp.primary
  obtain ⟨hlen, hle, hprim, hfield⟩ := primary_of_reachable (hr true) haddr hcount
  rw [← hlen] at hlt
  have hp63 : p < 63 := hlt.trans_le hle
  obtain ⟨hone, hfield', hto⟩ := secondary_of_reachable (hr false) hp63 hp.secondary
  have hframes : ∀ s, (net s).station.hdlc.crcType = (config true).crcType ∧
      (net s).station.mtu = if (config true).mtu > 0 then (config true).mtu else 64 := by
    intro s
    obtain ⟨now, fd₀, hnew, hset, hcrc⟩ := (hr s).origin
    obtain ⟨hc, hm⟩ := new_frames hnew
    rw [hcrc, show (net s).station.mtu = fd₀.mtu from congrArg Setup.mtu hset, hc, hm]
    cases s with
    | true => exact ⟨rfl, rfl⟩
    | false => exact ⟨hp.crcType, by rw [hp.mtu]⟩
  have hdistinct := distinct_handling (.call (hr true)) hprim hle hlt
  refine ⟨fun s ↦ (hr s).wellFormed, ?_, ?_, ?_, ?_, ?_, ?_, ?_⟩
  · exact Bool.forall_bool.mpr ⟨by rw [hone]; exact Nat.one_pos, hlt⟩
  · refine Bool.forall_bool.mpr ⟨?_, separate_reachable (hr true) hle hlt⟩
    exact separate_reachable (hr false) (by omega) (by rw [hone]; exact Nat.one_pos)
  · exact Bool.forall_bool.mpr ⟨hfield', hfield p hlt⟩
  · refine Bool.forall_bool.mpr ⟨?_, ?_⟩
    · rw [hto p hp63, if_pos rfl]
      rfl
    · refine addressFieldToPeer_eq hprim hlt hdistinct ?_
      rw [(peerField_secondary hp63).2.2.2]
      exact (hfield p hlt).symm
  · refine Bool.forall_bool.mpr ⟨?_, ?_⟩
    · intro q hq hne
      rw [hone] at hq
      exact absurd (Nat.lt_one_iff.mp hq) hne
    · intro q hq hne
      rw [hfield q hq]
      change (net false).station.peerMgr.addressFieldToPeer (peerField q) ≠ 0
      rw [hto q (hq.trans_le hle), if_neg (show q ≠ p from hne)]
      decide
  · intro s
    rw [(hframes s).1, (hframes !s).1]
  · intro s
    rw [(hr s).wellFormed.physMtu, (hr !s).wellFormed.physMtu, (hframes s).1, (hframes !s).1,
      (hframes s).2, (hframes !s).2]

end Config

namespace Frames

open Side Relation

/-- What a station shows of the two streams that it shares with peer `p`. -/
structure ShowsTo (p : ℕ) (addr : UInt8) (old : List Bytes) (out inc : Stream Bytes)
    (waiting : List (Bool × ℕ)) (side : Side Bytes) : Prop where
  accepted : side.accepted = out.accepted
  sends : SendsTo p side.station out.accepted out.confirmed
  nextNr : (side.station.peer p).iQueueControl.rxState.nextNr = seq inc.delivered.length
  reads : side.station.readsFrom p = old ++ inc.delivered
  waits : side.station.Waits addr waiting

def inboxFor (peer : Bool → ℕ) (f : Frames) (s : Bool) : List Bytes :=
  (f s).inbox.filter fun frame ↦ (f s).station.peerMgr.addressFieldToPeer (frame.getD 0 0) == peer s

/-- Among the frames of the line, those of the two stations are those of the history. -/
structure Follows (peer : Bool → ℕ) (addr : UInt8) (old : Bool → List Bytes) (h : History)
    (f : Frames) : Prop where
  wired : Wired peer addr f
  shows : ∀ s, ShowsTo (peer s) addr (old s) (h.stream s) (h.stream !s) (h.waiting s) (f s)
  inbox : ∀ s, f.inboxFor peer s = (h.wire s).map (Wire.bytes addr (h.stream !s).accepted)
  flight : ∀ s, (h.stream s).flight = (h.wire !s).filterMap Wire.index
  acks : ∀ s, (h.stream s).acks = (h.wire s).map Wire.nr ++ (h.waiting !s).map Prod.snd

variable {peer : Bool → ℕ} {addr : UInt8} {old : Bool → List Bytes} {h : History}
    {f f' : Frames} {s : Bool}
  {out inc out' inc' : Stream Bytes} {waiting : List (Bool × ℕ)}

theorem ShowsTo.congr {p : ℕ} {old : List Bytes} {side : Side Bytes}
    (h : ShowsTo p addr old out inc waiting side) (ha : out'.accepted = out.accepted)
    (hc : out'.confirmed = out.confirmed) (hd : inc'.delivered = inc.delivered) :
    ShowsTo p addr old out' inc' waiting side := by
  refine ⟨?_, ?_, ?_, ?_, h.waits⟩
  · rw [ha]
    exact h.accepted
  · rw [ha, hc]
    exact h.sends
  · rw [hd]
    exact h.nextNr
  · rw [hd]
    exact h.reads

theorem ShowsTo.aside {p : ℕ} {old : List Bytes} {side side' : Side Bytes}
    (h : ShowsTo p addr old out inc waiting side) (haddr : side.station.addrField p = addr)
    (hacc : side'.accepted = side.accepted)
    (hsends : SendsTo p side'.station out.accepted out.confirmed)
    (ha : Aside p side.station side'.station) : ShowsTo p addr old out inc waiting side' := by
  exact ⟨hacc.trans h.accepted, hsends, by rw [ha.rxState, h.nextNr], ha.reads.trans h.reads,
    ha.waits haddr h.waits⟩

theorem follows_ends (s : Bool) (w w' : List Wire) (q q' : List (Bool × ℕ)) (hw : Wired peer addr f)
    (hself : ShowsTo (peer s) addr (old s) out inc q (f s))
    (hnot : ShowsTo (peer !s) addr (old !s) inc out q' (f !s))
    (hin : f.inboxFor peer s = w.map (Wire.bytes addr inc.accepted))
    (hin' : f.inboxFor peer (!s) = w'.map (Wire.bytes addr out.accepted))
    (hflight : out.flight = w'.filterMap Wire.index)
    (hflight' : inc.flight = w.filterMap Wire.index)
    (hacks : out.acks = w.map Wire.nr ++ q'.map Prod.snd)
    (hacks' : inc.acks = w'.map Wire.nr ++ q.map Prod.snd) :
    Follows peer addr old ⟨ends s out inc, ends s w w', ends s q q'⟩ f := by
  refine ⟨hw, both s ?_ ?_, both s ?_ ?_, both s ?_ ?_, both s ?_ ?_⟩ <;>
    simp only [Bool.not_not, ends_self, ends_not]
  · exact hself
  · exact hnot
  · exact hin
  · exact hin'
  · exact hflight
  · exact hflight'
  · exact hacks
  · exact hacks'

theorem inboxFor_congr (hs : (f' s).station.setup = (f s).station.setup)
    (hin : (f' s).inbox = (f s).inbox) : f'.inboxFor peer s = f.inboxFor peer s := by
  rw [inboxFor, hin, inboxFor]
  simp only [addressFieldToPeer_congr hs]

theorem Follows.stay (ht : Follows peer addr old h f) {side : Side Bytes}
    (hw : Wired peer addr (put f s side))
    (hs : ShowsTo (peer s) addr (old s) (h.stream s) (h.stream !s) (h.waiting s) side)
    (hset : side.station.setup = (f s).station.setup) (hin : side.inbox = (f s).inbox) :
    Follows peer addr old h (put f s side) := by
  refine ⟨hw, both s ?_ ?_, both s ?_ ?_, ht.flight, ht.acks⟩
  · rw [put_self]
    exact hs
  · rw [put_not]
    exact ht.shows _
  · rw [inboxFor_congr (by rw [put_self, hset]) (by rw [put_self, hin])]
    exact ht.inbox s
  · rw [inboxFor_congr (by rw [put_not]) (by rw [put_not])]
    exact ht.inbox _

theorem Follows.index_lt (ht : Follows peer addr old h f) (hsafe : (h.stream s).Safe 7) {x : Wire}
    (hx : x ∈ h.wire !s) : ∀ n ∈ x.index, n < (h.stream s).accepted.length := by
  intro n hn
  apply fun hmem ↦ (hsafe.flight n hmem).1
  rw [ht.flight s]
  exact List.mem_filterMap.mpr ⟨x, hx, hn⟩

def sendPacketTo (peer : Bool → ℕ) (f : Frames) (s : Bool) (address : UInt8) (data : Bytes)
    (timeoutMs : ℕ) : Frames :=
  let r := (f s).station.sendPacket address data timeoutMs
  put f s { f s with
    station := r.1
    accepted :=
      if (f s).station.sendPeer address = peer s ∧ r.2.isOk then (f s).accepted ++ [data]
        else (f s).accepted }

/-- A frame of another station arrives at station `s`. -/
def foreign (f : Frames) (s : Bool) (data : Bytes) : Frames :=
  put f s { f s with inbox := (f s).inbox ++ [data] }

theorem wired_sendPacketTo (hw : Wired peer addr f) (s : Bool) (address : UInt8) (data : Bytes)
    (timeoutMs : ℕ) : Wired peer addr (f.sendPacketTo peer s address data timeoutMs) := by
  apply hw.put (wellFormed_sendPacket (hw.wf s) ..) (setup_sendPacket ..)
  dsimp only
  rw [sendPacket_hdlc]

theorem follows_sendPacketTo (ht : Follows peer addr old h f)
    (hsafe : ∀ s, (h.stream s).Safe 7) (s : Bool) (address : UInt8) (data : Bytes) (timeoutMs : ℕ) :
    ∃ h', Follows peer addr old h' (f.sendPacketTo peer s address data timeoutMs) ∧ Leads h h' := by
  have hw := wired_sendPacketTo ht.wired s address data timeoutMs
  have hs := ht.shows s
  obtain ⟨hsends, haside⟩ := hs.sends.sendPacket address data timeoutMs
  rw [sendPacketTo] at hw ⊢
  by_cases hok : (f s).station.sendPeer address = peer s ∧
      ((f s).station.sendPacket address data timeoutMs).2.isOk
  · simp only [if_pos hok] at hsends hw ⊢
    have hroom : (h.stream s).accepted.length + 1 ≤ (h.stream s).confirmed + 7 := by
      have hlt : ((h.stream s).accepted ++ [data]).length ≤ (h.stream s).confirmed + 7 := hsends.lt
      rwa [List.length_append] at hlt
    refine ⟨_, follows_ends s (h.wire s) (h.wire !s) (h.waiting s) (h.waiting !s) hw ?_ ?_ ?_
      ?_ ?_ ?_ ?_ ?_, leads_ends (.single (.accept data hroom)) .refl⟩
    · rw [put_self]
      refine ⟨?_, hsends, by rw [haside.rxState, hs.nextNr], haside.reads.trans hs.reads,
        haside.waits (ht.wired.field s) hs.waits⟩
      rw [← hs.accepted]
    · rw [put_not]
      have hnot := ht.shows !s
      rw [Bool.not_not] at hnot
      exact hnot.congr rfl rfl rfl
    · rw [@inboxFor_congr peer f _ s (by rw [put_self]; exact haside.setup) (by rw [put_self])]
      exact ht.inbox s
    · have hin := ht.inbox !s
      rw [Bool.not_not] at hin
      rw [@inboxFor_congr peer f _ (!s) (by rw [put_not]) (by rw [put_not]), hin]
      apply List.map_congr_left
      intro x hx
      exact (Wire.bytes_append _ _ (ht.index_lt (hsafe s) hx) _).symm
    · exact ht.flight s
    · have hflight := ht.flight !s
      rwa [Bool.not_not] at hflight
    · exact ht.acks s
    · have hacks := ht.acks !s
      rwa [Bool.not_not] at hacks
  · simp only [if_neg hok] at hsends hw ⊢
    exact ⟨h, ht.stay hw (hs.aside (ht.wired.field s) rfl hsends haside) haside.setup rfl,
      fun _ ↦ .refl⟩

theorem follows_disconnect (ht : Follows peer addr old h f) (s : Bool) (hne : peer s ≠ 0) :
    Follows peer addr old h (f.disconnect s) := by
  obtain ⟨hsends, haside⟩ := (ht.shows s).sends.disconnect hne (ht.wired.separate s)
  exact ht.stay (ht.wired.disconnect s) ((ht.shows s).aside (ht.wired.field s) rfl hsends haside)
    haside.setup rfl

theorem follows_checkTimeouts (ht : Follows peer addr old h f) (s : Bool) (now : Instant)
    (hconn : (((f s).station.checkTimeouts now).peer (peer s)).state = .connected) :
    Follows peer addr old h (f.checkTimeouts s now) := by
  obtain ⟨hsends, haside⟩ := (ht.shows s).sends.checkTimeouts (ht.wired.separate s) now hconn
  exact ht.stay (ht.wired.checkTimeouts s now)
    ((ht.shows s).aside (ht.wired.field s) rfl hsends haside) haside.setup rfl

theorem follows_withHdlc (ht : Follows peer addr old h f) {s : Bool} {ll : HdlcLl}
    (hw : Wired peer addr (f.withHdlc s ll)) : Follows peer addr old h (f.withHdlc s ll) := by
  have hs := ht.shows s
  have hwf := hw.wf s
  rw [Frames.withHdlc, put_self] at hwf
  exact ht.stay hw ⟨hs.accepted, hs.sends.withHdlc hwf, hs.nextNr, hs.reads, hs.waits⟩ rfl rfl

theorem follows_foreign (ht : Follows peer addr old h f) (s : Bool) {data : Bytes}
    (hno : (f s).station.peerMgr.addressFieldToPeer (data.getD 0 0) ≠ peer s) :
    Follows peer addr old h (f.foreign s data) := by
  refine ⟨ht.wired.put (ht.wired.wf s) rfl rfl, both s ?_ ?_, both s ?_ ?_, ht.flight, ht.acks⟩
  · rw [foreign, put_self]
    have hs := ht.shows s
    exact ⟨hs.accepted, hs.sends, hs.nextNr, hs.reads, hs.waits⟩
  · rw [foreign, put_not]
    exact ht.shows _
  · have hnone :
        [data].filter (fun frame ↦ (f s).station.peerMgr.addressFieldToPeer (frame.getD 0 0) ==
          peer s) = [] :=
      List.filter_cons_of_neg (by rw [beq_iff_eq]; exact hno)
    rw [← ht.inbox s, inboxFor, foreign, put_self]
    dsimp only
    rw [List.filter_append, hnone, List.append_nil, inboxFor]
  · rw [@inboxFor_congr peer f _ (!s) (by rw [foreign, put_not]) (by rw [foreign, put_not])]
    exact ht.inbox _

theorem follows_generateTxFrames (ht : Follows peer addr old h f) (s : Bool)
    (now : Instant) (lost : Bool) (horder : (f s).station.hdlc.txData = none →
      InOrder (f s).station.frames.sQueue.frames (f s).station.frames.sQueue.lookupIndex) :
    let fd := (f s).station
    let arrived := if lost then [] else (handed fd (fd.generateTxFrames now)).toList
    ∃ h', Follows peer addr old h' (f.generateTxFrames s now arrived) ∧ Leads h h' := by
  intro fd arrived
  have hs := ht.shows s
  obtain ⟨hsends, hreads, hrx, picked, rest, hwaits, hchosen, hhanded⟩ :=
    hs.sends.generateTxFrames (ht.wired.separate s) (ht.wired.field s) now hs.waits horder hs.nextNr
  have hset : (fd.generateTxFrames now).setup = fd.setup := setup_generateTxFrames ..
  have hw := ht.wired.generateTxFrames s now arrived
  obtain ⟨sent, hsent⟩ : ∃ sent, sent = if lost then [] else picked.toList := ⟨_, rfl⟩
  have harrived :
      arrived.filter (fun frame ↦ (f !s).station.peerMgr.addressFieldToPeer (frame.getD 0 0) ==
        peer !s) = sent.map (Wire.bytes addr (h.stream s).accepted) := by
    have ha : arrived = if lost then [] else (handed fd (fd.generateTxFrames now)).toList := rfl
    cases lost with
    | true => rw [ha, hsent]; rfl
    | false =>
      rw [ha, hsent, if_neg (by decide), if_neg (by decide)]
      rcases hhanded with hown | ⟨rfl, data, q, hother, hq, hne, haddr⟩
      · rw [hown]
        cases picked with
        | none => rfl
        | some x =>
          refine List.filter_cons_of_pos ?_
          rw [Wire.bytes_address, ht.wired.addressed, beq_self_eq_true]
      · rw [hother]
        refine List.filter_cons_of_neg ?_
        rw [haddr, beq_iff_eq]
        exact ht.wired.others s q hq hne
  have hacks := ht.acks !s
  rw [Bool.not_not] at hacks
  obtain ⟨hout, hinc⟩ := leads_picks hchosen hacks lost
  rw [← hsent] at hout hinc
  refine ⟨_, follows_ends s (h.wire s) (h.wire (!s) ++ sent) rest (h.waiting !s) hw ?_ ?_ ?_
    ?_ ?_ ?_ ?_ ?_, leads_ends hout hinc⟩
  · rw [generateTxFrames_self]
    exact ⟨hs.accepted, hsends, by rw [hrx, hs.nextNr], hreads.trans hs.reads, hwaits⟩
  · rw [generateTxFrames_not]
    have hnot := ht.shows !s
    rw [Bool.not_not] at hnot
    exact ⟨hnot.accepted, hnot.sends, hnot.nextNr, hnot.reads, hnot.waits⟩
  · rw [@inboxFor_congr peer f _ s (by rw [generateTxFrames_self, hset])
      (by rw [generateTxFrames_self])]
    exact ht.inbox s
  · have hin := ht.inbox !s
    rw [Bool.not_not] at hin
    rw [inboxFor, generateTxFrames_not]
    dsimp only
    rw [List.filter_append, ← inboxFor, hin, harrived, List.map_append]
  · rw [List.filterMap_append, ht.flight s]
  · have hflight := ht.flight !s
    rwa [Bool.not_not] at hflight
  · exact ht.acks s
  · rw [List.map_append, List.append_assoc]

theorem follows_receive (ht : Follows peer addr old h f) (hsafe : ∀ s, (h.stream s).Safe 7)
    (s : Bool) (now : Instant) : ∃ h', Follows peer addr old h' (f.receive s now) ∧ Leads h h' := by
  cases hin : (f s).inbox with
  | nil =>
    refine ⟨h, ?_, fun _ ↦ .refl⟩
    rw [Frames.receive, hin]
    exact ht
  | cons frame rest =>
    have hs := ht.shows s
    have hw := ht.wired.receive s now
    have hset := setup_onFrameReceived (ht.wired.wf s) now frame
    have hnotIn : (f.receive s now).inboxFor peer (!s) = f.inboxFor peer !s :=
      inboxFor_congr (by rw [receive_not]) (by rw [receive_not])
    have hself : (f.receive s now).inboxFor peer s =
        rest.filter fun frame ↦ (f s).station.peerMgr.addressFieldToPeer
          (frame.getD 0 0) == peer s := by
      rw [inboxFor, receive_self hin]
      simp only [addressFieldToPeer_congr hset]
    have hall : f.inboxFor peer s =
        (frame :: rest).filter fun frame ↦ (f s).station.peerMgr.addressFieldToPeer
          (frame.getD 0 0) == peer s := by
      rw [inboxFor, hin]
    have hwire := ht.inbox s
    rw [hall] at hwire
    by_cases hto : (f s).station.peerMgr.addressFieldToPeer (frame.getD 0 0) = peer s
    · rw [List.filter_cons_of_pos (by rw [hto, beq_self_eq_true])] at hwire
      obtain ⟨x, w, hx, rfl, hrest⟩ := List.map_eq_cons_iff.mp hwire.symm
      have hacks := ht.acks s
      rw [hx, List.map_cons, List.cons_append] at hacks
      have hnr := (hsafe s).acks x.nr (by rw [hacks]; exact List.mem_cons_self ..)
      obtain ⟨hsends, -, delivered, answer, htakes, hcalls, hnext, hanswered⟩ :=
        hs.sends.receive (ht.wired.field s) (ht.wired.addressed s) now x
          (h.stream !s).accepted hnr.1 (hnr.2.trans (hsafe s).delivered.length_le) hs.nextNr
      obtain ⟨extra, hextra, hwaits⟩ := hanswered.waits hs.waits
      have hreads := readsFrom_readCalls (peer s) delivered hset hcalls
      have hflight := ht.flight !s
      rw [Bool.not_not, hx] at hflight
      have hindex : (h.stream !s).flight = x.index.toList ++ w.filterMap Wire.index := by
        rw [hflight]
        cases x <;> rfl
      have hlt : ∀ n ∈ x.index, n < (h.stream !s).accepted.length := by
        have hmem : x ∈ h.wire !!s := by
          rw [Bool.not_not, hx]
          exact List.mem_cons_self ..
        exact ht.index_lt (hsafe !s) hmem
      have hacks' := ht.acks !s
      rw [Bool.not_not] at hacks'
      refine ⟨_, follows_ends s w (h.wire !s) (h.waiting s ++ extra) (h.waiting !s) hw ?_ ?_ ?_
        ?_ ?_ ?_ ?_ ?_,
        leads_ends (.single (.confirm hacks)) (leads_takes htakes hindex hlt hextra)⟩
      · rw [receive_self hin]
        refine ⟨hs.accepted, hsends, ?_, ?_, hwaits⟩
        · rw [List.length_append]
          exact hnext
        · rw [← List.append_assoc, ← hs.reads]
          exact hreads
      · rw [receive_not]
        have hnot := ht.shows !s
        rw [Bool.not_not] at hnot
        exact ⟨hnot.accepted, hnot.sends, hnot.nextNr, hnot.reads, hnot.waits⟩
      · exact hself.trans hrest.symm
      · have hin' := ht.inbox !s
        rw [Bool.not_not] at hin'
        exact hnotIn.trans hin'
      · exact ht.flight s
      · rfl
      · rfl
      · rw [hacks', List.map_append, List.append_assoc]
    · rw [List.filter_cons_of_neg (by rw [beq_iff_eq]; exact hto)] at hwire
      obtain ⟨hsends, haside⟩ := hs.sends.receive_other (ht.wired.separate s) hto now
      refine ⟨h, ⟨hw, both s ?_ ?_, both s ?_ ?_, ht.flight, ht.acks⟩, fun _ ↦ .refl⟩
      · rw [receive_self hin]
        exact hs.aside (ht.wired.field s) rfl hsends haside
      · rw [receive_not]
        exact ht.shows _
      · exact hself.trans hwire
      · exact hnotIn.trans (ht.inbox _)

def Followed (peer : Bool → ℕ) (addr : UInt8) (old : Bool → List Bytes) (f : Frames) : Prop :=
  ∃ h, Follows peer addr old h f ∧ ∀ s, (h.stream s).Safe 7

theorem followed_leads {h' : History} (hsafe : ∀ s, (h.stream s).Safe 7)
    (ht : Follows peer addr old h' f) (hl : Leads h h') : Followed peer addr old f :=
  ⟨h', ht, fun s ↦ Stream.safe_steps (hsafe s) (by decide) (hl s)⟩

theorem followed_receives (ht : Followed peer addr old f) (s : Bool) (now : Instant) (k : ℕ) :
    Followed peer addr old ((fun f : Frames ↦ f.receive s now)^[k] f) := by
  induction k with
  | zero => exact ht
  | succ k ih =>
    obtain ⟨h, ht, hsafe⟩ := ih
    obtain ⟨h', ht', hl⟩ := follows_receive ht hsafe s now
    rw [Function.iterate_succ_apply']
    exact followed_leads hsafe ht' hl

end Frames

namespace Net

open Side Frames

/-- What happens on the line: a call on one of the two stations, or a frame of any other
station that arrives at one of them. -/
inductive LineOp
  | call (op : Op)
  | foreign (s : Bool) (data : Bytes)

def lineStep (peer : Bool → ℕ) (net : Net) : LineOp → Option Net
  | .call (.sendPacket s address data timeoutMs) =>
    let r := (net s).station.sendPacket address data timeoutMs
    some (put net s { net s with
      station := r.1
      accepted :=
        if (net s).station.sendPeer address = peer s ∧ r.2.isOk then (net s).accepted ++ [data]
          else (net s).accepted })
  | .call op => net.step op
  | .foreign s data =>
    some (put net s { net s with
      inbox := (net s).inbox ++ wireFrame (net s).station.hdlc.crcType data })

def lineSession (peer : Bool → ℕ) (net : Net) (op : LineOp) : Option Net :=
  (net.lineStep peer op).filter fun net' ↦ ∀ s, ((net' s).station.peer (peer s)).state = .connected

/-- A call of `disconnect` is for somebody else; when a frame is picked, the occupied
slots of the service queue stand in the order in which they were filled; and a foreign
frame comes whole, does not cut into a frame of the two stations and does not claim to
be from one of them. -/
def LineOp.Proper (peer : Bool → ℕ) (net : Net) : LineOp → Prop
  | .call (.disconnect s) => peer s ≠ 0
  | .call (.getTxData s now ..) =>
    let fd := (net s).station.checkTimeouts now
    fd.hdlc.txData = none → InOrder fd.frames.sQueue.frames fd.frames.sQueue.lookupIndex
  | .call (.sendPacket ..) | .call (.onRxData ..) => True
  | .foreign s data => (net !s).station.hdlc.txData = none ∧ data ≠ [] ∧
      data.length + getCrcFieldSize (net s).station.hdlc.crcType ≤ (net s).station.hdlc.physMtu ∧
      (net s).station.peerMgr.addressFieldToPeer (data.getD 0 0) ≠ peer s

/-- Two stations of the line that have just connected: nothing is counted between them,
queued or on its way, whatever the others are doing. -/
structure JustJoined (peer : Bool → ℕ) (net : Net) : Prop where
  fresh : ∀ s, Session.Fresh (net s).station (peer s)
  nextNr : ∀ s, ((net s).station.peer (peer s)).iQueueControl.rxState.nextNr = 0
  waits : ∀ s, (net s).station.Waits ((net s).station.addrField (peer s)) []
  channel : ∀ s, ∀ frame ∈ (net.outlook s).2,
    (net s).station.peerMgr.addressFieldToPeer (frame.getD 0 0) ≠ peer s
  settled : net.Settled
  accepted : ∀ s, (net s).accepted = []

/-- What each of the two has read from the other one since `net₀` is a prefix of what the
other one has accepted for it. -/
def DeliversTo (peer : Bool → ℕ) (net₀ net : Net) : Prop :=
  ∀ s, ∃ delivered, (net s).station.readsFrom (peer s) = (net₀ s).station.readsFrom
    (peer s) ++ delivered ∧
    delivered <+: (net !s).accepted

variable {peer : Bool → ℕ} {addr : UInt8} {old : Bool → List Bytes} {net net' : Net} {s : Bool}

theorem getTxData_wired (hw : Wired peer addr net) (ha : net.Settled) {now : Instant}
    {room timeoutMs : ℕ} {lost : Bool}
    (hs : net.step (.getTxData s now room timeoutMs lost) = some net') :
    let fd := (net s).station.checkTimeouts now
    ∃ ll, net'.frames = ((net.frames.checkTimeouts s now).generateTxFrames s now
        (if lost then [] else (handed fd (fd.generateTxFrames now)).toList)).withHdlc s ll ∧
      Wired peer addr net' ∧ net'.Settled := by
  intro fd
  obtain ⟨ll, hf, hother, hself, hok, herase, -⟩ := frames_getTxData (hw.wf s) hs
  have hwf := wellFormed_checkTimeouts (hw.wf s) now
  have hhdlc : fd.hdlc = (net s).station.hdlc := checkTimeouts_hdlc ..
  obtain ⟨p, hp, hdec⟩ :=
    decode_sentBytes (hw.crcType s) (hw.physMtu s) hwf (by rw [hhdlc])
      (by rw [hhdlc]) now lost (ha !s)
  rw [hdec] at hf hother
  have hwf' := wellFormed_generateTxFrames hwf now
  have hwired := (hw.frames.checkTimeouts s now).generateTxFrames s now
    (if lost then [] else (handed fd (fd.generateTxFrames now)).toList)
  refine ⟨ll, hf, ?_, both s ?_ ?_⟩
  · apply Wired.of_frames
    rw [hf]
    apply hwired.withHdlc
    have hst : (((net.frames.checkTimeouts s now).generateTxFrames s now
        (if lost then [] else (handed fd (fd.generateTxFrames now)).toList)) s).station =
          fd.generateTxFrames now := by
      rw [Frames.generateTxFrames, put_of_not, put_self, Frames.checkTimeouts, put_self]
      rfl
    rw [hst]
    exact moved_tx hwf'.rx hwf'.rxFrames hok herase
  · rw [hself]
    exact ha s
  · rw [hother]
    exact hp

theorem onRxData_wired (hw : Wired peer addr net) (ha : net.Settled) {now : Instant} {count : ℕ}
    (hs : net.step (.onRxData s now count) = some net') :
    ∃ k ll, net'.frames = ((fun f : Frames ↦ f.receive s now)^[k] net.frames).withHdlc s ll ∧
      Wired peer addr net' ∧ net'.Settled := by
  obtain ⟨ll, hf, ⟨rest, hrest⟩, hphase, hok, hframes, herase⟩ := frames_onRxData (hw.wf s) hs
  refine ⟨_, ll, hf, ?_, fun t ↦ by rw [hphase t]; exact ha t⟩
  apply Wired.of_frames
  rw [hf]
  apply (hw.frames.receives s now _).withHdlc
  rw [Frames.receive_iterate s now _ _ hrest.symm, put_self, deliver_hdlc]
  exact moved_rx (hw.wf s).tx hok hframes herase

theorem foreign_wired (hw : Wired peer addr net) (ha : net.Settled) {data : Bytes}
    (hfree : (net !s).station.hdlc.txData = none) (hne : data ≠ [])
    (hfit : data.length + getCrcFieldSize (net s).station.hdlc.crcType ≤
      (net s).station.hdlc.physMtu)
    (hs : net.lineStep peer (.foreign s data) = some net') :
    net'.frames = net.frames.foreign s data ∧ Wired peer addr net' ∧ net'.Settled := by
  have hnet := Option.some.inj hs
  have hgood := HdlcLl.goodFrames_bodies (net s).station.hdlc.crcType [data]
  have hrest : (if (net !s).dropping then [] else (net !s).station.hdlc.txRest) = [] := by
    rw [HdlcLl.txRest_eq_nil.mpr hfree, ite_self]
  have hself : net'.outlook s = (.hunt, (net.outlook s).2 ++ [data]) := by
    have hpending : net'.pending s = net.pending s ++
        wireFrame (net s).station.hdlc.crcType data := by
      rw [pending, pending, ← hnet, put_self, put_not, hrest, List.append_nil, List.append_nil]
    have hstation : (net' s).station = (net s).station := by rw [← hnet, put_self]
    have hlast : (net s).station.decode (net.outlook s).1
        (wireFrame (net s).station.hdlc.crcType data) = (.hunt, [data]) := by
      rw [decode, wireFrame, HdlcLl.receiveAll_body _ (ha s) ⟨hne, hfit⟩]
      exact congrArg (Prod.mk Phase.hunt) hgood
    rw [outlook, hpending, hstation, decode_append, ← outlook, hlast]
  have hnot : net'.outlook (!s) = net.outlook !s := by
    apply outlook_congr
    · rw [← hnet, put_not]
    · rw [pending, pending, Bool.not_not, ← hnet, put_not, put_self]
  refine ⟨?_, ?_, both s ?_ ?_⟩
  · apply Side.ext_not
    · rw [frames, hself, ← hnet, put_self, Frames.foreign, put_self]
      rfl
    · rw [frames, hnot, ← hnet, put_not, Frames.foreign, put_not]
      rfl
  · rw [← hnet]
    exact hw.put (hw.wf s) rfl rfl
  · rw [hself]
    trivial
  · rw [hnot]
    exact ha _

theorem sendPacket_wired (hw : Wired peer addr net) (ha : net.Settled) {address : UInt8}
    {data : Bytes} {timeoutMs : ℕ}
    (hs : net.lineStep peer (.call (.sendPacket s address data timeoutMs)) = some net') :
    net'.frames = net.frames.sendPacketTo peer s address data timeoutMs ∧ Wired peer addr net' ∧
    net'.Settled := by
  have hnet := Option.some.inj hs
  have hout : ∀ t, net'.outlook t = net.outlook t := by
    rw [← hnet]
    exact outlook_put (sendPacket_hdlc ..) rfl rfl
  have hf : net'.frames = net.frames.sendPacketTo peer s address data timeoutMs := by
    apply Side.ext_not
    · rw [frames, hout, ← hnet, Frames.sendPacketTo, put_self, put_self]
      rfl
    · rw [frames, hout, ← hnet, Frames.sendPacketTo, put_not, put_not]
      rfl
  refine ⟨hf, ?_, fun t ↦ by rw [hout]; exact ha t⟩
  apply Wired.of_frames
  rw [hf]
  exact wired_sendPacketTo hw.frames s address data timeoutMs

structure Followed (peer : Bool → ℕ) (addr : UInt8) (old : Bool → List Bytes)
    (net : Net) : Prop where
  wired : Wired peer addr net
  settled : net.Settled
  followed : Frames.Followed peer addr old net.frames

theorem followed_step (hf : Followed peer addr old net) {op : LineOp} (hproper : op.Proper peer net)
    (hs : net.lineSession peer op = some net') : Followed peer addr old net' := by
  rw [lineSession, Option.filter_eq_some_iff] at hs
  obtain ⟨hs, hconn⟩ := hs
  rw [decide_eq_true_eq] at hconn
  obtain ⟨hw, ha, h, ht, hsafe⟩ := hf
  cases op with
  | foreign s data =>
    obtain ⟨hfree, hne, hfit, hno⟩ := hproper
    obtain ⟨hframes, hw', ha'⟩ := foreign_wired hw ha hfree hne hfit hs
    refine ⟨hw', ha', h, ?_, hsafe⟩
    rw [hframes]
    exact follows_foreign ht s hno
  | call op =>
    cases op with
    | sendPacket s address data timeoutMs =>
      obtain ⟨hframes, hw', ha'⟩ := sendPacket_wired hw ha hs
      obtain ⟨h', ht', hlead⟩ := follows_sendPacketTo ht hsafe s address data timeoutMs
      refine ⟨hw', ha', ?_⟩
      rw [hframes]
      exact followed_leads hsafe ht' hlead
    | disconnect s =>
      obtain ⟨hframes, hphase⟩ := frames_disconnect hs
      have hw' := hw.frames.disconnect s
      rw [← hframes] at hw'
      refine ⟨hw'.of_frames, fun t ↦ by rw [hphase t]; exact ha t, h, ?_, hsafe⟩
      rw [hframes]
      exact follows_disconnect ht s hproper
    | getTxData s now room timeoutMs lost =>
      obtain ⟨ll, hframes, hw', ha'⟩ := getTxData_wired hw ha hs
      have hstation : ((net.frames.checkTimeouts s now) s).station =
          (net s).station.checkTimeouts now := by
        rw [Frames.checkTimeouts, put_self]
        rfl
      have hset : ((net s).station.checkTimeouts now).setup = (net s).station.setup :=
        setup_checkTimeouts ..
      have hsep := (hw.separate s).congr hset
      have hlt := hw.lt s
      rw [← peers_length_congr hset] at hlt
      have hup : (((net s).station.checkTimeouts now).peer (peer s)).state = .connected := by
        rw [← (generateTxFrames_keeps (wellFormed_checkTimeouts (hw.wf s) now) hlt hsep.distinct
          now).1, ← hconn s]
        have hside := congrFun hframes s
        rw [Frames.withHdlc, put_self, generateTxFrames_self, hstation] at hside
        exact congrArg (fun side : Side Bytes ↦ (side.station.peer (peer s)).state) hside.symm
      have ht₁ := follows_checkTimeouts ht s now hup
      obtain ⟨h', ht', hlead⟩ :=
        follows_generateTxFrames ht₁ s now lost (by rw [hstation]; exact hproper)
      rw [hstation] at ht'
      refine ⟨hw', ha', followed_leads hsafe ?_ hlead⟩
      have hwf' := hw'.frames
      rw [hframes] at hwf' ⊢
      exact follows_withHdlc ht' hwf'
    | onRxData s now count =>
      obtain ⟨k, ll, hframes, hw', ha'⟩ := onRxData_wired hw ha hs
      obtain ⟨h', ht', hsafe'⟩ := followed_receives ⟨h, ht, hsafe⟩ s now k
      refine ⟨hw', ha', h', ?_, hsafe'⟩
      have hwf' := hw'.frames
      rw [hframes] at hwf' ⊢
      exact follows_withHdlc ht' hwf'

theorem followed_start (hw : Wired peer addr net) (hj : net.JustJoined peer) :
    Followed peer addr (fun s ↦ (net s).station.readsFrom (peer s)) net := by
  refine ⟨hw, hj.settled, ⟨fun _ ↦ .start, fun _ ↦ [], fun _ ↦ []⟩,
    ⟨hw.frames, ?_, ?_, fun _ ↦ rfl, fun _ ↦ rfl⟩, fun _ ↦ Stream.safe_start 7⟩
  · intro s
    have hwaits := hj.waits s
    rw [hw.field s] at hwaits
    exact ⟨hj.accepted s, Session.window_start (hw.wf s) (hj.fresh s), hj.nextNr s,
      (List.append_nil _).symm, hwaits⟩
  · intro s
    rw [inboxFor, List.map_nil, List.filter_eq_nil_iff]
    intro frame hmem
    rw [beq_iff_eq]
    exact hj.channel s frame hmem

/-- A primary with up to 63 peers and any one of its secondaries: over a session of the
two, whatever gets lost and whatever timers run out, and whatever the primary and the
other stations of the line say to each other meanwhile, each of the two has read at
every moment a prefix of what the other one accepted for it. -/
theorem multidrop_in_order {config : Bool → TinyFdConfig} {p : ℕ} (hp : OnLine config p)
    (hr : ∀ s, Reachable (config s) (net s).station) (hj : net.JustJoined (peerOn p))
    (ops : List LineOp)
    (hproper : EachStep (lineSession (peerOn p)) (fun net op ↦ op.Proper (peerOn p) net) net ops) :
    EachState (lineSession (peerOn p)) (DeliversTo (peerOn p) net) net ops := by
  have hw := wired_of_reachable hp hr
  have hfollowed := eachState_of_eachStep
    (P := Followed (peerOn p) (peerField p) fun s ↦ (net s).station.readsFrom (peerOn p s))
    (fun _ _ _ hf hop hs ↦ followed_step hf hop hs) (followed_start hw hj) hproper
  apply hfollowed.mono
  rintro net' ⟨-, -, h, ht, hsafe⟩ s
  have haccepted := (ht.shows !s).accepted
  refine ⟨(h.stream !s).delivered, (ht.shows s).reads, ?_⟩
  rw [show (net' !s).accepted = (h.stream !s).accepted from haccepted]
  exact (hsafe !s).delivered

instance : ∀ op : LineOp, Decidable (op.Proper peer net)
  | .call (.disconnect s) => by unfold LineOp.Proper; infer_instance
  | .call (.getTxData ..) => by unfold LineOp.Proper; infer_instance
  | .call (.sendPacket ..) | .call (.onRxData ..) => .isTrue trivial
  | .foreign s data => by unfold LineOp.Proper; infer_instance

def lineConfig (s : Bool) : TinyFdConfig :=
  { crcType := .hdlcCrcOff, addr := if s then 0 else 2, peersCount := 2 }

def joining : List Op :=
  [.getTxData true 0 8 0 false, .getTxData true 0 8 0 false, .onRxData false 0 8,
    .getTxData false 0 8 0 false, .onRxData true 0 8]

def joinedNet : Net := (replay lineConfig 0 joining).get (by decide +kernel)

def crossTalk : List LineOp :=
  [.foreign true [0x05, 0x73], .call (.onRxData true 0 4), .call (.sendPacket true 2 [1] 0),
    .call (.sendPacket true 1 [7] 0), .call (.sendPacket true 2 [2] 0),
    .call (.getTxData true 0 9 0 false),
    .foreign true [0x05, 0x00, 0x2A], .call (.onRxData true 0 5),
    .call (.getTxData true 0 9 0 false),
    .call (.getTxData true 0 9 0 true), .call (.getTxData true 0 9 0 false),
    .call (.onRxData false 0 99),
    .call (.sendPacket false 0 [3] 0), .call (.getTxData false 0 9 0 false),
    .call (.getTxData false 0 9 0 false), .call (.onRxData true 0 99),
    .call (.getTxData true 0 9 0 false), .call (.getTxData true 0 9 0 false),
    .call (.getTxData true 0 9 0 false), .call (.onRxData false 0 99)]

def crossTalkNet : Net := (run (lineSession (peerOn 1)) joinedNet crossTalk).get (by decide +kernel)

theorem multidrop_in_order_crossTalk :
    DeliversTo (peerOn 1) joinedNet crossTalkNet ∧
    (crossTalkNet false).station.readsFrom 0 = [[1], [2]] ∧
      (crossTalkNet true).station.readsFrom 1 = [[3]] ∧
      (crossTalkNet true).station.readsFrom 0 = [[42]] := by
  refine ⟨?_, by decide +kernel, by decide +kernel, by decide +kernel⟩
  have hjoined : joinedNet.JustJoined (peerOn 1) := by
    have hempty : ∀ s, (joinedNet s).station.frames.sQueue.held = [] := by decide +kernel
    exact ⟨by decide +kernel, by decide +kernel,
      fun s ↦ ⟨[], FrameQueue.queues_nil (hempty s), rfl⟩, by decide +kernel, by decide +kernel,
      by decide +kernel⟩
  have h := @multidrop_in_order joinedNet lineConfig 1 ⟨by decide, by decide, rfl, rfl⟩
    (reachable_replay _) hjoined crossTalk (by decide +kernel)
  exact h.of_run (Option.some_get _).symm

end Net

end TinyProto
