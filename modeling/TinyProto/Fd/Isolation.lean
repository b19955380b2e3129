import TinyProto.Fd.Sender

namespace TinyProto

namespace FrameQueue

variable {q : FrameQueue}

/-- The slots as they look to one address: a frame of another address counts as an
empty slot. -/
def slotsFor (q : FrameQueue) (address : UInt8) : List (Option FrameInfo) :=
  q.frames.map fun slot ↦ slot.filter fun frame ↦ frame.header.address == address

theorem slotsFor_set {address : UInt8} {i : ℕ} {slot slot' : Option FrameInfo}
    (hi : q.frames[i]? = some slot)
    (h : slot'.filter (fun frame ↦ frame.header.address == address) =
      slot.filter fun frame ↦ frame.header.address == address) :
    { q with frames := q.frames.set i slot' }.slotsFor address = q.slotsFor address := by
  obtain ⟨hlt, hget⟩ := List.getElem?_eq_some_iff.mp hi
  have hlt' : i < (q.slotsFor address).length := by rwa [slotsFor, List.length_map]
  have hsame : (q.slotsFor address)[i] = slot'.filter fun frame ↦
      frame.header.address == address := by
    rw [h, ← hget]
    exact List.getElem_map ..
  rw [slotsFor, List.map_set, ← hsame]
  exact List.set_getElem_self hlt'

theorem slotsFor_freeFirst {address : UInt8} {p : FrameInfo → Bool}
    (h : ∀ frame, p frame = true → frame.header.address ≠ address) :
    (q.freeFirst p).slotsFor address = q.slotsFor address := by
  rw [freeFirst]
  split
  · rename_i i hfind
    obtain ⟨hi, hslot, -⟩ := List.findIdx?_eq_some_iff_getElem.mp hfind
    apply slotsFor_set (List.getElem?_eq_getElem hi)
    cases hget : q.frames[i] with
    | none => rfl
    | some frame =>
      rw [hget, Option.any_some] at hslot
      rw [Option.filter_some_neg (by simpa using h frame hslot)]
      rfl
  · rfl

theorem slotsFor_freeByNs_foldl {address address' : UInt8} (hne : address' ≠ address)
    (seqs : List UInt8) (q : FrameQueue) :
    (seqs.foldl (fun q s ↦ q.freeByNs address' s) q).slotsFor address = q.slotsFor address := by
  induction seqs generalizing q with
  | nil => rfl
  | cons s seqs ih =>
    rw [List.foldl_cons, ih, freeByNs]
    apply slotsFor_freeFirst
    intro frame hp
    simp only [Bool.and_eq_true, beq_iff_eq] at hp
    rw [hp.1.1]
    exact hne

theorem slotsFor_resetFor {address address' : UInt8} (hne : address' ≠ address) :
    (q.resetFor address').slotsFor address = q.slotsFor address := by
  rw [slotsFor, slotsFor, resetFor, List.map_map]
  apply List.map_congr_left
  intro slot _
  cases slot with
  | none => rfl
  | some frame =>
    dsimp only [Function.comp]
    split
    · rename_i haddr
      rw [Option.filter_some_neg (by rw [haddr]; simpa using hne)]
      rfl
    · rfl

theorem Allocated.slotsFor {q' : FrameQueue} {frame : FrameInfo} {i : ℕ}
    (h : Allocated q q' frame i) {address : UInt8} (hne : frame.header.address ≠ address) :
    q'.slotsFor address = q.slotsFor address := by
  have hset := @slotsFor_set q address i none (some frame) h.free
    (by rw [Option.filter_some_neg (by simpa using hne)]; rfl)
  rw [FrameQueue.slotsFor, h.frames]
  exact hset

end FrameQueue

namespace TinyFd

variable {fd fd' fd'' : TinyFd}

/-- Nothing of peer `j` has changed: its record, and the slots of its I-frames. -/
structure Apart (j : ℕ) (fd fd' : TinyFd) : Prop where
  setup : fd'.setup = fd.setup
  peer : fd'.peer j = fd.peer j
  slots : fd'.frames.iQueue.slotsFor (fd.addrField j) = fd.frames.iQueue.slotsFor (fd.addrField j)

section Apart

variable {j p : ℕ}

theorem Apart.refl (j : ℕ) (fd : TinyFd) : Apart j fd fd := ⟨rfl, rfl, rfl⟩

theorem Apart.trans (h : Apart j fd fd') (h' : Apart j fd' fd'') : Apart j fd fd'' := by
  have hslots := h'.slots
  rw [addrField_congr h.setup] at hslots
  exact ⟨h'.setup.trans h.setup, h'.peer.trans h.peer, hslots.trans h.slots⟩

theorem apart_modifyPeer (fd : TinyFd) (hp : p ≠ j) {f : PeerInfo → PeerInfo}
    (hf : ∀ q, (f q).addr = q.addr) :
    Apart j fd (fd.modifyPeer p f) :=
  ⟨setup_modifyPeer p hf, peer_modifyPeer_ne hp.symm f, rfl⟩

theorem apart_putUSFrame (fd : TinyFd) (j : ℕ) (frameType : QueuedFrameType) (header : FrameHeader)
    (data : Bytes) : Apart j fd (fd.putUSFrame frameType header data).1 :=
  ⟨setup_putUSFrame .., peer_putUSFrame .., by rw [iQueue_putUSFrame]⟩

theorem apart_call (fd : TinyFd) (j : ℕ) (c : Callback) : Apart j fd (fd.call c) :=
  ⟨setup_call c, rfl, rfl⟩

theorem apart_setEvents (fd : TinyFd) (j : ℕ) (bits : UInt8) : Apart j fd (fd.setEvents bits) :=
  ⟨setup_setEvents bits, peer_setEvents bits j, rfl⟩

theorem apart_switchToConnected (fd : TinyFd) (hp : p ≠ j) (now : Instant) :
    Apart j fd (fd.switchToConnected p now) :=
  ⟨setup_switchToConnected ..,
    peer_switchToConnected_ne fd p now hp.symm, by rw [frames_switchToConnected]⟩

theorem apart_switchToDisconnected (hp : p ≠ j) (hne : fd.addrField p ≠ fd.addrField j)
    (now : Instant) :
    Apart j fd (fd.switchToDisconnected p now) := by
  by_cases hs : (fd.peer p).state = .disconnected
  · rw [switchToDisconnected_of_disconnected fd p now hs]
    exact Apart.refl j fd
  · refine ⟨setup_switchToDisconnected .., peer_switchToDisconnected_ne fd p now hp.symm, ?_⟩
    rw [iQueue_switchToDisconnected fd p now hs]
    exact FrameQueue.slotsFor_resetFor hne

theorem apart_confirmFrames (h : WellFormed fd) (hlt : p < fd.peerMgr.peers.length) (hp : p ≠ j)
    (hne : fd.addrField p ≠ fd.addrField j) {nr : UInt8} (hnr : nr < 8) :
    Apart j fd (fd.confirmFrames p nr) := by
  obtain ⟨n, hn⟩ := exists_seq_of_lt (h.counters p hlt).confirm
  refine ⟨setup_confirmFrames .., peer_confirmFrames_ne fd p nr hp.symm, ?_⟩
  rw [iQueue_confirmFrames hn hnr]
  exact FrameQueue.slotsFor_freeByNs_foldl hne _ _

theorem apart_onUFrameReceived (hp : p ≠ j) (hne : fd.addrField p ≠ fd.addrField j) (now : Instant)
    (data : Bytes) : Apart j fd (fd.onUFrameReceived p now data) := by
  have hua := fd.apart_putUSFrame j .uFrame (uaHeader (fd.addrField p)) []
  have hne' : (fd.putUSFrame .uFrame (uaHeader (fd.addrField p)) []).1.addrField p ≠
      (fd.putUSFrame .uFrame (uaHeader (fd.addrField p)) []).1.addrField j := by
    rwa [addrField_congr hua.setup, addrField_congr hua.setup]
  rcases fd.onUFrameReceived_cases p now data with ⟨-, he⟩ | ⟨-, -, he⟩ | ⟨-, he⟩ | ⟨-, he⟩ | ⟨-, -,
    -, -, -, he⟩ <;> rw [he]
  · exact hua.trans (apart_switchToConnected _ hp now)
  · exact apart_switchToConnected fd hp now
  · exact hua.trans (apart_switchToDisconnected hp hne' now)
  · exact apart_switchToDisconnected hp hne now
  · exact Apart.refl j fd

theorem apart_onIFrameReceived (h : WellFormed fd) (hlt : p < fd.peerMgr.peers.length) (hp : p ≠ j)
    (hne : fd.addrField p ≠ fd.addrField j) (data : Bytes) :
    Apart j fd (fd.onIFrameReceived p data) := by
  obtain ⟨n, hn⟩ := exists_seq_of_lt (h.counters p hlt).confirm
  have hack := apart_confirmFrames h hlt hp hne (mask_lt (data.getD 1 0 >>> 1))
  rcases onIFrameReceived_cases hlt hn data with ⟨-, -, he⟩ | ⟨-, -, he⟩ | ⟨-, he⟩ <;> rw [he]
  · exact hack
  · refine (hack.trans (apart_modifyPeer _ hp ?_)).trans (apart_putUSFrame ..)
    intro _
    rfl
  · refine (hack.trans ?_).trans (apart_putUSFrame ..)
    refine (apart_modifyPeer _ hp ?_).trans (apart_call ..)
    intro _
    rfl

theorem apart_onSFrameReceived (h : WellFormed fd) (hlt : p < fd.peerMgr.peers.length) (hp : p ≠ j)
    (hne : fd.addrField p ≠ fd.addrField j) (data : Bytes) :
    Apart j fd (fd.onSFrameReceived p data) := by
  have hack := apart_confirmFrames h hlt hp hne (mask_lt (data.getD 1 0 >>> 5))
  rcases onSFrameReceived_cases fd p data with ⟨-, he⟩ | ⟨-, he⟩ | ⟨-, -, -, he⟩ <;> rw [he]
  · refine hack.trans (apart_modifyPeer _ hp ?_)
    intro _
    rfl
  · refine hack.trans ((apart_modifyPeer _ hp ?_).trans (apart_setEvents ..))
    intro _
    rfl
  · exact hack

theorem apart_onFrameReceived (h : WellFormed fd) {data : Bytes} (hto : fd.AddressedTo p data)
    (hlt : p < fd.peerMgr.peers.length) (hp : p ≠ j) (hne : fd.addrField p ≠ fd.addrField j)
    (now : Instant) :
    Apart j fd (fd.onFrameReceived now data) := by
  have htouch : Apart j fd (fd.touch p now) := apart_modifyPeer fd hp fun _ ↦ rfl
  have hwf := wellFormed_touch h hlt now
  have hlt' : p < (fd.touch p now).peerMgr.peers.length := by rwa [peers_length_touch]
  have hne' : (fd.touch p now).addrField p ≠ (fd.touch p now).addrField j := by
    rwa [addrField_congr htouch.setup, addrField_congr htouch.setup]
  rcases fd.onFrameReceived_cases now data with ⟨-, he⟩ | ⟨p', hto', -, hcases⟩
  · rw [he]
    exact Apart.refl j fd
  obtain rfl : p' = p := hto'.2.symm.trans hto.2
  rcases hcases with ⟨-, he⟩ | ⟨-, -, -, he⟩ | ⟨-, -, ⟨-, he⟩ | ⟨-, he⟩⟩ <;> rw [he]
  · exact htouch.trans (apart_onUFrameReceived hp hne' now data)
  · exact htouch.trans (apart_putUSFrame ..)
  · exact htouch.trans (apart_onIFrameReceived hwf hlt' hp hne' data)
  · exact htouch.trans (apart_onSFrameReceived hwf hlt' hp hne' data)

theorem apart_sendPacket {address : UInt8} (hp : fd.sendPeer address ≠ j)
    (hne : fd.addrField (fd.sendPeer address) ≠ fd.addrField j) (data : Bytes) (timeoutMs : ℕ) :
    Apart j fd (fd.sendPacket address data timeoutMs).1 := by
  have hsetup := setup_sendPacket fd address data timeoutMs
  rcases fd.sendPacket_cases address data timeoutMs with ⟨e, he⟩ | ⟨-, -, -, q, i, events, ha, he⟩
  · rw [he]
    exact Apart.refl j fd
  · rw [he] at hsetup ⊢
    exact ⟨hsetup, peer_modifyPeer_ne hp.symm _, ha.slotsFor hne⟩

end Apart

/-! The peers of a primary station. -/

section Primary

theorem addr_new {config : TinyFdConfig} {now : Instant} (hnew : TinyFd.new config now = .ok fd)
    (hprimary : fd.peerMgr.isPrimaryStation = true) {p : ℕ} (hp : p < fd.peerMgr.peers.length) :
    (fd.peer p).addr = (UInt8.ofNat p + 1) <<< 2 ||| hdlcEBit := by
  obtain ⟨localAddr, hpeers⟩ := (initial_new hnew).peerMgr
  rw [peer]
  rw [hpeers] at hprimary hp ⊢
  dsimp only [PeerManager.new, PeerManager.isPrimaryStation, PeerManager.peer] at hprimary hp ⊢
  rw [if_pos hprimary] at hp
  rw [if_pos hprimary, List.getD_eq_getElem _ _ hp, List.getElem_map, List.getElem_range]
  rfl

theorem addr_handling {config : TinyFdConfig} (hr : Handling config fd)
    (hprimary : fd.peerMgr.isPrimaryStation = true) {p : ℕ} (hp : p < fd.peerMgr.peers.length) :
    (fd.peer p).addr = (UInt8.ofNat p + 1) <<< 2 ||| hdlcEBit := by
  obtain ⟨now, fd₀, hnew, hs⟩ : ∃ now fd₀, TinyFd.new config now = .ok fd₀ ∧
      fd.setup = fd₀.setup := by
    cases hr with
    | call hr =>
      obtain ⟨now, fd₀, hnew, hs, -⟩ := hr.origin
      exact ⟨now, fd₀, hnew, hs⟩
    | within now' frames data hr =>
      obtain ⟨now, fd₀, hnew, hs, -⟩ := hr.origin
      exact ⟨now, fd₀, hnew, (setup_deliver hr.wellFormed now' frames).trans hs⟩
  rw [isPrimaryStation_congr hs] at hprimary
  rw [peers_length_congr hs] at hp
  rw [addr_peer_congr hs]
  exact addr_new hnew hprimary hp

theorem addrField_primary (hprimary : fd.peerMgr.isPrimaryStation = true) (p : ℕ) :
    fd.addrField p = (fd.peer p).addr &&& ~~~hdlcCrBit := by
  rw [addrField, PeerManager.peerToAddressField, if_pos hprimary]
  rfl

/-- Up to 63 peers the number of a peer can be read from its address field. -/
theorem distinct_handling {config : TinyFdConfig} (hr : Handling config fd)
    (hprimary : fd.peerMgr.isPrimaryStation = true) (hle : fd.peerMgr.peers.length ≤ 63) {i : ℕ}
    (hi : i < fd.peerMgr.peers.length) : Distinct fd i := by
  have hread : ∀ p : Fin 63,
      ((((UInt8.ofNat p + 1) <<< 2 ||| hdlcEBit) &&& ~~~hdlcCrBit) >>> 2).toNat = p + 1 := by
    decide +kernel
  intro j hj hne heq
  rw [addrField_primary hprimary, addrField_primary hprimary, addr_handling hr hprimary hj,
    addr_handling hr hprimary hi] at heq
  have hj' := hread ⟨j, by omega⟩
  have hi' := hread ⟨i, by omega⟩
  rw [heq] at hj'
  exact hne (Nat.succ.inj (hj'.symm.trans hi'))

theorem addressFieldToPeer_eq (hprimary : fd.peerMgr.isPrimaryStation = true) {i : ℕ}
    (hi : i < fd.peerMgr.peers.length) (hd : Distinct fd i) {address : UInt8}
    (h : address &&& ~~~hdlcCrBit = fd.addrField i) :
    fd.peerMgr.addressFieldToPeer address = i := by
  have hget : ∀ j (hj : j < fd.peerMgr.peers.length), fd.addrField j = fd.peerMgr.peers[j].addr &&&
      ~~~hdlcCrBit := by
    intro j hj
    rw [addrField_primary hprimary, peer, PeerManager.peer, List.getD_eq_getElem _ _ hj]
  rw [PeerManager.addressFieldToPeer]
  dsimp only
  rw [if_pos hprimary, h]
  have hfind : (fd.peerMgr.peers.findIdx? fun p ↦ (p.addr &&& ~~~hdlcCrBit) == fd.addrField i) =
      some i := by
    rw [List.findIdx?_eq_some_iff_getElem]
    refine ⟨hi, ?_, ?_⟩
    · rw [← hget i hi, beq_self_eq_true]
    · intro j hji
      have hj := hji.trans hi
      rw [← hget j hj]
      simpa using hd j hj hji.ne
  rw [hfind]
  rfl

theorem addressFieldToPeer_none (hprimary : fd.peerMgr.isPrimaryStation = true) {address : UInt8}
    (h : ∀ p < fd.peerMgr.peers.length, address &&& ~~~hdlcCrBit ≠ fd.addrField p) :
    fd.peerMgr.addressFieldToPeer address = hdlcInvalidPeerIndex := by
  rw [PeerManager.addressFieldToPeer]
  dsimp only
  rw [if_pos hprimary]
  have hfind :
      (fd.peerMgr.peers.findIdx? fun p ↦ (p.addr &&& ~~~hdlcCrBit) == address &&& ~~~hdlcCrBit) =
        none := by
    rw [List.findIdx?_eq_none_iff]
    intro q hq
    obtain ⟨p, hp, rfl⟩ := List.getElem_of_mem hq
    have hne := h p hp
    rw [addrField_primary hprimary, peer, PeerManager.peer, List.getD_eq_getElem _ _ hp] at hne
    simpa using Ne.symm hne
  rw [hfind]
  rfl

theorem addrField_addressFieldToPeer (hprimary : fd.peerMgr.isPrimaryStation = true)
    {address : UInt8} (h : fd.peerMgr.addressFieldToPeer address ≠ hdlcInvalidPeerIndex) :
    fd.addrField (fd.peerMgr.addressFieldToPeer address) = address &&& ~~~hdlcCrBit := by
  rw [PeerManager.addressFieldToPeer] at h ⊢
  dsimp only at h ⊢
  rw [if_pos hprimary] at h ⊢
  cases hf : fd.peerMgr.peers.findIdx? fun p ↦ (p.addr &&& ~~~hdlcCrBit) == address &&&
    ~~~hdlcCrBit with
  | none =>
    rw [hf] at h
    exact absurd rfl h
  | some p =>
    obtain ⟨hp, hfield, -⟩ := List.findIdx?_eq_some_iff_getElem.mp hf
    rw [Option.getD_some, addrField_primary hprimary, peer, PeerManager.peer,
      List.getD_eq_getElem _ _ hp]
    exact eq_of_beq hfield

/-- `address` is the number of peer `i`, or names the first peer. -/
def Addresses (fd : TinyFd) (address : UInt8) (i : ℕ) : Prop :=
  if address = fdPrimaryAddr then i = 0 else address <<< 2 ||| hdlcEBit = fd.addrField i

instance (fd : TinyFd) (address : UInt8) (i : ℕ) : Decidable (fd.Addresses address i) := by
  unfold Addresses
  infer_instance

theorem userField_masked (address : UInt8) : (address <<< 2 ||| hdlcEBit) &&& ~~~hdlcCrBit =
    address <<< 2 ||| hdlcEBit := by
  have hall : ∀ n : Fin 256, (UInt8.ofNat n <<< 2 ||| hdlcEBit) &&& ~~~hdlcCrBit = UInt8.ofNat n <<<
      2 ||| hdlcEBit := by
    decide +kernel
  have h := hall ⟨address.toNat, address.toNat_lt⟩
  rwa [UInt8.ofNat_toNat] at h

theorem addresses_sendPeer (hprimary : fd.peerMgr.isPrimaryStation = true)
    (hne : fd.peerMgr.peers ≠ []) {address : UInt8}
    (hvalid : fd.sendPeer address ≠ hdlcInvalidPeerIndex) :
    fd.Addresses address (fd.sendPeer address) := by
  rw [Addresses]
  split
  · rename_i hfirst
    rw [sendPeer, if_pos hfirst, if_neg hne]
  · rename_i hother
    rw [sendPeer, if_neg hother] at hvalid ⊢
    rw [addrField_addressFieldToPeer hprimary hvalid, userField_masked]

/-- Where address fields are distinct, `send_packet` looks up the peer that the address
means. -/
theorem sendPeer_eq_iff (hprimary : fd.peerMgr.isPrimaryStation = true) {i : ℕ}
    (hi : i < fd.peerMgr.peers.length) (hle : fd.peerMgr.peers.length ≤ hdlcInvalidPeerIndex)
    (hd : Distinct fd i) (address : UInt8) : fd.sendPeer address = i ↔ fd.Addresses address i := by
  have hne := List.ne_nil_of_length_pos (Nat.zero_lt_of_lt hi)
  constructor
  · rintro rfl
    exact addresses_sendPeer hprimary hne (hi.trans_le hle).ne
  · intro haddr
    rw [Addresses] at haddr
    rw [sendPeer, if_neg hne]
    split at haddr
    · rename_i hfirst
      rw [if_pos hfirst, haddr]
    · rename_i hother
      rw [if_neg hother]
      exact addressFieldToPeer_eq hprimary hi hd ((userField_masked address).trans haddr)

/-- The peers of a primary station do not disturb each other, and a frame for nobody
disturbs none. -/
theorem peers_isolated {config : TinyFdConfig} (hr : Handling config fd)
    (hprimary : fd.peerMgr.isPrimaryStation = true) (hle : fd.peerMgr.peers.length ≤ 63) :
    (∀ i < fd.peerMgr.peers.length, ∀ j < fd.peerMgr.peers.length, i ≠ j →
      (∀ now data, data.getD 0 0 &&& ~~~hdlcCrBit = fd.addrField i →
        let fd' := fd.onFrameReceived now data
        fd'.peer j = fd.peer j ∧
          fd'.frames.iQueue.slotsFor (fd.addrField j) = fd.frames.iQueue.slotsFor
            (fd.addrField j)) ∧
      ∀ address data timeoutMs, fd.Addresses address i →
        let fd' := (fd.sendPacket address data timeoutMs).1
        fd'.peer j = fd.peer j ∧
          fd'.frames.iQueue.slotsFor (fd.addrField j) = fd.frames.iQueue.slotsFor
            (fd.addrField j)) ∧
    ∀ now data, (∀ p < fd.peerMgr.peers.length, data.getD 0 0 &&& ~~~hdlcCrBit ≠ fd.addrField p) →
      fd.onFrameReceived now data = fd := by
  refine ⟨?_, ?_⟩
  · intro i hi j hj hij
    have hne := distinct_handling hr hprimary hle hj i hi hij
    have hd := distinct_handling hr hprimary hle hi
    refine ⟨?_, ?_⟩
    · intro now data haddr
      have hpeer := addressFieldToPeer_eq hprimary hi hd haddr
      by_cases hlen : 2 ≤ data.length
      · have h := apart_onFrameReceived hr.wellFormed ⟨hlen, hpeer⟩ hi hij hne now
        exact ⟨h.peer, h.slots⟩
      · rcases fd.onFrameReceived_cases now data with ⟨-, he⟩ | ⟨p, hto, -⟩
        · rw [he]
          exact ⟨rfl, rfl⟩
        · exact absurd hto.1 hlen
    · intro address data timeoutMs haddr
      obtain rfl := (sendPeer_eq_iff hprimary hi hr.wellFormed.peers_le hd address).mpr haddr
      have h := apart_sendPacket hij hne data timeoutMs
      exact ⟨h.peer, h.slots⟩
  · intro now data hno
    have hpeer := addressFieldToPeer_none hprimary hno
    rcases fd.onFrameReceived_cases now data with ⟨-, he⟩ | ⟨p, hto, hp, -⟩
    · exact he
    · exact absurd (hto.2.symm.trans hpeer) hp

def twoPeerStation : TinyFd :=
  (replay { crcType := .hdlcCrcOff, windowFrames := 2, peersCount := 2 } 0
    [.onRxData 0 [0x7E, 0x09, 0x3F, 0x7E], .sendPacket 2 [7] 0]).get (by decide +kernel)

theorem peers_isolated_disc :
    let fd' := twoPeerStation.onFrameReceived 5 [0x05, 0x53]
    fd'.peer 1 = twoPeerStation.peer 1 ∧
      fd'.frames.iQueue.slotsFor (twoPeerStation.addrField 1) =
      [some ⟨.iFrame, ⟨0x09, 0x00⟩, [7]⟩, none] := by
  have h := (peers_isolated (.call (reachable_replay _)) (by decide +kernel) (by decide +kernel) :
    (∀ i < twoPeerStation.peerMgr.peers.length, ∀ j < twoPeerStation.peerMgr.peers.length,
      i ≠ j → _) ∧ _)
  have h₀ := (h.1 0 (by decide +kernel) 1 (by decide +kernel) (by decide)).1 5 [0x05, 0x53]
    (by decide +kernel)
  have hqueued : twoPeerStation.frames.iQueue.slotsFor (twoPeerStation.addrField 1) =
      [some ⟨.iFrame, ⟨0x09, 0x00⟩, [7]⟩, none] := by decide +kernel
  rw [← hqueued]
  exact h₀

end Primary

/-! Calls that fail, and what a packet takes. -/

section Calls

theorem mtu_allocate (q : FrameQueue) (frameType : QueuedFrameType) (header : FrameHeader)
    (data : Bytes) : (q.allocate frameType header data).1.mtu = q.mtu := by
  rcases q.allocate_spec frameType header data with ⟨q', i, h, -, hmtu⟩ | ⟨h, -⟩ <;> rw [h]
  exact hmtu

theorem mtu_putIFrame (fd : TinyFd) (p : ℕ) (address : UInt8) (data : Bytes) :
    (fd.putIFrame p address data).1.frames.iQueue.mtu = fd.frames.iQueue.mtu := by
  have hmtu := mtu_allocate fd.frames.iQueue .iFrame
    ⟨address,
      iControl (fd.peer p).iQueueControl.getLastNs (fd.peer p).iQueueControl.getNextFrameToReceive⟩
        data
  rw [putIFrame]
  dsimp only
  split
  · rfl
  · split
    · rename_i hq
      rw [hq] at hmtu
      exact hmtu
    · rfl

theorem mtu_sendPacket (fd : TinyFd) (address : UInt8) (data : Bytes) (timeoutMs : ℕ) :
    (fd.sendPacket address data timeoutMs).1.frames.iQueue.mtu = fd.frames.iQueue.mtu := by
  have hmtu := mtu_putIFrame fd (fd.sendPeer address) (fd.addrField (fd.sendPeer address)) data
  rw [sendPacket]
  split
  · rfl
  dsimp only
  split
  · rfl
  split
  · rfl
  split
  · rename_i hput
    rw [hput] at hmtu
    exact hmtu
  · rename_i hput
    rw [hput] at hmtu
    split <;> exact hmtu

/-- A call that fails changes nothing. A packet that is accepted fills one free slot
with its frame and advances `last_ns` of its peer; besides these only the queue's
cursor and the event bits move. -/
theorem calls_atomic {config : TinyFdConfig} (hr : Reachable config fd) :
    (∀ address data timeoutMs e, (fd.sendPacket address data timeoutMs).2 = .error e →
      (fd.sendPacket address data timeoutMs).1 = fd) ∧
    (∀ e, fd.disconnect.2 = .error e → fd.disconnect.1 = fd) ∧
    ∀ address data timeoutMs, (fd.sendPacket address data timeoutMs).2 = .ok () →
      let fd' := (fd.sendPacket address data timeoutMs).1
      let p := fd.sendPeer address
      let control := (fd.peer p).iQueueControl
      p < fd.peerMgr.peers.length ∧ (fd.peerMgr.isPrimaryStation = true → fd.Addresses address p) ∧
        (fd'.peer p).iQueueControl.txState.lastNs.toNat = (control.txState.lastNs.toNat + 1) % 8 ∧
        ∃ i, fd.frames.iQueue.frames[i]? = some none ∧
          fd' =
            { fd.modifyPeer p
              (fun q ↦ { q with iQueueControl := q.iQueueControl.moveToNextNs }) with
              frames := { fd.frames with iQueue := { fd.frames.iQueue with
                frames := fd.frames.iQueue.frames.set i (some ⟨.iFrame,
                  ⟨fd.addrField p, iControl control.txState.lastNs control.rxState.nextNr⟩, data⟩)
                lookupIndex := fd'.frames.iQueue.lookupIndex } }
              events := fd'.events } := by
  refine ⟨?_, ?_, ?_⟩
  · intro address data timeoutMs e herr
    rcases fd.sendPacket_cases address data timeoutMs with ⟨e', he⟩ | ⟨-, -, -, q, i, events, -, he⟩
    · rw [he]
    · rw [he] at herr
      cases herr
  · intro e herr
    rcases fd.disconnect_cases with ⟨-, he⟩ | ⟨q, i, -, he, -⟩
    · rw [he]
    · rw [he] at herr
      cases herr
  · intro address data timeoutMs hok fd' p control
    have hmtu := mtu_sendPacket fd address data timeoutMs
    rcases fd.sendPacket_cases address data timeoutMs with ⟨e, he⟩ | ⟨hvalid, -, -, q, i,
      events, ha, he⟩
    · rw [he] at hok
      cases hok
    · have hp : p < fd.peerMgr.peers.length := sendPeer_lt hr.wellFormed.peers_ne hvalid
      have hfd' : fd' = _ := congrArg Prod.fst he
      have hpeer : (fd'.peer p).iQueueControl = control.moveToNextNs := by
        rw [hfd']
        exact congrArg PeerInfo.iQueueControl (peer_modifyPeer_self hp _)
      have hnext : (control.txState.lastNs + 1 &&& seqBitsMask).toNat =
          (control.txState.lastNs.toNat + 1) % 8 := by
        rw [toNat_mask, UInt8.toNat_add, UInt8.toNat_one]
        omega
      refine ⟨hp,
        fun hprimary ↦ addresses_sendPeer hprimary hr.wellFormed.peers_ne
          hvalid, by rw [hpeer]; exact hnext, i, ha.free, ?_⟩
      obtain ⟨slots, mtu, cursor⟩ := q
      obtain rfl : slots = fd.frames.iQueue.frames.set i _ := ha.frames
      obtain rfl : mtu = fd.frames.iQueue.mtu := by
        rw [he] at hmtu
        exact hmtu
      rw [hfd']

theorem calls_atomic_packets :
    (twoPeerStation.sendPacket 9 [3] 0).1 = twoPeerStation ∧
      ((twoPeerStation.sendPacket 1 [3] 0).1.peer 0).iQueueControl.txState.lastNs.toNat = 1 ∧
      ∃ i : ℕ, twoPeerStation.frames.iQueue.frames[i]? = some none := by
  obtain ⟨hrefused, -, haccepted⟩ := @calls_atomic twoPeerStation _ (reachable_replay _)
  obtain ⟨-, -, hnext, i, hfree, -⟩ := haccepted 1 [3] 0 (by decide +kernel)
  have hfirst :
      ((twoPeerStation.peer (twoPeerStation.sendPeer 1)).iQueueControl.txState.lastNs.toNat + 1) %
        8 = 1 := by
    decide +kernel
  have hpeer : twoPeerStation.sendPeer 1 = 0 := by decide +kernel
  rw [hfirst, hpeer] at hnext
  exact ⟨hrefused 9 [3] 0 .unknownPeer (by decide +kernel), hnext, i, hfree⟩

end Calls

end TinyFd

end TinyProto
