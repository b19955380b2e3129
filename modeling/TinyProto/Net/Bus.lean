import Mathlib.Logic.Function.Basic
import TinyProto.Fd.Reports

namespace TinyProto

open Lib

namespace TinyFd

variable {fd fd' : TinyFd}

/-! A received frame or a timer only takes I-frames out of the queue. -/

theorem iHeld_switchToDisconnected (fd : TinyFd) (p : ℕ) (now : Instant) :
    (fd.switchToDisconnected p now).frames.iQueue.held ⊆ fd.frames.iQueue.held := by
  by_cases hs : (fd.peer p).state = .disconnected
  · rw [switchToDisconnected_of_disconnected fd p now hs]
    exact List.Subset.refl _
  · rw [iQueue_switchToDisconnected fd p now hs, FrameQueue.held_resetFor]
    exact List.filter_subset_self _

theorem iHeld_onFrameReceived (h : WellFormed fd) (now : Instant) (data : Bytes) :
    (fd.onFrameReceived now data).frames.iQueue.held ⊆ fd.frames.iQueue.held := by
  rcases fd.onFrameReceived_cases now data with ⟨-, he⟩ | ⟨p, hto, hvalid, -⟩
  · rw [he]
    exact List.Subset.refl _
  have hp := AddressedTo.lt h hto hvalid
  have hp₁ : p < (fd.touch p now).peerMgr.peers.length := by rwa [peers_length_touch]
  obtain ⟨n, hn⟩ := exists_seq_of_lt ((wellFormed_touch h hp now).counters p hp₁).confirm
  have hreacts := onFrameReceived_reacts h hto hvalid now
  generalize fd.onFrameReceived now data = fd' at hreacts
  rw [← frames_touch fd p now]
  cases hreacts with
  | setup =>
    rw [frames_switchToConnected, iQueue_putUSFrame]
    exact List.Subset.refl _
  | opened =>
    rw [frames_switchToConnected]
    exact List.Subset.refl _
  | disc =>
    refine List.Subset.trans (iHeld_switchToDisconnected ..) ?_
    rw [iQueue_putUSFrame]
    exact List.Subset.refl _
  | closed => exact iHeld_switchToDisconnected ..
  | otherU => exact List.Subset.refl _
  | refused =>
    rw [iQueue_putUSFrame]
    exact List.Subset.refl _
  | iFrame hI hs =>
    rw [(onIFrameReceived_acked hp₁ hn data hI).iQueue]
    exact held_freeByNs_foldl ..
  | sFrame hI hU hs =>
    rw [(onSFrameReceived_acked hp₁ hn data hI).iQueue]
    exact held_freeByNs_foldl ..

theorem iHeld_checkTimeout (fd : TinyFd) (now : Instant) (p : ℕ) :
    (fd.checkTimeout now p).frames.iQueue.held ⊆ fd.frames.iQueue.held := by
  rcases fd.checkTimeout_cases now p with ⟨he, -⟩ | ⟨-, -, he⟩ | ⟨-, -, ⟨-, he⟩ | ⟨-, he⟩⟩ | ⟨-, -,
    -, -, he⟩ | ⟨-, he⟩ <;> rw [he]
  · exact List.Subset.refl _
  · rw [frames_modifyPeer, iQueue_putUSFrame]
    exact List.Subset.refl _
  · exact List.Subset.refl _
  · rw [frames_modifyPeer, iQueue_putUSFrame]
    exact List.Subset.refl _
  · exact iHeld_switchToDisconnected ..
  · exact List.Subset.refl _

theorem read_onFrameReceived (h : WellFormed fd) {now : Instant} {data : Bytes} {address : UInt8}
    {payload : Bytes} (hread : .read address payload ∈ (fd.onFrameReceived now data).callbacks) :
    .read address payload ∈ fd.callbacks ∨ data.getD 1 0 &&& hdlcIFrameMask = hdlcIFrameBits ∧
    payload = data.drop 2 ∧
      address = fd.userAddress (fd.peerMgr.addressFieldToPeer (data.getD 0 0)) := by
  rcases fd.onFrameReceived_cases now data with ⟨-, he⟩ | ⟨p, hto, hvalid, -⟩
  · rw [he] at hread
    exact .inl hread
  rcases frame_reports h hto hvalid now with ⟨-, hr⟩ | ⟨-, hr⟩ | ⟨-, -, -, hr | hr⟩ <;>
    rw [hr.callbacks] at hread
  · exact .inl ((List.mem_append.mp hread).resolve_right (by simp))
  · exact .inl ((List.mem_append.mp hread).resolve_right (by simp))
  · exact .inl hread
  · refine (List.mem_append.mp hread).imp_right fun hnew ↦ ?_
    rw [List.mem_singleton, Callback.read.injEq] at hnew
    refine ⟨hr.iFrame, hnew.2, ?_⟩
    rw [hto.2]
    exact hnew.1

theorem read_deliver (now : Instant) (frames : List Bytes) {fd : TinyFd} (h : WellFormed fd)
    {address : UInt8} {payload : Bytes}
    (hread : .read address payload ∈ (deliver now fd frames).callbacks) :
    .read address payload ∈ fd.callbacks ∨ ∃ data ∈ frames,
    data.getD 1 0 &&& hdlcIFrameMask = hdlcIFrameBits ∧
      payload = data.drop 2 ∧
      address = fd.userAddress (fd.peerMgr.addressFieldToPeer (data.getD 0 0)) := by
  induction frames generalizing fd with
  | nil => exact .inl hread
  | cons data frames ih =>
    have hset := setup_onFrameReceived h now data
    rcases ih (wellFormed_onFrameReceived h now data) hread with hnow | ⟨later, hmem, hI,
      hpayload, haddress⟩
    · exact (read_onFrameReceived h hnow).imp_right fun hnew ↦ ⟨data, List.mem_cons_self .., hnew⟩
    · rw [userAddress_congr hset, addressFieldToPeer_congr hset] at haddress
      exact .inr ⟨later, List.mem_cons_of_mem _ hmem, hI, hpayload, haddress⟩

theorem iHeld_deliver (now : Instant) (frames : List Bytes) {fd : TinyFd} (h : WellFormed fd) :
    (deliver now fd frames).frames.iQueue.held ⊆ fd.frames.iQueue.held := by
  induction frames generalizing fd with
  | nil => exact List.Subset.refl _
  | cons data frames ih =>
    exact List.Subset.trans (ih (wellFormed_onFrameReceived h now data))
      (iHeld_onFrameReceived h now data)

theorem checkTimeouts_still (fd : TinyFd) (now : Instant) :
    (fd.checkTimeouts now).frames.iQueue.held ⊆ fd.frames.iQueue.held ∧
      ∀ address payload, .read address payload ∈ (fd.checkTimeouts now).callbacks →
      .read address payload ∈ fd.callbacks := by
  refine (checkTimeouts_ind (P := fun fd' ↦ fd'.peerMgr.peers.length = fd.peerMgr.peers.length ∧
    fd'.frames.iQueue.held ⊆ fd.frames.iQueue.held ∧
      ∀ address payload, .read address payload ∈ fd'.callbacks →
      .read address payload ∈ fd.callbacks) now
    ⟨rfl, List.Subset.refl _, fun _ _ ↦ id⟩ ?_).2
  rintro p hp fd' ⟨hlen, hheld, hreads⟩
  rw [← hlen] at hp
  refine ⟨(peers_length_congr (setup_checkTimeout fd' now p)).trans hlen,
    List.Subset.trans (iHeld_checkTimeout fd' now p) hheld, ?_⟩
  intro address payload hread
  apply hreads
  rcases timer_reports hp now with ⟨-, hr⟩ | ⟨hr, -⟩ <;> rw [hr.callbacks] at hread
  · exact (List.mem_append.mp hread).resolve_right (by simp)
  · exact hread

theorem iQueue_generateTxFrames (fd : TinyFd) (now : Instant) :
    (fd.generateTxFrames now).frames.iQueue = fd.frames.iQueue := by
  cases fd.generateTxFrames_generated now with
  | service i frame hi hhanded hframes hpeers => rw [hframes]
  | information p frame hp hmem hhanded hframes => rw [hframes]
  | nothing hhanded he => rw [he]

theorem callbacks_generateTxFrames (fd : TinyFd) (now : Instant) :
    (fd.generateTxFrames now).callbacks = fd.callbacks := by
  rcases fd.generateTxFrames_cases now with ⟨-, he⟩ | ⟨-, i, frame, -, -, he⟩ | ⟨-, -, p, frame, -,
    -, he⟩ | ⟨-, -, -, he⟩ <;> rw [he] <;> rfl

end TinyFd

/-- A station on a line, with the bytes and frames that it has put out and the address
field and payload of each packet that its `send_packet` has accepted. -/
structure Member where
  emission : TinyFd.Emission
  accepted : List (UInt8 × Bytes)

namespace Member

def fd (m : Member) : TinyFd := m.emission.fd

def takes (m : Member) : TinyFd.Op → List (UInt8 × Bytes)
  | .sendPacket address data timeoutMs =>
    if (m.fd.sendPacket address data timeoutMs).2.isOk
      then [(m.fd.addrField (m.fd.sendPeer address), data)] else []
  | _ => []

def step (m : Member) (op : TinyFd.Op) : Option Member :=
  (m.emission.step op).map fun e ↦ ⟨e, m.accepted ++ m.takes op⟩

/-- The payloads of a station, in its queue or on the line, are those that it has accepted. -/
structure Honest (m : Member) : Prop where
  wf : TinyFd.WellFormed m.fd
  queued : ∀ frame ∈ m.fd.frames.iQueue.held, (frame.header.address, frame.payload) ∈ m.accepted
  handed : ∀ data ∈ m.emission.handed, data.getD 1 0 &&& hdlcIFrameMask = hdlcIFrameBits →
    (data.getD 0 0, data.drop 2) ∈ m.accepted

variable {m m' : Member}

theorem fd_step {op : TinyFd.Op} (hs : m.step op = some m') : m.fd.step op = some m'.fd := by
  obtain ⟨e, he, rfl⟩ := Option.map_eq_some_iff.mp hs
  have hfd := TinyFd.emission_step m.emission op
  rw [he] at hfd
  exact hfd.symm

theorem accepted_step {op : TinyFd.Op} (hs : m.step op = some m') :
    m'.accepted = m.accepted ++ m.takes op := by
  obtain ⟨e, -, rfl⟩ := Option.map_eq_some_iff.mp hs
  rfl

theorem step_getTxData (h : TinyFd.WellFormed m.fd) {now : Instant} {room timeoutMs : ℕ}
    (hs : m.step (.getTxData now room timeoutMs) = some m') :
    let fd := m.fd.checkTimeouts now
    ∃ ll, m'.fd = (fd.generateTxFrames now).withHdlc ll ∧
      m'.emission.handed = m.emission.handed ++
        (TinyFd.handed fd (fd.generateTxFrames now)).toList := by
  intro fd
  obtain ⟨ll, hget, -⟩ := TinyFd.getTxData_eq h.tx now room timeoutMs
  have hlog := TinyFd.getTxDataLog_eq h.tx now room timeoutMs
  rw [hget, Option.map_some] at hlog
  rw [step, TinyFd.Emission.step, show m.emission.fd = m.fd from rfl, hlog, Option.map_some,
    Option.map_some, Option.some.injEq] at hs
  rw [← hs]
  exact ⟨ll, rfl, rfl⟩

theorem handed_step {op : TinyFd.Op} (hs : m.step op = some m')
    (hop : ∀ now room timeoutMs, op ≠ .getTxData now room timeoutMs) :
    m'.emission.handed = m.emission.handed := by
  cases op with
  | getTxData now room timeoutMs => exact absurd rfl (hop now room timeoutMs)
  | sendPacket | disconnect | onRxData => rw [← Option.some.inj hs]

theorem not_iFrame_of_service {fd : TinyFd} {frame : FrameInfo} (h : fd.ServiceFrame frame) :
    frame.toBytes.getD 1 0 &&& hdlcIFrameMask ≠ hdlcIFrameBits := by
  obtain ⟨-, -, ⟨-, hc⟩ | ⟨-, hc⟩⟩ := h
  · exact not_isI_of_service (.inl hc)
  · exact not_isI_of_service (.inr hc)

theorem Honest.queued_step (h : Honest m) {op : TinyFd.Op} (hs : m.step op = some m') :
    ∀ frame ∈ m'.fd.frames.iQueue.held, (frame.header.address, frame.payload) ∈ m'.accepted := by
  have hkeep : m'.fd.frames.iQueue.held ⊆ m.fd.frames.iQueue.held →
      ∀ frame ∈ m'.fd.frames.iQueue.held, (frame.header.address, frame.payload) ∈ m'.accepted := by
    intro hheld frame hmem
    rw [accepted_step hs]
    exact List.mem_append_left _ (h.queued frame (hheld hmem))
  cases op with
  | sendPacket address data timeoutMs =>
    have hfd : m'.fd = (m.fd.sendPacket address data timeoutMs).1 :=
      (Option.some.inj (fd_step hs)).symm
    rcases m.fd.sendPacket_cases address data timeoutMs with ⟨e, he⟩ | ⟨-, -, -, q, k,
      events, ha, he⟩
    · apply hkeep
      rw [hfd, he]
      exact List.Subset.refl _
    · rw [hfd, accepted_step hs, takes, he]
      intro frame hmem
      rcases List.mem_cons.mp (ha.perm.mem_iff.mp hmem) with rfl | hmem
      · exact List.mem_append_right _ (List.mem_singleton_self _)
      · exact List.mem_append_left _ (h.queued frame hmem)
  | disconnect =>
    have hfd : m'.fd = m.fd.disconnect.1 := (Option.some.inj (fd_step hs)).symm
    apply hkeep
    rcases m.fd.disconnect_cases with ⟨-, he⟩ | ⟨q, k, ha, he, -⟩ <;> rw [hfd, he]
    · exact List.Subset.refl _
    · rw [TinyFd.frames_modifyPeer, TinyFd.iQueue_putUSFrame]
      exact List.Subset.refl _
  | onRxData now data =>
    have hfd : m'.fd = m.fd.onRxData now data := (Option.some.inj (fd_step hs)).symm
    apply hkeep
    rw [hfd, TinyFd.onRxData_eq h.wf.rx h.wf.rxFrames]
    exact TinyFd.iHeld_deliver now _ h.wf
  | getTxData now room timeoutMs =>
    obtain ⟨ll, hfd, -⟩ := step_getTxData h.wf hs
    apply hkeep
    have hqueue := TinyFd.iQueue_generateTxFrames (m.fd.checkTimeouts now) now
    rw [hfd, show ((_ : TinyFd).withHdlc ll).frames.iQueue = _ from hqueue]
    exact (TinyFd.checkTimeouts_still m.fd now).1

theorem Honest.handed_step (h : Honest m) {op : TinyFd.Op} (hs : m.step op = some m') :
    ∀ data ∈ m'.emission.handed, data.getD 1 0 &&& hdlcIFrameMask = hdlcIFrameBits →
      (data.getD 0 0, data.drop 2) ∈ m'.accepted := by
  intro data hmem hI
  rw [accepted_step hs]
  apply List.mem_append_left
  by_cases hop : ∃ now room timeoutMs, op = .getTxData now room timeoutMs
  · obtain ⟨now, room, timeoutMs, rfl⟩ := hop
    obtain ⟨ll, -, hhanded⟩ := step_getTxData h.wf hs
    rw [hhanded] at hmem
    rcases List.mem_append.mp hmem with hmem | hmem
    · exact h.handed data hmem hI
    · have hwf := TinyFd.wellFormed_checkTimeouts h.wf now
      have hheld := (TinyFd.checkTimeouts_still m.fd now).1
      rw [Option.mem_toList] at hmem
      cases (m.fd.checkTimeouts now).generateTxFrames_generated now with
      | service i frame hi hsent hframes hpeers =>
        rw [hsent] at hmem
        rw [← Option.some.inj hmem] at hI
        exact absurd hI
          (not_iFrame_of_service
            (hwf.sFrames frame ((FrameQueue.free_perm hi).mem_iff.mpr (List.mem_cons_self ..))))
      | information p frame hp hframe hsent hframes =>
        rw [hsent] at hmem
        rw [← Option.some.inj hmem]
        exact h.queued frame (hheld hframe)
      | nothing hsent he =>
        rw [hsent] at hmem
        cases hmem
  · rw [Member.handed_step hs fun now room timeoutMs he ↦ hop ⟨now, room, timeoutMs, he⟩] at hmem
    exact h.handed data hmem hI

theorem Honest.step (h : Honest m) {op : TinyFd.Op} (hs : m.step op = some m') : Honest m' :=
  ⟨TinyFd.wellFormed_step h.wf (fd_step hs), h.queued_step hs, h.handed_step hs⟩

/-- What a call reads comes from an I-frame among those that it handles. -/
theorem reads_step (h : TinyFd.WellFormed m.fd) {op : TinyFd.Op} (hs : m.step op = some m')
    {address : UInt8} {payload : Bytes} (hread : .read address payload ∈ m'.fd.callbacks) :
    .read address payload ∈ m.fd.callbacks ∨ ∃ now data, op = .onRxData now data ∧
      ∃ frame ∈ (m.fd.onRxDataLog now data).2.1,
      frame.getD 1 0 &&& hdlcIFrameMask = hdlcIFrameBits ∧
        payload = frame.drop 2 ∧
        address = m.fd.userAddress (m.fd.peerMgr.addressFieldToPeer (frame.getD 0 0)) := by
  cases op with
  | sendPacket address' data timeoutMs =>
    have hfd : m'.fd = (m.fd.sendPacket address' data timeoutMs).1 :=
      (Option.some.inj (fd_step hs)).symm
    rw [hfd] at hread
    left
    rcases m.fd.sendPacket_cases address' data timeoutMs with ⟨e, he⟩ | ⟨-, -, -, q, k,
      events, ha, he⟩ <;>
      rw [he] at hread <;> exact hread
  | disconnect =>
    have hfd : m'.fd = m.fd.disconnect.1 := (Option.some.inj (fd_step hs)).symm
    rw [hfd] at hread
    left
    rcases m.fd.disconnect_cases with ⟨-, he⟩ | ⟨q, k, ha, he, -⟩ <;> rw [he] at hread
    · exact hread
    · rwa [TinyFd.callbacks_modifyPeer, TinyFd.callbacks_putUSFrame] at hread
  | onRxData now data =>
    have hfd : m'.fd = m.fd.onRxData now data := (Option.some.inj (fd_step hs)).symm
    rw [hfd, TinyFd.onRxData_eq h.rx h.rxFrames] at hread
    refine (TinyFd.read_deliver now _ h hread).imp_right fun hnew ↦ ⟨now, data, rfl, ?_⟩
    rw [TinyFd.onRxDataLog_eq h.rx h.rxFrames]
    exact hnew
  | getTxData now room timeoutMs =>
    obtain ⟨ll, hfd, -⟩ := step_getTxData h hs
    rw [hfd, show ((_ : TinyFd).withHdlc ll).callbacks =
      _ from TinyFd.callbacks_generateTxFrames ..] at hread
    exact .inl ((TinyFd.checkTimeouts_still m.fd now).2 address payload hread)

end Member

/-- A line with any stations on it. -/
abbrev Bus (ι : Type) := ι → Member

namespace Bus

variable {ι : Type}

def step [DecidableEq ι] (bus : Bus ι) (call : ι × TinyFd.Op) : Option (Bus ι) :=
  ((bus call.1).step call.2).map (Function.update bus call.1)

def start (fd : ι → TinyFd) : Bus ι := fun i ↦ ⟨⟨fd i, [], []⟩, []⟩

/-- A frame that a station hears has been sent by one of the stations; it may get lost,
be overtaken, come again and come to anyone. -/
def Heard (bus : Bus ι) (call : ι × TinyFd.Op) : Prop :=
  match call.2 with
  | .onRxData now data =>
    ∀ frame ∈ ((bus call.1).fd.onRxDataLog now data).2.1, ∃ j, frame ∈ (bus j).emission.handed
  | _ => True

/-- A payload that a station has read under a user address is one that `send_packet` has
accepted at some station, under an address field that means the same peer. -/
def Known (bus : Bus ι) : Prop :=
  ∀ i address payload, Callback.read address payload ∈ (bus i).fd.callbacks →
    ∃ field j, address = (bus i).fd.userAddress ((bus i).fd.peerMgr.addressFieldToPeer field) ∧
      (field, payload) ∈ (bus j).accepted

theorem honest_start {fd : ι → TinyFd} (hwf : ∀ i, TinyFd.WellFormed (fd i))
    (hempty : ∀ i, (fd i).frames.iQueue.held = []) (i : ι) : (start fd i).Honest := by
  refine ⟨hwf i, ?_, fun data hmem ↦ absurd hmem List.not_mem_nil⟩
  intro frame hmem
  rw [start, Member.fd, hempty i] at hmem
  exact absurd hmem List.not_mem_nil

variable [DecidableEq ι] {bus bus' : Bus ι}

theorem step_cases {i : ι} {op : TinyFd.Op} (hs : bus.step (i, op) = some bus') :
    (bus i).step op = some (bus' i) ∧ ∀ j ≠ i, bus' j = bus j := by
  obtain ⟨m, hm, rfl⟩ := Option.map_eq_some_iff.mp hs
  rw [Function.update_self]
  exact ⟨hm, fun j hj ↦ Function.update_of_ne hj _ _⟩

theorem all_step {P : Member → Prop} {i : ι} {op : TinyFd.Op} (hs : bus.step (i, op) = some bus')
    (h : ∀ j, P (bus j)) (hi : (bus i).step op = some (bus' i) → P (bus' i)) (j : ι) :
    P (bus' j) := by
  obtain ⟨hself, hother⟩ := step_cases hs
  by_cases hj : j = i
  · rw [hj]
    exact hi hself
  · rw [hother j hj]
    exact h j

theorem accepted_mono {i : ι} {op : TinyFd.Op} (hs : bus.step (i, op) = some bus') (j : ι) :
    (bus j).accepted ⊆ (bus' j).accepted := by
  obtain ⟨hself, hother⟩ := step_cases hs
  by_cases hj : j = i
  · rw [hj, Member.accepted_step hself]
    exact List.subset_append_left ..
  · rw [hother j hj]
    exact List.Subset.refl _

theorem known_step (h : ∀ i, (bus i).Honest) (hknown : Known bus) {call : ι × TinyFd.Op}
    (hheard : bus.Heard call) (hs : bus.step call = some bus') : (∀ i, (bus' i).Honest) ∧
    Known bus' := by
  obtain ⟨i, op⟩ := call
  obtain ⟨hself, hother⟩ := step_cases hs
  refine ⟨all_step hs h fun hm ↦ (h i).step hm, ?_⟩
  have hold : ∀ j address payload, .read address payload ∈ (bus j).fd.callbacks →
      ∃ field k, address = (bus j).fd.userAddress ((bus j).fd.peerMgr.addressFieldToPeer field) ∧
        (field, payload) ∈ (bus' k).accepted := by
    intro j address payload hread
    obtain ⟨field, k, haddress, hmem⟩ := hknown j address payload hread
    exact ⟨field, k, haddress, accepted_mono hs k hmem⟩
  intro j address payload hread
  by_cases hj : j = i
  · subst hj
    have hset := TinyFd.setup_step (h j).wf (Member.fd_step hself)
    simp only [TinyFd.userAddress_congr hset, TinyFd.addressFieldToPeer_congr hset]
    rcases Member.reads_step (h j).wf hself hread with hread | ⟨now, data, rfl, frame,
      hmem, hI, rfl, rfl⟩
    · exact hold j address payload hread
    · obtain ⟨k, hsent⟩ := hheard frame hmem
      exact ⟨frame.getD 0 0, k, rfl, accepted_mono hs k ((h k).handed frame hsent hI)⟩
  · rw [hother j hj] at hread ⊢
    exact hold j address payload hread

/-- Stations never make a payload up: whatever gets lost, overtaken or repeated on the line
and whoever hears it, what `on_read` is called with has been accepted by a `send_packet`. -/
theorem nothing_invented {config : ι → TinyFdConfig} {now : ι → Instant} {fd : ι → TinyFd}
    (hnew : ∀ i, TinyFd.new (config i) (now i) = .ok (fd i)) (calls : List (ι × TinyFd.Op))
    (hheard : EachStep step Heard (start fd) calls) : EachState step Known (start fd) calls := by
  have hstart : (∀ i, (start fd i).Honest) ∧ Known (start fd) := by
    have hinit := fun i ↦ TinyFd.initial_new (hnew i)
    refine ⟨honest_start (fun i ↦ TinyFd.wellFormed_new (hnew i)) fun i ↦ ?_, ?_⟩
    · obtain ⟨mtu, hframes⟩ := (hinit i).frames
      rw [hframes]
      exact TinyFd.held_new ..
    · intro i address payload hread
      rw [start, Member.fd, (hinit i).callbacks] at hread
      cases hread
  have hall := eachState_of_eachStep (P := fun bus : Bus ι ↦ (∀ i, (bus i).Honest) ∧ Known bus)
    (fun _ _ _ ⟨h, hknown⟩ hheard hs ↦ known_step h hknown hheard hs) hstart hheard
  exact hall.mono fun _ ↦ And.right

instance [Fintype ι] (bus : Bus ι) (call : ι × TinyFd.Op) : Decidable (bus.Heard call) := by
  unfold Heard
  split <;> infer_instance

def lineConfig (i : Fin 3) : TinyFdConfig :=
  { crcType := .hdlcCrcOff, addr := UInt8.ofNat i, peersCount := if i = 0 then 2 else 1 }

def stations (i : Fin 3) : TinyFd :=
  (TinyFd.new (lineConfig i) 0).toOption.get (by revert i; decide +kernel)

def echoes : List (Fin 3 × TinyFd.Op) :=
  [(0, .getTxData 0 9 0), (0, .getTxData 0 9 0),
    (1, .onRxData 0 [0x7E, 0x05, 0x3F, 0x7E, 0x7E, 0x09, 0x3F, 0x7E]),
    (2, .onRxData 0 [0x7E, 0x09, 0x3F, 0x7E, 0x7E, 0x05, 0x3F, 0x7E]), (1, .getTxData 0 9 0),
    (2, .getTxData 0 9 0), (0, .onRxData 0 [0x7E, 0x05, 0x73, 0x7E, 0x7E, 0x09, 0x73, 0x7E]),
    (1, .sendPacket 0 [7] 0), (1, .getTxData 0 9 0), (2, .sendPacket 0 [8] 0),
    (2, .getTxData 0 9 0), (2, .onRxData 0 [0x7E, 0x05, 0x00, 0x07, 0x7E]),
    (0, .onRxData 0 [0x7E, 0x09, 0x00, 0x08, 0x7E, 0x7E, 0x05, 0x00, 0x07, 0x7E, 0x7E, 0x05,
      0x00, 0x07, 0x7E])]

theorem nothing_invented_echoes :
    EachState step Known (start stations) echoes ∧
      (run step (start stations) echoes).map (fun bus ↦ (bus 0).fd.callbacks) =
        some [.connect 1 true, .connect 2 true, .read 2 [8], .read 1 [7]] := by
  refine ⟨?_, by decide +kernel⟩
  have hnew : ∀ i, TinyFd.new (lineConfig i) 0 = .ok (stations i) := by decide +kernel
  exact nothing_invented hnew echoes (by decide +kernel)

end Bus

end TinyProto
