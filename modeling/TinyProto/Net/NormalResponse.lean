import TinyProto.Fd.UserView
import TinyProto.Net.Bus

namespace TinyProto

open Lib

namespace TinyFd

variable {fd fd' : TinyFd}

def IsParting (control : UInt8) : Prop := IsUa control ∨ IsDisc control

instance (control : UInt8) : Decidable (IsParting control) := by unfold IsParting; infer_instance

/-- A station in NRM that nobody has connected. -/
structure Dormant (fd : TinyFd) : Prop where
  wf : WellFormed fd
  mode : fd.mode = .nrm
  down : ∀ p < fd.peerMgr.peers.length, (fd.peer p).state = .disconnected ∨
    (fd.peer p).state = .disconnecting
  queue : ∀ frame ∈ fd.frames.sQueue.held, IsParting frame.header.control
  told : ∀ c ∈ fd.callbacks, ∃ address, c = .connect address false

theorem mode_new {config : TinyFdConfig} {now : Instant} (hnew : TinyFd.new config now = .ok fd) :
    fd.mode = config.mode := by
  rw [TinyFd.new] at hnew
  split at hnew
  · cases hnew
  dsimp only at hnew
  split at hnew
  · cases hnew
  rw [← Except.ok.inj hnew]

theorem dormant_new {config : TinyFdConfig} {now : Instant} (hmode : config.mode = .nrm)
    (hnew : TinyFd.new config now = .ok fd) : Dormant fd := by
  have hinit := initial_new hnew
  refine ⟨wellFormed_new hnew, (mode_new hnew).trans hmode, ?_, ?_, ?_⟩
  · intro p hp
    obtain ⟨addr, hpeer⟩ := hinit.peer hp
    rw [hpeer]
    exact .inl rfl
  · obtain ⟨mtu, hframes⟩ := hinit.frames
    rw [hframes]
    intro frame hmem
    rw [FramesQueue.new, held_new] at hmem
    exact absurd hmem List.not_mem_nil
  · rw [hinit.callbacks]
    exact fun c hmem ↦ absurd hmem List.not_mem_nil

theorem Dormant.of (h : Dormant fd) (hwf : WellFormed fd') (hset : fd'.setup = fd.setup)
    (hdown : ∀ p < fd.peerMgr.peers.length, (fd'.peer p).state = (fd.peer p).state ∨
      (fd'.peer p).state = .disconnected ∨ (fd'.peer p).state = .disconnecting)
    (hqueue : ∀ frame ∈ fd'.frames.sQueue.held, frame ∈ fd.frames.sQueue.held ∨
      IsParting frame.header.control)
    (htold : ∀ c ∈ fd'.callbacks, c ∈ fd.callbacks ∨ ∃ address, c = .connect address false) :
      Dormant fd' := by
  refine ⟨hwf, (congrArg Setup.mode hset).trans h.mode, ?_, ?_, ?_⟩
  · intro p hp
    rw [peers_length_congr hset] at hp
    rcases hdown p hp with he | hd
    · rw [he]
      exact h.down p hp
    · exact hd
  · exact fun frame hmem ↦ (hqueue frame hmem).elim (h.queue frame) id
  · exact fun c hmem ↦ (htold c hmem).elim (h.told c) id

theorem Dormant.not_connected (h : Dormant fd) {p : ℕ} (hp : p < fd.peerMgr.peers.length) :
    (fd.peer p).state ≠ .connected ∧ (fd.peer p).state ≠ .connecting := by
  rcases h.down p hp with hs | hs <;> rw [hs] <;> decide

theorem Dormant.status (h : Dormant fd) : fd.getStatus ≠ .ok () := by
  intro hok
  rcases Nat.eq_zero_or_pos fd.peerMgr.peers.length with hz | hpos
  · rw [getStatus, if_pos (List.length_eq_zero_iff.mp hz)] at hok
    cases hok
  · exact (h.not_connected hpos).1 ((getStatus_ok_iff hpos).mp hok)

theorem isParting_ua (address : UInt8) : IsParting (uaHeader address).control :=
  (by decide : IsParting (hdlcUFrameTypeUa ||| hdlcUFrameBits ||| hdlcFBit))

theorem isParting_disc (address : UInt8) : IsParting (discHeader address).control :=
  (by decide : IsParting (hdlcUFrameTypeDisc ||| hdlcUFrameBits ||| hdlcPBit))

theorem Dormant.sendPacket (h : Dormant fd) (address : UInt8) (data : Bytes) (timeoutMs : ℕ) :
    Dormant (fd.sendPacket address data timeoutMs).1 := by
  refine h.of (wellFormed_sendPacket h.wf ..) (setup_sendPacket ..) ?_ ?_ ?_
  · intro p hp
    exact .inl (@state_move_ne fd p (.sendPacket address data timeoutMs) h.wf hp nofun nofun)
  · rcases fd.sendPacket_cases address data timeoutMs with ⟨e, he⟩ | ⟨-, -, -, q, k, events, -,
      he⟩ <;> rw [he] <;> exact fun frame ↦ .inl
  · rcases fd.sendPacket_cases address data timeoutMs with ⟨e, he⟩ | ⟨-, -, -, q, k, events, -,
      he⟩ <;> rw [he] <;> exact fun c ↦ .inl

theorem Dormant.disconnect (h : Dormant fd) : Dormant fd.disconnect.1 := by
  refine h.of (wellFormed_disconnect h.wf) (setup_disconnect _) ?_ ?_ ?_ <;>
    rcases fd.disconnect_cases with ⟨-, he⟩ | ⟨q, k, -, he, -⟩ <;> rw [he]
  · exact fun p _ ↦ .inl rfl
  · intro p hp
    by_cases hz : p = 0
    · subst hz
      rw [peer_modifyPeer_self (by rwa [peerMgr_putUSFrame])]
      exact .inr (.inr rfl)
    · rw [peer_modifyPeer_ne hz, peer_putUSFrame]
      exact .inl rfl
  · exact fun frame ↦ .inl
  · intro frame hmem
    rw [frames_modifyPeer] at hmem
    refine (mem_held_putUSFrame hmem).imp_right ?_
    rintro rfl
    exact isParting_disc _
  · exact fun c ↦ .inl
  · intro c hmem
    rw [callbacks_modifyPeer, callbacks_putUSFrame] at hmem
    exact .inl hmem

theorem Dormant.checkTimeout (h : Dormant fd) (now : Instant) {p : ℕ}
    (hp : p < fd.peerMgr.peers.length) : fd.checkTimeout now p = fd := by
  have hnrm : fd.mode ≠ .abm := by
    rw [h.mode]
    exact FdMode.noConfusion
  rw [TinyFd.checkTimeout]
  rcases h.down p hp with hs | hs <;> rw [hs]
  exact if_neg fun hboth ↦ hnrm hboth.1

theorem Dormant.checkTimeouts (h : Dormant fd) (now : Instant) : fd.checkTimeouts now = fd := by
  refine checkTimeouts_ind (P := fun fd' ↦ fd' = fd) now rfl ?_
  rintro p hp fd' rfl
  exact h.checkTimeout now hp

theorem Dormant.generateTxFrames (h : Dormant fd) (now : Instant) :
    Dormant (fd.generateTxFrames now) := by
  have hwf := wellFormed_generateTxFrames h.wf now
  rcases fd.generateTxFrames_cases now with ⟨-, he⟩ | ⟨-, i, frame, hi, -, he⟩ | ⟨-, -, p,
    frame, hp, hs, -⟩ | ⟨-, -, -, he⟩
  · rwa [he]
  · refine h.of hwf (setup_generateTxFrames ..) ?_ ?_ ?_ <;> rw [he]
    · exact fun p _ ↦ .inl rfl
    · intro frame' hmem
      exact .inl ((FrameQueue.free_perm hi).mem_iff.mpr (List.mem_cons_of_mem _ hmem))
    · exact fun c ↦ .inl
  · exact absurd hs.1 (h.not_connected hp).1
  · rwa [he]

theorem Dormant.handed (h : Dormant fd) {now : Instant} {data : Bytes}
    (hdata : TinyFd.handed fd (fd.generateTxFrames now) = some data) :
    IsParting (data.getD 1 0) := by
  rcases fd.generateTxFrames_cases now with ⟨-, he⟩ | ⟨hidle, i, frame, hi, -, he⟩ | ⟨-, -, p,
    frame, hp, hs, -⟩ | ⟨-, -, -, he⟩
  · rw [he, handed_self] at hdata
    cases hdata
  · rw [TinyFd.handed, if_pos hidle, he] at hdata
    rw [← Option.some.inj hdata]
    exact h.queue frame ((FrameQueue.free_perm hi).mem_iff.mpr (List.mem_cons_self ..))
  · exact absurd hs.1 (h.not_connected hp).1
  · rw [he, handed_self] at hdata
    cases hdata

section Receive

variable {p : ℕ} (hp : p < fd.peerMgr.peers.length)
include hp

theorem Dormant.touch (h : Dormant fd) (now : Instant) : Dormant (fd.touch p now) := by
  refine h.of (wellFormed_touch h.wf hp now) (setup_touch ..) ?_ (fun frame ↦ .inl) (fun c ↦ .inl)
  intro q _
  by_cases hq : q = p
  · subst hq
    rw [peer_touch_self fd q now hp]
    exact .inl rfl
  · rw [peer_touch_ne fd p now hq]
    exact .inl rfl

theorem Dormant.answer (h : Dormant fd) :
    Dormant (fd.putUSFrame .uFrame (uaHeader (fd.addrField p)) []).1 := by
  have hu : (uaHeader (fd.addrField p)).control &&& hdlcUFrameMask = hdlcUFrameBits :=
    (by decide : (hdlcUFrameTypeUa ||| hdlcUFrameBits ||| hdlcFBit) &&& hdlcUFrameMask =
      hdlcUFrameBits)
  refine h.of (wellFormed_putUSFrame h.wf (serviceFrame_u hp hu)) (setup_putUSFrame ..) ?_ ?_ ?_
  · intro q _
    rw [peer_putUSFrame]
    exact .inl rfl
  · intro frame hmem
    refine (mem_held_putUSFrame hmem).imp_right ?_
    rintro rfl
    exact isParting_ua _
  · intro c hmem
    rw [callbacks_putUSFrame] at hmem
    exact .inl hmem

theorem Dormant.switchToDisconnected (h : Dormant fd) (now : Instant) :
    Dormant (fd.switchToDisconnected p now) := by
  by_cases hs : (fd.peer p).state = .disconnected
  · rwa [switchToDisconnected_of_disconnected fd p now hs]
  refine h.of (wellFormed_switchToDisconnected h.wf hp now) (setup_switchToDisconnected ..) ?_ ?_ ?_
  · intro q _
    by_cases hq : q = p
    · subst hq
      exact .inr (.inl (state_switchToDisconnected fd q now hp))
    · rw [peer_switchToDisconnected_ne fd p now hq]
      exact .inl rfl
  · rw [sQueue_switchToDisconnected]
    exact fun frame ↦ .inl
  · rw [callbacks_switchToDisconnected fd p now hs]
    intro c hmem
    refine (List.mem_append.mp hmem).imp_right fun hlast ↦ ⟨_, List.mem_singleton.mp hlast⟩

end Receive

theorem Dormant.onFrameReceived (h : Dormant fd) (now : Instant) {data : Bytes}
    (hdata : IsParting (data.getD 1 0)) : Dormant (fd.onFrameReceived now data) := by
  rcases fd.onFrameReceived_cases now data with ⟨-, he⟩ | ⟨p, hto, hvalid, -⟩
  · rwa [he]
  have hp := AddressedTo.lt h.wf hto hvalid
  have htouch := h.touch hp now
  have hp₁ : p < (fd.touch p now).peerMgr.peers.length := by rwa [peers_length_touch]
  have hU : data.getD 1 0 &&& hdlcUFrameMask = hdlcUFrameBits := by
    rcases hdata with hc | hc <;> exact hc.1
  have hreacts := onFrameReceived_reacts h.wf hto hvalid now
  generalize fd.onFrameReceived now data = fd' at hreacts
  cases hreacts with
  | setup hc =>
    obtain ⟨hua, hdisc, -⟩ := kinds_exclusive.1 hc
    rcases hdata with hd | hd
    · exact absurd hd hua
    · exact absurd hd hdisc
  | opened hc hs => exact absurd hs (h.not_connected hp).2
  | disc =>
    rw [← addrField_congr (setup_touch fd p now)]
    refine (htouch.answer hp₁).switchToDisconnected ?_ now
    rwa [peerMgr_putUSFrame]
  | closed => exact htouch.switchToDisconnected hp₁ now
  | otherU => exact htouch
  | refused hno => exact absurd hU hno
  | iFrame hI => exact absurd hI (not_isI_of_service (.inl hU))
  | sFrame hI hno => exact absurd hU hno

theorem Dormant.deliver (now : Instant) (frames : List Bytes) {fd : TinyFd} (h : Dormant fd)
    (hframes : ∀ data ∈ frames, IsParting (data.getD 1 0)) :
    Dormant (TinyFd.deliver now fd frames) := by
  induction frames generalizing fd with
  | nil => exact h
  | cons data frames ih =>
    exact ih (h.onFrameReceived now (hframes data (List.mem_cons_self ..)))
      fun later hmem ↦ hframes later (List.mem_cons_of_mem _ hmem)

end TinyFd

namespace Member

structure Dark (m : Member) : Prop where
  dormant : m.fd.Dormant
  handed : ∀ data ∈ m.emission.handed, TinyFd.IsParting (data.getD 1 0)

variable {m m' : Member}

theorem Dark.step (h : Dark m) {op : TinyFd.Op} (hs : m.step op = some m')
    (hheard : ∀ now data, op = .onRxData now data → ∀ frame ∈ (m.fd.onRxDataLog now data).2.1,
      TinyFd.IsParting (frame.getD 1 0)) :
    Dark m' := by
  have hwf := h.dormant.wf
  have hstep := fd_step hs
  have hwf' := TinyFd.wellFormed_step hwf hstep
  have hsent : (∀ now room timeoutMs, op ≠ .getTxData now room timeoutMs) →
      ∀ data ∈ m'.emission.handed, TinyFd.IsParting (data.getD 1 0) := by
    intro hop
    rw [handed_step hs hop]
    exact h.handed
  cases op with
  | sendPacket address data timeoutMs =>
    refine ⟨?_, hsent nofun⟩
    rw [← Option.some.inj hstep]
    exact h.dormant.sendPacket ..
  | disconnect =>
    refine ⟨?_, hsent nofun⟩
    rw [← Option.some.inj hstep]
    exact h.dormant.disconnect
  | onRxData now data =>
    refine ⟨?_, hsent nofun⟩
    have hdeliver := h.dormant.deliver now (m.fd.onRxDataLog now data).2.1 (hheard now data rfl)
    rw [TinyFd.onRxDataLog_eq hwf.rx hwf.rxFrames] at hdeliver
    rw [← Option.some.inj hstep] at hwf' ⊢
    rw [TinyFd.onRxData_eq hwf.rx hwf.rxFrames] at hwf' ⊢
    exact ⟨hwf', hdeliver.mode, hdeliver.down, hdeliver.queue, hdeliver.told⟩
  | getTxData now room timeoutMs =>
    obtain ⟨ll, hfd, hhanded⟩ := step_getTxData hwf hs
    rw [h.dormant.checkTimeouts now] at hfd hhanded
    have hgen := h.dormant.generateTxFrames now
    rw [hfd] at hwf'
    refine ⟨?_, ?_⟩
    · rw [hfd]
      exact ⟨hwf', hgen.mode, hgen.down, hgen.queue, hgen.told⟩
    · rw [hhanded]
      intro data hmem
      rcases List.mem_append.mp hmem with hmem | hmem
      · exact h.handed data hmem
      · exact h.dormant.handed (Option.mem_toList.mp hmem)

end Member

namespace Bus

variable {ι : Type}

/-- No station is connected to anyone or trying to be, no application has been told of a
connection or given a packet, and the line has carried nothing but DISC and UA. -/
structure Unlinked (bus : Bus ι) : Prop where
  status : ∀ i, (bus i).fd.getStatus ≠ .ok ()
  down : ∀ i, ∀ p < (bus i).fd.peerMgr.peers.length,
    ((bus i).fd.peer p).state ≠ .connected ∧ ((bus i).fd.peer p).state ≠ .connecting
  told : ∀ i, ∀ c ∈ (bus i).fd.callbacks, ∃ address, c = .connect address false
  line : ∀ i, ∀ data ∈ (bus i).emission.handed, TinyFd.IsParting (data.getD 1 0)

theorem unlinked_of_dark {bus : Bus ι} (h : ∀ i, (bus i).Dark) : Unlinked bus := by
  constructor <;> intro i
  · exact (h i).dormant.status
  · exact fun p hp ↦ (h i).dormant.not_connected hp
  · exact (h i).dormant.told
  · exact (h i).handed

theorem dark_step [DecidableEq ι] {bus bus' : Bus ι} (h : ∀ i, (bus i).Dark) {call : ι × TinyFd.Op}
    (hheard : bus.Heard call) (hs : bus.step call = some bus') (j : ι) : (bus' j).Dark := by
  obtain ⟨i, op⟩ := call
  refine all_step hs h (fun hm ↦ (h i).step hm ?_) j
  rintro now data rfl frame hmem
  obtain ⟨k, hsent⟩ := hheard frame hmem
  exact (h k).handed frame hsent

/-- In NRM nobody ever asks for a connection, so the stations of a line in NRM stay unlinked
however long they run: a SNRM is answered, but no code sends one. -/
theorem nrm_never_connects [DecidableEq ι] {config : ι → TinyFdConfig}
    (hmode : ∀ i, (config i).mode = .nrm) {now : ι → Instant} {fd : ι → TinyFd}
    (hnew : ∀ i, TinyFd.new (config i) (now i) = .ok (fd i)) (calls : List (ι × TinyFd.Op))
    (hheard : EachStep step Heard (start fd) calls) : EachState step Unlinked (start fd) calls := by
  have hstart : ∀ i, (start fd i).Dark :=
    fun i ↦ ⟨TinyFd.dormant_new (hmode i) (hnew i), fun data hmem ↦ absurd hmem List.not_mem_nil⟩
  have hall := eachState_of_eachStep (P := fun bus : Bus ι ↦ ∀ i, (bus i).Dark)
    (fun _ _ _ h hheard hs ↦ dark_step h hheard hs) hstart hheard
  exact hall.mono fun _ ↦ unlinked_of_dark

def responseConfig (i : Fin 2) : TinyFdConfig :=
  { crcType := .hdlcCrcOff, addr := UInt8.ofNat i, mode := .nrm }

def responders (i : Fin 2) : TinyFd :=
  (TinyFd.new (responseConfig i) 0).toOption.get (by revert i; decide +kernel)

def waiting : List (Fin 2 × TinyFd.Op) :=
  [(0, .sendPacket 1 [7] 0), (0, .getTxData 60000000000 9 0), (1, .getTxData 60000000000 9 0),
    (0, .disconnect), (0, .getTxData 60000000000 9 0),
    (1, .onRxData 60000000000 [0x7E, 0x05, 0x53, 0x7E]), (1, .getTxData 60000000000 9 0),
    (0, .onRxData 60000000000 [0x7E, 0x05, 0x73, 0x7E])]

theorem nrm_never_connects_waiting :
    EachState step Unlinked (start responders) waiting ∧
      (run step (start responders) waiting).map
        (fun bus ↦ ((bus 0).accepted, (bus 0).fd.callbacks)) =
        some ([(0x05, [7])], [.connect 1 false]) := by
  refine ⟨?_, by decide +kernel⟩
  have hmode : ∀ i, (responseConfig i).mode = .nrm := fun _ ↦ rfl
  have hnew : ∀ i, TinyFd.new (responseConfig i) 0 = .ok (responders i) := by decide +kernel
  exact nrm_never_connects hmode hnew waiting (by decide +kernel)

end Bus

end TinyProto
