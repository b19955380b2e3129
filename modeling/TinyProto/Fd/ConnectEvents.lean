import TinyProto.Fd.Reports

namespace TinyProto.TinyFd

open Lib

variable {fd fd' : TinyFd} {i : ℕ}

def Alternates (events : List Bool) : Prop := events = (List.range events.length).map
    fun n ↦ n % 2 == 0

instance (events : List Bool) : Decidable (Alternates events) := by
  unfold Alternates; infer_instance

theorem alternates_snoc {events : List Bool} {b : Bool} :
    Alternates (events ++ [b]) ↔ Alternates events ∧ b = (events.length % 2 == 0) := by
  rw [Alternates, List.length_append, List.length_singleton, List.range_succ, List.map_append,
    List.map_singleton]
  constructor
  · intro h
    obtain ⟨hinit, hlast⟩ := List.append_inj h (by rw [List.length_map, List.length_range])
    exact ⟨hinit, (List.cons.inj hlast).1⟩
  · rintro ⟨hinit, rfl⟩
    rw [Alternates] at hinit
    rw [← hinit]

/-- A station with the connect events reported for one peer. `linked` says whether
that peer was connected when it last was not `Disconnecting`. -/
structure Link where
  fd : TinyFd
  linked : Bool
  events : List Bool

def Link.step (i : ℕ) (l : Link) (m : Move) : Option Link :=
  let fd := l.fd.move m
  some
    { fd := fd
      linked := if (fd.peer i).state = .disconnecting then l.linked
      else (fd.peer i).state = .connected
      events := l.events ++ connects (l.fd.callsFor i m) }

/-- No request to connect is turned down or overtaken by a DISC, no `disconnect` of
an established link is crossed by a request to connect, and none is answered that was
called without a link. -/
def Orderly (i : ℕ) (l : Link) : Move → Prop
  | .onFrameReceived _ data =>
    l.fd.AddressedTo i data →
      match (l.fd.peer i).state, l.linked with
      | .connecting, _ => ¬ IsDisc (data.getD 1 0) ∧ ¬ IsDm (data.getD 1 0)
      | .disconnecting, true => ¬ IsSetup (data.getD 1 0)
      | .disconnecting, false => ¬ IsUa (data.getD 1 0) ∧ ¬ IsDisc (data.getD 1 0) ∧
          ¬ IsDm (data.getD 1 0)
      | _, _ => True
  | _ => True

instance (i : ℕ) (l : Link) (m : Move) : Decidable (Orderly i l m) :=
  match m with
  | .onFrameReceived _ data => by
    unfold Orderly
    cases (l.fd.peer i).state <;> cases l.linked <;> infer_instance
  | .sendPacket .. | .disconnect | .checkTimeout .. | .generateTxFrames .. | .framing .. =>
      .isTrue trivial

theorem connects_nil {m : Move} (hi : concerns fd m = some i) {cs : List Callback}
    (h : (fd.move m).callbacks = fd.callbacks ++ cs) (hcs : connects cs = []) :
    connects (fd.callsFor i m) = [] := by
  rw [callsFor_self hi, calls_eq h, hcs]

namespace Link

variable {l l' : Link} {m : Move}

/-- The events alternate and end in step with the link. -/
structure Told (i : ℕ) (l : Link) : Prop where
  wf : WellFormed l.fd
  peer : i < l.fd.peerMgr.peers.length
  alternates : Alternates l.events
  last : l.linked = (l.events.length % 2 == 1)
  idle : (l.fd.peer i).state ≠ .idle
  linked : (l.fd.peer i).state ≠ .disconnecting →
    l.linked = decide ((l.fd.peer i).state = .connected)

theorem Told.valid (h : Told i l) : i ≠ hdlcInvalidPeerIndex := (h.peer.trans_le h.wf.peers_le).ne

theorem Told.next (h : Told i l) (b : Bool) : Alternates (l.events ++ [b]) ↔ b = !l.linked := by
  rw [alternates_snoc, and_iff_right h.alternates, h.last]
  rcases Nat.mod_two_eq_zero_or_one l.events.length with he | he <;> rw [he] <;> rfl

theorem Told.orderly_iff (h : Told i l) {now : Instant} {data : Bytes}
    (hto : l.fd.AddressedTo i data) :
    Orderly i l (.onFrameReceived now data) ↔
      (Opens l.fd i (data.getD 1 0) → l.linked = false) ∧
      (Closes l.fd i (data.getD 1 0) → l.linked = true) := by
  have hlinked := h.linked
  have hidle := h.idle
  rw [Orderly, Opens, Closes]
  rw [forall_prop_of_true hto]
  cases hs : (l.fd.peer i).state with
  | idle => exact absurd hs hidle
  | disconnected =>
    rw [hs] at hlinked
    have hl : l.linked = false := hlinked (by decide)
    simp [hl]
  | connecting =>
    rw [hs] at hlinked
    have hl : l.linked = false := hlinked (by decide)
    simp [hl]
  | connected =>
    rw [hs] at hlinked
    have hl : l.linked = true := hlinked (by decide)
    simp [hl]
  | disconnecting =>
    cases l.linked
    · simp
      tauto
    · simp

theorem Told.keep (h : Told i l) (hs : l.step i m = some l') (hm : Legal l.fd m)
    (hc : connects (l.fd.callsFor i m) = []) (hidle : ((l.fd.move m).peer i).state ≠ .idle)
    (hlink : ((l.fd.move m).peer i).state ≠ .disconnecting →
      (((l.fd.move m).peer i).state = .connected ↔ (l.fd.peer i).state = .connected) ∧
        (l.fd.peer i).state ≠ .disconnecting) : Told i l' := by
  obtain rfl := Option.some.inj hs
  have hsame : (if ((l.fd.move m).peer i).state = .disconnecting then l.linked
      else decide (((l.fd.move m).peer i).state = .connected)) = l.linked := by
    by_cases hd : ((l.fd.move m).peer i).state = .disconnecting
    · exact if_pos hd
    · obtain ⟨hiff, hne⟩ := hlink hd
      rw [if_neg hd, h.linked hne, decide_eq_decide]
      exact hiff
  refine ⟨wellFormed_move h.wf hm, ?_, ?_, ?_, hidle, ?_⟩
  · rw [peers_length_congr (setup_move h.wf m)]
    exact h.peer
  · rw [hc, List.append_nil]
    exact h.alternates
  · rw [hsame, hc, List.append_nil]
    exact h.last
  · exact fun hd ↦ if_neg hd

theorem Told.report (h : Told i l) (hs : l.step i m = some l') (hm : Legal l.fd m)
    (hi : concerns l.fd m = some i) {b : Bool} (hr : Reports i b l.fd (l.fd.move m))
    (hb : b = !l.linked) : Told i l' := by
  obtain rfl := Option.some.inj hs
  have hstate := hr.state
  have hlinked : (if ((l.fd.move m).peer i).state = .disconnecting then l.linked
      else decide (((l.fd.move m).peer i).state = .connected)) = b := by
    rw [hstate]
    cases b <;> rfl
  refine ⟨wellFormed_move h.wf hm, ?_, ?_, ?_, ?_, ?_⟩
  · rw [peers_length_congr (setup_move h.wf m)]
    exact h.peer
  · rw [hr.connects rfl hi]
    exact (h.next b).mpr hb
  · rw [hlinked, hr.connects rfl hi, List.length_append, List.length_singleton, hb, h.last]
    rcases Nat.mod_two_eq_zero_or_one l.events.length with he | he <;> rw [Nat.add_mod, he] <;> rfl
  · rw [hstate]
    cases b <;> decide
  · exact fun hd ↦ if_neg hd

theorem told_step (h : Told i l) (hm : Legal l.fd m) (hc : Orderly i l m)
    (hs : l.step i m = some l') : Told i l' := by
  by_cases hi : concerns l.fd m = some i
  · rcases concerns_cases hi with ⟨now, data, rfl, hto, hvalid⟩ | ⟨now, rfl⟩
    · obtain ⟨hopens, hcloses⟩ := (h.orderly_iff hto).mp hc
      rcases frame_reports h.wf hto hvalid now with ⟨ho, hr⟩ | ⟨hd, hr⟩ | ⟨-, -, hstate, hquiet⟩
      · exact h.report hs hm hi hr (by rw [hopens ho]; rfl)
      · exact h.report hs hm hi hr (by rw [hcloses hd]; rfl)
      · have hsame : ((l.fd.move (.onFrameReceived now data)).peer i).state = _ := hstate
        refine h.keep hs hm ?_ ?_ ?_
        · rcases hquiet with hnone | hread
          · exact connects_nil hi (hnone.callbacks.trans (List.append_nil _).symm) rfl
          · exact connects_nil hi hread.callbacks rfl
        · rw [hsame]
          exact h.idle
        · rw [hsame]
          exact fun hne ↦ ⟨Iff.rfl, hne⟩
    · rcases timer_reports h.peer now with ⟨hconn, hr⟩ | ⟨hnone, hidle, hconn, hdisc⟩
      · refine h.report hs hm hi hr ?_
        rw [h.linked (by rw [hconn]; decide), hconn]
        rfl
      · exact h.keep hs hm (connects_nil hi (hnone.callbacks.trans (List.append_nil _).symm) rfl)
          (fun hs ↦ h.idle (hidle hs)) fun hne ↦ ⟨hconn, fun hd ↦ hne (hdisc.mpr hd)⟩
  · have hnone : connects (l.fd.callsFor i m) = [] := by
      rw [callsFor_ne hi]
      rfl
    by_cases hd : m = .disconnect
    · subst hd
      rcases l.fd.disconnect_cases with ⟨-, he⟩ | ⟨q, k, -, he, -⟩
      · refine h.keep hs hm hnone ?_ ?_ <;> rw [move, he]
        · exact h.idle
        · exact fun hne ↦ ⟨Iff.rfl, hne⟩
      · by_cases hz : i = 0
        · subst hz
          have hstate : ((l.fd.move .disconnect).peer 0).state = .disconnecting := by
            rw [move, he, peer_modifyPeer_self (by rw [peerMgr_putUSFrame]; exact h.peer)]
          refine h.keep hs hm hnone (by rw [hstate]; decide) fun hne ↦ absurd hstate hne
        · have hsame : (l.fd.move .disconnect).peer i = l.fd.peer i := by
            rw [move, he, peer_modifyPeer_ne hz, peer_putUSFrame]
          refine h.keep hs hm hnone ?_ ?_ <;> rw [hsame]
          · exact h.idle
          · exact fun hne ↦ ⟨Iff.rfl, hne⟩
    · have hsame := state_move_ne h.wf h.peer hi hd
      refine h.keep hs hm hnone ?_ ?_ <;> rw [hsame]
      · exact h.idle
      · exact fun hne ↦ ⟨Iff.rfl, hne⟩

theorem told_bad (h : Told i l) (hc : ¬ Orderly i l m) : ∃ l', l.step i m = some l' ∧
    ¬ Alternates l'.events := by
  refine ⟨_, rfl, ?_⟩
  cases m with
  | onFrameReceived now data =>
    by_cases hto : l.fd.AddressedTo i data
    · have hi := (@concerns_frame _ _ now _).mpr ⟨hto, h.valid⟩
      rw [h.orderly_iff hto, not_and_or, Classical.not_imp, Classical.not_imp] at hc
      rcases frame_reports h.wf hto h.valid now with ⟨ho, hr⟩ | ⟨hd, hr⟩ | ⟨ho, hd, -⟩
      · have hl := hc.resolve_right fun hd ↦ not_closes_of_opens ho hd.1
        rw [hr.connects rfl hi, h.next]
        simpa using hl.2
      · have hl := hc.resolve_left fun ho ↦ not_closes_of_opens ho.1 hd
        rw [hr.connects rfl hi, h.next]
        simpa using hl.2
      · exact absurd hc (not_or.mpr ⟨fun h ↦ ho h.1, fun h ↦ hd h.1⟩)
    · exact absurd (fun h ↦ absurd h hto) hc
  | sendPacket | disconnect | checkTimeout | generateTxFrames | framing => exact absurd trivial hc

theorem told_new {config : TinyFdConfig} {now : Instant} (hnew : TinyFd.new config now = .ok fd)
    (hi : i < fd.peerMgr.peers.length) : Told i ⟨fd, false, []⟩ := by
  obtain ⟨addr, hpeer⟩ := (initial_new hnew).peer hi
  have hdown : (fd.peer i).state = .disconnected := by rw [hpeer, PeerInfo.new]
  refine ⟨wellFormed_new hnew, hi, rfl, rfl, ?_, ?_⟩
  · rw [hdown]
    decide
  · intro _
    rw [hdown]
    rfl

theorem fd_step (i : ℕ) (l : Link) (m : Move) (l' : Link) (h : Link.step i l m = some l') :
    l'.fd = l.fd.move m := by
  obtain rfl := Option.some.inj h
  rfl

/-- The connect events of a peer alternate just as long as its frames come in turn. -/
theorem connect_events_alternate_iff {config : TinyFdConfig} {now : Instant}
    (hnew : TinyFd.new config now = .ok fd) (ops : List Op) (hi : i < fd.peerMgr.peers.length) :
    run TinyFd.step fd ops = some ((fd.runMoves ops).foldl TinyFd.move fd) ∧
      (EachState (Link.step i) (fun l ↦ Alternates l.events) ⟨fd, false, []⟩ (fd.runMoves ops) ↔
        EachStep (Link.step i) (Orderly i) ⟨fd, false, []⟩ (fd.runMoves ops)) := by
  have hwf := wellFormed_new hnew
  refine ⟨run_runMoves hwf ops, ?_⟩
  refine eachState_iff_eachStep ?_ ?_ ?_ (told_new hnew hi)
    (legal_watched (fd_step i) ⟨fd, false, []⟩ hwf ops)
  · exact fun l h ↦ h.alternates
  · intro l m l' h hm hc hs
    exact told_step h hm hc hs
  · intro l m h _ hc
    exact told_bad h hc

def closedOps : List Op :=
  [.getTxData 500000000 9 0, .onRxData 5 [0x7E, 0x05, 0x73, 0x7E],
    .onRxData 7 [0x7E, 0x05, 0x53, 0x7E]]

theorem connect_events_alternate_closed :
    EachState (Link.step 0) (fun l ↦ Alternates l.events) ⟨freshStation, false, []⟩
      (freshStation.runMoves closedOps) ∧
      (run (Link.step 0) ⟨freshStation, false, []⟩ (freshStation.runMoves closedOps)).map
        Link.events =
        some [true, false] :=
  ⟨(connect_events_alternate_iff new_freshStation closedOps (by decide +kernel : 0 < _)).2.mpr
    (by decide +kernel), by decide +kernel⟩

def refusedOps : List Op := [.getTxData 500000000 9 0, .onRxData 5 [0x7E, 0x05, 0x0F, 0x7E]]

theorem connect_events_refused :
    ∃ config now fd ops, TinyFd.new config now = .ok fd ∧ 0 < fd.peerMgr.peers.length ∧
      (run TinyFd.step fd ops).map TinyFd.callbacks = some [.connect 1 false] ∧
      ¬ EachState (Link.step 0) (fun l ↦ Alternates l.events) ⟨fd, false, []⟩
        (fd.runMoves ops) := by
  refine ⟨_, _, freshStation, refusedOps, new_freshStation, by decide +kernel, by decide +kernel,
    ?_⟩
  intro h
  have hrun : run (Link.step 0) ⟨freshStation, false, []⟩ (freshStation.runMoves refusedOps) =
      some ((run (Link.step 0) ⟨freshStation, false, []⟩ (freshStation.runMoves refusedOps)).get
        (by decide +kernel)) :=
    (Option.some_get _).symm
  exact absurd (h.of_run hrun) (by decide +kernel)

end Link

end TinyProto.TinyFd
