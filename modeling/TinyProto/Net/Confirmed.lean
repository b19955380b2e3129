import TinyProto.Net.Reliable

namespace TinyProto.Net

open TinyFd Side Frames Lib

/-- Of what station `s` has accepted since `net₀`, the other side has read the first
`delivered` payloads, and the queue of `s` holds those after the first `confirmed`, each
under its number. -/
structure Accounted (net₀ net : Net) (s : Bool) (confirmed delivered : ℕ) : Prop where
  confirmed_le : confirmed ≤ delivered
  delivered_le : delivered ≤ (net s).accepted.length
  window : (net s).accepted.length ≤ confirmed + 7
  read : (net !s).station.reads = (net₀ !s).station.reads ++ (net s).accepted.take delivered
  held : ((net s).station.frames.iQueue.iPairs ((net s).station.addrField 0)).Perm
    (windowPairs (net s).accepted confirmed)
  numbers : ((net s).station.peer 0).iQueueControl.txState.confirmNs = seq confirmed ∧
    ((net s).station.peer 0).iQueueControl.txState.lastNs = seq (net s).accepted.length ∧
    ((net !s).station.peer 0).iQueueControl.rxState.nextNr = seq delivered

/-- No payload is let go of before the other side has read it. -/
def NothingLost (net₀ net : Net) : Prop := ∀ s, ∃ confirmed delivered,
    Accounted net₀ net s confirmed delivered

variable {net net' : Net}

theorem tracked_session {addr : UInt8} {old : Bool → List Bytes} (hl : Linked net)
    (ha : net.Settled) (ht : Tracked addr old net.frames) {ops : List Op}
    (htransfers : ∀ op ∈ ops, op.Transfers) (horder : EachStep sessionStep OldestFirst net ops) :
    EachState sessionStep (fun net' ↦ Linked net' ∧ net'.Settled ∧
      Tracked addr old net'.frames) net ops :=
  eachState_of_eachStep (fun _ _ _ ⟨hl, ha, ht⟩ hop hs ↦ tracked_step hl ha ht hop.1 hop.2 hs)
    ⟨hl, ha, ht⟩ (horder.and_mem htransfers)

theorem accounted_of_tracks {addr : UInt8} {net₀ : Net} {h : History}
    (ht : Tracks addr (fun s ↦ (net₀ s).station.reads) h net.frames)
    (hsafe : ∀ s, (h.stream s).Safe 7) (s : Bool) :
    Accounted net₀ net s (h.stream s).confirmed (h.stream s).delivered.length := by
  have hself := ht.shows s
  have hnot := ht.shows !s
  have hs := hsafe s
  rw [Bool.not_not] at hnot
  have haccepted : (net s).accepted = (h.stream s).accepted := hself.accepted
  have hreads : (net !s).station.reads = (net₀ !s).station.reads ++ (h.stream s).delivered :=
    hnot.reads
  refine ⟨hs.confirmed, ?_, ?_, ?_, ?_, hself.sends.confirmNs, ?_, hnot.nextNr⟩
  · rw [haccepted]
    exact hs.delivered.length_le
  · rw [haccepted]
    exact hs.window
  · rw [haccepted, hreads, ← List.prefix_iff_eq_take.mp hs.delivered]
  · rw [haccepted]
    exact hself.sends.iPairs
  · rw [haccepted]
    exact hself.sends.lastNs

/-- Over a session in which acknowledgements leave in the order in which they were
queued, whatever gets lost on the way and whatever timers run out, a payload leaves the
queue of its sender only once the other side has read it. -/
theorem nothing_lost {config : Bool → TinyFdConfig} (hp : Pair config)
    (hr : ∀ s, Reachable (config s) (net s).station) (hj : net.JustConnected) (ops : List Op)
    (htransfers : ∀ op ∈ ops, op.Transfers) (horder : EachStep sessionStep OldestFirst net ops) :
    EachState sessionStep (NothingLost net) net ops := by
  have hl := linked_of_reachable hp hr
  apply (tracked_session hl hj.settled (tracked_start hl hj) htransfers horder).mono
  rintro net' ⟨-, -, h, ht, hsafe⟩ s
  exact ⟨_, _, accounted_of_tracks ht hsafe s⟩

theorem nothing_lost_recovery : NothingLost connectedNet recoveredNet := by
  have h :=
    nothing_lost plainConfig_pair (reachable_replay _)
      (by decide +kernel : connectedNet.JustConnected) recovery (by decide +kernel)
        (by decide +kernel)
  exact h.of_run (Option.some_get _).symm

end TinyProto.Net
