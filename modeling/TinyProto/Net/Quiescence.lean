import TinyProto.Fd.Gauge
import TinyProto.Lib.Ranking
import TinyProto.Net.Link

namespace TinyProto

open Lib

namespace Frames

open TinyFd Side

variable {f f' : Frames} {s : Bool}

def total (c : Bool → ℕ) : ℕ := c true + c false

theorem total_eq (c : Bool → ℕ) (s : Bool) : total c = c s + c !s := by
  cases s
  · exact Nat.add_comm ..
  · rfl

def numbers (f : Frames) (s : Bool) : List UInt8 := (f s).station.gauge.iQueue.held.map FrameInfo.ns

/-! The components of the rank, in the order in which they count. -/

def requests (f : Frames) : ℕ := total fun s ↦ (f.coming s).countP fun data ↦ IsRequest data

def motion (f : Frames) : ℕ := total fun s ↦ (f s).station.gauge.state.rank

def stock (f : Frames) : ℕ := total fun s ↦ (f s).station.gauge.iQueue.held.length

/-- I-frames on their way that their sender no longer holds. -/
def strays (f : Frames) : ℕ :=
  total fun s ↦ (f s).inbox.countP fun data ↦ IsData data ∧ dataNs data ∉ f.numbers !s

noncomputable def leeway (f : Frames) : ℕ :=
  total fun s ↦ gap (f.numbers !s) (f s).station.gauge.nextNr

def refusals (f : Frames) : ℕ :=
  total fun s ↦ (if (f s).station.gauge.sentReject then 0 else 2) + (f.coming s).countP
    fun data ↦ Rejects data

def unsent (f : Frames) : ℕ :=
  total fun s ↦ seqDist (f s).station.gauge.nextNs (f s).station.gauge.lastNs

def load (f : Frames) : ℕ :=
  total fun s ↦ ((f.coming s).map frameWeight).sum + (f (!s)).station.frames.sQueue.held.length

noncomputable def rank (f : Frames) : ℕ ×ₗ ℕ ×ₗ ℕ ×ₗ ℕ ×ₗ ℕ ×ₗ ℕ ×ₗ ℕ ×ₗ ℕ :=
  toLex
    (f.requests,
      toLex (f.motion, toLex (f.stock, toLex (f.strays, toLex (f.leeway, toLex (f.refusals,
    toLex (f.unsent, f.load)))))))

structure Single (f : Frames) : Prop where
  wf : ∀ s, WellFormed (f s).station
  one : ∀ s, (f s).station.peerMgr.peers.length = 1

theorem Single.numbers_lt (h : Single f) (s : Bool) : (f.numbers s).length < 8 := by
  rw [numbers, List.length_map]
  have hle := (f s).station.frames.iQueue.held_length_le
  have hcap := (h.wf s).iCapacity.2
  exact Nat.lt_succ_of_le (hle.trans hcap)

theorem Single.nextNr_lt (h : Single f) (s : Bool) : (f s).station.gauge.nextNr < 8 :=
  ((h.wf s).counters 0 (by rw [h.one s]; decide)).recv

/-- What the handling of `data` at side `s` has done. -/
structure Received (f f' : Frames) (s : Bool) (data : Bytes) (extra : List FrameInfo) : Prop where
  inbox : (f s).inbox = data :: (f' s).inbox
  other : f' (!s) = f (!s)
  queued : Queued (f s).station (f' s).station extra
  effect : Effect (f s).station data (f' s).station extra

theorem received (h : Single f) {data : Bytes} {rest : List Bytes}
    (hin : (f s).inbox = data :: rest) (now : Instant) :
    ∃ extra, Received f (f.receive s now) s data extra := by
  have hself := receive_self hin now
  obtain ⟨extra, hq, he⟩ := onFrameReceived_effect (h.wf s) (h.one s) now data
  refine ⟨extra, by rw [hself, hin], receive_not .., ?_, ?_⟩
  · rw [hself]
    exact hq
  · rw [hself]
    exact he

namespace Received

variable {data : Bytes} {extra : List FrameInfo} (h : Received f f' s data extra)
include h

theorem coming_self : f.coming s = data :: f'.coming s := by
  rw [coming, coming, h.inbox, h.other, List.cons_append]

theorem coming_not : (f'.coming !s).Perm (extra.map FrameInfo.toBytes ++ f.coming !s) := by
  rw [coming, coming, Bool.not_not, h.other]
  have hp := h.queued.perm.map FrameInfo.toBytes
  rw [List.map_append] at hp
  refine (hp.append_left _).trans ?_
  rw [← List.append_assoc, ← List.append_assoc]
  exact List.perm_append_comm.append_right _

theorem countP_coming (p : Bytes → Bool) :
    total (fun s ↦ (f'.coming s).countP p) + (if p data then 1 else 0) =
      total (fun s ↦ (f.coming s).countP p) + extra.countP fun frame ↦ p frame.toBytes := by
  rw [total_eq _ s, total_eq _ s, h.coming_self, h.coming_not.countP_eq, List.countP_append,
    List.countP_map, List.countP_cons]
  simp only [Function.comp_def]
  omega

theorem requests_eq : f'.requests + (if IsRequest data then 1 else 0) = f.requests := by
  have hc := h.countP_coming fun data ↦ IsRequest data
  have hz : extra.countP (fun frame ↦ decide (IsRequest frame.toBytes)) = 0 := by
    rw [List.countP_eq_zero]
    intro frame hmem
    simpa using h.queued.plain frame hmem
  rw [hz] at hc
  simp only [decide_eq_true_eq] at hc
  exact hc

theorem motion_eq : f'.motion + (f s).station.gauge.state.rank = f.motion +
    (f' s).station.gauge.state.rank := by
  rw [motion, motion, total_eq _ s, total_eq _ s, h.other]
  omega

theorem stock_eq :
    f'.stock + (f s).station.gauge.iQueue.held.length = f.stock +
      (f' s).station.gauge.iQueue.held.length := by
  rw [stock, stock, total_eq _ s, total_eq _ s, h.other]
  omega

theorem unsent_eq :
    f'.unsent + seqDist (f s).station.gauge.nextNs (f s).station.gauge.lastNs =
      f.unsent + seqDist (f' s).station.gauge.nextNs (f' s).station.gauge.lastNs := by
  rw [unsent, unsent, total_eq _ s, total_eq _ s, h.other]
  omega

theorem refusals_eq :
    f'.refusals + (if (f s).station.gauge.sentReject then 0 else 2) +
      (if Rejects data then 1 else 0) =
      f.refusals + (if (f' s).station.gauge.sentReject then 0 else 2) +
        extra.countP fun frame ↦ Rejects frame.toBytes := by
  have hc := h.countP_coming fun data ↦ Rejects data
  rw [total_eq _ s, total_eq _ s] at hc
  simp only [decide_eq_true_eq] at hc
  rw [refusals, refusals, total_eq _ s, total_eq _ s, h.other]
  omega

theorem load_eq :
    f'.load + frameWeight data =
      f.load + ((extra.map fun frame ↦ frameWeight frame.toBytes).sum + extra.length) := by
  have hsum := (h.coming_not.map frameWeight).sum_eq
  have hlen := h.queued.perm.length_eq
  rw [List.map_append, List.sum_append, List.map_map] at hsum
  rw [List.length_append] at hlen
  rw [load, load, total_eq _ s, total_eq _ s, Bool.not_not, h.coming_self, h.other, hsum, hlen,
    List.map_cons, List.sum_cons]
  simp only [Function.comp_def]
  omega

variable (hiq : (f' s).station.gauge.iQueue = (f s).station.gauge.iQueue)
include hiq

theorem numbers_eq (t : Bool) : f'.numbers t = f.numbers t := by
  revert t
  refine both s ?_ ?_
  · rw [numbers, hiq, numbers]
  · rw [numbers, h.other, numbers]

theorem strays_eq : f'.strays + (if IsData data ∧ dataNs data ∉ f.numbers !s then 1 else 0) =
    f.strays := by
  rw [strays, strays, total_eq _ s, total_eq _ s, h.other, h.inbox, List.countP_cons]
  simp only [h.numbers_eq hiq, decide_eq_true_eq]
  omega

theorem leeway_eq :
    f'.leeway + gap (f.numbers !s) (f s).station.gauge.nextNr = f.leeway + gap (f.numbers !s)
      (f' s).station.gauge.nextNr := by
  rw [leeway, leeway, total_eq _ s, total_eq _ s, h.other]
  simp only [h.numbers_eq hiq]
  omega

end Received

theorem Received.rank_lt (hf : Single f) {data : Bytes} {extra : List FrameInfo}
    (h : Received f f' s data extra) : f'.rank < f.rank := by
  have hrequests := h.requests_eq
  have hmotion := h.motion_eq
  have hstock := h.stock_eq
  have hunsent := h.unsent_eq
  have hrefusals := h.refusals_eq
  have hload := h.load_eq
  cases h.effect with
  | answered hreq =>
    rw [if_pos hreq] at hrequests
    exact lex_here (by omega)
  | moved hlt => exact lex_later (by omega) fun _ ↦ lex_here (by omega)
  | freed hs hlt =>
    rw [hs] at hmotion
    exact lex_later (by omega) fun _ ↦ lex_later (by omega) fun _ ↦ lex_here (by omega)
  | accepted hd hns hg =>
    have hiq : (f' s).station.gauge.iQueue = (f s).station.gauge.iQueue := by rw [hg]
    have hstrays := h.strays_eq hiq
    have hleeway := h.leeway_eq hiq
    simp only [hg] at hmotion hstock hleeway
    refine lex_later (by omega) fun _ ↦ lex_later (by omega) fun _ ↦ lex_later (by omega) fun _ ↦ ?_
    by_cases hmem : dataNs data ∈ f.numbers !s
    · rw [if_neg fun hno ↦ hno.2 hmem] at hstrays
      rw [hns] at hmem
      have hgap := gap_succ_lt (hf.numbers_lt !s) (hf.nextNr_lt s) hmem
      exact lex_later (by omega) fun _ ↦ lex_here (by omega)
    · rw [if_pos ⟨hd, hmem⟩] at hstrays
      exact lex_here (by omega)
  | rejected hsent hg hfew =>
    have hiq : (f' s).station.gauge.iQueue = (f s).station.gauge.iQueue := by rw [hg]
    have hstrays := h.strays_eq hiq
    have hleeway := h.leeway_eq hiq
    have hcount :=
      List.countP_le_length (p := fun frame : FrameInfo ↦ decide (Rejects frame.toBytes))
        (l := extra)
    simp only [hg] at hmotion hstock hleeway hrefusals
    rw [hsent, if_neg (by decide), if_pos trivial] at hrefusals
    refine lex_later (by omega) fun _ ↦ lex_later (by omega) fun _ ↦ lex_later (by omega) fun _ ↦
      lex_later (by omega) fun _ ↦ lex_later (by omega) fun _ ↦ lex_here ?_
    omega
  | rewound hrej hnone hg =>
    obtain ⟨ns, hg⟩ := hg
    have hiq : (f' s).station.gauge.iQueue = (f s).station.gauge.iQueue := by rw [hg]
    have hstrays := h.strays_eq hiq
    have hleeway := h.leeway_eq hiq
    simp only [hg] at hmotion hstock hleeway hrefusals
    rw [hnone, List.countP_nil, if_pos hrej] at hrefusals
    refine lex_later (by omega) fun _ ↦ lex_later (by omega) fun _ ↦ lex_later (by omega) fun _ ↦
      lex_later (by omega) fun _ ↦ lex_later (by omega) fun _ ↦ lex_here ?_
    omega
  | passed hg hrej hlight =>
    have hiq : (f' s).station.gauge.iQueue = (f s).station.gauge.iQueue := by rw [hg]
    have hstrays := h.strays_eq hiq
    have hleeway := h.leeway_eq hiq
    have hcount : extra.countP (fun frame ↦ decide (Rejects frame.toBytes)) = 0 := by
      rw [List.countP_eq_zero]
      intro frame hmem
      simpa using hrej frame hmem
    simp only [hg] at hmotion hstock hleeway hrefusals hunsent
    rw [hcount] at hrefusals
    exact lex_later (by omega) fun _ ↦ lex_later (by omega) fun _ ↦ lex_later (by omega) fun _ ↦
      lex_later (by omega) fun _ ↦ lex_later (by omega) fun _ ↦ lex_later (by omega) fun _ ↦
        lex_later (by omega) fun _ ↦ by omega

def Arrives (data : Bytes) (arrived : List Bytes) : Prop := arrived = [] ∨ ∃ x,
    arrived = [x] ∧ Alike x data

theorem Arrives.countP_le {data : Bytes} {arrived : List Bytes} (h : Arrives data arrived)
    {p : Bytes → Bool} (hp : ∀ x, Alike x data → p x → p data) : arrived.countP p ≤
      if p data then 1 else 0 := by
  rcases h with rfl | ⟨x, rfl, hx⟩
  · exact Nat.zero_le _
  · rw [List.countP_singleton]
    by_cases hpx : p x
    · rw [if_pos hpx, if_pos (hp x hx hpx)]
    · rw [if_neg hpx]
      exact Nat.zero_le _

theorem Arrives.countP_eq_zero {data : Bytes} {arrived : List Bytes} (h : Arrives data arrived)
    {p : Bytes → Bool} (hp : ∀ x, Alike x data → ¬ p x) : arrived.countP p = 0 := by
  rcases h with rfl | ⟨x, rfl, hx⟩
  · rfl
  · rw [List.countP_singleton, if_neg (hp x hx)]

/-- What the handing over of a frame at side `s` has done: its station is now `fd`, and
`arrived` has reached the peer. -/
structure HandedOver (f f' : Frames) (s : Bool) (fd : TinyFd) (arrived : List Bytes) : Prop where
  self : f' s = { f s with station := fd }
  other : f' (!s) = { f (!s) with inbox := (f (!s)).inbox ++ arrived }

namespace HandedOver

variable {fd : TinyFd} {arrived : List Bytes} (h : HandedOver f f' s fd arrived)
include h

theorem station_self : (f' s).station = fd := by rw [h.self]

theorem station_not : (f' !s).station = (f !s).station := by rw [h.other]

theorem coming_self : f'.coming s = f.coming s := by rw [coming, h.self, h.station_not, coming]

theorem coming_not :
    f'.coming (!s) = (f !s).inbox ++ arrived ++ fd.frames.sQueue.held.map FrameInfo.toBytes := by
  rw [coming, Bool.not_not, h.station_self, h.other]

theorem requests_eq : f'.requests + (f.coming !s).countP (fun data ↦ IsRequest data) =
    f.requests + (f'.coming !s).countP fun data ↦ IsRequest data := by
  rw [requests, requests, total_eq _ s, total_eq _ s, h.coming_self]
  omega

theorem calm {ns : UInt8} (hg : fd.gauge = { (f s).station.gauge with nextNs := ns }) :
    f'.motion = f.motion ∧ f'.stock = f.stock ∧ f'.leeway = f.leeway ∧
      f'.strays = f.strays + arrived.countP (fun x ↦ IsData x ∧ dataNs x ∉ f.numbers s) ∧
      f'.refusals + (f.coming !s).countP (fun data ↦ Rejects data) =
        f.refusals + (f'.coming !s).countP fun data ↦ Rejects data := by
  have hnumbers : ∀ t, f'.numbers t = f.numbers t := by
    refine both s ?_ ?_
    · rw [numbers, h.station_self, hg, numbers]
    · rw [numbers, h.station_not, numbers]
  refine ⟨?_, ?_, ?_, ?_, ?_⟩
  · rw [motion, motion, total_eq _ s, total_eq _ s, h.station_self, h.station_not, hg]
  · rw [stock, stock, total_eq _ s, total_eq _ s, h.station_self, h.station_not, hg]
  · rw [leeway, leeway, total_eq _ s, total_eq _ s, h.station_self, h.station_not, hg]
    simp only [hnumbers]
  · rw [strays, strays, total_eq _ s, total_eq _ s, h.self, h.other, List.countP_append]
    simp only [hnumbers, Bool.not_not]
    omega
  · rw [refusals, refusals, total_eq _ s, total_eq _ s, h.coming_self, h.station_self,
      h.station_not, hg]
    dsimp only
    omega

theorem rank_service_lt {frame : FrameInfo} (ha : Arrives frame.toBytes arrived)
    (hservice : ¬ IsData frame.toBytes) (hg : fd.gauge = (f s).station.gauge)
    (hperm : (f s).station.frames.sQueue.held.Perm (frame :: fd.frames.sQueue.held)) :
    f'.rank < f.rank := by
  obtain ⟨hmotion, hstock, hleeway, hstrays, hrefusals⟩ := h.calm hg
  have hrequests := h.requests_eq
  have hlong : 2 ≤ frame.toBytes.length := Nat.le_add_left 2 _
  have hmap := hperm.map FrameInfo.toBytes
  have hcount : ∀ p : Bytes → Bool, (∀ x, Alike x frame.toBytes → p x → p frame.toBytes) →
      (f'.coming !s).countP p ≤ (f.coming !s).countP p := by
    intro p hp
    have hle := ha.countP_le hp
    rw [h.coming_not, coming, Bool.not_not, List.countP_append, List.countP_append,
      List.countP_append, hmap.countP_eq, List.map_cons, List.countP_cons]
    omega
  have hnone : arrived.countP (fun x ↦ decide (IsData x ∧ dataNs x ∉ f.numbers s)) = 0 := by
    refine ha.countP_eq_zero fun x hx hstray ↦ ?_
    exact hservice (hx.isData hlong (of_decide_eq_true hstray).1).1
  have hless :=
    hcount (fun x ↦ IsRequest x) fun x hx hr ↦ by simpa using hx.isRequest (by simpa using hr)
  have hless' :=
    hcount (fun x ↦ Rejects x) fun x hx hr ↦ by simpa using hx.rejects (by simpa using hr)
  have hunsent : f'.unsent = f.unsent := by
    rw [unsent, unsent, total_eq _ s, total_eq _ s, h.station_self, h.station_not, hg]
  have hload : f'.load < f.load := by
    have harrived : (arrived.map frameWeight).sum ≤ frameWeight frame.toBytes := by
      rcases ha with rfl | ⟨x, rfl, hx⟩
      · exact Nat.zero_le _
      · simpa using hx.weight hlong
    have hsum := (hmap.map frameWeight).sum_eq
    have hlen := hperm.length_eq
    rw [List.map_cons, List.map_cons, List.sum_cons] at hsum
    rw [List.length_cons] at hlen
    have hold : f.coming (!s) = (f !s).inbox ++ (f s).station.frames.sQueue.held.map
        FrameInfo.toBytes := by
      rw [coming, Bool.not_not]
    rw [load, load, total_eq _ s, total_eq _ s, h.coming_self, h.station_not, Bool.not_not,
      h.station_self, h.coming_not, hold, List.map_append, List.map_append, List.map_append,
      List.sum_append, List.sum_append, List.sum_append, hsum, hlen]
    omega
  exact lex_later (by omega) fun _ ↦ lex_later hmotion.le fun _ ↦ lex_later hstock.le fun _ ↦
    lex_later (by omega) fun _ ↦ lex_later hleeway.le fun _ ↦ lex_later (by omega) fun _ ↦
      lex_later hunsent.le fun _ ↦ hload

theorem rank_data_lt (hf : Single f) {data : Bytes} (ha : Arrives data arrived)
    (hdata : IsData data) (hns : dataNs data ∈ f.numbers s)
    (hne : (f s).station.gauge.nextNs ≠ (f s).station.gauge.lastNs)
    (hg : fd.gauge =
      { (f s).station.gauge with nextNs := ((f s).station.gauge.nextNs + 1) &&& seqBitsMask })
      (hq : fd.frames.sQueue = (f s).station.frames.sQueue) : f'.rank < f.rank := by
  obtain ⟨hmotion, hstock, hleeway, hstrays, hrefusals⟩ := h.calm hg
  have hrequests := h.requests_eq
  have hcount : ∀ p : Bytes → Bool, (∀ x, Alike x data → p x → p data) → ¬ p data →
      (f'.coming !s).countP p = (f.coming !s).countP p := by
    intro p hp hno
    have hle := ha.countP_le hp
    rw [if_neg hno] at hle
    rw [h.coming_not, coming, Bool.not_not, List.countP_append, List.countP_append,
      List.countP_append, hq]
    omega
  have hnotU : data.getD 1 0 &&& hdlcUFrameMask ≠ hdlcUFrameBits :=
    fun hU ↦ not_isI_of_service (.inl hU) hdata.2
  have hnone : arrived.countP (fun x ↦ decide (IsData x ∧ dataNs x ∉ f.numbers s)) = 0 := by
    refine ha.countP_eq_zero fun x hx hx' ↦ ?_
    obtain ⟨hxdata, hstray⟩ := of_decide_eq_true hx'
    rw [(hx.isData hdata.1 hxdata).2] at hstray
    exact hstray hns
  have hsame :=
    hcount (fun x ↦ IsRequest x) (fun x hx hr ↦ by simpa using hx.isRequest (by simpa using hr))
      (by rw [decide_eq_true_eq]; exact not_or.mpr ⟨fun h ↦ hnotU h.1, fun h ↦ hnotU h.1⟩)
  have hsame' :=
    hcount (fun x ↦ Rejects x) (fun x hx hr ↦ by simpa using hx.rejects (by simpa using hr))
      (by rw [decide_eq_true_eq]; exact fun h ↦ h.2.1 hdata.2)
  have hunsent : f'.unsent < f.unsent := by
    have hcounters := (hf.wf s).counters 0 (by rw [hf.one s]; decide)
    have hlt := seqDist_succ_lt hcounters.next hcounters.last hne
    rw [unsent, unsent, total_eq _ s, total_eq _ s, h.station_self, h.station_not, hg]
    exact Nat.add_lt_add_right hlt _
  exact lex_later (by omega) fun _ ↦ lex_later hmotion.le fun _ ↦ lex_later hstock.le fun _ ↦
    lex_later (by omega) fun _ ↦ lex_later hleeway.le fun _ ↦ lex_later (by omega) fun _ ↦
      lex_here hunsent

end HandedOver

theorem rank_generateTxFrames (hf : Single f) (s : Bool) (now : Instant) {data : Bytes}
    (hd : handed (f s).station ((f s).station.generateTxFrames now) = some data)
    {arrived : List Bytes} (ha : Arrives data arrived) :
    (f.generateTxFrames s now arrived).rank < f.rank := by
  have h : HandedOver f (f.generateTxFrames s now arrived) s
      ((f s).station.generateTxFrames now) arrived :=
    ⟨f.generateTxFrames_self s now arrived, f.generateTxFrames_not s now arrived⟩
  cases generateTxFrames_emits (hf.wf s) (hf.one s) now with
  | nothing hn =>
    rw [hn] at hd
    cases hd
  | service hh hservice hg hperm =>
    obtain rfl := Option.some.inj (hd.symm.trans hh)
    exact h.rank_service_lt ha hservice hg hperm
  | data hh hdata hns hne hg hq =>
    obtain rfl := Option.some.inj (hd.symm.trans hh)
    exact h.rank_data_lt hf ha hdata hns hne hg hq

theorem rank_congr (hg : ∀ s, (f' s).station.gauge = (f s).station.gauge)
    (hi : ∀ s, (f' s).inbox = (f s).inbox)
    (hq : ∀ s, (f' s).station.frames.sQueue = (f s).station.frames.sQueue) : f'.rank = f.rank := by
  have hcoming : ∀ s, f'.coming s = f.coming s := by
    intro s
    rw [coming, coming, hi, hq]
  have hnumbers : ∀ s, f'.numbers s = f.numbers s := by
    intro s
    rw [numbers, numbers, hg]
  simp only [rank, requests, motion, stock, strays, leeway, refusals, unsent, load, hg, hi, hq,
    hcoming, hnumbers]

theorem rank_withHdlc (f : Frames) (s : Bool) (ll : HdlcLl) : (f.withHdlc s ll).rank = f.rank := by
  have hself : f.withHdlc s ll s = { f s with station := (f s).station.withHdlc ll } := put_self
  have hnot : f.withHdlc s ll (!s) = f (!s) := put_not
  apply rank_congr
  · exact both s (by rw [hself]; rfl) (by rw [hnot])
  · exact both s (by rw [hself]) (by rw [hnot])
  · exact both s (by rw [hself]; rfl) (by rw [hnot])

theorem Single.receive (h : Single f) (s : Bool) (now : Instant) : Single (f.receive s now) := by
  cases hin : (f s).inbox with
  | nil => rwa [Frames.receive, hin]
  | cons frame rest =>
    have hself := receive_self hin now
    have hnot := f.receive_not s now
    constructor
    · refine both s ?_ ?_
      · rw [hself]
        exact wellFormed_onFrameReceived (h.wf s) now frame
      · rw [hnot]
        exact h.wf _
    · refine both s ?_ ?_
      · rw [hself]
        exact (peers_length_congr (setup_onFrameReceived (h.wf s) now frame)).trans (h.one s)
      · rw [hnot]
        exact h.one _

theorem rank_receive_lt (h : Single f) {s : Bool} (hin : (f s).inbox ≠ []) (now : Instant) :
    (f.receive s now).rank < f.rank := by
  obtain ⟨data, rest, hcons⟩ := List.exists_cons_of_ne_nil hin
  obtain ⟨extra, hr⟩ := received h hcons now
  exact hr.rank_lt h

theorem rank_receives_le (h : Single f) (s : Bool) (now : Instant) (k : ℕ) :
    ((fun f : Frames ↦ f.receive s now)^[k] f).rank ≤ f.rank := by
  induction k generalizing f with
  | zero => exact le_rfl
  | succ k ih =>
    rw [Function.iterate_succ_apply]
    refine (ih (h.receive s now)).trans ?_
    by_cases hin : (f s).inbox = []
    · rw [Frames.receive, hin]
    · exact (rank_receive_lt h hin now).le

end Frames

namespace Net

open TinyFd Side Frames

variable {net net' : Net} {s : Bool}

theorem alike_take (crcType : HdlcCrcT) {data : Bytes} (hd : 2 ≤ data.length) (m : ℕ) :
    Alike ((frameBody crcType data).take m) data := by
  by_cases hm : m < 2
  · left
    rw [List.length_take]
    omega
  · right
    rw [List.getD_eq_getElem?_getD, List.getD_eq_getElem?_getD,
      List.getElem?_take_of_lt (by omega), frameBody, List.getElem?_append_left (by omega)]

theorem goodFrames_singleton (crcType : HdlcCrcT) (body : Bytes) :
    HdlcLl.goodFrames crcType [body] = [] ∨ ∃ m,
    HdlcLl.goodFrames crcType [body] = [body.take m] := by
  rw [HdlcLl.goodFrames, List.filterMap_cons, List.filterMap_nil]
  cases hc : checkBody crcType body with
  | error e => exact .inl rfl
  | ok frame =>
    right
    rw [checkBody] at hc
    dsimp only at hc
    split_ifs at hc
    rw [← Except.ok.inj hc]
    exact ⟨_, rfl⟩

/-- What any receiver makes of the encoding of a frame: it is aligned afterwards,
and if it was before, nothing but the frame arrives. -/
theorem decode_wireFrame {fd : TinyFd} (hwf : WellFormed fd) (p : Phase UInt8) (crcType : HdlcCrcT)
    {data : Bytes} (hd : 2 ≤ data.length) :
    (fd.decode p (wireFrame crcType data)).1.Aligned ∧
      (p.Aligned → Arrives data (fd.decode p (wireFrame crcType data)).2) := by
  have hcap : 0 < fd.hdlc.physMtu := by
    rw [hwf.physMtu]
    omega
  have hbody : frameBody crcType data ≠ [] := by
    rw [← List.length_pos_iff, frameBody_length]
    omega
  by_cases hp : p.Aligned
  · rw [decode, wireFrame, Stuffing.receiveAll_frame _ _ hp hcap hbody]
    refine ⟨trivial, fun _ ↦ ?_⟩
    rcases goodFrames_singleton fd.hdlc.crcType
      ((frameBody crcType data).take fd.hdlc.physMtu) with h | ⟨m, h⟩
    · exact .inl h
    · refine .inr ⟨_, h, ?_⟩
      rw [List.take_take]
      exact alike_take crcType hd _
  · cases p with
    | hunt => exact absurd trivial hp
    | collect pending old =>
      rw [decode, wireFrame, Stuffing.receiveAll_frame_misaligned _ _ _ hp]
      exact ⟨rfl, fun h ↦ absurd h hp⟩

theorem handed_long {fd : TinyFd} (hone : fd.peerMgr.peers.length = 1) (now : Instant)
    {data : Bytes} (hd : handed fd (fd.generateTxFrames now) = some data) : 2 ≤ data.length := by
  rcases generateTxFrames_handed hone now with ⟨hn, -⟩ | ⟨-, i, frame, -, -, hh, -⟩ | ⟨-, -,
    frame, -, hh, -⟩
  · rw [hn] at hd
    cases hd
  · rw [← Option.some.inj (hh.symm.trans hd)]
    exact Nat.le_add_left 2 _
  · rw [← Option.some.inj (hh.symm.trans hd), sendIData_eq]
    exact Nat.le_add_left 2 _

def misaligned (net : Net) : ℕ := total fun s ↦ if (net.outlook s).1.Aligned then 0 else 1

def bytes (net : Net) : ℕ := total fun s ↦ 2 * (net s).station.hdlc.txRest.length +
    (net s).inbox.length

noncomputable def rank (net : Net) : ℕ ×ₗ (ℕ ×ₗ ℕ ×ₗ ℕ ×ₗ ℕ ×ₗ ℕ ×ₗ ℕ ×ₗ ℕ ×ₗ ℕ) ×ₗ ℕ :=
  toLex (net.misaligned, toLex (net.frames.rank, net.bytes))

theorem bytes_getTxData (hwf : WellFormed (net s).station) {now : Instant}
    {room timeoutMs : ℕ} {lost : Bool}
    (hs : net.step (.getTxData s now room timeoutMs lost) = some net')
    (hsame : ((net s).station.checkTimeouts now).generateTxFrames now = (net s).station) :
    net'.bytes + (net.emitted (.getTxData s now room timeoutMs lost)).length ≤ net.bytes := by
  obtain ⟨ll, hget, -, hrest, -⟩ := getTxData_eq hwf.tx now room timeoutMs
  rw [hsame] at hget hrest
  rw [emitted, hget]
  rw [step, hget, Option.map_some, Option.some.injEq] at hs
  have hlen := congrArg List.length hrest
  rw [List.length_append] at hlen
  rw [← hs, bytes, bytes, total_eq _ s, total_eq _ s]
  dsimp only
  rw [put_of_not, put_self, put_self]
  have harrive : ∀ dropping : Bool,
      (if dropping then [] else (net s).station.hdlc.txRest.take room).length ≤
        ((net s).station.hdlc.txRest.take room).length := by
    intro dropping
    cases dropping
    · exact le_rfl
    · exact Nat.zero_le _
  have hle := harrive (if (net s).station.hdlc.isTxBusy then (net s).dropping else lost)
  simp only [hdlc_withHdlc, List.length_append, Option.map_some, Option.getD_some] at hle ⊢
  omega

theorem rank_nothing (hf : Single net.frames) {now : Instant} {room timeoutMs : ℕ}
    (hq : (net s).station.Quiet now)
    (hs : net.step (.getTxData s now room timeoutMs false) = some net')
    (hnone : handed (net s).station ((net s).station.generateTxFrames now) = none) :
    net'.rank ≤ net.rank ∧
    (net.emitted (.getTxData s now room timeoutMs false) ≠ [] → net'.rank < net.rank) := by
  have hwf : WellFormed (net s).station := hf.wf s
  have hone : (net s).station.peerMgr.peers.length = 1 := hf.one s
  obtain ⟨ll, hframes, hphase, hself, -⟩ := frames_getTxData hwf hs
  have hidle : (net s).station.generateTxFrames now = (net s).station := by
    rcases generateTxFrames_handed hone now with ⟨-, he, -⟩ | ⟨-, i, frame, -, -, hd, -⟩ | ⟨-, -,
      frame, -, hd, -⟩
    · exact he
    all_goals
      rw [hnone] at hd
      cases hd
  have hbytes := bytes_getTxData hwf hs (by rw [checkTimeouts_quiet hq, hidle])
  have hsent := sentBytes_handed hwf now
  rw [hnone] at hsent
  dsimp only at hsent
  rw [checkTimeouts_quiet hq, hsent] at hframes hphase
  rw [frames_quiet hq] at hframes
  have hrank : net'.frames.rank = net.frames.rank := by
    rw [hframes, rank_withHdlc]
    have hst : (net.frames s).station.generateTxFrames now = (net.frames s).station := hidle
    apply rank_congr
    · exact both s (by rw [generateTxFrames_self, hst]) (by rw [generateTxFrames_not])
    · refine both s (by rw [generateTxFrames_self]) ?_
      rw [generateTxFrames_not]
      exact List.append_nil _
    · exact both s (by rw [generateTxFrames_self, hst]) (by rw [generateTxFrames_not])
  have hmis : net'.misaligned = net.misaligned := by
    rw [misaligned, misaligned, total_eq _ s, total_eq _ s, hself, hphase]
    rfl
  rw [rank, rank, hmis, hrank]
  refine ⟨lex_le le_rfl (lex_le le_rfl (by omega)), fun hne ↦ ?_⟩
  have hpos := List.length_pos_iff.mpr hne
  exact lex_later le_rfl fun _ ↦ lex_later le_rfl fun _ ↦ by omega

theorem rank_handed (hf : Single net.frames) {now : Instant} {room timeoutMs : ℕ}
    (hq : (net s).station.Quiet now)
    (hs : net.step (.getTxData s now room timeoutMs false) = some net') {data : Bytes}
    (hd : handed (net s).station ((net s).station.generateTxFrames now) = some data) :
    net'.rank < net.rank := by
  have hwf : WellFormed (net s).station := hf.wf s
  have hone : (net s).station.peerMgr.peers.length = 1 := hf.one s
  obtain ⟨ll, hframes, hphase, hself, -⟩ := frames_getTxData hwf hs
  have hsent := sentBytes_handed hwf now
  rw [hd] at hsent
  dsimp only at hsent
  rw [checkTimeouts_quiet hq, hsent] at hframes hphase
  rw [frames_quiet hq] at hframes
  have hdec := @decode_wireFrame (net !s).station (hf.wf !s) (net.outlook !s).1
    (net s).station.hdlc.crcType data (handed_long hone now hd)
  by_cases hp : (net.outlook !s).1.Aligned
  · have hmis : net'.misaligned = net.misaligned := by
      rw [misaligned, misaligned, total_eq _ s, total_eq _ s, hself, hphase, if_pos hp,
        if_pos hdec.1]
    rw [rank, rank, hmis, hframes, rank_withHdlc]
    exact lex_later le_rfl fun _ ↦ lex_here (rank_generateTxFrames hf s now hd (hdec.2 hp))
  · apply lex_here
    rw [misaligned, misaligned, total_eq _ s, total_eq _ s, hself, hphase, if_neg hp, if_pos hdec.1]
    omega

theorem rank_onRxData (hf : Single net.frames) {now : Instant} {count : ℕ}
    (hs : net.step (.onRxData s now count) = some net') : net'.rank ≤ net.rank := by
  obtain ⟨ll, hframes, -, hphase, -, -, herase⟩ := frames_onRxData (hf.wf s) hs
  have hmis : net'.misaligned = net.misaligned := by
    rw [misaligned, misaligned]
    simp only [hphase]
  have hrank := rank_receives_le hf s now
    ((net s).station.decode (net s).station.hdlc.phase ((net s).inbox.take count)).2.length
  have hbytes : net'.bytes ≤ net.bytes := by
    have hll : (net' s).station.hdlc = ll := by
      change (net'.frames s).station.hdlc = ll
      rw [hframes, Frames.withHdlc, put_self]
      rfl
    rw [bytes, bytes, total_eq _ s, total_eq _ s, hll, txRest_of_eraseRx herase]
    rw [step, Option.some.injEq] at hs
    rw [← hs, put_self, put_not]
    simp only [List.length_drop]
    omega
  rw [rank, rank, hmis, hframes, rank_withHdlc]
  exact lex_le le_rfl (lex_le hrank hbytes)

/-- No call raises the rank while no timer runs out and nothing is lost, and a
call that returns bytes lowers it. -/
theorem rank_step (hf : Single net.frames) {op : Op} (hex : net.Exchange op)
    (hs : net.step op = some net') : net'.rank ≤ net.rank ∧
    (net.emitted op ≠ [] → net'.rank < net.rank) := by
  cases op with
  | sendPacket => exact hex.elim
  | disconnect => exact hex.elim
  | getTxData s now room timeoutMs lost =>
    obtain ⟨hq, rfl⟩ := hex
    cases hd : handed (net s).station ((net s).station.generateTxFrames now) with
    | none => exact rank_nothing hf hq hs hd
    | some data =>
      have hlt := rank_handed hf hq hs hd
      exact ⟨hlt.le, fun _ ↦ hlt⟩
  | onRxData s now count => exact ⟨rank_onRxData hf hs, fun hne ↦ absurd rfl hne⟩

/-- From whatever states of the two stations and whatever is on its way, no
order of the calls keeps them sending for ever. -/
theorem exchange_comes_to_rest {config : Bool → TinyFdConfig} {net : ℕ → Net} {ops : ℕ → Op}
    (hr : ∀ s, Reachable (config s) (net 0 s).station)
    (hone : ∀ s, (net 0 s).station.peerMgr.peers.length = 1)
    (hrun : ∀ i, (net i).step (ops i) = some (net (i + 1))) (hex : ∀ i, (net i).Exchange (ops i)) :
    ∃ k, ∀ i, k ≤ i → (net i).emitted (ops i) = [] := by
  have hstations : ∀ i s, Reachable (config s) (net i s).station ∧
      (net i s).station.peerMgr.peers.length = 1 := by
    intro i
    induction i with
    | zero => exact fun s ↦ ⟨hr s, hone s⟩
    | succ i ih =>
      refine station_step (P := fun s fd ↦ Reachable (config s) fd ∧ fd.peerMgr.peers.length = 1)
        ?_ ih (hrun i)
      rintro s fd op fd' ⟨hreach, hlen⟩ hs
      exact ⟨hreach.step hs, (peers_length_congr (setup_step hreach.wellFormed hs)).trans hlen⟩
  have hstep : ∀ i, (net (i + 1)).rank ≤ (net i).rank ∧
      ((net i).emitted (ops i) ≠ [] → (net (i + 1)).rank < (net i).rank) := fun i ↦
    rank_step ⟨fun s ↦ (hstations i s).1.wellFormed, fun s ↦ (hstations i s).2⟩ (hex i) (hrun i)
  obtain ⟨k, hk⟩ :=
    @comes_to_rest _ _ _ (fun i ↦ (net i).rank) (fun i ↦ (net i).emitted (ops i) ≠ [])
      (fun i ↦ (hstep i).1) fun i ↦ (hstep i).2
  exact ⟨k, fun i hi ↦ not_not.mp (hk i hi)⟩

def delivery (i : ℕ) : Op :=
  [.getTxData true 0 8 0 false, .onRxData false 0 8, .getTxData false 0 8 0 false].getD i
    (.onRxData true 0 8)

def deliveryNet : ℕ → Net
  | 0 => (replay plainConfig 0 (handshake ++ [.sendPacket true 1 [7] 0])).get (by decide +kernel)
  | i + 1 => ((deliveryNet i).step (delivery i)).getD (deliveryNet i)

theorem exchange_comes_to_rest_delivery : ∃ k, ∀ i, k ≤ i →
    (deliveryNet i).emitted (delivery i) = [] := by
  have hlate : ∀ i, delivery (i + 3) = .onRxData true 0 8 := fun i ↦ rfl
  apply exchange_comes_to_rest
    (reachable_replay _ : ∀ s, Reachable (plainConfig s) (deliveryNet 0 s).station)
      (by decide +kernel)
  · intro i
    have hsome : ((deliveryNet i).step (delivery i)).isSome := by
      match i with
      | 0 => decide +kernel
      | 1 => rfl
      | 2 => decide +kernel
      | i + 3 => rw [hlate]; rfl
    rw [deliveryNet, Option.getD_of_ne_none (Option.isSome_iff_ne_none.mp hsome)]
  · intro i
    match i with
    | 0 => decide +kernel
    | 1 => trivial
    | 2 => decide +kernel
    | i + 3 => rw [hlate]; trivial

end Net

end TinyProto
