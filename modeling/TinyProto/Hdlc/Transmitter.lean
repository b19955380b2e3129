import TinyProto.Hdlc.Body

namespace TinyProto

open Lib

namespace HdlcLl

/-- The bytes that `run_tx` still has to write for the frame in hand. -/
def txRest (ll : HdlcLl) : Bytes :=
  match ll.txData with
  | none => []
  | some data =>
    let crc := crcBytes ll.crcType (calculateCrc ll.crcType data)
    let escaped := if ll.txEscape then 1 else 0
    match ll.txState with
    | .start => wireFrame ll.crcType data
    | .data => (hdlcStuffing.stuff (data.drop ll.txPos)).drop escaped ++ hdlcStuffing.stuff crc ++
        [flagSequence]
    | .crc => (hdlcStuffing.stuff (crc.drop (ll.txCrcBitsSent / 8))).drop escaped ++ [flagSequence]
    | .end_ => [flagSequence]

/-- The transmitter is in the middle of a frame only while it holds one, and an
escape stands open only in front of a byte that needs it. -/
structure TxOk (ll : HdlcLl) : Prop where
  idle : ll.txData = none → ll.txState = .start
  nonempty : ∀ data, ll.txData = some data → data ≠ []
  crc : ll.txState ≠ .start → ∀ data, ll.txData = some data →
    ll.txCrc = calculateCrc ll.crcType data
  data_escape : ll.txState = .data → ll.txEscape = true → ∀ data, ll.txData = some data →
    ∃ b, data[ll.txPos]? = some b ∧ isSpecial b = true
  crc_bits : ll.txState = .crc → ll.txCrcBitsSent % 8 = 0
  crc_escape : ll.txState = .crc → ll.txEscape = true →
    ∃ b, (crcBytes ll.crcType ll.txCrc)[ll.txCrcBitsSent / 8]? = some b ∧ isSpecial b = true

theorem TxOk.withTxSentFrames {ll : HdlcLl} (h : ll.TxOk) (frames : List Bytes) :
    ({ ll with txSentFrames := frames } : HdlcLl).TxOk :=
  ⟨h.idle, h.nonempty, h.crc, h.data_escape, h.crc_bits, h.crc_escape⟩

def eraseTx (ll : HdlcLl) : HdlcLl :=
  { ll with
    txState := .start, txData := none, txPos := 0, txCrc := 0, txCrcBitsSent :=
      0, txEscape := false,
    txSentFrames := [] }

/-- `ll` has written `out` and become `ll'`: the bytes come off the front of
what was left, and a frame is either in hand or reported as sent. -/
structure Sends (ll ll' : HdlcLl) (out : Bytes) : Prop where
  ok : ll'.TxOk
  rest : ll.txRest = out ++ ll'.txRest
  frame_rule : ll'.eraseTx = ll.eraseTx
  frames : ll'.txSentFrames ++ ll'.txData.toList = ll.txSentFrames ++ ll.txData.toList

theorem Sends.refl {ll : HdlcLl} (h : ll.TxOk) : Sends ll ll [] := ⟨h, rfl, rfl, rfl⟩

theorem Sends.trans {a b c : HdlcLl} {xs ys : Bytes} (h : Sends a b xs) (h' : Sends b c ys) :
    Sends a c (xs ++ ys) :=
  ⟨h'.ok, by rw [h.rest, h'.rest, List.append_assoc], h'.frame_rule.trans h.frame_rule,
    h'.frames.trans h.frames⟩

theorem txRest_eq_nil {ll : HdlcLl} : ll.txRest = [] ↔ ll.txData = none := by
  unfold txRest
  cases ll.txData with
  | none => simp
  | some data => cases ll.txState <;> simp [wireFrame, Stuffing.frame]

theorem Sends.txData {ll ll' : HdlcLl} {out : Bytes} (h : Sends ll ll' out) :
    ll'.txData = none ∨ ll'.txData = ll.txData := by
  cases hd' : ll'.txData with
  | none => exact .inl rfl
  | some data' =>
    right
    cases hd : ll.txData with
    | none =>
      have hrest := h.rest
      rw [txRest_eq_nil.mpr hd] at hrest
      rw [txRest_eq_nil.mp (List.append_eq_nil_iff.mp hrest.symm).2] at hd'
      cases hd'
    | some data =>
      have hframes := h.frames
      rw [hd, hd', Option.toList_some, Option.toList_some] at hframes
      rw [List.singleton_inj.mp (List.append_inj' hframes rfl).2]

theorem Sends.txRest {ll ll' : HdlcLl} {n : ℕ} (h : Sends ll ll' (ll.txRest.take n)) :
    ll'.txRest = ll.txRest.drop n := by
  have hrest := (List.take_append_drop n ll.txRest).trans h.rest
  exact (List.append_cancel_left hrest).symm

theorem Sends.txSentFrames {ll ll' : HdlcLl} {out : Bytes} (h : Sends ll ll' out) :
    ll'.txData = ll.txData ∧ ll'.txSentFrames = ll.txSentFrames ∨
      ll'.txData = none ∧ ll'.txSentFrames = ll.txSentFrames ++ ll.txData.toList := by
  have hframes := h.frames
  rcases h.txData with hnone | hsame
  · rw [hnone, Option.toList_none, List.append_nil] at hframes
    exact .inr ⟨hnone, hframes⟩
  · rw [hsame] at hframes
    exact .inl ⟨hsame, List.append_cancel_right hframes⟩

theorem Sends.stale {ll ll' : HdlcLl} {out : Bytes} (h : Sends ll ll' out)
    (hstale : ll.txSentFrames ≠ []) : ll'.txSentFrames ≠ [] := by
  rcases h.txSentFrames with ⟨-, hsame⟩ | ⟨-, hmore⟩
  · rwa [hsame]
  · rw [hmore]
    exact List.append_ne_nil_of_left_ne_nil hstale _

/-- A frame in hand, or its notification, does not get lost. -/
theorem Sends.occupied {ll ll' : HdlcLl} {out : Bytes} (h : Sends ll ll' out)
    (hsome : ll.txData ≠ none ∨ ll.txSentFrames ≠ []) : ll'.txData ≠ none ∨
    ll'.txSentFrames ≠ [] := by
  by_contra hnone
  obtain ⟨hdata, hsent⟩ := not_or.mp hnone
  have hframes := h.frames
  rw [not_not.mp hdata, not_not.mp hsent, Option.toList_none, List.nil_append] at hframes
  obtain ⟨hsent, hdata⟩ := List.append_eq_nil_iff.mp hframes.symm
  exact hsome.elim (· (Option.toList_eq_nil_iff.mp hdata)) (· hsent)

/-- The silent transitions left before a byte must be written. -/
def txRank (ll : HdlcLl) : ℕ :=
  match ll.txState with
  | .data => 2
  | .crc => 1
  | _ => 0

structure SendSpec (ll : HdlcLl) (room : ℕ) (ll' : HdlcLl) (out : Bytes) : Prop where
  sends : Sends ll ll' out
  room : out.length ≤ room
  stuck : out = [] → ll'.txState = ll.txState → ll.txRest = []
  silent : out = [] → ll'.txState ≠ ll.txState → ll'.txRank < ll.txRank
  rank : ll'.txRank ≤ 2

theorem txRank_le (ll : HdlcLl) : ll.txRank ≤ 2 := by
  unfold txRank
  split <;> omega

theorem TxOk.sending {ll : HdlcLl} (h : ll.TxOk) (hs : ll.txState ≠ .start) :
    ∃ data, ll.txData = some data := by
  cases hd : ll.txData with
  | none => exact absurd (h.idle hd) hs
  | some data => exact ⟨data, rfl⟩

theorem stuffByte_special {b : UInt8} (h : isSpecial b = true) :
    hdlcStuffing.stuffByte b = [escapeChar, b ^^^ escapeBit] := by
  simp only [Stuffing.stuffByte, hdlcStuffing_special, h, if_true]
  rfl

theorem txSendStart_spec {ll : HdlcLl} (h : ll.TxOk) (hs : ll.txState = .start) {room : ℕ}
    (hr : 0 < room) :
    SendSpec ll room (ll.txSendStart room).1 (ll.txSendStart room).2 := by
  cases hd : ll.txData with
  | none =>
    have he : ll.txSendStart room = (ll, []) := by simp [txSendStart, hd]
    rw [he]
    exact ⟨.refl h, by simp, fun _ _ ↦ txRest_eq_nil.mpr hd, fun _ hn ↦ absurd rfl hn, txRank_le _⟩
  | some data =>
    have hne := h.nonempty data hd
    have he : ll.txSendStart room =
        ({ ll with
            txCrc := calculateCrc ll.crcType data
            txState := .data
            txPos := 0
            txEscape := false }, [flagSequence]) := by
      simp [txSendStart, hd, Nat.pos_iff_ne_zero.mp hr]
    rw [he]
    refine ⟨⟨?_, ?_, rfl, rfl⟩, hr, by simp, by simp, txRank_le _⟩
    · constructor <;> simp [hd, hne]
    · simp [txRest, hd, hs, wireFrame, frameBody, Stuffing.frame]
      rfl

theorem txSendData_spec {ll : HdlcLl} (h : ll.TxOk) (hs : ll.txState = .data) {room : ℕ}
    (hr : 0 < room) :
    ∃ ll' out, ll.txSendData room = some (ll', out) ∧ SendSpec ll room ll' out := by
  obtain ⟨data, hd⟩ := h.sending (by rw [hs]; exact TxState.noConfusion)
  have hr' := Nat.pos_iff_ne_zero.mp hr
  have hc := h.crc (by simp [hs]) data hd
  have hne := h.nonempty data hd
  cases hb : data[ll.txPos]? with
  | none =>
    have hesc : ll.txEscape = false := by
      by_contra he
      obtain ⟨b, hb', -⟩ := h.data_escape hs (by simpa using he) data hd
      simp [hb] at hb'
    have hdrop : data.drop ll.txPos = [] := List.drop_eq_nil_of_le (List.getElem?_eq_none_iff.mp hb)
    refine ⟨{ ll with txState := .crc, txCrcBitsSent := 0, txEscape := false }, [],
      by simp [txSendData, hr', hd, hb],
      ⟨?_, ?_, rfl, rfl⟩, by simp, by simp [hs], by simp [txRank, hs],
      txRank_le _⟩
    · constructor <;> simp [hd, hne, hc]
    · simp [txRest, hd, hs, hdrop]
  | some b =>
    obtain ⟨hlt, hget⟩ := List.getElem?_eq_some_iff.mp hb
    have hdrop : data.drop ll.txPos = b :: data.drop (ll.txPos + 1) := by
      rw [← hget]
      exact List.drop_eq_getElem_cons hlt
    by_cases hsp : isSpecial b = true
    · have hstuff := stuffByte_special hsp
      cases hesc : ll.txEscape with
      | false =>
        refine ⟨{ ll with txEscape := true },
          [escapeChar], by simp [txSendData, hr', hd, hb, hsp, hesc], ⟨?_, ?_, rfl, rfl⟩,
          hr, by simp, by simp, txRank_le _⟩
        · constructor <;> simp [hd, hne, hc, hs, hb, hsp]
        · simp [txRest, hd, hs, hesc, hdrop, hstuff]
      | true =>
        refine ⟨{ ll with txEscape := false, txPos := ll.txPos + 1 }, [b ^^^ escapeBit],
          by simp [txSendData, hr', hd, hb, hsp, hesc], ⟨?_, ?_, rfl, rfl⟩,
          hr, by simp, by simp, txRank_le _⟩
        · constructor <;> simp [hd, hne, hc, hs]
        · simp [txRest, hd, hs, hesc, hdrop, hstuff]
    · have hesc : ll.txEscape = false := by
        by_contra he
        obtain ⟨b', hb', hsp'⟩ := h.data_escape hs (by simpa using he) data hd
        rw [hb] at hb'
        exact hsp (Option.some.inj hb' ▸ hsp')
      set run := ((data.drop ll.txPos).take room).takeWhile (fun b ↦ !isSpecial b) with hrun
      have hpos : run ≠ [] := by
        obtain ⟨r, rfl⟩ := Nat.exists_eq_succ_of_ne_zero hr'
        simp [hrun, hdrop, hsp]
      have hroom : run.length ≤ room :=
        (List.takeWhile_prefix _).length_le.trans (List.length_take_le _ _)
      have hprefix : run <+: data.drop ll.txPos :=
        (List.takeWhile_prefix _).trans (List.take_prefix _ _)
      have hplain : hdlcStuffing.stuff run = run :=
        hdlcStuffing.stuff_plain
          fun x hx ↦ by simpa using List.all_eq_true.mp List.all_takeWhile x hx
      refine ⟨{ ll with txPos := ll.txPos + run.length }, run,
        by simp [txSendData, hr', hd, hb, hsp, hrun], ⟨?_, ?_, rfl, rfl⟩, hroom,
        fun he ↦ absurd he hpos,
        fun he ↦ absurd he hpos, txRank_le _⟩
      · constructor <;> simp [hd, hne, hc, hs, hesc]
      · obtain ⟨tail, ht⟩ := hprefix
        have htail : data.drop (ll.txPos + run.length) = tail := by
          rw [← List.drop_drop, ← ht, List.drop_left]
        simp [txRest, hd, hs, hesc, htail, ← ht, hplain]

theorem txSendCrc_spec {ll : HdlcLl} (h : ll.TxOk) (hs : ll.txState = .crc) {room : ℕ}
    (hr : 0 < room) :
    SendSpec ll room (ll.txSendCrc room).1 (ll.txSendCrc room).2 := by
  obtain ⟨data, hd⟩ := h.sending (by rw [hs]; exact TxState.noConfusion)
  have hr' := Nat.pos_iff_ne_zero.mp hr
  have hc := h.crc (by simp [hs]) data hd
  have hne := h.nonempty data hd
  have hbits := h.crc_bits hs
  obtain ⟨k, hk⟩ : ∃ k, ll.txCrcBitsSent = k * 8 := ⟨ll.txCrcBitsSent / 8, by omega⟩
  have hdiv : ll.txCrcBitsSent / 8 = k := by omega
  by_cases hdone : getCrcFieldSize ll.crcType ≤ k
  · have hesc : ll.txEscape = false := by
      by_contra he
      obtain ⟨b, hb, -⟩ := h.crc_escape hs (by simpa using he)
      have hlt := (List.getElem?_eq_some_iff.mp hb).1
      rw [crcBytes_length] at hlt
      omega
    have hdrop : (crcBytes ll.crcType (calculateCrc ll.crcType data)).drop k = [] :=
      List.drop_eq_nil_of_le (by simpa using hdone)
    have he : ll.txSendCrc room = ({ ll with txState := .end_ }, []) := by
      simp [txSendCrc, hr', show getCrcFieldSize ll.crcType * 8 ≤ ll.txCrcBitsSent by omega]
    rw [he]
    refine ⟨⟨?_, ?_, rfl, rfl⟩, by simp, by simp [hs], by simp [txRank, hs], txRank_le _⟩
    · constructor <;> simp [hd, hne, hc]
    · simp [txRest, hd, hs, hdiv, hdrop]
  · have hlt : k < getCrcFieldSize ll.crcType := by omega
    set b := (ll.txCrc >>> UInt32.ofNat (k * 8)).toUInt8 with hb
    have hget : (crcBytes ll.crcType ll.txCrc)[k]? = some b := by simp [crcBytes, hlt, hb]
    have hdrop : (crcBytes ll.crcType (calculateCrc ll.crcType data)).drop k =
        b :: (crcBytes ll.crcType (calculateCrc ll.crcType data)).drop (k + 1) := by
      rw [← hc]
      obtain ⟨hlt', hget'⟩ := List.getElem?_eq_some_iff.mp hget
      rw [← hget']
      exact List.drop_eq_getElem_cons hlt'
    have hge : ¬ getCrcFieldSize ll.crcType * 8 ≤ k * 8 := by omega
    have hnext : (k * 8 + 8) / 8 = k + 1 := by omega
    by_cases hsp : isSpecial b = true
    · have hstuff := stuffByte_special hsp
      cases hesc : ll.txEscape with
      | false =>
        have he : ll.txSendCrc room = ({ ll with txEscape := true }, [escapeChar]) := by
          simp only [txSendCrc, hr', if_false, hk, ge_iff_le, hge, ← hb, hsp, hesc, if_true,
            Bool.not_false]
        rw [he]
        refine ⟨⟨?_, ?_, rfl, rfl⟩, hr, by simp, by simp, txRank_le _⟩
        · constructor <;> simp [hd, hne, hc, hs, hk]
          exact ⟨b, hc ▸ hget, hsp⟩
        · simp [txRest, hd, hs, hesc, hdiv, hdrop, hstuff]
      | true =>
        have he : ll.txSendCrc room =
            ({ ll with txEscape := false, txCrcBitsSent := k * 8 + 8 }, [b ^^^ escapeBit]) := by
          simp only [txSendCrc, hr', if_false, hk, ge_iff_le, hge, ← hb, hsp, hesc, if_true,
            Bool.not_true, Bool.false_eq_true]
        rw [he]
        refine ⟨⟨?_, ?_, rfl, rfl⟩, hr, by simp, by simp, txRank_le _⟩
        · constructor <;> simp [hd, hne, hc, hs]
        · simp [txRest, hd, hs, hesc, hdiv, hnext, hdrop, hstuff]
    · have hesc : ll.txEscape = false := by
        by_contra he
        obtain ⟨b', hb', hsp'⟩ := h.crc_escape hs (by simpa using he)
        rw [hdiv, hget] at hb'
        exact hsp (Option.some.inj hb' ▸ hsp')
      have hstuff : hdlcStuffing.stuffByte b = [b] := by simp [Stuffing.stuffByte, hsp]
      have he : ll.txSendCrc room = ({ ll with txCrcBitsSent := k * 8 + 8 }, [b]) := by
        simp only [txSendCrc, hr', if_false, hk, ge_iff_le, hge, ← hb, hsp, Bool.false_eq_true]
      rw [he]
      refine ⟨⟨?_, ?_, rfl, rfl⟩, hr, by simp, by simp, txRank_le _⟩
      · constructor <;> simp [hd, hne, hc, hs, hesc]
      · simp [txRest, hd, hs, hesc, hdiv, hnext, hdrop, hstuff]

theorem txSendEnd_spec {ll : HdlcLl} (h : ll.TxOk) (hs : ll.txState = .end_) {room : ℕ}
    (hr : 0 < room) :
    SendSpec ll room (ll.txSendEnd room).1 (ll.txSendEnd room).2 := by
  obtain ⟨data, hd⟩ := h.sending (by rw [hs]; exact TxState.noConfusion)
  simp only [txSendEnd, Nat.pos_iff_ne_zero.mp hr, if_false]
  refine ⟨⟨?_, ?_, rfl, by simp⟩, hr, by simp, by simp, txRank_le _⟩
  · constructor <;> simp
  · simp [txRest, hd, hs]

theorem txSend_spec {ll : HdlcLl} (h : ll.TxOk) {room : ℕ} (hr : 0 < room) :
    ∃ ll' out, ll.txSend room = some (ll', out) ∧ SendSpec ll room ll' out := by
  unfold txSend
  cases hs : ll.txState with
  | start => exact ⟨_, _, rfl, txSendStart_spec h hs hr⟩
  | data => exact txSendData_spec h hs hr
  | crc => exact ⟨_, _, rfl, txSendCrc_spec h hs hr⟩
  | end_ => exact ⟨_, _, rfl, txSendEnd_spec h hs hr⟩

theorem runTxLoop_spec (fuel : ℕ) {ll : HdlcLl} (h : ll.TxOk) (room : ℕ) (out : Bytes)
    (hfuel : 3 * room + ll.txRank < fuel) :
    ∃ ll' out', runTxLoop fuel ll room out = some (ll', out ++ out') ∧ Sends ll ll' out' ∧
      out'.length ≤ room ∧ (out'.length < room → ll'.txRest = []) := by
  induction fuel generalizing ll room out with
  | zero => omega
  | succ fuel ih =>
    rcases Nat.eq_zero_or_pos room with rfl | hr
    · exact ⟨ll, [], by simp [runTxLoop], .refl h, by simp, by simp⟩
    · obtain ⟨ll₁, bytes, he, hspec⟩ := txSend_spec h hr
      have hr' := Nat.pos_iff_ne_zero.mp hr
      cases bytes with
      | nil =>
        by_cases hst : ll₁.txState = ll.txState
        · refine ⟨ll₁, [], by simp [runTxLoop, hr', he, hst], hspec.sends, by simp, fun _ ↦ ?_⟩
          have hrest := hspec.sends.rest
          rw [hspec.stuck rfl hst] at hrest
          simpa using hrest.symm
        · have hrank := hspec.silent rfl hst
          obtain ⟨ll₂, out', hrun, hsends, hlen, hend⟩ := ih hspec.sends.ok room out (by omega)
          exact ⟨ll₂, out', by simp [runTxLoop, hr', he, hst, hrun],
            hspec.sends.trans hsends, hlen, hend⟩
      | cons b bs =>
        have hroom := hspec.room
        have hrank := hspec.rank
        simp only [List.length_cons] at hroom
        obtain ⟨ll₂, out', hrun, hsends, hlen, hend⟩ :=
          ih hspec.sends.ok (room - (bs.length + 1)) (out ++ b :: bs) (by omega)
        refine ⟨ll₂, (b :: bs) ++ out', ?_, hspec.sends.trans hsends, ?_, fun hlt ↦ hend ?_⟩
        · simp [runTxLoop, hr', he, hrun]
        · simp only [List.length_append, List.length_cons]
          omega
        · simp only [List.length_append, List.length_cons] at hlt
          omega

/-- `run_tx` never panics, and writes as much of the rest as the buffer takes. -/
theorem runTx_spec {ll : HdlcLl} (h : ll.TxOk) (room : ℕ) :
    ∃ ll', ll.runTx room = some (ll', ll.txRest.take room) ∧
    Sends ll ll' (ll.txRest.take room) := by
  have hrank := ll.txRank_le
  obtain ⟨ll', out, hrun, hsends, hlen, hend⟩ := runTxLoop_spec (3 * room + 3) h room [] (by omega)
  have hout : out = ll.txRest.take room := by
    rcases Nat.lt_or_ge out.length room with hlt | hge
    · rw [hsends.rest, hend hlt, List.append_nil, List.take_of_length_le hlen]
    · rw [hsends.rest, List.take_left' (by omega)]
  subst hout
  exact ⟨ll', by simpa [runTx] using hrun, hsends⟩

end HdlcLl

end TinyProto
