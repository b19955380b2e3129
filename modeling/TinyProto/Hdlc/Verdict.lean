import TinyProto.Hdlc.OneShot

namespace TinyProto

open Lib

/-- One flag or more, a body without one, and a closing flag. -/
def Delimited (body bytes : Bytes) : Prop :=
  flagSequence ∉ body ∧ ∃ k, bytes = List.replicate (k + 1) flagSequence ++ body ++ [flagSequence]

namespace HdlcEncoder

/-- `decode` gives a payload only for a whole frame, and leaves the output empty otherwise. -/
structure Vouches (encoder : HdlcEncoder) (data : Bytes) : Prop where
  framed : ∀ p, (encoder.decode data).2 = (.success, p) →
    ∃ body, Delimited body (data.take (encoder.decode data).1) ∧
      hdlcStuffing.unstuff false body = frameBody encoder.crcType p
  cleared : (encoder.decode data).2.1 ≠ .success → (encoder.decode data).2.2 = []

/-- The input starts with the frame of `p`, whose CRC the decoder knows: in the default
type it takes the CRC for zero. A frame of nothing is the whole input. -/
structure Starts (crcType : HdlcCrcT) (p data : Bytes) : Prop where
  frame : ∃ body tail, data = body ++ tail ∧ ∃ stuffed, Delimited stuffed body ∧
    hdlcStuffing.unstuff false stuffed = frameBody crcType p ∧
    (frameBody crcType p = [] → tail = [])
  known : crcType = .hdlcCrcDefault → calculateCrc crcType p = 0

section Loop

theorem decodeLoop_delimited {stuffed body : Bytes} (h : Delimited stuffed body) {tail : Bytes}
    (htail : hdlcStuffing.unstuff false stuffed = [] → tail = []) :
    decodeLoop 0 false [] (body ++ tail) = (body.length, hdlcStuffing.unstuff false stuffed) := by
  obtain ⟨hflag, k, rfl⟩ := h
  have hbytes : List.replicate (k + 1) flagSequence ++ stuffed ++ [flagSequence] =
      List.replicate k flagSequence ++ (flagSequence :: (stuffed ++ [flagSequence])) := by
    rw [List.replicate_succ', List.append_assoc, List.append_assoc, List.singleton_append]
  rw [hbytes, decodeLoop_framed k hflag htail, List.length_append, List.length_replicate,
    List.length_cons, List.length_append, List.length_singleton]

theorem decodeLoop_ne_nil (consumed : ℕ) (escape : Bool) {result : Bytes} (h : result ≠ [])
    (data : Bytes) : (decodeLoop consumed escape result data).2 ≠ [] := by
  induction data generalizing consumed escape result with
  | nil => exact h
  | cons byte data ih =>
    rw [decodeLoop, if_pos h]
    split
    · exact h
    · split
      · exact ih _ _ h
      · split <;> exact ih _ _ (List.append_ne_nil_of_left_ne_nil h _)

theorem decodeLoop_empty (consumed : ℕ) (escape : Bool) (data : Bytes) :
    ((decodeLoop consumed escape [] data).2 = [] ↔ ∀ b ∈ data, b = flagSequence ∨ b = escapeChar) ∧
      ((decodeLoop consumed escape [] data).2 = [] →
        (decodeLoop consumed escape [] data).1 = consumed + data.length) := by
  induction data generalizing consumed escape with
  | nil => exact ⟨iff_of_true rfl fun _ h ↦ absurd h List.not_mem_nil, fun _ ↦ rfl⟩
  | cons byte data ih =>
    obtain ⟨hskip, hall⟩ := ih (consumed + 1) escape
    obtain ⟨hescape, hall'⟩ := ih (consumed + 1) true
    rw [List.length_cons, Nat.add_comm data.length 1, ← Nat.add_assoc,
      List.forall_mem_cons, decodeLoop]
    by_cases hflag : byte = flagSequence
    · rw [if_pos hflag, if_neg (not_not.mpr rfl)]
      exact ⟨hskip.trans (and_iff_right (Or.inl hflag)).symm, hall⟩
    · rw [if_neg hflag]
      by_cases hesc : byte = escapeChar
      · rw [if_pos hesc]
        exact ⟨hescape.trans (and_iff_right (Or.inr hesc)).symm, hall'⟩
      · have hother : ¬ (byte = flagSequence ∨ byte = escapeChar) := not_or.mpr ⟨hflag, hesc⟩
        have hkept : ∀ b, (decodeLoop (consumed + 1) false ([] ++ [b]) data).2 ≠ [] :=
          fun b ↦ decodeLoop_ne_nil _ _ (List.cons_ne_nil b []) data
        rw [if_neg hesc]
        split
        · exact ⟨iff_of_false (hkept _) fun h ↦ hother h.1, fun h ↦ absurd h (hkept _)⟩
        · exact ⟨iff_of_false (hkept _) fun h ↦ hother h.1, fun h ↦ absurd h (hkept _)⟩

end Loop

section Verdict

variable {encoder : HdlcEncoder}

theorem crc_eq_iff (p : Bytes) :
    encoder.crc p = calculateCrc encoder.crcType p ↔
      (encoder.crcType = .hdlcCrcDefault → calculateCrc encoder.crcType p = 0) := by
  by_cases h : encoder.crcType = .hdlcCrcDefault
  · rw [forall_prop_of_true h, crc, h]
    exact eq_comm
  · exact iff_of_true (crc_eq h p) fun hdefault ↦ absurd hdefault h

theorem decode_frame_iff {body p : Bytes} :
    (encoder.decode (hdlcStuffing.frame body)).2 = (.success, p) ↔
      body = p ++ crcBytes encoder.crcType (encoder.crc p) := by
  have hbody : Delimited (hdlcStuffing.stuff body) (hdlcStuffing.frame body) :=
    ⟨hdlcStuffing.flag_not_mem_stuff body, 0, rfl⟩
  have hloop := @decodeLoop_delimited _ _ hbody [] fun _ ↦ rfl
  rw [List.append_nil, (hdlcStuffing.unstuff_stuff body).1] at hloop
  rw [decode_success_iff, hloop]

theorem decode_output {data : Bytes} (h : (encoder.decode data).2.1 ≠ .success) :
    (encoder.decode data).2.2 = (decodeLoop 0 false [] data).2 := by
  rw [decode] at h ⊢
  dsimp only at h ⊢
  split
  · rfl
  · rename_i hlen
    rw [if_neg hlen] at h
    split
    · rfl
    · rename_i hcrc
      rw [if_neg hcrc] at h
      exact absurd rfl h

theorem decode_starts {p data : Bytes} (h : Starts encoder.crcType p data) :
    (encoder.decode data).2 = (.success, p) ∧
      ∃ body, Delimited body (data.take (encoder.decode data).1) ∧
        hdlcStuffing.unstuff false body = frameBody encoder.crcType p := by
  obtain ⟨⟨body, tail, rfl, stuffed, hbody, hframe, htail⟩, hknown⟩ := h
  have hcrc : encoder.crc p = calculateCrc encoder.crcType p := (crc_eq_iff p).mpr hknown
  have hloop := decodeLoop_delimited hbody (hframe.symm ▸ htail)
  refine ⟨decode_success_iff.mpr ?_, stuffed, ?_, hframe⟩
  · rw [hloop, hframe, frameBody, hcrc]
  · rw [decode_consumed, hloop, List.take_left]
    exact hbody

theorem starts_of_decode {p data : Bytes} (hp : (encoder.decode data).2 = (.success, p))
    (h : ∃ body, Delimited body (data.take (encoder.decode data).1) ∧
      hdlcStuffing.unstuff false body = frameBody encoder.crcType p) :
      Starts encoder.crcType p data := by
  obtain ⟨stuffed, hbody, hframe⟩ := h
  have hresult := decode_success_iff.mp hp
  rw [decode_consumed] at hbody
  have htail : frameBody encoder.crcType p = [] →
      data.drop (decodeLoop 0 false [] data).1 = [] := by
    intro hnil
    have hshort : p.length + getCrcFieldSize encoder.crcType = 0 := by
      rw [← frameBody_length, hnil, List.length_nil]
    have hempty : (decodeLoop 0 false [] data).2 = [] := by
      rw [hresult, List.length_eq_zero_iff.symm, List.length_append, crcBytes_length, hshort]
    rw [(decodeLoop_empty 0 false data).2 hempty, Nat.zero_add, List.drop_length]
  have hloop := decodeLoop_delimited hbody (hframe.symm ▸ htail)
  rw [List.take_append_drop] at hloop
  have hfield : crcBytes encoder.crcType (encoder.crc p) = crcBytes encoder.crcType
      (calculateCrc encoder.crcType p) := by
    apply @List.append_cancel_left _ p
    rw [← hresult, hloop, hframe, frameBody]
  have hcrc := (crcBytes_inj (crc_bit encoder p) (calculateCrc_bit encoder.crcType p)).mp hfield
  exact ⟨⟨_, _, (List.take_append_drop _ data).symm, stuffed, hbody, hframe, htail⟩,
    (crc_eq_iff p).mp hcrc⟩

end Verdict

/-- `decode` vouches only for a complete frame at the start of the input: a payload
comes without the flags as well, and a frame that fails the check is left in the
output vector. -/
theorem decode_vouches_iff (encoder : HdlcEncoder) (data : Bytes) :
    encoder.Vouches data ↔
      (∃ p, Starts encoder.crcType p data) ∨
        (getCrcFieldSize encoder.crcType ≠ 0 ∧ ∀ b ∈ data, b = flagSequence ∨ b = escapeChar) := by
  have hempty := (decodeLoop_empty 0 false data).1
  constructor
  · rintro ⟨hframed, hcleared⟩
    by_cases hverdict : (encoder.decode data).2.1 = .success
    · have hp : (encoder.decode data).2 = (.success, (encoder.decode data).2.2) :=
        Prod.ext hverdict rfl
      exact .inl ⟨_, starts_of_decode hp (hframed _ hp)⟩
    · have hnil := hcleared hverdict
      rw [decode_output hverdict] at hnil
      refine .inr ⟨fun hsize ↦ hverdict ?_, hempty.mp hnil⟩
      have hp : (encoder.decode data).2 = (.success, []) := by
        apply decode_success_iff.mpr
        rw [hnil, List.nil_append, eq_comm, List.length_eq_zero_iff.symm, crcBytes_length, hsize]
      rw [hp]
  · rintro (⟨p, hp⟩ | ⟨hsize, hdata⟩)
    · obtain ⟨hdecode, hbody⟩ := decode_starts hp
      refine ⟨fun q hq ↦ ?_, fun h ↦ absurd (by rw [hdecode]) h⟩
      rw [hdecode] at hq
      obtain rfl := (Prod.mk.inj hq).2
      exact hbody
    · have hnil := hempty.mpr hdata
      refine ⟨fun p hp ↦ absurd (decode_success_iff.mp hp) ?_,
        fun h ↦ by rw [decode_output h, hnil]⟩
      rw [hnil]
      intro happend
      have hfield := congrArg List.length (List.append_eq_nil_iff.mp happend.symm).2
      rw [crcBytes_length] at hfield
      exact hsize hfield

example : ((new .hdlcCrc8 0).decode [0x7E, 0x41, 0x00, 0x7E]).2 = (.wrongCrc, [0x41, 0x00]) := by
  decide

theorem decode_unframed : ¬ (new .hdlcCrcOff 0).Vouches [0x41] := by
  intro h
  obtain ⟨body, ⟨-, k, hk⟩, -⟩ := h.framed [0x41] (by decide)
  have hlen := congrArg List.length hk
  have hone : ((new .hdlcCrcOff 0).decode [0x41]).1 = 1 := by decide
  rw [hone, List.length_append, List.length_append, List.length_replicate] at hlen
  have hbytes : (List.take 1 [0x41] : Bytes).length = 1 := rfl
  rw [hbytes, List.length_singleton] at hlen
  omega

end HdlcEncoder

end TinyProto
