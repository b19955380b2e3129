import TinyProto.Hdlc.ErrorDetection
import TinyProto.Hdlc.Verdict

namespace TinyProto

open Lib

inductive SumCall
  | sumByte (data : UInt8)
  | sumBytes (data : Bytes) (len : ℕ)

namespace SumCall

/-- The bytes that a call names; `none` where the source indexes past the end. -/
def bytes : SumCall → Option Bytes
  | .sumByte data => some [data]
  | .sumBytes data len => if len ≤ data.length then some (data.take len) else none

def supplied : List SumCall → Option Bytes
  | [] => some []
  | call :: calls => call.bytes.bind fun data ↦ (supplied calls).map (data ++ ·)

section Run

variable {γ : Type} (sumByte : γ → UInt8 → γ)

def run (c : γ) : SumCall → Option γ
  | .sumByte data => some (sumByte c data)
  | .sumBytes data len => (List.range len).foldlM (fun c i ↦ data[i]?.map (sumByte c)) c

def runAll (c : γ) (calls : List SumCall) : Option γ := calls.foldlM (run sumByte) c

theorem run_eq (c : γ) (call : SumCall) :
    call.run sumByte c = call.bytes.map (List.foldl sumByte c) := by
  cases call with
  | sumByte data => rfl
  | sumBytes data len =>
    rw [run, bytes]
    induction len with
    | zero => rfl
    | succ len ih =>
      have hlast : ∀ c : γ, [len].foldlM (fun c i ↦ data[i]?.map (sumByte c)) c =
          data[len]?.map (sumByte c) := by
        intro c
        rw [List.foldlM_cons]
        cases data[len]? <;> rfl
      rw [List.range_succ, List.foldlM_append, ih]
      rcases Nat.lt_trichotomy len data.length with h | rfl | h
      · rw [if_pos h.le, if_pos (Nat.succ_le_of_lt h), List.take_add_one,
          List.getElem?_eq_getElem h]
        refine (hlast _).trans ?_
        rw [List.getElem?_eq_getElem h, Option.map_some, Option.map_some, Option.toList_some,
          List.foldl_append]
        rfl
      · rw [if_pos le_rfl, if_neg (Nat.not_succ_le_self _)]
        refine (hlast _).trans ?_
        rw [List.getElem?_eq_none le_rfl]
        rfl
      · rw [if_neg (Nat.not_le_of_lt h), if_neg (by omega)]
        rfl

theorem runAll_eq (c : γ) (calls : List SumCall) :
    runAll sumByte c calls = (supplied calls).map (List.foldl sumByte c) := by
  induction calls generalizing c with
  | nil => rfl
  | cons call calls ih =>
    rw [runAll, List.foldlM_cons, run_eq, supplied]
    cases call.bytes with
    | none => rfl
    | some data =>
      change runAll sumByte (data.foldl sumByte c) calls = ((supplied calls).map (data ++ ·)).map _
      rw [ih, Option.map_map]
      congr 1
      funext rest
      exact (List.foldl_append ..).symm

end Run

end SumCall

theorem get16_eq (data : Bytes) :
    (Crc16.new.sumBytes data).get.toBitVec = Lfsr.crc 0x8408#16 (bitsOf data) := by
  rw [Crc16.get, UInt16.toBitVec_xor, sumBytes16_absorb]
  rfl

theorem get32_eq (data : Bytes) : (Crc32.new.sumBytes data).get.toBitVec = Lfsr.crc 0xedb88320#32
    (bitsOf data) := by
  rw [Crc32.get, UInt32.toBitVec_xor, sumBytes32_absorb]
  rfl

/-- The tables compute the standard checks bit by bit, in one call or in many. -/
theorem checksums_standard (data : Bytes) (calls : List SumCall) :
    (Crc16.new.sumBytes data).get.toBitVec = Lfsr.crc 0x8408#16 (bitsOf data) ∧
      (Crc32.new.sumBytes data).get.toBitVec = Lfsr.crc 0xedb88320#32 (bitsOf data) ∧
      (SumCall.runAll Crc16.sumByte Crc16.new calls).map Crc16.get =
        (SumCall.supplied calls).map (fun data ↦ (Crc16.new.sumBytes data).get) ∧
      (SumCall.runAll Crc32.sumByte Crc32.new calls).map Crc32.get =
        (SumCall.supplied calls).map fun data ↦ (Crc32.new.sumBytes data).get := by
  refine ⟨get16_eq data, get32_eq data, ?_, ?_⟩
  · rw [SumCall.runAll_eq, Option.map_map]
    rfl
  · rw [SumCall.runAll_eq, Option.map_map]
    rfl

example : (Crc16.new.sumBytes [0x31, 0x32, 0x33, 0x34, 0x35, 0x36, 0x37, 0x38, 0x39]).get = 0x906e ∧
    (Crc32.new.sumBytes [0x31, 0x32, 0x33, 0x34, 0x35, 0x36, 0x37, 0x38, 0x39]).get =
      0xcbf43926 := by decide +kernel

/-- Two ways to check a trailer agree, and both receivers check it so: `good` is what
the checksum over all says, `value` the check value of the message alone. -/
structure SameCheck (crcType : HdlcCrcT) (good : Prop) (value : UInt32) (m t : Bytes) : Prop where
  field : good ↔ t = crcBytes crcType value
  received : ∀ rx : HdlcLl, rx.Reachable → rx.crcType = crcType → rx.phase.Aligned →
    (m ++ t).length ≤ rx.physMtu →
    ∃ rx' error, rx.runRx (hdlcStuffing.frame (m ++ t)) =
      (rx', (hdlcStuffing.frame (m ++ t)).length, error) ∧
      (rx'.rxFrames = rx.rxFrames ++ [m] ↔ good) ∧ (error = none ↔ good)
  decoded : ∀ mtu : ℤ, ((HdlcEncoder.new crcType mtu).decode (hdlcStuffing.frame (m ++ t))).2 =
    (.success, m) ↔ good

section Trailer

variable {m t : Bytes}

theorem sameCheck {crcType : HdlcCrcT} (hcrc : crcType ≠ .hdlcCrcDefault)
    (hsize : getCrcFieldSize crcType ≠ 0) (hlen : t.length = getCrcFieldSize crcType) {good : Prop}
    (hgood : good ↔ t = crcBytes crcType (calculateCrc crcType m)) :
    SameCheck crcType good (calculateCrc crcType m) m t := by
  have hbody : m ++ t = frameBody crcType m ↔ good := by
    rw [frameBody, List.append_right_inj, hgood]
  have hne : m ++ t ≠ [] := by
    apply List.append_ne_nil_of_right_ne_nil
    rw [← List.length_pos_iff]
    omega
  refine ⟨hgood, ?_, fun mtu ↦ ?_⟩
  · intro rx hreach hrx halign hfit
    obtain ⟨rx', error, hrun, herror, hframes⟩ :=
      HdlcLl.runRx_frame hreach.settled.rx halign hne hfit
    refine ⟨rx', error, hrun, ?_, ?_⟩
    · rw [hframes, List.append_right_inj, HdlcLl.goodFrames_eq, hrx, hbody]
    · rw [← Option.toList_eq_nil_iff, herror, hrx, HdlcLl.badBodies_eq_nil, ← hbody]
      constructor
      · rintro ⟨data, hdata⟩
        have hm : m = data := (List.append_inj' hdata (by rw [crcBytes_length, hlen])).1
        rw [hdata, hm]
      · intro hm
        exact ⟨m, hm⟩
  · have henc : (HdlcEncoder.new crcType mtu).crcType ≠ .hdlcCrcDefault := hcrc
    rw [HdlcEncoder.decode_frame_iff, HdlcEncoder.crc_eq henc, ← hbody]
    rfl

theorem Computes.field_iff {w : ℕ} {poly : BitVec w} {crcType : HdlcCrcT}
    (h : Computes poly crcType) (hlen : t.length = getCrcFieldSize crcType) :
    Lfsr.absorb poly (BitVec.allOnes w) (bitsOf (m ++ t)) = (Lfsr.shift poly)^[w]
      (BitVec.allOnes w) ↔
      t = crcBytes crcType (calculateCrc crcType m) := by
  have hbits : (bitsOf t).length = w := by rw [bitsOf_length, hlen, ← h.width]
  have hfield : (bitsOf (crcBytes crcType (calculateCrc crcType m))).length = w := by
    rw [bitsOf_length, crcBytes_length, ← h.width]
  rw [bitsOf_append, Lfsr.absorb_field_iff poly h.top _ hbits, Lfsr.crc, ← h.register m,
    ← ofBits_crcBytes h.width, Lfsr.ofBits_inj hbits hfield, bitsOf_inj]

theorem good16_iff (hlen : t.length = 2) :
    (Crc16.new.sumBytes (m ++ t)).get = 0xf0b8 ^^^ 0xffff ↔
    t = crcBytes .hdlcCrc16 (calculateCrc .hdlcCrc16 m) := by
  have hgood : (Lfsr.shift 0x8408#16)^[16] (BitVec.allOnes 16) = 0xf0b8#16 := by decide
  rw [← computes16.field_iff hlen, hgood, ← UInt16.toBitVec_inj, get16_eq, Lfsr.crc]
  exact BitVec.xor_left_inj _

theorem good32_iff (hlen : t.length = 4) :
    (Crc32.new.sumBytes (m ++ t)).get = 0xdebb20e3 ^^^ 0xffffffff ↔
      t = crcBytes .hdlcCrc32 (calculateCrc .hdlcCrc32 m) := by
  have hgood : (Lfsr.shift 0xedb88320#32)^[32] (BitVec.allOnes 32) = 0xdebb20e3#32 := by decide
  rw [← (computes32 (.inl rfl)).field_iff hlen, hgood, ← UInt32.toBitVec_inj, get32_eq, Lfsr.crc]
  exact BitVec.xor_left_inj _

theorem good8_iff (hlen : t.length = 1) :
    (Crc8.new.sumBytes (m ++ t)).get = 0x00 ↔
    t = crcBytes .hdlcCrc8 (calculateCrc .hdlcCrc8 m) := by
  obtain ⟨b, rfl⟩ := List.length_eq_one_iff.mp hlen
  rw [sumBytes8_append, crcBytes8, List.singleton_inj]
  generalize Crc8.new.sumBytes m = c
  change 0xff - (c.crc + b) = 0 ↔ b = 0xff - c.crc
  grind

end Trailer

/-- A checksum over a message and a trailer ends in the good value exactly when the
trailer is the CRC field of the message, and then both receivers take the frame. -/
theorem residue_iff_field (m t : Bytes) :
    (t.length = 1 →
      SameCheck .hdlcCrc8 ((Crc8.new.sumBytes (m ++ t)).get = 0x00)
        (Crc8.new.sumBytes m).get.toUInt32 m t) ∧
    (t.length = 2 →
      SameCheck .hdlcCrc16 ((Crc16.new.sumBytes (m ++ t)).get = 0xf0b8 ^^^ 0xffff)
        (Crc16.new.sumBytes m).get.toUInt32 m t) ∧
    (t.length = 4 →
      SameCheck .hdlcCrc32 ((Crc32.new.sumBytes (m ++ t)).get = 0xdebb20e3 ^^^ 0xffffffff)
        (Crc32.new.sumBytes m).get m t) :=
  ⟨fun hlen ↦ sameCheck (by decide) (by decide) hlen (good8_iff hlen),
    fun hlen ↦ sameCheck (by decide) (by decide) hlen (good16_iff hlen),
    fun hlen ↦ sameCheck (by decide) (by decide) hlen (good32_iff hlen)⟩

theorem residue_iff_field_two :
    (Crc16.new.sumBytes ([1, 2] ++ [0x8d, 0x35])).get = 0xf0b8 ^^^ 0xffff ∧
      ∃ rx rx' : HdlcLl, HdlcLl.new ⟨.hdlcCrc16, 0, 64⟩ = .ok rx ∧
        rx.runRx (hdlcStuffing.frame [1, 2, 0x8d, 0x35]) = (rx', 6, none) ∧
        rx'.rxFrames = [[1, 2]] ∧
        ((HdlcEncoder.new .hdlcCrc16 0).decode (hdlcStuffing.frame [1, 2, 0x8d, 0x35])).2 =
          (.success, [1, 2]) := by
  have hnew : HdlcLl.new ⟨.hdlcCrc16, 0, 64⟩ = .ok _ := rfl
  have hcheck := (residue_iff_field [1, 2] [0x8d, 0x35]).2.1 rfl
  have hgood := hcheck.field.mpr (by decide +kernel)
  obtain ⟨rx', error, hrun, hframes, herror⟩ :=
    hcheck.received _ (.new hnew) rfl trivial (by decide)
  rw [herror.mpr hgood] at hrun
  exact ⟨hgood, _, rx', hnew, hrun, hframes.mpr hgood, (hcheck.decoded 0).mpr hgood⟩

end TinyProto
