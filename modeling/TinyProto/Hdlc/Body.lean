import TinyProto.Hdlc.LowLevel
import TinyProto.Lib.Framing
import Mathlib.Data.Nat.Bitwise

namespace TinyProto

open Lib

/-- The byte stuffing of the framing layer. -/
def hdlcStuffing : Stuffing UInt8 where
  flag := flagSequence
  esc := escapeChar
  mask := (· ^^^ escapeBit)
  mask_mask b := by rw [UInt8.xor_assoc, UInt8.xor_self, UInt8.xor_zero]
  esc_ne_flag := by decide
  mask_flag_ne := by decide
  mask_esc_ne := by decide

@[simp] theorem hdlcStuffing_special : hdlcStuffing.special = isSpecial := rfl

def crcBytes (crcType : HdlcCrcT) (crc : UInt32) : Bytes :=
  (List.range (getCrcFieldSize crcType)).map fun i ↦ (crc >>> UInt32.ofNat (i * 8)).toUInt8

@[simp] theorem crcBytes_length (crcType : HdlcCrcT) (crc : UInt32) :
    (crcBytes crcType crc).length = getCrcFieldSize crcType := by
  simp [crcBytes]

/-- What stands between the two flags of a frame, before stuffing. -/
def frameBody (crcType : HdlcCrcT) (data : Bytes) : Bytes :=
  data ++ crcBytes crcType (calculateCrc crcType data)

@[simp] theorem frameBody_length (crcType : HdlcCrcT) (data : Bytes) :
    (frameBody crcType data).length = data.length + getCrcFieldSize crcType := by
  simp [frameBody]

/-- The complete encoding of a payload on the wire. -/
def wireFrame (crcType : HdlcCrcT) (data : Bytes) : Bytes :=
  hdlcStuffing.frame (frameBody crcType data)

theorem one_lt_wireFrame_length (crcType : HdlcCrcT) (data : Bytes) :
    1 < (wireFrame crcType data).length := by
  rw [wireFrame, Stuffing.frame, List.length_cons, List.length_append, List.length_singleton]
  omega

theorem wireFrame_length_pos (crcType : HdlcCrcT) (data : Bytes) :
    0 < (wireFrame crcType data).length :=
  Nat.lt_of_succ_lt (one_lt_wireFrame_length crcType data)

def readCrc (crcType : HdlcCrcT) (body : Bytes) (payloadLen : ℕ) : UInt32 :=
  (List.range (getCrcFieldSize crcType)).foldl
    (fun v i ↦ v ||| (body.getD (payloadLen + i) 0).toUInt32 <<< UInt32.ofNat (i * 8)) 0

/-- What the `End` phase answers on a complete body. -/
def checkBody (crcType : HdlcCrcT) (body : Bytes) : Except TinyError Bytes :=
  if body.length < getCrcFieldSize crcType then .error .wrongCrc
  else
    let payloadLen := body.length - getCrcFieldSize crcType
    if calculateCrc crcType (body.take payloadLen) ≠ readCrc crcType body payloadLen
      then .error .wrongCrc
    else .ok (body.take payloadLen)

theorem shifted_byte_bit (b : UInt8) (n : UInt32) (hn : n.toNat + 8 ≤ 32) (i : ℕ) (hi : i < 32) :
    (b.toUInt32 <<< n).toBitVec.getLsbD i =
      (decide (n.toNat ≤ i) && b.toBitVec.getLsbD (i - n.toNat)) := by
  have h32 : (n.toBitVec % 32#32).toNat = n.toNat := by
    rw [BitVec.toNat_umod]
    exact Nat.mod_eq_of_lt (by simp; omega)
  simp only [UInt32.toBitVec_shiftLeft, UInt8.toBitVec_toUInt32, BitVec.shiftLeft_eq',
    BitVec.ofNat_eq_ofNat, h32, BitVec.getLsbD_shiftLeft, BitVec.getLsbD_setWidth, hi, decide_true,
    Bool.true_and]
  by_cases hle : n.toNat ≤ i
  · simp [hle, show i - n.toNat < 32 by omega]
  · simp [hle, show i < n.toNat by omega]

theorem joined_bytes_bit (f : ℕ → UInt8) (n : ℕ) (hn : n ≤ 4) (i : ℕ) (hi : i < 32) :
    ((List.range n).foldl (fun v k ↦ v ||| (f k).toUInt32 <<< UInt32.ofNat (k * 8))
      0).toBitVec.getLsbD i = (decide (i < n * 8) && (f (i / 8)).toBitVec.getLsbD (i % 8)) := by
  induction n with
  | zero => simp
  | succ n ih =>
    have hk : (UInt32.ofNat (n * 8)).toNat = n * 8 := by
      rw [UInt32.toNat_ofNat']
      exact Nat.mod_eq_of_lt (by omega)
    rw [List.range_succ, List.foldl_append, List.foldl_cons, List.foldl_nil, UInt32.toBitVec_or,
      BitVec.getLsbD_or, ih (by omega), shifted_byte_bit _ _ (by omega) i hi, hk]
    by_cases h1 : i < n * 8
    · simp [h1, show i < (n + 1) * 8 by omega, show ¬ n * 8 ≤ i by omega]
    · by_cases h2 : i < (n + 1) * 8
      · have hdiv : i / 8 = n := by omega
        have hmod : i % 8 = i - n * 8 := by omega
        simp [h1, h2, hdiv, hmod, show n * 8 ≤ i by omega]
      · rw [BitVec.getLsbD_of_ge _ _ (by omega : 8 ≤ i - n * 8)]
        simp [h1, h2]

theorem byte_bit (v : UInt32) (k : ℕ) (hk : k < 4) (j : ℕ) (hj : j < 8) :
    (v >>> UInt32.ofNat (k * 8)).toUInt8.toBitVec.getLsbD j = v.toBitVec.getLsbD (k * 8 + j) := by
  have hn : (UInt32.ofNat (k * 8)).toNat = k * 8 := by
    rw [UInt32.toNat_ofNat']
    exact Nat.mod_eq_of_lt (by omega)
  have h32 : ((UInt32.ofNat (k * 8)).toBitVec % 32#32).toNat = k * 8 := by
    rw [BitVec.toNat_umod, UInt32.toNat_toBitVec, hn]
    exact Nat.mod_eq_of_lt (by simp; omega)
  simp only [UInt32.toBitVec_toUInt8, UInt32.toBitVec_shiftRight, BitVec.ushiftRight_eq',
    BitVec.ofNat_eq_ofNat, h32, BitVec.getLsbD_setWidth, BitVec.getLsbD_ushiftRight, hj,
    decide_true, Bool.true_and]

theorem calculateCrc_bit (crcType : HdlcCrcT) (data : Bytes) (i : ℕ)
    (hi : getCrcFieldSize crcType * 8 ≤ i) :
    (calculateCrc crcType data).toBitVec.getLsbD i = false := by
  cases crcType with
  | hdlcCrcOff => simp [calculateCrc]
  | hdlcCrc8 | hdlcCrc16 =>
    simp only [getCrcFieldSize] at hi
    simp only [calculateCrc, UInt8.toBitVec_toUInt32, UInt16.toBitVec_toUInt32,
      BitVec.getLsbD_setWidth]
    rw [BitVec.getLsbD_of_ge _ _ (by omega), Bool.and_false]
  | hdlcCrc32 | hdlcCrcDefault =>
      exact BitVec.getLsbD_of_ge _ _ (by simpa [getCrcFieldSize] using hi)

theorem getCrcFieldSize_le (crcType : HdlcCrcT) : getCrcFieldSize crcType ≤ 4 := by
  cases crcType <;> decide

theorem readCrc_bit (crcType : HdlcCrcT) (body : Bytes) (payloadLen i : ℕ) (hi : i < 32) :
    (readCrc crcType body payloadLen).toBitVec.getLsbD i =
      (decide (i < getCrcFieldSize crcType * 8) &&
        (body.getD (payloadLen + i / 8) 0).toBitVec.getLsbD (i % 8)) :=
  joined_bytes_bit (fun k ↦ body.getD (payloadLen + k) 0) _ (getCrcFieldSize_le crcType) i hi

theorem readCrc_crcBytes (crcType : HdlcCrcT) (data : Bytes) {crc : UInt32}
    (hcrc : ∀ i, getCrcFieldSize crcType * 8 ≤ i → crc.toBitVec.getLsbD i = false) :
    readCrc crcType (data ++ crcBytes crcType crc) data.length = crc := by
  apply UInt32.toBitVec_inj.mp
  apply BitVec.eq_of_getLsbD_eq
  intro i hi
  have hsize := getCrcFieldSize_le crcType
  rw [readCrc_bit _ _ _ i hi]
  by_cases h : i < getCrcFieldSize crcType * 8
  · have hk : i / 8 < getCrcFieldSize crcType := by omega
    have hbyte : (data ++ crcBytes crcType crc).getD (data.length + i / 8) 0 =
        (crc >>> UInt32.ofNat (i / 8 * 8)).toUInt8 := by
      simp [crcBytes, hk]
    rw [hbyte, byte_bit _ _ (by omega) _ (by omega), decide_eq_true h, Bool.true_and]
    congr 1
    omega
  · rw [decide_eq_false h, Bool.false_and, hcrc i (by omega)]

theorem crcBytes_inj {crcType : HdlcCrcT} {crc crc' : UInt32}
    (hcrc : ∀ i, getCrcFieldSize crcType * 8 ≤ i → crc.toBitVec.getLsbD i = false)
    (hcrc' : ∀ i, getCrcFieldSize crcType * 8 ≤ i → crc'.toBitVec.getLsbD i = false) :
    crcBytes crcType crc = crcBytes crcType crc' ↔ crc = crc' := by
  refine ⟨fun h ↦ ?_, fun h ↦ by rw [h]⟩
  rw [← readCrc_crcBytes crcType [] hcrc, h, readCrc_crcBytes crcType [] hcrc']

theorem readCrc_frameBody (crcType : HdlcCrcT) (data : Bytes) :
    readCrc crcType (frameBody crcType data) data.length = calculateCrc crcType data :=
  readCrc_crcBytes crcType data (calculateCrc_bit crcType data)

theorem crcBytes_readCrc (crcType : HdlcCrcT) (body : Bytes) (payloadLen : ℕ)
    (hlen : body.length = payloadLen + getCrcFieldSize crcType) :
    crcBytes crcType (readCrc crcType body payloadLen) = body.drop payloadLen := by
  have hsize := getCrcFieldSize_le crcType
  apply List.ext_getElem
  · rw [crcBytes_length, List.length_drop]
    omega
  · intro k hk hk'
    rw [crcBytes_length] at hk
    have hget : body.getD (payloadLen + k) 0 = body[payloadLen + k] :=
      List.getD_eq_getElem _ _ (by omega)
    simp only [crcBytes, List.getElem_map, List.getElem_range, List.getElem_drop]
    apply UInt8.toBitVec_inj.mp
    apply BitVec.eq_of_getLsbD_eq
    intro j hj
    have hdiv : (k * 8 + j) / 8 = k := by omega
    have hmod : (k * 8 + j) % 8 = j := by omega
    rw [byte_bit _ _ (by omega) j hj, readCrc_bit _ _ _ _ (by omega), hdiv, hmod, hget,
      decide_eq_true (by omega), Bool.true_and]

theorem checkBody_frameBody (crcType : HdlcCrcT) (data : Bytes) :
    checkBody crcType (frameBody crcType data) = .ok data := by
  have ht : (frameBody crcType data).take data.length = data := by simp [frameBody]
  simp only [checkBody, frameBody_length, Nat.add_sub_cancel, readCrc_frameBody, ht]
  simp

/-- The check passes exactly the payloads that come with their own CRC. -/
theorem checkBody_eq_ok {crcType : HdlcCrcT} {body data : Bytes} :
    checkBody crcType body = .ok data ↔ body = frameBody crcType data := by
  constructor
  · intro h
    rw [checkBody] at h
    split at h
    · cases h
    · rename_i hlen
      dsimp only at h
      split at h
      · cases h
      · rename_i hcrc
        have hdata := Except.ok.inj h
        rw [not_not, hdata] at hcrc
        have hfield :=
          crcBytes_readCrc crcType body (body.length - getCrcFieldSize crcType) (by omega)
        rw [frameBody, hcrc, hfield, ← hdata, List.take_append_drop]
  · rintro rfl
    exact checkBody_frameBody crcType data

theorem checkBody_error {crcType : HdlcCrcT} {body : Bytes} {e : TinyError}
    (h : checkBody crcType body = .error e) : e = .wrongCrc := by
  rw [checkBody] at h
  split at h
  · injection h with h
    exact h.symm
  · dsimp only at h
    split at h
    · injection h with h
      exact h.symm
    · cases h

end TinyProto
