import TinyProto.Hdlc.Stream
import TinyProto.Lib.Lfsr

namespace TinyProto

open Lib

def bitsOf (data : Bytes) : List Bool := data.flatMap fun b ↦ Lfsr.byteBits b.toBitVec

def bitAt (data : Bytes) (i : ℕ) : Bool := (data.getD (i / 8) 0).toBitVec.getLsbD (i % 8)

/-- The two differ in none but `width` bits in a row, from bit `k` on. -/
def DifferWithin (width k : ℕ) (u u' : Bytes) : Prop :=
  ∀ i, bitAt u i ≠ bitAt u' i → k ≤ i ∧ i < k + width

/-- The errors that a CRC type is made for. -/
def Burst : HdlcCrcT → Bytes → Bytes → Prop
  | .hdlcCrcOff, _, _ => False
  | .hdlcCrc8, u, u' => ∃ k, DifferWithin 8 (8 * k) u u'
  | .hdlcCrc16, u, u' => ∃ k, DifferWithin 16 k u u'
  | .hdlcCrc32, u, u' | .hdlcCrcDefault, u, u' => ∃ k, DifferWithin 32 k u u'

section Bits

variable {u u' : Bytes}

theorem bitsOf_cons (b : UInt8) (data : Bytes) : bitsOf (b :: data) = Lfsr.byteBits b.toBitVec ++
    bitsOf data :=
  List.flatMap_cons

theorem bitsOf_append (xs ys : Bytes) : bitsOf (xs ++ ys) = bitsOf xs ++ bitsOf ys :=
  List.flatMap_append

@[simp] theorem bitsOf_length (data : Bytes) : (bitsOf data).length = 8 * data.length := by
  induction data with
  | nil => rfl
  | cons b data ih =>
    rw [bitsOf_cons, List.length_append, ih, Lfsr.byteBits_length, List.length_cons]
    omega

theorem bitsOf_getD (data : Bytes) (i : ℕ) : (bitsOf data).getD i false = bitAt data i := by
  induction data generalizing i with
  | nil => simp [bitsOf, bitAt]
  | cons b data ih =>
    rw [bitsOf_cons]
    rcases Nat.lt_or_ge i 8 with hlt | hge
    · have hfirst : bitAt (b :: data) i = b.toBitVec.getLsbD i := by
        rw [bitAt, Nat.div_eq_of_lt hlt, Nat.mod_eq_of_lt hlt, List.getD_cons_zero]
      rw [List.getD_append _ _ _ _ (by rw [Lfsr.byteBits_length]; exact hlt), hfirst, Lfsr.byteBits,
        List.getD_eq_getElem?_getD, List.getElem?_map, List.getElem?_range hlt]
      rfl
    · have hdiv : i / 8 = (i - 8) / 8 + 1 := by omega
      have hmod : i % 8 = (i - 8) % 8 := by omega
      rw [List.getD_append_right _ _ _ _ (by rw [Lfsr.byteBits_length]; exact hge),
        Lfsr.byteBits_length, ih, bitAt, bitAt, hdiv, hmod, List.getD_cons_succ]

theorem bitAt_of_ge {data : Bytes} {i : ℕ} (hi : 8 * data.length ≤ i) : bitAt data i = false := by
  rw [bitAt, List.getD_eq_getElem?_getD, List.getElem?_eq_none (by omega), Option.getD_none]
  exact BitVec.getLsbD_zero

theorem bitAt_ext (hlen : u'.length = u.length) (h : ∀ i, bitAt u i = bitAt u' i) : u' = u := by
  apply List.ext_getElem hlen
  intro k hk' hk
  apply UInt8.toBitVec_inj.mp
  apply BitVec.eq_of_getLsbD_eq
  intro j hj
  have hbit := h (8 * k + j)
  have hdiv : (8 * k + j) / 8 = k := by omega
  have hmod : (8 * k + j) % 8 = j := by omega
  rw [bitAt, bitAt, hdiv, hmod, List.getD_eq_getElem _ _ hk, List.getD_eq_getElem _ _ hk'] at hbit
  exact hbit.symm

theorem bitsOf_inj : bitsOf u = bitsOf u' ↔ u = u' := by
  refine ⟨fun h ↦ ?_, fun h ↦ by rw [h]⟩
  have hlen := congrArg List.length h
  rw [bitsOf_length, bitsOf_length] at hlen
  apply bitAt_ext (by omega)
  intro i
  rw [← bitsOf_getD, ← bitsOf_getD, h]

instance (width k : ℕ) : Decidable (DifferWithin width k u u') :=
  decidable_of_iff (∀ i < 8 * max u.length u'.length, bitAt u i ≠ bitAt u' i → k ≤ i ∧
    i < k + width) <| by
    refine ⟨fun h i hi ↦ ?_, fun h i _ ↦ h i⟩
    rcases Nat.lt_or_ge i (8 * max u.length u'.length) with hlt | hge
    · exact h i hlt hi
    · rw [bitAt_of_ge (by omega), bitAt_of_ge (by omega)] at hi
      exact absurd rfl hi

def errorBits (u u' : Bytes) : List Bool := List.zipWith xor (bitsOf u) (bitsOf u')

theorem errorBits_getElem? {i : ℕ} (hi : (errorBits u u')[i]? = some true) :
    bitAt u i ≠ bitAt u' i := by
  rw [errorBits, List.getElem?_zipWith_eq_some] at hi
  obtain ⟨b, b', hb, hb', hxor⟩ := hi
  rw [← bitsOf_getD, ← bitsOf_getD, List.getD_eq_getElem?_getD, List.getD_eq_getElem?_getD, hb, hb']
  intro heq
  simp only [Option.getD_some] at heq
  rw [heq, Bool.xor_self] at hxor
  cases hxor

theorem errorBits_true (hlen : u'.length = u.length) (hne : u' ≠ u) : true ∈ errorBits u u' := by
  by_contra hno
  apply hne
  apply bitAt_ext hlen
  intro i
  by_contra hbit
  rcases Nat.lt_or_ge i (8 * u.length) with hlt | hge
  · have hi : i < (bitsOf u).length := by rw [bitsOf_length]; exact hlt
    have hi' : i < (bitsOf u').length := by rw [bitsOf_length, hlen]; exact hlt
    rw [← bitsOf_getD, ← bitsOf_getD, List.getD_eq_getElem _ _ hi, List.getD_eq_getElem _ _ hi']
      at hbit
    apply hno
    refine List.mem_of_getElem? (i := i) ?_
    rw [errorBits, List.getElem?_zipWith_eq_some]
    refine ⟨_, _, List.getElem?_eq_getElem hi, List.getElem?_eq_getElem hi', ?_⟩
    exact (Bool.xor_iff_ne).mpr hbit
  · rw [bitAt_of_ge hge, bitAt_of_ge (by rw [hlen]; exact hge)] at hbit
    exact hbit rfl

end Bits

section Tables

theorem getD_of_map_range {α β : Type} {table : Array α} {f : α → β} {g : ℕ → β} {n : ℕ}
    (htable : table.toList.map f = (List.range n).map g) {i : ℕ} (hi : i < n) (default : α) :
    f (table.getD i default) = g i := by
  have hlen : table.size = n := by simpa using congrArg List.length htable
  have hentry : f table[i] = g i := by simpa [hlen, hi] using congrArg (·[i]?) htable
  rw [← hentry]
  simp [Array.getD, hlen, hi]

theorem fcstab16_step (b : UInt8) :
    (fcstab16.getD b.toNat 0).toBitVec = (Lfsr.shift 0x8408#16)^[8] (b.toBitVec.setWidth 16) := by
  have htable : fcstab16.toList.map UInt16.toBitVec =
      (List.range 256).map fun i ↦ (Lfsr.shift 0x8408#16)^[8] (BitVec.ofNat 16 i) := by
    decide +kernel
  rw [← BitVec.ofNat_toNat]
  exact getD_of_map_range htable b.toNat_lt 0

theorem fcstab32_step (b : UInt8) :
    (fcstab32.getD b.toNat 0).toBitVec = (Lfsr.shift 0xedb88320#32)^[8]
      (b.toBitVec.setWidth 32) := by
  have htable : fcstab32.toList.map UInt32.toBitVec =
      (List.range 256).map fun i ↦ (Lfsr.shift 0xedb88320#32)^[8] (BitVec.ofNat 32 i) := by
    decide +kernel
  rw [← BitVec.ofNat_toNat]
  exact getD_of_map_range htable b.toNat_lt 0

theorem sumByte16_absorb (c : Crc16) (b : UInt8) :
    (c.sumByte b).crc.toBitVec = Lfsr.absorb 0x8408#16 c.crc.toBitVec
      (Lfsr.byteBits b.toBitVec) := by
  rw [Lfsr.absorb_byteBits _ (by decide), Crc16.sumByte, UInt16.toBitVec_xor, fcstab16_step]
  rfl

theorem sumByte32_absorb (c : Crc32) (b : UInt8) :
    (c.sumByte b).crc.toBitVec = Lfsr.absorb 0xedb88320#32 c.crc.toBitVec
      (Lfsr.byteBits b.toBitVec) := by
  rw [Lfsr.absorb_byteBits _ (by decide), Crc32.sumByte, UInt32.toBitVec_xor, fcstab32_step,
    BitVec.xor_comm]
  rfl

theorem sumBytes16_absorb (c : Crc16) (data : Bytes) :
    (c.sumBytes data).crc.toBitVec = Lfsr.absorb 0x8408#16 c.crc.toBitVec (bitsOf data) := by
  induction data generalizing c with
  | nil => rfl
  | cons b data ih => rw [bitsOf_cons, Lfsr.absorb_append, ← sumByte16_absorb, ← ih]; rfl

theorem sumBytes32_absorb (c : Crc32) (data : Bytes) :
    (c.sumBytes data).crc.toBitVec = Lfsr.absorb 0xedb88320#32 c.crc.toBitVec (bitsOf data) := by
  induction data generalizing c with
  | nil => rfl
  | cons b data ih => rw [bitsOf_cons, Lfsr.absorb_append, ← sumByte32_absorb, ← ih]; rfl

end Tables

section Residue

theorem ofBits_crcBytes {w : ℕ} {crcType : HdlcCrcT} (hw : w = 8 * getCrcFieldSize crcType)
    (crc : UInt32) : (Lfsr.ofBits (bitsOf (crcBytes crcType crc)) : BitVec w) =
      crc.toBitVec.setWidth w := by
  have hsize := getCrcFieldSize_le crcType
  apply BitVec.eq_of_getLsbD_eq
  intro i hi
  have hk : i / 8 < getCrcFieldSize crcType := by omega
  have hbyte : (crcBytes crcType crc).getD (i / 8) 0 =
      (crc >>> UInt32.ofNat (i / 8 * 8)).toUInt8 := by
    simp [crcBytes, hk]
  rw [Lfsr.getLsbD_ofBits, bitsOf_getD, bitAt, hbyte, byte_bit _ _ (by omega) _ (by omega),
    BitVec.getLsbD_setWidth]
  congr 2
  omega

variable {w : ℕ} {poly : BitVec w} {crcType : HdlcCrcT}

/-- `poly` describes the CRC of this type: the register starts with ones, and is
complemented when it is read. -/
structure Computes (poly : BitVec w) (crcType : HdlcCrcT) : Prop where
  width : w = 8 * getCrcFieldSize crcType
  top : poly.getLsbD (w - 1) = true
  register : ∀ data, (calculateCrc crcType data).toBitVec.setWidth w =
    Lfsr.absorb poly (BitVec.allOnes w) (bitsOf data) ^^^ BitVec.allOnes w

theorem computes16 : Computes 0x8408#16 .hdlcCrc16 := by
  refine ⟨rfl, by decide, fun data ↦ ?_⟩
  have hsum := sumBytes16_absorb Crc16.new data
  have hones : Crc16.new.crc.toBitVec = BitVec.allOnes 16 := by decide
  rw [hones] at hsum
  rw [← hsum, calculateCrc, Crc16.get, UInt16.toBitVec_toUInt32, UInt16.toBitVec_xor,
    BitVec.setWidth_setWidth_of_le _ (by decide), BitVec.setWidth_eq]
  rfl

theorem computes32 (h : crcType = .hdlcCrc32 ∨ crcType = .hdlcCrcDefault) :
    Computes 0xedb88320#32 crcType := by
  have hget : ∀ data, calculateCrc crcType data = (Crc32.new.sumBytes data).get := by
    intro data
    rcases h with rfl | rfl <;> rfl
  refine ⟨by rcases h with rfl | rfl <;> rfl, by decide, fun data ↦ ?_⟩
  have hsum := sumBytes32_absorb Crc32.new data
  have hones : Crc32.new.crc.toBitVec = BitVec.allOnes 32 := by decide
  rw [hones] at hsum
  rw [← hsum, hget, Crc32.get, UInt32.toBitVec_xor, BitVec.setWidth_eq]
  rfl

theorem Computes.residue (h : Computes poly crcType) (data : Bytes) :
    Lfsr.absorb poly (BitVec.allOnes w) (bitsOf (frameBody crcType data)) =
      (Lfsr.shift poly)^[w] (BitVec.allOnes w) := by
  have hlen : (bitsOf (crcBytes crcType (calculateCrc crcType data))).length = w := by
    rw [bitsOf_length, crcBytes_length, ← h.width]
  rw [frameBody, bitsOf_append, Lfsr.absorb_append, Lfsr.absorb_ofBits _ _ hlen.le, hlen,
    ofBits_crcBytes h.width, h.register, ← BitVec.xor_assoc, BitVec.xor_self, BitVec.zero_xor]

/-- A burst no wider than the register turns no body into another one. -/
theorem Computes.detects (h : Computes poly crcType) {data data' : Bytes} {k : ℕ}
    (hlen : (frameBody crcType data').length = (frameBody crcType data).length)
    (hburst : DifferWithin w k (frameBody crcType data) (frameBody crcType data')) :
    frameBody crcType data' = frameBody crcType data := by
  by_contra hne
  have hbits : (bitsOf (frameBody crcType data)).length =
      (bitsOf (frameBody crcType data')).length := by
    rw [bitsOf_length, bitsOf_length, hlen]
  have hzero := Lfsr.absorb_xor poly (BitVec.allOnes w) (BitVec.allOnes w) hbits
  rw [h.residue, h.residue, BitVec.xor_self, BitVec.xor_self] at hzero
  exact Lfsr.absorb_burst poly h.top (errorBits_true hlen hne)
    (fun i hi ↦ hburst i (errorBits_getElem? hi)) hzero

end Residue

section Sum

theorem sumBytes8_append (c : Crc8) (xs ys : Bytes) :
    c.sumBytes (xs ++ ys) = (c.sumBytes xs).sumBytes ys :=
  List.foldl_append

theorem sumBytes8_injective (data : Bytes) {c c' : Crc8} (h : c.sumBytes data = c'.sumBytes data) :
    c = c' := by
  induction data generalizing c c' with
  | nil => exact h
  | cons b data ih =>
    have hstep := congrArg Crc8.crc (ih h)
    rw [Crc8.sumByte, Crc8.sumByte] at hstep
    have hcrc := (UInt8.add_left_inj b).mp hstep
    cases c
    cases c'
    exact congrArg Crc8.mk hcrc

theorem crcBytes8 (data : Bytes) :
    crcBytes .hdlcCrc8 (calculateCrc .hdlcCrc8 data) = [0xff - (Crc8.new.sumBytes data).crc] := by
  have hone : ∀ v : UInt32, crcBytes .hdlcCrc8 v = [(v >>> 0).toUInt8] := fun v ↦ rfl
  rw [hone, UInt32.shiftRight_zero, calculateCrc, UInt8.toUInt8_toUInt32]
  rfl

theorem sumBytes8_frameBody (data : Bytes) :
    Crc8.new.sumBytes (frameBody .hdlcCrc8 data) = ⟨0xff⟩ := by
  rw [frameBody, sumBytes8_append, crcBytes8]
  generalize Crc8.new.sumBytes data = c
  have hsum : c.crc + (0xff - c.crc) = 0xff := by
    rw [UInt8.add_comm, UInt8.sub_add_cancel]
  exact congrArg Crc8.mk hsum

theorem sumBytes8_differ {u u' : Bytes} (hlen : u'.length = u.length) {k : ℕ}
    (hsame : ∀ i, i ≠ k → u'.getD i 0 = u.getD i 0) {c : Crc8} (h : c.sumBytes u = c.sumBytes u') :
    u' = u := by
  induction u generalizing u' k c with
  | nil => exact List.length_eq_zero_iff.mp hlen
  | cons x xs ih =>
    match u', hlen with
    | y :: ys, hlen =>
      have htail := Nat.succ.inj hlen
      cases k with
      | zero =>
        have hys : ys = xs := by
          apply List.ext_getElem htail
          intro i hi' hi
          have hget := hsame (i + 1) (Nat.succ_ne_zero i)
          rw [List.getD_cons_succ, List.getD_cons_succ, List.getD_eq_getElem _ _ hi',
            List.getD_eq_getElem _ _ hi] at hget
          exact hget
        rw [hys] at h ⊢
        have hstep := congrArg Crc8.crc (sumBytes8_injective xs h)
        rw [(UInt8.add_right_inj c.crc).mp hstep]
      | succ k =>
        have hxy : y = x := hsame 0 (Nat.succ_ne_zero k).symm
        rw [hxy] at h ⊢
        rw [ih htail (fun i hi ↦ hsame (i + 1) (fun he ↦ hi (Nat.succ.inj he)))
          (c := c.sumByte x) h]

theorem detects8 {data data' : Bytes} {k : ℕ}
    (hlen : (frameBody .hdlcCrc8 data').length = (frameBody .hdlcCrc8 data).length)
    (hburst : DifferWithin 8 (8 * k) (frameBody .hdlcCrc8 data) (frameBody .hdlcCrc8 data')) :
    frameBody .hdlcCrc8 data' = frameBody .hdlcCrc8 data := by
  apply sumBytes8_differ hlen (k := k) (c := Crc8.new)
  · intro i hi
    apply UInt8.toBitVec_inj.mp
    apply BitVec.eq_of_getLsbD_eq
    intro j hj
    by_contra hne
    have hdiv : (8 * i + j) / 8 = i := by omega
    have hmod : (8 * i + j) % 8 = j := by omega
    have hbit := hburst (8 * i + j)
    rw [bitAt, bitAt, hdiv, hmod] at hbit
    have hwhere := hbit fun he ↦ hne he.symm
    omega
  · rw [sumBytes8_frameBody, sumBytes8_frameBody]

end Sum

/-- No burst turns a body with its CRC into another one. -/
theorem burst_frameBody {crcType : HdlcCrcT} {data data' : Bytes}
    (hlen : (frameBody crcType data').length = (frameBody crcType data).length)
    (hburst : Burst crcType (frameBody crcType data) (frameBody crcType data')) :
    frameBody crcType data' = frameBody crcType data := by
  cases crcType with
  | hdlcCrcOff => exact absurd hburst not_false
  | hdlcCrc8 =>
    obtain ⟨k, hk⟩ := hburst
    exact detects8 hlen hk
  | hdlcCrc16 =>
    obtain ⟨k, hk⟩ := hburst
    exact computes16.detects hlen hk
  | hdlcCrc32 =>
    obtain ⟨k, hk⟩ := hburst
    exact (computes32 (.inl rfl)).detects hlen hk
  | hdlcCrcDefault =>
    obtain ⟨k, hk⟩ := hburst
    exact (computes32 (.inr rfl)).detects hlen hk

namespace HdlcLl

/-- A payload damaged by a burst on the way is refused. -/
theorem burst_detected {init : HdlcLlInit} {ll : HdlcLl} (hnew : HdlcLl.new init = .ok ll)
    {data u : Bytes} (hne : data ≠ [])
    (hfit : data.length + getCrcFieldSize ll.crcType ≤ ll.physMtu)
    (hlen : u.length = (frameBody ll.crcType data).length) (hdiff : u ≠ frameBody ll.crcType data)
    (hburst : Burst ll.crcType (frameBody ll.crcType data) u) :
    ∃ ll', ll.runRx (hdlcStuffing.frame u) = (ll', (hdlcStuffing.frame u).length, some .wrongCrc) ∧
      ll'.rxFrames = [] ∧ ll'.getRxFrame.2 = none := by
  obtain ⟨-, hrx, hphase, -, -, hframes, -⟩ := new_ok hnew
  rw [frameBody_length] at hlen
  have hu : u ≠ [] := by
    rw [← List.length_pos_iff, hlen]
    exact Nat.add_pos_left (List.length_pos_iff.mpr hne) _
  have hbad : checkBody ll.crcType u = .error .wrongCrc := by
    cases hcheck : checkBody ll.crcType u with
    | error e => rw [checkBody_error hcheck]
    | ok data' =>
      rw [checkBody_eq_ok.mp hcheck] at hburst hdiff hlen
      exact absurd (burst_frameBody (by rw [hlen, frameBody_length]) hburst) hdiff
  have hopen : ll.phase.Aligned := by
    rw [hphase]
    trivial
  obtain ⟨ll', e, hrun, herr, hgood⟩ := runRx_frame hrx hopen hu (hlen.le.trans hfit)
  have hwrong : badBodies ll.crcType [u] = [.wrongCrc] := by
    rw [badBodies, List.filterMap_cons, hbad]
    rfl
  have hnone : ll'.rxFrames = [] := by
    rw [hgood, hframes, goodFrames, List.filterMap_cons, hbad]
    rfl
  rw [hwrong, Option.toList_eq_singleton_iff] at herr
  rw [herr] at hrun
  exact ⟨ll', hrun, hnone, by rw [getRxFrame, hnone]⟩

theorem burst_detected_straddling :
    ∃ ll ll' : HdlcLl, HdlcLl.new ⟨.hdlcCrc16, 0, 64⟩ = .ok ll ∧
    frameBody .hdlcCrc16 [1, 2] = [1, 2, 0x8d, 0x35] ∧
      ll.runRx (hdlcStuffing.frame [1, 0x72, 0x7e, 0x3a]) = (ll', 7, some .wrongCrc) ∧
      ll'.rxFrames = [] ∧ ll'.getRxFrame.2 = none := by
  have hnew : HdlcLl.new ⟨.hdlcCrc16, 0, 64⟩ = .ok _ := rfl
  have hbody : frameBody .hdlcCrc16 [1, 2] = [1, 2, 0x8d, 0x35] := by decide +kernel
  have hne : ([1, 2] : Bytes) ≠ [] := by decide
  have hlen : ([1, 0x72, 0x7e, 0x3a] : Bytes).length = (frameBody .hdlcCrc16 [1, 2]).length := by
    rw [hbody]; rfl
  have hdiff : ([1, 0x72, 0x7e, 0x3a] : Bytes) ≠ frameBody .hdlcCrc16 [1, 2] := by
    rw [hbody]; decide
  have hburst : DifferWithin 16 12 (frameBody .hdlcCrc16 [1, 2]) [1, 0x72, 0x7e, 0x3a] := by
    rw [hbody]; decide
  obtain ⟨ll', hrun, hframes⟩ := burst_detected hnew hne (by decide) hlen hdiff ⟨12, hburst⟩
  exact ⟨_, ll', hnew, hbody, hrun, hframes⟩

end HdlcLl

end TinyProto
