import TinyProto.Hdlc.Checksums
import TinyProto.Lib.LfsrPeriod

namespace TinyProto

open Lib Function

section Periods

open Lfsr

/-- The register of CRC-16 comes back after 32767 steps. -/
theorem period16 : minimalPeriod (shift 0x8408#16) one = 32767 := by
  refine @period_eq _ 0x8408#16 [7, 31, 151] ?_ 16 (by decide) (by decide +kernel)
    (by decide +kernel)
  intro p hp
  simp only [List.mem_cons, List.not_mem_nil, or_false] at hp
  rcases hp with rfl | rfl | rfl <;> norm_num

theorem period32 : minimalPeriod (shift 0xedb88320#32) one = 4294967295 := by
  refine @period_eq _ 0xedb88320#32 [3, 5, 17, 257, 65537] ?_ 32 (by decide) (by decide +kernel)
    (by decide +kernel)
  intro p hp
  simp only [List.mem_cons, List.not_mem_nil, or_false] at hp
  rcases hp with rfl | rfl | rfl | rfl | rfl <;> norm_num

end Periods

def wrongBits (u u' : Bytes) : ℕ := (errorBits u u').count true

def TwoWrong (i j : ℕ) (u u' : Bytes) : Prop := i < j ∧ ∀ k, bitAt u k ≠ bitAt u' k ↔ k = i ∨ k = j

theorem differ_lt {u u' : Bytes} {k : ℕ} (h : bitAt u k ≠ bitAt u' k) :
    k < 8 * max u.length u'.length := by
  by_contra hge
  rw [bitAt_of_ge (by omega), bitAt_of_ge (by omega)] at h
  exact h rfl

instance (i j : ℕ) (u u' : Bytes) : Decidable (TwoWrong i j u u') :=
  decidable_of_iff (i < j ∧ j < 8 * max u.length u'.length ∧
      ∀ k < 8 * max u.length u'.length, bitAt u k ≠ bitAt u' k ↔ k = i ∨ k = j) <| by
    constructor
    · rintro ⟨hij, hj, hall⟩
      refine ⟨hij, fun k ↦ ?_⟩
      rcases Nat.lt_or_ge k (8 * max u.length u'.length) with hlt | hge
      · exact hall k hlt
      · exact iff_of_false (fun hne ↦ absurd (differ_lt hne) (by omega)) (by omega)
    · rintro ⟨hij, hall⟩
      exact ⟨hij, differ_lt ((hall j).mpr (.inr rfl)), fun k _ ↦ hall k⟩

section Errors

variable {w : ℕ} {poly : BitVec w} {crcType : HdlcCrcT} {data u u' : Bytes}

theorem errorBits_iff (hlen : u'.length = u.length) (k : ℕ) : (errorBits u u')[k]? = some true ↔
    bitAt u k ≠ bitAt u' k := by
  refine ⟨errorBits_getElem?, fun hne ↦ ?_⟩
  rcases Nat.lt_or_ge k (8 * u.length) with hlt | hge
  · have hk : k < (bitsOf u).length := by rw [bitsOf_length]; exact hlt
    have hk' : k < (bitsOf u').length := by rw [bitsOf_length, hlen]; exact hlt
    rw [← bitsOf_getD, ← bitsOf_getD, List.getD_eq_getElem _ _ hk, List.getD_eq_getElem _ _ hk']
      at hne
    rw [errorBits, List.getElem?_zipWith_eq_some]
    exact ⟨_, _, List.getElem?_eq_getElem hk, List.getElem?_eq_getElem hk', Bool.xor_iff_ne.mpr hne⟩
  · rw [bitAt_of_ge hge, bitAt_of_ge (by rw [hlen]; exact hge)] at hne
    exact absurd rfl hne

/-- A damaged body passes for another one if the errors leave no trace. -/
theorem Computes.passes_iff (h : Computes poly crcType)
    (hlen : u.length = (frameBody crcType data).length) : (∃ data', u = frameBody crcType data') ↔
    Lfsr.absorb poly 0#w (errorBits (frameBody crcType data) u) = 0#w := by
  have hbits : (bitsOf (frameBody crcType data)).length = (bitsOf u).length := by
    rw [bitsOf_length, bitsOf_length, hlen]
  have hsum := Lfsr.absorb_xor poly (BitVec.allOnes w) (BitVec.allOnes w) hbits
  rw [h.residue, BitVec.xor_self] at hsum
  rw [errorBits, hsum, BitVec.xor_eq_zero_iff, eq_comm]
  constructor
  · rintro ⟨data', rfl⟩
    exact h.residue data'
  · intro hresidue
    rw [frameBody_length] at hlen
    have hsplit := List.take_append_drop data.length u
    refine ⟨u.take data.length, ?_⟩
    rw [← hsplit, h.field_iff (by rw [List.length_drop]; omega)] at hresidue
    rw [frameBody, ← hresidue, hsplit]

theorem Computes.two_pass_iff (h : Computes poly crcType)
    (hlen : u.length = (frameBody crcType data).length) {i j : ℕ}
    (htwo : TwoWrong i j (frameBody crcType data) u) : (∃ data', u = frameBody crcType data') ↔
    minimalPeriod (Lfsr.shift poly) Lfsr.one ∣ j - i := by
  rw [h.passes_iff hlen]
  exact Lfsr.absorb_two poly h.top htwo.1 fun k ↦ (errorBits_iff hlen k).trans (htwo.2 k)

end Errors

namespace HdlcLl

variable {ll : HdlcLl} {data u : Bytes}

/-- The body is reported as damaged and no frame comes of it. -/
def Refuses (ll : HdlcLl) (u : Bytes) : Prop :=
  ∃ ll', ll.runRx (hdlcStuffing.frame u) = (ll', (hdlcStuffing.frame u).length, some .wrongCrc) ∧
    ll'.rxFrames = ll.rxFrames

theorem refuses_iff (hrx : ll.RxOk) (halign : ll.phase.Aligned) (hu : u ≠ [])
    (hfit : u.length ≤ ll.physMtu) : ll.Refuses u ↔ ¬ ∃ data, u = frameBody ll.crcType data := by
  obtain ⟨ll', e, hrun, herr, hgood⟩ := runRx_frame hrx halign hu hfit
  have hpass : badBodies ll.crcType [u] = [] ↔ ∃ data, u = frameBody ll.crcType data :=
    badBodies_eq_nil
  constructor
  · rintro ⟨ll₁, hrun₁, -⟩ hdata
    rw [hrun, Prod.mk.injEq, Prod.mk.injEq] at hrun₁
    rw [hrun₁.2.2, hpass.mpr hdata] at herr
    cases herr
  · intro hno
    cases hcheck : checkBody ll.crcType u with
    | ok data => exact absurd ⟨data, checkBody_eq_ok.mp hcheck⟩ hno
    | error e' =>
      have hbad : badBodies ll.crcType [u] = [.wrongCrc] := by
        rw [badBodies, List.filterMap_cons, hcheck, checkBody_error hcheck]
        rfl
      have hnone : goodFrames ll.crcType [u] = [] := by
        rw [goodFrames, List.filterMap_cons, hcheck]
        rfl
      rw [hbad, Option.toList_eq_singleton_iff] at herr
      rw [herr] at hrun
      rw [hnone, List.append_nil] at hgood
      exact ⟨ll', hrun, hgood⟩

/-- With CRC-16 every odd number of wrong bits is noticed, and with CRC-16 and CRC-32
two of them are, unless their distance is a multiple of the period. -/
theorem wrong_bits_detected (hr : ll.Reachable) (halign : ll.phase.Aligned) (hne : data ≠ [])
    (hfit : data.length + getCrcFieldSize ll.crcType ≤ ll.physMtu)
    (hlen : u.length = (frameBody ll.crcType data).length) :
    (ll.crcType = .hdlcCrc16 → wrongBits (frameBody ll.crcType data) u % 2 = 1 → ll.Refuses u) ∧
    (ll.crcType = .hdlcCrc16 → u.length ≤ 4095 → u ≠ frameBody ll.crcType data →
      wrongBits (frameBody ll.crcType data) u ≤ 3 → ll.Refuses u) ∧
    ∀ i j, TwoWrong i j (frameBody ll.crcType data) u →
      (ll.crcType = .hdlcCrc16 → (ll.Refuses u ↔ ¬ 32767 ∣ j - i)) ∧
        (ll.crcType = .hdlcCrc32 ∨ ll.crcType = .hdlcCrcDefault →
          (ll.Refuses u ↔ ¬ 4294967295 ∣ j - i)) := by
  have hu : u ≠ [] := by
    rw [← List.length_pos_iff, hlen, frameBody_length]
    exact Nat.add_pos_left (List.length_pos_iff.mpr hne) _
  rw [refuses_iff hr.settled.rx halign hu (by rw [hlen, frameBody_length]; exact hfit)]
  have hodd : ll.crcType = .hdlcCrc16 → wrongBits (frameBody ll.crcType data) u % 2 = 1 →
      ¬ ∃ data, u = frameBody ll.crcType data := by
    intro hcrc hodd
    rw [hcrc] at hlen hodd ⊢
    rw [computes16.passes_iff hlen]
    exact Lfsr.absorb_odd 0x8408#16 (by decide) (by decide) hodd
  have htwo : ∀ i j, TwoWrong i j (frameBody ll.crcType data) u → ll.crcType = .hdlcCrc16 →
      ((∃ data, u = frameBody ll.crcType data) ↔ 32767 ∣ j - i) := by
    intro i j htwo hcrc
    rw [hcrc] at hlen htwo ⊢
    rw [computes16.two_pass_iff hlen htwo, period16]
  refine ⟨hodd, ?_, fun i j hij ↦ ⟨fun hcrc ↦ (htwo i j hij hcrc).not, ?_⟩⟩
  · intro hcrc hshort hwrong hthree
    by_cases hcount : wrongBits (frameBody ll.crcType data) u = 2
    · obtain ⟨i, j, hij, hlt, hpos⟩ := Lfsr.exists_two hcount
      rw [errorBits, List.length_zipWith, bitsOf_length, bitsOf_length] at hlt
      rw [htwo i j ⟨hij, fun k ↦ (errorBits_iff hlen k).symm.trans (hpos k)⟩ hcrc]
      intro hdvd
      have hle := Nat.le_of_dvd (by omega) hdvd
      omega
    · refine hodd hcrc ?_
      have hpos : 0 < wrongBits (frameBody ll.crcType data) u :=
        List.count_pos_iff.mpr (errorBits_true hlen hwrong)
      omega
  · intro hcrc
    rw [(computes32 hcrc).two_pass_iff hlen hij, period32]

theorem wrong_bits_detected_scattered :
    ∃ ll : HdlcLl, HdlcLl.new ⟨.hdlcCrc16, 0, 64⟩ = .ok ll ∧ ll.Refuses [0, 2, 0x8d, 0x34] ∧
      ll.Refuses [0, 0x82, 0x8f, 0x35] := by
  have hnew : HdlcLl.new ⟨.hdlcCrc16, 0, 64⟩ = .ok _ := rfl
  have hbody : frameBody .hdlcCrc16 [1, 2] = [1, 2, 0x8d, 0x35] := by decide +kernel
  have htwo : TwoWrong 0 24 (frameBody .hdlcCrc16 [1, 2]) [0, 2, 0x8d, 0x34] := by
    rw [hbody]
    decide +kernel
  refine ⟨_, hnew, ?_, ?_⟩
  · have hall := @wrong_bits_detected _ [1, 2] [0, 2, 0x8d, 0x34] (.new hnew) trivial
      (by decide) (by decide) (by rw [hbody]; rfl)
    exact ((hall.2.2 0 24 htwo).1 rfl).mpr (by decide)
  · have hall := @wrong_bits_detected _ [1, 2] [0, 0x82, 0x8f, 0x35] (.new hnew) trivial
      (by decide) (by decide) (by rw [hbody]; rfl)
    refine hall.1 rfl ?_
    rw [hbody]
    decide +kernel

end HdlcLl

end TinyProto
