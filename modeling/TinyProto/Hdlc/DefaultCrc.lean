import TinyProto.Hdlc.Verdict

namespace TinyProto

open Lib

namespace HdlcEncoder

def EncodesCrc32 (p : Bytes) : Prop :=
  ∀ mtu : ℤ, (new .hdlcCrcDefault mtu).encode p = (new .hdlcCrc32 mtu).encode p

def DecodesStream (p : Bytes) : Prop :=
  ∀ (mtu : ℤ) (tx : HdlcLl), tx.Reachable → tx.crcType = .hdlcCrcDefault →
    tx.isTxBusy = false → p ≠ [] →
    ∀ sizes : ℕ → ℕ, (∀ k, 1 ≤ sizes k) →
      ∃ tx₁ tx₂ stream, tx.putFrame p = (tx₁, .ok ()) ∧
        HdlcLl.drain sizes (2 * p.length + 10) 0 tx₁ [] = some (tx₂, stream) ∧
        tx₂.isTxBusy = false ∧ ((new .hdlcCrcDefault mtu).decode stream).2 = (.success, p)

def FeedsStream (p : Bytes) : Prop :=
  ∀ (mtu : ℤ) (rx : HdlcLl), rx.Reachable → rx.crcType = .hdlcCrcDefault → rx.phase.Aligned →
    p.length + getCrcFieldSize .hdlcCrcDefault ≤ rx.physMtu →
      (rx.runRx ((new .hdlcCrcDefault mtu).encode p).1).1.rxFrames = rx.rxFrames ++ [p]

def DetectsChange (p : Bytes) : Prop :=
  ∀ (mtu : ℤ) (i : ℕ) (b : UInt8), p.set i b ≠ p →
    let encoder := new .hdlcCrcDefault mtu
    (encoder.decode
      (hdlcStuffing.frame (p.set i b ++ crcBytes encoder.crcType (encoder.crc p)))).2.1 ≠ .success

structure DefaultIsCrc32 (p : Bytes) : Prop where
  encoded : EncodesCrc32 p
  decoded : DecodesStream p
  fed : FeedsStream p
  detected : DetectsChange p

section Default

variable {p : Bytes}

theorem encode_default (mtu : ℤ) (p : Bytes) :
    (new .hdlcCrcDefault mtu).encode p =
      (hdlcStuffing.frame (p ++ crcBytes .hdlcCrcDefault 0), .success) :=
  encode_frame _ p

theorem zero_field_iff :
    p ++ crcBytes .hdlcCrcDefault 0 = frameBody .hdlcCrcDefault p ↔
    calculateCrc .hdlcCrcDefault p = 0 := by
  have hzero : ∀ i, getCrcFieldSize .hdlcCrcDefault * 8 ≤ i →
      (0 : UInt32).toBitVec.getLsbD i = false :=
    fun i _ ↦ BitVec.getLsbD_zero
  rw [frameBody, List.append_right_inj, crcBytes_inj hzero (calculateCrc_bit .hdlcCrcDefault p),
    eq_comm]

theorem encodesCrc32_iff : EncodesCrc32 p ↔ calculateCrc .hdlcCrcDefault p = 0 := by
  have hbytes : ∀ mtu : ℤ, (new .hdlcCrcDefault mtu).encode p = (new .hdlcCrc32 mtu).encode p ↔
      calculateCrc .hdlcCrcDefault p = 0 := by
    intro mtu
    have h32 : (new .hdlcCrc32 mtu).encode p =
        (hdlcStuffing.frame (frameBody .hdlcCrcDefault p), .success) :=
      encode_frame _ p
    rw [encode_default, h32, Prod.mk.injEq, and_iff_left rfl, hdlcStuffing.frame_inj,
      zero_field_iff]
  exact ⟨fun h ↦ (hbytes 0).mp (h 0), fun h mtu ↦ (hbytes mtu).mpr h⟩

theorem decodesStream_iff : DecodesStream p ↔ calculateCrc .hdlcCrcDefault p = 0 := by
  have hdecode : ∀ mtu : ℤ, ((new .hdlcCrcDefault mtu).decode (wireFrame .hdlcCrcDefault p)).2 =
      (.success, p) ↔ calculateCrc .hdlcCrcDefault p = 0 := by
    intro mtu
    rw [wireFrame, decode_frame_iff, eq_comm]
    exact zero_field_iff
  constructor
  · intro h
    by_cases hp : p = []
    · rw [hp]
      decide
    · have hnew : HdlcLl.new ⟨.hdlcCrcDefault, 0, 1⟩ = .ok _ := rfl
      obtain ⟨tx₁, tx₂, stream, hput, hdrain, -, hgood⟩ := h 0 _ (.new hnew) rfl rfl hp (fun _ ↦ 1)
        fun _ ↦ le_rfl
      obtain ⟨htx, -, -, hidle, -⟩ := HdlcLl.new_ok hnew
      obtain ⟨tx₁', tx₂', hput', hdrain', -⟩ := HdlcLl.putFrame_drain (fun _ ↦ le_rfl) htx hidle hp
      obtain rfl := (Prod.mk.inj (hput.symm.trans hput')).1
      obtain rfl := (Prod.mk.inj (Option.some.inj (hdrain.symm.trans hdrain'))).2
      exact (hdecode 0).mp hgood
  · intro h mtu tx hreach hcrc hbusy hp sizes hsizes
    have hidle : tx.txData = none := by simpa [HdlcLl.isTxBusy] using hbusy
    obtain ⟨tx₁, tx₂, hput, hdrain, hdone⟩ :=
      HdlcLl.putFrame_drain hsizes hreach.settled.tx hidle hp
    rw [hcrc] at hdrain
    exact ⟨tx₁, tx₂, _, hput, hdrain, by rw [HdlcLl.isTxBusy, hdone]; rfl, (hdecode mtu).mpr h⟩

theorem feedsStream_iff : FeedsStream p ↔ calculateCrc .hdlcCrcDefault p = 0 := by
  have hlen : (p ++ crcBytes .hdlcCrcDefault 0).length = p.length +
      getCrcFieldSize .hdlcCrcDefault := by
    rw [List.length_append, crcBytes_length]
  have hsize : 0 < getCrcFieldSize .hdlcCrcDefault := by decide
  have hne : p ++ crcBytes .hdlcCrcDefault 0 ≠ [] := by
    apply List.length_pos_iff.mp
    omega
  have hfed : ∀ (mtu : ℤ) (rx : HdlcLl), rx.Reachable → rx.crcType = .hdlcCrcDefault →
      rx.phase.Aligned →
      p.length + getCrcFieldSize .hdlcCrcDefault ≤ rx.physMtu →
        ((rx.runRx ((new .hdlcCrcDefault mtu).encode p).1).1.rxFrames = rx.rxFrames ++ [p] ↔
          calculateCrc .hdlcCrcDefault p = 0) := by
    intro mtu rx hreach hcrc halign hfit
    obtain ⟨rx', e, hrun, -, hframes⟩ :=
      HdlcLl.runRx_frame hreach.settled.rx halign hne (hlen.le.trans hfit)
    rw [encode_default, hrun, hframes, List.append_right_inj, hcrc, HdlcLl.goodFrames_eq,
      zero_field_iff]
  constructor
  · intro h
    have hnew : HdlcLl.new ⟨.hdlcCrcDefault, 0, p.length + getCrcFieldSize .hdlcCrcDefault⟩ =
        .ok _ :=
      if_neg (by dsimp only; omega)
    have hphase := (HdlcLl.new_ok hnew).2.2.1
    refine (hfed 0 _ (.new hnew) rfl (by rw [hphase]; trivial) ?_).mp
      (h 0 _ (.new hnew) rfl (by rw [hphase]; trivial) ?_)
    · exact le_rfl
    · exact le_rfl
  · exact fun h mtu rx hreach hcrc halign hfit ↦ (hfed mtu rx hreach hcrc halign hfit).mpr h

theorem detectsChange_iff : DetectsChange p ↔ p = [] := by
  constructor
  · intro h
    by_contra hne
    obtain ⟨a, rest, rfl⟩ := List.exists_cons_of_ne_nil hne
    have hchanged : (a :: rest).set 0 (a + 1) ≠ a :: rest := by
      intro hset
      have hhead : a + 1 = a := (List.cons.inj hset).1
      simp at hhead
    have hdecode : ((new .hdlcCrcDefault 0).decode
        (hdlcStuffing.frame ((a :: rest).set 0 (a + 1) ++ crcBytes .hdlcCrcDefault 0))).2 =
          (.success, (a :: rest).set 0 (a + 1)) := decode_frame_iff.mpr rfl
    exact h 0 0 (a + 1) hchanged (congrArg Prod.fst hdecode)
  · rintro rfl mtu i b hchanged
    exact absurd List.set_nil hchanged

end Default

/-- The default type is CRC-32 for the framing layer alone: the one-shot codec puts a
field of zeros in its place and checks nothing. -/
theorem default_crc_iff (p : Bytes) :
    (EncodesCrc32 p ↔ calculateCrc .hdlcCrcDefault p = 0) ∧
    (DecodesStream p ↔ calculateCrc .hdlcCrcDefault p = 0) ∧
      (FeedsStream p ↔ calculateCrc .hdlcCrcDefault p = 0) ∧ (DefaultIsCrc32 p ↔ p = []) := by
  refine ⟨encodesCrc32_iff, decodesStream_iff, feedsStream_iff,
    fun h ↦ detectsChange_iff.mp h.detected, ?_⟩
  rintro rfl
  have hzero : calculateCrc .hdlcCrcDefault [] = 0 := by decide
  exact ⟨encodesCrc32_iff.mpr hzero, decodesStream_iff.mpr hzero, feedsStream_iff.mpr hzero,
    detectsChange_iff.mpr rfl⟩

theorem default_not_crc32 : ¬ DefaultIsCrc32 [1] := by
  intro h
  have hbytes := h.encoded 0
  revert hbytes
  decide +kernel

end HdlcEncoder

end TinyProto
