import TinyProto.Fd.Protocol
import Mathlib.Data.UInt
import Mathlib.Tactic.IntervalCases

namespace TinyProto

/-! Three-bit sequence numbers as the residues of unbounded frame counts. -/

/-- The sequence number of the `n`-th frame of a session. -/
def seq (n : ℕ) : UInt8 := UInt8.ofNat (n % 8)

/-- How far `b` lies ahead of `a` on the cycle of eight. -/
def seqDist (a b : UInt8) : ℕ := ((b - a) &&& seqBitsMask).toNat

theorem toNat_seq (n : ℕ) : (seq n).toNat = n % 8 := by
  rw [seq, UInt8.toNat_ofNat']
  omega

theorem toNat_mask (x : UInt8) : (x &&& seqBitsMask).toNat = x.toNat % 8 := by
  rw [UInt8.toNat_and]
  exact Nat.and_two_pow_sub_one_eq_mod _ 3

theorem seq_succ (n : ℕ) : (seq n + 1) &&& seqBitsMask = seq (n + 1) := by
  apply UInt8.toNat_inj.mp
  rw [toNat_mask, UInt8.toNat_add, toNat_seq, toNat_seq]
  simp only [UInt8.toNat_one]
  omega

theorem seq_add (n j : ℕ) : (seq n + UInt8.ofNat j) &&& seqBitsMask = seq (n + j) := by
  apply UInt8.toNat_inj.mp
  rw [toNat_mask, UInt8.toNat_add, toNat_seq, toNat_seq, UInt8.toNat_ofNat']
  omega

theorem seq_eq_iff {m n : ℕ} : seq m = seq n ↔ m % 8 = n % 8 := by
  rw [← UInt8.toNat_inj, toNat_seq, toNat_seq]

theorem seq_inj {m n : ℕ} (h : seq m = seq n) (hmn : m < n + 8) (hnm : n < m + 8) : m = n := by
  have hmod := seq_eq_iff.mp h
  omega

theorem seqDist_seq (m d : ℕ) : seqDist (seq m) (seq (m + d)) = d % 8 := by
  rw [seqDist, toNat_mask, UInt8.toNat_sub, toNat_seq, toNat_seq]
  omega

theorem seqDist_lt (a b : UInt8) : seqDist a b < 8 := by
  rw [seqDist, toNat_mask]
  omega

theorem exists_seq {x : UInt8} (hx : x < 8) (m : ℕ) : x = seq (m + seqDist (seq m) x) := by
  apply UInt8.toNat_inj.mp
  rw [toNat_seq, seqDist, toNat_mask, UInt8.toNat_sub, toNat_seq]
  have hlt : x.toNat < 8 := hx
  omega

theorem mask_lt (x : UInt8) : x &&& seqBitsMask < 8 := by
  rw [UInt8.lt_iff_toNat_lt, toNat_mask]
  exact Nat.mod_lt _ (by decide)

theorem exists_seq_of_lt {x : UInt8} (hx : x < 8) : ∃ n, x = seq n := ⟨_, exists_seq hx 0⟩

theorem iControl_fields : ∀ m n : Fin 8,
    let c := TinyFd.iControl (UInt8.ofNat m) (UInt8.ofNat n)
    (c >>> 5) &&& seqBitsMask = UInt8.ofNat m ∧ (c >>> 1) &&& seqBitsMask = UInt8.ofNat n ∧
      c &&& hdlcIFrameMask = hdlcIFrameBits ∧ c &&& hdlcUFrameMask ≠ hdlcUFrameBits := by
  decide

theorem ns_iControl (m n : ℕ) : (TinyFd.iControl (seq m) (seq n) >>> 5) &&& seqBitsMask = seq m :=
  (iControl_fields ⟨m % 8, Nat.mod_lt _ (by decide)⟩ ⟨n % 8, Nat.mod_lt _ (by decide)⟩).1

theorem nr_iControl (m n : ℕ) : (TinyFd.iControl (seq m) (seq n) >>> 1) &&& seqBitsMask = seq n :=
  (iControl_fields ⟨m % 8, Nat.mod_lt _ (by decide)⟩ ⟨n % 8, Nat.mod_lt _ (by decide)⟩).2.1

theorem isI_iControl (m n : ℕ) : TinyFd.iControl (seq m) (seq n) &&& hdlcIFrameMask =
    hdlcIFrameBits :=
  (iControl_fields ⟨m % 8, Nat.mod_lt _ (by decide)⟩ ⟨n % 8, Nat.mod_lt _ (by decide)⟩).2.2.1

theorem not_isU_iControl (m n : ℕ) : TinyFd.iControl (seq m) (seq n) &&& hdlcUFrameMask ≠
    hdlcUFrameBits :=
  (iControl_fields ⟨m % 8, Nat.mod_lt _ (by decide)⟩ ⟨n % 8, Nat.mod_lt _ (by decide)⟩).2.2.2

theorem sControl_fields : ∀ n : Fin 8,
    let rr := hdlcSFrameBits ||| hdlcSFrameTypeRr ||| UInt8.ofNat n <<< 5
    let rej := hdlcSFrameBits ||| hdlcSFrameTypeRej ||| UInt8.ofNat n <<< 5 ||| hdlcPBit
    (rr >>> 5) &&& seqBitsMask = UInt8.ofNat n ∧ rr &&& hdlcSFrameTypeMask = hdlcSFrameTypeRr ∧
      rr &&& hdlcSFrameMask = hdlcSFrameBits ∧
    (rej >>> 5) &&& seqBitsMask = UInt8.ofNat n ∧ rej &&& hdlcSFrameTypeMask = hdlcSFrameTypeRej ∧
      rej &&& hdlcSFrameMask = hdlcSFrameBits := by
  decide

theorem control_kinds (c : UInt8) :
    c &&& hdlcUFrameMask = hdlcUFrameBits ∨ c &&& hdlcIFrameMask = hdlcIFrameBits ∨
      c &&& hdlcSFrameMask = hdlcSFrameBits := by
  have hall : ∀ n : Fin 256, UInt8.ofNat n &&& hdlcUFrameMask = hdlcUFrameBits ∨
      UInt8.ofNat n &&& hdlcIFrameMask = hdlcIFrameBits ∨
      UInt8.ofNat n &&& hdlcSFrameMask = hdlcSFrameBits := by
    decide +kernel
  simpa only [UInt8.ofNat_toNat] using hall ⟨c.toNat, c.toNat_lt⟩

theorem not_isI_of_service {c : UInt8}
    (h : c &&& hdlcUFrameMask = hdlcUFrameBits ∨ c &&& hdlcSFrameMask = hdlcSFrameBits) :
    c &&& hdlcIFrameMask ≠ hdlcIFrameBits := by
  have hall : ∀ n : Fin 256, (UInt8.ofNat n &&& hdlcUFrameMask = hdlcUFrameBits ∨
      UInt8.ofNat n &&& hdlcSFrameMask = hdlcSFrameBits) →
      UInt8.ofNat n &&& hdlcIFrameMask ≠ hdlcIFrameBits := by
    decide +kernel
  have hc := hall ⟨c.toNat, c.toNat_lt⟩
  simp only [UInt8.ofNat_toNat] at hc
  exact hc h

theorem not_isU_of_isS {c : UInt8} (h : c &&& hdlcSFrameMask = hdlcSFrameBits) :
    c &&& hdlcUFrameMask ≠ hdlcUFrameBits := by
  have hall : ∀ n : Fin 256, UInt8.ofNat n &&& hdlcSFrameMask = hdlcSFrameBits →
      UInt8.ofNat n &&& hdlcUFrameMask ≠ hdlcUFrameBits := by
    decide +kernel
  have hc := hall ⟨c.toNat, c.toNat_lt⟩
  simp only [UInt8.ofNat_toNat] at hc
  exact hc h

theorem ns_frame (address : UInt8) (m n : ℕ) (data : Bytes) :
    (⟨.iFrame, ⟨address, TinyFd.iControl (seq m) (seq n)⟩, data⟩ : FrameInfo).ns = seq m :=
  ns_iControl m n

namespace IQueueControl

variable {σ : Type}

theorem confirmLoop_true {nr : UInt8} (f : σ → UInt8 → σ) (d : ℕ) {fuel n : ℕ}
    {c : IQueueControl} (s : σ) (confirmed : Bool) (hfuel : d ≤ fuel) (hd : d < 8)
    (hc : c.txState.confirmNs = seq n) (hnr : nr = seq (n + d)) :
    ∃ b, confirmLoop nr (fun s x ↦ (f s x, true)) fuel c s confirmed =
      ({ c with txState := { c.txState with confirmNs := nr } },
        ((List.range d).map fun j ↦ seq (n + j)).foldl f s, b) := by
  induction d generalizing fuel n c s confirmed with
  | zero =>
    have hend : c.txState.confirmNs = nr := by rw [hc, hnr, Nat.add_zero]
    refine ⟨confirmed, ?_⟩
    cases fuel with
    | zero => rw [confirmLoop, ← hend]; rfl
    | succ fuel => rw [confirmLoop, if_pos hend, ← hend]; rfl
  | succ d ih =>
    obtain ⟨fuel, rfl⟩ : ∃ m, fuel = m + 1 := ⟨fuel - 1, by omega⟩
    have hne : c.txState.confirmNs ≠ nr := by
      intro h
      have he := seq_inj (hc.symm.trans (h.trans hnr)) (by omega) (by omega)
      omega
    have hc' : ((c.txState.confirmNs + 1) &&& seqBitsMask) = seq (n + 1) := by rw [hc, seq_succ]
    have hnr' : nr = seq (n + 1 + d) := by rw [hnr, Nat.add_right_comm, Nat.add_assoc]
    obtain ⟨b, hb⟩ := @ih fuel (n + 1)
      { c with txState :=
        { c.txState with confirmNs := (c.txState.confirmNs + 1) &&& seqBitsMask } }
      (f s (seq n)) true (by omega) (by omega) hc' hnr'
    refine ⟨b, ?_⟩
    rw [confirmLoop, if_neg hne]
    simp only [hc] at hb ⊢
    rw [hb, List.range_succ_eq_map]
    simp only [List.map_cons, List.map_map, List.foldl_cons, Nat.add_zero]
    congr 4
    funext j
    exact congrArg seq (by omega)

/-- A closure that never refuses lets the loop run until it meets `nr`, over
every number on the way. -/
theorem confirmSentFrames_true {nr : UInt8} (f : σ → UInt8 → σ) {n : ℕ} {c : IQueueControl} (s : σ)
    (hc : c.txState.confirmNs = seq n) (hnr : nr < 8) :
    ∃ b, c.confirmSentFrames nr (fun s x ↦ (f s x, true)) s =
      ({ c with txState := { c.txState with confirmNs := nr } },
        ((List.range (seqDist (seq n) nr)).map fun j ↦ seq (n + j)).foldl f s, b) :=
  confirmLoop_true f _ s false (seqDist_lt _ _).le (seqDist_lt _ _) hc (exists_seq hnr n)

end IQueueControl

end TinyProto
