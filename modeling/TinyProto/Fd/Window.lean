import TinyProto.Fd.Reachable

namespace TinyProto.TinyFd

variable {fd fd' : TinyFd} {i : ℕ}

/-- The payloads not yet confirmed, each under the number it was given. -/
def windowPairs (accepted : List Bytes) (confirmed : ℕ) : List (UInt8 × Bytes) :=
  ((accepted.drop confirmed).zipIdx confirmed).map fun (payload, n) ↦ (seq n, payload)

section WindowPairs

variable {accepted : List Bytes} {confirmed : ℕ}

@[simp] theorem windowPairs_length : (windowPairs accepted confirmed).length = accepted.length -
    confirmed := by
  simp [windowPairs]

theorem windowPairs_snoc (h : confirmed ≤ accepted.length) (data : Bytes) :
    windowPairs (accepted ++ [data]) confirmed = windowPairs accepted confirmed ++
      [(seq accepted.length, data)] := by
  simp [windowPairs, List.drop_append_of_le_length h, List.zipIdx_append, Nat.add_sub_cancel' h]

theorem windowPairs_cons (h : confirmed < accepted.length) :
    windowPairs accepted confirmed = (seq confirmed, accepted[confirmed]) :: windowPairs accepted
      (confirmed + 1) := by
  rw [windowPairs, List.drop_eq_getElem_cons h, List.zipIdx_cons, List.map_cons]
  rfl

theorem windowPairs_nil (h : accepted.length ≤ confirmed) :
    windowPairs accepted confirmed = [] := by
  simp [windowPairs, List.drop_eq_nil_of_le h]

theorem mem_windowPairs {pair : UInt8 × Bytes} :
    pair ∈ windowPairs accepted confirmed ↔
      ∃ n, confirmed ≤ n ∧ ∃ h : n < accepted.length, pair = (seq n, accepted[n]) := by
  rw [windowPairs, List.mem_map]
  constructor
  · rintro ⟨⟨payload, n⟩, hmem, rfl⟩
    obtain ⟨hle, hlt, hget⟩ := List.mem_zipIdx hmem
    rw [List.length_drop] at hlt
    refine ⟨n, hle, by omega, ?_⟩
    simp only [hget, List.getElem_drop, Nat.add_sub_cancel' hle]
  · rintro ⟨n, hle, hlt, rfl⟩
    refine ⟨(accepted[n], n), ?_, rfl⟩
    rw [List.mk_mem_zipIdx_iff_le_and_getElem?_sub]
    refine ⟨hle, ?_⟩
    rw [List.getElem?_drop, Nat.add_sub_cancel' hle, List.getElem?_eq_getElem hlt]

theorem windowPairs_unique (hlt : accepted.length ≤ confirmed + 8) {n : ℕ} (hn : confirmed ≤ n)
    (hn' : n < accepted.length) {payload : Bytes}
    (h : (seq n, payload) ∈ windowPairs accepted confirmed) :
    payload = accepted[n] := by
  obtain ⟨m, hm, hm', he⟩ := mem_windowPairs.mp h
  rw [Prod.mk.injEq] at he
  obtain rfl : n = m := seq_inj he.1 (by omega) (by omega)
  exact he.2

theorem freeByNs_window {q : FrameQueue} {address : UInt8} (hlt : accepted.length ≤ confirmed + 8)
    (hq : (q.iPairs address).Perm (windowPairs accepted confirmed)) :
    ((q.freeByNs address (seq confirmed)).iPairs address).Perm
      (windowPairs accepted (confirmed + 1)) := by
  rcases Nat.lt_or_ge confirmed accepted.length with h | h
  · rw [windowPairs_cons h] at hq
    rcases q.iPairs_freeByNs address (seq confirmed) with ⟨-, hnone⟩ | ⟨payload, hperm⟩
    · exact absurd rfl (hnone _ (hq.mem_iff.mpr (List.mem_cons_self ..)))
    · have hmem : (seq confirmed, payload) ∈ windowPairs accepted confirmed := by
        rw [windowPairs_cons h]
        exact hq.mem_iff.mp (hperm.mem_iff.mpr (List.mem_cons_self ..))
      have he := windowPairs_unique hlt le_rfl h hmem
      subst he
      exact (hperm.symm.trans hq).cons_inv
  · rw [windowPairs_nil h] at hq
    rw [windowPairs_nil (by omega)]
    rcases q.iPairs_freeByNs address (seq confirmed) with ⟨he, -⟩ | ⟨payload, hperm⟩
    · rwa [he]
    · exact absurd (hq.symm.trans hperm) (List.not_perm_nil_cons _ _ ·)

theorem freeByNs_foldl_window {q : FrameQueue} {address : UInt8} (d : ℕ)
    (hlt : accepted.length ≤ confirmed + 8)
    (hq : (q.iPairs address).Perm (windowPairs accepted confirmed)) :
    ((((List.range d).map fun j ↦ seq (confirmed + j)).foldl
      (fun q s ↦ q.freeByNs address s) q).iPairs
      address).Perm (windowPairs accepted (confirmed + d)) := by
  induction d with
  | zero => exact hq
  | succ d ih =>
    rw [List.range_succ, List.map_append, List.foldl_append]
    exact freeByNs_window (by omega) ih

end WindowPairs

theorem iPairs_freeByNs_foldl_ne (q : FrameQueue) {address address' : UInt8}
    (hne : address' ≠ address) (seqs : List UInt8) :
    ((seqs.foldl (fun q s ↦ q.freeByNs address' s) q).iPairs address).Perm (q.iPairs address) := by
  induction seqs generalizing q with
  | nil => exact List.Perm.refl _
  | cons s seqs ih => exact (ih _).trans (q.iPairs_freeByNs_ne hne s)

end TinyProto.TinyFd
