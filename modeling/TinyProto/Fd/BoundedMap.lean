import TinyProto.Fd.Held
import TinyProto.Lib.Runs

namespace TinyProto

open Lib

namespace FrameQueue

inductive Op
  | allocate (frameType : QueuedFrameType) (header : FrameHeader) (data : Bytes)
  | free (index : ℕ)
  | freeByHeader (address control : UInt8)
  | freeByNs (address ns : UInt8)
  | resetFor (address : UInt8)
  | reset

def step (q : FrameQueue) : Op → FrameQueue × Option ℕ
  | .allocate frameType header data => q.allocate frameType header data
  | .free index => (q.free index, none)
  | .freeByHeader address control => (q.freeByHeader address control, none)
  | .freeByNs address ns => (q.freeByNs address ns, none)
  | .resetFor address => (q.resetFor address, none)
  | .reset => (q.reset, none)

namespace Op

/-- The operation names the frame in a slot: by its index, its header, its address, or as
an I-frame by its address and N(S). -/
def Names : Op → ℕ → FrameInfo → Prop
  | .allocate _ _ _, _, _ => False
  | .free index, i, _ => i = index
  | .freeByHeader address control, _, frame => frame.header.address = address ∧
      frame.header.control = control
  | .freeByNs address ns, _, frame => frame.header.address = address ∧
      frame.frameType = .iFrame ∧ frame.ns = ns
  | .resetFor address, _, frame => frame.header.address = address
  | .reset, _, _ => True

def FreesOne : Op → Prop
  | .free _ | .freeByHeader _ _ | .freeByNs _ _ => True
  | _ => False

end Op

/-- What an operation may do to a bounded map from slots to frames. -/
structure Behaves (q : FrameQueue) (op : Op) : Prop where
  capacity : (q.step op).1.capacity = q.capacity
  full : ∀ frameType header data, op = .allocate frameType header data →
    ((q.step op).2 = none ↔ q.count = q.capacity)
  filled : ∀ frameType header data i, op = .allocate frameType header data →
    (q.step op).2 = some i →
    i < q.capacity ∧ q.get i = none ∧ (q.step op).1.get i = some ⟨frameType, header, data⟩
  changed : ∀ i, (q.step op).1.get i ≠ q.get i →
    (q.step op).2 = some i ∨ ∃ frame, q.get i = some frame ∧ op.Names i frame ∧
    (q.step op).1.get i = none
  one : op.FreesOne → ∀ i j, (q.step op).1.get i ≠ q.get i → (q.step op).1.get j ≠ q.get j → i = j
  cleared : op = .reset → ∀ i, (q.step op).1.get i = none

section Operations

variable {q : FrameQueue}

theorem count_eq (q : FrameQueue) : q.count = q.held.length := List.reduceOption_length_eq.symm

theorem count_eq_zero : q.count = 0 ↔ ∀ i, q.get i = none := by
  rw [count_eq, List.length_eq_zero_iff, List.eq_nil_iff_forall_not_mem]
  constructor
  · intro h i
    cases hget : q.get i with
    | none => rfl
    | some frame =>
      have hslot := Option.join_eq_some_iff.mp hget
      exact absurd (mem_held.mpr (List.mem_of_getElem? hslot)) (h frame)
  · intro h frame hmem
    obtain ⟨i, hi⟩ := List.mem_iff_getElem?.mp (mem_held.mp hmem)
    have hnone := h i
    rw [get, hi] at hnone
    cases hnone

theorem get_reset (q : FrameQueue) (i : ℕ) : q.reset.get i = none := by
  rw [get, reset, List.getElem?_map]
  cases q.frames[i]? <;> rfl

theorem get_resetFor (q : FrameQueue) (address : UInt8) (i : ℕ) :
    (q.resetFor address).get i = (q.get i).filter fun frame ↦ frame.header.address != address := by
  rw [get, get, resetFor, List.getElem?_map]
  cases q.frames[i]? with
  | none => rfl
  | some slot =>
    cases slot with
    | none => rfl
    | some frame => by_cases h : frame.header.address = address <;> simp [Option.filter, h]

theorem freeFirst_get (q : FrameQueue) (p : FrameInfo → Bool) :
    q.freeFirst p = q ∨ ∃ i frame, q.get i = some frame ∧ p frame ∧ q.freeFirst p = q.free i := by
  rw [freeFirst]
  cases hf : q.frames.findIdx? fun slot ↦ slot.any p with
  | none => exact .inl rfl
  | some i =>
    obtain ⟨hi, hp, -⟩ := List.findIdx?_eq_some_iff_getElem.mp hf
    obtain ⟨frame, hframe, hpf⟩ := (Option.any_eq_true ..).mp hp
    refine .inr ⟨i, frame, ?_, hpf, rfl⟩
    rw [get, List.getElem?_eq_getElem hi, hframe]
    rfl

theorem behaves_allocate (q : FrameQueue) (frameType : QueuedFrameType) (header : FrameHeader)
    (data : Bytes) : q.Behaves (.allocate frameType header data) := by
  have hroom := q.hasFreeSlots_iff
  rcases q.allocate_spec frameType header data with ⟨q', i, hall, halloc, -⟩ | ⟨hnone, hfull⟩
  · have hstep : q.step (.allocate frameType header data) = (q', some i) := hall
    have hlt := (List.getElem?_eq_some_iff.mp halloc.free).1
    have hfree : q.hasFreeSlots :=
      List.any_eq_true.mpr ⟨none, List.mem_of_getElem? halloc.free, rfl⟩
    refine ⟨?_, fun _ _ _ _ ↦ ?_, ?_, ?_, not_false.elim, nofun⟩
    · rw [hstep]
      exact halloc.capacity
    · rw [hstep, count_eq]
      exact iff_of_false nofun (Nat.ne_of_lt (hroom.mp hfree))
    · intro _ _ _ j hop hj
      cases hop
      rw [hstep] at hj ⊢
      obtain rfl := Option.some.inj hj
      exact ⟨hlt, halloc.get⟩
    · intro j hj
      rw [hstep] at hj ⊢
      by_contra hne
      exact hj (halloc.get_ne fun h ↦ hne (.inl (h ▸ rfl)))
  · have hstep : q.step (.allocate frameType header data) = (q, none) := hnone
    refine ⟨by rw [hstep], fun _ _ _ _ ↦ ?_, ?_, ?_, not_false.elim, nofun⟩
    · rw [hstep, count_eq]
      exact iff_of_true rfl hfull
    · intro _ _ _ j _ hj
      rw [hstep] at hj
      cases hj
    · intro j hj
      rw [hstep] at hj
      exact absurd rfl hj

theorem behaves_of_free {op : Op} (hone : op.FreesOne)
    (h : (q.step op).1 = q ∨ ∃ i, (q.step op).1 = q.free i ∧ ∀ frame, q.get i = some frame →
      op.Names i frame) :
    q.Behaves op := by
  have hslot : ∃ i, (q.step op).1.capacity = q.capacity ∧ ∀ j, (q.step op).1.get j ≠ q.get j →
      j = i ∧ ∃ frame, q.get i = some frame ∧ op.Names i frame ∧ (q.step op).1.get i = none := by
    rcases h with hsame | ⟨i, hfree, hnames⟩
    · exact ⟨0, by rw [hsame], fun j hj ↦ absurd (by rw [hsame]) hj⟩
    · refine ⟨i, by rw [hfree, capacity_free], fun j hj ↦ ?_⟩
      rw [hfree] at hj ⊢
      obtain rfl : j = i := by_contra fun hne ↦ hj (get_free_ne hne)
      rw [get_free_self] at hj ⊢
      obtain ⟨frame, hget⟩ := Option.ne_none_iff_exists'.mp (Ne.symm hj)
      exact ⟨rfl, frame, hget, hnames frame hget, rfl⟩
  obtain ⟨i, hcapacity, hchanged⟩ := hslot
  refine ⟨hcapacity, ?_, ?_, ?_, ?_, ?_⟩
  · rintro _ _ _ rfl
    exact absurd hone not_false
  · rintro _ _ _ _ rfl
    exact absurd hone not_false
  · intro j hj
    obtain ⟨rfl, hfreed⟩ := hchanged j hj
    exact .inr hfreed
  · intro _ j k hj hk
    exact (hchanged j hj).1.trans (hchanged k hk).1.symm
  · rintro rfl
    exact absurd hone not_false

theorem behaves_free (q : FrameQueue) (index : ℕ) : q.Behaves (.free index) := by
  have hone : Op.FreesOne (.free index) := trivial
  exact behaves_of_free hone (.inr ⟨index, rfl, fun _ _ ↦ rfl⟩)

theorem behaves_freeFirst {op : Op} (hone : op.FreesOne) {p : FrameInfo → Bool}
    (hstep : (q.step op).1 = q.freeFirst p) (hnames : ∀ i frame, p frame → op.Names i frame) :
    q.Behaves op := by
  apply behaves_of_free hone
  rw [hstep]
  refine (q.freeFirst_get p).imp_right ?_
  rintro ⟨i, frame, hget, hp, hfree⟩
  refine ⟨i, hfree, fun frame' hget' ↦ ?_⟩
  obtain rfl := Option.some.inj (hget.symm.trans hget')
  exact hnames i frame hp

theorem behaves_freeByHeader (q : FrameQueue) (address control : UInt8) :
    q.Behaves (.freeByHeader address control) := by
  have hone : Op.FreesOne (.freeByHeader address control) := trivial
  refine behaves_freeFirst hone rfl fun i frame hp ↦ ?_
  rw [Op.Names]
  simpa using hp

theorem behaves_freeByNs (q : FrameQueue) (address ns : UInt8) :
    q.Behaves (.freeByNs address ns) := by
  have hone : Op.FreesOne (.freeByNs address ns) := trivial
  refine behaves_freeFirst hone rfl fun i frame hp ↦ ?_
  rw [Op.Names]
  simpa [and_assoc] using hp

theorem behaves_resetFor (q : FrameQueue) (address : UInt8) : q.Behaves (.resetFor address) := by
  refine ⟨q.capacity_resetFor address, nofun, nofun, ?_, not_false.elim, nofun⟩
  intro i hi
  have hstep : (q.step (.resetFor address)).1.get i = (q.get i).filter fun frame ↦
      frame.header.address != address :=
    q.get_resetFor address i
  rw [hstep] at hi ⊢
  cases hget : q.get i with
  | none =>
    rw [hget] at hi
    exact absurd rfl hi
  | some frame =>
    rw [hget, Option.filter_some] at hi
    by_cases haddr : frame.header.address = address
    · exact .inr ⟨frame, rfl, haddr, by simp [Option.filter_some, haddr]⟩
    · exact absurd (by simp [haddr]) hi

theorem behaves_reset (q : FrameQueue) : q.Behaves .reset := by
  refine ⟨by simp [step, reset, FrameQueue.capacity], nofun, nofun, ?_, not_false.elim,
    fun _ ↦ q.get_reset⟩
  intro i hi
  cases hget : q.get i with
  | none => exact absurd ((q.get_reset i).trans hget.symm) hi
  | some frame => exact .inr ⟨frame, rfl, trivial, q.get_reset i⟩

theorem behaves (q : FrameQueue) (op : Op) : q.Behaves op := by
  cases op with
  | allocate frameType header data => exact q.behaves_allocate frameType header data
  | free index => exact q.behaves_free index
  | freeByHeader address control => exact q.behaves_freeByHeader address control
  | freeByNs address ns => exact q.behaves_freeByNs address ns
  | resetFor address => exact q.behaves_resetFor address
  | reset => exact q.behaves_reset

end Operations

end FrameQueue

namespace FramesQueue

inductive Side
  | iQueue
  | sQueue
  deriving DecidableEq

def queue (q : FramesQueue) : Side → FrameQueue
  | .iQueue => q.iQueue
  | .sQueue => q.sQueue

def setQueue (q : FramesQueue) : Side → FrameQueue → FramesQueue
  | .iQueue, queue => { q with iQueue := queue }
  | .sQueue, queue => { q with sQueue := queue }

inductive Op
  | on (side : Side) (op : FrameQueue.Op)
  | reset

def step (q : FramesQueue) : Op → Option FramesQueue
  | .on side op => some (q.setQueue side ((q.queue side).step op).1)
  | .reset => some q.reset

def Op.Names : Op → Side → ℕ → FrameInfo → Prop
  | .on side' op, side, i, frame => side' = side ∧ op.Names i frame
  | .reset, _, _, _ => True

/-- What an operation may do to the pair: one queue is a bounded map and the other stays as
it is, or no frame is left in either. -/
def Behaves (q : FramesQueue) (op : Op) : Prop :=
  ∀ q', q.step op = some q' →
    match op with
    | .on side op => (q.queue side).Behaves op ∧ q'.queue side = ((q.queue side).step op).1 ∧
        ∀ other, other ≠ side → q'.queue other = q.queue other
    | .reset => ∀ side i, (q'.queue side).get i = none

/-- The pair along a run: neither queue outgrows its capacity, every operation does what
it may, and what is allocated stays until an operation that names it frees it. -/
structure BoundedMaps (q : FramesQueue) (ops : List Op) : Prop where
  bounded : EachState step (fun q' ↦ ∀ side, (q'.queue side).capacity = (q.queue side).capacity ∧
    (q'.queue side).count ≤ (q'.queue side).capacity) q ops
  behaves : EachStep step Behaves q ops
  kept : ∀ pre side frameType header data post,
    ops = pre ++ .on side (.allocate frameType header data) :: post →
    ∀ q₁ q₂ i, run step q pre = some q₁ →
    q₁.step (.on side (.allocate frameType header data)) = some q₂ →
      ((q₁.queue side).allocate frameType header data).2 = some i →
        Until step (fun q ↦ (q.queue side).get i = some ⟨frameType, header, data⟩)
          (fun q op ↦ op.Names side i ⟨frameType, header, data⟩ ∧ ∀ q', q.step op = some q' →
            (q'.queue side).get i = none)
          q₂ post

section Runs

variable {q q' : FramesQueue}

theorem queue_setQueue (q : FramesQueue) (side : Side) (queue : FrameQueue) :
    (q.setQueue side queue).queue side = queue := by
  cases side <;> rfl

theorem queue_setQueue_ne (q : FramesQueue) {side other : Side} (h : other ≠ side)
    (queue : FrameQueue) : (q.setQueue side queue).queue other = q.queue other := by
  cases side <;> cases other <;> first | rfl | exact absurd rfl h

theorem behaves_on (q : FramesQueue) (side : Side) (op : FrameQueue.Op) :
    Behaves q (.on side op) := by
  intro q' hstep
  obtain rfl := Option.some.inj hstep
  exact ⟨(q.queue side).behaves op, queue_setQueue q side _, fun other h ↦ queue_setQueue_ne q h _⟩

theorem behaves_iff (q : FramesQueue) (op : Op) :
    Behaves q op ↔ (op = .reset → q.iQueue.count = 0 ∧ q.sQueue.count = 0) := by
  cases op with
  | on side op => exact iff_of_true (behaves_on q side op) nofun
  | reset =>
    rw [forall_prop_of_true rfl, FrameQueue.count_eq_zero, FrameQueue.count_eq_zero]
    constructor
    · intro h
      exact ⟨h q rfl .iQueue, h q rfl .sQueue⟩
    · rintro ⟨hi, hs⟩ q' hstep side
      obtain rfl := Option.some.inj hstep
      cases side with
      | iQueue => exact hi
      | sQueue => exact hs

theorem step_capacity {op : Op} (hstep : q.step op = some q') (side : Side) :
    (q'.queue side).capacity = (q.queue side).capacity := by
  cases op with
  | reset => rw [← Option.some.inj hstep, FramesQueue.reset]
  | on side' op =>
    obtain ⟨hop, hsame, hother⟩ := behaves_on q side' op q' hstep
    by_cases hside : side = side'
    · rw [hside, hsame, hop.capacity]
    · rw [hother side hside]

theorem step_get {op : Op} (hstep : q.step op = some q') {side : Side} {i : ℕ} {frame : FrameInfo}
    (hget : (q.queue side).get i = some frame) :
    (op.Names side i frame ∧ ∀ q', q.step op = some q' → (q'.queue side).get i = none) ∨
      (q'.queue side).get i = some frame := by
  cases op with
  | reset =>
    right
    rw [← Option.some.inj hstep]
    exact hget
  | on side' op =>
    obtain ⟨hop, hsame, hother⟩ := behaves_on q side' op q' hstep
    by_cases hside : side = side'
    · subst hside
      by_cases hchanged : ((q.queue side).step op).1.get i = (q.queue side).get i
      · rw [hsame, hchanged]
        exact .inr hget
      · left
        have hnotfilled : ((q.queue side).step op).2 ≠ some i := by
          intro hfilled
          cases op with
          | allocate frameType header data =>
            have hnone := (hop.filled _ _ _ i rfl hfilled).2.1
            rw [hget] at hnone
            cases hnone
          | free | freeByHeader | freeByNs | resetFor | reset => cases hfilled
        obtain ⟨frame', hget', hnames, hnone⟩ := (hop.changed i hchanged).resolve_left hnotfilled
        obtain rfl := Option.some.inj (hget.symm.trans hget')
        refine ⟨⟨rfl, hnames⟩, fun q'' hstep' ↦ ?_⟩
        obtain rfl := Option.some.inj (hstep.symm.trans hstep')
        rw [hsame, hnone]
    · rw [hother side hside]
      exact .inr hget

end Runs

/-- The queues of a pair are bounded maps along every run, as far as the pair is reset only
while both are empty. -/
theorem bounded_maps_iff (iQueueSize sQueueSize mtu : ℕ) (ops : List Op) :
    BoundedMaps (new iQueueSize sQueueSize mtu) ops ↔
      EachStep step (fun q op ↦ op = .reset → q.iQueue.count = 0 ∧ q.sQueue.count = 0)
        (new iQueueSize sQueueSize mtu) ops := by
  refine ⟨fun h ↦ h.behaves.mono fun q op ↦ (behaves_iff q op).mp, fun h ↦ ⟨?_, ?_, ?_⟩⟩
  · have hstep : ∀ q op q',
        (∀ side, (q.queue side).capacity = ((new iQueueSize sQueueSize mtu).queue side).capacity) →
        True → step q op = some q' →
          ∀ side,
          (q'.queue side).capacity = ((new iQueueSize sQueueSize mtu).queue side).capacity :=
      fun q op q' hq _ hs side ↦ (step_capacity hs side).trans (hq side)
    have hsizes := eachState_of_eachStep hstep (fun _ ↦ rfl) (EachStep.trivial _ ops)
    refine hsizes.mono fun q hq side ↦ ⟨hq side, ?_⟩
    rw [FrameQueue.count_eq]
    exact (q.queue side).held_length_le
  · exact h.mono fun q op ↦ (behaves_iff q op).mpr
  · rintro pre side frameType header data post - q₁ q₂ i - hstep halloc
    obtain ⟨hop, hsame, -⟩ := behaves_on q₁ side _ q₂ hstep
    have hget := (hop.filled frameType header data i rfl halloc).2.2
    rw [← hsame] at hget
    exact until_of_step (fun q op q' hq hs ↦ step_get hs hq) hget post

theorem pair_reset_keeps :
    ¬ BoundedMaps (new 1 0 64) [.on .iQueue (.allocate .iFrame ⟨1, 0⟩ [7]), .reset] := by
  intro h
  have hreset := (h.behaves.2 _ rfl).1 _ rfl .iQueue 0
  cases hreset

end FramesQueue

end TinyProto
