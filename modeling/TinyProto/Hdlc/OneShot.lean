import TinyProto.Hdlc.Stream

namespace TinyProto

open Lib

inductive ResultT
  | success
  | invalidData
  | error
  | busy
  | dataTooLarge
  | wrongCrc
  deriving DecidableEq, Repr

structure HdlcEncoder where
  crcType : HdlcCrcT

namespace HdlcEncoder

def new (crcType : HdlcCrcT) (_mtu : ℤ) : HdlcEncoder := ⟨crcType⟩

/-- The checksum as `encode` and `decode` compute it; the other CRC types leave it
at zero. -/
def crc (encoder : HdlcEncoder) (data : Bytes) : UInt32 :=
  match encoder.crcType with
  | .hdlcCrc8 => (Crc8.new.sumBytes data).get.toUInt32
  | .hdlcCrc16 => (Crc16.new.sumBytes data).get.toUInt32
  | .hdlcCrc32 => (Crc32.new.sumBytes data).get
  | _ => 0

def encodeByte (byte : UInt8) : Bytes :=
  if byte = flagSequence ∨ byte = escapeChar then [escapeChar, byte ^^^ escapeBit] else [byte]

def encode (encoder : HdlcEncoder) (data : Bytes) : Bytes × ResultT :=
  let crc := encoder.crc data
  let crcSize := getCrcFieldSize encoder.crcType
  ([flagSequence] ++ data.flatMap encodeByte ++
      (List.range crcSize).flatMap (fun i ↦ encodeByte (crc >>> UInt32.ofNat (i * 8)).toUInt8) ++
        [flagSequence],
    .success)

def decodeLoop (consumed : ℕ) (escape : Bool) (result : Bytes) : Bytes → ℕ × Bytes
  | [] => (consumed, result)
  | byte :: data =>
    if byte = flagSequence then
      if result ≠ [] then (consumed + 1, result) else decodeLoop (consumed + 1) escape result data
    else if byte = escapeChar then decodeLoop (consumed + 1) true result data
    else if escape then decodeLoop (consumed + 1) false (result ++ [byte ^^^ escapeBit]) data
    else decodeLoop (consumed + 1) false (result ++ [byte]) data

/-- The number of bytes consumed, the verdict, and the output vector. -/
def decode (encoder : HdlcEncoder) (data : Bytes) : ℕ × ResultT × Bytes :=
  let (consumed, result) := decodeLoop 0 false [] data
  let crcSize := getCrcFieldSize encoder.crcType
  if result.length < crcSize then (consumed, .invalidData, result)
  else
    let crc := encoder.crc (result.take (result.length - crcSize))
    let crcData := (List.range crcSize).foldl
      (fun v i ↦ v ||| (result.getD (result.length - crcSize + i) 0).toUInt32 <<<
        UInt32.ofNat (i * 8)) 0
    if crc ≠ crcData then (consumed, .wrongCrc, result)
    else (consumed, .success, result.take (result.length - crcSize))

section Format

variable {encoder : HdlcEncoder}

theorem encodeByte_eq (byte : UInt8) : encodeByte byte = hdlcStuffing.stuffByte byte := by
  rw [encodeByte, Stuffing.stuffByte]
  by_cases h : byte = flagSequence ∨ byte = escapeChar
  · rw [if_pos h, if_pos ((hdlcStuffing.special_iff byte).mpr h)]
    rfl
  · rw [if_neg h, if_neg (mt (hdlcStuffing.special_iff byte).mp h)]

theorem crc_eq (h : encoder.crcType ≠ .hdlcCrcDefault) (data : Bytes) :
    encoder.crc data = calculateCrc encoder.crcType data := by
  obtain ⟨crcType⟩ := encoder
  cases crcType with
  | hdlcCrcDefault => exact absurd rfl h
  | hdlcCrc8 | hdlcCrc16 | hdlcCrc32 | hdlcCrcOff => rfl

theorem encode_frame (encoder : HdlcEncoder) (data : Bytes) :
    encoder.encode data =
      (hdlcStuffing.frame (data ++ crcBytes encoder.crcType (encoder.crc data)), .success) := by
  have hbyte : encodeByte = hdlcStuffing.stuffByte := funext encodeByte_eq
  rw [encode, Stuffing.frame, Stuffing.stuff_append, hbyte, crcBytes, Stuffing.stuff,
    Stuffing.stuff, List.flatMap_map, List.append_assoc, List.append_assoc, List.append_assoc]
  rfl

theorem encode_eq (h : encoder.crcType ≠ .hdlcCrcDefault) (data : Bytes) :
    encoder.encode data = (wireFrame encoder.crcType data, .success) := by
  rw [encode_frame, crc_eq h, wireFrame, frameBody]

theorem crc_bit (encoder : HdlcEncoder) (data : Bytes) (i : ℕ)
    (hi : getCrcFieldSize encoder.crcType * 8 ≤ i) :
    (encoder.crc data).toBitVec.getLsbD i = false := by
  by_cases h : encoder.crcType = .hdlcCrcDefault
  · rw [crc, h]
    exact BitVec.getLsbD_zero
  · rw [crc_eq h]
    exact calculateCrc_bit encoder.crcType data i hi

theorem decodeLoop_append {bs : Bytes} (h : flagSequence ∉ bs) (consumed : ℕ) (escape : Bool)
    (result data : Bytes) : decodeLoop consumed escape result (bs ++ data) =
      decodeLoop (consumed + bs.length) (hdlcStuffing.dangling escape bs)
        (result ++ hdlcStuffing.unstuff escape bs) data := by
  induction bs generalizing consumed escape result with
  | nil => rw [Stuffing.unstuff, List.append_nil]; rfl
  | cons byte bs ih =>
    rw [List.mem_cons, not_or] at h
    rw [List.cons_append, decodeLoop, if_neg (Ne.symm h.1), Stuffing.unstuff, Stuffing.dangling,
      List.length_cons, Nat.add_comm bs.length 1, ← Nat.add_assoc]
    by_cases hesc : byte = escapeChar
    · have hesc' : byte = hdlcStuffing.esc := hesc
      rw [if_pos hesc, if_pos hesc', ih h.2, decide_eq_true hesc']
    · have hesc' : ¬ byte = hdlcStuffing.esc := hesc
      rw [if_neg hesc, if_neg hesc', decide_eq_false hesc', ih h.2, ih h.2, List.append_assoc,
        List.append_assoc]
      cases escape <;> rfl

theorem decodeLoop_flags (k consumed : ℕ) (escape : Bool) (data : Bytes) :
    decodeLoop consumed escape [] (List.replicate k flagSequence ++ data) =
      decodeLoop (consumed + k) escape [] data := by
  induction k generalizing consumed with
  | zero => rfl
  | succ k ih =>
    rw [List.replicate_succ, List.cons_append, decodeLoop, if_pos rfl, if_neg (not_not.mpr rfl), ih,
      Nat.add_assoc, Nat.add_comm 1 k]

theorem decodeLoop_framed (k : ℕ) {bs : Bytes} (h : flagSequence ∉ bs) {tail : Bytes}
    (htail : hdlcStuffing.unstuff false bs = [] → tail = []) :
    decodeLoop 0 false []
      (List.replicate k flagSequence ++ (flagSequence :: (bs ++ [flagSequence])) ++ tail) =
        (k + (bs.length + 2), hdlcStuffing.unstuff false bs) := by
  have hlen : 0 + k + 1 + bs.length + 1 = k + (bs.length + 2) := by omega
  rw [List.append_assoc, decodeLoop_flags, List.cons_append, decodeLoop, if_pos rfl,
    if_neg (not_not.mpr rfl), List.append_assoc, decodeLoop_append h, List.nil_append,
    List.singleton_append, decodeLoop, if_pos rfl, hlen]
  by_cases hnil : hdlcStuffing.unstuff false bs = []
  · rw [if_neg (not_not.mpr hnil), htail hnil, decodeLoop]
  · rw [if_pos hnil]

theorem decode_consumed (encoder : HdlcEncoder) (data : Bytes) :
    (encoder.decode data).1 = (decodeLoop 0 false [] data).1 := by
  rw [decode]
  dsimp only
  split
  · rfl
  · split <;> rfl

/-- What is decoded comes with the CRC field that the decoder computes for it. -/
theorem decode_success_iff {data p : Bytes} :
    (encoder.decode data).2 = (.success, p) ↔
      (decodeLoop 0 false [] data).2 = p ++ crcBytes encoder.crcType (encoder.crc p) := by
  have hread : ∀ (body : Bytes) (n : ℕ), (List.range (getCrcFieldSize encoder.crcType)).foldl
      (fun v i ↦ v ||| (body.getD (n + i) 0).toUInt32 <<< UInt32.ofNat (i * 8)) 0 =
        readCrc encoder.crcType body n :=
    fun body n ↦ rfl
  rw [decode]
  rcases decodeLoop 0 false [] data with ⟨consumed, body⟩
  dsimp only
  rw [hread]
  constructor
  · intro h
    split at h
    · cases h
    · rename_i hlen
      split at h
      · cases h
      · rename_i hcrc
        injection h with _ htake
        rw [not_not, htake] at hcrc
        rw [hcrc, crcBytes_readCrc encoder.crcType body _ (by omega), ← htake,
          List.take_append_drop]
  · rintro rfl
    have hlen : (p ++ crcBytes encoder.crcType (encoder.crc p)).length = p.length +
        getCrcFieldSize encoder.crcType := by
      rw [List.length_append, crcBytes_length]
    rw [hlen, if_neg (by omega), Nat.add_sub_cancel, List.take_left,
      readCrc_crcBytes encoder.crcType p (crc_bit encoder p), if_neg (not_not.mpr rfl)]

theorem decode_eq_success (h : encoder.crcType ≠ .hdlcCrcDefault) {data q : Bytes} :
    (encoder.decode data).2 = (.success, q) ↔
    checkBody encoder.crcType (decodeLoop 0 false [] data).2 = .ok q := by
  rw [decode_success_iff, checkBody_eq_ok, frameBody, crc_eq h]

/-- One frame is decoded and consumed to its closing flag, with `k` more flags before
it and anything behind. -/
theorem decode_encode (encoder : HdlcEncoder) (k : ℕ) {p : Bytes}
    (hp : p ≠ [] ∨ getCrcFieldSize encoder.crcType ≠ 0) (tail : Bytes) :
    encoder.decode (List.replicate k flagSequence ++ (encoder.encode p).1 ++ tail) =
      (k + (encoder.encode p).1.length, .success, p) := by
  set body := p ++ crcBytes encoder.crcType (encoder.crc p) with hbody
  have hne : body ≠ [] := by
    intro hnil
    have hlen := congrArg List.length hnil
    rw [hbody, List.length_append, crcBytes_length, List.length_nil] at hlen
    rcases hp with hp | hsize
    · exact hp (List.length_eq_zero_iff.mp (by omega))
    · exact hsize (by omega)
  have hunstuff := (hdlcStuffing.unstuff_stuff body).1
  have htail : hdlcStuffing.unstuff false (hdlcStuffing.stuff body) = [] → tail = [] :=
    fun hnil ↦ absurd (hunstuff.symm.trans hnil) hne
  have hbytes : (encoder.encode p).1 = flagSequence ::
      (hdlcStuffing.stuff body ++ [flagSequence]) := by
    rw [encode_frame]
    rfl
  have hcount : (encoder.encode p).1.length = (hdlcStuffing.stuff body).length + 2 := by
    rw [hbytes, List.length_cons, List.length_append, List.length_singleton]
  have hloop := decodeLoop_framed k (hdlcStuffing.flag_not_mem_stuff body) htail
  rw [hunstuff, ← hbytes, ← hcount] at hloop
  have hverdict :
      (encoder.decode (List.replicate k flagSequence ++ (encoder.encode p).1 ++ tail)).2 =
        (.success, p) := by
    rw [decode_success_iff, hloop]
  refine Prod.ext ?_ hverdict
  rw [decode_consumed, hloop]

end Format

/-- The two codecs are one format: in every CRC type but the default one they write
the same bytes, however the sender is suspended, and make the same of whatever
stands between two flags. -/
theorem codecs_agree {crcType : HdlcCrcT} (h : crcType ≠ .hdlcCrcDefault) (mtu : ℤ) :
    (∀ (tx : HdlcLl), tx.Reachable → tx.crcType = crcType → tx.isTxBusy = false →
      ∀ p : Bytes, p ≠ [] → ∀ sizes : ℕ → ℕ, (∀ k, 1 ≤ sizes k) →
        ∃ tx₁ tx₂, tx.putFrame p = (tx₁, .ok ()) ∧
          HdlcLl.drain sizes (2 * p.length + 10) 0 tx₁ [] =
            some (tx₂, ((new crcType mtu).encode p).1)) ∧
    ∀ (init : HdlcLlInit) (rx : HdlcLl), HdlcLl.new init = .ok rx → rx.crcType = crcType →
      ∀ b : Bytes, flagSequence ∉ b → hdlcStuffing.unstuff false b ≠ [] →
        (hdlcStuffing.unstuff false b).length ≤ rx.physMtu →
        let stream := flagSequence :: b ++ [flagSequence]
        ∃ rx' error, rx.runRx stream = (rx', stream.length, error) ∧
        ((new crcType mtu).decode stream).1 = stream.length ∧
          ∀ q, (((new crcType mtu).decode stream).2 = (.success, q) ↔ rx'.rxFrames = [q]) ∧
            (rx'.rxFrames = [q] → error = none) := by
  have henc : (new crcType mtu).crcType ≠ .hdlcCrcDefault := h
  refine ⟨?_, ?_⟩
  · intro tx hreach hcrc hbusy p hp sizes hsizes
    have hidle : tx.txData = none := by simpa [HdlcLl.isTxBusy] using hbusy
    obtain ⟨tx₁, tx₂, hput, hdrain, -⟩ := HdlcLl.putFrame_drain hsizes hreach.settled.tx hidle hp
    rw [hcrc] at hdrain
    refine ⟨tx₁, tx₂, hput, ?_⟩
    rw [encode_eq henc]
    exact hdrain
  · intro init rx hnew hcrc b hflag hne hfit stream
    obtain ⟨-, hrx, hphase, -, -, hframes, -⟩ := HdlcLl.new_ok hnew
    obtain ⟨rx', error, hrun, herror, hgood⟩ := HdlcLl.runRx_framed hrx hphase hflag hne hfit
    have hlen : stream.length = b.length + 2 := by
      rw [List.length_append, List.length_cons, List.length_singleton]
    have hloop : decodeLoop 0 false [] stream = (b.length + 2, hdlcStuffing.unstuff false b) := by
      have hframed := @decodeLoop_framed 0 b hflag [] fun _ ↦ rfl
      rwa [List.replicate_zero, List.nil_append, Nat.zero_add, List.append_nil] at hframed
    refine ⟨rx', error, by rw [hlen]; exact hrun, by rw [decode_consumed, hloop, hlen], fun q ↦ ?_⟩
    rw [decode_eq_success henc, hloop]
    rw [hframes, List.nil_append, HdlcLl.goodFrames, List.filterMap_cons, hcrc] at hgood
    rw [HdlcLl.badBodies, List.filterMap_cons, hcrc] at herror
    change (checkBody crcType (hdlcStuffing.unstuff false b) = .ok q ↔ _) ∧ _
    cases hcheck : checkBody crcType (hdlcStuffing.unstuff false b) with
    | error e =>
      have hnil : rx'.rxFrames = [] := by rw [hgood, hcheck]; rfl
      simp [hnil]
    | ok data =>
      have hdata : rx'.rxFrames = [data] := by rw [hgood, hcheck]; rfl
      have hnone : error = none := by
        rw [hcheck] at herror
        exact Option.toList_eq_nil_iff.mp herror
      simp [hnone, hdata]

theorem codecs_agree_escapes :
    ∃ ll tx₁ tx₂ rx : HdlcLl, HdlcLl.new ⟨.hdlcCrc8, 0, 64⟩ = .ok ll ∧
    ll.putFrame [0x7E] = (tx₁, .ok ()) ∧
      HdlcLl.drain (fun _ ↦ 1) 12 0 tx₁ [] = some (tx₂, [0x7E, 0x7D, 0x5E, 0x81, 0x7E]) ∧
      ll.runRx [0x7E, 0x7D, 0x7D, 0x5E, 0x81, 0x7D, 0x7E] = (rx, 7, none) ∧ rx.rxFrames = [[0x7E]] ∧
      ((new .hdlcCrc8 0).decode [0x7E, 0x7D, 0x7D, 0x5E, 0x81, 0x7D, 0x7E]).2 =
        (.success, [0x7E]) := by
  have htype : HdlcCrcT.hdlcCrc8 ≠ .hdlcCrcDefault := by decide
  have hnew : HdlcLl.new ⟨.hdlcCrc8, 0, 64⟩ = .ok _ := rfl
  obtain ⟨hsend, hreceive⟩ := codecs_agree htype 0
  obtain ⟨tx₁, tx₂, hput, hdrain⟩ := hsend _ (.new hnew) rfl rfl [0x7E] (by decide) (fun _ ↦ 1)
    fun _ ↦ le_rfl
  obtain ⟨rx, error, hrun, -, hq⟩ :=
    hreceive _ _ hnew rfl [0x7D, 0x7D, 0x5E, 0x81, 0x7D] (by decide) (by decide) (by decide)
  have hdecode : ((new .hdlcCrc8 0).decode [0x7E, 0x7D, 0x7D, 0x5E, 0x81, 0x7D, 0x7E]).2 =
      (.success, [0x7E]) := by
    decide +kernel
  have hframes := (hq [0x7E]).1.mp hdecode
  rw [(hq [0x7E]).2 hframes] at hrun
  exact ⟨_, tx₁, tx₂, rx, hnew, hput, hdrain, hrun, hframes, hdecode⟩

/-- `decode` called `n` times, each time on what the calls before it left. -/
def decodeAll (encoder : HdlcEncoder) : ℕ → Bytes → List (ℕ × ResultT × Bytes)
  | 0, _ => []
  | n + 1, data => encoder.decode data :: encoder.decodeAll n (data.drop (encoder.decode data).1)

def encodeAll (encoder : HdlcEncoder) (frames : List (ℕ × Bytes)) : Bytes :=
  frames.flatMap fun frame ↦ List.replicate frame.1 flagSequence ++ (encoder.encode frame.2).1

section Iterated

variable {encoder : HdlcEncoder}

theorem encodeAll_cons (frame : ℕ × Bytes) (frames : List (ℕ × Bytes)) :
    encoder.encodeAll (frame :: frames) =
      List.replicate frame.1 flagSequence ++ (encoder.encode frame.2).1 ++
        encoder.encodeAll frames :=
  List.flatMap_cons

theorem encodeAll_length (frames : List (ℕ × Bytes)) :
    (encoder.encodeAll frames).length =
      (frames.map fun frame ↦ frame.1 + (encoder.encode frame.2).1.length).sum := by
  induction frames with
  | nil => rfl
  | cons frame frames ih =>
    rw [encodeAll_cons, List.length_append, List.length_append, List.length_replicate, ih,
      List.map_cons, List.sum_cons]

theorem decodeAll_frames {frames : List (ℕ × Bytes)}
    (h : ∀ frame ∈ frames, frame.2 ≠ [] ∨ getCrcFieldSize encoder.crcType ≠ 0) (tail : Bytes) :
    encoder.decodeAll frames.length (encoder.encodeAll frames ++ tail) =
      frames.map fun frame ↦ (frame.1 + (encoder.encode frame.2).1.length, .success, frame.2) := by
  induction frames with
  | nil => rfl
  | cons frame frames ih =>
    obtain ⟨k, p⟩ := frame
    have hfirst :
        encoder.decode
          (List.replicate k flagSequence ++ (encoder.encode p).1 ++
            (encoder.encodeAll frames ++ tail)) = (k + (encoder.encode p).1.length, .success, p) :=
      decode_encode encoder k (h (k, p) List.mem_cons_self) (encoder.encodeAll frames ++ tail)
    have hlen : k + (encoder.encode p).1.length =
        (List.replicate k flagSequence ++ (encoder.encode p).1).length := by
      rw [List.length_append, List.length_replicate]
    rw [encodeAll_cons, List.length_cons, decodeAll, List.append_assoc, hfirst]
    dsimp only
    rw [hlen, List.drop_left, ih fun frame hmem ↦ h frame (List.mem_cons_of_mem _ hmem),
      List.map_cons, hlen]

end Iterated

/-- A stream of frames is recovered frame by frame: the first `n` calls give the first
`n` payloads, and what they consume together is exactly the `n` encodings. -/
theorem decodeAll_encodeAll (encoder : HdlcEncoder) {frames : List (ℕ × Bytes)}
    (h : ∀ frame ∈ frames, frame.2 ≠ [] ∨ getCrcFieldSize encoder.crcType ≠ 0)
    (tail : Bytes) (n : ℕ) (hn : n ≤ frames.length) :
    let calls := encoder.decodeAll n (encoder.encodeAll frames ++ tail)
    calls.map Prod.snd = (frames.take n).map (fun frame ↦ (.success, frame.2)) ∧
      (calls.map Prod.fst).sum = (encoder.encodeAll (frames.take n)).length := by
  intro calls
  have hsplit : encoder.encodeAll frames ++ tail =
      encoder.encodeAll (frames.take n) ++ (encoder.encodeAll (frames.drop n) ++ tail) := by
    rw [encodeAll, encodeAll, encodeAll, ← List.append_assoc, ← List.flatMap_append,
      List.take_append_drop]
  have htaken : ∀ frame ∈ frames.take n, frame.2 ≠ [] ∨ getCrcFieldSize encoder.crcType ≠ 0 :=
    fun frame hmem ↦ h frame (List.mem_of_mem_take hmem)
  have hcalls := decodeAll_frames htaken (encoder.encodeAll (frames.drop n) ++ tail)
  rw [List.length_take, Nat.min_eq_left hn, ← hsplit] at hcalls
  change calls = _ at hcalls
  refine ⟨?_, ?_⟩
  · rw [hcalls, List.map_map]
    rfl
  · rw [hcalls, List.map_map, encodeAll_length]
    rfl

theorem decodeAll_encodeAll_default :
    let encoder := new .hdlcCrcDefault 0
    let stream := encoder.encodeAll [(0, [0x7E]), (1, [])] ++ [0x7E, 0x01]
    (encoder.decodeAll 2 stream).map Prod.snd = [(.success, [0x7E]), (.success, [])] ∧
      ((encoder.decodeAll 2 stream).map Prod.fst).sum =
        (encoder.encodeAll [(0, [0x7E]), (1, [])]).length :=
  decodeAll_encodeAll (new .hdlcCrcDefault 0) (fun _ _ ↦ .inr (by decide))
    [0x7E, 0x01] 2 (by decide)

end HdlcEncoder

end TinyProto
