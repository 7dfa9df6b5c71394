import IotCtrl.CanInterleave
import IotCtrl.Reassembly

/-!
# What a station completes

`can_bus_frame_receive` is a reassembler in one buffer: the receive state is its draft, and the
messages that are dispatched are the ones it completes on the frames the station hears,
whatever else the station does in between.

* `recvFrame_refines`, `run_reassembles` — one frame, and a whole run;
* `strays_complete_their_message` — frames of one message that are lost, repeated and out of
  order;
* `repeated_frames_complete_once` — frames of one message in order, each received once or more
  often.
-/

namespace IotCtrl

open ByteMemory Transition Reassembly

/-! ## The receive state as a draft -/

def SegPolo.place : SegPolo → Place
  | .none => .whole
  | .first => .first
  | .middle => .middle
  | .final => .final

/-- The piece that a frame carries. -/
def CanRxMsg.piece (m : CanRxMsg) : Piece U8 :=
  { place := (canDecodeId m.extId).segPolo.place
    number := (canDecodeId m.extId).segNum.toNat
    data := m.data }

/-- A frame as a piece under its function code and its source. -/
def CanRxMsg.labelled (m : CanRxMsg) : (U8 × U8) × Piece U8 :=
  (((canDecodeId m.extId).funcId, (canDecodeId m.extId).srcId), m.piece)

/-- The message in the receive buffer. -/
def CanRecv.draft (r : CanRecv) : Option (Draft U8) :=
  if r.gSegPolo = .first then
    some { next := r.gSegNum + 1, data := read r.canRecvBuff 0 r.gSegBytes }
  else none

/-- A copy to the beginning of the buffer, seen through a read from there. -/
theorem read_write_overlay (m : Mem) (data : List U8) (n : Nat) :
    read (write m 0 data) 0 n = overlay data (read m 0 n) := by
  unfold overlay
  rw [length_read]
  rcases Nat.le_total n data.length with h | h
  · have hdrop : (read m 0 n).drop data.length = [] := by
      apply List.drop_eq_nil_of_le
      rwa [length_read]
    rw [hdrop, List.append_nil, ← read_take _ _ h, read_write]
  · obtain ⟨k, rfl⟩ := Nat.exists_eq_add_of_le h
    have hbehind : read (write m 0 data) (0 + data.length) k = read m (0 + data.length) k := by
      apply read_congr
      intro i _
      exact if_neg (by omega)
    have hdrop : (read m 0 (data.length + k)).drop data.length = read m (0 + data.length) k := by
      rw [read_add]
      exact List.drop_left' (length_read m 0 data.length)
    rw [read_add, read_write, hbehind, hdrop, List.take_of_length_le h]

/-- A frame continues the message exactly when its piece continues the draft. -/
theorem canContinues_iff {m : CanRxMsg} {r : CanRecv} (hopen : r.gSegPolo = .first) :
    canContinues (canDecodeId m.extId) m.data r ↔
      Continues 300 { next := r.gSegNum + 1, data := read r.canRecvBuff 0 r.gSegBytes }
        m.piece := by
  unfold canContinues Continues
  rw [length_read]
  exact and_iff_right hopen

theorem not_continues {m : CanRxMsg} {r : CanRecv}
    (h : ¬ canContinues (canDecodeId m.extId) m.data r) :
    ∀ d ∈ r.draft, ¬ Continues 300 d m.piece := by
  intro d hd hcont
  unfold CanRecv.draft at hd
  split_ifs at hd with hopen
  · obtain rfl := Option.some.inj hd
    exact h ((canContinues_iff hopen).mpr hcont)
  · cases hd

/-- **One frame.**  The receive state behind it is the draft behind its piece, and the finish
flag is raised with the message the piece completes. -/
theorem recvFrame_refines (r : CanRecv) (m : CanRxMsg) :
    accept 300 r.draft m.piece =
      ((recvFrame r m).1.draft,
        if (recvFrame r m).2 = true then some (recvFrame r m).1.payload else none) := by
  cases hpolo : (canDecodeId m.extId).segPolo with
  | none =>
      have hplace : m.piece.place = .whole := congrArg SegPolo.place hpolo
      have hframe : recvFrame r m =
          ({ r with
              canRecvBuff := write r.canRecvBuff 0 m.data
              canRecvLen := m.data.length }, true) := by
        unfold recvFrame canReassemble
        simp only [hpolo]
      have hread : read (write r.canRecvBuff 0 m.data) 0 m.data.length = m.data := read_write _ 0 _
      rw [hframe]
      unfold accept CanRecv.draft CanRecv.payload
      simp only [hplace, if_true, hread]
      split_ifs with hopen
      · rw [read_write_overlay]
        rfl
      · rfl
  | first =>
      have hplace : m.piece.place = .first := congrArg SegPolo.place hpolo
      have hframe : recvFrame r m =
          ({ r with
              canRecvBuff := write r.canRecvBuff 0 m.data
              gSegPolo := .first
              gSegNum := (canDecodeId m.extId).segNum.toNat
              gSegBytes := m.data.length }, false) := by
        unfold recvFrame canReassemble
        simp only [hpolo]
      have hread : read (write r.canRecvBuff 0 m.data) 0 m.data.length = m.data := read_write _ 0 _
      rw [hframe]
      unfold accept CanRecv.draft
      simp only [hplace, if_true, hread]
      rfl
  | middle =>
      have hplace : m.piece.place = .middle := congrArg SegPolo.place hpolo
      by_cases hcont : canContinues (canDecodeId m.extId) m.data r
      · have hframe : recvFrame r m =
            ({ r with
                canRecvBuff := write r.canRecvBuff r.gSegBytes m.data
                gSegNum := r.gSegNum + 1
                gSegBytes := r.gSegBytes + m.data.length }, false) := by
          unfold recvFrame canReassemble
          simp only [hpolo, if_pos hcont]
        rw [hframe]
        unfold accept CanRecv.draft
        simp only [hplace, if_pos hcont.1, if_pos ((canContinues_iff hcont.1).mp hcont),
          read_write_append]
        rfl
      · have hframe : recvFrame r m = (r, false) := by
          unfold recvFrame canReassemble
          simp only [hpolo, if_neg hcont]
        rw [hframe, accept_skipped (Or.inl hplace) (not_continues hcont)]
        rfl
  | final =>
      have hplace : m.piece.place = .final := congrArg SegPolo.place hpolo
      by_cases hcont : canContinues (canDecodeId m.extId) m.data r
      · have hframe : recvFrame r m =
            ({ r with
                canRecvBuff := write r.canRecvBuff r.gSegBytes m.data
                canRecvLen := r.gSegBytes + m.data.length
                gSegPolo := .none
                gSegNum := 0
                gSegBytes := 0 }, true) := by
          unfold recvFrame canReassemble
          simp only [hpolo, if_pos hcont]
        rw [hframe]
        unfold accept CanRecv.draft CanRecv.payload
        simp only [hplace, if_pos hcont.1, if_pos ((canContinues_iff hcont.1).mp hcont),
          read_write_append]
        rfl
      · have hframe : recvFrame r m = (r, false) := by
          unfold recvFrame canReassemble
          simp only [hpolo, if_neg hcont]
        rw [hframe, accept_skipped (Or.inr hplace) (not_continues hcont)]
        rfl

/-! ## Runs -/

/-- The message that an event dispatches, under its function code and its source. -/
def Event.dispatched : Event → Option ((U8 × U8) × List U8)
  | .canDone funcId srcId payload => some ((funcId, srcId), payload)
  | _ => none

/-- The messages a station dispatched so far. -/
def completed (s : Station) : List ((U8 × U8) × List U8) :=
  (s.trace.filterMap Event.dispatched).reverse

/-- The frame of an input, unless the station has reset or the frame resets it. -/
def heardFrame (s : Station) : Input → Option CanRxMsg
  | .canFrame m =>
      if s.systemReset = true ∨ ((canDecodeId m.extId).funcId = CAN_FUNC_ID_BOOT_MODE ∧
          (canDecodeId m.extId).dstId = s.main.localStation) then none
      else some m
  | _ => none

/-- The frames a station hears in a run. -/
def heardFrames : Station → List Input → List CanRxMsg
  | _, [] => []
  | s, i :: is => (heardFrame s i).toList ++ heardFrames (step s i) is

theorem completed_of_touches {ps : List Part} {ks : List EventKind} {s t : Station}
    (h : Touches ps ks s t) (hk : .canDone ∉ ks) : completed t = completed s := by
  obtain ⟨es, hes, hkinds⟩ := h.logs
  have hnone : es.filterMap Event.dispatched = [] := by
    apply List.filterMap_eq_nil_iff.mpr
    intro e he
    have hkind := hkinds e he
    cases e with
    | canDone => exact absurd hkind hk
    | _ => rfl
  unfold completed
  rw [hes, List.filterMap_append, hnone, List.nil_append]

/-- What is no frame leaves the draft alone and completes nothing. -/
theorem step_beside_frames {s : Station} {i : Input} (hi : ¬ i.IsFrame) :
    (step s i).can.recv = s.can.recv ∧ completed (step s i) = completed s := by
  have htouch := step_touches s i
  have hdone : .canDone ∉ i.kinds := by
    cases i with
    | canFrame m => exact absurd trivial hi
    | _ => simp [Input.kinds]
  have hrecv : .recv ∉ i.parts := by
    cases i with
    | canFrame m => exact absurd trivial hi
    | _ => simp [Input.parts, tickParts, scanParts, datagramParts, paraParts]
  exact ⟨htouch.keeps.same .recv hrecv, completed_of_touches htouch hdone⟩

/-- A frame that is heard. -/
theorem canBusFrameReceive_accepts {s : Station} {m : CanRxMsg}
    (hboot : ¬ ((canDecodeId m.extId).funcId = CAN_FUNC_ID_BOOT_MODE ∧
      (canDecodeId m.extId).dstId = s.main.localStation)) :
    (canBusFrameReceive m s).can.recv = (recvFrame s.can.recv m).1 ∧
      completed (canBusFrameReceive m s) = completed s ++
        ((accept 300 s.can.recv.draft m.piece).2.toList.map fun p => (m.labelled.1, p)) := by
  rw [recvFrame_refines]
  unfold canBusFrameReceive recvFrame
  dsimp only
  rw [if_neg hboot]
  generalize canReassemble (canDecodeId m.extId) m.data s.can.recv = q
  obtain ⟨r, finished⟩ := q
  cases finished with
  | false => exact ⟨rfl, (List.append_nil _).symm⟩
  | true =>
      have htouch := canDispatch_touches (canDecodeId m.extId).funcId (canDecodeId m.extId).srcId
        ((setCanRecv r s).log
          (.canDone (canDecodeId m.extId).funcId (canDecodeId m.extId).srcId r.payload))
      refine ⟨htouch.keeps.same .recv (by decide), ?_⟩
      refine (completed_of_touches htouch (by decide)).trans ?_
      exact List.reverse_cons

/-- **One step.** -/
theorem step_reassembles (s : Station) (i : Input) :
    ((step s i).can.recv.draft, completed (step s i)) =
      ((assemble 300 s.can.recv.draft ((heardFrame s i).toList.map CanRxMsg.labelled)).1,
        completed s ++
          (assemble 300 s.can.recv.draft ((heardFrame s i).toList.map CanRxMsg.labelled)).2) := by
  by_cases hi : i.IsFrame
  · cases i with
    | canFrame m =>
        by_cases hreset : s.systemReset = true
        · have hstay : step s (.canFrame m) = s := if_pos hreset
          have hnone : heardFrame s (.canFrame m) = none := if_pos (Or.inl hreset)
          rw [hstay, hnone]
          exact congrArg _ (List.append_nil _).symm
        have hstep : step s (.canFrame m) = canBusFrameReceive m s := if_neg hreset
        rw [hstep]
        by_cases hboot : (canDecodeId m.extId).funcId = CAN_FUNC_ID_BOOT_MODE ∧
            (canDecodeId m.extId).dstId = s.main.localStation
        · have hmode : canBusFrameReceive m s = enterBootMode s := if_pos hboot
          have hnone : heardFrame s (.canFrame m) = none := if_pos (Or.inr hboot)
          rw [hmode, hnone]
          exact congrArg _ (List.append_nil _).symm
        · obtain ⟨hrecv, hdone⟩ := canBusFrameReceive_accepts hboot
          have hsome : heardFrame s (.canFrame m) = some m := if_neg (not_or.mpr ⟨hreset, hboot⟩)
          rw [hsome, hrecv, hdone, Option.toList_some, List.map_singleton, assemble_cons]
          refine Prod.ext ?_ ?_
          · exact (congrArg Prod.fst (recvFrame_refines s.can.recv m)).symm
          · show _ = completed s ++ (_ ++ [])
            rw [List.append_nil]
            rfl
    | _ => exact absurd hi id
  · have hnone : heardFrame s i = none := by
      cases i with
      | canFrame m => exact absurd trivial hi
      | _ => rfl
    obtain ⟨hrecv, hdone⟩ := step_beside_frames (s := s) hi
    rw [hnone, hrecv, hdone]
    exact congrArg _ (List.append_nil _).symm

/-- **A station is a reassembler.**  In every run, what the station dispatches is what one
buffer completes on the frames it hears, and its receive state is the draft left. -/
theorem run_reassembles (s : Station) (is : List Input) :
    ((run step s is).can.recv.draft, completed (run step s is)) =
      ((assemble 300 s.can.recv.draft ((heardFrames s is).map CanRxMsg.labelled)).1,
        completed s ++
          (assemble 300 s.can.recv.draft ((heardFrames s is).map CanRxMsg.labelled)).2) := by
  induction is generalizing s with
  | nil => exact congrArg _ (List.append_nil _).symm
  | cons i is ih =>
      obtain ⟨hdraft, hdone⟩ := Prod.mk.inj (step_reassembles s i)
      unfold heardFrames
      rw [run_cons, ih, hdraft, hdone, List.map_append, assemble_append, List.append_assoc]

/-! ## The frames of one message -/

/-- The pieces in the frames behind the first of a message. -/
theorem canSegmentsFrom_tail {pbuf : List U8} {funcId srcId : U8} {n : Nat} {k : U8}
    (hn : n = 8 * (k.toNat + 1)) (hlt : n < pbuf.length) (hlen : pbuf.length ≤ 300) :
    Tail 8 pbuf (k.toNat + 1)
      ((canSegmentsFrom pbuf funcId srcId n k).map fun f => (canBusSendOneFrame f).piece) := by
  fun_induction canSegmentsFrom pbuf funcId srcId n k with
  | case1 n k hmore ih =>
      have hk := segNum_succ (k := k) (by omega)
      have hrest := ih (by rw [hk]; omega) hmore
      rw [hk] at hrest
      refine Tail.more ?_ ?_ ?_ hrest
      · exact congrArg (SegPolo.place ∘ CanFrameExtID.segPolo) (canDecodeId_canBusSendOneFrame _)
      · exact (congrArg (BitVec.toNat ∘ CanFrameExtID.segNum)
          (canDecodeId_canBusSendOneFrame _)).trans hk
      · rw [← hn]
        rfl
  | case2 n k hlast =>
      have hk := segNum_succ (k := k) (by omega)
      refine Tail.last ?_ ?_ ?_
      · exact congrArg (SegPolo.place ∘ CanFrameExtID.segPolo) (canDecodeId_canBusSendOneFrame _)
      · exact (congrArg (BitVec.toNat ∘ CanFrameExtID.segNum)
          (canDecodeId_canBusSendOneFrame _)).trans hk
      · show (pbuf.drop n).take (pbuf.length - n) = pbuf.drop (8 * (k.toNat + 1))
        rw [← hn]
        exact List.take_of_length_le (by rw [List.length_drop])

/-- The frames of a message carry its pieces. -/
theorem canFramesOf_pieceOf {pbuf : List U8} {funcId srcId : U8} (hlen : pbuf.length ≤ 300) :
    ∀ f ∈ canFramesOf pbuf funcId srcId, PieceOf 8 pbuf (canBusSendOneFrame f).piece := by
  intro f hf
  unfold canFramesOf at hf
  split_ifs at hf with hone
  · obtain rfl := List.mem_singleton.mp hf
    unfold PieceOf CanRxMsg.piece
    rw [canDecodeId_canBusSendOneFrame]
    rfl
  · rcases List.mem_cons.mp hf with rfl | hf
    · unfold PieceOf CanRxMsg.piece
      rw [canDecodeId_canBusSendOneFrame]
      exact ⟨rfl, rfl⟩
    · have height : 8 = 8 * ((0 : U8).toNat + 1) := rfl
      exact (canSegmentsFrom_tail height (by omega) hlen).pieceOf _ (List.mem_map_of_mem hf)

/-- The frames of a message as labelled pieces. -/
theorem canFramesOf_labelled {pbuf : List U8} {funcId srcId : U8} (hfunc : funcId < 16) :
    ((canFramesOf pbuf funcId srcId).map canBusSendOneFrame).map CanRxMsg.labelled =
      ((canFramesOf pbuf funcId srcId).map fun f => (canBusSendOneFrame f).piece).map
        fun p => ((funcId, srcId), p) := by
  rw [List.map_map, List.map_map]
  apply List.map_congr_left
  intro f hf
  obtain ⟨hid, hsrc⟩ := canFramesOf_decoded hfunc (List.mem_map_of_mem hf)
  show (((canDecodeId (canBusSendOneFrame f).extId).funcId,
    (canDecodeId (canBusSendOneFrame f).extId).srcId), (canBusSendOneFrame f).piece) = _
  rw [hid, hsrc]
  rfl

/-- **Stray frames.**  A station that hears only frames of one message, however many are lost,
repeated or out of order, dispatches that message or nothing. -/
theorem strays_complete_their_message {pbuf : List U8} {funcId srcId : U8}
    (hlen : pbuf.length ≤ 300) (hfunc : funcId < 16) {s : Station}
    (hidle : s.can.recv.gSegPolo ≠ .first) {is : List Input}
    (hheard : ∀ m ∈ heardFrames s is,
      m ∈ (canFramesOf pbuf funcId srcId).map canBusSendOneFrame) :
    ∃ n, completed (run step s is) =
      completed s ++ List.replicate n ((funcId, srcId), pbuf) := by
  have hdone := congrArg Prod.snd (run_reassembles s is)
  refine ⟨_, hdone.trans (congrArg (completed s ++ ·) (List.eq_replicate_of_mem ?_))⟩
  have hnone : s.can.recv.draft = none := if_neg hidle
  have hpieces : ∀ x ∈ (heardFrames s is).map CanRxMsg.labelled, PieceOf 8 pbuf x.2 := by
    intro x hx
    obtain ⟨m, hm, rfl⟩ := List.mem_map.mp hx
    obtain ⟨f, hf, rfl⟩ := List.mem_map.mp (hheard m hm)
    exact canFramesOf_pieceOf hlen f hf
  have hbegins : Begins 8 pbuf (none : Option (Draft U8)) := fun _ h => nomatch h
  rw [hnone]
  intro c hc
  obtain ⟨⟨x, hx, hlabel⟩, hmsg⟩ := completed_of_pieces hbegins hpieces c hc
  obtain ⟨m, hm, rfl⟩ := List.mem_map.mp hx
  obtain ⟨hid, hsrc⟩ := canFramesOf_decoded hfunc (hheard m hm)
  refine Prod.ext (hlabel.symm.trans ?_) hmsg
  exact Prod.ext hid hsrc

/-- **Frames received twice.**  A message of more than one frame, all of whose frames arrive in
order, each once or more often, is dispatched once. -/
theorem repeated_frames_complete_once {pbuf : List U8} {funcId srcId : U8}
    (hlong : 8 < pbuf.length) (hlen : pbuf.length ≤ 300) (hfunc : funcId < 16) {s : Station}
    {is : List Input}
    (hheard : Repeated ((canFramesOf pbuf funcId srcId).map canBusSendOneFrame)
      (heardFrames s is)) :
    completed (run step s is) = completed s ++ [((funcId, srcId), pbuf)] := by
  have hdone := congrArg Prod.snd (run_reassembles s is)
  refine hdone.trans (congrArg (completed s ++ ·) ?_)
  have hcut : canFramesOf pbuf funcId srcId =
      { segPolo := .first, segNum := 0, funcId := funcId, srcId := srcId
        data := pbuf.take 8 } :: canSegmentsFrom pbuf funcId srcId 8 0 := if_neg (by omega)
  have hrep := hheard.map CanRxMsg.labelled
  rw [canFramesOf_labelled hfunc, hcut, List.map_cons] at hrep
  have height : 8 = 8 * ((0 : U8).toNat + 1) := rfl
  have hid := canDecodeId_canBusSendOneFrame
    { segPolo := .first, segNum := 0, funcId := funcId, srcId := srcId, data := pbuf.take 8 }
  have hplace := congrArg (SegPolo.place ∘ CanFrameExtID.segPolo) hid
  have hnumber := congrArg (BitVec.toNat ∘ CanFrameExtID.segNum) hid
  have hdata : _ = pbuf.take 8 := rfl
  have hrest := @canSegmentsFrom_tail pbuf funcId srcId 8 0 height hlong hlen
  rw [assemble_repeated hlen hplace hnumber hdata hrest s.can.recv.draft hrep]

/-! ## A state message of two frames -/

/-- The frames of ten bytes of station 2. -/
def twoFrames : List CanRxMsg :=
  (canFramesOf [1, 2, 3, 4, 5, 6, 7, 8, 9, 10] CAN_FUNC_ID_MODULE_STATUS 2).map canBusSendOneFrame

/-- The final frame comes first, and then twice behind the first one. -/
theorem strays_complete_their_message_twoFrames :
    ∃ n, completed (run step (boot zeroFlash 4)
        [.canFrame (twoFrames.getD 1 default), .canFrame (twoFrames.getD 0 default),
          .upstreamIo, .canFrame (twoFrames.getD 1 default),
          .canFrame (twoFrames.getD 1 default)]) =
      completed (boot zeroFlash 4) ++
        List.replicate n ((CAN_FUNC_ID_MODULE_STATUS, 2), [1, 2, 3, 4, 5, 6, 7, 8, 9, 10]) :=
  strays_complete_their_message (by decide) (by decide) (by decide +kernel) (by decide +kernel)

/-- Every frame arrives twice. -/
theorem repeated_frames_complete_once_twoFrames :
    completed (run step (boot zeroFlash 4)
        [.canFrame (twoFrames.getD 0 default), .canFrame (twoFrames.getD 0 default),
          .upstreamIo, .canFrame (twoFrames.getD 1 default),
          .canFrame (twoFrames.getD 1 default)]) =
      completed (boot zeroFlash 4) ++
        [((CAN_FUNC_ID_MODULE_STATUS, 2), [1, 2, 3, 4, 5, 6, 7, 8, 9, 10])] := by
  apply repeated_frames_complete_once (by decide) (by decide) (by decide)
  have hheard : heardFrames (boot zeroFlash 4)
      [.canFrame (twoFrames.getD 0 default), .canFrame (twoFrames.getD 0 default),
        .upstreamIo, .canFrame (twoFrames.getD 1 default),
        .canFrame (twoFrames.getD 1 default)] =
      [twoFrames.getD 0 default, twoFrames.getD 0 default, twoFrames.getD 1 default,
        twoFrames.getD 1 default] := by decide +kernel
  have hframes : twoFrames = [twoFrames.getD 0 default, twoFrames.getD 1 default] := by
    decide +kernel
  rw [hheard]
  change Repeated twoFrames _
  rw [hframes]
  exact .again (.next (.again (.next .nil)))

end IotCtrl
