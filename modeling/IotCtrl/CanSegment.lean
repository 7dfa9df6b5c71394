import IotCtrl.Footprint
import Mathlib.Tactic.IntervalCases

/-!
# Segmentation and reassembly

The frames of one message, delivered in order and with nothing in between, put
the message together again, whatever the receiver held before.

* `canDecodeId_canBusSendOneFrame` — the identifier round trip;
* `Completes` — frames that raise the finish flag at the last one and only there;
* `canFramesOf_completes` — the frames of a message do, and the buffer then holds
  the message;
* `can_round_trip` — the same from `can_bus_send_msg` on one station to the
  dispatch on another;
* `enqueued_whole_iff` — `can_bus_send_msg` queues a message whole or not at all
  exactly when all its frames find room, or none does.
-/

namespace IotCtrl

open ByteMemory

/-! ## The identifier -/

/-- The encoded identifier decodes to what was encoded, with the four bits of the
function code that fit and no destination. -/
theorem canDecodeId_canBusSendOneFrame (f : CanFrameExt) :
    canDecodeId (canBusSendOneFrame f).extId =
      { segPolo := f.segPolo
        segNum := f.segNum
        funcId := f.funcId &&& 0xF
        srcId := f.srcId
        dstId := 0 } := by
  have hpolo : (((canBusSendOneFrame f).extId >>> 20) &&& 0x3).setWidth 8 = f.segPolo.code := by
    cases h : f.segPolo
    all_goals
      ext i hi
      interval_cases i <;> simp [canBusSendOneFrame, h, SegPolo.code]
  have hnum : (((canBusSendOneFrame f).extId >>> 12) &&& 0xFF).setWidth 8 = f.segNum := by
    ext i hi
    interval_cases i <;> simp [canBusSendOneFrame]
  have hfunc : (((canBusSendOneFrame f).extId >>> 8) &&& 0xF).setWidth 8 = f.funcId &&& 0xF := by
    ext i hi
    interval_cases i <;> simp [canBusSendOneFrame]
  have hsrc : ((canBusSendOneFrame f).extId &&& 0xFF).setWidth 8 = f.srcId := by
    ext i hi
    interval_cases i <;> simp [canBusSendOneFrame]
  have hdst : (((canBusSendOneFrame f).extId >>> 22) &&& 0x7F).setWidth 8 = (0 : U8) := by
    ext i hi
    interval_cases i <;> simp [canBusSendOneFrame]
  rw [canDecodeId, hpolo, hnum, hfunc, hsrc, hdst, SegPolo.ofCode_code]

/-- A four-bit function code is sent as it is. -/
theorem funcId_and_of_lt {funcId : U8} (h : funcId < 16) : funcId &&& 0xF = funcId := by
  have hmod : funcId.toNat &&& (2 ^ 4 - 1) = funcId.toNat % 2 ^ 4 :=
    Nat.and_two_pow_sub_one_eq_mod _ _
  have hlt : funcId.toNat < 16 := h
  apply BitVec.eq_of_toNat_eq
  rw [BitVec.toNat_and]
  exact hmod.trans (Nat.mod_eq_of_lt hlt)

/-! ## Completing a message -/

/-- One frame through the reassembly: the receive state and the finish flag. -/
def recvFrame (r : CanRecv) (m : CanRxMsg) : CanRecv × Bool :=
  canReassemble (canDecodeId m.extId) m.data r

/-- The frames raise the finish flag at the last one and only there, and take the
receive state `r` to `r'`. -/
inductive Completes : List CanRxMsg → CanRecv → CanRecv → Prop
  | last {m : CanRxMsg} {r r' : CanRecv} (h : recvFrame r m = (r', true)) : Completes [m] r r'
  | more {m : CanRxMsg} {ms : List CanRxMsg} {r q r' : CanRecv}
      (h : recvFrame r m = (q, false)) (hrest : Completes ms q r') : Completes (m :: ms) r r'

/-- The receive state holds the first `n` bytes of a message, of which segment
`k` was the last to arrive. -/
structure Assembling (pbuf : List U8) (n k : Nat) (r : CanRecv) : Prop where
  polo : r.gSegPolo = .first
  num : r.gSegNum = k
  bytes : r.gSegBytes = n
  buff : read r.canRecvBuff 0 n = pbuf.take n

theorem recvFrame_eq (r : CanRecv) (f : CanFrameExt) :
    recvFrame r (canBusSendOneFrame f) =
      canReassemble
        { segPolo := f.segPolo
          segNum := f.segNum
          funcId := f.funcId &&& 0xF
          srcId := f.srcId
          dstId := 0 } f.data r := by
  rw [recvFrame, canDecodeId_canBusSendOneFrame]
  rfl

theorem recvFrame_single (r : CanRecv) {f : CanFrameExt} (hpolo : f.segPolo = .none) :
    recvFrame r (canBusSendOneFrame f) =
      ({ r with
          canRecvBuff := write r.canRecvBuff 0 f.data
          canRecvLen := f.data.length }, true) := by
  rw [recvFrame_eq, canReassemble]
  simp only [hpolo]

theorem recvFrame_first (r : CanRecv) {f : CanFrameExt} (hpolo : f.segPolo = .first) :
    recvFrame r (canBusSendOneFrame f) =
      ({ r with
          canRecvBuff := write r.canRecvBuff 0 f.data
          gSegPolo := .first
          gSegNum := f.segNum.toNat
          gSegBytes := f.data.length }, false) := by
  rw [recvFrame_eq, canReassemble]
  simp only [hpolo]

/-- The next piece of a message continues it. -/
theorem Assembling.continues {pbuf : List U8} {n k : Nat} {r : CanRecv} {f : CanFrameExt}
    (h : Assembling pbuf n k r) (hnum : f.segNum.toNat = k + 1)
    (hbytes : n + f.data.length ≤ 300) :
    canContinues
      { segPolo := f.segPolo
        segNum := f.segNum
        funcId := f.funcId &&& 0xF
        srcId := f.srcId
        dstId := 0 } f.data r :=
  ⟨h.polo, by rw [h.num]; exact hnum, by rw [h.bytes]; exact hbytes⟩

/-- A copy behind the first bytes of a message extends them. -/
theorem read_write_take {pbuf data : List U8} {m : Mem} {n : Nat} (hm : read m 0 n = pbuf.take n)
    (hdata : data = (pbuf.drop n).take data.length) :
    read (write m n data) 0 (n + data.length) = pbuf.take (n + data.length) := by
  rw [read_write_append, hm, List.take_add, ← hdata]

theorem recvFrame_middle {pbuf : List U8} {n k : Nat} {r : CanRecv} (f : CanFrameExt)
    (h : Assembling pbuf n k r) (hpolo : f.segPolo = .middle) (hnum : f.segNum.toNat = k + 1)
    (hbytes : n + f.data.length ≤ 300) (hdata : f.data = (pbuf.drop n).take f.data.length) :
    ∃ q, recvFrame r (canBusSendOneFrame f) = (q, false) ∧
      Assembling pbuf (n + f.data.length) (k + 1) q := by
  have hcont := h.continues hnum hbytes
  rw [recvFrame_eq]
  unfold canReassemble
  simp only [hpolo] at hcont ⊢
  rw [if_pos hcont]
  refine ⟨_, rfl, h.polo, ?_, ?_, ?_⟩
  · rw [← h.num]
  · rw [← h.bytes]
  · rw [h.bytes]
    exact read_write_take h.buff hdata

theorem recvFrame_final {pbuf : List U8} {n k : Nat} {r : CanRecv} (f : CanFrameExt)
    (h : Assembling pbuf n k r) (hpolo : f.segPolo = .final) (hnum : f.segNum.toNat = k + 1)
    (hbytes : n + f.data.length ≤ 300) (hdata : f.data = (pbuf.drop n).take f.data.length)
    (hend : n + f.data.length = pbuf.length) :
    ∃ q, recvFrame r (canBusSendOneFrame f) = (q, true) ∧
      q.canRecvLen = pbuf.length ∧ q.payload = pbuf := by
  have hcont := h.continues hnum hbytes
  rw [recvFrame_eq]
  unfold canReassemble
  simp only [hpolo] at hcont ⊢
  rw [if_pos hcont]
  refine ⟨_, rfl, ?_, ?_⟩
  · rw [← hend, ← h.bytes]
  · rw [CanRecv.payload, h.bytes]
    exact (read_write_take h.buff hdata).trans (by rw [hend, List.take_length])

/-- The rest of a message after its first `n` bytes. -/
theorem canSegmentsFrom_completes {pbuf : List U8} {funcId srcId : U8}
    (hlen : pbuf.length ≤ 300) {n : Nat} {k : U8} (hn : n = 8 * (k.toNat + 1))
    (hlt : n < pbuf.length) {r : CanRecv} (hr : Assembling pbuf n k.toNat r) :
    ∃ r', Completes ((canSegmentsFrom pbuf funcId srcId n k).map canBusSendOneFrame) r r' ∧
      r'.canRecvLen = pbuf.length ∧ r'.payload = pbuf := by
  have hnum : ∀ j : U8, j.toNat < 38 → (j + 1).toNat = j.toNat + 1 := by
    intro j hj
    show (j.toNat + 1) % 256 = j.toNat + 1
    omega
  fun_induction canSegmentsFrom pbuf funcId srcId n k generalizing r with
  | case1 n k hmore ih =>
      have hk := hnum k (by omega)
      have hdata : ((pbuf.drop n).take 8).length = 8 := by
        rw [List.length_take, List.length_drop]
        omega
      obtain ⟨q, hq, hasm⟩ := recvFrame_middle
        { segPolo := .middle
          segNum := k + 1
          funcId := funcId
          srcId := srcId
          data := (pbuf.drop n).take 8 }
        hr rfl hk (by simp only [hdata]; omega) (by simp only [hdata])
      simp only [hdata] at hasm
      rw [← hk] at hasm
      obtain ⟨r', hrest, hfinal⟩ := ih (by rw [hk]; omega) hmore hasm
      exact ⟨r', Completes.more hq hrest, hfinal⟩
  | case2 n k hlast =>
      have hk := hnum k (by omega)
      have hdata : ((pbuf.drop n).take (pbuf.length - n)).length = pbuf.length - n := by
        rw [List.length_take, List.length_drop, Nat.min_self]
      obtain ⟨q, hq, hfinal⟩ := recvFrame_final
        { segPolo := .final
          segNum := k + 1
          funcId := funcId
          srcId := srcId
          data := (pbuf.drop n).take (pbuf.length - n) }
        hr rfl hk (by simp only [hdata]; omega) (by simp only [hdata])
        (by simp only [hdata]; omega)
      exact ⟨q, Completes.last hq, hfinal⟩

/-- **The frames of a message put it together.** -/
theorem canFramesOf_completes (pbuf : List U8) (funcId srcId : U8) (hlen : pbuf.length ≤ 300)
    (r : CanRecv) :
    ∃ r', Completes ((canFramesOf pbuf funcId srcId).map canBusSendOneFrame) r r' ∧
      r'.canRecvLen = pbuf.length ∧ r'.payload = pbuf := by
  unfold canFramesOf
  split_ifs with hone
  · refine ⟨_, Completes.last (recvFrame_single r rfl), rfl, ?_⟩
    exact read_write r.canRecvBuff 0 pbuf
  · have hfirst : (pbuf.take 8).length = 8 := by
      rw [List.length_take]
      omega
    have hasm : Assembling pbuf 8 (0 : U8).toNat
        { r with
          canRecvBuff := write r.canRecvBuff 0 (pbuf.take 8)
          gSegPolo := .first
          gSegNum := 0
          gSegBytes := (pbuf.take 8).length } := by
      refine ⟨rfl, rfl, hfirst, ?_⟩
      have h := read_write r.canRecvBuff 0 (pbuf.take 8)
      rwa [hfirst] at h
    have height : 8 = 8 * ((0 : U8).toNat + 1) := rfl
    obtain ⟨r', hrest, hfinal⟩ := canSegmentsFrom_completes hlen height (by omega) hasm
    exact ⟨r', Completes.more (recvFrame_first r rfl) hrest, hfinal⟩

/-! ## At the station -/

/-- Frames that arrive one after the other. -/
def receiveAll (s : Station) (ms : List CanRxMsg) : Station :=
  ms.foldl (fun s m => canBusFrameReceive m s) s

/-- `recv_finish_flag` of the call that receives a frame. -/
def recvFinishFlag (s : Station) (m : CanRxMsg) : Bool := (recvFrame s.can.recv m).2

/-- A frame that does not finish a message. -/
theorem canBusFrameReceive_more {s : Station} {m : CanRxMsg} {q : CanRecv}
    (hboot : (canDecodeId m.extId).funcId ≠ CAN_FUNC_ID_BOOT_MODE)
    (h : recvFrame s.can.recv m = (q, false)) :
    canBusFrameReceive m s = setCanRecv q s := by
  unfold recvFrame at h
  unfold canBusFrameReceive
  rw [if_neg fun hb => hboot hb.1, h]
  rfl

/-- A frame that finishes one. -/
theorem canBusFrameReceive_last {s : Station} {m : CanRxMsg} {q : CanRecv}
    (hboot : (canDecodeId m.extId).funcId ≠ CAN_FUNC_ID_BOOT_MODE)
    (h : recvFrame s.can.recv m = (q, true)) :
    canBusFrameReceive m s =
      (canDispatch (canDecodeId m.extId).funcId (canDecodeId m.extId).srcId
        ((setCanRecv q s).log
          (.canDone (canDecodeId m.extId).funcId (canDecodeId m.extId).srcId q.payload))).val := by
  unfold recvFrame at h
  unfold canBusFrameReceive
  rw [if_neg fun hb => hboot hb.1, h]
  rfl

/-- Frames of one function code and source that complete a message: the flag is
raised at the last one and only there, and there the message is dispatched. -/
theorem Completes.receiveAll {ms : List CanRxMsg} {r r' : CanRecv} {funcId srcId : U8}
    (h : Completes ms r r')
    (hids : ∀ m ∈ ms, (canDecodeId m.extId).funcId = funcId ∧ (canDecodeId m.extId).srcId = srcId)
    (hboot : funcId ≠ CAN_FUNC_ID_BOOT_MODE) (s : Station) (hs : s.can.recv = r) :
    (∀ n m, ms[n]? = some m →
      recvFinishFlag (receiveAll s (ms.take n)) m = decide (n + 1 = ms.length)) ∧
    IotCtrl.receiveAll s ms =
      (canDispatch funcId srcId
        ((setCanRecv r' s).log (.canDone funcId srcId r'.payload))).val := by
  induction h generalizing s with
  | @last m r r' h =>
      subst hs
      obtain ⟨hf, hsrc⟩ := hids m List.mem_cons_self
      refine ⟨?_, ?_⟩
      · intro n m' hm
        cases n with
        | zero =>
            obtain rfl : m = m' := by simpa using hm
            exact congrArg Prod.snd h
        | succ n => simp at hm
      · have hlast := canBusFrameReceive_last (hf ▸ hboot) h
        rwa [hf, hsrc] at hlast
  | @more m ms r q r' h hrest ih =>
      subst hs
      obtain ⟨hf, -⟩ := hids m List.mem_cons_self
      have hstep := canBusFrameReceive_more (hf ▸ hboot) h
      obtain ⟨hflag, hend⟩ := ih (fun m' hm' => hids m' (List.mem_cons_of_mem _ hm'))
        (setCanRecv q s) rfl
      have hcons : ∀ l, IotCtrl.receiveAll s (m :: l) = IotCtrl.receiveAll (setCanRecv q s) l := by
        intro l
        rw [IotCtrl.receiveAll, List.foldl_cons, hstep]
        rfl
      refine ⟨?_, ?_⟩
      · intro n m' hm
        cases n with
        | zero =>
            obtain rfl : m = m' := by simpa using hm
            have hne : ms ≠ [] := by cases hrest <;> simp
            have hlen : 0 + 1 ≠ (m :: ms).length := by
              rw [List.length_cons]
              have := List.length_pos_iff.mpr hne
              omega
            rw [decide_eq_false hlen]
            exact congrArg Prod.snd h
        | succ n =>
            rw [List.take_succ_cons, hcons, hflag n m' (by simpa using hm)]
            simp
      · rw [hcons, hend]
        rfl

/-- The identifiers of the encoded frames of a message. -/
theorem canFramesOf_decoded {pbuf : List U8} {funcId srcId : U8} (hfunc : funcId < 16)
    {m : CanRxMsg} (hm : m ∈ (canFramesOf pbuf funcId srcId).map canBusSendOneFrame) :
    (canDecodeId m.extId).funcId = funcId ∧ (canDecodeId m.extId).srcId = srcId := by
  obtain ⟨f, hf, rfl⟩ := List.mem_map.mp hm
  obtain ⟨rfl, rfl⟩ := canFramesOf_ids hf
  rw [canDecodeId_canBusSendOneFrame]
  exact ⟨funcId_and_of_lt hfunc, rfl⟩

/-- **The segmentation round trip.**  With room in its queue the sender queues
frames which, delivered to any receiver in order and with nothing in between, raise
the finish flag at the last of them and only there; the receiver then holds the
message and dispatches it under the function code and source it was sent with. -/
theorem can_round_trip (pbuf : List U8) (funcId srcId : U8) (hlen : pbuf.length ≤ 300)
    (hfunc : funcId < 16) (hboot : funcId ≠ CAN_FUNC_ID_BOOT_MODE) (sender receiver : Station)
    (hroom : sender.canFrames.length + (canFramesOf pbuf funcId srcId).length < 50) :
    ∃ fs, (canBusSendMsg pbuf funcId srcId sender).canFrames = sender.canFrames ++ fs ∧
      fs ≠ [] ∧
      (∀ n m, (fs.map canBusSendOneFrame)[n]? = some m →
        (canDecodeId m.extId).funcId = funcId ∧ (canDecodeId m.extId).srcId = srcId ∧
        recvFinishFlag (receiveAll receiver ((fs.map canBusSendOneFrame).take n)) m =
          decide (n + 1 = fs.length)) ∧
      ∃ r, r.canRecvLen = pbuf.length ∧ read r.canRecvBuff 0 pbuf.length = pbuf ∧
        receiveAll receiver (fs.map canBusSendOneFrame) =
          (canDispatch funcId srcId
            ((setCanRecv r receiver).log (.canDone funcId srcId pbuf))).val := by
  obtain ⟨r, hcomp, hrlen, hpay⟩ := canFramesOf_completes pbuf funcId srcId hlen receiver.can.recv
  have hids := fun m (hm : m ∈ (canFramesOf pbuf funcId srcId).map canBusSendOneFrame) =>
    canFramesOf_decoded hfunc hm
  obtain ⟨hflag, hend⟩ := hcomp.receiveAll hids hboot receiver rfl
  refine ⟨canFramesOf pbuf funcId srcId, ?_, ?_, ?_, r, hrlen, ?_, ?_⟩
  · rw [canBusSendMsg_eq]
    exact RingFifo.contents_addAll_of_room hroom
  · intro hnil
    have hone := length_canFramesOf pbuf funcId srcId
    rw [hnil, List.length_nil] at hone
    omega
  · intro n m hm
    obtain ⟨hf, hs⟩ := hids m (List.mem_of_getElem? hm)
    refine ⟨hf, hs, ?_⟩
    rw [hflag n m hm, List.length_map]
  · rw [← hrlen]
    exact hpay
  · rw [hend, hpay]

/-- Nine bytes, one more than fits a frame, from station 2 to the host. -/
theorem can_round_trip_nine :
    ∃ fs r, fs ≠ [] ∧
      receiveAll (boot zeroFlash 1) (fs.map canBusSendOneFrame) =
        (canDispatch 3 2
          ((setCanRecv r (boot zeroFlash 1)).log
            (.canDone 3 2 [1, 2, 3, 4, 5, 6, 7, 8, 9]))).val := by
  have hroom : (boot zeroFlash 2).canFrames.length +
      (canFramesOf [1, 2, 3, 4, 5, 6, 7, 8, 9] 3 2).length < 50 := by
    rw [boot_canFrames, length_canFramesOf]
    decide
  obtain ⟨fs, -, hne, -, r, -, -, hend⟩ :=
    can_round_trip [1, 2, 3, 4, 5, 6, 7, 8, 9] 3 2 (by decide) (by decide) (by decide)
      (boot zeroFlash 2) (boot zeroFlash 1) hroom
  exact ⟨fs, r, hne, hend⟩

/-! ## Whole messages in the send queue -/

/-- All frames of the message, one for every eight bytes begun and at least one, were
appended in order, or the queue is as it was. -/
def EnqueuedWhole (pbuf : List U8) (funcId srcId : U8) (s : Station) : Prop :=
  let t := canBusSendMsg pbuf funcId srcId s
  (t.canFrames = s.canFrames ++ canFramesOf pbuf funcId srcId ∧
      (canFramesOf pbuf funcId srcId).length = max 1 ((pbuf.length + 7) / 8)) ∨
    t.can.canSendQueue = s.can.canSendQueue

/-- **Whole or not at all**: exactly when every frame finds room, or none does. -/
theorem enqueued_whole_iff (pbuf : List U8) (funcId srcId : U8) (s : Station) :
    EnqueuedWhole pbuf funcId srcId s ↔
      s.canFrames.length + max 1 ((pbuf.length + 7) / 8) < 50 ∨ s.can.canSendQueue.IsFull := by
  have hlen := length_canFramesOf pbuf funcId srcId
  have hqueue : (canBusSendMsg pbuf funcId srcId s).can.canSendQueue =
      s.can.canSendQueue.addAll (canFramesOf pbuf funcId srcId) := by
    rw [canBusSendMsg_eq]
    rfl
  have hheld : (canBusSendMsg pbuf funcId srcId s).canFrames =
      s.canFrames ++ (canFramesOf pbuf funcId srcId).take (50 - 1 - s.canFrames.length) := by
    rw [Station.canFrames, hqueue]
    exact RingFifo.contents_addAll _ _
  have hlt := s.can.canSendQueue.size_lt
  rw [← RingFifo.length_contents] at hlt
  constructor
  · intro h
    rcases h with ⟨hall, -⟩ | hsame
    · refine Or.inl ?_
      have hcount := congrArg List.length (hheld.symm.trans hall)
      rw [List.length_append, List.length_append, List.length_take, hlen] at hcount
      omega
    · refine Or.inr ((RingFifo.isFull_iff _).mpr ?_)
      have hcount := congrArg List.length (hheld.symm.trans (congrArg RingFifo.contents hsame))
      rw [List.length_append, List.length_take, hlen] at hcount
      unfold Station.canFrames at hcount
      omega
  · intro h
    rcases h with hroom | hfull
    · refine Or.inl ⟨?_, hlen⟩
      rw [hheld, List.take_of_length_le (by omega)]
    · refine Or.inr ?_
      rw [hqueue, RingFifo.addAll_of_full hfull]

/-- A station whose send queue holds 48 reset commands. -/
def almostFullStation : Station :=
  (List.range 48).foldl (fun s _ => canBusSendResetCmd s) (boot zeroFlash 2)

/-- There the first frame of a nine-byte message is queued and the final one dropped. -/
theorem first_frame_only :
    ¬ ∀ (pbuf : List U8) (funcId srcId : U8) (s : Station), pbuf.length ≤ 300 →
      EnqueuedWhole pbuf funcId srcId s := by
  intro h
  have hheld : almostFullStation.canFrames.length = 48 := by decide +kernel
  have hafter : (canBusSendMsg [1, 2, 3, 4, 5, 6, 7, 8, 9] CAN_FUNC_ID_PARA_DATA 2
      almostFullStation).canFrames.length = 49 := by decide +kernel
  rcases h [1, 2, 3, 4, 5, 6, 7, 8, 9] CAN_FUNC_ID_PARA_DATA 2 almostFullStation (by decide) with
    ⟨hall, hcount⟩ | hsame
  · have htotal := congrArg List.length hall
    rw [List.length_append, hcount, hheld, hafter] at htotal
    exact absurd htotal (by decide)
  · have htotal := congrArg (fun q => q.contents.length) hsame
    exact absurd (hafter.symm.trans (htotal.trans hheld)) (by decide)

end IotCtrl
