import IotCtrl.QuietTicks

/-!
# What a poll records

`comm_recv_rw_comand` accepts the answer to a poll from four bytes on, and then takes seven
registers from fixed offsets of a buffer that is never cleared.  It assigns to most of the
record, but adds the input bits to those already there.

* `Determines` — the recorded status is a function of the frame;
* `determines_iff` — it is exactly for the frames that have all seven registers and set every
  input bit;
* `short_answer_reads_leftovers` — two runs with an answer of four bytes.
-/

namespace IotCtrl

open ByteMemory Transition ClosedFacts

/-! ## Two runs with the same frame -/

/-- A read of inverter `k` is outstanding, and the frame is what was received. -/
structure AnswerHeld (k : Nat) (frame : List U8) (s : Station) : Prop where
  rwFlag : s.logic.commNode.rwFlag = 0
  inverterNo : s.logic.commNode.inverterNo.toNat = k
  count : s.modbus.uart1RecvCount = frame.length
  bytes : ByteMemory.read s.modbus.uart1RecvBuff 0 frame.length = frame

/-- `comm_recv_rw_comand` as the main loop calls it. -/
def judged (s : Station) : Bool × Station :=
  commRecvRwComand s.modbus.uart1RecvBuff s.modbus.uart1RecvCount s

/-- Records that are the same up to the RS-485 fault and the unused input bits. -/
structure SameStatus (v w : InverterStatus) : Prop where
  faultCode : v.faultCode &&& ~~~0x1 = w.faultCode &&& ~~~0x1
  inputStatus : v.inputStatus &&& 0x1F = w.inputStatus &&& 0x1F
  lineSpeed : v.lineSpeed = w.lineSpeed
  electricCurrent : v.electricCurrent = w.electricCurrent
  inverterFreq : v.inverterFreq = w.inverterFreq

/-- A frame that is accepted as the answer to a read of inverter `k`. -/
def AcceptedAnswer (k : Nat) (frame : List U8) : Prop :=
  4 ≤ frame.length ∧
    getCRC (frame.take (frame.length - 2)) =
      le16 (frame.getD (frame.length - 1) 0) (frame.getD (frame.length - 2) 0) ∧
    (frame.getD 0 0).toNat = k ∧ frame.getD 1 0 = 0x03

instance (k : Nat) (frame : List U8) : Decidable (AcceptedAnswer k frame) :=
  inferInstanceAs (Decidable (_ ∧ _))

/-- Two runs that end with the frame, with the same jam bit and whatever else, record the
same status, and none of another inverter. -/
def Determines (k : Nat) (frame : List U8) : Prop :=
  ∀ s t, AnswerHeld k frame s → AnswerHeld k frame t → s.jam (k - 1) = t.jam (k - 1) →
    SameStatus ((judged s).2.inverter (k - 1)) ((judged t).2.inverter (k - 1)) ∧
      ∀ j, j ≠ k - 1 → (judged s).2.inverter j = s.inverter j

/-! ## One run -/

section Judged

variable {k : Nat} {frame : List U8} {s : Station}

theorem AnswerHeld.byte (h : AnswerHeld k frame s) {i : Nat} (hi : i < frame.length) :
    s.modbus.uart1RecvBuff i = frame.getD i 0 := by
  have hget : (ByteMemory.read s.modbus.uart1RecvBuff 0 frame.length)[i]? = frame[i]? := by
    rw [h.bytes]
  simpa [ByteMemory.read, hi, List.getD] using hget

theorem AnswerHeld.read_take (h : AnswerHeld k frame s) {n : Nat} (hn : n ≤ frame.length) :
    ByteMemory.read s.modbus.uart1RecvBuff 0 n = frame.take n := by
  rw [← ByteMemory.read_take _ 0 hn, h.bytes]

/-- The tests of the function on the first four bytes and the last two. -/
theorem judged_eq (h : AnswerHeld k frame s) :
    judged s =
      if AcceptedAnswer k frame then (true, commRecvPoll s.modbus.uart1RecvBuff s)
      else (false, s) := by
  have hno : (s.modbus.uart1RecvBuff 0).setWidth 16 = s.logic.commNode.inverterNo ↔
      (s.modbus.uart1RecvBuff 0).toNat = k := by
    rw [← h.inverterNo, ← BitVec.toNat_inj, BitVec.toNat_setWidth_of_le (by decide)]
  have hbytes : 4 ≤ frame.length →
      (getCRC (ByteMemory.read s.modbus.uart1RecvBuff 0 (frame.length - 2)) =
          le16 (s.modbus.uart1RecvBuff (frame.length - 1))
            (s.modbus.uart1RecvBuff (frame.length - 2)) ∧
        (s.modbus.uart1RecvBuff 0).setWidth 16 = s.logic.commNode.inverterNo ∧
        s.modbus.uart1RecvBuff 1 = 0x03 ↔ AcceptedAnswer k frame) := by
    intro hlen
    rw [h.read_take (Nat.sub_le _ _), h.byte (i := frame.length - 1) (by omega),
      h.byte (i := frame.length - 2) (by omega), hno, h.byte (i := 0) (by omega),
      h.byte (i := 1) (by omega)]
    exact ⟨fun hand => ⟨hlen, hand⟩, And.right⟩
  unfold judged commRecvRwComand
  rw [h.count, if_pos h.rwFlag]
  by_cases hframe : AcceptedAnswer k frame
  · obtain ⟨hcrc, hsame, hread⟩ := (hbytes hframe.1).mpr hframe
    rw [if_pos hframe, if_neg (Nat.not_lt.mpr hframe.1), if_neg (fun hne => hne hcrc),
      if_neg (fun hne => hne hsame), if_neg (fun hne => hne hread)]
  · rw [if_neg hframe]
    split_ifs with hshort hcrc hsame hread
    all_goals first
      | rfl
      | skip
    refine absurd ((hbytes (Nat.not_lt.mp hshort)).mp ?_) hframe
    exact ⟨not_not.mp hcrc, not_not.mp hsame, not_not.mp hread⟩

/-- An accepted answer gives the inverter a new record, and no other one. -/
theorem judged_inverter (h : AnswerHeld k frame s) (hframe : AcceptedAnswer k frame) (j : Nat) :
    (judged s).2.inverter j =
      if j = k - 1 ∧ k - 1 < 10 then pollStatus s.modbus.uart1RecvBuff (s.inverter (k - 1))
      else s.inverter j := by
  rw [judged_eq h, if_pos hframe]
  show (commRecvPoll s.modbus.uart1RecvBuff s).inverter j = _
  rw [commRecvPoll_inverter, h.inverterNo]

end Judged

/-! ## The recorded bits -/

/-- The low five bits of a half-word are those of its low byte. -/
theorem and_low5 (w : U16) : w &&& 0x1F = (lo w &&& 0x1F).setWidth 16 := by
  have hmod : ∀ x, x &&& 31 = x % 32 := fun x => Nat.and_two_pow_sub_one_eq_mod x 5
  apply BitVec.eq_of_toNat_eq
  rw [BitVec.toNat_and, BitVec.toNat_setWidth_of_le (by decide), BitVec.toNat_and]
  show w.toNat &&& 31 = (lo w).toNat &&& 31
  rw [hmod, hmod, lo, BitVec.toNat_setWidth]
  omega

theorem lo_or_low5 (w : U16) (b : U8) :
    lo (w ||| (b &&& 0x1F).setWidth 16) = lo w ||| (b &&& 0x1F) := by
  ext i hi
  simp [lo]

theorem low5_or (b : U8) : 0x1F ||| (b &&& 0x1F) = 0x1F := by
  ext i hi
  simp only [BitVec.getElem_or, BitVec.getElem_and]
  cases (0x1F : U8)[i] <;> simp

/-- The input bits of the frame are added to those recorded before. -/
theorem pollStatus_inputStatus (buf : Mem) (v : InverterStatus) :
    (pollStatus buf v).inputStatus &&& 0x1F =
      (v.inputStatus &&& 0x1F) ||| (buf 16 &&& 0x1F).setWidth 16 := by
  show (v.inputStatus ||| (le16 (buf 16) (buf 15) &&& 0x1F)) &&& 0x1F = _
  rw [← lo_le16 (buf 16) (buf 15), ← and_low5, lo_le16]
  ext i hi
  simp only [BitVec.getElem_and, BitVec.getElem_or, Bool.and_or_distrib_right, Bool.and_assoc,
    Bool.and_self]

/-- The registers lie in the first 17 bytes. -/
theorem pollStatus_congr {b b' : Mem} (h : ∀ i, i < 17 → b i = b' i) (v : InverterStatus) :
    pollStatus b v = pollStatus b' v := by
  have hcut : ∀ m, pollStatus m v = pollStatus (fun i => if i < 17 then m i else 0) v :=
    fun _ => rfl
  have hsame : (fun i => if i < 17 then b i else 0) = fun i => if i < 17 then b' i else 0 := by
    funext i
    split_ifs with hi
    · exact h i hi
    · rfl
  rw [hcut b, hcut b', hsame]

/-- Of the record before, the fault code keeps the jam bit. -/
theorem pollStatus_faultCode {buf : Mem} {v w : InverterStatus}
    (h : v.faultCode.getLsbD 1 = w.faultCode.getLsbD 1) :
    (pollStatus buf v).faultCode = (pollStatus buf w).faultCode := by
  have htwo : ∀ x : U16, x &&& ((0x2 : Nat) : U16) = if x.getLsbD 1 then 0x2 else 0 :=
    fun x => BitVec.and_twoPow x 1
  unfold pollStatus
  dsimp only
  rw [htwo, htwo, h]

/-- A frame with all seven registers that sets every input bit leaves no choice. -/
theorem sameStatus_pollStatus {b b' : Mem} {v w : InverterStatus}
    (hbytes : ∀ i, i < 17 → b i = b' i)
    (hjam : v.faultCode.getLsbD 1 = w.faultCode.getLsbD 1) (hbits : b 16 &&& 0x1F = 0x1F) :
    SameStatus (pollStatus b v) (pollStatus b' w) := by
  have hfull : ∀ x : U16, (x &&& 0x1F) ||| (0x1F : U8).setWidth 16 = 0x1F := by
    intro x
    ext i hi
    simp
  rw [← pollStatus_congr hbytes]
  refine ⟨by rw [pollStatus_faultCode hjam], ?_, rfl, rfl, rfl⟩
  rw [pollStatus_inputStatus, pollStatus_inputStatus, hbits, hfull, hfull]

/-! ## The frames that determine the status -/

/-- A station that waits for the answer to a read of inverter `k` and has received the frame,
with any bytes behind it and any record. -/
def answerStation (k : Nat) (frame : List U8) (rest : Mem) (v : InverterStatus) : Station :=
  let s := boot zeroFlash 2
  { s with
    logic.commNode := { (default : CommNode) with inverterNo := BitVec.ofNat 16 k }
    logic.inverterStatusBuffer := fun _ => v
    modbus.uart1RecvBuff := prepend frame rest
    modbus.uart1RecvCount := frame.length }

theorem answerStation_answerHeld {k : Nat} {frame : List U8} (hk : k ≤ 10) (rest : Mem)
    (v : InverterStatus) : AnswerHeld k frame (answerStation k frame rest v) := by
  refine ⟨rfl, ?_, rfl, ?_⟩
  · show (BitVec.ofNat 16 k).toNat = k
    rw [BitVec.toNat_ofNat]
    exact Nat.mod_eq_of_lt (by omega)
  · apply List.ext_getElem
    · simp
    · intro i h₁ h₂
      rw [getElem_read, Nat.zero_add]
      exact prepend_of_lt h₂

theorem answerStation_inverter {k j : Nat} {frame : List U8} {rest : Mem} {v : InverterStatus}
    (hj : j < 10) : (answerStation k frame rest v).inverter j = v :=
  dif_pos hj

/-- What the station records of the inputs. -/
theorem answerStation_inputStatus {k : Nat} {frame : List U8} (hk : 1 ≤ k ∧ k ≤ 10)
    (hframe : AcceptedAnswer k frame) (rest : Mem) (v : InverterStatus) :
    ((judged (answerStation k frame rest v)).2.inverter (k - 1)).inputStatus &&& 0x1F =
      (v.inputStatus &&& 0x1F) ||| (prepend frame rest 16 &&& 0x1F).setWidth 16 := by
  have hlt : k - 1 < 10 := by omega
  rw [judged_inverter (answerStation_answerHeld hk.2 rest v) hframe, if_pos ⟨rfl, hlt⟩,
    pollStatus_inputStatus, answerStation_inverter hlt]
  rfl

/-- **What a poll records is a function of the frame** exactly when the frame has all seven
registers and sets every input bit. -/
theorem determines_iff {k : Nat} {frame : List U8} (hk : 1 ≤ k ∧ k ≤ 10)
    (hframe : AcceptedAnswer k frame) :
    Determines k frame ↔ 17 ≤ frame.length ∧ frame.getD 16 0 &&& 0x1F = 0x1F := by
  have hlt : k - 1 < 10 := by omega
  constructor
  · intro h
    have hsame : ∀ rest rest' (v v' : InverterStatus), v.faultCode = v'.faultCode →
        (v.inputStatus &&& 0x1F) ||| (prepend frame rest 16 &&& 0x1F).setWidth 16 =
          (v'.inputStatus &&& 0x1F) ||| (prepend frame rest' 16 &&& 0x1F).setWidth 16 := by
      intro rest rest' v v' hfault
      have hjam : (answerStation k frame rest v).jam (k - 1) =
          (answerStation k frame rest' v').jam (k - 1) := by
        unfold Station.jam
        rw [answerStation_inverter hlt, answerStation_inverter hlt, hfault]
      obtain ⟨hstatus, -⟩ := h _ _ (answerStation_answerHeld hk.2 rest v)
        (answerStation_answerHeld hk.2 rest' v') hjam
      have hbits := hstatus.inputStatus
      rwa [answerStation_inputStatus hk hframe, answerStation_inputStatus hk hframe] at hbits
    -- the last byte of the registers, in two buffers and over two records
    have hlen : 17 ≤ frame.length := by
      by_contra hshort
      have hbits := hsame (fun _ => 0) (fun _ => 0x1F) default default rfl
      rw [prepend_of_le (by omega), prepend_of_le (by omega)] at hbits
      exact absurd hbits (by decide)
    have hbits := hsame (fun _ => 0) (fun _ => 0) default { (default : InverterStatus) with
      inputStatus := 0x1F } rfl
    rw [prepend_of_lt hlen] at hbits
    refine ⟨hlen, ?_⟩
    have hlow := congrArg lo hbits
    rw [lo_or_low5, lo_or_low5] at hlow
    have hnone : lo ((default : InverterStatus).inputStatus &&& 0x1F) = 0#8 := by decide
    have hall : lo ((0x1F : U16) &&& 0x1F) = 0x1F := by decide
    rw [hnone, hall, BitVec.zero_or, low5_or] at hlow
    rw [List.getD, List.getElem?_eq_getElem (h := hlen), Option.getD_some, hlow]
  · rintro ⟨hlen, hbits⟩ s t hs ht hjam
    refine ⟨?_, fun j hj => ?_⟩
    · rw [judged_inverter hs hframe, judged_inverter ht hframe, if_pos ⟨rfl, hlt⟩,
        if_pos ⟨rfl, hlt⟩]
      refine sameStatus_pollStatus (fun i hi => ?_) hjam ?_
      · rw [hs.byte (by omega), ht.byte (by omega)]
      · rw [hs.byte (by omega)]
        exact hbits
    · rw [judged_inverter hs hframe, if_neg fun hand => hj hand.1]

/-- An answer with seven registers, the last of which sets all five bits. -/
def fullAnswer : List U8 :=
  withCrc ([1, 3, 14, 0, 1] ++ List.replicate 11 0x22 ++ [0x1F])

theorem full_answer_determines : Determines 1 fullAnswer :=
  (determines_iff (by decide) (by decide +kernel)).mpr (by decide +kernel)

/-! ## Two runs that end with a short answer -/

theorem answerHeld_iff (k : Nat) (frame : List U8) (s : Station) : AnswerHeld k frame s ↔
    s.logic.commNode.rwFlag = 0 ∧ s.logic.commNode.inverterNo.toNat = k ∧
      s.modbus.uart1RecvCount = frame.length ∧
      ByteMemory.read s.modbus.uart1RecvBuff 0 frame.length = frame :=
  ⟨fun ⟨h1, h2, h3, h4⟩ => ⟨h1, h2, h3, h4⟩, fun ⟨h1, h2, h3, h4⟩ => ⟨h1, h2, h3, h4⟩⟩

instance (k : Nat) (frame : List U8) (s : Station) : Decidable (AnswerHeld k frame s) :=
  decidable_of_iff' _ (answerHeld_iff k frame s)

/-- A poll of inverter 1 goes out, and the answer is on the line until the gap behind it. -/
def pollInputs (answer : List U8) : List Input :=
  [.msoneProcess 0, .modbusComm fun _ => 0] ++ idleTicks 20 ++ [.modbusComm fun _ => 0] ++
    answer.map Input.usart1Irq ++ idleTicks 5

/-- The next poll, half a second later. -/
def awaiting (answer : List U8) (s : Station) : Station :=
  run step (coast 501 s) (pollInputs answer)

/-- The poll of before is judged, and the next one is answered. -/
def awaitingNext (answer : List U8) (s : Station) : Station :=
  awaiting answer (step s (.modbusComm fun _ => 0))

theorem reachable_awaiting {s : Station} (h : Reachable (fun _ _ => True) s) (hrest : Resting s)
    (hcount : Counting s) (answer : List U8) :
    Reachable (fun _ _ => True) (awaiting answer s) := by
  unfold awaiting
  rw [← run_idleTicks hrest hcount]
  have hidle : Reachable (fun _ _ => True) (run step s (idleTicks 501)) :=
    Reach.run_of_along h (Along.of_forall (fun _ _ => trivial) _ _)
  exact Reach.run_of_along hidle (Along.of_forall (fun _ _ => trivial) _ _)

/-- An answer of four bytes. -/
def shortAnswer : List U8 := withCrc [1, 3]

/-- Slave 2 with one belt, after the four bytes that answer its first poll. -/
def firstShort : Station := awaiting shortAnswer (boot oneBeltFlash 2)

/-- The same, when an answer with all seven registers came before. -/
def secondShort : Station := awaitingNext shortAnswer (awaiting fullAnswer (boot oneBeltFlash 2))

/-- Both stations accept the four bytes, and record what is behind them in the buffer. -/
theorem short_answer_reads_leftovers :
    (Reachable (fun _ _ => True) firstShort ∧ Reachable (fun _ _ => True) secondShort) ∧
      (AnswerHeld 1 shortAnswer firstShort ∧ AnswerHeld 1 shortAnswer secondShort) ∧
      AcceptedAnswer 1 shortAnswer ∧ firstShort.jam 0 = secondShort.jam 0 ∧
      ¬ SameStatus ((judged firstShort).2.inverter 0) ((judged secondShort).2.inverter 0) := by
  have hboot : Reachable (fun _ _ => True) (boot oneBeltFlash 2) := Reach.start ⟨_, _, rfl⟩
  have hquiet : Resting (boot oneBeltFlash 2) ∧ Counting (boot oneBeltFlash 2) ∧
      Resting (step (awaiting fullAnswer (boot oneBeltFlash 2)) (.modbusComm fun _ => 0)) ∧
      Counting (step (awaiting fullAnswer (boot oneBeltFlash 2)) (.modbusComm fun _ => 0)) := by
    decide +kernel
  obtain ⟨hrest, hcount, hrest', hcount'⟩ := hquiet
  have hfirst := reachable_awaiting hboot hrest hcount shortAnswer
  have hjudged := Reach.next (reachable_awaiting hboot hrest hcount fullAnswer)
    (i := .modbusComm fun _ => 0) trivial
  have hsecond := reachable_awaiting hjudged hrest' hcount' shortAnswer
  have hend : (AnswerHeld 1 shortAnswer firstShort ∧ AnswerHeld 1 shortAnswer secondShort) ∧
      AcceptedAnswer 1 shortAnswer ∧ firstShort.jam 0 = secondShort.jam 0 ∧
      ((judged firstShort).2.inverter 0).lineSpeed ≠
        ((judged secondShort).2.inverter 0).lineSpeed := by
    decide +kernel
  obtain ⟨hheld, hframe, hjam, hspeed⟩ := hend
  exact ⟨⟨hfirst, hsecond⟩, hheld, hframe, hjam, fun hsame => hspeed hsame.lineSpeed⟩

end IotCtrl
