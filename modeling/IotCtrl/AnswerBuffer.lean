import IotCtrl.MasterSteps

/-!
# The receive buffer of the Modbus master

`USART1_IRQHandler` stores a byte before it looks at the bound, so that `uart1_recv_count` stays
within the fifty bytes of the buffer while the index it stores at does not.

* `Buffered` — the count and the stored bytes, in every state of a run;
* `buffer_sound_iff` — the interrupt stays inside the buffer exactly while an answer is not
  longer than the buffer; everything else holds for any answer;
* `long_answer_overruns` — an answer of fifty-one bytes.
-/

namespace IotCtrl

open ByteMemory Transition

/-- `UART1_BUFF_SIZE`. -/
def UART1_BUFF_SIZE : Nat := 50

/-- The step puts a frame on the RS-485 bus. -/
def Transmits (e : Station × Input) : Prop := (step e.1 e.2).frames ≠ e.1.frames

instance : DecidablePred Transmits := fun _ => inferInstanceAs (Decidable (_ ≠ _))

/-- The byte that a step receives. -/
def receivedByte (e : Station × Input) : Option U8 :=
  match e.2 with
  | .usart1Irq tmp => if e.1.systemReset then none else some tmp
  | _ => none

/-- The bytes received since the last transmission, in their order. -/
def answerBytes (past : Past) : List U8 := ((since Transmits past).filterMap receivedByte).reverse

/-- The index at which the receive interrupt stores its byte. -/
def storeIndex (s : Station) (i : Input) : Option Nat :=
  match i with
  | .usart1Irq _ =>
      if s.systemReset = false ∧ s.modbus.uart1CommuState = .recvData then
        some s.modbus.uart1RecvCount
      else none
  | _ => none

/-- The interrupt writes the buffer at that index and nowhere else. -/
theorem usart1Irq_stores (s : Station) (tmp : U8) :
    (step s (.usart1Irq tmp)).modbus.uart1RecvBuff =
      match storeIndex s (.usart1Irq tmp) with
      | some k => write s.modbus.uart1RecvBuff k [tmp]
      | none => s.modbus.uart1RecvBuff := by
  have hopen : s.systemReset = false ∧ s.modbus.uart1CommuState = .recvData ↔
      ¬ s.systemReset = true ∧ s.modbus.uart1CommuState = .recvData := by
    rw [Bool.not_eq_true]
  unfold storeIndex
  dsimp only
  rw [if_congr hopen rfl rfl]
  unfold step
  by_cases hreset : s.systemReset = true
  · rw [if_pos hreset, if_neg fun h => h.1 hreset]
  · rw [if_neg hreset, if_congr (and_iff_right hreset) rfl rfl]
    show (usart1IrqHandler tmp s).modbus.uart1RecvBuff = _
    unfold usart1IrqHandler
    dsimp only
    split_ifs <;> rfl

/-- The step stores inside the buffer, the count stays within it, and an answer that is handed
over begins with the bytes received. -/
structure BufferSound (past : Past) (s : Station) (i : Input) : Prop where
  index : ∀ k ∈ storeIndex s i, k < UART1_BUFF_SIZE
  count : (step s i).modbus.uart1RecvCount ≤ UART1_BUFF_SIZE
  answer : verdict s i ≠ none →
    read s.modbus.uart1RecvBuff 0 s.modbus.uart1RecvCount =
      (answerBytes past).take s.modbus.uart1RecvCount

/-- A byte that is stored is at most the fiftieth since the last transmission. -/
def ShortAnswer (past : Past) (s : Station) (i : Input) : Prop :=
  storeIndex s i ≠ none → (answerBytes past).length < UART1_BUFF_SIZE

instance (past : Past) (s : Station) (i : Input) : Decidable (ShortAnswer past s i) :=
  inferInstanceAs (Decidable (_ → _))

/-! ## The bytes of an answer -/

theorem receivedByte_eq_some {s : Station} {i : Input} {tmp : U8}
    (h : receivedByte (s, i) = some tmp) : i = .usart1Irq tmp ∧ s.systemReset = false := by
  cases i with
  | usart1Irq tmp' =>
      unfold receivedByte at h
      dsimp only at h
      split_ifs at h with hreset
      exact ⟨congrArg Input.usart1Irq (Option.some.inj h), by simpa using hreset⟩
  | _ => cases h

section AnswerBytes

variable {e : Station × Input} {past : Past}

theorem answerBytes_transmits (h : Transmits e) : answerBytes (e :: past) = [] := by
  unfold answerBytes
  rw [since_cons_of h]
  rfl

theorem answerBytes_silent (h : ¬ Transmits e) (hnone : receivedByte e = none) :
    answerBytes (e :: past) = answerBytes past := by
  unfold answerBytes
  rw [since_cons_not h, List.filterMap_cons_none hnone]

theorem answerBytes_byte (h : ¬ Transmits e) {tmp : U8} (hsome : receivedByte e = some tmp) :
    answerBytes (e :: past) = answerBytes past ++ [tmp] := by
  unfold answerBytes
  rw [since_cons_not h, List.filterMap_cons_some hsome, List.reverse_cons]

/-- A step that does not transmit can only make the answer longer. -/
theorem answerBytes_grows (h : ¬ Transmits e) :
    ∃ bytes, answerBytes (e :: past) = answerBytes past ++ bytes := by
  cases hbyte : receivedByte e with
  | none => exact ⟨[], by rw [answerBytes_silent h hbyte, List.append_nil]⟩
  | some tmp => exact ⟨[tmp], answerBytes_byte h hbyte⟩

end AnswerBytes

/-! ## The invariant -/

/-- The count follows the answer up to the size of the buffer while the receive window is
open, and the buffer begins with the bytes that were counted. -/
structure Buffered (past : Past) (s : Station) : Prop where
  count_le : s.modbus.uart1RecvCount ≤ UART1_BUFF_SIZE
  window : s.modbus.uart1CommuState = .recvData →
    s.modbus.uart1RecvCount = min UART1_BUFF_SIZE (answerBytes past).length
  answer : read s.modbus.uart1RecvBuff 0 s.modbus.uart1RecvCount =
    (answerBytes past).take s.modbus.uart1RecvCount

namespace Buffered

variable {past : Past} {s t : Station} {i : Input}

/-- Nothing was received. -/
theorem empty (hcount : t.modbus.uart1RecvCount = 0)
    (hwindow : t.modbus.uart1CommuState = .recvData → answerBytes past = []) : Buffered past t := by
  refine ⟨?_, ?_, ?_⟩
  · rw [hcount]
    exact Nat.zero_le _
  · intro hrecv
    rw [hcount, hwindow hrecv]
    rfl
  · rw [hcount]
    rfl

/-- No more bytes were counted than received. -/
theorem count_le_length (h : Buffered past s) :
    s.modbus.uart1RecvCount ≤ (answerBytes past).length := by
  have hlen := congrArg List.length h.answer
  rw [length_read, List.length_take] at hlen
  omega

/-- A step that stores nothing. -/
theorem deaf (h : Buffered past s) (hbus : SameBus s t)
    (hwindow : t.modbus.uart1CommuState = .recvData → s.modbus.uart1CommuState = .recvData ∧
      answerBytes ((s, i) :: past) = answerBytes past)
    (hsilent : ¬ Transmits (s, i)) : Buffered ((s, i) :: past) t := by
  obtain ⟨bytes, hbytes⟩ := @answerBytes_grows (s, i) past hsilent
  refine ⟨hbus.count ▸ h.count_le, ?_, ?_⟩
  · intro hrecv
    obtain ⟨hopen, hsame⟩ := hwindow hrecv
    rw [hbus.count, hsame]
    exact h.window hopen
  · rw [hbus.buff, hbus.count, hbytes, List.take_append_of_le_length h.count_le_length]
    exact h.answer

/-- A byte in the receive window. -/
theorem store (h : Buffered past s) (hrecv : s.modbus.uart1CommuState = .recvData) {tmp : U8}
    (hbuff : t.modbus.uart1RecvBuff = write s.modbus.uart1RecvBuff s.modbus.uart1RecvCount [tmp])
    (hcount : t.modbus.uart1RecvCount =
      if s.modbus.uart1RecvCount < 50 then s.modbus.uart1RecvCount + 1
      else s.modbus.uart1RecvCount)
    (hbytes : answerBytes ((s, i) :: past) = answerBytes past ++ [tmp]) :
    Buffered ((s, i) :: past) t := by
  have hwindow := h.window hrecv
  have hle := h.count_le
  unfold UART1_BUFF_SIZE at hwindow hle
  by_cases hroom : s.modbus.uart1RecvCount < 50
  · have hlen : s.modbus.uart1RecvCount = (answerBytes past).length := by omega
    have hcount' : t.modbus.uart1RecvCount = (answerBytes past).length + 1 := by
      rw [hcount, if_pos hroom, hlen]
    have hprefix : read s.modbus.uart1RecvBuff 0 s.modbus.uart1RecvCount = answerBytes past := by
      rw [h.answer, hlen, List.take_length]
    refine ⟨?_, fun _ => ?_, ?_⟩
    · unfold UART1_BUFF_SIZE
      omega
    · rw [hbytes, List.length_append, List.length_singleton]
      unfold UART1_BUFF_SIZE
      omega
    · have hwritten : read t.modbus.uart1RecvBuff 0 t.modbus.uart1RecvCount =
          read s.modbus.uart1RecvBuff 0 s.modbus.uart1RecvCount ++ [tmp] := by
        rw [hbuff, hcount, if_pos hroom]
        exact read_write_append s.modbus.uart1RecvBuff s.modbus.uart1RecvCount [tmp]
      rw [hwritten, hprefix, hbytes, hcount', List.take_of_length_le (by simp)]
  · have hcount' : t.modbus.uart1RecvCount = s.modbus.uart1RecvCount := by
      rw [hcount, if_neg hroom]
    have hkept : read t.modbus.uart1RecvBuff 0 t.modbus.uart1RecvCount =
        read s.modbus.uart1RecvBuff 0 s.modbus.uart1RecvCount := by
      rw [hbuff, hcount']
      refine read_congr fun k hk => ?_
      rw [Nat.zero_add]
      exact write_of_lt _ _ hk
    refine ⟨hcount' ▸ h.count_le, fun _ => ?_, ?_⟩
    · rw [hcount', hbytes, List.length_append, List.length_singleton]
      unfold UART1_BUFF_SIZE
      omega
    · rw [hkept, h.answer, hbytes, hcount', List.take_append_of_le_length h.count_le_length]

end Buffered

/-- **One step.** -/
theorem step_buffered {past : Past} {s : Station} (h : Buffered past s) (htimers : TimerInv s)
    (i : Input) : Buffered ((s, i) :: past) (step s i) := by
  have hmaster := step_master htimers i
  have hsilent : (step s i).frames = s.frames → ¬ Transmits (s, i) := fun hsame h => h hsame
  generalize ht : step s i = t at hmaster hsilent ⊢
  cases hmaster with
  | beside i t hflight hwindow hbus hframes hdeaf hverdict =>
      refine h.deaf hbus (fun hrecv => ⟨hwindow hrecv, ?_⟩) (hsilent hframes)
      cases hbyte : receivedByte (s, i) with
      | none => exact answerBytes_silent (hsilent hframes) hbyte
      | some tmp =>
          obtain ⟨rfl, hrun⟩ := receivedByte_eq_some hbyte
          rcases hdeaf tmp rfl with hreset | hclosed
          · rw [hrun] at hreset
            cases hreset
          · exact absurd (hwindow hrecv) hclosed
  | byte tmp t hrun hrecv hflight hout hsta hbuff hcount hframes =>
      refine h.store hrecv hbuff hcount (answerBytes_byte (hsilent hframes) ?_)
      exact if_neg (by simp [hrun])
  | take stack t hidle hready hbus hframes =>
      refine h.deaf hbus (fun hrecv => ?_) (hsilent hframes)
      rw [hready] at hrecv
      cases hrecv
  | send stack t frame built hrun hbusy hsend hbuild hnode hstate hout hsta hbuff hcount hframes =>
      refine Buffered.empty hcount fun _ => answerBytes_transmits ?_
      show (step s (.modbusComm stack)).frames ≠ s.frames
      rw [ht, hframes]
      exact List.cons_ne_self frame s.frames
  | judge stack t hrun hbusy hend hopen hstate hout hsta hbuff hcount hframes =>
      exact Buffered.empty hcount fun hrecv => absurd hrecv hstate

/-- **Every run.** -/
theorem trails_buffered {ok : Station → Input → Prop} {past : Past} {s : Station}
    (h : Trails ok past s) : Buffered past s := by
  induction h with
  | start hboot =>
      obtain ⟨flash, localStation, rfl⟩ := hboot
      have hpanel := boot_panel flash localStation
      exact Buffered.empty (congrArg Panel.uart1RecvCount hpanel) fun _ => rfl
  | next h hok ih => exact step_buffered ih (reachable_timerInv h.reach) _

/-- **The receive buffer.**  In every run, the next step stores inside the buffer, keeps the
count within it and hands over what was received if and only if the byte it stores, if any, is
at most the fiftieth since the last transmission. -/
theorem buffer_sound_iff {past : Past} {s : Station} (h : Trails (fun _ _ => True) past s)
    (i : Input) : BufferSound past s i ↔ ShortAnswer past s i := by
  have hbuffered := trails_buffered h
  have hnext := step_buffered hbuffered (reachable_timerInv h.reach) i
  have hindex : ∀ k ∈ storeIndex s i, k = min UART1_BUFF_SIZE (answerBytes past).length := by
    intro k hk
    cases i with
    | usart1Irq tmp =>
        unfold storeIndex at hk
        dsimp only at hk
        split_ifs at hk with hopen
        · rw [← hbuffered.window hopen.2]
          exact (Option.some.inj hk).symm
        · cases hk
    | _ => cases hk
  constructor
  · intro hsound hstores
    obtain ⟨k, hk⟩ := Option.ne_none_iff_exists'.mp hstores
    have hlt := hsound.index k hk
    have heq := hindex k hk
    omega
  · intro hshort
    refine ⟨fun k hk => ?_, hnext.count_le, fun _ => hbuffered.answer⟩
    have hlt := hshort (by rw [hk]; exact Option.some_ne_none k)
    have heq := hindex k hk
    omega

/-! ## Two answers -/

/-- Slave 2 with one belt is started, and its first frame was sent. -/
def firstFrame : List Input :=
  [.canFrame (startFrame 2), .modbusComm fun _ => 0] ++ idleTicks 1 ++ [.modbusComm fun _ => 0]

/-- The station behind an answer to that frame. -/
def answeredBy (bytes : List U8) : Station :=
  run step (boot oneBeltFlash 2) (firstFrame ++ bytes.map Input.usart1Irq)

def answeredPast (bytes : List U8) : Past :=
  passed step [] (boot oneBeltFlash 2) (firstFrame ++ bytes.map Input.usart1Irq)

theorem answeredBy_trail (bytes : List U8) :
    Trails (fun _ _ => True) (answeredPast bytes) (answeredBy bytes) :=
  trail_run ⟨_, _, rfl⟩ (Along.of_forall (fun _ _ => trivial) _ _)

/-- The fourth byte of an answer. -/
theorem short_answer_stored : BufferSound (answeredPast [1, 0x10, 0]) (answeredBy [1, 0x10, 0])
    (.usart1Irq 0) :=
  (buffer_sound_iff (answeredBy_trail _) _).mpr (by decide +kernel)

/-- The fifty-first byte is stored behind the buffer. -/
theorem long_answer_overruns :
    Trails (fun _ _ => True) (answeredPast (List.replicate 50 0))
        (answeredBy (List.replicate 50 0)) ∧
      storeIndex (answeredBy (List.replicate 50 0)) (.usart1Irq 0) = some 50 ∧
      ¬ BufferSound (answeredPast (List.replicate 50 0)) (answeredBy (List.replicate 50 0))
        (.usart1Irq 0) := by
  have hindex : storeIndex (answeredBy (List.replicate 50 0)) (.usart1Irq 0) = some 50 := by
    decide +kernel
  exact ⟨answeredBy_trail _, hindex, fun h => absurd (h.index 50 hindex) (by decide)⟩

end IotCtrl
