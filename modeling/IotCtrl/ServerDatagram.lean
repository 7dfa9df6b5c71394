import IotCtrl.CanSegment
import IotCtrl.LineCommand

/-!
# Datagrams and what lies behind them

The receive buffer is never cleared, so behind the bytes of a datagram lie those of
earlier ones.  `OwnEffect` asks that they do not matter: two buffers that agree on
the datagram lead from the same state to the same verdict and the same state.

The checker and the commands read fixed offsets before, or without, comparing them
with the length.  `SelfContained` says when that does no harm.

* `recvMsgCheck_congr`, `recvMsgProcess_congr` — what the checker and a command
  depend on;
* `canFramesOf_inj` — different messages give different frames;
* `datagram_effect_iff` — a datagram has an effect of its own exactly when it is
  self-contained;
* `stale_gear` — a start command that ends before its gear.
-/

namespace IotCtrl

open ByteMemory

/-- A datagram that fits the receive buffer. -/
structure Datagram where
  bytes : List U8
  bytes_le : bytes.length ≤ 300

namespace Datagram

variable (d : Datagram)

def length : Nat := d.bytes.length

theorem length_le : d.length ≤ 300 := d.bytes_le

/-- The byte at an offset of the datagram. -/
def byte (i : Nat) : U8 := d.bytes.getD i 0

/-- The receive buffer that holds the datagram, with `rest` left over from before. -/
def inBuffer (rest : Mem) : Mem := prepend d.bytes rest

/-- The effect of a datagram depends on the datagram alone. -/
def OwnEffect : Prop :=
  ∀ (s : Station) (rest rest' : Mem),
    recvMsgCheck (d.inBuffer rest) d.length = recvMsgCheck (d.inBuffer rest') d.length ∧
      recvMessageFromServer (d.inBuffer rest) d.length s =
        recvMessageFromServer (d.inBuffer rest') d.length s

/-- The bytes of the datagram alone show that it is rejected. -/
def Refuted : Prop :=
  (0 < d.length ∧ d.byte 0 ≠ 0xAA) ∨ (1 < d.length ∧ d.byte 1 ≠ 0xAA) ∨
    (6 < d.length ∧ d.byte 6 ≠ lo (BitVec.ofNat 16 d.length)) ∨
    (7 < d.length ∧ d.byte 7 ≠ hi (BitVec.ofNat 16 d.length)) ∨
    (10 ≤ d.length ∧ xorFold (d.byte 9) (d.bytes.drop 10) ≠ d.byte 8)

end Datagram

/-- The low bytes of the message types that `recv_msg_process` acts on. -/
def commandLowBytes : List U8 := [0x01, 0x03, 0x04, 0x10, 0x11, 0x12]

/-- How many bytes of a datagram its command reads. -/
def bytesRead (type : U16) : Nat :=
  if type = RECV_MSG_WRITE_PARA_CMD_TYPE then 243
  else if type = RECV_MSG_READ_PARA_CMD_TYPE ∨ type = RECV_MSG_START_CMD_TYPE ∨
      type = RECV_MSG_FUNC_SELECT_CMD_TYPE then 12
  else 11

/-- All that is read of the datagram lies in it, or is not acted on. -/
def Datagram.SelfContained (d : Datagram) : Prop :=
  d.Refuted ∨ (d.length = 10 ∧ d.byte 9 ∉ commandLowBytes) ∨
    (11 ≤ d.length ∧ bytesRead (le16 (d.byte 9) (d.byte 10)) ≤ d.length)

/-! ## What the checker and the commands depend on -/

/-- Two buffers hold the same `n` bytes. -/
def AgreeBelow (n : Nat) (m m' : Mem) : Prop := ∀ i, i < n → m i = m' i

theorem Datagram.inBuffer_byte (d : Datagram) (rest : Mem) {i : Nat} (h : i < d.length) :
    d.inBuffer rest i = d.byte i := by
  have hi : i < d.bytes.length := h
  rw [inBuffer, prepend_of_lt hi, byte]
  simp [hi]

theorem Datagram.inBuffer_behind (d : Datagram) (rest : Mem) {i : Nat} (h : d.length ≤ i) :
    d.inBuffer rest i = rest i :=
  prepend_of_le h

theorem Datagram.agreeBelow (d : Datagram) (rest rest' : Mem) :
    AgreeBelow d.length (d.inBuffer rest) (d.inBuffer rest') := by
  intro i hi
  rw [d.inBuffer_byte rest hi, d.inBuffer_byte rest' hi]

theorem AgreeBelow.read {n off len : Nat} {m m' : Mem} (h : AgreeBelow n m m')
    (hlen : off + len ≤ n) : read m off len = read m' off len :=
  read_congr fun i hi => h (off + i) (by omega)

/-- From ten bytes on the checker looks at the datagram only. -/
theorem recvMsgCheck_congr {m m' : Mem} {len : Nat} (hlen : 10 ≤ len)
    (h : AgreeBelow len m m') : recvMsgCheck m len = recvMsgCheck m' len := by
  have hread : ByteMemory.read m 10 (len - 10) = ByteMemory.read m' 10 (len - 10) :=
    h.read (by omega)
  unfold recvMsgCheck
  rw [h 0 (by omega), h 1 (by omega), h 6 (by omega), h 7 (by omega), h 8 (by omega),
    h 9 (by omega), hread]

theorem writeUserParas_congr {para para' : Nat → U16}
    (h : ∀ i, i < USER_PARA_DATA_LEN → para i = para' i) (s : Station) :
    writeUserParas para s = writeUserParas para' s := by
  have hpage : (fun i => if i < USER_PARA_DATA_LEN then para i else 0xFFFF) =
      fun i => if i < USER_PARA_DATA_LEN then para' i else 0xFFFF := by
    funext i
    split_ifs with hi
    · exact h i hi
    · rfl
  unfold writeUserParas
  rw [hpage]

/-- A command reads no further than `bytesRead`. -/
theorem recvMsgProcess_congr {m m' : Mem} {n : Nat} (hn : 11 ≤ n)
    (hread : bytesRead (msgType m) ≤ n) (h : AgreeBelow n m m') (s : Station) :
    recvMsgProcess m s = recvMsgProcess m' s := by
  have htype : msgType m' = msgType m :=
    (wordAt_congr (h 9 (by omega)) (h 10 (by omega))).symm
  have hbyte : msgType m = RECV_MSG_READ_PARA_CMD_TYPE ∨ msgType m = RECV_MSG_START_CMD_TYPE ∨
      msgType m = RECV_MSG_FUNC_SELECT_CMD_TYPE → m 11 = m' 11 := by
    intro hsel
    refine h 11 (lt_of_lt_of_le (by decide : 11 < 12) (le_trans ?_ hread))
    unfold bytesRead
    split_ifs <;> omega
  have hpara : msgType m = RECV_MSG_WRITE_PARA_CMD_TYPE →
      recvWritePara m s = recvWritePara m' s := by
    intro hw
    rw [bytesRead, if_pos hw] at hread
    have hblock : UserParas.ofBytes m 11 = UserParas.ofBytes m' 11 :=
      UserParas.ofBytes_congr fun i hi => h (11 + i) (by unfold UserParas.byteCount at hi; omega)
    have hpage : ∀ t, writeUserParas (fun i => wordAt m (17 + 2 * i)) t =
        writeUserParas (fun i => wordAt m' (17 + 2 * i)) t := fun t =>
      writeUserParas_congr (fun i hi => by
        unfold USER_PARA_DATA_LEN at hi
        exact wordAt_congr (h _ (by omega)) (h _ (by omega))) t
    unfold recvWritePara
    simp only [hblock, hpage]
  unfold recvMsgProcess
  rw [htype]
  refine ite_congr rfl (fun _ => rfl) fun _ => ?_
  refine ite_congr rfl (fun hr => by rw [hbyte (Or.inl hr)]) fun _ => ?_
  refine ite_congr rfl hpara fun _ => ?_
  refine ite_congr rfl (fun hs => by rw [hbyte (Or.inr (Or.inl hs))]) fun _ => ?_
  refine ite_congr rfl (fun _ => rfl) fun _ => ?_
  exact ite_congr rfl (fun hf => by rw [hbyte (Or.inr (Or.inr hf))]) fun _ => rfl

/-! ## The verdict on a datagram -/

theorem le16_eq_iff {l h : U8} {w : U16} : le16 l h = w ↔ l = lo w ∧ h = hi w := by
  constructor
  · rintro rfl
    exact ⟨(lo_le16 l h).symm, (hi_le16 l h).symm⟩
  · rintro ⟨rfl, rfl⟩
    exact le16_lo_hi w

/-- The four tests of `recv_msg_check`. -/
theorem recvMsgCheck_eq_true_iff {m : Mem} {len : Nat} (hlen : len ≤ 300) :
    recvMsgCheck m len = true ↔ m 0 = 0xAA ∧ m 1 = 0xAA ∧
      (m 6 = lo (BitVec.ofNat 16 len) ∧ m 7 = hi (BitVec.ofNat 16 len)) ∧
      xorFold (m 9) (ByteMemory.read m 10 (len - 10)) = m 8 := by
  have hword : (le16 (m 6) (m 7)).toNat = len ↔
      m 6 = lo (BitVec.ofNat 16 len) ∧ m 7 = hi (BitVec.ofNat 16 len) := by
    rw [← le16_eq_iff]
    constructor
    · intro h
      rw [← h, BitVec.ofNat_toNat, BitVec.setWidth_eq]
    · intro h
      rw [h, BitVec.toNat_ofNat]
      omega
  rw [← hword]
  unfold recvMsgCheck
  split_ifs with hhead hfield hsum
  · refine iff_of_false id ?_
    rintro ⟨h0, h1, -⟩
    exact hhead.elim (fun h => h h0) (fun h => h h1)
  · exact iff_of_false id fun h => hfield h.2.2.1
  · exact iff_of_false id fun h => hsum h.2.2.2
  · obtain ⟨h0, h1⟩ := not_or.mp hhead
    exact iff_of_true rfl ⟨not_not.mp h0, not_not.mp h1, not_not.mp hfield, not_not.mp hsum⟩

namespace Datagram

variable {d : Datagram}

/-- The checksum is taken over the datagram. -/
theorem sum_inBuffer (hlen : 10 ≤ d.length) (rest : Mem) :
    xorFold (d.inBuffer rest 9) (ByteMemory.read (d.inBuffer rest) 10 (d.length - 10)) =
      xorFold (d.byte 9) (d.bytes.drop 10) := by
  rw [d.inBuffer_byte rest (by omega)]
  congr 1
  apply List.ext_getElem
  · simp [Datagram.length]
  · intro i h₁ h₂
    rw [getElem_read, List.getElem_drop, inBuffer, prepend_of_lt]

/-- A refuted datagram is rejected whatever lies behind it. -/
theorem Refuted.rejected (h : d.Refuted) (rest : Mem) :
    recvMsgCheck (d.inBuffer rest) d.length = false := by
  rw [← Bool.not_eq_true, recvMsgCheck_eq_true_iff d.length_le]
  rintro ⟨h0, h1, ⟨h6, h7⟩, hsum⟩
  have hbyte := fun {i} (hi : i < d.length) => d.inBuffer_byte rest hi
  rcases h with ⟨hi, h⟩ | ⟨hi, h⟩ | ⟨hi, h⟩ | ⟨hi, h⟩ | ⟨hi, h⟩
  · exact h ((hbyte hi).symm.trans h0)
  · exact h ((hbyte hi).symm.trans h1)
  · exact h ((hbyte hi).symm.trans h6)
  · exact h ((hbyte hi).symm.trans h7)
  · refine h ((sum_inBuffer hi rest).symm.trans (hsum.trans (hbyte ?_)))
    omega

/-- From ten bytes on, a datagram that is not refuted is accepted. -/
theorem accepted (hlen : 10 ≤ d.length) (h : ¬ d.Refuted) (rest : Mem) :
    recvMsgCheck (d.inBuffer rest) d.length = true := by
  simp only [Refuted, not_or, not_and, not_not] at h
  obtain ⟨h0, h1, h6, h7, hsum⟩ := h
  rw [recvMsgCheck_eq_true_iff d.length_le, sum_inBuffer hlen]
  have hbyte := fun {i} (hi : i < d.length) => d.inBuffer_byte rest hi
  refine ⟨?_, ?_, ⟨?_, ?_⟩, ?_⟩
  · exact (hbyte (by omega)).trans (h0 (by omega))
  · exact (hbyte (by omega)).trans (h1 (by omega))
  · exact (hbyte (by omega)).trans (h6 (by omega))
  · exact (hbyte (by omega)).trans (h7 (by omega))
  · exact (hsum hlen).trans (hbyte (by omega)).symm

/-- Bytes that complete a datagram of at most nine bytes to one that is accepted. -/
def completion (d : Datagram) : Mem := fun i =>
  if i = 0 ∨ i = 1 then 0xAA
  else if i = 6 then lo (BitVec.ofNat 16 d.length)
  else if i = 7 then hi (BitVec.ofNat 16 d.length)
  else if i = 9 then (if 8 < d.length then d.byte 8 else 0)
  else 0

/-- Up to nine bytes, what lies behind a datagram that is not refuted decides whether
it is accepted. -/
theorem verdict_open (hlen : d.length ≤ 9) (h : ¬ d.Refuted) :
    ∃ rest rest', recvMsgCheck (d.inBuffer rest) d.length ≠
      recvMsgCheck (d.inBuffer rest') d.length := by
  simp only [Refuted, not_or, not_and, not_not] at h
  obtain ⟨h0, h1, h6, h7, -⟩ := h
  have hsum : ∀ m : Mem, xorFold (m 9) (ByteMemory.read m 10 (d.length - 10)) = m 9 := by
    intro m
    rw [show d.length - 10 = 0 by omega]
    rfl
  have hat : ∀ (rest : Mem) (i : Nat), d.inBuffer rest i =
      if i < d.length then d.byte i else rest i := by
    intro rest i
    split_ifs with hi
    · exact d.inBuffer_byte rest hi
    · exact d.inBuffer_behind rest (by omega)
  have haccept : recvMsgCheck (d.inBuffer d.completion) d.length = true := by
    rw [recvMsgCheck_eq_true_iff d.length_le, hsum]
    refine ⟨?_, ?_, ⟨?_, ?_⟩, ?_⟩
    all_goals rw [hat]
    · split_ifs with hi
      · exact h0 hi
      · rfl
    · split_ifs with hi
      · exact h1 hi
      · rfl
    · split_ifs with hi
      · exact h6 hi
      · rfl
    · split_ifs with hi
      · exact h7 hi
      · rfl
    · rw [if_neg (by omega), hat]
      rfl
  have hreject : recvMsgCheck
      (d.inBuffer (Function.update d.completion 9 (d.completion 9 + 1))) d.length = false := by
    rw [← Bool.not_eq_true, recvMsgCheck_eq_true_iff d.length_le, hsum]
    rintro ⟨-, -, -, hsum9⟩
    have haccept9 := ((recvMsgCheck_eq_true_iff d.length_le).mp haccept).2.2.2
    rw [hat, if_neg (by omega), Function.update_self] at hsum9
    rw [hsum, hat, if_neg (by omega)] at haccept9
    have hsame : d.inBuffer (Function.update d.completion 9 (d.completion 9 + 1)) 8 =
        d.inBuffer d.completion 8 := by
      rw [hat, hat, Function.update_of_ne (by decide)]
    rw [hsame, ← haccept9] at hsum9
    bv_omega
  refine ⟨d.completion, Function.update d.completion 9 (d.completion 9 + 1), fun heq => ?_⟩
  rw [haccept, hreject] at heq
  exact absurd heq (by decide)

end Datagram

/-! ## What a command leaves on the bus -/

/-- A message queued by a station with nothing queued. -/
theorem canFrames_canBusSendMsg {s : Station} (hs : s.canFrames = []) {pbuf : List U8}
    (hlen : pbuf.length ≤ 300) (funcId srcId : U8) :
    (canBusSendMsg pbuf funcId srcId s).canFrames = canFramesOf pbuf funcId srcId := by
  have hroom :
      s.can.canSendQueue.contents.length + (canFramesOf pbuf funcId srcId).length < 50 := by
    have hzero : s.can.canSendQueue.contents = [] := hs
    rw [hzero, length_canFramesOf, List.length_nil]
    omega
  have hall := RingFifo.contents_addAll_of_room hroom
  rw [canBusSendMsg_eq]
  exact hall.trans (by rw [show s.can.canSendQueue.contents = [] from hs, List.nil_append])

/-- A write request for another station is sent on. -/
theorem canFrames_recvWritePara {m : Mem} {s : Station} (hs : s.canFrames = [])
    (hother : (UserParas.ofBytes m 11).stationNo ≠ s.main.localStation.setWidth 16) :
    (recvWritePara m s).canFrames =
      canFramesOf (paraMsg 0x02 (ByteMemory.read (UserParas.ofBytes m 11).byte 0 232))
        CAN_FUNC_ID_PARA_DATA (lo (UserParas.ofBytes m 11).stationNo) := by
  rw [recvWritePara_remote hother]
  have hlen :
      (paraMsg 0x02 (ByteMemory.read (UserParas.ofBytes m 11).byte 0 232)).length ≤ 300 := by
    simp [paraMsg]
  have htemp : (setParasTemp (UserParas.ofBytes m 11) s).canFrames = [] := hs
  exact canFrames_canBusSendMsg htemp hlen _ _

/-- The message types that `recv_msg_process` acts on. -/
def commandTypes : List U16 :=
  [RECV_MSG_BOOT_CMD_TYPE, RECV_MSG_READ_PARA_CMD_TYPE, RECV_MSG_WRITE_PARA_CMD_TYPE,
    RECV_MSG_START_CMD_TYPE, RECV_MSG_RESET_CMD_TYPE, RECV_MSG_FUNC_SELECT_CMD_TYPE]

theorem recvMsgProcess_other {m : Mem} (h : msgType m ∉ commandTypes) (s : Station) :
    recvMsgProcess m s = s := by
  simp only [commandTypes, List.mem_cons, List.not_mem_nil, or_false, not_or] at h
  obtain ⟨hboot, hread, hwrite, hstart, hreset, hselect⟩ := h
  unfold recvMsgProcess
  rw [if_neg hboot, if_neg hread, if_neg hwrite, if_neg hstart, if_neg hreset, if_neg hselect]

/-- A command for another station resets the controller or queues frames. -/
theorem recvMsgProcess_acts {m : Mem} {s : Station} (hs : s.canFrames = [])
    (h11 : m 11 ≠ s.main.localStation)
    (hother : (UserParas.ofBytes m 11).stationNo ≠ s.main.localStation.setWidth 16)
    (h : msgType m ∈ commandTypes) :
    (recvMsgProcess m s).systemReset = true ∨ (recvMsgProcess m s).canFrames ≠ [] := by
  have hsend : ∀ {t : Station}, t.canFrames = [] → ∀ {pbuf : List U8}, pbuf.length ≤ 300 →
      ∀ f src, (canBusSendMsg pbuf f src t).canFrames ≠ [] := by
    intro t ht pbuf hlen f src
    rw [canFrames_canBusSendMsg ht hlen]
    exact canFramesOf_ne_nil _ _ _
  unfold recvMsgProcess
  split_ifs with hboot hread hwrite hstart hreset hselect
  · exact Or.inl rfl
  · exact Or.inr (hsend hs (by simp [paraMsg]) _ _)
  · rw [canFrames_recvWritePara hs hother]
    exact Or.inr (canFramesOf_ne_nil _ _ _)
  · exact Or.inr (hsend (by rw [Station.canFrames, speedCtrlProcess_can]; exact hs) (by simp) _ _)
  · exact Or.inr (hsend ((resetCtrlHandle_quiet s).keeps.canFrames.trans hs) (by simp) _ _)
  · have hflag : (setBlockDisable (m 11) s).canFrames = [] := hs
    exact Or.inr (hsend hflag (by simp) _ _)
  · simp [commandTypes, *] at h

/-! ## Datagrams that need what lies behind them -/

namespace Datagram

variable {d : Datagram}

/-- The effect of an accepted datagram is that of its command. -/
theorem effect_of_accepted (hlen : 10 ≤ d.length) (h : ¬ d.Refuted) (rest : Mem) (s : Station) :
    recvMessageFromServer (d.inBuffer rest) d.length s = recvMsgProcess (d.inBuffer rest) s := by
  unfold recvMessageFromServer
  rw [accepted hlen h]
  rfl

/-- The high byte that makes a command of a low byte. -/
def commandHigh (low : U8) : U8 := if low = 0x01 then 0x1F else 0x16

theorem commandHigh_mem : ∀ low ∈ commandLowBytes, le16 low (commandHigh low) ∈ commandTypes := by
  decide

theorem low_not_mem (low : U8) : le16 low 0 ∉ commandTypes := by
  intro hmem
  have hhi := hi_le16 low 0
  simp only [commandTypes, List.mem_cons, List.not_mem_nil, or_false] at hmem
  rcases hmem with h | h | h | h | h | h
  all_goals
    rw [h] at hhi
    exact absurd hhi (by decide)

theorem other_not_mem {low : U8} (hlow : low ∉ commandLowBytes) (high : U8) :
    le16 low high ∉ commandTypes := by
  intro hmem
  have hlo := lo_le16 low high
  simp only [commandTypes, List.mem_cons, List.not_mem_nil, or_false] at hmem
  rcases hmem with h | h | h | h | h | h
  all_goals
    rw [h] at hlo
    exact hlow (hlo ▸ by decide)

theorem msgType_inBuffer (rest : Mem) (hlen : 10 ≤ d.length) :
    msgType (d.inBuffer rest) = le16 (d.byte 9) (d.inBuffer rest 10) := by
  rw [msgType, wordAt, d.inBuffer_byte rest (by omega)]

/-- Ten bytes: what lies behind decides whether there is a command at all. -/
theorem command_open (hlen : d.length = 10) (h : ¬ d.Refuted)
    (hlow : d.byte 9 ∈ commandLowBytes) : ¬ d.OwnEffect := by
  intro hown
  let high : Mem := Function.update (fun _ => 0) 10 (commandHigh (d.byte 9))
  let zero : Mem := fun _ => 0
  have heq := (hown (boot zeroFlash 1) high zero).2
  rw [effect_of_accepted (by omega) h, effect_of_accepted (by omega) h] at heq
  have hbehind := fun (rest : Mem) {i} (hi : 10 ≤ i) =>
    d.inBuffer_behind rest (show d.length ≤ i by omega)
  have hnone : recvMsgProcess (d.inBuffer zero) (boot zeroFlash 1) = boot zeroFlash 1 := by
    refine recvMsgProcess_other ?_ _
    rw [msgType_inBuffer _ (by omega), hbehind zero (by decide)]
    exact low_not_mem _
  have hzero : ∀ {i}, 11 ≤ i → d.inBuffer high i = 0 := by
    intro i hi
    rw [hbehind high (by omega)]
    exact Function.update_of_ne (by omega) _ _
  have hacts : (recvMsgProcess (d.inBuffer high) (boot zeroFlash 1)).systemReset = true ∨
      (recvMsgProcess (d.inBuffer high) (boot zeroFlash 1)).canFrames ≠ [] := by
    refine recvMsgProcess_acts (boot_canFrames _ _) ?_ ?_ ?_
    · rw [hzero (by decide), boot_localStation]
      decide
    · show wordAt (d.inBuffer high) 15 ≠ _
      rw [wordAt, hzero (by decide), hzero (by decide), boot_localStation]
      decide
    · rw [msgType_inBuffer _ (by omega), hbehind high (by decide)]
      rw [show high 10 = commandHigh (d.byte 9) from Function.update_self _ _ _]
      exact commandHigh_mem _ hlow
  rw [heq, hnone, boot_systemReset, boot_canFrames] at hacts
  rcases hacts with hreset | hframes
  · exact absurd hreset (by decide)
  · exact hframes rfl

/-- A station number other than two given ones. -/
theorem exists_other_station (a b : U16) :
    ∃ l : U8, a ≠ l.setWidth 16 ∧ b ≠ l.setWidth 16 := by
  by_contra hnone
  have hall : ∀ l : U8, a ≠ l.setWidth 16 → b = l.setWidth 16 := fun l ha => by
    by_contra hb
    exact hnone ⟨l, ha, hb⟩
  by_cases h0 : a = (0 : U8).setWidth 16
  · have h1 := hall 1 (by rw [h0]; decide)
    have h2 := hall 2 (by rw [h0]; decide)
    exact absurd (h1.symm.trans h2) (by decide)
  · have hb := hall 0 h0
    by_cases h1 : a = (1 : U8).setWidth 16
    · have h2 := hall 2 (by rw [h1]; decide)
      exact absurd (hb.symm.trans h2) (by decide)
    · exact absurd (hb.symm.trans (hall 1 h1)) (by decide)

/-- A write request whose block is not complete: the block that is sent on depends on
what lies behind. -/
theorem block_open (hlen : 11 ≤ d.length) (hshort : d.length < 243) (h : ¬ d.Refuted)
    (htype : le16 (d.byte 9) (d.byte 10) = RECV_MSG_WRITE_PARA_CMD_TYPE) : ¬ d.OwnEffect := by
  intro hown
  let zero : Mem := fun _ => 0
  let one : Mem := fun _ => 1
  obtain ⟨l, hl, hl'⟩ := exists_other_station
    (UserParas.ofBytes (d.inBuffer zero) 11).stationNo
    (UserParas.ofBytes (d.inBuffer one) 11).stationNo
  have heq := (hown (boot zeroFlash l) zero one).2
  rw [effect_of_accepted (by omega) h, effect_of_accepted (by omega) h] at heq
  have hwrite : ∀ rest, recvMsgProcess (d.inBuffer rest) (boot zeroFlash l) =
      recvWritePara (d.inBuffer rest) (boot zeroFlash l) := by
    intro rest
    have hm : msgType (d.inBuffer rest) = RECV_MSG_WRITE_PARA_CMD_TYPE := by
      rw [msgType_inBuffer _ (by omega), d.inBuffer_byte rest (by omega), htype]
    unfold recvMsgProcess
    rw [hm, if_neg (by decide), if_neg (by decide), if_pos rfl]
  have hframes := congrArg Station.canFrames heq
  rw [hwrite, hwrite,
    canFrames_recvWritePara (boot_canFrames _ _) (by rw [boot_localStation]; exact hl),
    canFrames_recvWritePara (boot_canFrames _ _) (by rw [boot_localStation]; exact hl')] at hframes
  have hmsg := congrArg (List.drop 3) (canFramesOf_inj hframes).1
  rw [paraMsg_drop, paraMsg_drop] at hmsg
  have hoff : d.length - 11 < UserParas.byteCount := by
    unfold UserParas.byteCount
    omega
  have hbyte := eq_of_read_eq hmsg hoff
  rw [Nat.zero_add, UserParas.byte_ofBytes _ _ hoff, UserParas.byte_ofBytes _ _ hoff,
    d.inBuffer_behind zero (by omega), d.inBuffer_behind one (by omega)] at hbyte
  exact absurd hbyte (by decide)

/-- A request of eleven bytes whose operand is missing. -/
theorem operand_open (hlen : d.length = 11) (h : ¬ d.Refuted)
    (htype : le16 (d.byte 9) (d.byte 10) = RECV_MSG_READ_PARA_CMD_TYPE ∨
      le16 (d.byte 9) (d.byte 10) = RECV_MSG_START_CMD_TYPE ∨
      le16 (d.byte 9) (d.byte 10) = RECV_MSG_FUNC_SELECT_CMD_TYPE) : ¬ d.OwnEffect := by
  intro hown
  let zero : Mem := fun _ => 0
  let five : Mem := fun _ => 5
  have heq := (hown (boot zeroFlash 1) zero five).2
  rw [effect_of_accepted (by omega) h, effect_of_accepted (by omega) h] at heq
  have hframes := congrArg Station.canFrames heq
  have hm : ∀ rest, msgType (d.inBuffer rest) = le16 (d.byte 9) (d.byte 10) := fun rest => by
    rw [msgType_inBuffer _ (by omega), d.inBuffer_byte rest (by omega)]
  have h11 : ∀ rest, d.inBuffer rest 11 = rest 11 := fun rest =>
    d.inBuffer_behind rest (by omega)
  have hsend : ∀ (t : Station) (x f : U8), t.canFrames = [] → t.main.localStation = 1 →
      (canBusSendMsg [x] f t.main.localStation t).canFrames = canFramesOf [x] f 1 := by
    intro t x f ht hl
    rw [canFrames_canBusSendMsg ht (by simp), hl]
  rcases htype with htype | htype | htype
  · have hread : ∀ rest : Mem, rest 11 ≠ 1 →
        (recvMsgProcess (d.inBuffer rest) (boot zeroFlash 1)).canFrames =
          canFramesOf (paraMsg 0x01 []) CAN_FUNC_ID_PARA_DATA (rest 11) := by
      intro rest hne
      unfold recvMsgProcess
      rw [hm, htype, if_neg (by decide), if_pos rfl, h11,
          if_neg (by rw [boot_localStation]; exact hne)]
      exact canFrames_canBusSendMsg (boot_canFrames _ _) (by decide) _ _
    rw [hread zero (by decide), hread five (by decide)] at hframes
    exact absurd (canFramesOf_inj hframes).2 (by decide)
  · have hstart : ∀ rest : Mem,
        (recvMsgProcess (d.inBuffer rest) (boot zeroFlash 1)).canFrames =
          canFramesOf [rest 11] CAN_FUNC_ID_START_CMD 1 := by
      intro rest
      unfold recvMsgProcess
      rw [hm, htype, if_neg (by decide), if_neg (by decide), if_neg (by decide), if_pos rfl, h11]
      have hspeed := speedCtrlProcess_keeps (rest 11) (boot zeroFlash 1)
      exact hsend _ _ _ (hspeed.canFrames.trans (boot_canFrames _ _))
        (hspeed.localStation.trans (boot_localStation _ _))
    rw [hstart zero, hstart five] at hframes
    exact absurd (canFramesOf_inj hframes).1 (by decide)
  · have hselect : ∀ rest : Mem,
        (recvMsgProcess (d.inBuffer rest) (boot zeroFlash 1)).canFrames =
          canFramesOf [rest 11] CAN_FUNC_ID_FUNC_SELECT_CMD 1 := by
      intro rest
      unfold recvMsgProcess
      rw [hm, htype, if_neg (by decide), if_neg (by decide), if_neg (by decide),
        if_neg (by decide), if_neg (by decide), if_pos rfl, h11]
      exact hsend (setBlockDisable (rest 11) (boot zeroFlash 1)) _ _ (boot_canFrames _ _)
        (boot_localStation _ _)
    rw [hselect zero, hselect five] at hframes
    exact absurd (canFramesOf_inj hframes).1 (by decide)

/-- **The effect of a datagram** depends on the datagram alone exactly when it is
self-contained. -/
theorem datagram_effect_iff (d : Datagram) : d.OwnEffect ↔ d.SelfContained := by
  constructor
  · intro hown
    by_contra hnot
    simp only [SelfContained, not_or, not_and, not_not, not_le] at hnot
    obtain ⟨hvalid, hten, hshort⟩ := hnot
    rcases Nat.lt_trichotomy d.length 10 with hlen | hlen | hlen
    · obtain ⟨rest, rest', hne⟩ := verdict_open (d := d) (by omega) hvalid
      exact hne (hown (boot zeroFlash 1) rest rest').1
    · exact command_open hlen hvalid (hten hlen) hown
    · have hread := hshort hlen
      unfold bytesRead at hread
      split_ifs at hread with hwrite hoperand
      · exact block_open hlen hread hvalid hwrite hown
      · exact operand_open (by omega) hvalid hoperand hown
      · omega
  · intro hself s rest rest'
    have hagree := d.agreeBelow rest rest'
    rcases hself with hrefuted | ⟨hlen, hlow⟩ | ⟨hlen, hread⟩
    · have hrej := hrefuted.rejected rest
      have hrej' := hrefuted.rejected rest'
      refine ⟨hrej.trans hrej'.symm, ?_⟩
      unfold recvMessageFromServer
      rw [if_pos hrej, if_pos hrej']
    · have hcheck := recvMsgCheck_congr (by omega) hagree
      have hnone : ∀ rest, recvMsgProcess (d.inBuffer rest) s = s := by
        intro rest
        refine recvMsgProcess_other ?_ s
        rw [msgType_inBuffer rest (by omega)]
        exact other_not_mem hlow _
      refine ⟨hcheck, ?_⟩
      unfold recvMessageFromServer
      rw [hcheck, hnone, hnone]
    · have hcheck := recvMsgCheck_congr (by omega) hagree
      have htype : msgType (d.inBuffer rest) = le16 (d.byte 9) (d.byte 10) := by
        rw [msgType_inBuffer rest (by omega), d.inBuffer_byte rest (by omega)]
      refine ⟨hcheck, ?_⟩
      unfold recvMessageFromServer
      rw [hcheck, recvMsgProcess_congr hlen (htype ▸ hread) hagree s]

end Datagram

/-- A start command of eleven bytes: its gear is the byte behind it. -/
def startWithoutGear : Datagram :=
  { bytes := [0xAA, 0xAA, 0x01, 0x00, 0x00, 0x00, 0x0B, 0x00, 0x06, 0x10, 0x16]
    bytes_le := by decide }

/-- Left over from before: a 0 stops the line and a 2 starts it. -/
theorem stale_gear : ¬ ∀ d : Datagram, d.OwnEffect := by
  intro h
  have heq := (h startWithoutGear (boot zeroFlash 1) (fun _ => 0) (fun _ => 2)).2
  have hgear := congrArg (fun s => s.logic.gSpeedGearStatus) heq
  exact absurd hgear (by decide +kernel)

end IotCtrl
