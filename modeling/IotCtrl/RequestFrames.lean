import IotCtrl.CorruptedAnswers

/-!
# Request frames

`Modbus_RTU_Write_Multi_Reg_Cmd` fills the send buffer in a loop whose counter is a byte, and
places the checksum and takes the length from the counter behind the loop.  The functions here
work on the buffer; the lists that the master transmits are what they leave in it.

* `writeMultiRegBuff_eq` — the buffer holds the frame the master transmits;
* `decodeWrite_frame`, `decodeRead_frame` — reading a frame back, high bytes first;
* `request_frames_well_formed` — both in one, with the receiver's own checksum test.
-/

namespace IotCtrl

open ByteMemory

/-! ## Filling the buffer -/

/-- The loop over the registers from counter `i` on; `data` is what lies behind the pointer.  The
counter comes round after 256 turns, and a loop still running then never ends. -/
def writeRegs (data : Nat → U16) (regNum : U16) : Nat → U8 → Mem → Option (U8 × Mem)
  | 0, _, _ => none
  | turns + 1, i, buf =>
      if i.setWidth 16 < regNum then
        let buf := write buf (7 + i.toNat * 2) [hi (data i.toNat)]
        let buf := write buf (8 + i.toNat * 2) [lo (data i.toNat)]
        writeRegs data regNum turns (i + 1) buf
      else some (i, buf)

/-- `Modbus_RTU_Write_Multi_Reg_Cmd` up to `uart1_send`: the send buffer and its count. -/
def writeMultiRegBuff (stationNo regAddr regNum : U16) (data : Nat → U16) (buf : Mem) :
    Option (Mem × Nat) :=
  let buf := write buf 0
    [lo stationNo, 0x10, hi regAddr, lo regAddr, hi regNum, lo regNum, lo (regNum * 2)]
  match writeRegs data regNum 256 0 buf with
  | none => none
  | some (i, buf) =>
      let crcCal := getCRC (read buf 0 (7 + i.toNat * 2))
      let buf := write buf (7 + i.toNat * 2) [hi crcCal]
      let buf := write buf (8 + i.toNat * 2) [lo crcCal]
      some (buf, 9 + i.toNat * 2)

/-- `Modbus_RTU_Read_Reg_Cmd` up to `uart1_send`. -/
def readRegBuff (stationNo regAddr regNum : U16) (buf : Mem) : Mem × Nat :=
  let buf := write buf 0 [lo stationNo, 0x03, hi regAddr, lo regAddr, hi regNum, lo regNum]
  let crcCal := getCRC (read buf 0 6)
  let buf := write buf 6 [hi crcCal]
  let buf := write buf 7 [lo crcCal]
  (buf, 8)

/-! ## Reading a frame back -/

/-- A request to write registers. -/
structure MultiRegWrite where
  stationNo : U16
  regAddr : U16
  regs : List U16
deriving DecidableEq, Repr

/-- A request to read registers. -/
structure RegRead where
  stationNo : U16
  regAddr : U16
  regNum : U16
deriving DecidableEq, Repr

/-- Registers, high byte first. -/
def decodeRegs : List U8 → Option (List U16)
  | [] => some []
  | [_] => none
  | h :: l :: rest => (decodeRegs rest).map (le16 l h :: ·)

/-- A write request without its checksum: the byte count is twice the number of registers, and
that many bytes follow. -/
def decodeWrite : List U8 → Option MultiRegWrite
  | station :: func :: ah :: al :: nh :: nl :: count :: body =>
      let regs := body.take (body.length - 2)
      if func = 0x10 ∧ 2 ≤ body.length ∧ count.toNat = regs.length ∧
          count.toNat = 2 * (le16 nl nh).toNat then
        (decodeRegs regs).map fun regs => ⟨station.setWidth 16, le16 al ah, regs⟩
      else none
  | _ => none

/-- A read request without its checksum. -/
def decodeRead : List U8 → Option RegRead
  | [station, func, ah, al, nh, nl, _, _] =>
      if func = 0x03 then some ⟨station.setWidth 16, le16 al ah, le16 nl nh⟩ else none
  | _ => none

/-- The two bytes of a register. -/
def regBytes (d : U16) : List U8 := [hi d, lo d]

theorem length_flatMap_regBytes (regs : List U16) :
    (regs.flatMap regBytes).length = 2 * regs.length := by
  induction regs with
  | nil => rfl
  | cons d regs ih =>
      rw [List.flatMap_cons, List.length_append, ih, List.length_cons]
      simp only [regBytes, List.length_cons, List.length_nil]
      omega

theorem decodeRegs_flatMap (regs : List U16) : decodeRegs (regs.flatMap regBytes) = some regs := by
  induction regs with
  | nil => rfl
  | cons d regs ih =>
      have hcons : (d :: regs).flatMap regBytes = hi d :: lo d :: regs.flatMap regBytes := rfl
      rw [hcons, decodeRegs, ih, Option.map_some, le16_lo_hi]

/-- A station number of one byte is sent whole. -/
theorem setWidth_lo {n : U16} (h : n.toNat < 256) : (lo n).setWidth 16 = n := by
  apply BitVec.eq_of_toNat_eq
  rw [lo, BitVec.toNat_setWidth, BitVec.toNat_setWidth]
  omega

/-- The checksum stands behind the registers. -/
theorem writeMultiRegFrame_eq (stationNo regAddr : U16) (regs : List U16) :
    ∃ x y, writeMultiRegFrame stationNo regAddr regs =
      lo stationNo :: 0x10 :: hi regAddr :: lo regAddr :: hi (BitVec.ofNat 16 regs.length) ::
        lo (BitVec.ofNat 16 regs.length) :: lo (BitVec.ofNat 16 regs.length * 2) ::
        (regs.flatMap regBytes ++ [x, y]) :=
  ⟨_, _, rfl⟩

theorem decodeWrite_frame {stationNo : U16} (regAddr : U16) {regs : List U16}
    (hstation : stationNo.toNat < 256) (hlen : regs.length < 128) :
    decodeWrite (writeMultiRegFrame stationNo regAddr regs) = some ⟨stationNo, regAddr, regs⟩ := by
  have hnum : (BitVec.ofNat 16 regs.length).toNat = regs.length := by
    rw [BitVec.toNat_ofNat, Nat.mod_eq_of_lt (by omega)]
  have hcount : (lo (BitVec.ofNat 16 regs.length * 2)).toNat = 2 * regs.length := by
    have htwo : (2 : U16).toNat = 2 := rfl
    rw [lo, BitVec.toNat_setWidth, BitVec.toNat_mul, hnum, htwo]
    omega
  obtain ⟨x, y, hframe⟩ := writeMultiRegFrame_eq stationNo regAddr regs
  have hbody : (regs.flatMap regBytes ++ [x, y]).length = 2 * regs.length + 2 := by
    rw [List.length_append, length_flatMap_regBytes]
    rfl
  have htake : (regs.flatMap regBytes ++ [x, y]).take
      ((regs.flatMap regBytes ++ [x, y]).length - 2) = regs.flatMap regBytes := by
    rw [hbody, Nat.add_sub_cancel]
    exact List.take_left' (length_flatMap_regBytes regs)
  rw [hframe, decodeWrite, htake, length_flatMap_regBytes, hcount, le16_lo_hi, hnum, hbody,
    if_pos ⟨rfl, Nat.le_add_left _ _, rfl, rfl⟩, decodeRegs_flatMap, Option.map_some,
    setWidth_lo hstation, le16_lo_hi]

theorem decodeRead_frame {stationNo : U16} (regAddr regNum : U16)
    (hstation : stationNo.toNat < 256) :
    decodeRead (readRegFrame stationNo regAddr regNum) = some ⟨stationNo, regAddr, regNum⟩ := by
  have hframe : ∃ x y, readRegFrame stationNo regAddr regNum =
      [lo stationNo, 0x03, hi regAddr, lo regAddr, hi regNum, lo regNum, x, y] := ⟨_, _, rfl⟩
  obtain ⟨x, y, hframe⟩ := hframe
  rw [hframe, decodeRead, if_pos rfl, setWidth_lo hstation, le16_lo_hi, le16_lo_hi]

/-! ## The buffer against the frame -/

/-- A copy leaves the bytes behind it alone. -/
theorem write_of_le (m : Mem) (bs : List U8) {off i : Nat} (h : off + bs.length ≤ i) :
    write m off bs i = m i := by
  rw [write, if_neg (by omega)]

/-- Two bytes stored one behind the other extend the block before them. -/
theorem read_write_pair (m : Mem) (off : Nat) (x y : U8) :
    read (write (write m off [x]) (off + 1) [y]) 0 (off + 2) = read m 0 off ++ [x, y] := by
  have hfirst : read (write m off [x]) 0 (off + 1) = read m 0 off ++ [x] :=
    read_write_append m off [x]
  have hsecond : read (write (write m off [x]) (off + 1) [y]) 0 (off + 2) =
      read (write m off [x]) 0 (off + 1) ++ [y] :=
    read_write_append (write m off [x]) (off + 1) [y]
  rw [hsecond, hfirst, List.append_assoc]
  rfl

theorem write_pair_of_le (m : Mem) (x y : U8) {off i : Nat} (h : off + 2 ≤ i) :
    write (write m off [x]) (off + 1) [y] i = m i := by
  have hsecond : off + 1 + [y].length ≤ i := h
  have hfirst : off + [x].length ≤ i := Nat.le_of_succ_le h
  rw [write_of_le _ [y] hsecond, write_of_le _ [x] hfirst]

/-- **The loop.**  From counter `i` on it appends the registers left and touches nothing behind
them. -/
theorem writeRegs_run {data : Nat → U16} {regNum : U16} (hsmall : regNum.toNat < 256)
    (rest : List U16) {turns : Nat} {i : U8} (buf : Mem) (hturns : rest.length < turns)
    (hcount : i.toNat + rest.length = regNum.toNat)
    (hdata : ∀ (j : Nat) (h : j < rest.length), data (i.toNat + j) = rest[j]) :
    ∃ buf', writeRegs data regNum turns i buf = some (lo regNum, buf') ∧
      read buf' 0 (7 + regNum.toNat * 2) =
        read buf 0 (7 + i.toNat * 2) ++ rest.flatMap regBytes ∧
      ∀ k, 7 + regNum.toNat * 2 ≤ k → buf' k = buf k := by
  induction rest generalizing turns i buf with
  | nil =>
      obtain ⟨turns, rfl⟩ := Nat.exists_eq_succ_of_ne_zero (Nat.ne_of_gt hturns)
      have hend : i.toNat = regNum.toNat := hcount
      have hstop : ¬ i.setWidth 16 < regNum := by
        rw [BitVec.lt_def, BitVec.toNat_setWidth_of_le (by decide), hend]
        exact Nat.lt_irrefl _
      have hlo : i = lo regNum := by
        apply BitVec.eq_of_toNat_eq
        rw [lo, BitVec.toNat_setWidth, hend]
        omega
      refine ⟨buf, ?_, ?_, fun k _ => rfl⟩
      · rw [writeRegs, if_neg hstop, hlo]
      · rw [hend, List.flatMap_nil, List.append_nil]
  | cons d rest ih =>
      obtain ⟨turns, rfl⟩ := Nat.exists_eq_succ_of_ne_zero (Nat.ne_of_gt (Nat.zero_lt_of_lt hturns))
      rw [List.length_cons] at hcount hturns
      have hgo : i.setWidth 16 < regNum := by
        rw [BitVec.lt_def, BitVec.toNat_setWidth_of_le (by decide)]
        omega
      have hnext : (i + 1).toNat = i.toNat + 1 := by
        have hone : (1 : U8).toNat = 1 := rfl
        rw [BitVec.toNat_add, hone]
        omega
      have hhead : data i.toNat = d := hdata 0 (Nat.succ_pos _)
      have htail : ∀ (j : Nat) (h : j < rest.length), data ((i + 1).toNat + j) = rest[j] := by
        intro j h
        have hj := hdata (j + 1) (Nat.succ_lt_succ h)
        rw [hnext, Nat.add_assoc, Nat.add_comm 1 j]
        exact hj
      have hoff : 8 + i.toNat * 2 = 7 + i.toNat * 2 + 1 := by omega
      obtain ⟨buf', hrun, hread, hkept⟩ :=
        ih (write (write buf (7 + i.toNat * 2) [hi d]) (7 + i.toNat * 2 + 1) [lo d])
          (Nat.lt_of_succ_lt_succ hturns) (by omega) htail
      refine ⟨buf', ?_, ?_, ?_⟩
      · rw [writeRegs, if_pos hgo, hhead, hoff]
        exact hrun
      · have hlen : 7 + (i + 1).toNat * 2 = 7 + i.toNat * 2 + 2 := by omega
        rw [hread, hlen, read_write_pair, List.append_assoc, List.flatMap_cons]
        rfl
      · intro k hk
        rw [hkept k hk, write_pair_of_le _ _ _ (by omega)]

/-- **The buffer holds the frame.**  `Modbus_RTU_Write_Multi_Reg_Cmd` leaves the frame the master
transmits, with its length as the count, and touches nothing behind it. -/
theorem writeMultiRegBuff_eq (stationNo regAddr : U16) {regNum : U16} {data : Nat → U16}
    {regs : List U16} (buf : Mem) (hsmall : regs.length < 256)
    (hnum : regNum.toNat = regs.length)
    (hdata : ∀ (i : Nat) (h : i < regs.length), data i = regs[i]) :
    ∃ buf', writeMultiRegBuff stationNo regAddr regNum data buf =
        some (buf', 9 + regs.length * 2) ∧
      read buf' 0 (9 + regs.length * 2) = writeMultiRegFrame stationNo regAddr regs ∧
      ∀ k, 9 + regs.length * 2 ≤ k → buf' k = buf k := by
  have hofNat : BitVec.ofNat 16 regs.length = regNum := by
    rw [← hnum, BitVec.ofNat_toNat, BitVec.setWidth_eq]
  have hlo : (lo regNum).toNat = regs.length := by
    rw [lo, BitVec.toNat_setWidth, hnum]
    omega
  let header := [lo stationNo, 0x10, hi regAddr, lo regAddr, hi regNum, lo regNum, lo (regNum * 2)]
  have hcount : (0 : U8).toNat + regs.length = regNum.toNat := by
    rw [hnum]
    exact Nat.zero_add _
  have hread : ∀ (j : Nat) (h : j < regs.length), data ((0 : U8).toNat + j) = regs[j] := by
    intro j h
    rw [← hdata j h]
    exact congrArg data (Nat.zero_add j)
  obtain ⟨filled, hrun, hread, hkept⟩ :=
    writeRegs_run (by omega) regs (write buf 0 header) hsmall hcount hread
  have hbody : read filled 0 (7 + regs.length * 2) = header ++ regs.flatMap regBytes := by
    have hheader : read (write buf 0 header) 0 (7 + (0 : U8).toNat * 2) = header :=
      read_write buf 0 header
    rw [← hnum, hread, hheader]
  let crcCal := getCRC (header ++ regs.flatMap regBytes)
  refine ⟨write (write filled (7 + regs.length * 2) [hi crcCal]) (7 + regs.length * 2 + 1)
    [lo crcCal], ?_, ?_, ?_⟩
  · have hoff : 8 + regs.length * 2 = 7 + regs.length * 2 + 1 := by omega
    rw [writeMultiRegBuff, hrun]
    dsimp only
    rw [hlo, hbody, hoff]
  · have hlen : 9 + regs.length * 2 = 7 + regs.length * 2 + 2 := by omega
    rw [hlen, read_write_pair, hbody, writeMultiRegFrame, hofNat]
    rfl
  · intro k hk
    have hseven : 0 + header.length = 7 := rfl
    rw [write_pair_of_le _ _ _ (by omega), hkept k (by omega), write_of_le buf header (by omega)]

theorem readRegBuff_eq (stationNo regAddr regNum : U16) (buf : Mem) :
    (readRegBuff stationNo regAddr regNum buf).2 = 8 ∧
      read (readRegBuff stationNo regAddr regNum buf).1 0 8 =
        readRegFrame stationNo regAddr regNum := by
  let header := [lo stationNo, 0x03, hi regAddr, lo regAddr, hi regNum, lo regNum]
  have hbody : read (write buf 0 header) 0 6 = header := read_write buf 0 header
  refine ⟨rfl, ?_⟩
  rw [readRegBuff, read_write_pair (write buf 0 header) 6, hbody]
  rfl

/-- A buffer that holds a frame closed with its checksum passes the receiver's test. -/
theorem passesCrc_of_frame {buf : Mem} {len : Nat} {bytes : List U8} (hlen : 2 ≤ len)
    (h : read buf 0 len = withCrc bytes) : PassesCrc buf len := by
  rw [passesCrc_iff buf hlen, h, crc16_withCrc]

/-- **Request frames are well formed.**  For a station number of one byte and 1 to 20 registers
the loop of `Modbus_RTU_Write_Multi_Reg_Cmd` ends, and the frame it leaves has 9 bytes and two
for each register, stays inside the 50 bytes of the send buffer, decodes to the request, and
passes the test of `comm_recv_rw_comand`; so does the frame of `Modbus_RTU_Read_Reg_Cmd`, of 8
bytes. -/
theorem request_frames_well_formed (stationNo regAddr : U16) (hstation : stationNo.toNat < 256)
    (buf : Mem) :
    (∀ (regNum : U16) (data : Nat → U16) (regs : List U16),
      1 ≤ regs.length → regs.length ≤ 20 → regNum.toNat = regs.length →
      (∀ (i : Nat) (h : i < regs.length), data i = regs[i]) →
      ∃ buf' count, writeMultiRegBuff stationNo regAddr regNum data buf = some (buf', count) ∧
        count = 9 + 2 * regs.length ∧ count ≤ 50 ∧ (∀ i, 50 ≤ i → buf' i = buf i) ∧
        decodeWrite (read buf' 0 count) = some ⟨stationNo, regAddr, regs⟩ ∧
        PassesCrc buf' count) ∧
    ∀ regNum : U16, ∃ buf', readRegBuff stationNo regAddr regNum buf = (buf', 8) ∧
      decodeRead (read buf' 0 8) = some ⟨stationNo, regAddr, regNum⟩ ∧ PassesCrc buf' 8 := by
  constructor
  · intro regNum data regs _ hmost hnum hdata
    obtain ⟨buf', hrun, hframe, hkept⟩ :=
      writeMultiRegBuff_eq stationNo regAddr buf (by omega) hnum hdata
    refine ⟨buf', 9 + regs.length * 2, hrun, by omega, by omega, ?_, ?_, ?_⟩
    · exact fun i hi' => hkept i (by omega)
    · rw [hframe, decodeWrite_frame regAddr hstation (by omega)]
    · exact passesCrc_of_frame (by omega) hframe
  · intro regNum
    obtain ⟨hcount, hframe⟩ := readRegBuff_eq stationNo regAddr regNum buf
    refine ⟨(readRegBuff stationNo regAddr regNum buf).1, rfl, ?_, ?_⟩
    · rw [hframe, decodeRead_frame regAddr regNum hstation]
    · exact passesCrc_of_frame (by decide) hframe

/-- The frame of a speed write to inverter 2, and of its poll. -/
theorem speed_frames_well_formed :
    (∃ buf' count, writeMultiRegBuff 2 0x7000 4 (fun i => [1, 5000, 0, 1].getD i 0)
          (fun _ => 0) = some (buf', count) ∧
        count = 17 ∧ count ≤ 50 ∧ (∀ i, 50 ≤ i → buf' i = 0) ∧
        decodeWrite (read buf' 0 count) = some ⟨2, 0x7000, [1, 5000, 0, 1]⟩ ∧
        PassesCrc buf' count) ∧
      ∃ buf', readRegBuff 2 0x7200 7 (fun _ => 0) = (buf', 8) ∧
        decodeRead (read buf' 0 8) = some ⟨2, 0x7200, 7⟩ ∧ PassesCrc buf' 8 :=
  ⟨(request_frames_well_formed 2 0x7000 (by decide) fun _ => 0).1 4 _ [1, 5000, 0, 1] (by decide)
      (by decide) rfl (by decide),
    (request_frames_well_formed 2 0x7200 (by decide) fun _ => 0).2 7⟩

end IotCtrl
