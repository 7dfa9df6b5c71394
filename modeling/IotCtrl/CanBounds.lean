import IotCtrl.CanSegment

/-!
# Which payloads are read within bounds

The dispatch of a received message reads its bytes and fills a local array of ten
records without looking at how much was received.  `DispatchInBounds` is what one
asks of it: every offset read lies below the received length, every element below
ten, and a payload too short for its command (`CommandFits` fails) changes nothing.

* `inBounds_bind`, `inBounds_readBlock`, … — bounds of traced reads;
* `paraDataRecvProcess_inBounds_iff`, `moduleStatusRecvProcess_inBounds_iff` — the
  two callees;
* `dispatch_inBounds_iff` — exactly the payloads for which the request is met;
* `belt_count_overruns` — one for which it is not.
-/

namespace IotCtrl

open ByteMemory

/-! ## Bounds of traced reads -/

namespace Traced

variable {α β : Type} {len : Nat}

@[simp] theorem inBounds_pure (x : α) : (pure x : Traced α).InBounds len :=
  ⟨by simp, by simp⟩

@[simp] theorem inBounds_bind (t : Traced α) (f : α → Traced β) :
    (t >>= f).InBounds len ↔ t.InBounds len ∧ (f t.val).InBounds len := by
  simp only [InBounds, reads_bind, elems_bind, List.mem_append]
  constructor
  · rintro ⟨hr, he⟩
    exact ⟨⟨fun i hi => hr i (Or.inl hi), fun k hk => he k (Or.inl hk)⟩,
      fun i hi => hr i (Or.inr hi), fun k hk => he k (Or.inr hk)⟩
  · rintro ⟨⟨hr, he⟩, hr', he'⟩
    exact ⟨fun i hi => hi.elim (hr i) (hr' i), fun k hk => hk.elim (he k) (he' k)⟩

end Traced

@[simp] theorem inBounds_readByte {len : Nat} (pbuf : Mem) (i : Nat) :
    (readByte pbuf i).InBounds len ↔ i < len := by
  simp [Traced.InBounds, readByte]

@[simp] theorem val_readByte (pbuf : Mem) (i : Nat) : (readByte pbuf i).val = pbuf i := rfl

@[simp] theorem val_readBlock {α : Type} (x : α) (off n : Nat) : (readBlock x off n).val = x := rfl

/-- A block that is read covers its last byte. -/
theorem inBounds_readBlock {α : Type} {len off n : Nat} (x : α) (hn : 0 < n) :
    (readBlock x off n).InBounds len ↔ off + n ≤ len := by
  simp only [Traced.InBounds, readBlock, List.mem_map, List.mem_range]
  constructor
  · rintro ⟨hr, -⟩
    have := hr (off + (n - 1)) ⟨n - 1, by omega, rfl⟩
    omega
  · intro h
    refine ⟨?_, by simp⟩
    rintro i ⟨j, hj, rfl⟩
    omega

@[simp] theorem inBounds_touchElem {len : Nat} (k : Nat) :
    (touchElem k).InBounds len ↔ k < 10 := by
  simp [Traced.InBounds, touchElem]

@[simp] theorem inBounds_touchElems {len : Nat} (n : Nat) :
    (touchElems n).InBounds len ↔ n ≤ 10 := by
  simp only [Traced.InBounds, touchElems, List.mem_range]
  constructor
  · rintro ⟨-, he⟩
    rcases Nat.eq_zero_or_pos n with rfl | hpos
    · omega
    · have := he (n - 1) (by omega)
      omega
  · intro h
    exact ⟨by simp, fun k hk => by omega⟩

/-! ## The two callees -/

/-- The length field of a message is its first byte: the second is shifted out. -/
theorem canDataLen_toNat (b₀ b₁ : U8) : (canDataLen b₀ b₁).toNat = b₀.toNat := by
  have hhi : b₁.setWidth 16 >>> 8 = (0 : U16) := by
    ext i hi
    simp
  have hb : b₀.toNat < 256 := b₀.isLt
  rw [canDataLen, hhi, show (0 : U16) = 0#16 from rfl, BitVec.or_zero, BitVec.toNat_setWidth]
  omega

/-- The commands of a parameter message that carry a block. -/
def CarriesBlock (cmd : U8) : Prop := cmd = 0x91 ∨ cmd = 0x2 ∨ cmd = 0x92

instance (cmd : U8) : Decidable (CarriesBlock cmd) := inferInstanceAs (Decidable (_ ∨ _))

/-- Reading the first three bytes. -/
theorem header_reads_iff {len : Nat} {p : Prop} :
    (0 < len ∧ 1 < len ∧ 2 < len ∧ p) ↔ 3 ≤ len ∧ p := by
  constructor
  · rintro ⟨-, -, h, hp⟩
    exact ⟨h, hp⟩
  · rintro ⟨h, hp⟩
    exact ⟨by omega, by omega, by omega, hp⟩

theorem paraDataRecvProcess_inBounds_iff (pbuf : Mem) (recvLen : Nat) (s : Station) :
    (paraDataRecvProcess pbuf recvLen s).InBounds recvLen ↔
      3 ≤ recvLen ∧ ((pbuf 0).toNat = recvLen → CarriesBlock (pbuf 2) → 235 ≤ recvLen) := by
  unfold paraDataRecvProcess
  rw [Traced.inBounds_bind, Traced.inBounds_bind, Traced.inBounds_bind, inBounds_readByte,
    inBounds_readByte, inBounds_readByte, header_reads_iff, ← canDataLen_toNat (pbuf 0) (pbuf 1)]
  refine and_congr_right fun _ => ?_
  by_cases hdrop : (canDataLen (readByte pbuf 0).val (readByte pbuf 1).val).toNat ≠ recvLen
  · rw [if_pos hdrop]
    exact iff_of_true (Traced.inBounds_pure s) fun h => absurd h hdrop
  have hlen : (canDataLen (pbuf 0) (pbuf 1)).toNat = recvLen := not_not.mp hdrop
  have hblock : ∀ {α : Type} (x : α) (f : α → Traced Station), (∀ y, (f y).InBounds recvLen) →
      CarriesBlock (pbuf 2) → ∀ off n, 0 < n → off + n = 235 →
      ((readBlock x off n >>= f).InBounds recvLen ↔
        ((canDataLen (pbuf 0) (pbuf 1)).toNat = recvLen → CarriesBlock (pbuf 2) →
          235 ≤ recvLen)) := by
    intro α x f hf hcmd off n hn hend
    rw [Traced.inBounds_bind, inBounds_readBlock x hn, hend]
    exact ⟨fun h _ _ => h.1, fun h => ⟨h hlen hcmd, hf _⟩⟩
  have hnone : ¬ CarriesBlock (pbuf 2) → ∀ t : Station,
      ((pure t : Traced Station).InBounds recvLen ↔
      ((canDataLen (pbuf 0) (pbuf 1)).toNat = recvLen → CarriesBlock (pbuf 2) →
        235 ≤ recvLen)) := fun hcmd t =>
    iff_of_true (Traced.inBounds_pure t) fun _ h => absurd h hcmd
  rw [if_neg hdrop]
  split_ifs with h1 h91 h2 h92
  · have hcmd : pbuf 2 = 0x1 := h1
    exact hnone (by rw [hcmd]; decide) _
  · exact hblock _ _ (fun _ => Traced.inBounds_pure _) (Or.inl h91) _ _ (by decide) rfl
  · exact hblock _ _ (fun _ => Traced.inBounds_pure _) (Or.inr (Or.inl h2)) _ _ (by decide) rfl
  · exact hblock _ _ (fun _ => Traced.inBounds_pure _) (Or.inr (Or.inr h92)) _ _ (by decide) rfl
  · exact hnone (by rintro (h | h | h) <;> contradiction) _

/-- A parameter message whose length field is wrong is dropped. -/
theorem paraDataRecvProcess_dropped {pbuf : Mem} {recvLen : Nat}
    (h : (pbuf 0).toNat ≠ recvLen) (s : Station) :
    (paraDataRecvProcess pbuf recvLen s).val = s := by
  rw [← canDataLen_toNat (pbuf 0) (pbuf 1)] at h
  have hdrop : (canDataLen (readByte pbuf 0).val (readByte pbuf 1).val).toNat ≠ recvLen := h
  unfold paraDataRecvProcess
  rw [Traced.val_bind, Traced.val_bind, Traced.val_bind, if_pos hdrop]
  rfl

theorem moduleStatusRecvProcess_inBounds_iff (pbuf : Mem) (recvLen : Nat) (srcId : U8)
    (s : Station) :
    (moduleStatusRecvProcess pbuf recvLen srcId s).InBounds recvLen ↔
      3 ≤ recvLen ∧ ((pbuf 0).toNat = recvLen → pbuf 2 ≠ 0 →
        (pbuf 2).toNat ≤ 10 ∧ 3 + 10 * (pbuf 2).toNat ≤ recvLen) := by
  unfold moduleStatusRecvProcess
  rw [Traced.inBounds_bind, Traced.inBounds_bind, Traced.inBounds_bind, inBounds_readByte,
    inBounds_readByte, inBounds_readByte, header_reads_iff, ← canDataLen_toNat (pbuf 0) (pbuf 1)]
  refine and_congr_right fun _ => ?_
  by_cases hdrop : (canDataLen (readByte pbuf 0).val (readByte pbuf 1).val).toNat ≠ recvLen ∨
      (readByte pbuf 2).val = 0
  · rw [if_pos hdrop]
    exact iff_of_true (Traced.inBounds_pure s) fun hlen hbelt =>
      (hdrop.elim (fun h => h hlen) hbelt).elim
  obtain ⟨hlen, hbelt⟩ := not_or.mp hdrop
  have hpos : 0 < (pbuf 2).toNat := by
    rcases Nat.eq_zero_or_pos (pbuf 2).toNat with h | h
    · exact absurd (BitVec.eq_of_toNat_eq h) hbelt
    · exact h
  rw [if_neg hdrop, Traced.inBounds_bind, val_readByte, inBounds_readBlock _ (by omega),
    Traced.inBounds_bind, inBounds_touchElems]
  constructor
  · rintro ⟨hread, hten, -⟩ - -
    exact ⟨hten, hread⟩
  · intro h
    obtain ⟨hten, hread⟩ := h (not_not.mp hlen) hbelt
    refine ⟨hread, hten, ?_⟩
    dsimp only
    split_ifs
    · simp only [Traced.inBounds_bind, inBounds_touchElem, Traced.inBounds_pure, and_true]
      omega
    · simp
    · exact Traced.inBounds_pure _

theorem moduleStatusRecvProcess_dropped {pbuf : Mem} {recvLen : Nat} {srcId : U8}
    (h : (pbuf 0).toNat ≠ recvLen ∨ pbuf 2 = 0) (s : Station) :
    (moduleStatusRecvProcess pbuf recvLen srcId s).val = s := by
  rw [← canDataLen_toNat (pbuf 0) (pbuf 1)] at h
  have hdrop : (canDataLen (readByte pbuf 0).val (readByte pbuf 1).val).toNat ≠ recvLen ∨
      (readByte pbuf 2).val = 0 := h
  unfold moduleStatusRecvProcess
  rw [Traced.val_bind, Traced.val_bind, Traced.val_bind, if_pos hdrop]
  rfl

/-! ## The dispatch -/

/-- The message is a parameter message for this station. -/
def IsParaFor (funcId srcId : U8) (s : Station) : Prop :=
  funcId = CAN_FUNC_ID_PARA_DATA ∧ (srcId = s.main.localStation ∨ s.isHost = true)

instance (funcId srcId : U8) (s : Station) : Decidable (IsParaFor funcId srcId s) :=
  inferInstanceAs (Decidable (_ ∧ _))

/-- The payload in the receive buffer has all the bytes its command takes, and no
more records than there is room for. -/
def CommandFits (funcId srcId : U8) (s : Station) : Prop :=
  let pbuf := s.can.recv.canRecvBuff
  let recvLen := s.can.recv.canRecvLen
  if IsParaFor funcId srcId s then 3 ≤ recvLen ∧ (CarriesBlock (pbuf 2) → 235 ≤ recvLen)
  else if funcId = CAN_FUNC_ID_START_CMD ∨ funcId = CAN_FUNC_ID_FUNC_SELECT_CMD then 1 ≤ recvLen
  else if funcId = CAN_FUNC_ID_MODULE_STATUS then
    3 ≤ recvLen ∧ (pbuf 2).toNat ≤ 10 ∧ 3 + 10 * (pbuf 2).toNat ≤ recvLen
  else True

/-- What is asked of the dispatch: it reads below the received length and within
the array, and it drops a payload that does not fit its command. -/
def DispatchInBounds (funcId srcId : U8) (s : Station) : Prop :=
  (canDispatch funcId srcId s).InBounds s.can.recv.canRecvLen ∧
    (¬ CommandFits funcId srcId s → (canDispatch funcId srcId s).val = s)

/-- Long enough for the bytes that are always read, and, unless the length field
is wrong, for the rest of the command as well. -/
def PayloadFits (funcId srcId : U8) (s : Station) : Prop :=
  let pbuf := s.can.recv.canRecvBuff
  let recvLen := s.can.recv.canRecvLen
  if IsParaFor funcId srcId s then
    3 ≤ recvLen ∧ ((pbuf 0).toNat = recvLen → CarriesBlock (pbuf 2) → 235 ≤ recvLen)
  else if funcId = CAN_FUNC_ID_START_CMD ∨ funcId = CAN_FUNC_ID_FUNC_SELECT_CMD then 1 ≤ recvLen
  else if funcId = CAN_FUNC_ID_MODULE_STATUS then
    3 ≤ recvLen ∧ ((pbuf 0).toNat = recvLen → pbuf 2 ≠ 0 →
      (pbuf 2).toNat ≤ 10 ∧ 3 + 10 * (pbuf 2).toNat ≤ recvLen)
  else True

theorem canDispatch_para {funcId srcId : U8} {s : Station} (h : IsParaFor funcId srcId s) :
    canDispatch funcId srcId s =
      paraDataRecvProcess s.can.recv.canRecvBuff s.can.recv.canRecvLen s :=
  if_pos h

theorem canDispatch_moduleStatus {srcId : U8} {s : Station} :
    canDispatch CAN_FUNC_ID_MODULE_STATUS srcId s =
      moduleStatusRecvProcess s.can.recv.canRecvBuff s.can.recv.canRecvLen srcId s :=
  rfl

/-- **Bounds of the dispatch**, for every payload, function code and station. -/
theorem dispatch_inBounds_iff (funcId srcId : U8) (s : Station) :
    DispatchInBounds funcId srcId s ↔ PayloadFits funcId srcId s := by
  unfold DispatchInBounds CommandFits PayloadFits
  dsimp only
  by_cases hpara : IsParaFor funcId srcId s
  · simp only [if_pos hpara]
    rw [canDispatch_para hpara, paraDataRecvProcess_inBounds_iff]
    refine and_iff_left_of_imp ?_
    rintro ⟨hthree, hfits⟩ hshort
    refine paraDataRecvProcess_dropped (fun hlen => ?_) s
    exact hshort ⟨hthree, hfits hlen⟩
  simp only [if_neg hpara]
  by_cases hone : funcId = CAN_FUNC_ID_START_CMD ∨ funcId = CAN_FUNC_ID_FUNC_SELECT_CMD
  · simp only [if_pos hone]
    have hread : (canDispatch funcId srcId s).InBounds s.can.recv.canRecvLen ↔
        1 ≤ s.can.recv.canRecvLen := by
      have hnot : ¬ (funcId = CAN_FUNC_ID_PARA_DATA ∧
          (srcId = s.main.localStation ∨ s.isHost = true)) := hpara
      unfold canDispatch
      dsimp only
      rcases hone with rfl | rfl
      · rw [if_neg hnot, if_pos rfl, Traced.inBounds_bind, inBounds_readByte]
        exact and_iff_left (Traced.inBounds_pure _)
      · rw [if_neg hnot, if_neg (by decide), if_neg (by decide), if_neg (by decide), if_pos rfl,
          Traced.inBounds_bind, inBounds_readByte]
        exact and_iff_left (Traced.inBounds_pure _)
    rw [hread]
    exact and_iff_left_of_imp fun h hshort => absurd h hshort
  simp only [if_neg hone]
  by_cases hstatus : funcId = CAN_FUNC_ID_MODULE_STATUS
  · subst hstatus
    simp only [if_true]
    rw [canDispatch_moduleStatus, moduleStatusRecvProcess_inBounds_iff]
    refine and_iff_left_of_imp ?_
    rintro ⟨hthree, hfits⟩ hshort
    refine moduleStatusRecvProcess_dropped ?_ s
    by_contra hkeep
    obtain ⟨hlen, hbelt⟩ := not_or.mp hkeep
    exact hshort ⟨hthree, hfits (not_not.mp hlen) hbelt⟩
  · simp only [if_neg hstatus, not_true, false_implies, and_true, iff_true]
    obtain ⟨hstart, hselect⟩ := not_or.mp hone
    have hnot : ¬ (funcId = CAN_FUNC_ID_PARA_DATA ∧
        (srcId = s.main.localStation ∨ s.isHost = true)) := hpara
    unfold canDispatch
    dsimp only
    rw [if_neg hnot, if_neg hstart, if_neg hstatus, if_neg hselect]
    split_ifs
    all_goals exact Traced.inBounds_pure _

/-- A station in whose receive buffer `recvLen` bytes of a message have arrived. -/
def received (payload : List U8) (s : Station) : Station :=
  setCanRecv { s.can.recv with
    canRecvBuff := write s.can.recv.canRecvBuff 0 payload
    canRecvLen := payload.length } s

/-- Three bytes that announce two hundred records: the length field is right, so the
message is not dropped, and records are read that were never received. -/
theorem belt_count_overruns :
    ¬ ∀ (funcId srcId : U8) (s : Station), s.can.recv.canRecvLen ≤ 300 →
      DispatchInBounds funcId srcId s := by
  intro h
  have hin := (h CAN_FUNC_ID_MODULE_STATUS 5 (received [3, 0, 200] (boot zeroFlash 2))
    (by decide)).1
  rw [canDispatch_moduleStatus, moduleStatusRecvProcess_inBounds_iff] at hin
  have hten := (hin.2 rfl (by decide)).1
  exact absurd hten (by decide)

end IotCtrl
