import Mathlib.Data.List.TakeWhile

/-!
# Debouncing by run length

A two-valued input is sampled, and a new level counts once enough samples in a row have shown
it: `need v` of them for the level `v`.  Samples are listed latest first.

* `debounced` — the reference: the level in force after the samples;
* `debounced_changes_iff` — it changes to `v` with the sample that completes `need v`;
* `debounced_of_steady` — with as many samples it is `v`;
* `Tracks` — a level and a count that stand for the samples, with one rule for each kind of
  sample: `Tracks.same`, `Tracks.counted`, `Tracks.confirmed`.
-/

namespace Debounce

/-- The last `n` samples are all `v`. -/
def Steady (n : Nat) (v : Bool) (samples : List Bool) : Prop :=
  n ≤ samples.length ∧ ∀ x ∈ samples.take n, x = v

instance (n : Nat) (v : Bool) (samples : List Bool) : Decidable (Steady n v samples) :=
  inferInstanceAs (Decidable (_ ∧ _))

/-- How many samples in a row have shown `v` by now. -/
def runLength (v : Bool) (samples : List Bool) : Nat := (samples.takeWhile (· == v)).length

/-- The level in force after the samples. -/
def debounced (need : Bool → Nat) (start : Bool) : List Bool → Bool
  | [] => start
  | x :: samples =>
      if Steady (need x) x (x :: samples) then x else debounced need start samples

section RunLength

variable {n : Nat} {v x : Bool} {samples : List Bool}

@[simp] theorem runLength_nil : runLength v [] = 0 := rfl

theorem runLength_cons_self : runLength v (v :: samples) = runLength v samples + 1 := by
  unfold runLength
  rw [List.takeWhile_cons_of_pos (by simp), List.length_cons]

theorem runLength_cons_ne (h : x ≠ v) : runLength v (x :: samples) = 0 := by
  unfold runLength
  rw [List.takeWhile_cons_of_neg (by simpa using h), List.length_nil]

theorem steady_zero : Steady 0 v samples := ⟨Nat.zero_le _, by simp⟩

theorem steady_succ_cons : Steady (n + 1) v (x :: samples) ↔ x = v ∧ Steady n v samples := by
  unfold Steady
  rw [List.length_cons, List.take_succ_cons, List.forall_mem_cons, Nat.add_le_add_iff_right]
  exact and_left_comm

theorem steady_iff_le_runLength : Steady n v samples ↔ n ≤ runLength v samples := by
  induction samples generalizing n with
  | nil =>
      rw [runLength_nil]
      exact ⟨fun h => h.1, fun h => ⟨h, by simp⟩⟩
  | cons x samples ih =>
      cases n with
      | zero => exact ⟨fun _ => Nat.zero_le _, fun _ => steady_zero⟩
      | succ n =>
          rw [steady_succ_cons, ih]
          by_cases hx : x = v
          · rw [hx, runLength_cons_self, Nat.add_le_add_iff_right]
            exact and_iff_right rfl
          · rw [runLength_cons_ne hx]
            exact ⟨fun h => absurd h.1 hx, fun h => absurd h (Nat.not_succ_le_zero n)⟩

/-- A steady level is the level of the last sample. -/
theorem Steady.last_eq (h : Steady n v (x :: samples)) (hn : 0 < n) : x = v := by
  obtain ⟨m, rfl⟩ := Nat.exists_eq_succ_of_ne_zero hn.ne'
  exact (steady_succ_cons.mp h).1

theorem Steady.mono {m : Nat} (h : Steady n v samples) (hm : m ≤ n) : Steady m v samples :=
  steady_iff_le_runLength.mpr (hm.trans (steady_iff_le_runLength.mp h))

/-- A level that has just been sampled `n` times. -/
theorem steady_replicate : Steady n v (List.replicate n v ++ samples) := by
  induction n with
  | zero => exact steady_zero
  | succ n ih => exact steady_succ_cons.mpr ⟨rfl, ih⟩

end RunLength

section Reference

variable {need : Bool → Nat} {start v x : Bool} {samples : List Bool}

/-- **The edges of the reference.**  A sample changes the level to `v` exactly when the level
was another and the last `need v` samples are all `v`. -/
theorem debounced_changes_iff (hneed : 0 < need v) :
    debounced need start samples ≠ v ∧ debounced need start (x :: samples) = v ↔
      debounced need start samples ≠ v ∧ Steady (need v) v (x :: samples) := by
  refine and_congr_right fun hne => ?_
  rw [debounced]
  constructor
  · intro h
    split_ifs at h with hsteady
    · exact h ▸ hsteady
    · exact absurd h hne
  · intro h
    obtain rfl := h.last_eq hneed
    rw [if_pos h]

/-- A level that was sampled often enough is in force. -/
theorem debounced_of_steady (hneed : 0 < need v) (h : Steady (need v) v samples) :
    debounced need start samples = v := by
  cases samples with
  | nil => exact absurd h.1 (Nat.not_le.mpr hneed)
  | cons x samples =>
      obtain rfl := h.last_eq hneed
      exact if_pos h

/-- A level and a count of the samples that differ from it. -/
structure Tracks (need : Bool → Nat) (start : Bool) (samples : List Bool) (level : Bool)
    (count : Nat) : Prop where
  level_eq : level = debounced need start samples
  count_eq : count = runLength (!level) samples
  count_lt : count < need (!level)

namespace Tracks

variable {level : Bool} {count : Nat}

theorem init (hneed : 0 < need (!start)) : Tracks need start [] start 0 := ⟨rfl, rfl, hneed⟩

/-- A sample of the level in force restarts the count. -/
theorem same (h : Tracks need start samples level count) :
    Tracks need start (level :: samples) level 0 := by
  refine ⟨?_, (runLength_cons_ne (by simp)).symm, Nat.zero_lt_of_lt h.count_lt⟩
  rw [debounced, ← h.level_eq]
  exact (ite_self level).symm

/-- A sample of the other level is counted. -/
theorem counted (h : Tracks need start samples level count) (hlt : count + 1 < need (!level)) :
    Tracks need start ((!level) :: samples) level (count + 1) := by
  have hcount : runLength (!level) ((!level) :: samples) = count + 1 := by
    rw [runLength_cons_self, ← h.count_eq]
  refine ⟨?_, hcount.symm, hlt⟩
  rw [debounced, if_neg, ← h.level_eq]
  rw [steady_iff_le_runLength, hcount]
  exact Nat.not_le.mpr hlt

/-- With the last one that is needed, the level changes. -/
theorem confirmed (h : Tracks need start samples level count) (hge : need (!level) ≤ count + 1)
    (hneed : 0 < need level) : Tracks need start ((!level) :: samples) (!level) 0 := by
  have hcount : runLength (!level) ((!level) :: samples) = count + 1 := by
    rw [runLength_cons_self, ← h.count_eq]
  refine ⟨?_, (runLength_cons_ne (by simp)).symm, by rwa [Bool.not_not]⟩
  rw [debounced, if_pos]
  rw [steady_iff_le_runLength, hcount]
  exact hge

end Tracks

end Reference

end Debounce
