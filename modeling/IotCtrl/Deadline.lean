import IotCtrl.Transition
import Mathlib.Tactic.Common

/-!
# Deadlines

The inputs of a system are ticks of a clock, calls of a service routine and the rest.  Work
that is pending is either waiting for the clock, which lowers it by one each tick, or waiting
for the service routine, which lowers it by the longest time `D` between two of its calls.

* `Prompt` — the service routine is called at least once in `D` ticks;
* `Ranked` — the work that is left, as a rank over a relation that follows the obligation
  through the run;
* `Ranked.somewhere` — a run with more ticks than there was work meets the obligation;
* `Periodic` — a routine that is due again and again, and what it has done after so many rounds;
* `somewhere_of_prompt` — an obligation that needs two routines to be prompt.
-/

namespace Deadline

open Transition

variable {σ ι γ : Type}

/-- What an input is to the clock. -/
inductive Pace
  | tick
  | serve
  /-- An input that may lengthen the pending work by so many ticks. -/
  | other (charge : Nat)

/-- The ticks among the inputs. -/
def ticks (pace : ι → Pace) : List ι → Nat
  | [] => 0
  | i :: is =>
      match pace i with
      | .tick => ticks pace is + 1
      | _ => ticks pace is

/-- What the other inputs may add. -/
def charges (pace : ι → Pace) : List ι → Nat
  | [] => 0
  | i :: is =>
      match pace i with
      | .other charge => charges pace is + charge
      | _ => charges pace is

/-- No more than `D` ticks pass without a call of the service routine, of which `lag` have
passed before the first input. -/
def Prompt (pace : ι → Pace) (D : Nat) : Nat → List ι → Prop
  | _, [] => True
  | lag, i :: is =>
      match pace i with
      | .tick => lag < D ∧ Prompt pace D (lag + 1) is
      | .serve => Prompt pace D 0 is
      | .other _ => Prompt pace D lag is

theorem ticks_append (pace : ι → Pace) (is js : List ι) :
    ticks pace (is ++ js) = ticks pace is + ticks pace js := by
  induction is with
  | nil => exact (Nat.zero_add _).symm
  | cons i is ih =>
      rw [List.cons_append, ticks, ticks, ih]
      cases pace i with
      | tick => exact Nat.add_right_comm _ _ _
      | _ => rfl

theorem ticks_congr {pace pace' : ι → Pace} (h : ∀ i, pace i = .tick ↔ pace' i = .tick)
    (is : List ι) : ticks pace is = ticks pace' is := by
  induction is with
  | nil => rfl
  | cons i is ih =>
      have hi := h i
      unfold ticks
      rw [ih]
      cases hpace : pace i <;> cases hpace' : pace' i <;> simp_all

theorem charges_eq_zero {pace : ι → Pace} (h : ∀ i charge, pace i = .other charge → charge = 0)
    (is : List ι) : charges pace is = 0 := by
  induction is with
  | nil => rfl
  | cons i is ih =>
      unfold charges
      rw [ih]
      cases hpace : pace i with
      | other charge => exact (Nat.zero_add charge).trans (h i charge hpace)
      | _ => rfl

/-! ### The same turn again and again -/

theorem ticks_turns (pace : ι → Pace) (turn : List ι) (n : Nat) :
    ticks pace (List.replicate n turn).flatten = n * ticks pace turn := by
  induction n with
  | zero => exact (Nat.zero_mul _).symm
  | succ n ih =>
      rw [List.replicate_succ, List.flatten_cons, ticks_append, ih, Nat.succ_mul]
      exact Nat.add_comm _ _

theorem prompt_turns {pace : ι → Pace} {D : Nat} {turn : List ι}
    (hturn : ∀ is, Prompt pace D 0 is → Prompt pace D 0 (turn ++ is)) (n : Nat) :
    Prompt pace D 0 (List.replicate n turn).flatten := by
  induction n with
  | zero => trivial
  | succ n ih =>
      rw [List.replicate_succ, List.flatten_cons]
      exact hturn _ ih

/-- The property holds of some step of the run. -/
def Somewhere (step : σ → ι → σ) (met : σ → ι → Prop) : σ → List ι → Prop
  | _, [] => False
  | s, i :: is => met s i ∨ Somewhere step met (step s i) is

section Lists

variable {step : σ → ι → σ} {met : σ → ι → Prop}

/-- A step of a run, with the inputs before and behind it. -/
theorem somewhere_iff {s : σ} {is : List ι} :
    Somewhere step met s is ↔ ∃ js i ks, is = js ++ i :: ks ∧ met (run step s js) i := by
  induction is generalizing s with
  | nil =>
      constructor
      · exact False.elim
      · rintro ⟨js, i, ks, heq, -⟩
        exact absurd heq (by simp)
  | cons i is ih =>
      constructor
      · rintro (hmet | hlater)
        · exact ⟨[], i, is, rfl, hmet⟩
        · obtain ⟨js, j, ks, rfl, hmet⟩ := ih.mp hlater
          exact ⟨i :: js, j, ks, rfl, hmet⟩
      · rintro ⟨js, j, ks, heq, hmet⟩
        cases js with
        | nil =>
            obtain ⟨rfl, rfl⟩ := List.cons.inj heq
            exact Or.inl hmet
        | cons j' js =>
            obtain ⟨rfl, rfl⟩ := List.cons.inj heq
            exact Or.inr (ih.mpr ⟨js, j, ks, rfl, hmet⟩)

end Lists

/-- The work left before an obligation is met.  `Rel lag g s` follows the obligation through the
run with a token `g`, `lag` ticks behind the last call of the service routine, and `waits g s`
says that it waits for the next one. -/
structure Ranked (step : σ → ι → σ) (pace : ι → Pace) (D : Nat) (Rel : Nat → γ → σ → Prop)
    (waits : γ → σ → Prop) (work : γ → σ → Nat) (met : σ → ι → Prop) : Prop where
  /-- The clock lowers the work, unless the service routine is waited for. -/
  tick : ∀ {lag g s i}, Rel lag g s → lag < D → pace i = .tick → ¬ met s i →
    ∃ h, Rel (lag + 1) h (step s i) ∧
      (waits g s → waits h (step s i) ∧ work h (step s i) ≤ work g s) ∧
      (¬ waits g s → work h (step s i) + 1 ≤ work g s)
  /-- The service routine does what waits for it. -/
  serve : ∀ {lag g s i}, Rel lag g s → pace i = .serve → ¬ met s i → ∃ h, Rel 0 h (step s i) ∧
    (waits g s → work h (step s i) + D ≤ work g s) ∧ work h (step s i) ≤ work g s
  /-- The rest leaves what waits waiting. -/
  other : ∀ {lag g s i charge}, Rel lag g s → pace i = .other charge → ¬ met s i →
    ∃ h, Rel lag h (step s i) ∧ (waits g s → waits h (step s i)) ∧
      work h (step s i) ≤ work g s + charge

section Bound

variable {step : σ → ι → σ} {pace : ι → Pace} {D : Nat} {Rel : Nat → γ → σ → Prop}
  {waits : γ → σ → Prop} {work : γ → σ → Nat} {met : σ → ι → Prop}

/-- As long as the obligation is not met, every tick is paid for: by the work, or, while the
service routine is waited for, by what is left of the time to its next call. -/
theorem Ranked.ticks_le (h : Ranked step pace D Rel waits work met) {is : List ι} :
    ∀ {g : γ} {s : σ} {lag : Nat}, Rel lag g s → lag ≤ D → Prompt pace D lag is →
      ¬ Somewhere step met s is →
      ticks pace is ≤ work g s + charges pace is + D ∧
        (waits g s → ticks pace is ≤ work g s + charges pace is + (D - lag)) := by
  induction is with
  | nil =>
      intro g s lag _ _ _ _
      exact ⟨Nat.zero_le _, fun _ => Nat.zero_le _⟩
  | cons i is ih =>
      intro g s lag hrel hlag hprompt hnone
      have hunmet : ¬ met s i := fun hmet => hnone (Or.inl hmet)
      have hlater : ¬ Somewhere step met (step s i) is := fun hsome => hnone (Or.inr hsome)
      unfold Prompt at hprompt
      unfold ticks charges
      cases hpace : pace i with
      | tick =>
          simp only [hpace] at hprompt ⊢
          obtain ⟨hlt, hprompt⟩ := hprompt
          obtain ⟨g', hrel', hwait, hmove⟩ := h.tick hrel hlt hpace hunmet
          obtain ⟨hall, hwaiting⟩ := ih hrel' (by omega) hprompt hlater
          by_cases hw : waits g s
          · obtain ⟨hw', hle⟩ := hwait hw
            have hwaiting := hwaiting hw'
            exact ⟨by omega, fun _ => by omega⟩
          · have hless := hmove hw
            exact ⟨by omega, fun hw' => absurd hw' hw⟩
      | serve =>
          simp only [hpace] at hprompt ⊢
          obtain ⟨g', hrel', hdone, hle⟩ := h.serve hrel hpace hunmet
          obtain ⟨hall, -⟩ := ih hrel' (Nat.zero_le D) hprompt hlater
          refine ⟨by omega, fun hw => ?_⟩
          have hless := hdone hw
          omega
      | other charge =>
          simp only [hpace] at hprompt ⊢
          obtain ⟨g', hrel', hwait, hle⟩ := h.other hrel hpace hunmet
          obtain ⟨hall, hwaiting⟩ := ih hrel' hlag hprompt hlater
          refine ⟨by omega, fun hw => ?_⟩
          have hwaiting := hwaiting (hwait hw)
          omega

/-- **Deadlines.**  A run with more ticks than there was work meets the obligation. -/
theorem Ranked.somewhere (h : Ranked step pace D Rel waits work met) {g : γ} {s : σ}
    {is : List ι} (hrel : Rel 0 g s) (hprompt : Prompt pace D 0 is)
    (hlong : work g s + charges pace is + D < ticks pace is) : Somewhere step met s is := by
  by_contra hnone
  have hbound := (h.ticks_le hrel (Nat.zero_le D) hprompt hnone).1
  omega

end Bound

/-! ## Periodic routines -/

/-- A routine that the clock makes due.  `wait s` is how many ticks it is not due for, at most
`P` after it was served, and `rounds g s` how often it is served at most without meeting the
obligation. -/
structure Periodic (step : σ → ι → σ) (pace : ι → Pace) (D P : Nat) (Rel : Nat → γ → σ → Prop)
    (wait : σ → Nat) (rounds : γ → σ → Nat) (met : σ → ι → Prop) : Prop where
  tick : ∀ {lag g s i}, Rel lag g s → lag < D → pace i = .tick → ¬ met s i →
    ∃ h, Rel (lag + 1) h (step s i) ∧ wait (step s i) ≤ wait s - 1 ∧
      rounds h (step s i) ≤ rounds g s
  /-- A routine that is due is served, and due again `P` ticks later. -/
  serve : ∀ {lag g s i}, Rel lag g s → pace i = .serve → ¬ met s i → ∃ h, Rel 0 h (step s i) ∧
    (wait s = 0 → wait (step s i) ≤ P ∧ rounds h (step s i) < rounds g s) ∧
    (wait s ≠ 0 → wait (step s i) ≤ wait s ∧ rounds h (step s i) ≤ rounds g s)
  other : ∀ {lag g s i charge}, Rel lag g s → pace i = .other charge → ¬ met s i →
    ∃ h, Rel lag h (step s i) ∧ wait (step s i) ≤ wait s ∧ rounds h (step s i) ≤ rounds g s

section Periodic

variable {step : σ → ι → σ} {pace : ι → Pace} {D P : Nat} {Rel : Nat → γ → σ → Prop}
  {wait : σ → Nat} {rounds : γ → σ → Nat} {met : σ → ι → Prop}

/-- Each round takes the period and the time to the next call of the service routine. -/
theorem Periodic.ranked (h : Periodic step pace D P Rel wait rounds met) :
    Ranked step pace D Rel (fun _ s => wait s = 0)
      (fun g s => wait s + D + rounds g s * (P + D)) met where
  tick := by
    intro lag g s i hrel hlag hpace hunmet
    obtain ⟨g', hnext, hwait, hrounds⟩ := h.tick hrel hlag hpace hunmet
    have hless := Nat.mul_le_mul_right (P + D) hrounds
    exact ⟨g', hnext, fun _ => ⟨by omega, by omega⟩, fun _ => by omega⟩
  serve := by
    intro lag g s i hrel hpace hunmet
    obtain ⟨g', hnext, hdue, hearly⟩ := h.serve hrel hpace hunmet
    have hserved : wait s = 0 →
        wait (step s i) + D + rounds g' (step s i) * (P + D) + D ≤
          wait s + D + rounds g s * (P + D) := by
      intro hzero
      obtain ⟨hwait, hrounds⟩ := hdue hzero
      have hless := Nat.mul_le_mul_right (P + D) (Nat.succ_le_of_lt hrounds)
      rw [Nat.succ_mul] at hless
      omega
    refine ⟨g', hnext, hserved, ?_⟩
    by_cases hzero : wait s = 0
    · exact Nat.le_trans (Nat.le_add_right _ D) (hserved hzero)
    · obtain ⟨hwait, hrounds⟩ := hearly hzero
      have hless := Nat.mul_le_mul_right (P + D) hrounds
      omega
  other := by
    intro lag g s i charge hrel hpace hunmet
    obtain ⟨g', hnext, hwait, hrounds⟩ := h.other hrel hpace hunmet
    have hless := Nat.mul_le_mul_right (P + D) hrounds
    exact ⟨g', hnext, fun hzero => by omega, by omega⟩

/-- **Periodic routines meet their obligations.** -/
theorem Periodic.somewhere (h : Periodic step pace D P Rel wait rounds met) {g : γ} {s : σ}
    {is : List ι} (hrel : Rel 0 g s) (hstart : wait s ≤ P) (hprompt : Prompt pace D 0 is)
    (hlong : (rounds g s + 1) * (P + D) + charges pace is + D < ticks pace is) :
    Somewhere step met s is := by
  rw [Nat.succ_mul] at hlong
  exact h.ranked.somewhere hrel hprompt (by omega)

end Periodic

/-! ## Two routines -/

/-- The ticks since the last call of a routine. -/
def nextLag (pace : ι → Pace) (lag : Nat) (i : ι) : Nat :=
  match pace i with
  | .tick => lag + 1
  | .serve => 0
  | .other _ => lag

/-- The system with the ticks since the last call of a second routine. -/
def lagStep (step : σ → ι → σ) (second : ι → Pace) (p : σ × Nat) (i : ι) : σ × Nat :=
  (step p.1 i, nextLag second p.2 i)

/-- The obligation is met, or the second routine is late. -/
def OrLate (second : ι → Pace) (E : Nat) (met : σ → ι → Prop) (p : σ × Nat) (i : ι) : Prop :=
  met p.1 i ∨ E < nextLag second p.2 i

/-- **Two routines.**  What is met unless the second routine is late, is met if it is prompt. -/
theorem somewhere_of_prompt {step : σ → ι → σ} {second : ι → Pace} {E : Nat} {met : σ → ι → Prop}
    {is : List ι} :
    ∀ {s : σ} {lag : Nat}, lag ≤ E → Prompt second E lag is →
      Somewhere (lagStep step second) (OrLate second E met) (s, lag) is →
      Somewhere step met s is := by
  induction is with
  | nil => exact fun _ _ hsome => hsome
  | cons i is ih =>
      intro s lag hlag hprompt hsome
      have hnext : nextLag second lag i ≤ E ∧ Prompt second E (nextLag second lag i) is := by
        unfold Prompt at hprompt
        unfold nextLag
        cases hpace : second i with
        | tick =>
            simp only [hpace] at hprompt ⊢
            exact hprompt
        | serve =>
            simp only [hpace] at hprompt ⊢
            exact ⟨Nat.zero_le E, hprompt⟩
        | other charge =>
            simp only [hpace] at hprompt ⊢
            exact ⟨hlag, hprompt⟩
      rcases hsome with (hmet | hlate) | hlater
      · exact Or.inl hmet
      · exact absurd hnext.1 (Nat.not_le.mpr hlate)
      · exact Or.inr (ih hnext.1 hnext.2 hlater)

end Deadline
