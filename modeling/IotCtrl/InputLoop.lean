import Mathlib.Logic.Basic

/-!
# Loops that read a sequence of inputs

A loop takes one input each turn and is left when its condition fails before a turn.  The inputs
are an infinite sequence, of which it reads as many as it takes turns.

* `Ends` — the loop is left after a number of turns; `Ends.unique`;
* `after_invariant` — what every turn preserves;
* `exists_ends_le` — a measure that every turn lowers bounds the turns, whatever is read.
-/

namespace InputLoop

variable {σ ι : Type} (turn : ι → σ → σ) (running : σ → Prop) (inputs : Nat → ι) (start : σ)

/-- The state after so many turns. -/
def after : Nat → σ
  | 0 => start
  | n + 1 => turn (inputs n) (after n)

/-- The loop is left after `n` turns and not before. -/
def Ends (n : Nat) : Prop :=
  ¬ running (after turn inputs start n) ∧ ∀ m < n, running (after turn inputs start m)

instance [∀ s, Decidable (running s)] (n : Nat) : Decidable (Ends turn running inputs start n) :=
  inferInstanceAs (Decidable (_ ∧ _))

variable {turn running inputs start}

/-- A loop is left once. -/
theorem Ends.unique {m n : Nat} (hm : Ends turn running inputs start m)
    (hn : Ends turn running inputs start n) : m = n := by
  rcases Nat.lt_trichotomy m n with hlt | heq | hgt
  · exact absurd (hn.2 m hlt) hm.1
  · exact heq
  · exact absurd (hm.2 n hgt) hn.1

/-- **Invariants.**  What holds at the start and is preserved by every turn of the running loop
holds as long as it runs. -/
theorem after_invariant {I : σ → Prop} (hstart : I start)
    (hturn : ∀ x s, running s → I s → I (turn x s)) {n : Nat}
    (hrun : ∀ m < n, running (after turn inputs start m)) : I (after turn inputs start n) := by
  induction n with
  | zero => exact hstart
  | succ n ih =>
      apply hturn _ _ (hrun n (Nat.lt_succ_self n))
      exact ih fun m hm => hrun m (Nat.lt_succ_of_lt hm)

/-- Turns are paid for by the measure. -/
theorem measure_after_add_le {μ : σ → Nat} {I : σ → Prop} (hstart : I start)
    (hturn : ∀ x s, running s → I s → I (turn x s) ∧ μ (turn x s) < μ s) {n : Nat}
    (hrun : ∀ m < n, running (after turn inputs start m)) :
    μ (after turn inputs start n) + n ≤ μ start := by
  induction n with
  | zero => exact Nat.le_refl _
  | succ n ih =>
      have hbefore : ∀ m < n, running (after turn inputs start m) :=
        fun m hm => hrun m (Nat.lt_succ_of_lt hm)
      have hinv : I (after turn inputs start n) :=
        after_invariant hstart (fun x s h hI => (hturn x s h hI).1) hbefore
      have hless : μ (after turn inputs start (n + 1)) < μ (after turn inputs start n) :=
        (hturn (inputs n) _ (hrun n (Nat.lt_succ_self n)) hinv).2
      have hpaid := ih hbefore
      omega

/-- **Termination.**  A loop whose turns all lower a measure is left within that many turns. -/
theorem exists_ends_le {μ : σ → Nat} {I : σ → Prop} (hstart : I start)
    (hturn : ∀ x s, running s → I s → I (turn x s) ∧ μ (turn x s) < μ s) :
    ∃ n ≤ μ start, Ends turn running inputs start n := by
  have hleft : ∃ n, n ≤ μ start ∧ ¬ running (after turn inputs start n) := by
    apply Classical.byContradiction
    intro hnone
    have hrun : ∀ m < μ start + 1, running (after turn inputs start m) := by
      intro m hm
      apply Classical.byContradiction
      exact fun hstop => hnone ⟨m, Nat.le_of_lt_succ hm, hstop⟩
    have hpaid := measure_after_add_le hstart hturn hrun
    omega
  obtain ⟨n, hn, hstop⟩ := hleft
  induction n using Nat.strongRecOn with
  | ind n ih =>
      by_cases hrun : ∀ m < n, running (after turn inputs start m)
      · exact ⟨n, hn, hstop, hrun⟩
      · obtain ⟨m, hm⟩ := Classical.not_forall.mp hrun
        obtain ⟨hlt, hearlier⟩ := Classical.not_imp.mp hm
        exact ih m hlt (Nat.le_trans (Nat.le_of_lt hlt) hn) hearlier

end InputLoop
