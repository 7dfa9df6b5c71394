import Mathlib.Data.List.Basic

/-!
# Computations that log their accesses

`Logged κ α` is a result with the accesses made on the way to it.  A program is written a
second time in this monad, each access through `access`; `Within P x t` then says of the
copy `t` that it computes what the program does, `x`, and that every access of it
satisfies `P`.

The rules follow the shape of a program.

* `Within.pure`, `Within.access`, `Within.bind` — statements;
* `Within.ite` — a branch, each side under its own condition;
* `Within.foldlM`, `Within.anyM`, `Within.mapM'` — loops over a list.
-/

/-- A result and the accesses on the way to it, in order. -/
structure Logged (κ α : Type) where
  val : α
  log : List κ

namespace Logged

variable {κ ι σ α β : Type}

instance : Monad (Logged κ) where
  pure x := ⟨x, []⟩
  bind t f := ⟨(f t.val).val, t.log ++ (f t.val).log⟩

/-- The access `k`, which yields `x`. -/
def access (k : κ) (x : α) : Logged κ α := ⟨x, [k]⟩

/-- `t` computes `x`, and every access on the way satisfies `P`. -/
structure Within (P : κ → Prop) (x : α) (t : Logged κ α) : Prop where
  val : t.val = x
  log : ∀ k ∈ t.log, P k

namespace Within

variable {P : κ → Prop}

theorem pure {x : α} : Within P x (Pure.pure x : Logged κ α) :=
  ⟨rfl, fun _ hk => absurd hk List.not_mem_nil⟩

theorem access {k : κ} (h : P k) {x : α} : Within P x (Logged.access k x) := by
  refine ⟨rfl, fun j hj => ?_⟩
  rwa [List.mem_singleton.mp hj]

/-- One statement, and the rest of the program on its result. -/
theorem bind {x : α} {y : β} {t : Logged κ α} {f : α → Logged κ β} (ht : Within P x t)
    (hf : Within P y (f x)) : Within P y (t >>= f) := by
  obtain ⟨rfl, hlog⟩ := ht
  refine ⟨hf.val, fun k hk => ?_⟩
  exact (List.mem_append.mp hk).elim (hlog k) (hf.log k)

/-- Both sides of a branch. -/
theorem ite {c : Prop} [Decidable c] {x y : α} {t u : Logged κ α} (ht : c → Within P x t)
    (hu : ¬ c → Within P y u) :
    Within P (if c then x else y) (if c then t else u) := by
  by_cases hc : c
  · rw [if_pos hc, if_pos hc]
    exact ht hc
  · rw [if_neg hc, if_neg hc]
    exact hu hc

/-- A loop that carries a state. -/
theorem foldlM {g : σ → ι → σ} {f : σ → ι → Logged κ σ} (xs : List ι) (s : σ)
    (hf : ∀ t, ∀ i ∈ xs, Within P (g t i) (f t i)) :
    Within P (xs.foldl g s) (xs.foldlM f s) := by
  induction xs generalizing s with
  | nil => exact Within.pure
  | cons i xs ih =>
      have hrest : ∀ t, ∀ j ∈ xs, Within P (g t j) (f t j) :=
        fun t j hj => hf t j (List.mem_cons_of_mem _ hj)
      exact (hf s i List.mem_cons_self).bind (ih (g s i) hrest)

/-- A search that stops at the first hit. -/
theorem anyM {p : ι → Bool} {q : ι → Logged κ Bool} (xs : List ι)
    (hq : ∀ i ∈ xs, Within P (p i) (q i)) : Within P (xs.any p) (xs.anyM q) := by
  induction xs with
  | nil => exact Within.pure
  | cons i xs ih =>
      have hrest := ih fun j hj => hq j (List.mem_cons_of_mem _ hj)
      refine (hq i List.mem_cons_self).bind ?_
      rw [List.any_cons]
      cases p i with
      | true => exact Within.pure
      | false => exact hrest

/-- A loop that collects its results. -/
theorem mapM' {g : ι → α} {f : ι → Logged κ α} (xs : List ι)
    (hf : ∀ i ∈ xs, Within P (g i) (f i)) : Within P (xs.map g) (xs.mapM' f) := by
  induction xs with
  | nil => exact Within.pure
  | cons i xs ih =>
      have hrest := ih fun j hj => hf j (List.mem_cons_of_mem _ hj)
      exact (hf i List.mem_cons_self).bind (hrest.bind Within.pure)

end Within

end Logged
