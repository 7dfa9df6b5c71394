import Mathlib.Data.List.Basic

/-!
# Step functions, runs and reachable states

A system is a total step function `step : σ → ι → σ` over an input alphabet.
`run` takes a list of inputs, `Reach` is the set of states met by runs whose
every step is allowed by a side condition `ok`.

* `Reach.invariant` — an invariant of the initial states that every allowed step
  preserves holds in every reachable state;
* `Reach.mono` — fewer side conditions, more states;
* `reach_run` — the state after an explicit list of allowed inputs;
* `Trail`, `Trail.invariant` — reachable states together with the steps that led there, and
  the invariants that relate the two;
* `since` — the part of a history behind the last entry of a kind;
* `foldl_rel`, `foldl_inv` — the same two arguments for a loop.
-/

namespace Transition

variable {σ ι : Type}

/-- The state after a list of inputs. -/
def run (step : σ → ι → σ) (s : σ) (is : List ι) : σ := is.foldl step s

theorem run_cons (step : σ → ι → σ) (s : σ) (i : ι) (is : List ι) :
    run step s (i :: is) = run step (step s i) is := rfl

theorem run_append (step : σ → ι → σ) (s : σ) (is js : List ι) :
    run step s (is ++ js) = run step (run step s is) js :=
  List.foldl_append

/-- States met from an initial one by steps that `ok` allows. -/
inductive Reach (init : σ → Prop) (step : σ → ι → σ) (ok : σ → ι → Prop) : σ → Prop
  | start {s : σ} (h : init s) : Reach init step ok s
  | next {s : σ} {i : ι} (h : Reach init step ok s) (hok : ok s i) :
      Reach init step ok (step s i)

/-- Every input of the list is allowed where it is taken. -/
def Along (step : σ → ι → σ) (ok : σ → ι → Prop) : σ → List ι → Prop
  | _, [] => True
  | s, i :: is => ok s i ∧ Along step ok (step s i) is

instance Along.decidable {step : σ → ι → σ} {ok : σ → ι → Prop} [∀ s i, Decidable (ok s i)] :
    ∀ (is : List ι) (s : σ), Decidable (Along step ok s is)
  | [], _ => isTrue trivial
  | i :: is, s => @instDecidableAnd _ _ _ (Along.decidable is (step s i))

theorem Along.of_forall {step : σ → ι → σ} {ok : σ → ι → Prop} (h : ∀ s i, ok s i) :
    ∀ (is : List ι) (s : σ), Along step ok s is
  | [], _ => trivial
  | i :: is, s => ⟨h s i, Along.of_forall h is (step s i)⟩

theorem Along.append {step : σ → ι → σ} {ok : σ → ι → Prop} {s : σ} {is js : List ι}
    (his : Along step ok s is) (hjs : Along step ok (run step s is) js) :
    Along step ok s (is ++ js) := by
  induction is generalizing s with
  | nil => exact hjs
  | cons i is ih => exact ⟨his.1, ih his.2 hjs⟩

variable {init : σ → Prop} {step : σ → ι → σ} {ok ok' : σ → ι → Prop}

/-- **Invariants.**  What holds initially and is preserved by every allowed step
holds in every reachable state. -/
theorem Reach.invariant {I : σ → Prop} (hinit : ∀ s, init s → I s)
    (hstep : ∀ s i, I s → ok s i → I (step s i))
    {s : σ} (h : Reach init step ok s) : I s := by
  induction h with
  | start h => exact hinit _ h
  | next _ hok ih => exact hstep _ _ ih hok

theorem Reach.mono (hok : ∀ s i, ok s i → ok' s i) {s : σ}
    (h : Reach init step ok s) : Reach init step ok' s := by
  induction h with
  | start h => exact Reach.start h
  | next _ h ih => exact Reach.next ih (hok _ _ h)

theorem Reach.run_of_along {s : σ} (h : Reach init step ok s) {is : List ι}
    (his : Along step ok s is) : Reach init step ok (run step s is) := by
  induction is generalizing s with
  | nil => exact h
  | cons i is ih => exact ih (Reach.next h his.1) his.2

/-- A run of allowed inputs from an initial state. -/
theorem reach_run {s : σ} (h : init s) {is : List ι} (his : Along step ok s is) :
    Reach init step ok (run step s is) :=
  Reach.run_of_along (Reach.start h) his

/-! ## Histories -/

/-- States met by allowed steps, with the steps that led there, latest first. -/
inductive Trail (init : σ → Prop) (step : σ → ι → σ) (ok : σ → ι → Prop) :
    List (σ × ι) → σ → Prop
  | start {s : σ} (h : init s) : Trail init step ok [] s
  | next {past : List (σ × ι)} {s : σ} {i : ι} (h : Trail init step ok past s) (hok : ok s i) :
      Trail init step ok ((s, i) :: past) (step s i)

/-- **Invariants of histories.** -/
theorem Trail.invariant {I : List (σ × ι) → σ → Prop} (hinit : ∀ s, init s → I [] s)
    (hstep : ∀ past s i, I past s → ok s i → I ((s, i) :: past) (step s i))
    {past : List (σ × ι)} {s : σ} (h : Trail init step ok past s) : I past s := by
  induction h with
  | start h => exact hinit _ h
  | next _ hok ih => exact hstep _ _ _ ih hok

theorem Trail.reach {past : List (σ × ι)} {s : σ} (h : Trail init step ok past s) :
    Reach init step ok s := by
  induction h with
  | start h => exact Reach.start h
  | next _ hok ih => exact Reach.next ih hok

theorem Trail.mono (hok : ∀ s i, ok s i → ok' s i) {past : List (σ × ι)} {s : σ}
    (h : Trail init step ok past s) : Trail init step ok' past s := by
  induction h with
  | start h => exact Trail.start h
  | next _ h ih => exact Trail.next ih (hok _ _ h)

/-- Every step of a history was allowed. -/
theorem Trail.allowed {past : List (σ × ι)} {s : σ} (h : Trail init step ok past s) :
    ∀ e ∈ past, ok e.1 e.2 := by
  induction h with
  | start => simp
  | next _ hok ih => exact List.forall_mem_cons.mpr ⟨hok, ih⟩

/-- Every state of a history was reached. -/
theorem Trail.mem_reach {past : List (σ × ι)} {s : σ} (h : Trail init step ok past s) :
    ∀ e ∈ past, Reach init step ok e.1 := by
  induction h with
  | start => simp
  | next h _ ih => exact List.forall_mem_cons.mpr ⟨h.reach, ih⟩

theorem Reach.trail {s : σ} (h : Reach init step ok s) : ∃ past, Trail init step ok past s := by
  induction h with
  | start h => exact ⟨[], Trail.start h⟩
  | next _ hok ih =>
      obtain ⟨past, hpast⟩ := ih
      exact ⟨_, Trail.next hpast hok⟩

/-- The steps of a run, behind those of `past`. -/
def passed (step : σ → ι → σ) : List (σ × ι) → σ → List ι → List (σ × ι)
  | past, _, [] => past
  | past, s, i :: is => passed step ((s, i) :: past) (step s i) is

theorem Trail.run_of_along {past : List (σ × ι)} {s : σ} (h : Trail init step ok past s)
    {is : List ι} (his : Along step ok s is) :
    Trail init step ok (passed step past s is) (run step s is) := by
  induction is generalizing past s with
  | nil => exact h
  | cons i is ih => exact ih (Trail.next h his.1) his.2

/-- The history of a run of allowed inputs from an initial state. -/
theorem trail_run {s : σ} (h : init s) {is : List ι} (his : Along step ok s is) :
    Trail init step ok (passed step [] s is) (run step s is) :=
  Trail.run_of_along (Trail.start h) his

/-- The entries behind the last one that satisfies `p`, in a list with the latest entry
first. -/
def since {α : Type} (p : α → Prop) [DecidablePred p] (past : List α) : List α :=
  past.takeWhile fun x => ¬ p x

section Since

variable {α : Type} {p : α → Prop} [DecidablePred p] {x : α} {past : List α}

@[simp] theorem since_nil : since p [] = [] := rfl

theorem since_cons_of (h : p x) : since p (x :: past) = [] :=
  List.takeWhile_cons_of_neg (by simp [h])

theorem since_cons_not (h : ¬ p x) : since p (x :: past) = x :: since p past :=
  List.takeWhile_cons_of_pos (by simp [h])

end Since

/-! ## Loops -/

/-- A loop stays inside a reflexive and transitive relation its body stays in. -/
theorem foldl_rel {R : σ → σ → Prop} (hrefl : ∀ s, R s s)
    (htrans : ∀ {a b c}, R a b → R b c → R a c) {f : σ → ι → σ} :
    ∀ (xs : List ι) (s : σ), (∀ x ∈ xs, ∀ t, R t (f t x)) → R s (xs.foldl f s)
  | [], s, _ => hrefl s
  | x :: xs, s, hf =>
      htrans (hf x List.mem_cons_self s)
        (foldl_rel hrefl htrans xs (f s x)
          (fun y hy => hf y (List.mem_cons_of_mem _ hy)))

/-- A loop keeps an invariant its body keeps. -/
theorem foldl_inv {I : σ → Prop} {f : σ → ι → σ} :
    ∀ (xs : List ι) (s : σ), I s → (∀ x ∈ xs, ∀ t, I t → I (f t x)) → I (xs.foldl f s)
  | [], _, hs, _ => hs
  | x :: xs, s, hs, hf =>
      foldl_inv xs (f s x) (hf x List.mem_cons_self s hs)
        (fun y hy => hf y (List.mem_cons_of_mem _ hy))

end Transition
