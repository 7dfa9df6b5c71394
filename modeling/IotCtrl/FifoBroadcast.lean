import Mathlib.Data.List.Basic
import Mathlib.Logic.Relation

/-!
# Broadcast over a first-in first-out channel

One node issues commands.  It carries each of them out itself and puts it into a channel; what
leaves the channel is carried out by every replica.

* `System`, `Step`, `Run` — the logs, the channel and what happens to them;
* `Run.accounted` — what a replica has done and what waits is what was issued, in order;
* `Run.done_eq_of_drained`, `Run.done_prefix` — a replica is never ahead, and has done
  everything once the channel is empty.
-/

namespace FifoBroadcast

variable {κ ι : Type}

/-- The commands issued so far, those in the channel, and those each replica has carried out,
oldest first. -/
structure System (κ ι : Type) where
  issued : List κ
  waiting : List κ
  done : ι → List κ

/-- Nothing was issued yet. -/
def System.initial : System κ ι :=
  { issued := []
    waiting := []
    done := fun _ => [] }

inductive Step : System κ ι → System κ ι → Prop
  /-- Commands are issued, or none. -/
  | issue (b : System κ ι) (cs : List κ) :
      Step b { b with issued := b.issued ++ cs, waiting := b.waiting ++ cs }
  /-- Commands leave the channel. -/
  | deliver (b : System κ ι) {cs rest : List κ} (h : b.waiting = cs ++ rest) :
      Step b { b with waiting := rest, done := fun k => b.done k ++ cs }

abbrev Run : System κ ι → System κ ι → Prop := Relation.ReflTransGen Step

/-- Every command is done or waits. -/
def Accounted (b : System κ ι) : Prop := ∀ k, b.done k ++ b.waiting = b.issued

variable {b b' : System κ ι}

theorem Step.accounted (h : Accounted b) (hstep : Step b b') : Accounted b' := by
  intro k
  cases hstep with
  | issue cs =>
      show b.done k ++ (b.waiting ++ cs) = b.issued ++ cs
      rw [← List.append_assoc, h k]
  | @deliver cs rest hsplit =>
      show (b.done k ++ cs) ++ rest = b.issued
      rw [List.append_assoc, ← hsplit, h k]

namespace Run

/-- **Every command is done or waits**, in the order it was issued in. -/
theorem accounted (h : Run System.initial b) : Accounted b := by
  induction h with
  | refl => exact fun _ => rfl
  | tail _ hstep ih => exact hstep.accounted ih

theorem done_prefix (h : Run System.initial b) (k : ι) : b.done k <+: b.issued :=
  ⟨b.waiting, h.accounted k⟩

theorem done_eq_of_drained (h : Run System.initial b) (hdrained : b.waiting = []) (k : ι) :
    b.done k = b.issued := by
  have hall := h.accounted k
  rwa [hdrained, List.append_nil] at hall

end Run

end FifoBroadcast
