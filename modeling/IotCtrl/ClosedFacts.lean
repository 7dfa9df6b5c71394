import Mathlib.Logic.Basic

/-!
# Facts about closed lists

Side conditions such as `a ∉ [b, c]`, for closed lists over an enumeration, are left to
instance resolution: a check computes through reducible definitions, and `Evident` hands its
result on.  `code` numbers the constructors.

* `not_mem_of_lacks`, `mem_of_has`, `subset_of_within` — what the checks establish.
-/

namespace ClosedFacts

/-- A check that came out true. -/
class Checked (b : Bool) : Prop where
  out : b = true

instance : Checked true := ⟨rfl⟩

/-- A side condition that instance resolution finds. -/
class Evident (p : Prop) : Prop where
  out : p

variable {α : Type} (code : α → Nat)

/-- Whether an element is in a list, by its number. -/
@[reducible] def has (a : α) : List α → Bool
  | [] => false
  | b :: bs =>
      match Nat.beq (code a) (code b) with
      | true => true
      | false => has a bs

/-- Whether it is not. -/
@[reducible] def lacks (a : α) : List α → Bool
  | [] => true
  | b :: bs =>
      match Nat.beq (code a) (code b) with
      | true => false
      | false => lacks a bs

/-- Whether every element of a list is in another one. -/
@[reducible] def within : List α → List α → Bool
  | [], _ => true
  | a :: as, bs =>
      match has code a bs with
      | true => within as bs
      | false => false

/-- Whether none is. -/
@[reducible] def apart : List α → List α → Bool
  | [], _ => true
  | a :: as, bs =>
      match lacks code a bs with
      | true => apart as bs
      | false => false

variable {code}

/-- Elements with other numbers are other elements, so that `code` may be any function here. -/
theorem not_mem_of_lacks {a : α} {bs : List α} (h : lacks code a bs = true) : a ∉ bs := by
  induction bs with
  | nil => exact List.not_mem_nil
  | cons b bs ih =>
      unfold lacks at h
      split at h
      · cases h
      · rename_i hne
        intro hmem
        rcases List.mem_cons.mp hmem with rfl | hmem
        · rw [Nat.beq_refl] at hne
          cases hne
        · exact ih h hmem

/-- An equal number is an equal element only if `code` tells the elements apart. -/
theorem mem_of_has (hcode : ∀ a b : α, code a = code b → a = b) {a : α} {bs : List α}
    (h : has code a bs = true) : a ∈ bs := by
  induction bs with
  | nil => cases h
  | cons b bs ih =>
      unfold has at h
      split at h
      · rename_i heq
        rw [hcode a b (Nat.eq_of_beq_eq_true heq)]
        exact List.mem_cons_self
      · exact List.mem_cons_of_mem _ (ih h)

/-- What `within` finds is an inclusion, by induction on the smaller list. -/
theorem subset_of_within (hcode : ∀ a b : α, code a = code b → a = b) {as bs : List α}
    (h : within code as bs = true) : ∀ a ∈ as, a ∈ bs := by
  induction as with
  | nil => exact fun a ha => absurd ha List.not_mem_nil
  | cons b as ih =>
      unfold within at h
      split at h
      · rename_i hb
        intro a ha
        rcases List.mem_cons.mp ha with rfl | ha
        · exact mem_of_has hcode hb
        · exact ih h a ha
      · cases h

/-- Two lists without a common number have no common element. -/
theorem disjoint_of_apart {as bs : List α} (h : apart code as bs = true) :
    ∀ a ∈ as, a ∉ bs := by
  induction as with
  | nil => exact fun a ha => absurd ha List.not_mem_nil
  | cons b as ih =>
      unfold apart at h
      split at h
      · rename_i hb
        intro a ha
        rcases List.mem_cons.mp ha with rfl | ha
        · exact not_mem_of_lacks hb
        · exact ih h a ha
      · cases h

end ClosedFacts
