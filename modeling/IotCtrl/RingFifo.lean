import Mathlib.Data.List.Nodup
import Mathlib.Logic.Function.Basic
import Mathlib.Tactic.SplitIfs

/-!
# Bounded ring buffers with one sacrificed slot

A ring of capacity field `maxSize` keeps two indices, `front` and `rear`, both
advanced *before* use: an element is stored at the slot after `rear` and read
from the slot after `front`.  The ring is empty when the indices agree and full
when advancing `rear` would meet `front`, so at most `maxSize - 1` elements are
held and the slot at `front` is never one of them.

`contents` reads the ring as a list, oldest first, and the theorems state each
operation on that list:

* `contents_clear` — emptying;
* `contents_add` / `add_of_full` — appending, and dropping when full;
* `contents_addAll` — appending many, of which only a prefix may fit;
* `suffix_addAll_iff` — when a ring ends with all that was added;
* `take_none_iff` / `contents_take` — removing the oldest;
* `slot_front_addAll` — additions leave the slot of the last removal alone.
-/

/-- A ring of `maxSize` slots.  The bounds on the two indices are part of the
value, so that no ring with an index outside its slots can be built. -/
structure RingFifo (α : Type) (maxSize : Nat) where
  slot : Nat → α
  front : Nat
  rear : Nat
  front_lt : front < maxSize
  rear_lt : rear < maxSize

namespace RingFifo

variable {α : Type} {maxSize : Nat}

/-- Advance one index around the ring. -/
def next (maxSize i : Nat) : Nat := (i + 1) % maxSize

theorem next_lt {i : Nat} (h : i < maxSize) : next maxSize i < maxSize :=
  Nat.mod_lt _ (by omega)

/-- Advancing wraps at most once. -/
theorem next_eq {i : Nat} (h : i < maxSize) :
    next maxSize i = if i + 1 < maxSize then i + 1 else 0 := by
  unfold next
  split_ifs with hlt
  · exact Nat.mod_eq_of_lt hlt
  · have heq : i + 1 = maxSize := by omega
    rw [heq, Nat.mod_self]

/-- An empty ring over the given slots. -/
def empty (slot : Nat → α) (h : 0 < maxSize) : RingFifo α maxSize :=
  { slot := slot, front := 0, rear := 0, front_lt := h, rear_lt := h }

/-- Forget every element; the slots keep their values. -/
def clear (r : RingFifo α maxSize) : RingFifo α maxSize :=
  { r with
    front := 0
    rear := 0
    front_lt := Nat.zero_lt_of_lt r.front_lt
    rear_lt := Nat.zero_lt_of_lt r.front_lt }

/-- The ring cannot take another element. -/
def IsFull (r : RingFifo α maxSize) : Prop := next maxSize r.rear = r.front

instance (r : RingFifo α maxSize) : Decidable r.IsFull :=
  inferInstanceAs (Decidable (_ = _))

/-- Store `x` after the rear, or change nothing when full. -/
def add (r : RingFifo α maxSize) (x : α) : RingFifo α maxSize :=
  if r.IsFull then r
  else
    { r with
      slot := Function.update r.slot (next maxSize r.rear) x
      rear := next maxSize r.rear
      rear_lt := next_lt r.rear_lt }

/-- The slot a removal hands out, and the ring with `front` moved onto it;
`none` when the ring is empty. -/
def takeSlot (r : RingFifo α maxSize) : Option (Nat × RingFifo α maxSize) :=
  if r.front = r.rear then none
  else
    some (next maxSize r.front,
      { r with
        front := next maxSize r.front
        front_lt := next_lt r.front_lt })

/-- Remove the oldest element. -/
def take (r : RingFifo α maxSize) : Option (α × RingFifo α maxSize) :=
  r.takeSlot.map fun p => (r.slot p.1, p.2)

/-- The number of elements held. -/
def size (r : RingFifo α maxSize) : Nat := (r.rear + maxSize - r.front) % maxSize

/-- The elements held, oldest first. -/
def contents (r : RingFifo α maxSize) : List α :=
  (List.range r.size).map fun i => r.slot ((r.front + 1 + i) % maxSize)

/-- Reduction of an index that has wrapped at most once. -/
theorem mod_wrap {i : Nat} (h : i < 2 * maxSize) :
    i % maxSize = if i < maxSize then i else i - maxSize := by
  split_ifs with hlt
  · exact Nat.mod_eq_of_lt hlt
  · rw [Nat.mod_eq_sub_mod (by omega), Nat.mod_eq_of_lt (by omega)]

theorem size_eq (r : RingFifo α maxSize) :
    r.size = if r.front ≤ r.rear then r.rear - r.front
      else r.rear + maxSize - r.front := by
  have hf := r.front_lt
  have hr := r.rear_lt
  unfold size
  rw [mod_wrap (by omega)]
  split_ifs <;> omega

theorem size_lt (r : RingFifo α maxSize) : r.size < maxSize :=
  Nat.mod_lt _ (Nat.zero_lt_of_lt r.front_lt)

@[simp] theorem length_contents (r : RingFifo α maxSize) :
    r.contents.length = r.size := by
  simp [contents]

/-- A full ring is one that holds all but one of its slots. -/
theorem isFull_iff (r : RingFifo α maxSize) :
    r.IsFull ↔ r.contents.length + 1 = maxSize := by
  have hf := r.front_lt
  have hr := r.rear_lt
  rw [IsFull, next_eq hr, length_contents, size_eq]
  split_ifs <;> omega

@[simp] theorem contents_empty (slot : Nat → α) (h : 0 < maxSize) :
    (empty slot h).contents = [] := by
  simp [contents, size, empty]

@[simp] theorem contents_clear (r : RingFifo α maxSize) : r.clear.contents = [] := by
  simp [contents, size, clear]

/-- A full ring drops what is added to it. -/
theorem add_of_full {r : RingFifo α maxSize} (h : r.IsFull) (x : α) :
    r.add x = r := by
  simp [add, h]

/-- Adding to a ring that is not full appends. -/
theorem contents_add {r : RingFifo α maxSize} (h : ¬ r.IsFull) (x : α) :
    (r.add x).contents = r.contents ++ [x] := by
  have hf := r.front_lt
  have hr := r.rear_lt
  have hsize : (r.add x).size = r.size + 1 := by
    have hlen := (isFull_iff r).not.mp h
    rw [length_contents, size_eq] at hlen
    rw [size_eq, size_eq]
    simp only [add, h, if_false, next_eq hr]
    split_ifs at hlen ⊢ <;> omega
  have hlast : (r.front + 1 + r.size) % maxSize = next maxSize r.rear := by
    have hs := size_lt r
    rw [next_eq hr, mod_wrap (by omega), size_eq]
    split_ifs <;> omega
  have hslot : ∀ i, i < r.size →
      (r.front + 1 + i) % maxSize ≠ next maxSize r.rear := by
    intro i hi
    have hs := size_lt r
    rw [next_eq hr, mod_wrap (by omega)]
    rw [size_eq] at hi hs
    split_ifs at hi hs ⊢ <;> omega
  have hfront : (r.add x).front = r.front := by simp [add, h]
  have hslots : (r.add x).slot =
      Function.update r.slot (next maxSize r.rear) x := by simp [add, h]
  rw [contents, hsize, List.range_succ, List.map_append, hfront, hslots]
  congr 1
  · apply List.map_congr_left
    intro i hi
    exact Function.update_of_ne (hslot i (List.mem_range.mp hi)) _ _
  · simp [hlast]

/-- Whatever the fill level, adding keeps what was held as a prefix. -/
theorem contents_prefix_add (r : RingFifo α maxSize) (x : α) :
    r.contents <+: (r.add x).contents := by
  by_cases h : r.IsFull
  · have hsame : (r.add x).contents = r.contents := congrArg contents (add_of_full h x)
    exact hsame ▸ List.prefix_rfl
  · rw [contents_add h]; exact List.prefix_append _ _

/-- Adding in terms of the length held. -/
theorem contents_add_eq (r : RingFifo α maxSize) (x : α) :
    (r.add x).contents =
      if r.contents.length + 1 < maxSize then r.contents ++ [x] else r.contents := by
  have hlt := size_lt r
  by_cases h : r.IsFull
  · have hlen := (isFull_iff r).mp h
    rw [add_of_full h, if_neg (by omega)]
  · have hlen := (isFull_iff r).not.mp h
    rw [length_contents] at hlen
    rw [contents_add h, if_pos (by rw [length_contents]; omega)]

/-- Every element held after adding was held before or is the one added. -/
theorem mem_contents_add {r : RingFifo α maxSize} {x y : α}
    (h : y ∈ (r.add x).contents) : y ∈ r.contents ∨ y = x := by
  by_cases hfull : r.IsFull
  · rw [add_of_full hfull] at h; exact Or.inl h
  · rw [contents_add hfull] at h; simpa using h

/-- Add the elements of a list one after the other. -/
def addAll (r : RingFifo α maxSize) (xs : List α) : RingFifo α maxSize :=
  xs.foldl add r

@[simp] theorem addAll_nil (r : RingFifo α maxSize) : r.addAll [] = r := rfl

@[simp] theorem addAll_cons (r : RingFifo α maxSize) (x : α) (xs : List α) :
    r.addAll (x :: xs) = (r.add x).addAll xs := rfl

theorem addAll_append (r : RingFifo α maxSize) (xs ys : List α) :
    r.addAll (xs ++ ys) = (r.addAll xs).addAll ys :=
  List.foldl_append

theorem addAll_of_full {r : RingFifo α maxSize} (h : r.IsFull) (xs : List α) :
    r.addAll xs = r := by
  induction xs with
  | nil => rfl
  | cons x xs ih => rw [addAll_cons, add_of_full h, ih]

/-- **Adding many.**  Exactly the elements that fit are appended; the rest are
dropped. -/
theorem contents_addAll (r : RingFifo α maxSize) (xs : List α) :
    (r.addAll xs).contents =
      r.contents ++ xs.take (maxSize - 1 - r.contents.length) := by
  induction xs generalizing r with
  | nil => simp
  | cons x xs ih =>
      by_cases h : r.IsFull
      · have hfull := (isFull_iff r).mp h
        have hroom : maxSize - 1 - r.contents.length = 0 := by omega
        rw [addAll_of_full h, hroom, List.take_zero, List.append_nil]
      · have hlt := size_lt r
        have hfull := (isFull_iff r).not.mp h
        rw [length_contents] at hfull
        have hroom : maxSize - 1 - r.contents.length =
            (maxSize - 1 - (r.add x).contents.length) + 1 := by
          rw [contents_add h, List.length_append, length_contents]
          simp only [List.length_singleton]
          omega
        rw [addAll_cons, ih, hroom, List.take_succ_cons, contents_add h,
          List.append_assoc, List.singleton_append]

/-- Where there is room for all of them, all are appended. -/
theorem contents_addAll_of_room {r : RingFifo α maxSize} {xs : List α}
    (h : r.contents.length + xs.length < maxSize) :
    (r.addAll xs).contents = r.contents ++ xs := by
  rw [contents_addAll, List.take_of_length_le (by omega)]

/-- A ring that is not full behind it has taken them all. -/
theorem contents_addAll_of_not_isFull {r : RingFifo α maxSize} {xs : List α}
    (h : ¬ (r.addAll xs).IsFull) : (r.addAll xs).contents = r.contents ++ xs := by
  have hlt := size_lt (r.addAll xs)
  rw [isFull_iff, contents_addAll, List.length_append, List.length_take] at h
  rw [← length_contents, contents_addAll, List.length_append, List.length_take] at hlt
  exact contents_addAll_of_room (by omega)

theorem contents_prefix_addAll (r : RingFifo α maxSize) (xs : List α) :
    r.contents <+: (r.addAll xs).contents := by
  rw [contents_addAll]
  exact List.prefix_append _ _

/-- A proper, non-empty part of a list without repetitions does not end like the
list. -/
theorem not_suffix_append_take {β : Type} {as bs : List β} {k : Nat} (hnd : bs.Nodup)
    (hpos : 0 < k) (hlt : k < bs.length) : ¬ bs <:+ as ++ bs.take k := by
  rintro ⟨t, ht⟩
  have hbs : bs ≠ [] := by
    rintro rfl
    simp at hlt
  have hne : bs.take k ≠ [] := by
    rw [Ne, List.take_eq_nil_iff]
    rintro (h | h)
    · omega
    · exact hbs h
  have hlast := congrArg List.getLast? ht
  rw [List.getLast?_append_of_ne_nil _ hbs, List.getLast?_append_of_ne_nil _ hne,
    List.getLast?_eq_getElem?, List.getLast?_eq_getElem?, List.length_take,
    List.getElem?_take_of_lt (by omega)] at hlast
  have hidx := (List.getElem?_inj (by omega) hnd).mp hlast
  omega

/-- **When nothing is lost.**  After adding elements whose images are distinct,
the ring ends with all of their images exactly when there was room for all of
them, or when it was full and ended with them already. -/
theorem suffix_addAll_iff {β : Type} (f : α → β) (r : RingFifo α maxSize) {xs : List α}
    (hnd : (xs.map f).Nodup) :
    xs.map f <:+ (r.addAll xs).contents.map f ↔
      r.contents.length + xs.length < maxSize ∨
        (r.IsFull ∧ xs.map f <:+ r.contents.map f) := by
  have hlt := size_lt r
  rw [← length_contents] at hlt
  constructor
  · intro h
    by_cases hroom : r.contents.length + xs.length < maxSize
    · exact Or.inl hroom
    · rw [contents_addAll, List.map_append, List.map_take] at h
      rcases Nat.eq_zero_or_pos (maxSize - 1 - r.contents.length) with hk | hk
      · refine Or.inr ⟨(isFull_iff r).mpr (by omega), ?_⟩
        rwa [hk, List.take_zero, List.append_nil] at h
      · exact absurd h (not_suffix_append_take hnd hk (by rw [List.length_map]; omega))
  · rintro (hroom | ⟨hfull, h⟩)
    · rw [contents_addAll_of_room hroom, List.map_append]
      exact List.suffix_append _ _
    · rwa [addAll_of_full hfull]

/-- Only an empty ring has nothing to hand out. -/
theorem take_none_iff (r : RingFifo α maxSize) :
    r.take = none ↔ r.contents = [] := by
  have hf := r.front_lt
  have hr := r.rear_lt
  rw [← List.length_eq_zero_iff, length_contents, size_eq, take, takeSlot]
  split_ifs <;> simp <;> omega

/-- Removing hands out the oldest element and keeps the others in order. -/
theorem contents_take {r r' : RingFifo α maxSize} {x : α}
    (h : r.take = some (x, r')) : r.contents = x :: r'.contents := by
  have hf := r.front_lt
  have hr := r.rear_lt
  obtain ⟨p, hp, hx⟩ := Option.map_eq_some_iff.mp h
  have hne : r.front ≠ r.rear := by
    intro heq
    simp [takeSlot, heq] at hp
  simp only [takeSlot, hne, if_false, Option.some.injEq] at hp
  subst hp
  obtain ⟨rfl, rfl⟩ := Prod.mk.inj hx
  have hsize : r.size =
      size { r with front := next maxSize r.front, front_lt := next_lt hf } + 1 := by
    rw [size_eq, size_eq]
    simp only [next_eq hf]
    split_ifs <;> omega
  rw [contents, hsize, List.range_succ_eq_map, List.map_cons, contents]
  congr 1
  rw [List.map_map]
  apply List.map_congr_left
  intro i _
  have hidx : (r.front + 1 + (i + 1)) % maxSize =
      (next maxSize r.front + 1 + i) % maxSize := by
    unfold next
    rw [show (r.front + 1) % maxSize + 1 + i = (r.front + 1) % maxSize + (1 + i) by omega,
      Nat.mod_add_mod]
    congr 1
    omega
  exact congrArg r.slot hidx

/-! ## The slot handed out -/

theorem takeSlot_eq {r r' : RingFifo α maxSize} {slot : Nat} (h : r.takeSlot = some (slot, r')) :
    r'.front = slot ∧ r'.slot = r.slot := by
  unfold takeSlot at h
  split_ifs at h
  obtain ⟨rfl, rfl⟩ := Prod.mk.inj (Option.some.inj h)
  exact ⟨rfl, rfl⟩

theorem slot_of_takeSlot {r : RingFifo α maxSize} {p : Nat × RingFifo α maxSize}
    (h : r.takeSlot = some p) : p.2.slot p.1 = r.slot p.1 :=
  congrFun (takeSlot_eq h).2 p.1

/-- Nothing is ever stored at the front. -/
theorem slot_front_add (r : RingFifo α maxSize) (x : α) :
    (r.add x).slot r.front = r.slot r.front ∧ (r.add x).front = r.front := by
  by_cases h : r.IsFull
  · rw [add_of_full h]
    exact ⟨rfl, rfl⟩
  · unfold add
    rw [if_neg h]
    exact ⟨Function.update_of_ne (fun heq => h heq.symm) _ _, rfl⟩

theorem slot_front_addAll (r : RingFifo α maxSize) (xs : List α) :
    (r.addAll xs).slot r.front = r.slot r.front := by
  induction xs generalizing r with
  | nil => rfl
  | cons x xs ih =>
      obtain ⟨hslot, hfront⟩ := slot_front_add r x
      rw [addAll_cons, ← hfront, ih, hfront, hslot]

end RingFifo
