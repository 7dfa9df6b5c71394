import Mathlib.Data.List.Basic

/-!
# Reassembly in one buffer

A message that fits travels as one whole piece.  A longer one is cut every `size` symbols into
a first piece, middle pieces and a final piece, numbered from zero.  The receiver has one draft
for all messages, in one buffer: a whole piece is complete at once, but it is put where the
draft is.  Nothing but its number ties a piece to the message it was cut from.

* `accept`, `assemble` — one piece, and a list of them;
* `PieceOf`, `completed_of_pieces` — pieces of one message that are lost, repeated and out of
  order complete that message or nothing;
* `Tail`, `Repeated`, `assemble_repeated` — pieces that all arrive in order, each once or more
  often, complete their message once.
-/

namespace Reassembly

variable {α τ : Type}

/-- Where a piece stands in its message. -/
inductive Place
  | whole
  | first
  | middle
  | final
deriving DecidableEq

structure Piece (α : Type) where
  place : Place
  number : Nat
  data : List α

/-- A message being put together: the number of the piece it waits for, and what has arrived. -/
structure Draft (α : Type) where
  next : Nat
  data : List α

/-- A block copied to the beginning of another, as far as that reaches. -/
def overlay (data old : List α) : List α := data.take old.length ++ old.drop data.length

/-- A piece continues a draft that waits for its number and has room for it. -/
def Continues (limit : Nat) (d : Draft α) (p : Piece α) : Prop :=
  p.number = d.next ∧ d.data.length + p.data.length ≤ limit

instance (limit : Nat) (d : Draft α) (p : Piece α) : Decidable (Continues limit d p) :=
  inferInstanceAs (Decidable (_ ∧ _))

/-- One piece: the draft behind it, and the message it completes. -/
def accept (limit : Nat) (d : Option (Draft α)) (p : Piece α) :
    Option (Draft α) × Option (List α) :=
  match p.place, d with
  | .whole, d => (d.map fun d => { d with data := overlay p.data d.data }, some p.data)
  | .first, _ => (some { next := p.number + 1, data := p.data }, none)
  | .middle, some d =>
      if Continues limit d p then (some { next := d.next + 1, data := d.data ++ p.data }, none)
      else (some d, none)
  | .final, some d =>
      if Continues limit d p then (none, some (d.data ++ p.data)) else (some d, none)
  | _, none => (none, none)

/-- The draft behind a list of labelled pieces, and the messages completed, each with the label
of the piece that completed it. -/
def assemble (limit : Nat) : Option (Draft α) → List (τ × Piece α) →
    Option (Draft α) × List (τ × List α)
  | d, [] => (d, [])
  | d, x :: xs =>
      let (d', m) := accept limit d x.2
      let (d'', ms) := assemble limit d' xs
      (d'', (m.toList.map fun m => (x.1, m)) ++ ms)

variable {limit : Nat}

theorem assemble_cons (d : Option (Draft α)) (x : τ × Piece α) (xs : List (τ × Piece α)) :
    assemble limit d (x :: xs) =
      ((assemble limit (accept limit d x.2).1 xs).1,
        ((accept limit d x.2).2.toList.map fun m => (x.1, m)) ++
          (assemble limit (accept limit d x.2).1 xs).2) := rfl

theorem assemble_append (d : Option (Draft α)) (xs ys : List (τ × Piece α)) :
    assemble limit d (xs ++ ys) =
      ((assemble limit (assemble limit d xs).1 ys).1,
        (assemble limit d xs).2 ++ (assemble limit (assemble limit d xs).1 ys).2) := by
  induction xs generalizing d with
  | nil => rfl
  | cons x xs ih =>
      rw [List.cons_append, assemble_cons, ih, assemble_cons, List.append_assoc]

/-! ## Pieces of one message -/

/-- What a piece of a message holds. -/
def PieceOf (size : Nat) (msg : List α) (p : Piece α) : Prop :=
  match p.place with
  | .whole => p.data = msg
  | .first => p.number = 0 ∧ p.data = msg.take size
  | .middle => p.data = (msg.drop (size * p.number)).take size
  | .final => p.data = msg.drop (size * p.number)

/-- The draft holds the beginning of the message, up to the piece it waits for. -/
def Begins (size : Nat) (msg : List α) (d : Option (Draft α)) : Prop :=
  ∀ x ∈ d, x.data = msg.take (size * x.next)

/-- A message on its own beginning changes nothing. -/
theorem overlay_take (msg : List α) (n : Nat) : overlay msg (msg.take n) = msg.take n := by
  have hlen : (msg.take n).length ≤ msg.length := List.length_take_le' n msg
  unfold overlay
  rw [List.drop_eq_nil_of_le hlen, List.append_nil, List.length_take]
  rcases Nat.le_total n msg.length with h | h
  · rw [Nat.min_eq_left h]
  · rw [Nat.min_eq_right h, List.take_length, List.take_of_length_le h]

/-- **One piece of a message.**  The draft stays a beginning of it, and what is completed is the
message. -/
theorem accept_pieceOf {size : Nat} {msg : List α} {d : Option (Draft α)} {p : Piece α}
    (hd : Begins size msg d) (hp : PieceOf size msg p) :
    Begins size msg (accept limit d p).1 ∧ ∀ m ∈ (accept limit d p).2, m = msg := by
  unfold PieceOf at hp
  unfold accept
  cases hplace : p.place with
  | whole =>
      simp only [hplace] at hp ⊢
      refine ⟨?_, ?_⟩
      · cases d with
        | none => exact nofun
        | some y =>
            intro x hx
            obtain rfl := Option.some.inj hx
            show overlay p.data y.data = msg.take (size * y.next)
            rw [hd y rfl, hp, overlay_take]
      · intro m hm
        exact (Option.some.inj hm).symm.trans hp
  | first =>
      simp only [hplace] at hp ⊢
      refine ⟨?_, nofun⟩
      intro x hx
      obtain rfl := Option.some.inj hx
      show p.data = msg.take (size * (p.number + 1))
      rw [hp.2, hp.1, Nat.zero_add, Nat.mul_one]
  | middle =>
      cases d with
      | none => exact ⟨nofun, nofun⟩
      | some d =>
          simp only [hplace] at hp ⊢
          split_ifs with hcont
          · refine ⟨?_, nofun⟩
            intro x hx
            obtain rfl := Option.some.inj hx
            show d.data ++ p.data = msg.take (size * (d.next + 1))
            rw [hp, hcont.1, hd d rfl, Nat.mul_succ, List.take_add]
          · exact ⟨hd, nofun⟩
  | final =>
      cases d with
      | none => exact ⟨nofun, nofun⟩
      | some d =>
          simp only [hplace] at hp ⊢
          split_ifs with hcont
          · refine ⟨nofun, ?_⟩
            intro m hm
            obtain rfl := Option.some.inj hm
            rw [hp, hcont.1, hd d rfl, List.take_append_drop]
          · exact ⟨hd, nofun⟩

/-- **Lost, repeated and reordered pieces.**  Pieces of one message, as many and in whatever
order, complete that message or nothing. -/
theorem completed_of_pieces {size : Nat} {msg : List α} {d : Option (Draft α)}
    (hd : Begins size msg d) {xs : List (τ × Piece α)} (hxs : ∀ x ∈ xs, PieceOf size msg x.2) :
    ∀ c ∈ (assemble limit d xs).2, (∃ x ∈ xs, x.1 = c.1) ∧ c.2 = msg := by
  induction xs generalizing d with
  | nil => exact nofun
  | cons x xs ih =>
      obtain ⟨hnext, hdone⟩ := @accept_pieceOf α limit size msg d x.2 hd (hxs x List.mem_cons_self)
      intro c hc
      rw [assemble_cons] at hc
      rcases List.mem_append.mp hc with hc | hc
      · obtain ⟨m, hm, rfl⟩ := List.mem_map.mp hc
        exact ⟨⟨x, List.mem_cons_self, rfl⟩, hdone m (Option.mem_toList.mp hm)⟩
      · obtain ⟨⟨y, hy, hlabel⟩, hmsg⟩ :=
          ih hnext (fun y hy => hxs y (List.mem_cons_of_mem _ hy)) c hc
        exact ⟨⟨y, List.mem_cons_of_mem _ hy, hlabel⟩, hmsg⟩

/-! ## All pieces in order -/

/-- The pieces of a message from number `k` on. -/
inductive Tail (size : Nat) (msg : List α) : Nat → List (Piece α) → Prop
  | last {k : Nat} {p : Piece α} (hplace : p.place = .final) (hnumber : p.number = k)
      (hdata : p.data = msg.drop (size * k)) : Tail size msg k [p]
  | more {k : Nat} {p : Piece α} {ps : List (Piece α)} (hplace : p.place = .middle)
      (hnumber : p.number = k) (hdata : p.data = (msg.drop (size * k)).take size)
      (hrest : Tail size msg (k + 1) ps) : Tail size msg k (p :: ps)

/-- Every piece behind the first is a piece of the message. -/
theorem Tail.pieceOf {size : Nat} {msg : List α} {k : Nat} {ps : List (Piece α)}
    (h : Tail size msg k ps) : ∀ p ∈ ps, PieceOf size msg p := by
  induction h with
  | @last k p hplace hnumber hdata =>
      intro q hq
      obtain rfl := List.mem_singleton.mp hq
      unfold PieceOf
      simp only [hplace, hnumber]
      exact hdata
  | @more k p ps hplace hnumber hdata hrest ih =>
      intro q hq
      rcases List.mem_cons.mp hq with rfl | hq
      · unfold PieceOf
        simp only [hplace, hnumber]
        exact hdata
      · exact ih q hq

/-- The entries of a list in order, each once or more often. -/
inductive Repeated {β : Type} : List β → List β → Prop
  | nil : Repeated [] []
  | again {x : β} {xs ys : List β} (h : Repeated (x :: xs) ys) : Repeated (x :: xs) (x :: ys)
  | next {x : β} {xs ys : List β} (h : Repeated xs ys) : Repeated (x :: xs) (x :: ys)

/-- Every list repeats itself. -/
theorem Repeated.refl {β : Type} : ∀ xs : List β, Repeated xs xs
  | [] => .nil
  | _ :: xs => .next (Repeated.refl xs)

theorem Repeated.map {β γ : Type} (f : β → γ) {xs ys : List β} (h : Repeated xs ys) :
    Repeated (xs.map f) (ys.map f) := by
  induction h with
  | nil => exact .nil
  | again _ ih => exact .again ih
  | next _ ih => exact .next ih

/-- The draft of a message that waits for piece `k`. -/
def draftOf (size : Nat) (msg : List α) (k : Nat) : Draft α :=
  { next := k, data := msg.take (size * k) }

/-- A middle or final piece that continues no draft is skipped. -/
theorem accept_skipped {d : Option (Draft α)} {p : Piece α}
    (hplace : p.place = .middle ∨ p.place = .final) (hd : ∀ x ∈ d, ¬ Continues limit x p) :
    accept limit d p = (d, none) := by
  unfold accept
  cases d with
  | none => rcases hplace with h | h <;> simp only [h]
  | some d => rcases hplace with h | h <;> simp only [h, if_neg (hd d rfl)]

/-- A middle piece continues the draft that waits for it. -/
theorem accept_middle {size : Nat} {msg : List α} (hlimit : msg.length ≤ limit) {k : Nat}
    {p : Piece α} (hplace : p.place = .middle) (hnumber : p.number = k)
    (hdata : p.data = (msg.drop (size * k)).take size) :
    accept limit (some (draftOf size msg k)) p = (some (draftOf size msg (k + 1)), none) := by
  have hsum : msg.take (size * k) ++ p.data = msg.take (size * (k + 1)) := by
    rw [hdata, Nat.mul_succ, List.take_add]
  have hlen := congrArg List.length hsum
  have hle := List.length_take_le' (size * (k + 1)) msg
  rw [List.length_append] at hlen
  have hcont : Continues limit (draftOf size msg k) p := by
    refine ⟨hnumber, ?_⟩
    show (msg.take (size * k)).length + p.data.length ≤ limit
    omega
  unfold accept
  simp only [hplace, if_pos hcont]
  unfold draftOf
  rw [hsum]

/-- The final piece completes the draft that waits for it. -/
theorem accept_final {size : Nat} {msg : List α} (hlimit : msg.length ≤ limit) {k : Nat}
    {p : Piece α} (hplace : p.place = .final) (hnumber : p.number = k)
    (hdata : p.data = msg.drop (size * k)) :
    accept limit (some (draftOf size msg k)) p = (none, some msg) := by
  have hsum : msg.take (size * k) ++ p.data = msg := by rw [hdata, List.take_append_drop]
  have hlen := congrArg List.length hsum
  rw [List.length_append] at hlen
  have hcont : Continues limit (draftOf size msg k) p := by
    refine ⟨hnumber, ?_⟩
    show (msg.take (size * k)).length + p.data.length ≤ limit
    omega
  unfold accept
  simp only [hplace, if_pos hcont]
  unfold draftOf
  rw [hsum]

/-- Further copies of a piece that changes nothing any more. -/
theorem assemble_copies {d : Option (Draft α)} (x : τ × Piece α)
    (hskip : accept limit d x.2 = (d, none)) {xs ys : List (τ × Piece α)}
    (h : Repeated (x :: xs) ys ∨ Repeated xs ys) :
    ∃ zs, Repeated xs zs ∧ assemble limit d ys = assemble limit d zs := by
  rcases h with h | h
  · have hone : ∀ zs, assemble limit d (x :: zs) = assemble limit d zs := by
      intro zs
      rw [assemble_cons, hskip]
      rfl
    generalize hcons : x :: xs = l at h
    induction h with
    | nil => cases hcons
    | again h ih =>
        obtain ⟨zs, hzs, heq⟩ := ih hcons
        cases hcons
        exact ⟨zs, hzs, (hone _).trans heq⟩
    | next h =>
        cases hcons
        exact ⟨_, h, hone _⟩
  · exact ⟨ys, h, rfl⟩

theorem Repeated.cons_inv {β : Type} {x : β} {xs ys : List β} (h : Repeated (x :: xs) ys) :
    ∃ zs, ys = x :: zs ∧ (Repeated (x :: xs) zs ∨ Repeated xs zs) := by
  cases h with
  | again h => exact ⟨_, rfl, Or.inl h⟩
  | next h => exact ⟨_, rfl, Or.inr h⟩

/-- The rest of a message completes it once. -/
theorem assemble_tail {size : Nat} {msg : List α} (hlimit : msg.length ≤ limit) {label : τ}
    {k : Nat} {ps : List (Piece α)} (h : Tail size msg k ps) {xs : List (τ × Piece α)}
    (hxs : Repeated (ps.map fun p => (label, p)) xs) :
    assemble limit (some (draftOf size msg k)) xs = (none, [(label, msg)]) := by
  induction h generalizing xs with
  | @last k p hplace hnumber hdata =>
      obtain ⟨ys, rfl, hys⟩ := hxs.cons_inv
      rw [assemble_cons, accept_final hlimit hplace hnumber hdata]
      have hdone : accept limit none p = (none, none) := accept_skipped (Or.inr hplace) nofun
      obtain ⟨zs, hzs, heq⟩ := assemble_copies (label, p) hdone hys
      cases hzs
      rw [heq]
      rfl
  | @more k p ps hplace hnumber hdata hrest ih =>
      obtain ⟨ys, rfl, hys⟩ := hxs.cons_inv
      rw [assemble_cons, accept_middle hlimit hplace hnumber hdata]
      have hpassed : ∀ d ∈ some (draftOf size msg (k + 1)), ¬ Continues limit d p := by
        intro d hd hcont
        obtain rfl := Option.some.inj hd
        have hnext : p.number = k + 1 := hcont.1
        omega
      obtain ⟨zs, hzs, heq⟩ :=
        assemble_copies (label, p) (accept_skipped (Or.inl hplace) hpassed) hys
      rw [heq, ih hzs]
      rfl

/-- **Repeated pieces in order.**  A message whose pieces all arrive in order, each once or more
often, is completed once, whatever was being put together before. -/
theorem assemble_repeated {size : Nat} {msg : List α} (hlimit : msg.length ≤ limit) {label : τ}
    {p : Piece α} {ps : List (Piece α)} (hplace : p.place = .first) (hnumber : p.number = 0)
    (hdata : p.data = msg.take size) (hrest : Tail size msg 1 ps) (d : Option (Draft α))
    {xs : List (τ × Piece α)} (hxs : Repeated ((p :: ps).map fun p => (label, p)) xs) :
    assemble limit d xs = (none, [(label, msg)]) := by
  have hfirst : ∀ d, accept limit d p = (some (draftOf size msg 1), none) := by
    intro d
    unfold accept draftOf
    simp only [hplace, hnumber, hdata, Nat.mul_one, Nat.zero_add]
  obtain ⟨ys, rfl, hys⟩ := hxs.cons_inv
  rw [assemble_cons, hfirst]
  obtain ⟨zs, hzs, heq⟩ := assemble_copies (label, p) (hfirst _) hys
  rw [heq, assemble_tail hlimit hrest hzs]
  rfl

end Reassembly
