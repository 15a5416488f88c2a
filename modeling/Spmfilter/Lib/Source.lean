import Mathlib.Data.List.Basic

/-!
# Sources of items

A source hands out one item at a time until it ends or fails.  A reader over a
socket, with its buffer and the replies the kernel still owes it, is a source;
so is the plain list of what that reader will deliver.  Code that only asks for
the next item is written once over any source, and a homomorphism carries every
result about the plain list to the reader.

* `Source` packs the `next` function with a size that every item makes smaller,
  so that a loop over the source terminates.
* `Source.tokens` is the plain list.  A token is an item or a failure.
* `Source.Hom` relates two sources that hand out the same answers.
* `Source.Preserves` is an invariant of the reader state.
* `Feed` is a source from which a nested loop reads through a reader of its
  own.
-/

/-- One answer of a source. -/
inductive Next (α : Type) where
  | item (a : α)
  | eof
  | error

/-- A reader state type `R` that hands out items of type `α`. -/
structure Source (α R : Type) where
  /-- The next answer and the state after it. -/
  next : R → Next α × R
  /-- A bound on the items that are still to come. -/
  size : R → Nat
  /-- An item makes the state smaller. -/
  size_item : ∀ r a r', next r = (.item a, r') → size r' < size r
  /-- No answer makes the state larger. -/
  size_le : ∀ r, size (next r).2 ≤ size r

namespace Source

variable {α R S : Type}

/-- The answers in a list of tokens: an item, or a failure for `none`. -/
def tokensNext : List (Option α) → Next α × List (Option α)
  | [] => (.eof, [])
  | none :: w => (.error, w)
  | some a :: w => (.item a, w)

/-- The list of tokens as a source. -/
def tokens (α : Type) : Source α (List (Option α)) where
  next := tokensNext
  size := List.length
  size_item := by
    intro r a r' h
    match r with
    | [] => simp [tokensNext] at h
    | none :: w => simp [tokensNext] at h
    | some b :: w =>
      simp only [tokensNext, Prod.mk.injEq] at h
      simp [h.2]
  size_le := by
    intro r
    match r with
    | [] => simp [tokensNext]
    | none :: w => simp [tokensNext]
    | some b :: w => simp [tokensNext]

@[simp] theorem tokens_next_nil : (tokens α).next [] = (.eof, []) := rfl

@[simp] theorem tokens_next_none (w : List (Option α)) :
    (tokens α).next (none :: w) = (.error, w) := rfl

@[simp] theorem tokens_next_some (a : α) (w : List (Option α)) :
    (tokens α).next (some a :: w) = (.item a, w) := rfl

@[simp] theorem tokens_size (w : List (Option α)) : (tokens α).size w = w.length := rfl

/-- `f` maps the states of `s` to states of `t` that give the same answers. -/
structure Hom (s : Source α R) (t : Source α S) (f : R → S) : Prop where
  next : ∀ r, t.next (f r) = ((s.next r).1, f (s.next r).2)

/-- Every source is a copy of itself. -/
theorem Hom.id (s : Source α R) : Hom s s (fun r => r) :=
  ⟨fun _ => rfl⟩

/-- `P` holds after an answer when it held before it. -/
def Preserves (s : Source α R) (P : R → Prop) : Prop :=
  ∀ r, P r → P (s.next r).2

end Source

/-- A source with a nested reader.  `enter` sets the nested reader up, and
`leave` gives the outer reader back when the nested one is done. -/
structure Feed (α R : Type) extends Source α R where
  enter : R → R
  /-- The outer reader, from its state at `enter` and the last state of the
  nested reader. -/
  leave : R → R → R
  /-- Nothing is put back. -/
  size_leave : ∀ r r', size r' ≤ size (enter r) → size (leave r r') ≤ size r

/-- A list of tokens that both readers take from. -/
def Feed.tokens (α : Type) : Feed α (List (Option α)) where
  toSource := Source.tokens α
  enter := id
  leave := fun _ r' => r'
  size_leave := fun _ _ h => h
