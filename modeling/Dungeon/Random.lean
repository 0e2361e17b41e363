import Dungeon.Number

/-!
# Random words

A `Source` is a stream of 32-bit words made from a seed, and a `Draw` is a computation that takes
words from it. Everything random in a layout is a `Draw`, so the seed and the order of the draws
fix the result.

A range with at most one member draws nothing.
-/

namespace Dungeon

/-- A stream of words: the seed it was last started from and its current state. -/
structure Source where
  seed : UInt32
  state : UInt32
  deriving DecidableEq, Repr

namespace Source

/-- The successor of a state. Zero is a fixed point, which no start reaches. -/
def step (x : UInt32) : UInt32 :=
  let x := x ^^^ (x <<< 13)
  let x := x ^^^ (x >>> 17)
  x ^^^ (x <<< 5)

/-- The state that stands in for seed zero. -/
def zeroSeedState : UInt32 := 0x12345678

/-- The stream of a seed. -/
def ofSeed (seed : UInt32) : Source :=
  ⟨seed, if seed = 0 then zeroSeedState else seed⟩

/-- The stream after one word. The word is the new state. -/
def next (s : Source) : Source := { s with state := step s.state }

end Source

/-- A computation that draws words. -/
abbrev Draw := StateM Source

namespace Draw

/-- The next word. -/
def word : Draw UInt32 := fun s => (s.next.state, s.next)

/-- Starts the stream again from a seed. -/
def restart (seed : UInt32) : Draw Unit := set (Source.ofSeed seed)

/-- How many numbers lie between `lo` and `hi`, as a word. -/
def rangeSize (lo hi : Int) : UInt32 := UInt32.ofInt (hi - lo + 1)

/-- A number between `lo` and `hi`, both included; `lo` without a draw if it is the only one. -/
def between (lo hi : Int) : Draw Int :=
  if hi ≤ lo then pure lo
  else do
    let w ← word
    pure (lo + ((w % rangeSize lo hi).toNat : Int))

/-- A number from 0 up to but not including 1. -/
def unitFraction : Draw Number.Double := do
  let w ← word
  pure (Number.Binary.ofWord w)

/-- Holds for `threshold` of the `2 ^ 32` words. -/
def below (threshold : Nat) : Draw Bool := do
  let w ← word
  pure (decide (w.toNat < threshold))

/-- Holds with a probability, also one outside the range from 0 to 1. -/
def chance (probability : Number.Double) : Draw Bool := below probability.datum.wordsBelow

/-- One of the items, or nothing if there are none. -/
def choose? {α : Type} (items : List α) : Draw (Option α) := do
  let i ← between 0 ((items.length : Int) - 1)
  pure items[i.toNat]?

/-- The positions to swap with, for the positions from `n` down to 1: each between 0 and its own. -/
def swaps : Nat → Draw (List Nat)
  | 0 => pure []
  | n + 1 => do
      let j ← between 0 (n + 1)
      let rest ← swaps n
      pure (j.toNat :: rest)

end Draw

/-- Swaps position `n`, `n - 1`, … with the given positions in turn. -/
def swapDown {α : Type} : Nat → List Nat → Array α → Array α
  | _, [], items => items
  | n, j :: rest, items => swapDown (n - 1) rest (items.swapIfInBounds n j)

/-- The items in an order drawn from back to front. -/
def Draw.shuffle {α : Type} (items : List α) : Draw (List α) := do
  let choices ← Draw.swaps (items.length - 1)
  pure (swapDown (items.length - 1) choices items.toArray).toList

end Dungeon
