/-!
# Words

Libraries take integers in words of a fixed width. What a word can hold is an interval.
-/

namespace LabelPress.Number

/-- The words that integers are handed over in. -/
inductive Word
  /-- A count of items. -/
  | index
  /-- A size in memory. -/
  | size
  /-- A long signed integer. -/
  | long
  /-- A signed integer of half that width. -/
  | short
  /-- An unsigned integer of the same half width. -/
  | unsigned
deriving DecidableEq, Repr

namespace Word

/-- How many integers a word can hold. -/
def count : Word → Nat
  | index | size | long => Nat.pow 2 64
  | short | unsigned => Nat.pow 2 32

/-- The least integer that a word can hold. -/
def least (w : Word) : Int := if w = unsigned then 0 else -(w.count / 2 : Nat)

/-- Whether a word can hold an integer. -/
def holds (w : Word) (n : Int) : Bool := w.least ≤ n && n < w.least + w.count

/-- The integer that is left of one when a signed word takes its lowest bits. -/
def wrap (w : Word) (n : Int) : Int := n.bmod w.count

end Word

end LabelPress.Number
