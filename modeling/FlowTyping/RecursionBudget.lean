/-
FlowTyping.RecursionBudget — how much stack deep recursion may count on.

Programs nest as deeply as their authors like. A pass that recurses on them
keeps `reserve` bytes free and takes `segment` more when it runs short.
-/
namespace FlowTyping.RecursionBudget

/-- The bytes that are kept free. -/
def reserve : Nat := 128 * 1024

/-- The bytes that are added at a time. -/
def segment : Nat := 2 * 1024 * 1024

/-- Add the numbers up to `depth` to a sum, one at each level. -/
def descend (sum : Nat) : Nat → Nat
  | 0 => sum
  | depth + 1 => descend (sum + (depth + 1)) depth

/-- The sum of the numbers up to `depth`, which any depth of recursion can reach. -/
def probe (depth : Nat) : Nat := descend 0 depth

end FlowTyping.RecursionBudget
