namespace EulerFlow.Text

/-- Membership in a set of characters given by closed ranges of code points. The ranges
ascend, so the search ends at the first one that lies above the character. -/
def inRanges : List (Nat × Nat) → Char → Bool
  | [], _ => false
  | (low, high) :: ranges, c => low ≤ c.toNat && (c.toNat ≤ high || inRanges ranges c)

end EulerFlow.Text
