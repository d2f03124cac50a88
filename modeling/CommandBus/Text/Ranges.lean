namespace CommandBus.Text

/-- Whether `n` lies in one of the ranges, which are inclusive and ascending. -/
def inRanges (n : Nat) : List (Nat × Nat) → Bool
  | [] => false
  | (low, high) :: more => low ≤ n && (n ≤ high || inRanges n more)

end CommandBus.Text
