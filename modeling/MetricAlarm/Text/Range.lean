/-!
# Ranges of code points

A character class of Unicode is written as a list of closed ranges. Main statement:
`inRanges_iff` says that membership is membership in one of the ranges.
-/

namespace MetricAlarm.Text

/-- `inRanges rs n`: some range of `rs` covers `n`. -/
def inRanges (rs : List (Nat × Nat)) (n : Nat) : Bool :=
  rs.any fun r => r.1 ≤ n && n ≤ r.2

theorem inRanges_iff (rs : List (Nat × Nat)) (n : Nat) :
    inRanges rs n = true ↔ ∃ r ∈ rs, r.1 ≤ n ∧ n ≤ r.2 := by
  simp [inRanges]

end MetricAlarm.Text
