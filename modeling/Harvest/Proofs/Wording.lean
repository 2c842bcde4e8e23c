import Mathlib
import Harvest.Failure

namespace Harvest.Value

variable {v : Value}

theorem asText_of_isWritable (written : v.isWritable = true) : v.asText = .ok v.text :=
  if_pos written

theorem asText_of_not_isWritable (unwritten : v.isWritable = false) :
    v.asText = .error .unreadable := by
  rw [asText, unwritten]
  rfl

theorem text_of_asText {text : String} (h : v.asText = .ok text) : text = v.text := by
  unfold asText at h
  split at h <;> cases h
  rfl

theorem isWritable_int_iff {n : Int} :
    (int n).isWritable = true ↔ n.natAbs < 10 ^ Text.digitLimit := by
  have length := Nat.length_toDigits_le_iff (n := n.natAbs) (b := 10) (k := Text.digitLimit)
    (by decide) (by decide)
  simpa [isWritable] using length

/-- The least number that has too many digits to be written. -/
def unwritten : Value :=
  int (10 ^ Text.digitLimit)

theorem isWritable_unwritten : unwritten.isWritable = false := by
  have ten : (10 : Int).natAbs = 10 := rfl
  rw [← Bool.not_eq_true, unwritten, isWritable_int_iff, Int.natAbs_pow, ten]
  exact Nat.lt_irrefl _

end Harvest.Value
