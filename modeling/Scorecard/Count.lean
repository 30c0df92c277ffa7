/-!
Counts in words of a fixed width. A count that has reached the greatest value stays there, so a
count is the number of the things counted as long as the word can hold it, and never starts anew.
-/
namespace Scorecard.Count

def next32 (n : UInt32) : UInt32 := if n.toNat = 0xffffffff then n else n + 1

def next64 (n : UInt64) : UInt64 := if n.toNat = 0xffffffffffffffff then n else n + 1

theorem toNat_next32 (n : UInt32) : (next32 n).toNat = min (n.toNat + 1) 0xffffffff := by
  have := n.toNat_lt
  unfold next32
  split
  · omega
  · rw [UInt32.toNat_add, UInt32.toNat_one]
    omega

theorem toNat_next64 (n : UInt64) : (next64 n).toNat = min (n.toNat + 1) 0xffffffffffffffff := by
  have := n.toNat_lt
  unfold next64
  split
  · omega
  · rw [UInt64.toNat_add, UInt64.toNat_one]
    omega

end Scorecard.Count
