import Mathlib
import Scorecard.Uuid

/-!
The texts of identifiers, read. The hexadecimal digits of a number give the number back, as far as they
reach, and the hyphens stand where the reader expects them.
-/
namespace Scorecard

namespace Text

/-- The values of the last `count` hexadecimal digits of a number, most significant first. -/
def hexDigitValues (count n : Nat) : List Nat := (List.range count).map fun i => n >>> (4 * (count - 1 - i)) % 16

theorem mapM_hexValue?_hexDigits (count n : Nat) : (hexDigits count n).mapM hexValue? = some (hexDigitValues count n) := by
  have hmap (l : List Nat) : (l.map fun i => hexDigit (n >>> (4 * (count - 1 - i)) % 16)).mapM hexValue? =
      some (l.map fun i => n >>> (4 * (count - 1 - i)) % 16) := by
    induction l with
    | nil => rfl
    | cons i l ih =>
        have hdigit := hexValue?_hexDigit (Nat.mod_lt (n >>> (4 * (count - 1 - i))) (by decide : 0 < 16))
        rw [List.map_cons, List.mapM_cons, hdigit, ih]
        rfl
  exact hmap (List.range count)

theorem hexDigitValues_succ (count n : Nat) :
    hexDigitValues (count + 1) n = hexDigitValues count (n / 16) ++ [n % 16] := by
  have hshift : ∀ i ∈ List.range count,
      n >>> (4 * (count + 1 - 1 - i)) % 16 = (n / 16) >>> (4 * (count - 1 - i)) % 16 := by
    intro i hi
    have hcount : 4 * (count + 1 - 1 - i) = 4 + 4 * (count - 1 - i) := by
      have := List.mem_range.mp hi
      omega
    rw [hcount, Nat.shiftRight_add, Nat.shiftRight_eq_div_pow n 4]
  rw [hexDigitValues, List.range_succ, List.map_append, List.map_congr_left hshift, hexDigitValues, List.map_singleton]
  simp

/-- The digits of a number give the number back, as far as they reach. -/
theorem foldl_hexDigitValues (count n : Nat) :
    (hexDigitValues count n).foldl (fun m v => 16 * m + v) 0 = n % 16 ^ count := by
  induction count generalizing n with
  | zero => simp [hexDigitValues, Nat.mod_one]
  | succ count ih =>
      rw [hexDigitValues_succ, List.foldl_append, ih, List.foldl_cons, List.foldl_nil, Nat.pow_succ', Nat.mod_mul,
        Nat.add_comm]

end Text

namespace Uuid

theorem length_digits (u : Uuid) : u.digits.length = 32 := by simp [digits, Text.hexDigits]

theorem ofDigits?_digits (u : Uuid) : ofDigits? u.digits = some u := by
  have hlength : (Text.hexDigitValues 32 u.bits.toNat).length = 32 := by simp [Text.hexDigitValues]
  have hbits : BitVec.ofNat 128 (u.bits.toNat % 16 ^ 32) = u.bits := by
    have hlt : u.bits.toNat < 16 ^ 32 := u.bits.isLt
    rw [Nat.mod_eq_of_lt hlt, BitVec.ofNat_toNat, BitVec.setWidth_eq]
  rw [ofDigits?, digits, Text.mapM_hexValue?_hexDigits, Option.bind_eq_bind, Option.bind_some, if_pos hlength,
    Text.foldl_hexDigitValues, hbits]

theorem ofHyphenated?_append {a b c d : List Char} (ha : a.length = 8) (hb : b.length = 4) (hc : c.length = 4)
    (hd : d.length = 4) (e : List Char) :
    ofHyphenated? (a ++ '-' :: (b ++ '-' :: (c ++ '-' :: (d ++ '-' :: e)))) = ofDigits? (a ++ b ++ c ++ d ++ e) := by
  have hfirst (cs : List Char) : (a ++ '-' :: cs).drop 8 = '-' :: cs := List.drop_left' ha
  have hnext {g : List Char} (hg : g.length = 4) (cs : List Char) : ('-' :: (g ++ '-' :: cs)).drop 5 = '-' :: cs :=
    List.drop_left' hg
  have htake {g : List Char} (hg : g.length = 4) (cs : List Char) : (g ++ '-' :: cs).take 4 = g := List.take_left' hg
  have hfive (k : Nat) (cs : List Char) : cs.drop (k + 5) = (cs.drop k).drop 5 := List.drop_drop.symm
  rw [ofHyphenated?, hfive 18, hfive 13, hfive 8, hfirst, hnext hb, hnext hc, hnext hd]
  show ofDigits? _ = _
  rw [List.take_left' ha, htake hb, htake hc, htake hd]

/-- An identifier is read from its text. -/
theorem ofString?_text (u : Uuid) : ofString? u.text = some u := by
  have hlength : u.chars.length = 36 := by simp [chars, length_digits]
  rw [ofString?, text, String.toList_ofList, ofChars?, hlength]
  show ofHyphenated? u.chars = _
  have hds := u.length_digits
  have hgroup (start : Nat) (h : start + 4 ≤ 32) : ((u.digits.drop start).take 4).length = 4 := by
    rw [List.length_take, List.length_drop, hds]
    omega
  have hjoin (start count : Nat) : u.digits.take start ++ (u.digits.drop start).take count =
      u.digits.take (start + count) := List.take_add.symm
  rw [chars, ofHyphenated?_append (by rw [List.length_take, hds]; rfl) (hgroup 8 (by decide)) (hgroup 12 (by decide))
    (hgroup 16 (by decide)), hjoin 8 4, hjoin 12 4, hjoin 16 4, List.take_append_drop, ofDigits?_digits]

end Uuid

end Scorecard
