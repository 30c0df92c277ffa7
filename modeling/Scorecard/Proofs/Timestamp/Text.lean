import Scorecard.Proofs.Decimal.RoundTrip
import Scorecard.Proofs.Text.Span
import Scorecard.Proofs.Timestamp.Calendar

/-!
The texts of times, read. Numbers of fixed width are taken back from their digits, years with a sign from
the digits up to the next hyphen, and the groups of three of a fraction from their nanoseconds. So a time is
read from its text, a leap second as second 60. Only a leap second within a minute is lost, since its text is
that of the second after it.
-/
namespace Scorecard.Timestamp

/-! ### Numbers of some width -/

theorem isBlank_of_isDigit {c : Char} (h : c.isDigit = true) : Text.isBlank c = false := by
  simp only [Char.isDigit, Bool.and_eq_true, decide_eq_true_eq, ge_iff_le, UInt32.le_iff_toNat_le] at h
  have hval : c.toNat = c.val.toNat := rfl
  have hlow : ('0' : Char).val.toNat = 48 := rfl
  have hhigh : ('9' : Char).val.toNat = 57 := rfl
  simp only [Text.isBlank, Bool.or_eq_false_iff, Bool.and_eq_false_iff, decide_eq_false_iff_not, beq_eq_false_iff_ne]
  omega

theorem skipBlanks_cons {c : Char} (h : Text.isBlank c = false) (cs : List Char) : skipBlanks (c :: cs) = c :: cs := by
  rw [skipBlanks, List.dropWhile_cons_of_neg (by simp [h])]

section

variable {width n : Nat}

theorem isDigit_of_mem_padded : ∀ c ∈ padded width n, c.isDigit = true := by
  intro c hc
  rcases List.mem_append.mp hc with hc | hc
  · rw [List.eq_of_mem_replicate hc]
    rfl
  · exact Decimal.isDigit_of_mem_toDigits hc

theorem padded_ne_nil : padded width n ≠ [] := by simp [padded, Nat.toDigits_ne_nil]

theorem ofDigitChars_padded : Nat.ofDigitChars 10 (padded width n) 0 = n := by
  rw [padded, Nat.ofDigitChars_append, Nat.ofDigitChars_replicate_zero, Nat.mul_zero, Nat.ofDigitChars_ten_toDigits]

theorem length_padded (hwidth : 0 < width) (h : n < 10 ^ width) : (padded width n).length = width := by
  have hlength := (Nat.length_toDigits_le_iff (by decide) hwidth).mpr h
  rw [padded, List.length_append, List.length_replicate]
  omega

theorem exists_cons_padded (width n : Nat) : ∃ c cs, padded width n = c :: cs ∧ c.isDigit = true := by
  obtain ⟨c, cs, h⟩ := List.exists_cons_of_ne_nil (padded_ne_nil : padded width n ≠ [])
  exact ⟨c, cs, h, isDigit_of_mem_padded c (h ▸ List.mem_cons_self)⟩

end

/-- Digits are taken up to the width or up to what is no digit. -/
theorem readNat?_append {width : Nat} {ds : List Char} (rest : List Char) (hds : ∀ c ∈ ds, c.isDigit = true) (hne : ds ≠ [])
    (hwidth : ds.length ≤ width) (hend : ds.length = width ∨ ∀ c ∈ rest.head?, c.isDigit = false) :
    readNat? width (ds ++ rest) = some (Nat.ofDigitChars 10 ds 0, rest) := by
  have hhead : ∀ c ∈ (rest.take (width - ds.length)).head?, c.isDigit = false := by
    rcases hend with hfull | hrest
    · rw [hfull, Nat.sub_self, List.take_zero]
      simp
    · cases rest with
      | nil => simp
      | cons c rest =>
          cases width - ds.length with
          | zero => simp
          | succ k => exact hrest
  obtain ⟨htake, -⟩ := Text.span_append hds hhead
  rw [readNat?, List.take_append, List.take_of_length_le hwidth, htake]
  obtain ⟨c, cs, rfl⟩ := List.exists_cons_of_ne_nil hne
  dsimp only
  rw [List.drop_left]

theorem readField?_padded {n : Nat} (width : Nat) (hwidth : 0 < width) (h : n < 10 ^ width) (rest : List Char) :
    readField? width (padded width n ++ rest) = some (n, rest) := by
  have hlength := length_padded hwidth h
  obtain ⟨c, cs, hcons, hc⟩ := exists_cons_padded width n
  have hread := readNat?_append rest isDigit_of_mem_padded padded_ne_nil (Nat.le_of_eq hlength) (.inl hlength)
  rw [ofDigitChars_padded, hcons, List.cons_append] at hread
  rw [readField?, hcons, List.cons_append, skipBlanks_cons (isBlank_of_isDigit hc), hread]

theorem readSeparator?_cons {c : Char} (h : Text.isBlank c = false) (cs : List Char) :
    readSeparator? c (c :: cs) = some cs := by
  rw [readSeparator?, skipBlanks_cons h]
  exact if_pos rfl

/-! ### Dates -/

theorem readYear?_of_isDigit {c : Char} (hc : c.isDigit = true) (cs : List Char) :
    readYear? (c :: cs) = (readNat? 4 (c :: cs)).map fun r => ((r.1 : Int), r.2) := by
  have hne {d : Char} (hd : d.isDigit = false) : c ≠ d := by
    rintro rfl
    rw [hc] at hd
    cases hd
  rw [readYear?, skipBlanks_cons (isBlank_of_isDigit hc)]
  split
  · rename_i heq
    exact absurd (List.cons.inj heq).1 (hne rfl)
  · rename_i heq
    exact absurd (List.cons.inj heq).1 (hne rfl)
  · rfl

/-- A year is taken back up to the hyphen behind it. -/
theorem readYear?_yearChars (year : Int) (rest : List Char) :
    readYear? (yearChars year ++ '-' :: rest) = some (year, '-' :: rest) := by
  have hsigned (n : Nat) : readNat? (padded 4 n ++ '-' :: rest).length (padded 4 n ++ '-' :: rest) =
      some (n, '-' :: rest) := by
    have hhyphen : ∀ c ∈ ('-' :: rest).head?, c.isDigit = false := by
      rintro c ⟨⟩
      rfl
    rw [readNat?_append _ isDigit_of_mem_padded padded_ne_nil (by simp) (.inr hhyphen), ofDigitChars_padded]
  unfold yearChars
  by_cases hplain : 0 ≤ year ∧ year ≤ 9999
  · have hlength : (padded 4 year.toNat).length = 4 := length_padded (by decide) (by omega)
    have hread := readNat?_append ('-' :: rest) isDigit_of_mem_padded padded_ne_nil hlength.le (.inl hlength)
    obtain ⟨c, cs, hcons, hc⟩ := exists_cons_padded 4 year.toNat
    have hyear : ((year.toNat : Nat) : Int) = year := by omega
    rw [ofDigitChars_padded, hcons, List.cons_append] at hread
    rw [if_pos hplain, hcons, List.cons_append, readYear?_of_isDigit hc, hread, Option.map_some, hyear]
  · rw [if_neg hplain]
    by_cases hnegative : year < 0
    · have hyear : -(year.natAbs : Int) = year := by omega
      rw [if_pos hnegative, List.cons_append]
      show (readNat? _ _).map _ = _
      rw [hsigned, Option.map_some]
      exact congrArg (fun y => some (y, '-' :: rest)) hyear
    · have hyear : (year.natAbs : Int) = year := by omega
      rw [if_neg hnegative, List.cons_append]
      show (readNat? _ _).map _ = _
      rw [hsigned, Option.map_some]
      exact congrArg (fun y => some (y, '-' :: rest)) hyear

theorem readDate?_chars (n : Int) (rest : List Char) :
    readDate? (yearChars (Date.ofDayNumber n).year ++ '-' :: (padded 2 (Date.ofDayNumber n).month ++ '-' ::
      (padded 2 (Date.ofDayNumber n).day ++ rest))) = some (Date.ofDayNumber n, rest) := by
  obtain ⟨⟨hfirst, hlast⟩, -, hday⟩ := Date.ofDayNumber_bounds n
  have hhyphen (cs : List Char) : readSeparator? '-' ('-' :: cs) = some cs := readSeparator?_cons (by decide) cs
  have hmonth := readField?_padded 2 (by decide) (show (Date.ofDayNumber n).month < 10 ^ 2 by omega)
  have hday := readField?_padded 2 (by decide) (show (Date.ofDayNumber n).day < 10 ^ 2 by omega)
  simp only [readDate?, readYear?_yearChars, hhyphen, hmonth, hday, Option.bind_eq_bind, Option.bind_some]
  exact if_pos ⟨hfirst, hlast, Date.valid_ofDayNumber n⟩

/-! ### Times of the day -/

theorem readFraction?_digits {ds rest : List Char} (hds : ∀ c ∈ ds, c.isDigit = true) (hne : ds ≠ [])
    (hlength : ds.length ≤ 9) (hrest : ∀ c ∈ rest.head?, c.isDigit = false) :
    readFraction? ('.' :: (ds ++ rest)) = some (Nat.ofDigitChars 10 ds 0 * Nat.pow 10 (9 - ds.length), rest) := by
  obtain ⟨htake, -⟩ := Text.span_append hds hrest
  obtain ⟨c, cs, hcons⟩ := List.exists_cons_of_ne_nil hne
  rw [readFraction?, htake, hcons]
  dsimp only
  rw [← hcons, List.take_of_length_le hlength, List.drop_left]

/-- The fraction is taken back up to the zone behind it. -/
theorem readFraction?_fractionChars {nanos : Nat} (h : nanos < 1000000000) :
    readFraction? (fractionChars nanos ++ ['Z']) = some (nanos, ['Z']) := by
  have hrest : ∀ c ∈ ['Z'].head?, c.isDigit = false := by
    rintro c ⟨⟩
    rfl
  have hgroups {width n : Nat} (hwidth : 0 < width) (hnine : width ≤ 9) (hn : n < 10 ^ width) :
      readFraction? ('.' :: padded width n ++ ['Z']) = some (n * 10 ^ (9 - width), ['Z']) := by
    have hlength := length_padded hwidth hn
    have hread := readFraction?_digits isDigit_of_mem_padded padded_ne_nil (hlength.trans_le hnine) hrest
    rwa [hlength, ofDigitChars_padded] at hread
  have hwhole {n k : Nat} (hn : n * k = nanos) : some (n * k, ['Z']) = some (nanos, ['Z']) := by rw [hn]
  unfold fractionChars
  split
  · rename_i hzero
    rw [hzero]
    rfl
  split
  · rw [hgroups (by decide) (by decide) (by omega)]
    exact hwhole (by omega)
  split
  · rw [hgroups (by decide) (by decide) (by omega)]
    exact hwhole (by omega)
  · rw [hgroups (by decide) (by decide) h]
    exact hwhole (Nat.mul_one nanos)

/-- The second of the day and the nanoseconds, which go on through a leap second, are taken back. -/
theorem readTime?_chars {second nanos : Nat} (hsecond : second < 86400)
    (hnanos : nanos < 1000000000 ∨ (nanos < 2000000000 ∧ second % 60 = 59)) :
    readTime? (padded 2 (second / 3600) ++ ':' :: (padded 2 (second / 60 % 60) ++ ':' ::
      (padded 2 (second % 60 + nanos / 1000000000) ++ (fractionChars (nanos % 1000000000) ++ ['Z'])))) =
        some (second, nanos, ['Z']) := by
  have hcolon (cs : List Char) : readSeparator? ':' (':' :: cs) = some cs := readSeparator?_cons (by decide) cs
  have hhours := readField?_padded 2 (by decide) (show second / 3600 < 10 ^ 2 by omega)
  have hminutes := readField?_padded 2 (by decide) (show second / 60 % 60 < 10 ^ 2 by omega)
  have hseconds := readField?_padded 2 (by decide) (show second % 60 + nanos / 1000000000 < 10 ^ 2 by omega)
  have hfraction := readFraction?_fractionChars (Nat.mod_lt nanos (by decide : 0 < 1000000000))
  simp only [readTime?, hhours, hcolon, hminutes, hseconds, hfraction, Option.bind_eq_bind, Option.bind_some]
  rw [if_pos (by omega)]
  split
  · rw [Option.some.injEq, Prod.mk.injEq, Prod.mk.injEq]
    exact ⟨by omega, by omega, rfl⟩
  · rw [Option.some.injEq, Prod.mk.injEq, Prod.mk.injEq]
    exact ⟨by omega, by omega, rfl⟩

theorem ofParts?_self (t : Timestamp) : ofParts? t.seconds t.nanos = some t := by
  rw [ofParts?, dif_pos t.in_range, dif_pos t.nanos_lt]

/-- A leap second, if it is one, is behind second 59, where a text can tell it. -/
def Spelled (t : Timestamp) : Prop := t.nanos < 1000000000 ∨ t.seconds % 60 = 59

instance (t : Timestamp) : Decidable t.Spelled := inferInstanceAs (Decidable (_ ∨ _))

theorem ofString?_text_of_spelled {t : Timestamp} (h : t.Spelled) : ofString? t.text = some t := by
  have hday : t.secondOfDay < 86400 := by
    rw [secondOfDay]
    omega
  have hminute : (t.secondOfDay : Int) % 60 = t.seconds % 60 := by
    rw [secondOfDay]
    omega
  have hnanos : t.nanos < 1000000000 ∨ (t.nanos < 2000000000 ∧ t.secondOfDay % 60 = 59) := by
    have := t.nanos_lt
    unfold Spelled at h
    omega
  have hdate := readDate?_chars (t.seconds / 86400)
  have htime := readTime?_chars hday hnanos
  have hzone : readZone? (skipBlanks ['Z']) = some (0, []) := by decide
  have hnumber : t.date.dayNumber = t.seconds / 86400 := Date.dayNumber_ofDayNumber _
  have hseconds : t.seconds / 86400 * 86400 + t.secondOfDay = t.seconds := by
    rw [secondOfDay]
    omega
  rw [ofString?, text, String.toList_ofList, ofChars?, chars]
  simp only [date, hdate, List.append_assoc, htime, hzone, Option.bind_eq_bind, Option.bind_some] at hnumber ⊢
  simp [hnumber, hseconds, ofParts?_self, skipBlanks]

/-! ### What a text spells -/

/-- The time that the text of `t` tells: a leap second within a minute becomes the second after it. -/
def spelled (t : Timestamp) : Timestamp :=
  if h : t.Spelled then t
  else
    { seconds := t.seconds + 1
      nanos := t.nanos - 1000000000
      in_range := by
        have := t.in_range
        unfold Spelled at h
        unfold firstSecond lastSecond at *
        omega
      nanos_lt := by
        have := t.nanos_lt
        omega }

theorem Spelled.spelled_eq {t : Timestamp} (h : t.Spelled) : t.spelled = t := dif_pos h

theorem spelled_spelled (t : Timestamp) : t.spelled.Spelled := by
  by_cases h : t.Spelled
  · rwa [h.spelled_eq]
  · have hnanos := t.nanos_lt
    refine .inl ?_
    rw [spelled, dif_neg h]
    dsimp only
    omega

theorem spelled_eq_iff {t : Timestamp} : t.spelled = t ↔ t.Spelled :=
  ⟨fun h => h ▸ t.spelled_spelled, Spelled.spelled_eq⟩

theorem spelled_of_mem_map (o : Option Timestamp) : ∀ t ∈ o.map spelled, t.Spelled := by
  intro t ht
  obtain ⟨t, -, rfl⟩ := Option.map_eq_some_iff.mp ht
  exact t.spelled_spelled

theorem map_spelled_eq_iff {o : Option Timestamp} : o.map spelled = o ↔ ∀ t ∈ o, t.Spelled := by
  cases o with
  | none => simp
  | some t => simp [spelled_eq_iff]

/-- A leap second within a minute is written like the second after it. -/
theorem text_spelled (t : Timestamp) : t.spelled.text = t.text := by
  by_cases h : t.Spelled
  · rw [h.spelled_eq]
  · have hnanos := t.nanos_lt
    have hlost := h
    unfold Spelled at hlost
    have hday : (t.seconds + 1) / 86400 = t.seconds / 86400 := by omega
    have hsecond : ((t.seconds + 1) % 86400).toNat = (t.seconds % 86400).toNat + 1 := by omega
    have hhour : ((t.seconds % 86400).toNat + 1) / 3600 = (t.seconds % 86400).toNat / 3600 := by omega
    have hminute : ((t.seconds % 86400).toNat + 1) / 60 = (t.seconds % 86400).toNat / 60 := by omega
    have hwithin : ((t.seconds % 86400).toNat + 1) % 60 + (t.nanos - 1000000000) / 1000000000 =
        (t.seconds % 86400).toNat % 60 + t.nanos / 1000000000 := by omega
    have hfraction : (t.nanos - 1000000000) % 1000000000 = t.nanos % 1000000000 := by omega
    rw [spelled, dif_neg h]
    simp only [text, chars, date, secondOfDay, hday, hsecond, hhour, hminute, hwithin, hfraction]

/-- From its text a time is read as what that tells. -/
theorem ofString?_text (t : Timestamp) : ofString? t.text = some t.spelled := by
  rw [← text_spelled]
  exact ofString?_text_of_spelled t.spelled_spelled

end Scorecard.Timestamp
