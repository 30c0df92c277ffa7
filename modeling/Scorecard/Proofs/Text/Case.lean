import Mathlib
import Scorecard.Text.Blank
import Scorecard.Text.Case

/-!
Upper case of upper case. The code points that upper-casing moves, those that it makes, and the blanks are
finite sets of which the second has nothing in common with the others. So what upper-casing has made stays as
it is, and no blank comes about by it.
-/
namespace Scorecard.Text

/-! ### Sets of code points -/

/-- Numbers as the bits of a single number. -/
def bits : List Nat → Nat
  | [] => 0
  | n :: l => 2 ^ n ||| bits l

theorem testBit_bits {l : List Nat} {n : Nat} : (bits l).testBit n = true ↔ n ∈ l := by
  induction l with
  | nil => simp [bits]
  | cons k l ih =>
      rw [bits, Nat.testBit_or, Nat.testBit_two_pow, Bool.or_eq_true, decide_eq_true_eq, ih, List.mem_cons,
        eq_comm (a := k)]

/-- Numbers without a common bit are of sets without a common member. -/
theorem not_mem_of_bits {l l' : List Nat} (h : bits l &&& bits l' = 0) {n : Nat} (hn : n ∈ l) : n ∉ l' := by
  intro hn'
  have hboth : (bits l &&& bits l').testBit n = true := by
    rw [Nat.testBit_and, testBit_bits.mpr hn, testBit_bits.mpr hn']
    rfl
  rw [h, Nat.zero_testBit] at hboth
  cases hboth

namespace CaseSpan

/-- The distances from the first code point. -/
def steps (s : CaseSpan) : List Nat := (List.range ((s.last - s.first) / s.step + 1)).map (s.step * ·)

def sources (s : CaseSpan) : List Nat := s.steps.map (s.first + ·)

def images (s : CaseSpan) : List Nat := s.steps.map (s.image + ·)

theorem sub_mem_steps {s : CaseSpan} {n : Nat} (h : s.covers n = true) : s.first ≤ n ∧ n - s.first ∈ s.steps := by
  simp only [covers, Bool.and_eq_true, decide_eq_true_eq, beq_iff_eq] at h
  obtain ⟨⟨hfirst, hlast⟩, hstep⟩ := h
  refine ⟨hfirst, List.mem_map.mpr ⟨(n - s.first) / s.step, ?_, Nat.mul_div_cancel' (Nat.dvd_of_mod_eq_zero hstep)⟩⟩
  rw [List.mem_range, Nat.lt_succ_iff]
  exact Nat.div_le_div_right (by omega)

theorem mem_sources {s : CaseSpan} {n : Nat} (h : s.covers n = true) : n ∈ s.sources := by
  obtain ⟨hfirst, hmem⟩ := sub_mem_steps h
  exact List.mem_map.mpr ⟨n - s.first, hmem, by omega⟩

theorem move_mem_images {s : CaseSpan} {n : Nat} (h : s.covers n = true) : s.move n ∈ s.images :=
  List.mem_map.mpr ⟨n - s.first, (sub_mem_steps h).2, rfl⟩

end CaseSpan

/-- What upper-casing moves: the small letters of ASCII and what stands in the tables. -/
def movedPoints : List Nat :=
  List.range' 0x61 26 ++ (upperSpans.flatMap CaseSpan.sources ++ upperSequences.map (·.1))

/-- What upper-casing makes. -/
def imagePoints : List Nat :=
  List.range' 0x41 26 ++ (upperSpans.flatMap CaseSpan.images ++ upperSequences.flatMap (·.2))

def blankPoints : List Nat :=
  List.range' 0x09 5 ++ (List.range' 0x2000 11 ++ [0x20, 0x85, 0xA0, 0x1680, 0x2028, 0x2029, 0x202F, 0x205F, 0x3000])

theorem not_mem_movedPoints {n : Nat} (h : n ∈ imagePoints) : n ∉ movedPoints :=
  not_mem_of_bits (by decide +kernel) h

theorem not_mem_blankPoints {n : Nat} (h : n ∈ imagePoints) : n ∉ blankPoints :=
  not_mem_of_bits (by decide +kernel) h

theorem isValidChar_of_mem_imagePoints : ∀ n ∈ imagePoints, n.isValidChar := by decide +kernel

theorem toNat_ofNat {n : Nat} (h : n.isValidChar) : (Char.ofNat n).toNat = n := by
  rw [Char.ofNat, dif_pos h]
  rfl

theorem mem_blankPoints_of_isBlank {c : Char} (h : isBlank c = true) : c.toNat ∈ blankPoints := by
  simp only [isBlank, Bool.or_eq_true, Bool.and_eq_true, decide_eq_true_eq, beq_iff_eq] at h
  simp only [blankPoints, List.mem_append, List.mem_range'_1, List.mem_cons, List.not_mem_nil, or_false]
  omega

/-! ### Characters -/

theorem toUpper_cases {c : Char} (h : c.toNat < 0x80) : c.toUpper = c ∨ c.toUpper.toNat ∈ List.range' 0x41 26 := by
  have hall : ∀ n < 0x80, (Char.ofNat n).toUpper = Char.ofNat n ∨ (Char.ofNat n).toUpper.toNat ∈ List.range' 0x41 26 := by
    decide
  exact Char.ofNat_toNat c ▸ hall c.toNat h

/-- Upper-casing leaves a character or makes others of it. -/
theorem upperChar_cases (c : Char) :
    upperChar c = [c] ∨ upperChar c ≠ [] ∧ ∀ d ∈ upperChar c, d.toNat ∈ imagePoints := by
  unfold upperChar
  by_cases hascii : c.toNat < 0x80
  · rw [if_pos hascii]
    rcases toUpper_cases hascii with hsame | himage
    · rw [hsame]
      exact .inl rfl
    · exact .inr ⟨List.cons_ne_nil _ _, List.forall_mem_singleton.mpr (List.mem_append_left _ himage)⟩
  rw [if_neg hascii, caseImage]
  split
  · rename_i image hlookup
    obtain ⟨before, after, htable, -⟩ := List.lookup_eq_some_iff.mp hlookup
    have hentry : (c.toNat, image) ∈ upperSequences := by
      rw [htable]
      exact List.mem_append_right _ List.mem_cons_self
    have hsome : ∀ e ∈ upperSequences, e.2 ≠ [] := by decide +kernel
    refine .inr ⟨by simpa using hsome _ hentry, List.forall_mem_map.mpr fun n hn => ?_⟩
    have himage : n ∈ imagePoints :=
      List.mem_append_right _ (List.mem_append_right _ (List.mem_flatMap.mpr ⟨_, hentry, hn⟩))
    rwa [toNat_ofNat (isValidChar_of_mem_imagePoints n himage)]
  · split
    · rename_i span hspan
      have hmove := CaseSpan.move_mem_images (List.find?_some (p := fun t : CaseSpan => t.covers c.toNat) hspan)
      have himage : span.move c.toNat ∈ imagePoints :=
        List.mem_append_right _ (List.mem_append_left _ (List.mem_flatMap.mpr ⟨span, List.mem_of_find?_eq_some hspan, hmove⟩))
      refine .inr ⟨List.cons_ne_nil _ _, List.forall_mem_singleton.mpr ?_⟩
      rwa [toNat_ofNat (isValidChar_of_mem_imagePoints _ himage)]
    · exact .inl rfl

/-- A character that nothing moves is its own upper case. -/
theorem upperChar_of_not_mem {c : Char} (h : c.toNat ∉ movedPoints) : upperChar c = [c] := by
  simp only [movedPoints, List.mem_append, not_or] at h
  obtain ⟨hsmall, hspans, hsequences⟩ := h
  unfold upperChar
  by_cases hascii : c.toNat < 0x80
  · have hall : ∀ n < 0x80, n ∉ List.range' 0x61 26 → (Char.ofNat n).toUpper = Char.ofNat n := by decide
    rw [if_pos hascii, ← Char.ofNat_toNat c, hall c.toNat hascii hsmall]
  · have hlookup : upperSequences.lookup c.toNat = none := by
      rw [List.lookup_eq_none_iff]
      intro e he
      rw [bne_iff_ne]
      exact fun heq => hsequences (List.mem_map.mpr ⟨e, he, heq.symm⟩)
    have hfind : upperSpans.find? (·.covers c.toNat) = none := by
      rw [List.find?_eq_none]
      intro span hspan hcovers
      exact hspans (List.mem_flatMap.mpr ⟨span, hspan, CaseSpan.mem_sources hcovers⟩)
    rw [if_neg hascii, caseImage, hlookup, hfind]

theorem upperChar_of_mem {c d : Char} (h : d ∈ upperChar c) : upperChar d = [d] := by
  rcases upperChar_cases c with hsame | ⟨-, himages⟩
  · rw [hsame, List.mem_singleton] at h
    rw [h, hsame]
  · exact upperChar_of_not_mem (not_mem_movedPoints (himages d h))

theorem isBlank_of_mem_upperChar {c d : Char} (hc : isBlank c = false) (h : d ∈ upperChar c) : isBlank d = false := by
  rcases upperChar_cases c with hsame | ⟨-, himages⟩
  · rw [hsame, List.mem_singleton] at h
    rwa [h]
  · exact Bool.eq_false_iff.mpr fun hblank => not_mem_blankPoints (himages d h) (mem_blankPoints_of_isBlank hblank)

theorem upperChar_ne_nil (c : Char) : upperChar c ≠ [] := by
  rcases upperChar_cases c with hsame | ⟨hsome, -⟩
  · rw [hsame]
    exact List.cons_ne_nil _ _
  · exact hsome

/-! ### Texts -/

/-- A text of characters that are their own upper case stays as it is. -/
theorem flatMap_upperChar_eq_self {cs : List Char} (h : ∀ c ∈ cs, upperChar c = [c]) : cs.flatMap upperChar = cs :=
  calc cs.flatMap upperChar = cs.flatMap fun c => [c] := List.flatMap_congr h
    _ = cs := List.flatMap_singleton' _

/-- A text that neither starts nor ends with a blank. -/
structure Trimmed (cs : List Char) : Prop where
  head : ∀ c ∈ cs.head?, isBlank c = false
  last : ∀ c ∈ cs.getLast?, isBlank c = false

theorem trimmed_of_forall {cs : List Char} (h : ∀ c ∈ cs, isBlank c = false) : Trimmed cs where
  head c hc := h c (List.mem_of_mem_head? hc)
  last c hc := h c (List.mem_of_mem_getLast? hc)

theorem trimEndChars_eq (cs : List Char) : trimEndChars cs = cs.rdropWhile isBlank := rfl

theorem trimChars_of_trimmed {cs : List Char} (h : Trimmed cs) : trimChars cs = cs := by
  have hfront : cs.dropWhile isBlank = cs := by
    rw [List.dropWhile_eq_self_iff]
    intro hpos
    simp [h.head _ (List.head?_eq_getElem? ▸ List.getElem?_eq_getElem hpos)]
  rw [trimChars, hfront, trimEndChars_eq, List.rdropWhile_eq_self_iff]
  intro hne
  simp [h.last _ (List.getLast?_eq_getLast_of_ne_nil hne)]

theorem trimmed_trimChars (cs : List Char) : Trimmed (trimChars cs) := by
  rw [trimChars, trimEndChars_eq]
  constructor
  · intro c hc
    -- The end is cut off from a text that starts with no blank.
    obtain ⟨rest, hrest⟩ := List.head?_eq_some_iff.mp hc
    obtain ⟨cut, hcut⟩ := List.rdropWhile_prefix isBlank (cs.dropWhile isBlank)
    have hfront := List.head?_dropWhile_not isBlank cs
    rw [← hcut, hrest] at hfront
    exact hfront
  · intro c hc
    obtain ⟨front, hfront⟩ := List.getLast?_eq_some_iff.mp hc
    have hlast := List.rdropWhile_last_not isBlank (cs.dropWhile isBlank) (by simp [hfront])
    simp only [hfront, List.getLast_append_singleton] at hlast
    exact Bool.eq_false_iff.mpr hlast

/-- Trimming takes blanks off both ends, and nothing else. -/
theorem exists_padding (cs : List Char) :
    ∃ front back, (∀ c ∈ front, isBlank c = true) ∧ (∀ c ∈ back, isBlank c = true) ∧ cs = front ++ trimChars cs ++ back := by
  refine ⟨cs.takeWhile isBlank, (cs.dropWhile isBlank).rtakeWhile isBlank, fun c hc => List.mem_takeWhile_imp hc,
    fun c hc => List.mem_rtakeWhile_imp hc, ?_⟩
  rw [trimChars, trimEndChars_eq, List.append_assoc, List.rdropWhile_append_rtakeWhile, List.takeWhile_append_dropWhile]

theorem mem_trimChars {c : Char} {cs : List Char} (hc : isBlank c = false) (h : c ∈ cs) : c ∈ trimChars cs := by
  obtain ⟨front, back, hfront, hback, hcs⟩ := exists_padding cs
  rw [hcs, List.mem_append, List.mem_append] at h
  rcases h with (h | h) | h
  · cases hc.symm.trans (hfront c h)
  · exact h
  · cases hc.symm.trans (hback c h)

/-- Blanks at both ends are of no account. -/
theorem trimChars_padded {front back : List Char} (hfront : ∀ c ∈ front, isBlank c = true)
    (hback : ∀ c ∈ back, isBlank c = true) (cs : List Char) : trimChars (front ++ cs ++ back) = trimChars cs := by
  have hend (ds : List Char) : trimEndChars (ds ++ back) = trimEndChars ds := by
    rw [trimEndChars, List.reverse_append, List.dropWhile_append_of_pos fun c hc => hback c (List.mem_reverse.mp hc),
      trimEndChars]
  rw [trimChars, List.append_assoc, List.dropWhile_append_of_pos hfront, trimChars, List.dropWhile_append]
  split
  · next h =>
      rw [List.isEmpty_iff.mp h, List.dropWhile_eq_nil_iff.mpr hback]
  · exact hend _

/-- Upper-casing brings no blank to either end. -/
theorem Trimmed.upper {cs : List Char} (h : Trimmed cs) : Trimmed (cs.flatMap upperChar) := by
  constructor
  · cases cs with
    | nil => exact h.head
    | cons c cs =>
        intro d hd
        obtain ⟨e, es, himage⟩ := List.exists_cons_of_ne_nil (upperChar_ne_nil c)
        have hmem : d ∈ upperChar c := by
          simp only [List.flatMap_cons, himage, List.cons_append, List.head?_cons, Option.mem_some_iff] at hd
          simp [himage, hd]
        exact isBlank_of_mem_upperChar (h.head c rfl) hmem
  · cases cs using List.reverseRecOn with
    | nil => exact h.last
    | append_singleton cs c _ =>
        intro d hd
        obtain ⟨es, e, himage⟩ := (List.eq_nil_or_concat (upperChar c)).resolve_left (upperChar_ne_nil c)
        have hmem : d ∈ upperChar c := by
          simp only [List.flatMap_append, List.flatMap_singleton, himage] at hd
          simp_all
        exact isBlank_of_mem_upperChar (h.last c (by simp)) hmem

/-- Blanks are their own upper case. -/
theorem upperChar_of_isBlank {c : Char} (h : isBlank c = true) : upperChar c = [c] :=
  upperChar_of_not_mem (not_mem_of_bits (by decide +kernel) (mem_blankPoints_of_isBlank h))

theorem flatMap_upperChar_of_isBlank {cs : List Char} (h : ∀ c ∈ cs, isBlank c = true) : cs.flatMap upperChar = cs :=
  flatMap_upperChar_eq_self fun c hc => upperChar_of_isBlank (h c hc)

/-- It does not matter which comes first, trimming or upper-casing. -/
theorem trimChars_flatMap_upperChar (cs : List Char) :
    trimChars (cs.flatMap upperChar) = (trimChars cs).flatMap upperChar := by
  obtain ⟨front, back, hfront, hback, hcs⟩ := exists_padding cs
  have hparts : cs.flatMap upperChar = front ++ (trimChars cs).flatMap upperChar ++ back := by
    conv_lhs => rw [hcs]
    rw [List.flatMap_append, List.flatMap_append, flatMap_upperChar_of_isBlank hfront, flatMap_upperChar_of_isBlank hback]
  rw [hparts, trimChars_padded hfront hback, trimChars_of_trimmed (trimmed_trimChars cs).upper]

/-! ### Capitals of ASCII -/

/-- What holds of each character with itself and of each ASCII character with its capital holds of every character with
its capital. -/
theorem toUpper_forall {P : Char → Char → Prop} (hsame : ∀ c, P c c)
    (hascii : ∀ n < 0x80, P (Char.ofNat n) (Char.ofNat n).toUpper) (c : Char) : P c c.toUpper := by
  by_cases hc : c.toNat < 0x80
  · exact Char.ofNat_toNat c ▸ hascii c.toNat hc
  · have hlower : ¬c.isLower = true := by
      simp only [Char.isLower, Bool.and_eq_true, decide_eq_true_eq, UInt32.le_iff_toNat_le, not_and]
      intro _ h
      exact hc (lt_of_le_of_lt h (by decide))
    rw [Char.toUpper_eq_of_not_isLower hlower]
    exact hsame c

theorem upperChar_toUpper (c : Char) : upperChar c.toUpper = upperChar c :=
  toUpper_forall (P := fun c d => upperChar d = upperChar c) (fun _ => rfl) (by decide) c

theorem ofList_map_toUpper (cs : List Char) :
    String.ofList (cs.map Char.toUpper) = (String.ofList cs).map Char.toUpper := by
  rw [← String.toList_inj, String.toList_map, String.toList_ofList, String.toList_ofList]

/-- Texts that differ in the case of ASCII letters only have one upper case. -/
theorem upper_map_toUpper (s : String) : upper (s.map Char.toUpper) = upper s := by
  rw [upper, upper, String.toList_map, List.flatMap_map]
  exact congrArg String.ofList (List.flatMap_congr fun c _ => upperChar_toUpper c)

theorem isBlank_toUpper (c : Char) : isBlank c.toUpper = isBlank c :=
  toUpper_forall (P := fun c d => isBlank d = isBlank c) (fun _ => rfl) (by decide) c

end Scorecard.Text
