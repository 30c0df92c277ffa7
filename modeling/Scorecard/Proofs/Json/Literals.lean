import Scorecard.Json.Parser
import Scorecard.Proofs.Json.Numbers
import Scorecard.Proofs.Text.Span

/-!
Number literals inside a text. A literal ends where no digit, point or exponent goes on, so what is read of
it does not depend on what stands behind, as long as that is a blank, a comma or a closing bracket or brace.
The text of an integer of 64 bits is read as that integer; a double may be read as a neighbour of it.
-/
namespace Scorecard.Json

/-- What may stand behind a value: nothing, a blank, a comma, or a closing bracket or brace. -/
def Delimited (rest : List Char) : Prop := ∀ c ∈ rest.head?, isSpace c = true ∨ c = ',' ∨ c = ']' ∨ c = '}'

/-- None of the characters with which a literal could go on. -/
structure EndsLiteral (c : Char) : Prop where
  digit : c.isDigit = false
  point : c ≠ '.'
  exponent : ¬(c = 'e' ∨ c = 'E')
  minus : c ≠ '-'
  plus : c ≠ '+'

theorem Delimited.endsLiteral {rest : List Char} (h : Delimited rest) {c : Char} (hc : c ∈ rest.head?) : EndsLiteral c := by
  rcases h c hc with hspace | rfl | rfl | rfl
  · simp only [isSpace, Bool.or_eq_true, decide_eq_true_eq] at hspace
    rcases hspace with ((rfl | rfl) | rfl) | rfl
    all_goals constructor <;> decide
  all_goals constructor <;> decide

/-! ### Parsers of parts -/

/-- What the parser takes is the front of the text, and it takes the same if something stands behind the text
that may stand behind a value. -/
def TakesFront {α : Type} (parse : List Char → Option (α × List Char)) : Prop :=
  ∀ ⦃cs a tail⦄, parse cs = some (a, tail) →
    tail <:+ cs ∧ ∀ ⦃rest⦄, Delimited rest → parse (cs ++ rest) = some (a, tail ++ rest)

section

variable {α β : Type}

theorem takesFront_pure (a : α) : TakesFront fun cs => some (a, cs) := by
  intro cs b tail h
  obtain ⟨rfl, rfl⟩ := Prod.mk.inj (Option.some.inj h)
  exact ⟨List.suffix_refl _, fun _ _ => rfl⟩

/-- One part after the other. -/
theorem TakesFront.bind {p : List Char → Option (α × List Char)} {q : α → List Char → Option (β × List Char)}
    (hp : TakesFront p) (hq : ∀ a, TakesFront (q a)) : TakesFront fun cs => (p cs).bind fun r => q r.1 r.2 := by
  intro cs b tail h
  obtain ⟨⟨a, middle⟩, hfirst, hsecond⟩ := Option.bind_eq_some_iff.mp h
  obtain ⟨hmiddle, hfirst⟩ := hp hfirst
  obtain ⟨htail, hsecond⟩ := hq a hsecond
  refine ⟨htail.trans hmiddle, fun rest hrest => ?_⟩
  dsimp only
  rw [hfirst hrest, Option.bind_some, hsecond hrest]

/-- A character in front that decides how the text goes on, if what goes on otherwise does not start with it. -/
theorem TakesFront.ite {c : Char} {p q : List Char → Option (α × List Char)} (hc : ¬EndsLiteral c)
    (hp : TakesFront p) (hq : TakesFront q) :
    TakesFront fun cs => if cs.head? = some c then p cs.tail else q cs := by
  intro cs a tail h
  dsimp only at h ⊢
  cases cs with
  | nil =>
      rw [if_neg (by simp)] at h
      obtain ⟨hsuffix, happend⟩ := hq h
      refine ⟨hsuffix, fun rest hrest => ?_⟩
      have hhead : ¬(([] : List Char) ++ rest).head? = some c := fun hhead => hc (hrest.endsLiteral hhead)
      rw [if_neg hhead, happend hrest]
  | cons d cs =>
      by_cases hd : d = c
      · rw [List.head?_cons, if_pos (congrArg some hd)] at h
        obtain ⟨hsuffix, happend⟩ := hp h
        refine ⟨hsuffix.trans (List.suffix_cons d cs), fun rest hrest => ?_⟩
        rw [List.cons_append, List.head?_cons, if_pos (congrArg some hd)]
        exact happend hrest
      · have hhead (cs : List Char) : ¬(d :: cs).head? = some c := fun hhead => hd (Option.some.inj hhead)
        rw [if_neg (hhead cs)] at h
        obtain ⟨hsuffix, happend⟩ := hq h
        refine ⟨hsuffix, fun rest hrest => ?_⟩
        rw [List.cons_append, if_neg (hhead _)]
        exact happend hrest

end

theorem parseDigits?_eq_some_iff {cs digits tail : List Char} :
    parseDigits? cs = some (digits, tail) ↔
      cs = digits ++ tail ∧ digits ≠ [] ∧ (∀ c ∈ digits, c.isDigit = true) ∧ ∀ c ∈ tail.head?, c.isDigit = false := by
  unfold parseDigits?
  constructor
  · intro h
    have hall : ∀ c ∈ cs.takeWhile Char.isDigit, c.isDigit = true := List.all_eq_true.mp List.all_takeWhile
    have hhead : ∀ c ∈ (cs.dropWhile Char.isDigit).head?, c.isDigit = false := by
      intro c hc
      have hnot := List.head?_dropWhile_not Char.isDigit cs
      rw [Option.mem_def.mp hc] at hnot
      simpa using hnot
    have happend : cs.takeWhile Char.isDigit ++ cs.dropWhile Char.isDigit = cs := List.takeWhile_append_dropWhile
    split at h
    · cases h
    · rename_i hne
      obtain ⟨rfl, rfl⟩ := Prod.mk.inj (Option.some.inj h)
      exact ⟨happend.symm, fun hnil => hne hnil, hall, hhead⟩
  · rintro ⟨rfl, hne, hall, hhead⟩
    obtain ⟨htake, hdrop⟩ := Text.span_append hall hhead
    obtain ⟨c, ds, rfl⟩ := List.exists_cons_of_ne_nil hne
    rw [htake, hdrop]

theorem takesFront_digits : TakesFront parseDigits? := by
  intro cs digits tail h
  obtain ⟨rfl, hne, hall, hhead⟩ := parseDigits?_eq_some_iff.mp h
  refine ⟨List.suffix_append .., fun rest hrest => parseDigits?_eq_some_iff.mpr ⟨List.append_assoc .., hne, hall, ?_⟩⟩
  cases tail with
  | nil => exact fun c hc => (hrest.endsLiteral hc).digit
  | cons c tail => exact hhead

/-- The whole part is a run of digits that starts with a zero only if it is one. -/
theorem parseWhole?_eq_some_iff {cs whole tail : List Char} :
    parseWhole? cs = some (whole, tail) ↔
      parseDigits? cs = some (whole, tail) ∧ (whole.head? = some '0' → whole = ['0']) := by
  unfold parseWhole?
  split
  · rename_i c cs
    have hzero : Char.isDigit '0' = true := rfl
    by_cases hc : c.isDigit = true
    · simp [parseDigits?, hc, hzero]
      rintro rfl
      simp
    · simp [parseDigits?, hc, hzero]
      rintro rfl
      simp
  · rename_i hlong
    refine ⟨fun h => ⟨h, fun hhead => ?_⟩, fun h => h.1⟩
    obtain ⟨rfl, hne, hall, -⟩ := parseDigits?_eq_some_iff.mp h
    obtain ⟨c, whole, rfl⟩ := List.exists_cons_of_ne_nil hne
    obtain rfl : c = '0' := Option.some.inj hhead
    cases whole with
    | nil => rfl
    | cons d whole => exact absurd rfl (hlong d (whole ++ tail))

theorem takesFront_whole : TakesFront parseWhole? := by
  intro cs whole tail h
  obtain ⟨hdigits, hzero⟩ := parseWhole?_eq_some_iff.mp h
  obtain ⟨hsuffix, happend⟩ := takesFront_digits hdigits
  exact ⟨hsuffix, fun rest hrest => parseWhole?_eq_some_iff.mpr ⟨happend hrest, hzero⟩⟩

theorem parseFraction?_eq (cs : List Char) :
    parseFraction? cs = if cs.head? = some '.' then parseDigits? cs.tail else some ([], cs) := by
  unfold parseFraction?
  split
  · rfl
  · rename_i hpoint
    rw [if_neg]
    intro hhead
    cases cs with
    | nil => cases hhead
    | cons c cs => exact hpoint cs (congrArg (· :: cs) (Option.some.inj hhead))

theorem takesFront_fraction : TakesFront parseFraction? := by
  rw [funext parseFraction?_eq]
  exact TakesFront.ite (fun h => h.point rfl) takesFront_digits (takesFront_pure [])

/-- The digits of an exponent, with its sign. -/
def parseSigned? (cs : List Char) : Option (Option (Bool × List Char) × List Char) :=
  if cs.head? = some '-' then (parseDigits? cs.tail).bind fun r => some (some (true, r.1), r.2)
  else if cs.head? = some '+' then (parseDigits? cs.tail).bind fun r => some (some (false, r.1), r.2)
  else (parseDigits? cs).bind fun r => some (some (false, r.1), r.2)

theorem parseExponent?_eq (cs : List Char) :
    parseExponent? cs =
      if cs.head? = some 'e' then parseSigned? cs.tail
      else if cs.head? = some 'E' then parseSigned? cs.tail
      else some (none, cs) := by
  cases cs with
  | nil => rfl
  | cons c cs =>
      by_cases hc : c = 'e' ∨ c = 'E'
      · have hsigned : parseExponent? (c :: cs) = parseSigned? cs := by
          unfold parseExponent?
          dsimp only
          rw [if_pos hc]
          cases cs with
          | nil => rfl
          | cons d cs =>
              by_cases hminus : d = '-'
              · subst hminus
                rfl
              · by_cases hplus : d = '+'
                · subst hplus
                  rfl
                · simp [parseSigned?, hminus, hplus]
        rw [hsigned, List.head?_cons, List.tail_cons]
        rcases hc with rfl | rfl <;> rfl
      · simp_all [parseExponent?]

theorem takesFront_exponent : TakesFront parseExponent? := by
  have hdigits (negative : Bool) : TakesFront fun cs =>
      (parseDigits? cs).bind fun r => some (some (negative, r.1), r.2) :=
    takesFront_digits.bind fun digits => takesFront_pure (some (negative, digits))
  have hsigned : TakesFront parseSigned? :=
    TakesFront.ite (fun h => h.minus rfl) (hdigits true) (TakesFront.ite (fun h => h.plus rfl) (hdigits false) (hdigits false))
  rw [funext parseExponent?_eq]
  exact TakesFront.ite (fun h => h.exponent (.inl rfl)) hsigned
    (TakesFront.ite (fun h => h.exponent (.inr rfl)) hsigned (takesFront_pure none))

/-- A literal behind its sign. -/
def parseUnsigned? (negative : Bool) (cs : List Char) : Option (Literal × List Char) :=
  (parseWhole? cs).bind fun whole => (parseFraction? whole.2).bind fun fraction =>
    (parseExponent? fraction.2).bind fun exponent => some (⟨negative, whole.1, fraction.1, exponent.1⟩, exponent.2)

theorem parseLiteral?_eq (cs : List Char) :
    parseLiteral? cs = if cs.head? = some '-' then parseUnsigned? true cs.tail else parseUnsigned? false cs := by
  cases cs with
  | nil => rfl
  | cons c cs =>
      by_cases hc : c = '-'
      · subst hc
        rfl
      · simp [parseLiteral?, parseUnsigned?, hc]

theorem takesFront_literal : TakesFront parseLiteral? := by
  have hexponent (negative : Bool) (whole fraction : List Char) : TakesFront fun cs =>
      (parseExponent? cs).bind fun exponent => some (Literal.mk negative whole fraction exponent.1, exponent.2) :=
    takesFront_exponent.bind fun exponent => takesFront_pure (Literal.mk negative whole fraction exponent)
  have hfraction (negative : Bool) (whole : List Char) : TakesFront fun cs =>
      (parseFraction? cs).bind fun fraction => (parseExponent? fraction.2).bind fun exponent =>
        some (Literal.mk negative whole fraction.1 exponent.1, exponent.2) :=
    takesFront_fraction.bind (hexponent negative whole)
  have hunsigned (negative : Bool) : TakesFront (parseUnsigned? negative) :=
    (takesFront_whole.bind (hfraction negative) :)
  rw [funext parseLiteral?_eq]
  exact TakesFront.ite (fun h => h.minus rfl) (hunsigned true) (hunsigned false)

/-! ### Integers -/

/-- The digits of a positive number start with another digit than zero. -/
theorem head_toDigits_ne_zero {n : Nat} (h : n ≠ 0) : (Nat.toDigits 10 n).head? ≠ some '0' := by
  induction n using Nat.strongRecOn with
  | _ n ih =>
      by_cases hn : n < 10
      · have hall : ∀ n < 10, n ≠ 0 → (Nat.toDigits 10 n).head? ≠ some '0' := by decide
        exact hall n hn h
      · have hquotient : n / 10 ≠ 0 := by omega
        have hhead := ih (n / 10) (by omega) hquotient
        obtain ⟨c, cs, hcons⟩ := List.exists_cons_of_ne_nil (Nat.toDigits_ne_nil (b := 10) (n := n / 10))
        rw [Nat.toDigits_of_base_le (by decide) (by omega), hcons, List.cons_append]
        rwa [hcons] at hhead

theorem parseWhole?_toDigits (n : Nat) : parseWhole? (Nat.toDigits 10 n) = some (Nat.toDigits 10 n, []) := by
  refine parseWhole?_eq_some_iff.mpr ⟨?_, fun hzero => ?_⟩
  · exact parseDigits?_eq_some_iff.mpr ⟨(List.append_nil _).symm, Nat.toDigits_ne_nil,
      fun c hc => Decimal.isDigit_of_mem_toDigits hc, by simp⟩
  · by_cases hn : n = 0
    · rw [hn, Nat.toDigits_zero]
    · exact absurd hzero (head_toDigits_ne_zero hn)

theorem le_ofDigitChars (cs : List Char) (n : Nat) : n ≤ Nat.ofDigitChars 10 cs n := by
  induction cs generalizing n with
  | nil => exact Nat.le_refl n
  | cons c cs ih =>
      rw [Nat.ofDigitChars_cons]
      exact Nat.le_trans (by omega) (ih _)

theorem gather_eq {n : Nat} {cs : List Char} (h : Nat.ofDigitChars 10 cs n < UInt64.size) :
    Literal.gather n cs = (Nat.ofDigitChars 10 cs n, []) := by
  induction cs generalizing n with
  | nil => rfl
  | cons c cs ih =>
      rw [Nat.ofDigitChars_cons] at h ⊢
      have hnext : 10 * n + (c.toNat - '0'.toNat) < UInt64.size := Nat.lt_of_le_of_lt (le_ofDigitChars cs _) h
      rw [Literal.gather, if_pos hnext, ih h]

/-- The text of an integer of 64 bits is a literal of that integer. -/
theorem exists_literal_integerChars {n : Int} (h : FitsWord n) :
    ∃ l, parseLiteral? (integerChars n) = some (l, []) ∧ l.number? = some (.integer n h) := by
  refine ⟨⟨decide (n < 0), Nat.toDigits 10 n.natAbs, [], none⟩, ?_, ?_⟩
  · have hunsigned (negative : Bool) : parseUnsigned? negative (Nat.toDigits 10 n.natAbs) =
        some (⟨negative, Nat.toDigits 10 n.natAbs, [], none⟩, []) := by
      rw [parseUnsigned?, parseWhole?_toDigits]
      rfl
    rw [parseLiteral?_eq]
    by_cases hn : n < 0
    · rw [integerChars, if_pos hn, List.head?_cons, if_pos rfl, List.tail_cons, hunsigned, decide_eq_true hn]
    · have hhead : (Nat.toDigits 10 n.natAbs).head? ≠ some '-' := by
        intro hminus
        have hdigit := Decimal.isDigit_of_mem_toDigits (List.mem_of_mem_head? hminus)
        exact absurd hdigit (by decide)
      rw [integerChars, if_neg hn, if_neg hhead, hunsigned, decide_eq_false hn]
  · have hgather : Literal.gather 0 (Nat.toDigits 10 n.natAbs) = (n.natAbs, []) := by
      have hsize : Nat.ofDigitChars 10 (Nat.toDigits 10 n.natAbs) 0 < UInt64.size := by
        rw [Nat.ofDigitChars_ten_toDigits]
        have := h.1
        have := h.2
        simp only [UInt64.size]
        omega
      rw [gather_eq hsize, Nat.ofDigitChars_ten_toDigits]
    have hvalue : (if decide (n < 0) = true then -(n.natAbs : Int) else n.natAbs) = n := by
      by_cases hn : n < 0
      · rw [if_pos (decide_eq_true hn)]
        omega
      · rw [if_neg (by simpa using hn)]
        omega
    have hzero : ¬(decide (n < 0) = true ∧ n.natAbs = 0) := by
      rw [decide_eq_true_eq]
      omega
    rw [Literal.number?, hgather]
    simp only [List.isEmpty_nil, Option.isNone_none, Bool.and_self, if_true, Literal.integer?, hvalue, dif_pos h,
      if_neg hzero]

end Scorecard.Json
