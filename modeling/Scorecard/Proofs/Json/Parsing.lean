import Scorecard.Proofs.Json.Compact
import Scorecard.Proofs.Json.Literals
import Scorecard.Proofs.Json.Reading

/-!
The texts of values, read. Behind the text of a value inside a text stands nothing that could belong to it,
so the reader takes from there the value's document and goes on behind it, blanks between the parts or not.
Values that are not nested too deep and whose numbers are read as themselves are read back as a whole.
-/
namespace Scorecard.Json

/-! ### Blanks -/

theorem skipSpace_cons {c : Char} (h : isSpace c = false) (cs : List Char) : skipSpace (c :: cs) = c :: cs := by
  rw [skipSpace, List.dropWhile_cons_of_neg (by simp [h])]

/-- A text of blanks. -/
def Blank (cs : List Char) : Prop := ∀ c ∈ cs, isSpace c = true

theorem blank_nil : Blank [] := List.forall_mem_nil _

theorem skipSpace_append {blanks : List Char} (h : Blank blanks) (cs : List Char) :
    skipSpace (blanks ++ cs) = skipSpace cs := List.dropWhile_append_of_pos h

theorem skipSpace_skipSpace (cs : List Char) : skipSpace (skipSpace cs) = skipSpace cs :=
  List.dropWhile_idempotent isSpace cs

theorem parseValue?_skipSpace (fuel depth : Nat) (cs : List Char) :
    parseValue? fuel depth (skipSpace cs) = parseValue? fuel depth cs := by
  cases fuel with
  | zero => rfl
  | succ fuel => rw [parseValue?, parseValue?, skipSpace_skipSpace]

theorem parseItems?_skipSpace (fuel depth : Nat) (cs : List Char) :
    parseItems? fuel depth (skipSpace cs) = parseItems? fuel depth cs := by
  cases fuel with
  | zero => rfl
  | succ fuel => rw [parseItems?, parseItems?, parseValue?_skipSpace]

theorem parseMembers?_skipSpace (fuel depth : Nat) (cs : List Char) :
    parseMembers? fuel depth (skipSpace cs) = parseMembers? fuel depth cs := by
  cases fuel with
  | zero => rfl
  | succ fuel => rw [parseMembers?, parseMembers?, skipSpace_skipSpace]

/-! ### One step -/

theorem parseValue?_quote (fuel depth : Nat) (cs : List Char) :
    parseValue? (fuel + 1) depth ('"' :: cs) = (parseString? cs).map fun r => (stringDocument r.1, r.2) := rfl

theorem parseValue?_bracket (fuel depth : Nat) (cs : List Char) :
    parseValue? (fuel + 1) depth ('[' :: cs) =
      match skipSpace cs with
      | ']' :: cs => some (nestedDocument depth (.array []), cs)
      | cs => (parseItems? fuel (depth + 1) cs).map fun r => (nestedDocument depth (.array r.1), r.2) := by
  show (match skipSpace cs with
    | ']' :: cs => some (nestedDocument depth (.array []), cs)
    | cs => (parseItems? fuel (depth + 1) cs).bind fun r => some (nestedDocument depth (.array r.1), r.2)) = _
  simp only [Option.map_eq_bind, Function.comp_def]

theorem parseValue?_brace (fuel depth : Nat) (cs : List Char) :
    parseValue? (fuel + 1) depth ('{' :: cs) =
      match skipSpace cs with
      | '}' :: cs => some (nestedDocument depth (.object []), cs)
      | cs => (parseMembers? fuel (depth + 1) cs).map fun r => (nestedDocument depth (objectDocument r.1), r.2) := by
  show (match skipSpace cs with
    | '}' :: cs => some (nestedDocument depth (.object []), cs)
    | cs => (parseMembers? fuel (depth + 1) cs).bind fun r =>
      some (nestedDocument depth (objectDocument r.1), r.2)) = _
  simp only [Option.map_eq_bind, Function.comp_def]

/-- What starts with a digit or a minus is read as a literal. -/
theorem parseValue?_literal {c : Char} (hc : c.isDigit = true ∨ c = '-') (fuel depth : Nat) (cs : List Char) :
    parseValue? (fuel + 1) depth (c :: cs) = (parseLiteral? (c :: cs)).map fun r => (numberDocument r.1, r.2) := by
  have hne {d : Char} (hdigit : d.isDigit = false) (hminus : d ≠ '-') : c ≠ d := by
    rintro rfl
    simp [hdigit, hminus] at hc
  have hspace : isSpace c = false := by simp [isSpace, hne]
  rw [parseValue?, skipSpace_cons hspace]
  split
  case h_7 => rfl
  all_goals
    rename_i heq
    exact absurd (List.cons.inj heq).1 (hne (by decide) (by decide))

theorem parseItems?_succ (fuel depth : Nat) (cs : List Char) :
    parseItems? (fuel + 1) depth cs = (parseValue? fuel depth cs).bind fun item =>
      match skipSpace item.2 with
      | ',' :: cs => (parseItems? fuel depth cs).bind fun items => some (item.1 :: items.1, items.2)
      | ']' :: cs => some ([item.1], cs)
      | _ => none := rfl

theorem parseMembers?_succ (fuel depth : Nat) (cs : List Char) :
    parseMembers? (fuel + 1) depth cs =
      match skipSpace cs with
      | '"' :: cs => (parseString? cs).bind fun name =>
        match skipSpace name.2 with
        | ':' :: cs => (parseValue? fuel depth cs).bind fun value =>
          match skipSpace value.2 with
          | ',' :: cs => (parseMembers? fuel depth cs).bind fun members =>
            some ((name.1, value.1) :: members.1, members.2)
          | '}' :: cs => some ([(name.1, value.1)], cs)
          | _ => none
        | _ => none
      | _ => none := rfl

/-! ### Values inside a text -/

theorem delimited_append {blanks rest : List Char} (hblank : Blank blanks) (hrest : Delimited rest) :
    Delimited (blanks ++ rest) := by
  cases blanks with
  | nil => exact hrest
  | cons c blanks =>
      rintro d ⟨⟩
      exact .inl (hblank c List.mem_cons_self)

theorem delimited_close {close : Char} (h : close = ']' ∨ close = '}') (rest : List Char) : Delimited (close :: rest) := by
  rintro c ⟨⟩
  exact .inr (.inr h)

theorem delimited_comma (rest : List Char) : Delimited (',' :: rest) := by
  rintro c ⟨⟩
  exact .inr (.inl rfl)

/-- Wherever the text stands, with as many levels left as it needs, it is read as the document. Two steps for
each of its characters are enough. -/
def ReadAs (d : Document) (height : Nat) (text : List Char) : Prop :=
  ∀ ⦃fuel depth rest⦄, 2 * text.length ≤ fuel → depth + height ≤ maxDepth → Delimited rest →
    parseValue? fuel depth (text ++ rest) = some (d, rest)

theorem ReadAs.blank_append {d : Document} {height : Nat} {text blanks : List Char} (h : ReadAs d height text)
    (hblank : Blank blanks) : ReadAs d height (blanks ++ text) := by
  intro fuel depth rest hfuel hdepth hrest
  rw [List.length_append] at hfuel
  rw [List.append_assoc, ← parseValue?_skipSpace, skipSpace_append hblank, parseValue?_skipSpace]
  exact h (by omega) hdepth hrest

theorem ReadAs.parse? {d : Document} {text : List Char} (h : ReadAs d maxDepth text) :
    Json.parse? (String.ofList text) = some d := by
  have hfuel : 2 * text.length ≤ 2 * text.length + 2 := by omega
  have hdepth : 0 + maxDepth ≤ maxDepth := by omega
  have hend : Delimited [] := by simp [Delimited]
  have hread := h hfuel hdepth hend
  rw [List.append_nil] at hread
  rw [Json.parse?, String.toList_ofList, parseChars?, hread]
  rfl

/-- A text with a first character needs at least one step. -/
theorem readAs_of_succ {d : Document} {height : Nat} {text : List Char} (hne : text ≠ [])
    (h : ∀ fuel depth rest, 2 * text.length ≤ fuel + 1 → depth + height ≤ maxDepth → Delimited rest →
      parseValue? (fuel + 1) depth (text ++ rest) = some (d, rest)) : ReadAs d height text := by
  intro fuel depth rest hfuel hdepth hrest
  have hlength := List.length_pos_iff.mpr hne
  obtain ⟨fuel, rfl⟩ := Nat.exists_eq_add_one_of_ne_zero (n := fuel) (by omega)
  exact h fuel depth rest hfuel hdepth hrest

theorem readAs_null (height : Nat) : ReadAs .null height "null".toList :=
  readAs_of_succ (by decide) fun _ _ _ _ _ _ => rfl

theorem readAs_bool (height : Nat) (b : Bool) : ReadAs (.bool b) height (boolChars b) := by
  cases b with
  | true => exact readAs_of_succ (by decide) fun _ _ _ _ _ _ => rfl
  | false => exact readAs_of_succ (by decide) fun _ _ _ _ _ _ => rfl

theorem readAs_string (height : Nat) (s : String) : ReadAs (.string s) height (stringChars s) := by
  refine readAs_of_succ (by simp [stringChars]) fun fuel depth rest _ _ _ => ?_
  rw [stringChars, List.cons_append, parseValue?_quote, List.append_assoc, List.singleton_append,
    parseString?_flatMap_escapeChar]
  rfl

section

variable {α : Type} {text : α → List Char} {document : α → Document} {height fuel depth : Nat} {as : List α}
  {after : List Char}

theorem intercalate_cons_cons_append (a b : α) (as : List α) (behind : List Char) :
    [','].intercalate ((a :: b :: as).map text) ++ behind =
      text a ++ ',' :: ([','].intercalate ((b :: as).map text) ++ behind) := by
  simp [List.intercalate_cons_cons]

theorem length_intercalate_cons_cons (a b : α) (as : List α) :
    ([','].intercalate ((a :: b :: as).map text)).length =
      (text a).length + 1 + ([','].intercalate ((b :: as).map text)).length := by
  simp only [List.map_cons, List.intercalate_cons_cons, List.length_append, List.length_singleton]

/-- Behind the first of the texts stands what may stand behind a value. -/
theorem exists_delimited (text : α → List Char) (a : α) (as : List α) (hafter : Blank after) {close : Char}
    (hclose : close = ']' ∨ close = '}') (rest : List Char) :
    ∃ behind, [','].intercalate ((a :: as).map text) ++ (after ++ close :: rest) = text a ++ behind ∧ Delimited behind := by
  cases as with
  | nil =>
      rw [List.map_singleton, List.intercalate_singleton]
      exact ⟨_, rfl, delimited_append hafter (delimited_close hclose rest)⟩
  | cons b as =>
      rw [intercalate_cons_cons_append]
      exact ⟨_, rfl, delimited_comma _⟩

/-- Texts with commas between them, up to a closing bracket, are read as a list. -/
theorem parseItems?_intercalate (h : ∀ a ∈ as, ReadAs (document a) height (text a)) (hne : as ≠ [])
    (hfuel : 2 * ([','].intercalate (as.map text)).length + 1 ≤ fuel) (hdepth : depth + height ≤ maxDepth)
    (hafter : Blank after) (rest : List Char) :
    parseItems? fuel depth ([','].intercalate (as.map text) ++ (after ++ ']' :: rest)) = some (as.map document, rest) := by
  induction as generalizing fuel with
  | nil => exact absurd rfl hne
  | cons a as ih =>
      obtain ⟨fuel, rfl⟩ := Nat.exists_eq_add_one_of_ne_zero (n := fuel) (by omega)
      obtain ⟨ha, has⟩ := List.forall_mem_cons.mp h
      cases as with
      | nil =>
          have hend : Delimited (after ++ ']' :: rest) := delimited_append hafter (delimited_close (.inl rfl) rest)
          rw [List.map_singleton, List.intercalate_singleton] at hfuel ⊢
          rw [parseItems?_succ, ha (by omega) hdepth hend, Option.bind_some, skipSpace_append hafter,
            skipSpace_cons (by decide)]
          rfl
      | cons b as =>
          rw [length_intercalate_cons_cons] at hfuel
          rw [intercalate_cons_cons_append, parseItems?_succ, ha (by omega) hdepth (delimited_comma _), Option.bind_some,
            skipSpace_cons (by decide)]
          show (parseItems? fuel depth _).bind _ = _
          rw [ih has (by simp) (by omega)]
          rfl

/-- What starts with a value does not start with a closing bracket. -/
theorem ReadAs.skipSpace_ne {d : Document} {text rest : List Char} (h : ReadAs d height text) (hheight : height ≤ maxDepth)
    (hrest : Delimited rest) (cs : List Char) : skipSpace (text ++ rest) ≠ ']' :: cs := by
  intro hspace
  have hdepth : 0 + height ≤ maxDepth := by omega
  have hread := h (Nat.le_succ (2 * text.length)) hdepth hrest
  rw [parseValue?, hspace] at hread
  cases hread

theorem nestedDocument_of_lt {depth : Nat} (h : depth < maxDepth) (d : Document) : nestedDocument depth d = d := if_pos h

/-- Texts between brackets are read as an array, one level higher than what is in it. -/
theorem readAs_array (h : ∀ a ∈ as, ReadAs (document a) height (text a)) (hafter : Blank after) :
    ReadAs (.array (as.map document)) (height + 1) ('[' :: ([','].intercalate (as.map text) ++ after ++ [']'])) := by
  refine readAs_of_succ (by simp) fun fuel depth rest hfuel hdepth _ => ?_
  have hlevel : nestedDocument depth (.array (as.map document)) = .array (as.map document) :=
    nestedDocument_of_lt (by omega) _
  rw [List.cons_append, List.append_assoc, List.append_assoc, List.singleton_append, parseValue?_bracket]
  cases as with
  | nil =>
      rw [List.map_nil, List.intercalate_nil, List.nil_append, skipSpace_append hafter, skipSpace_cons (by decide)]
      exact congrArg (fun d => some (d, rest)) hlevel
  | cons a as =>
      have hopen : ∀ cs, skipSpace ([','].intercalate ((a :: as).map text) ++ (after ++ ']' :: rest)) ≠ ']' :: cs := by
        obtain ⟨behind, htext, hbehind⟩ := exists_delimited text a as hafter (.inl rfl) rest
        rw [htext]
        exact (h a List.mem_cons_self).skipSpace_ne (by omega) hbehind
      split
      · rename_i hclose
        exact absurd hclose (hopen _)
      · simp only [List.length_cons, List.length_append] at hfuel
        rw [parseItems?_skipSpace, parseItems?_intercalate h (by simp) (by omega) (by omega) hafter, Option.map_some, hlevel]

/-- The text of a member, with blanks before the name. -/
def spacedMember (before : List Char) (name : α → String) (text : α → List Char) (a : α) : List Char :=
  before ++ (stringChars (name a) ++ ':' :: text a)

theorem skipSpace_spacedMember {before : List Char} (hbefore : Blank before) (name : α → String) (a : α)
    (behind : List Char) : skipSpace (spacedMember before name text a ++ behind) =
      '"' :: ((name a).toList.flatMap escapeChar ++ '"' :: ':' :: (text a ++ behind)) := by
  rw [spacedMember, List.append_assoc, skipSpace_append hbefore, stringChars, List.cons_append, List.cons_append,
    skipSpace_cons (by decide), List.append_assoc, List.append_assoc, List.singleton_append, List.cons_append]

/-- Members with commas between them, up to a closing brace, are read as a list. -/
theorem parseMembers?_intercalate {before : List Char} (hbefore : Blank before) {name : α → String}
    (h : ∀ a ∈ as, ReadAs (document a) height (text a)) (hne : as ≠ [])
    (hfuel : 2 * ([','].intercalate (as.map (spacedMember before name text))).length + 1 ≤ fuel)
    (hdepth : depth + height ≤ maxDepth) (hafter : Blank after) (rest : List Char) :
    parseMembers? fuel depth ([','].intercalate (as.map (spacedMember before name text)) ++ (after ++ '}' :: rest)) =
      some (as.map fun a => (some (name a), document a), rest) := by
  have hlength (a : α) : (text a).length < (spacedMember before name text a).length := by
    simp only [spacedMember, List.length_append, List.length_cons]
    omega
  induction as generalizing fuel with
  | nil => exact absurd rfl hne
  | cons a as ih =>
      obtain ⟨fuel, rfl⟩ := Nat.exists_eq_add_one_of_ne_zero (n := fuel) (by omega)
      obtain ⟨ha, has⟩ := List.forall_mem_cons.mp h
      have hshort := hlength a
      cases as with
      | nil =>
          have hend : Delimited (after ++ '}' :: rest) := delimited_append hafter (delimited_close (.inr rfl) rest)
          rw [List.map_singleton, List.intercalate_singleton] at hfuel ⊢
          rw [parseMembers?_succ, skipSpace_spacedMember hbefore]
          show (parseString? _).bind _ = _
          rw [parseString?_flatMap_escapeChar, Option.bind_some, skipSpace_cons (by decide)]
          show (parseValue? fuel depth _).bind _ = _
          rw [ha (by omega) hdepth hend, Option.bind_some, skipSpace_append hafter, skipSpace_cons (by decide)]
          rfl
      | cons b as =>
          rw [length_intercalate_cons_cons] at hfuel
          rw [intercalate_cons_cons_append, parseMembers?_succ, skipSpace_spacedMember hbefore]
          show (parseString? _).bind _ = _
          rw [parseString?_flatMap_escapeChar, Option.bind_some, skipSpace_cons (by decide)]
          show (parseValue? fuel depth _).bind _ = _
          rw [ha (by omega) hdepth (delimited_comma _), Option.bind_some, skipSpace_cons (by decide)]
          show (parseMembers? fuel depth _).bind _ = _
          rw [ih has (by simp) (by omega)]
          rfl

theorem objectDocument_map_some (name : α → String) (document : α → Document) (as : List α) :
    objectDocument (as.map fun a => (some (name a), document a)) = .object (as.map fun a => (name a, document a)) := by
  have hread : ((as.map fun a => (some (name a), document a)).mapM fun (m : Option String × Document) =>
      m.1.map (·, m.2)) = some (as.map fun a => (name a, document a)) := mapM_map_of_forall fun a _ => rfl
  rw [objectDocument, hread]

/-- Members between braces are read as an object, one level higher than what is in it. -/
theorem readAs_object {before : List Char} (hbefore : Blank before) (name : α → String)
    (h : ∀ a ∈ as, ReadAs (document a) height (text a)) (hafter : Blank after) :
    ReadAs (.object (as.map fun a => (name a, document a))) (height + 1)
      ('{' :: ([','].intercalate (as.map (spacedMember before name text)) ++ after ++ ['}'])) := by
  refine readAs_of_succ (by simp) fun fuel depth rest hfuel hdepth _ => ?_
  have hmembers : objectDocument (as.map fun a => (some (name a), document a)) =
      .object (as.map fun a => (name a, document a)) := objectDocument_map_some _ _ as
  have hlevel : nestedDocument depth (.object (as.map fun a => (name a, document a))) =
      .object (as.map fun a => (name a, document a)) := nestedDocument_of_lt (by omega) _
  rw [List.cons_append, List.append_assoc, List.append_assoc, List.singleton_append, parseValue?_brace]
  cases as with
  | nil =>
      rw [List.map_nil, List.intercalate_nil, List.nil_append, skipSpace_append hafter, skipSpace_cons (by decide)]
      exact congrArg (fun d => some (d, rest)) hlevel
  | cons a as =>
      have hopen : ∀ cs, skipSpace ([','].intercalate ((a :: as).map (spacedMember before name text)) ++
          (after ++ '}' :: rest)) ≠ '}' :: cs := by
        obtain ⟨behind, htext, hbehind⟩ := exists_delimited (spacedMember before name text) a as hafter (.inr rfl) rest
        rw [htext, skipSpace_spacedMember hbefore]
        intro cs heq
        exact absurd (List.cons.inj heq).1 (by decide)
      split
      · rename_i hclose
        exact absurd hclose (hopen _)
      · simp only [List.length_cons, List.length_append] at hfuel
        rw [parseMembers?_skipSpace, parseMembers?_intercalate hbefore h (by simp) (by omega) (by omega) hafter,
          Option.map_some, hmembers, hlevel]

end

/-! ### Numbers -/

/-- The reader makes the number of the text that the writer makes of it. -/
def Number.Reproduced (n : Number) : Prop := parse? (compact (.number n)) = some (.number n)

theorem not_isNumberPart_of_isSpace {c : Char} (h : isSpace c = true) : isNumberPart c = false := by
  simp only [isSpace, Bool.or_eq_true, decide_eq_true_eq] at h
  rcases h with ((rfl | rfl) | rfl) | rfl <;> rfl

/-- The text of a number that is reproduced is a literal of that number, up to its end. -/
theorem Number.Reproduced.parseLiteral? {n : Number} (h : n.Reproduced) :
    ∃ l, Json.parseLiteral? n.chars = some (l, []) ∧ numberDocument l = .number n := by
  obtain ⟨c, cs, htext, hc⟩ := n.exists_cons_chars
  have hread : ((parseValue? (2 * n.chars.length + 1 + 1) 0 n.chars).bind fun r =>
      if (skipSpace r.2).isEmpty then some r.1 else none) = some (.number n) := by
    rw [Reproduced, parse?, compact, String.toList_ofList] at h
    exact h
  obtain ⟨⟨d, behind⟩, hvalue, hend⟩ := Option.bind_eq_some_iff.mp hread
  rw [htext, parseValue?_literal hc, ← htext] at hvalue
  obtain ⟨⟨l, tail⟩, hliteral, heq⟩ := Option.map_eq_some_iff.mp hvalue
  obtain ⟨rfl, rfl⟩ := Prod.mk.inj heq
  obtain ⟨hsuffix, -⟩ := takesFront_literal hliteral
  split at hend
  · rename_i hempty
    have hblank := List.dropWhile_eq_nil_iff.mp (List.isEmpty_iff.mp hempty)
    -- What is left are blanks and part of the text, which has no blank in it.
    have hnil : tail = [] := by
      refine List.eq_nil_iff_forall_not_mem.mpr fun d hd => ?_
      have hpart := isNumberPart_of_mem_chars d (hsuffix.subset hd)
      rw [not_isNumberPart_of_isSpace (hblank d hd)] at hpart
      cases hpart
    exact ⟨l, hnil ▸ hliteral, Option.some.inj hend⟩
  · cases hend

theorem exists_cons_of_literal {cs tail : List Char} {l : Literal} (h : parseLiteral? cs = some (l, tail)) :
    ∃ c rest, cs = c :: rest ∧ (c.isDigit = true ∨ c = '-') := by
  rw [parseLiteral?_eq] at h
  split at h
  · next hminus =>
      obtain ⟨rest, rfl⟩ := List.head?_eq_some_iff.mp hminus
      exact ⟨'-', rest, rfl, .inr rfl⟩
  · obtain ⟨⟨whole, behind⟩, hwhole, -⟩ := Option.bind_eq_some_iff.mp h
    obtain ⟨rfl, hne, hdigits, -⟩ := parseDigits?_eq_some_iff.mp (parseWhole?_eq_some_iff.mp hwhole).1
    obtain ⟨c, rest, rfl⟩ := List.exists_cons_of_ne_nil hne
    exact ⟨c, rest ++ behind, rfl, .inl (hdigits c List.mem_cons_self)⟩

/-- A text that is a literal is read as the document of its number. -/
theorem readAs_literal (height : Nat) {cs : List Char} {l : Literal} (h : parseLiteral? cs = some (l, [])) :
    ReadAs (numberDocument l) height cs := by
  obtain ⟨c, cs, rfl, hc⟩ := exists_cons_of_literal h
  refine readAs_of_succ (List.cons_ne_nil c cs) fun fuel depth rest _ _ hrest => ?_
  have hread := (takesFront_literal h).2 hrest
  rw [List.cons_append] at hread ⊢
  rw [parseValue?_literal hc, hread, Option.map_some]
  rfl

theorem readAs_number (height : Nat) {n : Number} (h : n.Reproduced) : ReadAs (.number n) height n.chars := by
  obtain ⟨l, hliteral, hdocument⟩ := h.parseLiteral?
  rw [← hdocument]
  exact readAs_literal height hliteral

theorem reproduced_integer {n : Int} (h : FitsWord n) : Number.Reproduced (.integer n h) := by
  obtain ⟨l, hliteral, hvalue⟩ := exists_literal_integerChars h
  have hparse := (readAs_literal maxDepth hliteral).parse?
  rwa [numberDocument, hvalue] at hparse

/-! ### Values -/

/-- The value is nested no deeper than `height`, and all numbers in it are reproduced. -/
inductive Legible : (height : Nat) → Json → Prop
  | null {height : Nat} : Legible height .null
  | bool {height : Nat} (b : Bool) : Legible height (.bool b)
  | string {height : Nat} (s : String) : Legible height (.string s)
  | number {height : Nat} {n : Number} (h : n.Reproduced) : Legible height (.number n)
  | array {height : Nat} {items : List Json} (h : ∀ v ∈ items, Legible height v) : Legible (height + 1) (.array items)
  | object {height : Nat} {members : List (String × Json)} (h : ∀ m ∈ members, Legible height m.2) :
      Legible (height + 1) (.object members)

theorem Legible.readAs_chars {height : Nat} {v : Json} (h : Legible height v) : ReadAs v.toDocument height v.chars := by
  induction h with
  | null => exact readAs_null _
  | bool b => exact readAs_bool _ b
  | string s => exact readAs_string _ s
  | number h => exact readAs_number _ h
  | @array height items _ ih =>
      have hread := readAs_array ih blank_nil
      rw [List.append_nil] at hread
      rwa [toDocument, itemDocuments_eq, chars, itemChars_eq]
  | @object height members _ ih =>
      have hread := readAs_object blank_nil Prod.fst ih blank_nil
      rw [List.append_nil] at hread
      rwa [toDocument, memberDocuments_eq, chars, memberChars_eq]

theorem blank_lineBreak (level : Nat) : Blank (lineBreak level) := by
  refine List.forall_mem_cons.mpr ⟨rfl, fun c hc => ?_⟩
  rw [List.eq_of_mem_replicate hc]
  rfl

theorem lineBreak_indentedItems (level : Nat) (v : Json) (vs : List Json) :
    lineBreak level ++ indentedItems level (v :: vs) =
      [','].intercalate ((v :: vs).map fun v => lineBreak level ++ indentedChars level v) := by
  induction vs generalizing v with
  | nil => simp [indentedItems]
  | cons w vs ih =>
      rw [indentedItems, ih]
      simp [List.intercalate_cons_cons]

theorem lineBreak_indentedMembers (level : Nat) (m : String × Json) (ms : List (String × Json)) :
    lineBreak level ++ indentedMembers level (m :: ms) =
      [','].intercalate ((m :: ms).map (spacedMember (lineBreak level) Prod.fst fun m => ' ' :: indentedChars level m.2)) := by
  induction ms generalizing m with
  | nil => simp [indentedMembers, spacedMember]
  | cons m' ms ih =>
      rw [indentedMembers, ih]
      simp [spacedMember, List.intercalate_cons_cons]

/-- The indented text has blanks where the compact one has none. -/
theorem Legible.readAs_indentedChars {height : Nat} {v : Json} (h : Legible height v) (level : Nat) :
    ReadAs v.toDocument height (v.indentedChars level) := by
  induction h generalizing level with
  | null => exact readAs_null _
  | bool b => exact readAs_bool _ b
  | string s => exact readAs_string _ s
  | number h => exact readAs_number _ h
  | @array height items _ ih =>
      cases items with
      | nil => exact (Legible.array (List.forall_mem_nil (Legible height))).readAs_chars
      | cons v vs =>
          have hread := readAs_array (fun w hw => (ih w hw (level + 1)).blank_append (blank_lineBreak (level + 1)))
            (blank_lineBreak level)
          rwa [toDocument, itemDocuments_eq, indentedChars, lineBreak_indentedItems]
  | @object height members _ ih =>
      cases members with
      | nil => exact (Legible.object (List.forall_mem_nil fun m : String × Json => Legible height m.2)).readAs_chars
      | cons m ms =>
          have hspace : Blank [' '] := List.forall_mem_singleton.mpr rfl
          have hread := readAs_object (blank_lineBreak (level + 1)) Prod.fst
            (fun m hm => (ih m hm (level + 1)).blank_append hspace) (blank_lineBreak level)
          rwa [toDocument, memberDocuments_eq, indentedChars, lineBreak_indentedMembers]

/-- A value that is nested at most 127 deep and whose numbers are reproduced is read from either of its texts. -/
theorem Legible.parse?_text {v : Json} (h : Legible maxDepth v) {text : String} (htext : text = v.compact ∨ text = v.indented) :
    parse? text = some v.toDocument := by
  rcases htext with rfl | rfl
  · exact h.readAs_chars.parse?
  · exact (h.readAs_indentedChars 0).parse?

end Scorecard.Json
