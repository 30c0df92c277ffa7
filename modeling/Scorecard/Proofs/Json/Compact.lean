import Scorecard.Proofs.Json.Numbers
import Scorecard.Proofs.Json.Strings

/-!
The compact text of a value tells the value. Behind a value inside a text stands a comma or a closing
bracket or brace, which no text of a number has in it, so what a value's text is and where it ends are
read off the text in which it stands; and a first character tells what kind of value starts with it.
-/
namespace Scorecard.Json

/-- Values by induction: an array or object has what all values in it have. -/
@[elab_as_elim]
theorem induction {P : Json → Prop} (null : P .null) (bool : ∀ b, P (.bool b)) (number : ∀ n, P (.number n))
    (string : ∀ s, P (.string s)) (array : ∀ items, (∀ v ∈ items, P v) → P (.array items))
    (object : ∀ members, (∀ m ∈ members, P m.2) → P (.object members)) (v : Json) : P v :=
  @Json.rec P (fun items => ∀ v ∈ items, P v) (fun members => ∀ m ∈ members, P m.2) (fun m => P m.2)
    null bool number string array object
    (List.forall_mem_nil _) (fun _ _ hv hitems => List.forall_mem_cons.mpr ⟨hv, hitems⟩)
    (List.forall_mem_nil _) (fun _ _ hm hmembers => List.forall_mem_cons.mpr ⟨hm, hmembers⟩)
    (fun _ _ hv => hv) v

/-! ### First characters -/

/-- The kinds of values. -/
inductive Kind where
  | null
  | bool
  | number
  | string
  | array
  | object
deriving DecidableEq

def kind : Json → Kind
  | .null => .null
  | .bool _ => .bool
  | .number _ => .number
  | .string _ => .string
  | .array _ => .array
  | .object _ => .object

/-- The kind of the values whose texts start with the character. -/
def Kind.ofFirst? (c : Char) : Option Kind :=
  if c = 'n' then some .null
  else if c = 't' ∨ c = 'f' then some .bool
  else if c = '"' then some .string
  else if c = '[' then some .array
  else if c = '{' then some .object
  else if c.isDigit = true ∨ c = '-' then some .number
  else none

theorem exists_cons_chars (v : Json) : ∃ c cs, v.chars = c :: cs ∧ Kind.ofFirst? c = some v.kind := by
  cases v with
  | null => exact ⟨'n', _, rfl, rfl⟩
  | bool b =>
      cases b with
      | true => exact ⟨'t', _, rfl, rfl⟩
      | false => exact ⟨'f', _, rfl, rfl⟩
  | number n =>
      obtain ⟨c, cs, hcs, hc⟩ := n.exists_cons_chars
      refine ⟨c, cs, by rw [chars, hcs], ?_⟩
      have hne {d : Char} (hdigit : d.isDigit = false) (hminus : d ≠ '-') : c ≠ d := by
        rintro rfl
        simp [hdigit, hminus] at hc
      simp [Kind.ofFirst?, hc, hne, kind]
  | string s => exact ⟨'"', _, rfl, rfl⟩
  | array items => exact ⟨'[', _, by rw [chars], rfl⟩
  | object members => exact ⟨'{', _, by rw [chars], rfl⟩

theorem kind_eq_of_chars_append {v w : Json} {rest rest' : List Char} (h : v.chars ++ rest = w.chars ++ rest') :
    v.kind = w.kind := by
  obtain ⟨c, cs, hv, hc⟩ := v.exists_cons_chars
  obtain ⟨d, ds, hw, hd⟩ := w.exists_cons_chars
  rw [hv, hw, List.cons_append, List.cons_append] at h
  obtain ⟨rfl, -⟩ := List.cons.inj h
  exact Option.some.inj (hc.symm.trans hd)

/-! ### Lists of texts -/

/-- What may stand behind a value: nothing, a comma, or a closing bracket or brace. -/
def EndsValue (rest : List Char) : Prop := ∀ c ∈ rest.head?, c = ',' ∨ c = ']' ∨ c = '}'

/-- The text of `a` is no other's, wherever it stands. -/
def Told {α : Type} (text : α → List Char) (a : α) : Prop :=
  ∀ b rest rest', EndsValue rest → EndsValue rest' → text a ++ rest = text b ++ rest' → a = b ∧ rest = rest'

/-- What stands behind an item of a list, `texts` being those of the items to come. -/
def behindItem (close : Char) (rest : List Char) (texts : List (List Char)) : List Char :=
  if texts = [] then close :: rest else ',' :: ([','].intercalate texts ++ close :: rest)

theorem intercalate_cons_append (text : List Char) (texts : List (List Char)) (close : Char) (rest : List Char) :
    [','].intercalate (text :: texts) ++ close :: rest = text ++ behindItem close rest texts := by
  cases texts with
  | nil => simp [behindItem]
  | cons next texts => simp [behindItem, List.intercalate_cons_cons]

section

variable {α : Type} {text : α → List Char} {close : Char}

theorem endsValue_behindItem (hclose : close = ']' ∨ close = '}') (rest : List Char) (texts : List (List Char)) :
    EndsValue (behindItem close rest texts) := by
  unfold behindItem
  split
  · rintro c ⟨⟩
    exact .inr hclose
  · rintro c ⟨⟩
    exact .inl rfl

/-- Texts with commas between them are told up to the closing character, if each of them is and none of
them starts with that character. -/
theorem intercalate_inj (hclose : close = ']' ∨ close = '}') (hstart : ∀ a, ∃ c cs, text a = c :: cs ∧ c ≠ close)
    {as : List α} (h : ∀ a ∈ as, Told text a) {bs : List α} {rest rest' : List Char}
    (heq : [','].intercalate (as.map text) ++ close :: rest = [','].intercalate (bs.map text) ++ close :: rest') :
    as = bs ∧ rest = rest' := by
  have hopen (b : α) (bs : List α) (rest rest' : List Char) :
      close :: rest ≠ [','].intercalate ((b :: bs).map text) ++ close :: rest' := by
    obtain ⟨c, cs, htext, hc⟩ := hstart b
    rw [List.map_cons, intercalate_cons_append, htext]
    intro heq
    exact hc (List.cons.inj heq).1.symm
  have hcomma : close ≠ ',' := by rcases hclose with rfl | rfl <;> decide
  -- If one list ended before the other, the closing character would be a comma or the first of an item.
  induction as generalizing bs with
  | nil =>
      cases bs with
      | nil => exact ⟨rfl, (List.cons.inj heq).2⟩
      | cons b bs => exact absurd heq (hopen b bs rest rest')
  | cons a as ih =>
      cases bs with
      | nil => exact absurd heq.symm (hopen a as rest' rest)
      | cons b bs =>
          obtain ⟨ha, has⟩ := List.forall_mem_cons.mp h
          rw [List.map_cons, List.map_cons, intercalate_cons_append, intercalate_cons_append] at heq
          have hends := endsValue_behindItem hclose rest (as.map text)
          have hends' := endsValue_behindItem hclose rest' (bs.map text)
          obtain ⟨rfl, hbehind⟩ := ha b _ _ hends hends' heq
          cases as with
          | nil =>
              cases bs with
              | nil => exact ⟨rfl, (List.cons.inj hbehind).2⟩
              | cons b' bs => exact absurd (List.cons.inj hbehind).1 hcomma
          | cons a' as =>
              cases bs with
              | nil => exact absurd (List.cons.inj hbehind).1 hcomma.symm
              | cons b' bs =>
                  obtain ⟨hrest, rfl⟩ := ih has (List.cons.inj hbehind).2
                  exact ⟨congrArg _ hrest, rfl⟩

end

/-! ### Values -/

theorem itemChars_eq (items : List Json) : itemChars items = [','].intercalate (items.map chars) := by
  induction items with
  | nil => rfl
  | cons v items ih =>
      cases items with
      | nil => simp [itemChars]
      | cons w items =>
          rw [itemChars, ih]
          simp [List.intercalate_cons_cons]

def memberText (m : String × Json) : List Char := stringChars m.1 ++ ':' :: chars m.2

theorem memberChars_eq (members : List (String × Json)) :
    memberChars members = [','].intercalate (members.map memberText) := by
  induction members with
  | nil => rfl
  | cons m members ih =>
      obtain ⟨k, v⟩ := m
      cases members with
      | nil => simp [memberChars, memberText]
      | cons m members =>
          rw [memberChars, ih]
          simp [memberText, List.intercalate_cons_cons]

/-- A number's text is all that stands in front of what is no character of a number. -/
theorem span_number (n : Number) {rest : List Char} (h : EndsValue rest) :
    (n.chars ++ rest).takeWhile isNumberPart = n.chars ∧ (n.chars ++ rest).dropWhile isNumberPart = rest := by
  refine Text.span_append isNumberPart_of_mem_chars fun c hc => ?_
  rcases h c hc with rfl | rfl | rfl <;> rfl

theorem told_number (n : Number) : Told Number.chars n := by
  intro m rest rest' hrest hrest' h
  obtain ⟨htake, hdrop⟩ := span_number n hrest
  obtain ⟨htake', hdrop'⟩ := span_number m hrest'
  rw [h] at htake hdrop
  exact ⟨Number.chars_injective (htake.symm.trans htake'), hdrop.symm.trans hdrop'⟩

/-- A name with its value is told if the value is. -/
theorem told_member {m : String × Json} (h : Told chars m.2) : Told memberText m := by
  intro m' rest rest' hrest hrest' heq
  simp only [memberText, List.append_assoc, List.cons_append] at heq
  obtain ⟨hname, htail⟩ := stringChars_append_inj heq
  obtain ⟨hvalue, hend⟩ := h m'.2 rest rest' hrest hrest' (List.cons.inj htail).2
  exact ⟨Prod.ext hname hvalue, hend⟩

/-- The text of a value is told from that of any other value. -/
theorem told_chars (v : Json) : Told chars v := by
  induction v using induction with
  | null =>
      intro w rest rest' _ _ h
      cases w with
      | null => exact ⟨rfl, List.append_cancel_left h⟩
      | _ => cases kind_eq_of_chars_append h
  | bool b =>
      intro w rest rest' _ _ h
      cases w with
      | bool b' =>
          cases b <;> cases b'
          · exact ⟨rfl, List.append_cancel_left h⟩
          · cases h
          · cases h
          · exact ⟨rfl, List.append_cancel_left h⟩
      | _ => cases kind_eq_of_chars_append h
  | number n =>
      intro w rest rest' hrest hrest' h
      cases w with
      | number m =>
          obtain ⟨rfl, hend⟩ := told_number n m rest rest' hrest hrest' h
          exact ⟨rfl, hend⟩
      | _ => cases kind_eq_of_chars_append h
  | string s =>
      intro w rest rest' _ _ h
      cases w with
      | string t =>
          obtain ⟨rfl, hend⟩ := stringChars_append_inj h
          exact ⟨rfl, hend⟩
      | _ => cases kind_eq_of_chars_append h
  | array items ih =>
      intro w rest rest' _ _ h
      cases w with
      | array items' =>
          have hstart (v : Json) : ∃ c cs, v.chars = c :: cs ∧ c ≠ ']' := by
            obtain ⟨c, cs, hcs, hc⟩ := v.exists_cons_chars
            refine ⟨c, cs, hcs, ?_⟩
            rintro rfl
            cases hc
          simp only [chars, itemChars_eq, List.cons_append, List.append_assoc, List.cons.injEq, true_and] at h
          obtain ⟨rfl, hend⟩ := intercalate_inj (.inl rfl) hstart ih h
          exact ⟨rfl, hend⟩
      | _ => cases kind_eq_of_chars_append h
  | object members ih =>
      intro w rest rest' _ _ h
      cases w with
      | object members' =>
          have hstart (m : String × Json) : ∃ c cs, memberText m = c :: cs ∧ c ≠ '}' := ⟨'"', _, rfl, by decide⟩
          simp only [chars, memberChars_eq, List.cons_append, List.append_assoc, List.cons.injEq, true_and] at h
          obtain ⟨rfl, hend⟩ := intercalate_inj (.inr rfl) hstart (fun m hm => told_member (ih m hm)) h
          exact ⟨rfl, hend⟩
      | _ => cases kind_eq_of_chars_append h

/-- The compact text of a value tells the value. -/
theorem compact_injective {v w : Json} (h : v.compact = w.compact) : v = w := by
  have htext : v.chars ++ [] = w.chars ++ [] := by
    rw [String.ofList_injective h]
  have hend : EndsValue [] := by simp [EndsValue]
  exact (told_chars v w [] [] hend hend htext).1

end Scorecard.Json
