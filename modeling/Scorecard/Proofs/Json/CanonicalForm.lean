import Scorecard.Proofs.Json.Compact
import Scorecard.Proofs.Json.Parsing
import Scorecard.Proofs.Json.Spelling
import Scorecard.Proofs.Text.ByteOrder

/-!
The canonical text is a normal form. A change at one place of a value reaches the canonical form only if it
changes the canonical form of what stands at this place; the order of an object's members does not, and neither does
the spelling of a whole number below the limit. In the canonical form the names of every object stand in the order of
their bytes, and it is its own canonical form; so it comes back from its text, provided that its numbers do and that
it is not nested too deep to be read.
-/
namespace Scorecard.Json

/-! ### Changes at places -/

/-- One value comes from another by changes of a kind at places inside it. -/
inductive Changed (Change : Json → Json → Prop) : Json → Json → Prop
  | here {v w : Json} (h : Change v w) : Changed Change v w
  | item {before after : List Json} {v w : Json} (h : Changed Change v w) :
      Changed Change (.array (before ++ v :: after)) (.array (before ++ w :: after))
  | member {before after : List (String × Json)} {name : String} {v w : Json} (h : Changed Change v w) :
      Changed Change (.object (before ++ (name, v) :: after)) (.object (before ++ (name, w) :: after))
  | refl (v : Json) : Changed Change v v
  | trans {u v w : Json} (h : Changed Change u v) (h' : Changed Change v w) : Changed Change u w

/-- The canonical members are made of the names and the canonical values. -/
theorem canonicalMembers_eq (members : List (String × Json)) :
    canonicalMembers members =
      (members.map fun m => (m.1, m.2.canonical)).foldr (fun m canonical => insertMember m.1 m.2 canonical) [] := by
  induction members with
  | nil => rfl
  | cons m members ih => rw [canonicalMembers, ih, List.map_cons, List.foldr_cons]

/-- A change that keeps the canonical form keeps it at every place. -/
theorem Changed.canonical_eq {Change : Json → Json → Prop} (hkeep : ∀ v w, Change v w → v.canonical = w.canonical)
    {v w : Json} (h : Changed Change v w) : v.canonical = w.canonical := by
  induction h with
  | here h => exact hkeep _ _ h
  | item _ ih =>
      rw [canonical, canonical, canonicalItems_eq, canonicalItems_eq, List.map_append, List.map_append, List.map_cons,
        List.map_cons, ih]
  | member _ ih =>
      rw [canonical, canonical, canonicalMembers_eq, canonicalMembers_eq, List.map_append, List.map_append,
        List.map_cons, List.map_cons, ih]
  | refl v => rfl
  | trans _ _ ih ih' => exact ih.trans ih'

/-! ### Reordering -/

theorem ordered_insertMember {members : List (String × Json)} (h : Ordered members) (k : String) (v : Json) :
    Ordered (insertMember k v members) := by
  unfold insertMember
  split
  · exact h
  · exact Ordered.insertEntry h k v

theorem ordered_canonicalMembers (members : List (String × Json)) : Ordered (canonicalMembers members) := by
  induction members with
  | nil => exact List.Pairwise.nil
  | cons m members ih =>
      rw [canonicalMembers]
      exact ordered_insertMember ih m.1 m.2.canonical

/-- The members of an object in another order, where no name is given twice. -/
inductive Reordered : Json → Json → Prop
  | intro {members members' : List (String × Json)} (hperm : members.Perm members')
      (hnames : (members.map (·.1)).Nodup) : Reordered (.object members) (.object members')

/-- Lists in order that hold the same are equal. -/
theorem eq_of_ordered {α : Type} {l l' : List (String × α)} (hl : Ordered l) (hl' : Ordered l')
    (h : ∀ k, l.lookup k = l'.lookup k) : l = l' := by
  have htable : (⟨l, hl⟩ : Table α) = ⟨l', hl'⟩ := Table.ext_get? h
  exact congrArg Table.entries htable

theorem Reordered.canonical_eq {v w : Json} (h : Reordered v w) : v.canonical = w.canonical := by
  cases h with
  | @intro members members' hperm hnames =>
      have hnames' : (members'.map (·.1)).Nodup := (hperm.map _).nodup_iff.mp hnames
      have htable : Table.ofList members = Table.ofList members' := by
        refine Table.ext_get? fun k => Option.ext fun v => ?_
        rw [Table.get?_ofList_eq_some_iff hnames, Table.get?_ofList_eq_some_iff hnames', hperm.mem_iff]
      rw [canonical, canonical]
      refine congrArg object (eq_of_ordered (ordered_canonicalMembers _) (ordered_canonicalMembers _) fun k => ?_)
      rw [lookup_canonicalMembers, lookup_canonicalMembers, ← Table.get?_ofList, ← Table.get?_ofList, htable]

/-! ### Respelling -/

/-- Two numbers that are one whole number below the limit. -/
inductive SameWhole : Json → Json → Prop
  | intro {n m : Number} {k : Int} (hn : n.value = k) (hm : m.value = k) (hk : k.natAbs < wholeLimit) :
      SameWhole (.number n) (.number m)

theorem SameWhole.canonical_eq {v w : Json} (h : SameWhole v w) : v.canonical = w.canonical := by
  cases h with
  | intro hn hm hk =>
      obtain ⟨fits, hn'⟩ := Number.canonical_of_whole hn hk
      obtain ⟨_, hm'⟩ := Number.canonical_of_whole hm hk
      rw [canonical, canonical, hn', hm']

/-! ### The form itself -/

/-- The names of every object stand in increasing order of their bytes. -/
inductive NamesInOrder : Json → Prop
  | null : NamesInOrder .null
  | bool (b : Bool) : NamesInOrder (.bool b)
  | number (n : Number) : NamesInOrder (.number n)
  | string (s : String) : NamesInOrder (.string s)
  | array {items : List Json} (h : ∀ v ∈ items, NamesInOrder v) : NamesInOrder (.array items)
  | object {members : List (String × Json)} (hnames : (members.map fun m => Text.bytes m.1).Pairwise (· < ·))
      (h : ∀ m ∈ members, NamesInOrder m.2) : NamesInOrder (.object members)

/-- Whatever is a member of the canonical form is the canonical value of a member. -/
theorem exists_of_mem_canonicalMembers {members : List (String × Json)} {m : String × Json}
    (h : m ∈ canonicalMembers members) : ∃ v, (m.1, v) ∈ members ∧ m.2 = v.canonical := by
  have htable : (⟨canonicalMembers members, ordered_canonicalMembers members⟩ : Table Json).get? m.1 = some m.2 :=
    (Table.mem_entries_iff _ _ _).mp h
  have hlookup : (members.reverse.lookup m.1).map canonical = some m.2 :=
    (lookup_canonicalMembers members m.1).symm.trans htable
  obtain ⟨v, hv, hcanonical⟩ := Option.map_eq_some_iff.mp hlookup
  obtain ⟨before, after, hreverse, -⟩ := List.lookup_eq_some_iff.mp hv
  have hmem : (m.1, v) ∈ members.reverse := hreverse ▸ List.mem_append_right _ List.mem_cons_self
  exact ⟨v, List.mem_reverse.mp hmem, hcanonical.symm⟩

theorem namesInOrder_canonical (v : Json) : NamesInOrder v.canonical := by
  induction v using induction with
  | null => exact .null
  | bool b => exact .bool b
  | number n => exact .number n.canonical
  | string s => exact .string s
  | array items ih =>
      rw [canonical, canonicalItems_eq]
      exact .array (List.forall_mem_map.mpr ih)
  | object members ih =>
      rw [canonical]
      refine .object ?_ fun m hm => ?_
      · exact List.pairwise_map.mpr ((ordered_canonicalMembers members).imp Text.bytes_lt_of_lt)
      · obtain ⟨v, hv, hcanonical⟩ := exists_of_mem_canonicalMembers hm
        rw [hcanonical]
        exact ih _ hv

theorem canonical_canonical (v : Json) : v.canonical.canonical = v.canonical := by
  induction v using induction with
  | null | bool b | string s => rfl
  | number n => rw [canonical, canonical, Number.canonical_canonical]
  | array items ih =>
      rw [canonical, canonical, canonicalItems_eq, canonicalItems_eq, List.map_map]
      exact congrArg array (List.map_congr_left ih)
  | object members ih =>
      have hvalues : ∀ m ∈ canonicalMembers members, (m.1, m.2.canonical) = m := by
        intro m hm
        obtain ⟨v, hv, hcanonical⟩ := exists_of_mem_canonicalMembers hm
        rw [hcanonical, ih _ hv, ← hcanonical]
      rw [canonical, canonical, canonicalMembers_of_ordered (ordered_canonicalMembers members)]
      exact congrArg object ((List.map_congr_left hvalues).trans (List.map_id _))

/-! ### The text -/

theorem Number.Reproduced.canonical {n : Number} (h : n.Reproduced) : n.canonical.Reproduced := by
  cases n with
  | integer m hm => exact h
  | float x hx =>
      rw [Number.canonical]
      split
      · exact reproduced_integer _
      · exact h

/-- What can be read back can be read back in canonical form. -/
theorem Legible.canonical {height : Nat} {v : Json} (h : Legible height v) : Legible height v.canonical := by
  induction h with
  | null => exact .null
  | bool b => exact .bool b
  | string s => exact .string s
  | number h => exact .number h.canonical
  | array _ ih =>
      rw [Json.canonical, canonicalItems_eq]
      exact .array (List.forall_mem_map.mpr ih)
  | object _ ih =>
      rw [Json.canonical]
      refine .object fun m hm => ?_
      obtain ⟨v, hv, hcanonical⟩ := exists_of_mem_canonicalMembers hm
      rw [hcanonical]
      exact ih _ hv

/-- The value that a text says, if it says one. -/
def ofText? (text : String) : Option Json := (parse? text).bind (·.value?)

theorem ReadAs.ofText? {v : Json} {text : List Char} (h : ReadAs v.toDocument maxDepth text) :
    Json.ofText? (String.ofList text) = some v := by
  rw [Json.ofText?, h.parse?, Option.bind_some, value?_toDocument]

/-- The canonical text is read as the canonical form. -/
theorem Legible.ofText?_canonicalText {v : Json} (h : Legible maxDepth v) :
    ofText? v.canonicalText = some v.canonical :=
  h.canonical.readAs_chars.ofText?

/-! ### Other spellings in a text -/

/-- The text is that of the value but for whole numbers below the limit, for each of which any literal may stand that
is read as this number. -/
inductive Written : (height : Nat) → Json → List Char → Prop
  | same {height : Nat} {v : Json} (h : Legible height v) : Written height v v.chars
  | whole {height : Nat} {n : Number} {k : Int} {l : Literal} {cs : List Char} (hn : n.value = k)
      (hk : k.natAbs < wholeLimit) (hliteral : parseLiteral? cs = some (l, [])) (hvalue : l.value = k)
      (hexact : l.Exact) : Written height (.number n) cs
  | array {height : Nat} {items : List (Json × List Char)} (h : ∀ i ∈ items, Written height i.1 i.2) :
      Written (height + 1) (.array (items.map Prod.fst)) ('[' :: ([','].intercalate (items.map Prod.snd) ++ [']']))
  | object {height : Nat} {members : List (String × Json × List Char)} (h : ∀ m ∈ members, Written height m.2.1 m.2.2) :
      Written (height + 1) (.object (members.map fun m => (m.1, m.2.1)))
        ('{' :: ([','].intercalate (members.map fun m => stringChars m.1 ++ ':' :: m.2.2) ++ ['}']))

/-- An exact literal is read as a number in place of the whole number that it spells. -/
theorem exists_number_of_exact {l : Literal} {n : Number} {k : Int} (hn : n.value = k) (hk : k.natAbs < wholeLimit)
    (hvalue : l.value = k) (hexact : l.Exact) : ∃ m, numberDocument l = .number m ∧ m.canonical = n.canonical := by
  obtain ⟨m, hnumber, hm⟩ := hexact
  have hsame : SameWhole (.number n) (.number m) := .intro hn (hm.trans hvalue) hk
  refine ⟨m, ?_, (number.inj hsame.canonical_eq).symm⟩
  rw [numberDocument, hnumber]

instance : Nonempty Json := ⟨.null⟩

/-- What is read has the canonical form of the value. -/
theorem Written.exists_readAs {height : Nat} {v : Json} {text : List Char} (h : Written height v text) :
    ∃ w : Json, ReadAs w.toDocument height text ∧ w.canonical = v.canonical := by
  induction h with
  | same h => exact ⟨_, h.readAs_chars, rfl⟩
  | @whole height n k l cs hn hk hliteral hvalue hexact =>
      obtain ⟨m, hdocument, hcanonical⟩ := exists_number_of_exact hn hk hvalue hexact
      refine ⟨.number m, ?_, congrArg number hcanonical⟩
      rw [toDocument, ← hdocument]
      exact readAs_literal height hliteral
  | @array height items _ ih =>
      choose! w hread hcanonical using ih
      have harray := readAs_array hread blank_nil
      rw [List.append_nil] at harray
      refine ⟨.array (items.map w), ?_, ?_⟩
      · rwa [toDocument, itemDocuments_eq, List.map_map]
      · rw [canonical, canonical, canonicalItems_eq, canonicalItems_eq, List.map_map, List.map_map]
        exact congrArg Json.array (List.map_congr_left hcanonical)
  | @object height members _ ih =>
      choose! w hread hcanonical using ih
      have hobject := readAs_object blank_nil Prod.fst hread blank_nil
      rw [List.append_nil] at hobject
      refine ⟨.object (members.map fun m => (m.1, w m)), ?_, ?_⟩
      · rwa [toDocument, memberDocuments_eq, List.map_map]
      · rw [canonical, canonical, canonicalMembers_eq, canonicalMembers_eq, List.map_map, List.map_map]
        refine congrArg Json.object (congrArg (List.foldr _ _) (List.map_congr_left fun m hm => ?_))
        exact Prod.ext rfl (hcanonical m hm)

/-- A literal of a whole number below the limit has the integer for its canonical text if and only if it is read
exactly. -/
theorem exact_iff_canonicalText {cs : List Char} {l : Literal} {k : Int} (hliteral : parseLiteral? cs = some (l, []))
    (hvalue : l.value = k) (hk : k.natAbs < wholeLimit) :
    l.Exact ↔ ∃ v, ofText? (String.ofList cs) = some v ∧ v.canonicalText = String.ofList (integerChars k) := by
  have hread : ofText? (String.ofList cs) = (numberDocument l).value? := by
    rw [ofText?, (readAs_literal maxDepth hliteral).parse?, Option.bind_some]
  rw [hread]
  constructor
  · rintro ⟨n, hnumber, hn⟩
    obtain ⟨fits, hcanonical⟩ := Number.canonical_of_whole (hn.trans hvalue) hk
    refine ⟨.number n, ?_, ?_⟩
    · rw [numberDocument, hnumber]
      rfl
    · rw [canonicalText, canonical, hcanonical]
      rfl
  · rintro ⟨v, hv, htext⟩
    cases hnumber : l.number? with
    | none =>
        rw [numberDocument, hnumber] at hv
        cases hv
    | some n =>
        rw [numberDocument, hnumber] at hv
        obtain rfl := Option.some.inj hv
        have fits : FitsWord k := by
          have hlimit : wholeLimit = 9000000000000000 := rfl
          unfold FitsWord
          omega
        have hinteger : (Json.number n).canonical = .number (.integer k fits) := compact_injective htext
        rw [canonical] at hinteger
        refine ⟨n, hnumber, ?_⟩
        rw [← n.value_canonical, number.inj hinteger, hvalue]
        rfl

/-- The canonical text of a value stands for the value in all the ways in which it can be written. -/
structure IsCanonical (v : Json) : Prop where
  /-- Its own canonical text is that text again, provided that it can be read. -/
  again : Legible maxDepth v → ∃ w, ofText? v.canonicalText = some w ∧ w.canonicalText = v.canonicalText
  ordered : ∃ w, v.canonicalText = w.compact ∧ NamesInOrder w
  reordered : ∀ w, Changed Reordered v w → w.canonicalText = v.canonicalText
  respelled : ∀ w, Changed SameWhole v w → w.canonicalText = v.canonicalText
  rewritten : ∀ text, Written maxDepth v text →
    ∃ w, ofText? (String.ofList text) = some w ∧ w.canonicalText = v.canonicalText

/-- A literal of a whole number below the limit has the integer for its canonical text just if it is read exactly, as
all of moderate size are. -/
structure Literal.IsCanonical (cs : List Char) (l : Literal) (k : Int) : Prop where
  exact_iff : l.Exact ↔ ∃ v, ofText? (String.ofList cs) = some v ∧ v.canonicalText = String.ofList (integerChars k)
  exact_of_moderate : l.Moderate → l.Exact

theorem canonicalText_isCanonical :
    (∀ v, IsCanonical v) ∧ ∀ cs l (k : Int), parseLiteral? cs = some (l, []) → l.value = k → k.natAbs < wholeLimit →
      Literal.IsCanonical cs l k := by
  refine ⟨fun v => ?_, fun cs l k hliteral hvalue hk => ?_⟩
  · have hkeep {w : Json} (h : v.canonical = w.canonical) : w.canonicalText = v.canonicalText :=
      (congrArg compact h).symm
    exact
      { again := fun h => ⟨v.canonical, h.ofText?_canonicalText, hkeep (canonical_canonical v).symm⟩
        ordered := ⟨v.canonical, rfl, namesInOrder_canonical v⟩
        reordered := fun w h => hkeep (h.canonical_eq fun _ _ => Reordered.canonical_eq)
        respelled := fun w h => hkeep (h.canonical_eq fun _ _ => SameWhole.canonical_eq)
        rewritten := fun text h => by
          obtain ⟨w, hread, hcanonical⟩ := h.exists_readAs
          exact ⟨w, hread.ofText?, hkeep hcanonical.symm⟩ }
  · exact
      { exact_iff := exact_iff_canonicalText hliteral hvalue hk
        exact_of_moderate := fun h => h.exact hvalue hk }

/-- Other spaces, another order and other spellings. -/
example :
    (ofText? "\x7b\"b\": 1e2, \"a\": [-0, 5.0, 0.5]\x7d").map canonicalText =
      some "\x7b\"a\":[0,5,0.5],\"b\":100\x7d" := by decide +kernel

/-- A whole number with sixteen digits and a point is read as its neighbour. -/
theorem not_same_text_of_sixteen_digits :
    ∃ l l' : Literal, parseLiteral? "8999999999999999".toList = some (l, []) ∧
      parseLiteral? "8999999999999999.0".toList = some (l', []) ∧
      l.value = (8999999999999999 : Int) ∧ l'.value = (8999999999999999 : Int) ∧ 8999999999999999 < wholeLimit ∧
      (ofText? "8999999999999999").map canonicalText = some "8999999999999999" ∧
      (ofText? "8999999999999999.0").map canonicalText = some "8999999999999998" := by
  have hdigits : Literal.digits ⟨false, "8999999999999999".toList, [], none⟩ = 8999999999999999 := by decide +kernel
  have hdigits' : Literal.digits ⟨false, "8999999999999999".toList, ['0'], none⟩ = 89999999999999990 := by
    decide +kernel
  refine ⟨⟨false, "8999999999999999".toList, [], none⟩, ⟨false, "8999999999999999".toList, ['0'], none⟩,
    by decide +kernel, by decide +kernel, ?_, ?_, by decide, by decide +kernel, by decide +kernel⟩
  · norm_num [Literal.value, hdigits, Literal.place, Literal.writtenExponent]
  · norm_num [Literal.value, hdigits', Literal.place, Literal.writtenExponent]

end Scorecard.Json
