import Scorecard.Proofs.Expression.Positions

/-!
Places and the words that tell them. The lines and columns of a text are numbers, and a position has them as far as
they go into words, so in a text of 2³² characters or more two tokens may have one position. In any shorter text
the words are the numbers: its tokens stand in strictly increasing positions.
-/
namespace Scorecard.Expression

/-- The place of a character, however far behind the start it is. -/
structure Place where
  line : Nat
  column : Nat

namespace Place

def start : Place := ⟨1, 1⟩

/-- The place behind the character `c` at `p`. -/
def after (p : Place) (c : Char) : Place := if c = '\n' then ⟨p.line + 1, 1⟩ else ⟨p.line, p.column + 1⟩

/-- The place behind the characters that start at `p`. -/
def afterAll (p : Place) (cs : List Char) : Place := cs.foldl after p

/-- What places are ordered by. -/
def key (p : Place) : Nat ×ₗ Nat := toLex (p.line, p.column)

theorem key_lt_key_after (p : Place) (c : Char) : p.key < (p.after c).key := by
  unfold after key
  rw [Prod.Lex.lt_iff]
  split
  · exact .inl (Nat.lt_succ_self _)
  · exact .inr ⟨rfl, Nat.lt_succ_self _⟩

theorem key_le_key_afterAll (p : Place) (cs : List Char) : p.key ≤ (p.afterAll cs).key := by
  induction cs generalizing p with
  | nil => exact le_refl _
  | cons c cs ih => exact (p.key_lt_key_after c).le.trans (ih (p.after c))

theorem afterAll_append (p : Place) (cs ds : List Char) : p.afterAll (cs ++ ds) = (p.afterAll cs).afterAll ds :=
  List.foldl_append

/-! ### Words -/

/-- The words that tell the place. -/
def position (p : Place) : Position := ⟨.ofNat p.line, .ofNat p.column⟩

/-- The words count as the numbers do, round and round. -/
theorem position_after (p : Place) (c : Char) : (p.after c).position = p.position.after c := by
  unfold after Position.after position
  split
  · rw [UInt32.ofNat_add]
    rfl
  · rw [UInt32.ofNat_add]
    rfl

theorem position_afterAll (p : Place) (cs : List Char) : (p.afterAll cs).position = p.position.afterAll cs := by
  induction cs generalizing p with
  | nil => rfl
  | cons c cs ih =>
      have hstep := ih (p.after c)
      rwa [position_after] at hstep

/-- The numbers go into words. -/
structure InRange (p : Place) : Prop where
  line : p.line < 2 ^ 32
  column : p.column < 2 ^ 32

theorem InRange.toNat_position {p : Place} (h : p.InRange) :
    p.position.line.toNat = p.line ∧ p.position.column.toNat = p.column :=
  ⟨UInt32.toNat_ofNat_of_lt' h.line, UInt32.toNat_ofNat_of_lt' h.column⟩

theorem InRange.key_position {p : Place} (h : p.InRange) : p.position.key = p.key := by
  rw [Position.key, h.toNat_position.1, h.toNat_position.2]
  rfl

/-- The number of characters from the start is not less than this. -/
def extent (p : Place) : Nat := max p.line p.column

theorem inRange_of_extent_lt {p : Place} (h : p.extent < 2 ^ 32) : p.InRange :=
  ⟨(le_max_left _ _).trans_lt h, (le_max_right _ _).trans_lt h⟩

theorem extent_after_le (p : Place) (c : Char) : (p.after c).extent ≤ p.extent + 1 := by
  unfold after extent
  split <;> dsimp only <;> omega

theorem extent_afterAll_le (p : Place) (cs : List Char) : (p.afterAll cs).extent ≤ p.extent + cs.length := by
  induction cs generalizing p with
  | nil => exact le_refl _
  | cons c cs ih =>
      have hstep := p.extent_after_le c
      have hrest : (p.afterAll (c :: cs)).extent ≤ (p.after c).extent + cs.length := ih (p.after c)
      rw [List.length_cons]
      omega

end Place

/-! ### Tokens -/

/-- A symbol and the place of its piece. -/
abbrev Placed := Symbol × Place

def Placed.token (s : Placed) : Token := ⟨s.1, s.2.position⟩

/-- The symbols of a text that starts at `p`, with their places. -/
def placedFrom (p : Place) : List Char → List Placed
  | [] => []
  | c :: cs =>
    if Text.isBlank c then placedFrom (p.after c) cs
    else
      (symbolOf c (splitPiece c cs).1, p) ::
        placedFrom (p.afterAll (c :: (splitPiece c cs).1)) (splitPiece c cs).2
termination_by cs => cs.length
decreasing_by
  · simp
  · exact Nat.lt_succ_of_le (length_splitPiece_le c cs)

/-- The tokens of a text are its symbols with the words for their places. -/
theorem tokensFrom_position (p : Place) (cs : List Char) :
    tokensFrom p.position cs = (placedFrom p cs).map Placed.token := by
  induction p, cs using placedFrom.induct with
  | case1 p => simp only [tokensFrom, placedFrom, List.map_nil]
  | case2 p c cs hblank ih =>
      rw [Place.position_after] at ih
      rw [tokensFrom, placedFrom, if_pos hblank, if_pos hblank, ih]
  | case3 p c cs hblank ih =>
      rw [Place.position_afterAll] at ih
      rw [tokensFrom, placedFrom, if_neg hblank, if_neg hblank, ih]
      rfl

theorem tokens_eq_map_placedFrom (text : String) : tokens text = (placedFrom .start text.toList).map Placed.token :=
  tokensFrom_position .start text.toList

section

variable {p : Place} {cs : List Char} {s : Placed}

theorem key_le_of_mem_placedFrom (h : s ∈ placedFrom p cs) : p.key ≤ s.2.key := by
  induction p, cs using placedFrom.induct with
  | case1 p => simp [placedFrom] at h
  | case2 p c cs hblank ih =>
      rw [placedFrom, if_pos hblank] at h
      exact (p.key_lt_key_after c).le.trans (ih h)
  | case3 p c cs hblank ih =>
      rw [placedFrom, if_neg hblank, List.mem_cons] at h
      rcases h with rfl | h
      · exact le_refl _
      · exact (p.key_le_key_afterAll _).trans (ih h)

/-- A symbol stands in front of the end of its text. -/
theorem key_lt_of_mem_placedFrom (h : s ∈ placedFrom p cs) : s.2.key < (p.afterAll cs).key := by
  induction p, cs using placedFrom.induct with
  | case1 p => simp [placedFrom] at h
  | case2 p c cs hblank ih =>
      rw [placedFrom, if_pos hblank] at h
      exact ih h
  | case3 p c cs hblank ih =>
      rw [placedFrom, if_neg hblank, List.mem_cons] at h
      rcases h with rfl | h
      · exact (p.key_lt_key_after c).trans_le ((p.after c).key_le_key_afterAll cs)
      · rw [← splitPiece_append c cs, ← List.cons_append, Place.afterAll_append]
        exact ih h

/-- The piece of a symbol has a character, so its place does not lie as far as the end of the text. -/
theorem extent_lt_of_mem_placedFrom (h : s ∈ placedFrom p cs) : s.2.extent < p.extent + cs.length := by
  induction p, cs using placedFrom.induct with
  | case1 p => simp [placedFrom] at h
  | case2 p c cs hblank ih =>
      rw [placedFrom, if_pos hblank] at h
      have hstep := p.extent_after_le c
      have hrest := ih h
      rw [List.length_cons]
      omega
  | case3 p c cs hblank ih =>
      rw [placedFrom, if_neg hblank, List.mem_cons] at h
      rcases h with rfl | h
      · simp
      · have hpiece := p.extent_afterAll_le (c :: (splitPiece c cs).1)
        have hrest := ih h
        have hlength := congrArg List.length (splitPiece_append c cs)
        rw [List.length_append] at hlength
        rw [List.length_cons] at hpiece ⊢
        omega

theorem pairwise_placedFrom (p : Place) (cs : List Char) :
    (placedFrom p cs).Pairwise fun s t => s.2.key < t.2.key := by
  induction p, cs using placedFrom.induct with
  | case1 p =>
      rw [placedFrom]
      exact .nil
  | case2 p c cs hblank ih =>
      rw [placedFrom, if_pos hblank]
      exact ih
  | case3 p c cs hblank ih =>
      rw [placedFrom, if_neg hblank]
      refine List.pairwise_cons.mpr ⟨fun t ht => ?_, ih⟩
      calc p.key < (p.after c).key := p.key_lt_key_after c
        _ ≤ ((p.after c).afterAll (splitPiece c cs).1).key := Place.key_le_key_afterAll _ _
        _ ≤ t.2.key := key_le_of_mem_placedFrom ht

/-- Behind a text of this length, the places in what follows go into words. -/
theorem inRange_of_mem_placedFrom {before : List Char} (hlength : (before ++ cs).length < 2 ^ 32)
    (h : s ∈ placedFrom (Place.start.afterAll before) cs) : s.2.InRange := by
  have hbefore := Place.start.extent_afterAll_le before
  have hplace := extent_lt_of_mem_placedFrom h
  have hstart : Place.start.extent = 1 := rfl
  rw [List.length_append] at hlength
  exact Place.inRange_of_extent_lt (by omega)

end

/-- The tokens of a text of less than 2³² characters stand one behind the other. -/
theorem pairwise_tokens {text : String} (h : text.length < 2 ^ 32) :
    (tokens text).Pairwise fun s t => s.position.key < t.position.key := by
  have hrange {s : Placed} (hs : s ∈ placedFrom .start text.toList) : s.token.position.key = s.2.key := by
    have hlength : ([] ++ text.toList).length < 2 ^ 32 := by rwa [List.nil_append, String.length_toList]
    exact (inRange_of_mem_placedFrom hlength hs).key_position
  rw [tokens_eq_map_placedFrom, List.pairwise_map]
  refine (pairwise_placedFrom .start text.toList).imp_of_mem fun hs ht hlt => ?_
  rwa [hrange hs, hrange ht]

end Scorecard.Expression
