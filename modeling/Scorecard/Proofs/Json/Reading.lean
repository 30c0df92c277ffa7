import Scorecard.Json.Fields
import Scorecard.Proofs.Table

/-!
Reading back what was written. Each kind of thing that is stored has a writer and a reader, and the reader
takes back from the document of a value what the writer made the value of. Options, lists and tables are
taken back if what is in them is, and the fields of a record that has no name twice are those written.
-/
namespace Scorecard.Json

/-- The reader takes back what the writer has made of `a`. -/
def ReadsBack {α : Type} (write : α → Json) (read : Document → Option α) (a : α) : Prop :=
  read (write a).toDocument = some a

theorem readsBack_string (s : String) : ReadsBack .string (·.string?) s := rfl

theorem readsBack_bool (b : Bool) : ReadsBack .bool (·.bool?) b := rfl

theorem readsBack_float {x : Float} (h : x.isFinite = true) : ReadsBack ofFloat (·.float?) x := by
  rw [ReadsBack, ofFloat, dif_pos h]
  rfl

theorem natBelow?_integer {n limit : Nat} {fits : FitsWord n} (h : n < limit) :
    (Document.number (.integer n fits)).natBelow? limit = some n := by
  have hrange : 0 ≤ (n : Int) ∧ (n : Int) < limit := by omega
  rw [Document.natBelow?, if_pos hrange, Int.toNat_natCast]

theorem readsBack_uint32 (n : UInt32) : ReadsBack ofUInt32 (·.uint32?) n := by
  rw [ReadsBack, ofUInt32, toDocument, Document.uint32?, natBelow?_integer n.toNat_lt, Option.map_some, UInt32.ofNat_toNat]

theorem readsBack_uint64 (n : UInt64) : ReadsBack ofUInt64 (·.uint64?) n := by
  rw [ReadsBack, ofUInt64, toDocument, Document.uint64?, natBelow?_integer n.toNat_lt, Option.map_some, UInt64.ofNat_toNat]

/-- Things that are each read as they should be are read one by one. -/
theorem mapM_map_of_forall {α β δ : Type} {write : α → δ} {read : δ → Option β} {value : α → β} {l : List α}
    (h : ∀ a ∈ l, read (write a) = some (value a)) : (l.map write).mapM read = some (l.map value) := by
  induction l with
  | nil => rfl
  | cons a l ih =>
      obtain ⟨ha, hl⟩ := List.forall_mem_cons.mp h
      rw [List.map_cons, List.mapM_cons, ha, ih hl]
      rfl

section

variable {α : Type} {write : α → Json} {read : Document → Option α}

/-- What is there is taken back, as long as the reader does not take null for something. -/
theorem readsBack_option (hnull : read .null = none) {o : Option α} (h : ∀ a ∈ o, ReadsBack write read a) :
    ReadsBack (ofOption write) (·.option? read) o := by
  cases o with
  | none => rfl
  | some a =>
      have ha : read (write a).toDocument = some a := h a rfl
      show (write a).toDocument.option? read = some (some a)
      generalize (write a).toDocument = d at ha
      cases d with
      | null =>
          rw [hnull] at ha
          cases ha
      | _ => exact congrArg (Option.map some) ha

theorem itemDocuments_eq (vs : List Json) : itemDocuments vs = vs.map toDocument := by
  induction vs with
  | nil => rfl
  | cons v vs ih => rw [itemDocuments, ih, List.map_cons]

theorem memberDocuments_eq (ms : List (String × Json)) :
    memberDocuments ms = ms.map fun m => (m.1, m.2.toDocument) := by
  induction ms with
  | nil => rfl
  | cons m ms ih =>
      obtain ⟨k, v⟩ := m
      rw [memberDocuments, ih, List.map_cons]

theorem toDocument_ofList (l : List α) : (ofList write l).toDocument = .array (l.map fun a => (write a).toDocument) := by
  rw [ofList, toDocument, itemDocuments_eq, List.map_map]
  rfl

theorem readsBack_list {l : List α} (h : ∀ a ∈ l, ReadsBack write read a) :
    ReadsBack (ofList write) (·.list? read) l := by
  have hitems : (l.map fun a => (write a).toDocument).mapM read = some (l.map id) := mapM_map_of_forall h
  rw [ReadsBack, toDocument_ofList, Document.list?, hitems, List.map_id]

/-- The entries of a table are read in order, and they make the table again. -/
theorem readsBack_table {t : Table α} (h : ∀ e ∈ t.entries, ReadsBack write read e.2) :
    ReadsBack (ofTable write) (·.table? read) t := by
  have hentries : (t.entries.map fun e => (e.1, (write e.2).toDocument)).mapM (fun m => (read m.2).map (m.1, ·)) =
      some (t.entries.map id) := by
    refine mapM_map_of_forall fun e he => ?_
    have hvalue : read (write e.2).toDocument = some e.2 := h e he
    rw [hvalue, Option.map_some, id]
  rw [ReadsBack, ofTable, toDocument, memberDocuments_eq, List.map_map, Document.table?]
  refine (congrArg (Option.map Table.ofList) hentries).trans ?_
  rw [Option.map_some, List.map_id, Table.ofList_entries]

end

/-! ### What was read -/

theorem string?_eq_some {d : Document} {s : String} (h : d.string? = some s) : d = .string s := by
  cases d with
  | string s' => rw [Option.some.inj h]
  | _ => cases h

theorem float?_eq_some {d : Document} {x : Float} (h : d.float? = some x) :
    ∃ n : Number, d = .number n ∧ x = n.toFloat := by
  cases d with
  | number n => exact ⟨n, rfl, (Option.some.inj h).symm⟩
  | _ => cases h

/-- If what a reader takes has a form, so has each of the things that it takes one by one. -/
theorem exists_of_mapM {α β δ : Type} {read : δ → Option α} {make : β → δ} {value : β → α}
    (hread : ∀ d a, read d = some a → ∃ b, d = make b ∧ a = value b) {ds : List δ} {as : List α}
    (h : ds.mapM read = some as) : ∃ bs : List β, ds = bs.map make ∧ as = bs.map value := by
  induction ds generalizing as with
  | nil =>
      obtain rfl := Option.some.inj h
      exact ⟨[], rfl, rfl⟩
  | cons d ds ih =>
      rw [List.mapM_cons] at h
      obtain ⟨a, ha, h⟩ := Option.bind_eq_some_iff.mp h
      obtain ⟨as, has, h⟩ := Option.bind_eq_some_iff.mp h
      obtain ⟨b, rfl, rfl⟩ := hread d a ha
      obtain ⟨bs, rfl, rfl⟩ := ih has
      exact ⟨b :: bs, rfl, (Option.some.inj h).symm⟩

section

variable {α β : Type} {read : Document → Option α} {make : β → Document} {value : β → α}

theorem exists_of_list? (hread : ∀ d a, read d = some a → ∃ b, d = make b ∧ a = value b) {d : Document} {as : List α}
    (h : d.list? read = some as) : ∃ bs : List β, d = .array (bs.map make) ∧ as = bs.map value := by
  cases d with
  | array ds =>
      obtain ⟨bs, rfl, rfl⟩ := exists_of_mapM hread h
      exact ⟨bs, rfl, rfl⟩
  | _ => cases h

theorem exists_of_table? (hread : ∀ d a, read d = some a → ∃ b, d = make b ∧ a = value b) {d : Document} {t : Table α}
    (h : d.table? read = some t) :
    ∃ bs : List (String × β), d = .object (bs.map fun e => (e.1, make e.2)) ∧
      t = Table.ofList (bs.map fun e => (e.1, value e.2)) := by
  have hmember : ∀ (m : String × Document) (e : String × α), (read m.2).map (m.1, ·) = some e →
      ∃ b : String × β, m = (b.1, make b.2) ∧ e = (b.1, value b.2) := by
    rintro ⟨k, d⟩ e he
    obtain ⟨a, ha, rfl⟩ := Option.map_eq_some_iff.mp he
    obtain ⟨b, rfl, rfl⟩ := hread d a ha
    exact ⟨(k, b), rfl, rfl⟩
  cases d with
  | object members =>
      obtain ⟨entries, hentries, rfl⟩ := Option.map_eq_some_iff.mp h
      obtain ⟨bs, rfl, rfl⟩ := exists_of_mapM hmember hentries
      exact ⟨bs, rfl, rfl⟩
  | _ => cases h

end

/-! ### Fields -/

theorem occursOnce_of_nodup {members : Fields} (h : (members.map (·.1)).Nodup) (name : String) :
    occursOnce members name = true := by
  have hcount : members.countP (·.1 == name) = (members.map (·.1)).count name := by
    rw [List.count, List.countP_map]
    rfl
  rw [occursOnce, ← List.countP_eq_length_filter, hcount, decide_eq_true_eq]
  exact List.nodup_iff_count_le_one.mp h name

/-- A record that has no name twice has the fields that are written. -/
theorem fields?_of_nodup {members : Fields} (h : (members.map (·.1)).Nodup) (names : List String) (least : Nat) :
    (Document.object members).fields? names least = some members := by
  have hall : names.all (occursOnce members) = true := List.all_eq_true.mpr fun name _ => occursOnce_of_nodup h name
  rw [Document.fields?, if_pos hall]

theorem fields?_toDocument {members : List (String × Json)} (h : (members.map (·.1)).Nodup) (names : List String)
    (least : Nat) : (Json.object members).toDocument.fields? names least = some (memberDocuments members) := by
  refine fields?_of_nodup ?_ names least
  rwa [memberDocuments_eq, List.map_map]

/-- Fields are given by name or by place. -/
theorem cases_of_fields? {d : Document} {names : List String} {least : Nat} {fields : Fields}
    (h : d.fields? names least = some fields) :
    d = .object fields ∨
      ∃ items, d = .array items ∧ least ≤ items.length ∧ items.length ≤ names.length ∧ fields = names.zip items := by
  cases d with
  | object members =>
      rw [Document.fields?] at h
      split at h
      · exact .inl (congrArg Document.object (Option.some.inj h))
      · cases h
  | array items =>
      rw [Document.fields?] at h
      split at h
      · next hlength => exact .inr ⟨items, rfl, hlength.1, hlength.2, (Option.some.inj h).symm⟩
      · cases h
  | _ => cases h

end Scorecard.Json
