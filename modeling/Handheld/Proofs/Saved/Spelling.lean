/-
# Spellings of a document

Each value is written as one document, but more documents are read.  A structure may have its
fields in any order and others among them, or come as the list of its parts; a plain alternative
may come as a record of it alone that holds nothing.  A field of the structure may not be given
twice, while it does not matter how often another one is.  `Spells` says which documents are
spellings of one that was written, without regard to how they are read.

* `field?_eq_some_iff`: a field is read if it is given once;
* `spells_record_iff`: a structure is spelled part by part;
* `LawfulSaved`: the documents that are read as a value are the spellings of what it is written
  as, so that nothing is lost (`Saved.decode?_encode`), whatever the value is made of.
-/
import Mathlib.Data.List.Nodup
import Handheld.Saved.Document
import Handheld.Proofs.Sequences

namespace Handheld

namespace Document

/-! ## 1. Spellings -/

/-- The name is given once, to `d`. -/
def Once (fields : List (String × Document)) (name : String) (d : Document) : Prop :=
  ∃ before after, fields = before ++ (name, d) :: after ∧ ∀ f ∈ before ++ after, f.1 ≠ name

/-- `d.Spells e`: what is written as `e` may also be written as `d`.  Nothing is written as a
null or as a number with a fraction. -/
inductive Spells : Document → Document → Prop
  | bool (b : Bool) : Spells (.bool b) (.bool b)
  | integer (n : Int) : Spells (.integer n) (.integer n)
  | text (s : String) : Spells (.text s) (.text s)
  | choice (s : String) : Spells (.record [(s, .null)]) (.text s)
  | list {ds es : List Document} (items : List.Forall₂ Spells ds es) :
    Spells (.list ds) (.list es)
  /-- Each field has one spelling under its name; fields of other names are passed over. -/
  | record {fields written : List (String × Document)} {ds : List Document}
    (found : List.Forall₂ (fun w d => Once fields w.1 d) written ds)
    (parts : List.Forall₂ Spells ds (written.map Prod.snd)) :
    Spells (.record fields) (.record written)
  | inOrder {written : List (String × Document)} {ds : List Document}
    (parts : List.Forall₂ Spells ds (written.map Prod.snd)) :
    Spells (.list ds) (.record written)

/-- A record that gives no name twice is one of the spellings of what it says, if its parts are. -/
theorem Spells.of_nodup {written : List (String × Document)}
    (distinct : (written.map Prod.fst).Nodup)
    (parts : List.Forall₂ Spells (written.map Prod.snd) (written.map Prod.snd)) :
    Spells (.record written) (.record written) := by
  refine .record (List.forall₂_map_right_iff.mpr (List.forall₂_same.mpr ?_)) parts
  intro w mem
  obtain ⟨before, after, rfl⟩ := List.append_of_mem mem
  rw [List.map_append, List.map_cons, List.nodup_middle, List.nodup_cons, ← List.map_append]
    at distinct
  exact ⟨before, after, rfl, fun f hf same => distinct.1 (same ▸ List.mem_map_of_mem hf)⟩

variable {d : Document}

theorem spells_bool_iff {b : Bool} : d.Spells (.bool b) ↔ d = .bool b := by
  constructor
  · rintro ⟨⟩
    rfl
  · rintro rfl
    exact .bool b

theorem spells_integer_iff {n : Int} : d.Spells (.integer n) ↔ d = .integer n := by
  constructor
  · rintro ⟨⟩
    rfl
  · rintro rfl
    exact .integer n

theorem spells_list_iff {es : List Document} :
    d.Spells (.list es) ↔ ∃ ds, d = .list ds ∧ List.Forall₂ Spells ds es := by
  constructor
  · rintro ⟨⟩
    exact ⟨_, rfl, ‹_›⟩
  · rintro ⟨ds, rfl, items⟩
    exact .list items

theorem choice?_eq_some_iff {s : String} : d.choice? = some s ↔ d.Spells (.text s) := by
  constructor
  · intro named
    unfold choice? at named
    split at named
    · cases named
      exact .text s
    · cases named
      exact .choice s
    · cases named
  · rintro (_ | _)
    · rfl
    · rfl

/-- A field is read if it is given once. -/
theorem field?_eq_some_iff {fields : List (String × Document)} {name : String} :
    field? fields name = some d ↔ Once fields name d := by
  simp only [Once, List.forall_mem_append]
  constructor
  · intro read
    unfold field? at read
    split at read
    · rename_i name' d' alone
      cases read
      obtain ⟨before, after, rfl, others, named, rest⟩ := List.filter_eq_cons_iff.mp alone
      obtain rfl : name' = name := of_decide_eq_true named
      refine ⟨before, after, rfl, ?_, ?_⟩
      · simpa using others
      · simpa using rest
    · cases read
  · rintro ⟨before, after, rfl, before_others, after_others⟩
    have alone : (before ++ (name, d) :: after).filter (·.1 = name) = [(name, d)] :=
      List.filter_eq_cons_iff.mpr ⟨before, after, rfl, by simpa using before_others,
        decide_eq_true rfl, by simpa using after_others⟩
    rw [field?, alone]

theorem parts?_eq_some_iff {names : List String} {ds : List Document} :
    d.parts? names = some ds ↔
      (∃ fields, d = .record fields ∧
        List.Forall₂ (fun n p => Once fields n p) names ds) ∨
      d = .list ds ∧ ds.length = names.length := by
  cases d with
  | record fields => simp [parts?, mapM_eq_some_iff, field?_eq_some_iff]
  | list items =>
    simp only [parts?, Option.ite_none_right_eq_some, Option.some.injEq, reduceCtorEq, false_and,
      exists_false, false_or, list.injEq]
    constructor
    · rintro ⟨each, rfl⟩
      exact ⟨rfl, each⟩
    · rintro ⟨rfl, each⟩
      exact ⟨each, rfl⟩
  | null | bool _ | integer _ | decimal _ _ | text _ => simp [parts?]

/-- A structure is spelled by its parts. -/
theorem spells_record_iff {written : List (String × Document)} :
    d.Spells (.record written) ↔ ∃ ds, d.parts? (written.map Prod.fst) = some ds ∧
      List.Forall₂ Spells ds (written.map Prod.snd) := by
  simp only [parts?_eq_some_iff, List.forall₂_map_left_iff]
  constructor
  · intro spelled
    cases spelled with
    | record found parts => exact ⟨_, .inl ⟨_, rfl, found⟩, parts⟩
    | inOrder parts =>
      refine ⟨_, .inr ⟨rfl, ?_⟩, parts⟩
      rw [parts.length_eq, List.length_map, List.length_map]
  · rintro ⟨ds, ⟨fields, rfl, found⟩ | ⟨rfl, -⟩, parts⟩
    · exact .record found parts
    · exact .inOrder parts

end Document

/-! ## 2. Types that lose nothing -/

open Document Saved

/-- What a value is written as is one of its own spellings, and they alone are read as it. -/
class LawfulSaved (α : Type) [Saved α] : Prop where
  spells_encode (v : α) : (encode v).Spells (encode v)
  decode?_eq_some_iff {d : Document} {v : α} : decode? d = some v ↔ d.Spells (encode v)

namespace LawfulSaved

variable {α β : Type} [Saved α] [LawfulSaved α] {d : Document}

/-- A value that is written is read back. -/
theorem decode?_encode (v : α) : decode? (encode v) = some v :=
  decode?_eq_some_iff.mpr (spells_encode v)

/-- A value that is written as another one is read as it. -/
theorem map_decode?_eq_some_iff {wrap : α → β} {bare : β → α}
    (inverse : ∀ v b, wrap v = b ↔ v = bare b) {b : β} :
    (decode? d).map wrap = some b ↔ d.Spells (encode (bare b)) := by
  simp only [Option.map_eq_some_iff, inverse, exists_eq_right, decode?_eq_some_iff]

/-- An alternative that holds nothing is written as its name, by which it is looked up. -/
theorem bind_choice?_eq_some_iff {all : List β} {name : β → String}
    (found : ∀ b, all.find? (name · = name b) = some b) {b : β} :
    (d.choice?.bind fun s => all.find? (name · = s)) = some b ↔ d.Spells (.text (name b)) := by
  have named (s : String) : all.find? (name · = s) = some b ↔ name b = s := by
    constructor
    · intro h
      simpa using List.find?_some h
    · rintro rfl
      exact found b
  simp only [Option.bind_eq_some_iff, named, exists_eq_right', choice?_eq_some_iff]

/-! ## 3. Numbers, truth values and sequences -/

instance : LawfulSaved Bool where
  spells_encode b := .bool b
  decode?_eq_some_iff {d b} := by
    show decode? d = some b ↔ d.Spells (.bool b)
    rw [spells_bool_iff]
    cases d <;> simp [decode?]

instance {w : Nat} : LawfulSaved (BitVec w) where
  spells_encode v := .integer v.toNat
  decode?_eq_some_iff {d v} := by
    show decode? d = some v ↔ d.Spells (.integer v.toNat)
    rw [spells_integer_iff]
    cases d with
    | integer n =>
      simp only [decode?, Option.ite_none_right_eq_some, Option.some.injEq, integer.injEq]
      constructor
      · rintro ⟨fits, rfl⟩
        exact fits.symm
      · rintro rfl
        simp
    | _ => simp [decode?]

theorem decodeSigned?_eq_some_iff {w : Nat} {v : BitVec w} :
    decodeSigned? w d = some v ↔ d.Spells (encodeSigned v) := by
  rw [encodeSigned, spells_integer_iff]
  cases d with
  | integer n =>
    simp only [decodeSigned?, Option.ite_none_right_eq_some, Option.some.injEq, integer.injEq]
    constructor
    · rintro ⟨fits, rfl⟩
      exact fits.symm
    · rintro rfl
      simp
  | _ => simp [decodeSigned?]

instance : LawfulSaved (List α) where
  spells_encode vs :=
    .list (List.forall₂_map_left_iff.mpr (List.forall₂_map_right_iff.mpr
      (List.forall₂_same.mpr fun v _ => spells_encode v)))
  decode?_eq_some_iff {d vs} := by
    show decode? d = some vs ↔ d.Spells (.list (vs.map encode))
    simp only [spells_list_iff, List.forall₂_map_right_iff, ← decode?_eq_some_iff,
      ← mapM_eq_some_iff]
    cases d <;> simp [decode?]

instance : LawfulSaved (Array α) where
  spells_encode vs := spells_encode vs.toList
  decode?_eq_some_iff {d vs} := map_decode?_eq_some_iff fun l a => by
    constructor
    · rintro rfl
      rfl
    · rintro rfl
      rfl

instance {n : Nat} : LawfulSaved (Vector α n) where
  spells_encode vs := spells_encode vs.toArray
  decode?_eq_some_iff {d vs} := by
    show ((decode? d : Option (Array α)).bind fun xs =>
      if h : xs.size = n then some ⟨xs, h⟩ else none) = some vs ↔ d.Spells (encode vs.toArray)
    rw [← decode?_eq_some_iff, Option.bind_eq_some_iff]
    constructor
    · rintro ⟨xs, read, sized⟩
      split at sized
      · cases sized
        exact read
      · cases sized
    · intro read
      exact ⟨vs.toArray, read, dif_pos vs.size_toArray⟩

end LawfulSaved
end Handheld
