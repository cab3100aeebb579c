/-
# Fields and their banks

A tag places its register if it has an offset that can be read, and a bank that can be read or no
bank at all.  A tagged field that is placed lives in exactly one bank.  The registers of a bank are
those of the fields that live there, in the order of their declaration.

A field's offset and bank are read whatever bank is asked for, so every bank fails if one tagged
field is without a place.  What the field stands for is looked at in its own bank only.

* `Located`: what becomes of a field when a bank is listed;
* `bankEntries_eq_ok_iff`: when a bank can be listed, and the list;
* `banks_partition_fields`: each tagged field is in one bank, once, unless the bank fails.
-/
import Handheld.Proofs.Mmio.Declarations
import Handheld.Proofs.Mmio.Options
import Handheld.Proofs.Mmio.Turns
import Handheld.Proofs.Sequences
import Mathlib.Algebra.Group.Nat.Defs

namespace Handheld

/-! ## 1. Places -/

namespace Tag

/-- The number of the bank that the tag asks for, 0 if it asks for none. -/
def home? (t : Tag) : Option Nat :=
  if (t.get "bank").isEmpty then some 0 else Literal.parse? (t.get "bank") 32

/-- The tag says where the register is. -/
structure Placed (t : Tag) : Prop where
  offset : ∃ n, Literal.parse? (t.get "offset") 32 = some n
  home : ∃ n, t.home? = some n

/-- What keeps a tag from saying so.  An option that is a key without a value is bare. -/
inductive Unplaced (t : Tag) : Prop
  | missingOffset (missing : ∀ o ∈ t.tokens, o.key ≠ "offset".toList)
  | emptyOffset (empty : t.get "offset" = "")
  | unreadOffset (unread : Literal.parse? (t.get "offset") 32 = none)
  | bareBank {o : Token} (first : t.tokens.find? (·.key = "bank".toList) = some o)
      (bare : o.value = none)
  | unreadBank (given : t.get "bank" ≠ "") (unread : Literal.parse? (t.get "bank") 32 = none)

theorem get_of_bare {t : Tag} {key : String} {o : Token}
    (first : t.tokens.find? (·.key = key.toList) = some o) (bare : o.value = none) :
    t.get key = "true" := by
  rw [get, first]
  simp [Token.reading, bare]

theorem home?_of_given {t : Tag} (given : t.get "bank" ≠ "") :
    t.home? = Literal.parse? (t.get "bank") 32 := by
  rw [home?, if_neg (by simpa using given)]

/-- **There is no other reason.** -/
theorem unplaced_iff {t : Tag} : t.Unplaced ↔ ¬t.Placed := by
  constructor
  · rintro unplaced ⟨⟨n, offset⟩, ⟨m, home⟩⟩
    cases unplaced with
    | missingOffset missing =>
      rw [get_of_missing missing] at offset
      cases offset
    | emptyOffset empty =>
      rw [empty] at offset
      cases offset
    | unreadOffset unread =>
      rw [unread] at offset
      cases offset
    | bareBank first bare =>
      have text : t.get "bank" = "true" := get_of_bare first bare
      rw [home?_of_given (by simp [text]), text] at home
      cases home
    | unreadBank given unread =>
      rw [home?_of_given given, unread] at home
      cases home
  · intro h
    cases offset : Literal.parse? (t.get "offset") 32 with
    | none => exact .unreadOffset offset
    | some n =>
      by_cases given : t.get "bank" = ""
      · exact absurd ⟨⟨n, offset⟩, ⟨0, by simp [home?, given]⟩⟩ h
      · cases home : Literal.parse? (t.get "bank") 32 with
        | none => exact .unreadBank given home
        | some m => exact absurd ⟨⟨n, offset⟩, ⟨m, (home?_of_given given).trans home⟩⟩ h

theorem home?_lt {t : Tag} {n : Nat} (h : t.home? = some n) : n < 2 ^ 32 := by
  unfold home? at h
  split at h
  · cases h
    decide
  · exact Literal.parse?_lt h

end Tag

open Mmio

variable {ι : Type}

theorem Place.not_register_iff {place : Place ι} :
    (¬∃ i, place = .register i) ↔ ∃ type, place = .unsupported type := by
  cases place <;> simp

/-- The field is tagged, and its tag asks for the bank. -/
def Field.livesIn (f : Field ι) (bank : Word) : Bool :=
  !f.tag.isEmpty && decide (f.tag.home? = some bank.toNat)

theorem Field.livesIn_iff {f : Field ι} {bank : Word} :
    f.livesIn bank = true ↔ f.tag.isEmpty = false ∧ f.tag.home? = some bank.toNat := by
  simp [livesIn]

/-- **A tagged field that is placed has one bank.** -/
theorem Field.existsUnique_bank {f : Field ι} (tagged : f.tag.isEmpty = false)
    (placed : f.tag.Placed) : ∃! bank, f.livesIn bank = true := by
  obtain ⟨n, home⟩ := placed.home
  have small := Tag.home?_lt home
  refine ⟨BitVec.ofNat 32 n, ?_, ?_⟩
  · exact livesIn_iff.mpr ⟨tagged, by rw [home, BitVec.toNat_ofNat, Nat.mod_eq_of_lt small]⟩
  · intro bank lives
    have same := (livesIn_iff.mp lives).2
    rw [home, Option.some.injEq] at same
    rw [same, BitVec.ofNat_toNat, BitVec.setWidth_eq]

namespace Mmio

/-- The entry is the field's: it has its name, its offset and its register. -/
structure Entry.Lists (f : Field ι) (e : Entry ι) : Prop where
  name : e.name = f.name
  offset : Literal.parse? (f.tag.get "offset") 32 = some e.offset.toNat
  slot : f.place = .register e.slot

theorem Entry.Lists.unique {f : Field ι} {e e' : Entry ι} (h : Entry.Lists f e)
    (h' : Entry.Lists f e') : e = e' := by
  have slots := h.slot.symm.trans h'.slot
  have offsets := h.offset.symm.trans h'.offset
  rw [Place.register.injEq] at slots
  rw [Option.some.injEq] at offsets
  exact (Entry.mk.injEq ..).mpr ⟨h.name.trans h'.name.symm, BitVec.eq_of_toNat_eq offsets, slots⟩

/-- An offset that can be read fits in a word. -/
theorem Entry.lists_of {f : Field ι} {n : Nat} {i : ι}
    (offset : Literal.parse? (f.tag.get "offset") 32 = some n) (place : f.place = .register i) :
    Entry.Lists f ⟨f.name, BitVec.ofNat 32 n, i⟩ := by
  have small : n < 2 ^ 32 := Literal.parse?_lt offset
  refine ⟨rfl, ?_, place⟩
  rw [offset, BitVec.toNat_ofNat, Nat.mod_eq_of_lt small]

theorem Entry.exists_lists {f : Field ι} (placed : f.tag.Placed) :
    (∃ e, Entry.Lists f e) ↔ ∃ i, f.place = .register i := by
  constructor
  · rintro ⟨e, lists⟩
    exact ⟨e.slot, lists.slot⟩
  · rintro ⟨i, place⟩
    obtain ⟨n, offset⟩ := placed.offset
    exact ⟨_, lists_of offset place⟩

/-! ## 2. Lists -/

section Fields

variable {f : Field ι} {bank : Word}

theorem locate_of_untagged (h : f.tag.isEmpty = true) : locate bank f = .ok none := by
  unfold locate
  rw [h]
  rfl

/-- The offset and the bank are looked at first. -/
theorem locate_of_tagged (h : f.tag.isEmpty = false) :
    locate bank f =
      if (f.tag.get "offset").isEmpty then .error (.missingOffset f.name)
      else
        match Literal.parse? (f.tag.get "offset") 32, f.tag.home? with
        | none, _ => .error (.unreadable "offset" f.name (f.tag.get "offset"))
        | some _, none => .error (.unreadable "bank" f.name (f.tag.get "bank"))
        | some n, some m =>
          if m ≠ bank.toNat then .ok none
          else
            match f.place with
            | .unsupported type => .error (.unsupportedType f.name type)
            | .register slot => .ok (some ⟨f.name, BitVec.ofNat 32 n, slot⟩) := by
  unfold locate number Tag.home?
  dsimp only
  rw [if_neg (by simp [h])]
  split
  · rfl
  · cases Literal.parse? (f.tag.get "offset") 32 with
    | none => rfl
    | some n =>
      show (if (f.tag.get "bank").isEmpty then _ else _) = _
      split
      · rfl
      · cases Literal.parse? (f.tag.get "bank") 32 <;> rfl

end Fields

/-- What becomes of a field when a bank is listed. -/
inductive Located (bank : Word) (f : Field ι) : Except Fault (Option (Entry ι)) → Prop
  | elsewhere (placed : f.tag.isEmpty = false → f.tag.Placed) (away : f.livesIn bank = false) :
      Located bank f (.ok none)
  | here {e : Entry ι} (placed : f.tag.Placed) (lives : f.livesIn bank = true)
      (lists : Entry.Lists f e) : Located bank f (.ok (some e))
  | unplaced (e : Fault) (tagged : f.tag.isEmpty = false) (unplaced : ¬f.tag.Placed) :
      Located bank f (.error e)
  | unsupported {type : String} (placed : f.tag.Placed) (lives : f.livesIn bank = true)
      (place : f.place = .unsupported type) : Located bank f (.error (.unsupportedType f.name type))

theorem located (bank : Word) (f : Field ι) : Located bank f (locate bank f) := by
  cases tagged : f.tag.isEmpty with
  | true =>
    rw [locate_of_untagged tagged]
    exact .elsewhere (by simp [tagged]) (by simp [Field.livesIn, tagged])
  | false =>
    rw [locate_of_tagged tagged]
    cases offset : Literal.parse? (f.tag.get "offset") 32 with
    | none =>
      have unplaced : ¬f.tag.Placed := fun placed => by simpa [offset] using placed.offset
      split
      · exact .unplaced _ tagged unplaced
      · exact .unplaced _ tagged unplaced
    | some n =>
      have given : ¬(f.tag.get "offset").isEmpty = true := by
        intro absent
        rw [parse?_of_isEmpty absent] at offset
        cases offset
      rw [if_neg given]
      cases home : f.tag.home? with
      | none =>
        exact .unplaced _ tagged fun placed => by simpa [home] using placed.home
      | some m =>
        have placed : f.tag.Placed := ⟨⟨n, offset⟩, ⟨m, home⟩⟩
        dsimp only
        split
        · rename_i away
          refine .elsewhere (fun _ => placed) ?_
          simp [Field.livesIn, home, away]
        · rename_i here
          have lives : f.livesIn bank = true := by
            rw [Field.livesIn_iff, home, not_ne_iff.mp here]
            exact ⟨tagged, rfl⟩
          split
          · rename_i type place
            exact .unsupported placed lives place
          · rename_i slot place
            exact .here placed lives (Entry.lists_of offset place)

variable {σ : Type} [Layout ι]

theorem map_eq_ok_iff {ε α β : Type} {x : Except ε α} {g : α → β} {y : β} :
    x.map g = .ok y ↔ ∃ a, x = .ok a ∧ g a = y := by
  cases x <;> simp [Except.map]

/-- The list of a bank, field by field. -/
theorem bankEntries_cons (f : Field ι) (fields : List (Field ι)) (methods : List (Method ι σ))
    (bank : Word) :
    bankEntries ⟨f :: fields, methods⟩ bank =
      match locate bank f with
      | .error e => .error e
      | .ok o => (bankEntries ⟨fields, methods⟩ bank).map (o.toList ++ ·) := by
  unfold bankEntries
  dsimp only
  rw [List.mapM_cons]
  cases locate bank f with
  | error e => rfl
  | ok o =>
    cases fields.mapM (locate bank) with
    | error e => rfl
    | ok os => cases o <;> rfl

variable {p : Interface ι σ} {bank : Word} {declared : List (Entry ι)}

/-- **A bank can be listed if every tagged field is placed and those that live there are
registers**; the list has them all, in the order of their declaration. -/
theorem bankEntries_eq_ok_iff : bankEntries p bank = .ok declared ↔
    (∀ f ∈ p.fields, f.tag.isEmpty = false → f.tag.Placed) ∧
    List.Forall₂ Entry.Lists (p.fields.filter (·.livesIn bank)) declared := by
  obtain ⟨fields, methods⟩ := p
  dsimp only
  induction fields generalizing declared with
  | nil =>
    rw [List.filter_nil, List.forall₂_nil_left_iff]
    constructor
    · intro h
      cases h
      exact ⟨nofun, rfl⟩
    · rintro ⟨-, rfl⟩
      rfl
  | cons f fields ih =>
    rw [bankEntries_cons, List.forall_mem_cons]
    generalize found : locate bank f = o
    have outcome := located bank f
    rw [found] at outcome
    cases outcome with
    | elsewhere placed away =>
      rw [List.filter_cons_of_neg (by simp [away]), and_iff_right placed, ← ih]
      simp [map_eq_ok_iff]
    | here placed lives lists =>
      rw [List.filter_cons_of_pos (by simp [lives]), List.forall₂_cons_left_iff]
      simp only [map_eq_ok_iff, ih]
      constructor
      · rintro ⟨es, ⟨others, rest⟩, rfl⟩
        exact ⟨⟨fun _ => placed, others⟩, _, es, lists, rest, rfl⟩
      · rintro ⟨⟨-, others⟩, e, es, lists', rest, rfl⟩
        exact ⟨es, ⟨others, rest⟩, by rw [lists.unique lists']; rfl⟩
    | unplaced e tagged unplaced => simp [tagged, unplaced]
    | unsupported placed lives place =>
      rw [List.filter_cons_of_pos (by simp [lives]), List.forall₂_cons_left_iff]
      constructor
      · nofun
      · rintro ⟨-, e, es, lists, -⟩
        have slot := lists.slot
        rw [place] at slot
        cases slot

/-! ## 3. Banks -/

theorem Bank.of_eq : Bank.of p bank =
    (bankEntries p bank).map fun declared =>
      ⟨declared.mergeSort fun a b => a.offset.toNat ≤ b.offset.toNat⟩ := by
  unfold Bank.of
  cases bankEntries p bank <;> rfl

/-- **There are two reasons for a bank to fail**, and one of them concerns every bank. -/
theorem bankEntries_fails_iff : (∃ e, bankEntries p bank = .error e) ↔
    (∃ f ∈ p.fields, f.tag.isEmpty = false ∧ f.tag.Unplaced) ∨
    ∃ f ∈ p.fields, f.livesIn bank = true ∧ ∃ type, f.place = .unsupported type := by
  have listed : (∃ declared, bankEntries p bank = .ok declared) ↔
      (∀ f ∈ p.fields, f.tag.isEmpty = false → f.tag.Placed) ∧
      ∀ f ∈ p.fields, f.livesIn bank = true → ∃ i, f.place = .register i := by
    simp only [bankEntries_eq_ok_iff, exists_and_left, exists_forall₂_iff, List.mem_filter, and_imp]
    refine and_congr_right fun placed => ?_
    refine forall₃_congr fun f mem lives => ?_
    exact Entry.exists_lists (placed f mem (Field.livesIn_iff.mp lives).1)
  have fails : (∃ e, bankEntries p bank = .error e) ↔
      ¬∃ declared, bankEntries p bank = .ok declared := by
    cases bankEntries p bank <;> simp
  rw [fails, listed, not_and_or]
  simp only [not_forall, exists_prop, Tag.unplaced_iff, Place.not_register_iff]

theorem of_fails_iff : (∃ e, Bank.of p bank = .error e) ↔ ∃ e, bankEntries p bank = .error e := by
  rw [Bank.of_eq]
  cases bankEntries p bank <;> simp [Except.map]

/-- **Banks partition the tagged fields.**  If all of them are placed and stand for registers, each
lives in one bank, and every bank has an entry for each of its fields, with the offset of its tag:
the list in the order of the declaration, the bank by offsets.  If one is not placed, every bank
fails.  If all are placed, those banks fail in which a field lives that is no register. -/
theorem banks_partition_fields (p : Interface ι σ) :
    ((∀ f ∈ p.fields, f.tag.isEmpty = false → f.tag.Placed ∧ ∃ i, f.place = .register i) →
      (∀ f ∈ p.fields, f.tag.isEmpty = false → ∃! bank, f.livesIn bank = true) ∧
      ∀ bank, ∃ declared b, bankEntries p bank = .ok declared ∧ Bank.of p bank = .ok b ∧
        List.Forall₂ Entry.Lists (p.fields.filter (·.livesIn bank)) declared ∧
        InOrder b.entries declared) ∧
    ((∃ f ∈ p.fields, f.tag.isEmpty = false ∧ f.tag.Unplaced) → ∀ bank,
      (∃ e, bankEntries p bank = .error e) ∧ ∃ e, Bank.of p bank = .error e) ∧
    ((∀ f ∈ p.fields, f.tag.isEmpty = false → f.tag.Placed) → ∀ bank,
      ((∃ e, bankEntries p bank = .error e) ↔
        ∃ f ∈ p.fields, f.livesIn bank = true ∧ ∃ type, f.place = .unsupported type) ∧
      ((∃ e, Bank.of p bank = .error e) ↔
        ∃ f ∈ p.fields, f.livesIn bank = true ∧ ∃ type, f.place = .unsupported type)) := by
  refine ⟨?_, ?_, ?_⟩
  · intro sound
    refine ⟨fun f mem tagged => f.existsUnique_bank tagged (sound f mem tagged).1, ?_⟩
    intro bank
    cases listed : bankEntries p bank with
    | error e =>
      rcases bankEntries_fails_iff.mp ⟨e, listed⟩ with ⟨f, mem, tagged, unplaced⟩ | fault
      · exact absurd (sound f mem tagged).1 (Tag.unplaced_iff.mp unplaced)
      · obtain ⟨f, mem, lives, unsupported⟩ := fault
        have register := (sound f mem (Field.livesIn_iff.mp lives).1).2
        exact absurd register (Place.not_register_iff.mpr unsupported)
    | ok declared =>
      refine ⟨declared, _, rfl, by rw [Bank.of_eq, listed]; rfl, ?_, inOrder_mergeSort declared⟩
      exact (bankEntries_eq_ok_iff.mp listed).2
  · intro unplaced bank
    have fails : ∃ e, bankEntries p bank = .error e := bankEntries_fails_iff.mpr (.inl unplaced)
    exact ⟨fails, of_fails_iff.mpr fails⟩
  · intro placed bank
    have none_unplaced : ¬∃ f ∈ p.fields, f.tag.isEmpty = false ∧ f.tag.Unplaced := by
      rintro ⟨f, mem, tagged, unplaced⟩
      exact Tag.unplaced_iff.mp unplaced (placed f mem tagged)
    have fails_iff : (∃ e, bankEntries p bank = .error e) ↔
        ∃ f ∈ p.fields, f.livesIn bank = true ∧ ∃ type, f.place = .unsupported type := by
      rw [bankEntries_fails_iff, or_iff_right none_unplaced]
    exact ⟨fails_iff, of_fails_iff.trans fails_iff⟩

/-- In the first bank a register has two names, and there is a second bank.  A tag that leaves the
number of its bank open makes every bank fail; a field that is no register makes its own bank fail
and not the other. -/
theorem banks_partition_fields_with_faults :
    ∃ (p unplaced unsupported : Interface Division.Slot Unit) (b : Bank Division.Slot),
      bankEntries p 0 = .ok [⟨"Low", 8, .control⟩, ⟨"Other", 8, .control⟩] ∧
      Bank.of p 0 = .ok b ∧ InOrder b.entries [⟨"Low", 8, .control⟩, ⟨"Other", 8, .control⟩] ∧
      (∀ bank, ∃ e, Bank.of unplaced bank = .error e) ∧
      (∃ e, Bank.of unsupported 1 = .error e) ∧ ¬∃ e, Bank.of unsupported 0 = .error e := by
  let low : Field Division.Slot := ⟨"Low", ⟨"offset=0x8"⟩, .register .control⟩
  let high : Field Division.Slot := ⟨"High", ⟨"bank=1,offset=010"⟩, .register .numerator⟩
  let spare : Field Division.Slot := ⟨"Spare", ⟨""⟩, .unsupported "u8"⟩
  let other : Field Division.Slot := ⟨"Other", ⟨"rcb,offset=8,bank="⟩, .register .control⟩
  let bare : Field Division.Slot := ⟨"Bare", ⟨"offset=4,bank"⟩, .register .quotient⟩
  let byte : Field Division.Slot := ⟨"Byte", ⟨"offset=4,bank=1"⟩, .unsupported "u8"⟩
  let p : Interface Division.Slot Unit := ⟨[low, high, spare, other], []⟩
  let unplaced : Interface Division.Slot Unit := ⟨[low, bare], []⟩
  let unsupported : Interface Division.Slot Unit := ⟨[low, byte], []⟩
  have low_placed : low.tag.Placed := ⟨⟨8, by decide +kernel⟩, ⟨0, by decide +kernel⟩⟩
  have high_placed : high.tag.Placed := ⟨⟨8, by decide +kernel⟩, ⟨1, by decide +kernel⟩⟩
  have other_placed : other.tag.Placed := ⟨⟨8, by decide +kernel⟩, ⟨0, by decide +kernel⟩⟩
  have byte_placed : byte.tag.Placed := ⟨⟨4, by decide +kernel⟩, ⟨1, by decide +kernel⟩⟩
  have left_open : bare.tag.Unplaced :=
    .bareBank (show _ = some ⟨"bank".toList, none⟩ by decide +kernel) rfl
  have sound : ∀ f ∈ p.fields, f.tag.isEmpty = false →
      f.tag.Placed ∧ ∃ i, f.place = .register i := by
    simp only [p, List.forall_mem_cons]
    exact ⟨fun _ => ⟨low_placed, _, rfl⟩, fun _ => ⟨high_placed, _, rfl⟩, nofun,
      fun _ => ⟨other_placed, _, rfl⟩, nofun⟩
  obtain ⟨declared, b, listed, found, entries, order⟩ := ((banks_partition_fields p).1 sound).2 0
  have here : p.fields.filter (·.livesIn 0) = [low, other] := by decide +kernel
  have low_lists : Entry.Lists low ⟨"Low", 8, .control⟩ := ⟨rfl, by decide +kernel, rfl⟩
  have other_lists : Entry.Lists other ⟨"Other", 8, .control⟩ := ⟨rfl, by decide +kernel, rfl⟩
  obtain rfl : declared = [⟨"Low", 8, .control⟩, ⟨"Other", 8, .control⟩] := by
    rw [here] at entries
    have unique : Relator.RightUnique (@Entry.Lists Division.Slot) :=
      fun _ _ _ => Entry.Lists.unique
    exact List.right_unique_forall₂' unique entries (.cons low_lists (.cons other_lists .nil))
  have fails := (banks_partition_fields unplaced).2.1
    ⟨bare, List.mem_cons_of_mem _ List.mem_cons_self, rfl, left_open⟩
  have placed : ∀ f ∈ unsupported.fields, f.tag.isEmpty = false → f.tag.Placed := by
    simp only [unsupported, List.forall_mem_cons]
    exact ⟨fun _ => low_placed, fun _ => byte_placed, nofun⟩
  have fails_iff := (banks_partition_fields unsupported).2.2 placed
  refine ⟨p, unplaced, unsupported, b, listed, found, order, fun bank => (fails bank).2,
    (fails_iff 1).2.mpr ?_, fun failed => ?_⟩
  · exact ⟨byte, List.mem_cons_of_mem _ List.mem_cons_self, by decide +kernel, "u8", rfl⟩
  · obtain ⟨f, mem, lives, type, place⟩ := (fails_iff 0).2.mp failed
    have away : byte.livesIn 0 = false := by decide +kernel
    simp only [unsupported, List.mem_cons, List.not_mem_nil, or_false] at mem
    rcases mem with rfl | rfl
    · cases place
    · rw [away] at lives
      cases lives

end Mmio
end Handheld
