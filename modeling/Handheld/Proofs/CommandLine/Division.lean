/-
# One division from the command line

The three inputs go to their registers over the bus, each in one access that covers the register
and nothing else, and the answers come back the same way:

    0x00  half    mode         <-  and at the end, with the zero flag, the control text
    0x10  double  numerator    <-
    0x18  double  denominator  <-
    0x20  double  quotient         ->
    0x28  double  remainder        ->

What is written last in each register is then just what was given, so that the unit holds the
results of it; and a register that is read on its own shows all of its bits.

* `inputs_taken`: what the unit holds after the three writes;
* `read_whole`: a register that is read on its own;
* `division_shown`: the answer to any arguments.
-/
import Handheld.CommandLine.Commands
import Handheld.Proofs.CommandLine.Numbers
import Handheld.Proofs.Division.Accesses

namespace Handheld

/-! ## 1. Registers on their own -/

namespace Division

open Mmio

/-- An access with the width of a register, at its offset, covers all of it. -/
theorem excerpt_whole {ι : Type} [Layout ι] (e : Entry ι) {size : AccessSize}
    (whole : size.bytes = (Layout.width e.slot).bytes) (x : BitVec (slotBits e.slot)) :
    e.excerpt e.offset size x = x.setWidth 64 := by
  apply BitVec.eq_of_getLsbD_eq
  intro i hi
  rw [getLsbD_excerpt, BitVec.getLsbD_setWidth, whole]
  by_cases inside : i < 8 * (Layout.width e.slot).bytes
  · have covered : e.covers (e.offset.toNat + i / 8) = true := by
      unfold Entry.covers
      exact decide_eq_true (by omega)
    have place : 8 * (e.offset.toNat + i / 8 - e.offset.toNat) + i % 8 = i := by omega
    have bit : i % 8 < 8 := Nat.mod_lt i (by decide)
    unfold Bits.byte
    rw [BitVec.getLsbD_extractLsb', place, covered]
    simp only [inside, bit, hi, decide_true, Bool.true_and]
  · have above : x.getLsbD i = false := BitVec.getLsbD_of_ge x i (Nat.le_of_not_lt inside)
    simp [inside, above]

/-- The size of an access to a register. -/
def whole : Slot → AccessSize
  | .control => .half
  | .numerator | .denominator | .quotient | .remainder => .double

namespace Contents

/-- **A register that is read on its own shows what the bus is to see of it.** -/
theorem read_whole (k : Contents) (i : Slot) :
    table.read Divider.interface (entry i).offset (whole i) k.unit =
      ((Divider.interface.read i k.unit).1.setWidth 64, k.unit) := by
  have covered : (whole i).bytes = (Layout.width (entry i).slot).bytes := by cases i <;> rfl
  have entered : readEntry Divider.interface (entry i).offset (whole i) (0, k.unit) (entry i) =
      ((Divider.interface.read (entry i).slot k.unit).1.setWidth 64, k.unit) := by
    rw [readEntry_eq (read_slot k (entry i).slot), excerpt_whole (entry i) covered]
    exact congrArg (·, k.unit) BitVec.zero_or
  -- the other entries are not met, so that the table reads this one alone
  cases i
  all_goals exact entered

theorem load_double {k : Contents} {offset : Word} {v : Double}
    (read : table.read Divider.interface offset .double k.unit = (v.setWidth 64, k.unit)) :
    table.load Divider.interface offset .double k.unit = (v, k.unit) := by
  unfold Bank.load
  rw [read]
  exact congrArg (·, k.unit) ((BitVec.setWidth_eq _).trans (BitVec.setWidth_eq v))

theorem load_control (k : Contents) :
    table.load Divider.interface 0x00 .half k.unit =
      (if k.denominator = 0 then k.control ||| Divider.zeroFlag else k.control, k.unit) := by
  have read : table.read Divider.interface 0x00 .half k.unit =
      ((if k.denominator = 0 then k.control ||| Divider.zeroFlag else k.control).setWidth 64,
        k.unit) := k.read_whole .control
  unfold Bank.load
  rw [read]
  refine congrArg (·, k.unit) ?_
  exact (BitVec.setWidth_setWidth_of_le _ (by decide)).trans (BitVec.setWidth_eq _)

theorem store_double (k : Contents) (offset : Word) (v : Double) :
    table.store Divider.interface offset .double v k.unit = (k.write offset .double v).unit := by
  have same : BitVec.setWidth 64 v = v := BitVec.setWidth_eq v
  have stored := write_unit k offset .double (BitVec.setWidth 64 v)
  rw [same] at stored
  exact (congrArg (table.write Divider.interface offset .double · k.unit) same).trans stored

/-! ## 2. The inputs -/

/-- The accesses that give a unit its inputs. -/
def given (mode : Half) (n d : Double) : List Access :=
  [.write 0x00 .half (mode.setWidth 64), .write 0x10 .double n, .write 0x18 .double d]

section Given

variable (mode : Half) (n d : Double)

/-- Every byte of an input is written once. -/
theorem written_given :
    (∀ j < 8, written (given mode n d) (0x10 + j) = some (Bits.byte n j)) ∧
      (∀ j < 8, written (given mode n d) (0x18 + j) = some (Bits.byte d j)) ∧
      written (given mode n d) 0 = some (Bits.byte mode 0) := by
  have once : ∀ (offset : Word) (size : AccessSize) (v : Double) (a : Nat),
      (Access.write offset size v).byteAt? a =
        if offset.toNat ≤ a ∧ a < offset.toNat + size.bytes then
          some (Bits.byte v (a - offset.toNat)) else none := fun _ _ _ _ => rfl
  have control : (0x00 : Word).toNat = 0x00 := rfl
  have numerator : (0x10 : Word).toNat = 0x10 := rfl
  have denominator : (0x18 : Word).toNat = 0x18 := rfl
  have low : Bits.byte (mode.setWidth 64) 0 = Bits.byte mode 0 := by
    apply BitVec.eq_of_getLsbD_eq
    intro i hi
    have inside : i < 64 := by omega
    simp [Bits.byte, hi, inside]
  simp only [given, written, once, control, numerator, denominator, AccessSize.bytes]
  refine ⟨?_, ?_, ?_⟩
  · intro j hj
    rw [if_neg (by omega), if_pos (by omega), if_neg (by omega), Nat.add_sub_cancel_left]
    rfl
  · intro j hj
    rw [if_pos (by omega), if_neg (by omega), if_neg (by omega), Nat.add_sub_cancel_left]
    rfl
  · rw [if_neg (by omega), if_neg (by omega), if_pos (by omega), Nat.sub_zero, low]
    rfl

/-- A register all of whose bytes were written holds what was written. -/
theorem eq_of_written (old : Double) {accesses : List Access} {offset : Nat} {x v : Double}
    (wrote : ∀ j < 8, written accesses (offset + j) = some (Bits.byte v j))
    (held : ∀ j < 8, Bits.byte x j = (written accesses (offset + j)).getD (Bits.byte old j)) :
    x = v := by
  apply Bits.eq_of_byte_eq (n := 8)
  intro j hj
  rw [held j hj, wrote j hj, Option.getD_some]

/-- **The unit takes the inputs as they are given**, but of the mode no more than two bits, and
holds the results of them. -/
theorem inputs_taken :
    let k := (given mode n d).foldl access blank
    k.control = mode &&& 3 ∧ k.numerator = n ∧ k.denominator = d ∧ k.Settled := by
  obtain ⟨of_numerator, of_denominator, of_mode⟩ := written_given mode n d
  refine ⟨?_, ?_, ?_, ?_⟩
  · have blank_mode : blank.OnlyMode := rfl
    have control := (blank_mode.foldl (given mode n d)).control_eq
    rw [mode_foldl, of_mode, Option.getD_some] at control
    exact control.trans (setWidth_byte_and_three mode)
  · refine eq_of_written blank.numerator of_numerator fun j hj => ?_
    exact byte_input blank (e := entry .numerator) (by decide) (fun _ => rfl) hj (given mode n d)
  · refine eq_of_written blank.denominator of_denominator fun j hj => ?_
    exact byte_input blank (e := entry .denominator) (by decide) (fun _ => rfl) hj (given mode n d)
  · have touched : TouchesInput (.write 0x18 .double d) :=
      .inr (.inr ⟨0x18, by decide, Nat.le_refl _, rfl⟩)
    have apart : ¬TouchesResult (.write 0x18 .double d) := by
      have above : ∀ a, 0x20 ≤ a → (Access.write 0x18 .double d).byteAt? a = none := fun a ha =>
        if_neg fun ⟨_, below⟩ => Nat.not_lt.mpr ha below
      rintro (⟨a, -, after, wrote⟩ | ⟨a, -, after, wrote⟩)
      · rw [above a after] at wrote
        cases wrote
      · rw [above a (Nat.le_trans (by decide) after)] at wrote
        cases wrote
    exact settled_access _ touched apart

end Given

end Contents
end Division

/-! ## 3. The answers -/

namespace CommandLine

open Division Mmio

/-- What is to be computed, of the mode that the low bits select. -/
def DivArguments.outcome (a : DivArguments) : Outcome :=
  Division.divide (.ofControl (a.mode &&& 3)) a.numerator a.denominator

/-- **What comes back over the bus.** -/
theorem divide_eq (a : DivArguments) :
    divide table a =
      (if a.denominator = 0 then a.mode &&& 3 ||| Divider.zeroFlag else a.mode &&& 3,
        a.outcome.quotient, a.outcome.remainder) := by
  let k := (Contents.given a.mode a.numerator a.denominator).foldl Contents.access .blank
  have taken : k.control = a.mode &&& 3 ∧ k.numerator = a.numerator ∧
      k.denominator = a.denominator ∧ k.Settled := Contents.inputs_taken _ _ _
  obtain ⟨control, numerator, denominator, quotient, remainder⟩ := taken
  have outcome : k.outcome = a.outcome := by
    unfold Contents.outcome DivArguments.outcome
    rw [control, numerator, denominator]
  have stored : table.store Divider.interface 0x18 .double a.denominator
      (table.store Divider.interface 0x10 .double a.numerator
        (table.store Divider.interface 0x00 .half a.mode Divider.new)) = k.unit := by
    have first : table.store Divider.interface 0x00 .half a.mode Divider.new =
        (Contents.blank.write 0x00 .half (a.mode.setWidth 64)).unit := by
      rw [Contents.new_eq]
      exact Contents.write_unit _ _ _ _
    rw [first, Contents.store_double, Contents.store_double]
    rfl
  have load_quotient : table.load Divider.interface 0x20 .double k.unit = (k.quotient, k.unit) :=
    Contents.load_double (k.read_whole .quotient)
  have load_remainder : table.load Divider.interface 0x28 .double k.unit = (k.remainder, k.unit) :=
    Contents.load_double (k.read_whole .remainder)
  unfold divide
  dsimp only
  rw [stored, load_quotient]
  dsimp only
  rw [load_remainder]
  dsimp only
  rw [k.load_control, control, denominator, quotient, remainder, outcome]

/-- The flag is above the mode. -/
theorem toNat_control (mode : Half) (d : Double) :
    (if d = 0 then mode &&& 3 ||| Divider.zeroFlag else mode &&& 3).toNat =
      (mode &&& 3).toNat + if d = 0 then 0x4000 else 0 := by
  split
  · have joined : ∀ m < 4, m ||| 0x4000 = m + 0x4000 := by decide
    rw [BitVec.toNat_or, toNat_and_three]
    exact joined _ (Nat.mod_lt _ (by decide))
  · rfl

theorem DivArguments.answer_eq (a : DivArguments) :
    a.answer = .success (
      "DIVCNT = " ++ Numeral.hexPadded 4
        ((a.mode &&& 3).toNat + if a.denominator = 0 then 0x4000 else 0) ++ "\n" ++
      "RES    = " ++ doubleText a.outcome.quotient ++ "\n" ++
      "MOD    = " ++ doubleText a.outcome.remainder ++ "\n") := by
  unfold DivArguments.answer
  rw [bank_eq]
  dsimp only
  rw [divide_eq]
  dsimp only
  rw [toNat_control]

/-! ## 4. The arguments -/

/-- The text is no option: if it starts with a hyphen, then neither another hyphen nor the letter
of help is behind it. -/
def IsValue (s : String) : Prop :=
  ∃ c cs, (s.toList = c :: cs ∧ c ≠ '-') ∨ (s.toList = '-' :: c :: cs ∧ c ≠ '-' ∧ c ≠ 'h')

theorem Reader.take_of_isValue {ρ : Type} {g : Grammar ρ} {r : Reader ρ} {s : String}
    (more : r.trailing = false) (allowed : r.hyphenAllowed g = true) (h : IsValue s) :
    Reader.take g r s = r.takeValue s := by
  unfold Reader.take
  rw [more, if_neg Bool.false_ne_true]
  obtain ⟨c, cs, ⟨text, no_hyphen⟩ | ⟨text, no_hyphen, no_help⟩⟩ := h
  · rw [text]
    split
    · rename_i same
      exact absurd (List.cons.inj same).1 no_hyphen
    · rename_i same
      exact absurd (List.cons.inj same).1 no_hyphen
    · rename_i same
      exact absurd (List.cons.inj same).1 no_hyphen
    · rfl
  · rw [text]
    split
    · rename_i same
      exact absurd (List.cons.inj (List.cons.inj same).2).1 no_hyphen
    · rename_i same
      exact absurd (List.cons.inj (List.cons.inj same).2).1 no_hyphen
    · rename_i same
      obtain ⟨rfl, rfl⟩ := List.cons.inj (List.cons.inj same).2
      unfold Reader.takeShort
      have value : (r.hyphenAllowed g && (c :: cs).any (· ≠ 'h')) = true := by
        simp [allowed, no_help]
      rw [if_pos value]
    · rfl

section Readers

variable {ρ : Type} {g : Grammar ρ} {r r' : ρ} {used used' : List String} {slot : Slot ρ}
  {rest : List (Slot ρ)}

theorem Reader.hyphenAllowed_of_hyphens (hyphens : g.hyphens = true) (p : Pending ρ) :
    (Reader.mk r p used (slot :: rest) false).hyphenAllowed g = true := by
  unfold Reader.hyphenAllowed
  rw [hyphens]
  rfl

/-- A positional value that is accepted. -/
theorem Reader.settle_positional {t : String} (accepted : slot.accept t r = .ok r') :
    (Reader.mk r (.positional slot t) used rest false).settle =
      .ok ⟨r', .nothing, used, rest, false⟩ := by
  unfold Reader.settle Reader.acceptAs
  dsimp only
  rw [accepted]

/-- The first value of an option that is accepted. -/
theorem Reader.settle_option {o : OptionSpec ρ} (kind : o.kind = .single slot) {t : String}
    (accepted : slot.accept t r = .ok r') :
    (Reader.mk r (.optionValue o t) [] rest false).settle =
      .ok ⟨r', .nothing, [o.name], rest, false⟩ := by
  unfold Reader.settle Reader.acceptOption
  dsimp only
  rw [kind]
  show Reader.acceptAs ⟨r, .nothing, [o.name], rest, false⟩ slot t = _
  unfold Reader.acceptAs
  dsimp only
  rw [accepted]

/-- A value takes the next place once what is pending is accepted. -/
theorem Reader.take_positional (hyphens : g.hyphens = true) {p : Pending ρ}
    (free : ∀ o, p ≠ .waiting o)
    (settled : (Reader.mk r p used (slot :: rest) false).settle =
      .ok ⟨r', .nothing, used', slot :: rest, false⟩) {t : String} (value : IsValue t) :
    Reader.take g ⟨r, p, used, slot :: rest, false⟩ t =
      .ok ⟨r', .positional slot t, used', rest, false⟩ := by
  rw [Reader.take_of_isValue rfl (Reader.hyphenAllowed_of_hyphens hyphens p) value]
  unfold Reader.takeValue
  split
  · rename_i o waiting
    exact absurd waiting (free o)
  · unfold Reader.takePositional
    dsimp only
    rw [settled]
    rfl

/-- An option with its value and two positional arguments, each of which is accepted. -/
theorem Grammar.read_of_accepted {o : OptionSpec ρ} {first second : Slot ρ}
    (positionals : g.positionals = [first, second]) (hyphens : g.hyphens = true)
    (kind : o.kind = .single slot) {s t t₁ t₂ : String} {r₁ r₂ : ρ}
    (opened : Reader.take g ⟨r, .nothing, [], [first, second], false⟩ s =
      .ok ⟨r, .waiting o, [], [first, second], false⟩)
    (value : IsValue t) (accepted : slot.accept t r = .ok r')
    (value₁ : IsValue t₁) (accepted₁ : first.accept t₁ r' = .ok r₁)
    (value₂ : IsValue t₂) (accepted₂ : second.accept t₂ r₁ = .ok r₂) :
    g.read r [s, t, t₁, t₂] = .ok r₂ := by
  have filled : Reader.take g ⟨r, .waiting o, [], [first, second], false⟩ t =
      .ok ⟨r, .optionValue o t, [], [first, second], false⟩ :=
    Reader.take_of_isValue rfl (Reader.hyphenAllowed_of_hyphens hyphens _) value
  have placed₁ : Reader.take g ⟨r, .optionValue o t, [], [first, second], false⟩ t₁ =
      .ok ⟨r', .positional first t₁, [o.name], [second], false⟩ :=
    Reader.take_positional hyphens (fun _ h => by cases h)
      (Reader.settle_option kind accepted) value₁
  have placed₂ : Reader.take g ⟨r', .positional first t₁, [o.name], [second], false⟩ t₂ =
      .ok ⟨r₁, .positional second t₂, [o.name], [], false⟩ :=
    Reader.take_positional hyphens (fun _ h => by cases h)
      (Reader.settle_positional accepted₁) value₂
  have go_on : ∀ {α β : Type} (x : α) (f : α → Except Refusal β), (.ok x >>= f) = f x :=
    fun _ _ => rfl
  unfold Grammar.read
  simp only [positionals, List.foldlM_cons, List.foldlM_nil, opened, filled, placed₁, placed₂,
    Reader.settle_positional accepted₂, go_on, pure_bind]
  rfl

end Readers

/-- A numeral starts with a digit. -/
theorem exists_digits_eq_cons (n : Nat) :
    ∃ c cs, Numeral.digits 10 .lower n = c :: cs ∧ c ≠ '-' ∧ c ≠ 'h' := by
  have read := Numeral.read?_digits .lower (by decide : 1 < 10) (by decide) n
  cases digits : Numeral.digits 10 .lower n with
  | nil => exact absurd digits (Numeral.digits_ne_nil .lower n)
  | cons c cs =>
    rw [digits] at read
    have numeral := (Numeral.read?_eq_some_iff (by decide)).mp read
    refine ⟨c, cs, rfl, ?_, ?_⟩
    · rintro rfl
      exact Numeral.not_digits_cons (by decide) rfl numeral
    · rintro rfl
      exact Numeral.not_digits_cons (by decide) rfl numeral

theorem isValue_decimal (n : Nat) : IsValue (Numeral.decimal n) := by
  obtain ⟨c, cs, digits, no_hyphen, -⟩ := exists_digits_eq_cons n
  exact ⟨c, cs, .inl ⟨(toList_decimal n).trans digits, no_hyphen⟩⟩

theorem isValue_notations (v : Double) : ∀ s ∈ notations v, IsValue s := by
  have hexadecimal : IsValue (Numeral.hexPadded 16 v.toNat) :=
    ⟨'0', _, .inl ⟨toList_hexPadded 16 v.toNat, by decide⟩⟩
  have signed : IsValue (Numeral.signed v.toInt) := by
    obtain ⟨c, cs, digits, no_hyphen, no_help⟩ := exists_digits_eq_cons v.toInt.natAbs
    have text := toList_signed v.toInt
    rw [digits] at text
    split at text
    · exact ⟨c, cs, .inr ⟨text, no_hyphen, no_help⟩⟩
    · exact ⟨c, cs, .inl ⟨text, no_hyphen⟩⟩
  simp only [notations, List.forall_mem_cons]
  exact ⟨hexadecimal, signed, List.forall_mem_nil IsValue⟩

/-- **The arguments that stand for a division are read as it**, with its numbers in either
notation. -/
theorem DivArguments.read_notations (a : DivArguments) :
    ∀ n ∈ notations a.numerator, ∀ d ∈ notations a.denominator,
      DivArguments.grammar.read ⟨0, 0, 0⟩ ["--mode", Numeral.decimal a.mode.toNat, n, d] =
        .ok a := by
  intro n hn d hd
  have mode := half_decimal a.mode
  have numerator := double_notations a.numerator n hn
  have denominator := double_notations a.denominator d hd
  exact Grammar.read_of_accepted rfl rfl rfl rfl
    (isValue_decimal _) (congrArg (·.map fun v => (⟨v, 0, 0⟩ : DivArguments)) mode)
    (isValue_notations _ n hn)
    (congrArg (·.map fun v => (⟨a.mode, v, 0⟩ : DivArguments)) numerator)
    (isValue_notations _ d hd)
    (congrArg (·.map fun v => (⟨a.mode, a.numerator, v⟩ : DivArguments)) denominator)

/-- **What the command shows is the division that was asked for.**  Whatever the arguments are
that are read as a mode and two numbers, and there are some for every mode and all numbers, the
answer is the mode without its upper bits, with a flag if the denominator is zero, and the
quotient and the remainder for this mode.  A 64-bit value is shown in two notations, and from both
of them it is read back. -/
theorem division_shown (a : DivArguments) :
    (∀ args, DivArguments.grammar.read ⟨0, 0, 0⟩ args = .ok a →
      respond ("div" :: args) = .success (
        "DIVCNT = " ++ Numeral.hexPadded 4
          ((a.mode &&& 3).toNat + if a.denominator = 0 then 0x4000 else 0) ++ "\n" ++
        "RES    = " ++ doubleText a.outcome.quotient ++ "\n" ++
        "MOD    = " ++ doubleText a.outcome.remainder ++ "\n")) ∧
    (∀ n ∈ notations a.numerator, ∀ d ∈ notations a.denominator,
      DivArguments.grammar.read ⟨0, 0, 0⟩ ["--mode", Numeral.decimal a.mode.toNat, n, d] =
        .ok a) ∧
    ∀ v : Double,
      doubleText v = Numeral.hexPadded 16 v.toNat ++ " (" ++ Numeral.signed v.toInt ++ ")" ∧
      hexOrDecimal (Numeral.hexPadded 16 v.toNat).toList = .ok v ∧
      hexOrDecimal (Numeral.signed v.toInt).toList = .ok v := by
  refine ⟨?_, a.read_notations, fun v => ?_⟩
  · intro args reads
    have answered : respond ("div" :: args) =
        respondWith DivArguments.grammar ⟨0, 0, 0⟩ DivArguments.answer args := rfl
    rw [answered, respondWith, reads]
    exact a.answer_eq
  · exact ⟨rfl, hexOrDecimal_hexPadded 16 v, hexOrDecimal_signed v⟩

/-- The least numerator by minus one, in both notations, with a mode of which one bit counts. -/
theorem division_shown_of_least :
    respond ["div", "--mode", "6", "-9223372036854775808", "0xFFFFFFFFFFFFFFFF"] = .success (
      "DIVCNT = 0x0002\n" ++
      "RES    = 0x8000000000000000 (-9223372036854775808)\n" ++
      "MOD    = 0x0000000000000000 (0)\n") := by
  let a : DivArguments := ⟨6, 0x8000000000000000, -1⟩
  obtain ⟨answered, reads, -⟩ := division_shown a
  have mode : Numeral.decimal a.mode.toNat = "6" := by decide +kernel
  have numerator : "-9223372036854775808" ∈ notations a.numerator := by decide +kernel
  have denominator : "0xFFFFFFFFFFFFFFFF" ∈ notations a.denominator := by decide +kernel
  have read := reads _ numerator _ denominator
  rw [mode] at read
  exact (answered _ read).trans (by decide +kernel)

end CommandLine
end Handheld
