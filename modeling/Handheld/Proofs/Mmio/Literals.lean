/-
# Number literals read in steps

A literal may be read by its grammar, and it may be read with its underscores erased.
`parseByErasing?` takes the second way: it tells the base from what is in front, looks for
underscores in the wrong places in several partial checks, and hands what is left without them to
a reader of unsigned 64-bit numbers, which would take a plus sign.

* `front_eq`: the front is looked at in the same way;
* `spaced_iff_erased`: what the checks leave to be erased is what the grammar has;
* `parseByErasing?_eq`: so the two readers are one;
* `literals_read`: what they make of every text.
-/
import Handheld.Proofs.CommandLine.Language
import Handheld.Proofs.Mmio.LiteralGrammar

namespace Handheld
namespace Literal

open Numeral

variable {base : Nat} {cs : List Char} {ds : List Nat}

/-! ## 1. Steps -/

/-- What stands behind a mark, which may be in either case of the letters.  A character of a mark
is a single byte, so that it does not matter which of the two are counted. -/
def behind? (mark cs : List Char) : Option (List Char) :=
  if (cs.take mark.length).map Char.toLower = mark then some (cs.drop mark.length) else none

/-- The digits of a literal with their underscores, their base, and whether they are marked. -/
def front (cs : List Char) : List Char × Nat × Bool :=
  if let some digits := behind? ['0', 'x'] cs then (digits, 16, true)
  else if let some digits := behind? ['0', 'o'] cs then (digits, 8, true)
  else if let some digits := behind? ['0', 'b'] cs then (digits, 2, true)
  else if 1 < cs.length ∧ cs.head? = some '0' then (cs.tail, 8, true)
  else (cs, 10, false)

def erased (digits : List Char) : List Char := digits.filter (· ≠ '_')

/-- There is an underscore at the front, after the one that a mark allows there, or at the end, or
next to another one. -/
def Misplaced (marked : Bool) (digits : List Char) : Prop :=
  (if marked = true ∧ digits.head? = some '_' then digits.tail else digits).head? = some '_' ∨
    digits.getLast? = some '_' ∨ ['_', '_'] <:+: digits

instance (marked : Bool) (digits : List Char) : Decidable (Misplaced marked digits) :=
  inferInstanceAs (Decidable (_ ∨ _ ∨ _))

/-- The value of at least one digit, without a plus sign in front of them. -/
def bare? (base : Nat) (digits : List Char) : Option Nat :=
  if digits = [] ∨ digits.head? = some '+' then none
  else (CommandLine.unsigned base CommandLine.maxUnsigned digits).toOption

/-- Reads a literal with its underscores erased. -/
def parseByErasing? (s : String) (bits : Nat) : Option Nat :=
  let (digits, base, marked) := front s.toList
  if Misplaced marked digits then none
  else do
    let n ← bare? base (erased digits)
    if 64 ≤ bits ∨ n >>> bits = 0 then some n else none

/-! ## 2. What is in front -/

/-- Beyond ASCII there is no case of the letters here. -/
theorem toLower_eq_iff {c m : Char} (h : m ∈ ['0', 'x', 'o', 'b']) :
    c.toLower = m ↔ c = m ∨ c = m.toUpper := by
  rcases Nat.lt_or_ge c.toNat 128 with ascii | beyond
  · have table : ∀ n < 128, ['0', 'x', 'o', 'b'].all fun m =>
        (Char.ofNat n).toLower = m ↔ Char.ofNat n = m ∨ Char.ofNat n = m.toUpper := by
      decide +kernel
    have entry := List.all_eq_true.mp (table c.toNat ascii) m h
    rwa [decide_eq_true_eq, Char.ofNat_toNat] at entry
  · have unchanged : c.toLower = c := by
      refine dif_neg ?_
      rintro ⟨-, upper⟩
      exact absurd (Nat.le_trans beyond upper) (by decide)
    have letters : ['0', 'x', 'o', 'b'].all fun m => m.toUpper.toNat < 128 := by decide
    have upper := List.all_eq_true.mp letters m h
    rw [decide_eq_true_eq] at upper
    rw [unchanged]
    constructor
    · exact .inl
    · rintro (same | rfl)
      · exact same
      · exact absurd upper (Nat.not_lt.mpr beyond)

theorem exists_of_behind? {m : Char} (letter : m ∈ ['x', 'o', 'b']) {rest : List Char}
    (h : behind? ['0', m] cs = some rest) :
    ∃ c, (c = m ∨ c = m.toUpper) ∧ cs = '0' :: c :: rest := by
  unfold behind? at h
  split at h
  · rename_i same
    cases h
    rcases cs with _ | ⟨z, _ | ⟨c, cs⟩⟩
    · simp at same
    · simp at same
    · simp only [List.length_cons, List.length_nil, List.take_succ_cons, List.take_zero,
        List.map_cons, List.map_nil, List.cons.injEq, and_true] at same
      obtain ⟨zero, mark⟩ := same
      rw [toLower_eq_iff (.tail '0' letter)] at mark
      obtain rfl : z = '0' := by
        rw [toLower_eq_iff (.head _)] at zero
        exact zero.elim id id
      exact ⟨c, mark, rfl⟩
  · cases h

theorem behind?_eq_none {m : Char} (letter : m ∈ ['x', 'o', 'b'])
    (h : ∀ c rest, cs = '0' :: c :: rest → c ≠ m ∧ c ≠ m.toUpper) : behind? ['0', m] cs = none := by
  rw [Option.eq_none_iff_forall_ne_some]
  intro rest found
  obtain ⟨c, mark, same⟩ := exists_of_behind? letter found
  obtain ⟨lower, upper⟩ := h c rest same
  exact mark.elim lower upper

/-- The front is looked at in the same way by both readers. -/
theorem front_eq (cs : List Char) :
    front cs = match splitBase cs with
      | some (base, body) => (body, base, true)
      | none => (cs, 10, false) := by
  fun_cases splitBase cs
  case case7 c cs hx hX ho hO hb hB =>
    have not_x : behind? ['0', 'x'] ('0' :: c :: cs) = none :=
      behind?_eq_none (by decide) (by rintro _ _ ⟨⟩; exact ⟨hx, hX⟩)
    have not_o : behind? ['0', 'o'] ('0' :: c :: cs) = none :=
      behind?_eq_none (by decide) (by rintro _ _ ⟨⟩; exact ⟨ho, hO⟩)
    have not_b : behind? ['0', 'b'] ('0' :: c :: cs) = none :=
      behind?_eq_none (by decide) (by rintro _ _ ⟨⟩; exact ⟨hb, hB⟩)
    simp [front, not_x, not_o, not_b]
  case case8 unmarked =>
    have none_behind {m : Char} (letter : m ∈ ['x', 'o', 'b']) : behind? ['0', m] cs = none :=
      behind?_eq_none letter fun c rest same => (unmarked c rest same).elim
    have decimal : ¬(1 < cs.length ∧ cs.head? = some '0') := by
      rintro ⟨long, zero⟩
      rcases cs with _ | ⟨z, _ | ⟨c, cs⟩⟩
      · cases zero
      · exact absurd long (Nat.lt_irrefl 1)
      · cases zero
        exact unmarked c cs rfl
    simp [front, none_behind, decimal]
  all_goals rfl

theorem base_of_splitBase {b : Nat} {body : List Char} (h : splitBase cs = some (b, body)) :
    0 < b ∧ b ≤ 16 := by
  unfold splitBase at h
  split at h
  all_goals cases h
  all_goals decide

theorem base_of_front {b : Nat} {body : List Char} {marked : Bool}
    (h : front cs = (body, b, marked)) : 0 < b ∧ b ≤ 16 := by
  rw [front_eq] at h
  cases found : splitBase cs with
  | some at_front =>
    rw [found] at h
    cases h
    exact base_of_splitBase found
  | none =>
    rw [found] at h
    cases h
    decide

/-! ## 3. What is erased -/

theorem erased_underscore : erased ('_' :: cs) = erased cs := rfl

theorem erased_cons {c : Char} (h : c ≠ '_') : erased (c :: cs) = c :: erased cs :=
  List.filter_cons_of_pos (decide_eq_true h)

/-- What the checks leave to be erased is underscores before digits. -/
theorem spaced_iff_erased (hb : base ≤ 16) :
    Spaced base cs ds ↔ Parted cs ∧ List.Forall₂ (IsDigit base) (erased cs) ds := by
  constructor
  · intro h
    refine ⟨(h.tidy hb).toParted, ?_⟩
    induction h with
    | nil => exact .nil
    | digit stands rest ih =>
      rw [erased_cons (mem_alphabet_of_isDigit hb stands).2]
      exact .cons stands ih
    | spaced stands rest ih =>
      rw [erased_underscore, erased_cons (mem_alphabet_of_isDigit hb stands).2]
      exact .cons stands ih
  · rintro ⟨parted, digits⟩
    induction cs using spaced?.induct generalizing ds with
    | case1 =>
      cases digits
      exact .nil
    | case2 c cs ih =>
      have visible : c ≠ '_' := by
        rintro rfl
        exact parted.single ⟨[], cs, rfl⟩
      rw [erased_underscore, erased_cons visible] at digits
      obtain ⟨d, ds, stands, rest, rfl⟩ := List.forall₂_cons_left_iff.mp digits
      exact .spaced stands (ih parted.tail.tail rest)
    | case3 c cs start ih =>
      have visible : c ≠ '_' := by
        rintro rfl
        cases cs with
        | nil => exact parted.ended rfl
        | cons c cs => exact start c cs rfl rfl
      rw [erased_cons visible] at digits
      obtain ⟨d, ds, stands, rest, rfl⟩ := List.forall₂_cons_left_iff.mp digits
      exact .digit stands (ih parted.tail rest)

theorem not_misplaced_iff {marked : Bool} :
    ¬Misplaced marked cs ↔ Parted cs ∧ (marked = false → cs.head? ≠ some '_') := by
  rw [Misplaced, not_or, not_or]
  constructor
  · rintro ⟨front, ended, single⟩
    refine ⟨⟨single, ended⟩, ?_⟩
    rintro rfl
    exact front
  · rintro ⟨parted, front⟩
    refine ⟨?_, parted.ended, parted.single⟩
    split
    · rename_i leading
      rcases cs with _ | ⟨c, _ | ⟨c', cs⟩⟩
      · nofun
      · nofun
      · rintro ⟨⟩
        obtain ⟨-, ⟨⟩⟩ := leading
        exact parted.single ⟨[], cs, rfl⟩
    · rename_i bare
      intro leading
      cases marked with
      | true => exact bare ⟨rfl, leading⟩
      | false => exact front rfl leading

theorem bare?_eq_some_iff (hb : 0 < base) (hb' : base ≤ 16) {n : Nat} :
    bare? base cs = some n ↔ Digits base cs n ∧ n < 2 ^ 64 := by
  have largest : n ≤ CommandLine.maxUnsigned ↔ n < 2 ^ 64 := Nat.lt_succ_iff.symm
  have read : (CommandLine.unsigned base CommandLine.maxUnsigned cs).toOption = some n ↔
      CommandLine.Positive base cs n ∧ n < 2 ^ 64 := by
    rw [← largest, ← CommandLine.unsigned_eq_ok_iff hb hb']
    cases CommandLine.unsigned base CommandLine.maxUnsigned cs <;> simp [Except.toOption]
  unfold bare?
  split
  · rename_i refused
    refine ⟨nofun, ?_⟩
    rintro ⟨digits, -⟩
    rcases refused with rfl | plus
    · exact absurd rfl digits.some
    · obtain ⟨cs, rfl⟩ := List.head?_eq_some_iff.mp plus
      exact absurd digits (not_digits_cons hb' CommandLine.digitIn?_plus)
  · rename_i kept
    rw [not_or] at kept
    rw [read]
    cases cs with
    | nil => exact absurd rfl kept.1
    | cons c cs =>
      rw [CommandLine.positive_iff_of_ne]
      rintro rfl
      exact kept.2 rfl

/-- The digits are those behind the front, which may not begin with an underscore of their own. -/
theorem digits?_eq_some_iff_front {b : Nat} {body : List Char} {marked : Bool}
    (h : front cs = (body, b, marked)) :
    digits? cs = some (base, ds) ↔ b = base ∧ Spaced b body ds ∧ ds ≠ [] ∧
      (marked = false → body.head? ≠ some '_') := by
  obtain ⟨-, hb⟩ := base_of_front h
  rw [front_eq] at h
  cases found : splitBase cs with
  | some at_front =>
    rw [found] at h
    cases h
    rw [digits?_of_marked found, spaced?_eq_some_iff hb]
    simp
  | none =>
    rw [found] at h
    cases h
    rw [digits?_of_unmarked found]
    constructor
    · rintro ⟨rfl, c, cs, d, ds, rfl, rfl, digit, read⟩
      have stands := (digitIn?_eq_some_iff (by decide)).mp digit
      have rest := (spaced?_eq_some_iff (by decide)).mp read
      refine ⟨rfl, .digit stands rest, List.cons_ne_nil d ds, fun _ leading => ?_⟩
      exact (mem_alphabet_of_isDigit (by decide) stands).2 (Option.some.inj leading)
    · rintro ⟨rfl, spaced, some, visible⟩
      cases spaced with
      | nil => exact absurd rfl some
      | @digit c d cs ds stands rest =>
        have digit := (digitIn?_eq_some_iff (by decide)).mpr stands
        have read := (spaced?_eq_some_iff (by decide)).mpr rest
        exact ⟨rfl, c, cs, d, ds, rfl, rfl, digit, read⟩
      | spaced stands rest => exact absurd rfl (visible rfl)

/-- Digits that stand for a number are at least one. -/
theorem digits_erased_iff (hb : base ≤ 16) {n : Nat} :
    Parted cs ∧ Digits base (erased cs) n ↔
      ∃ ds, Spaced base cs ds ∧ ds ≠ [] ∧ n = Nat.ofDigits base ds.reverse := by
  simp only [spaced_iff_erased hb]
  constructor
  · rintro ⟨parted, some, ds, digits, held⟩
    refine ⟨ds, ⟨parted, digits⟩, ?_, held⟩
    rintro rfl
    exact some (List.forall₂_nil_right_iff.mp digits)
  · rintro ⟨ds, ⟨parted, digits⟩, some, held⟩
    refine ⟨parted, ?_, ds, digits, held⟩
    intro empty
    rw [empty] at digits
    exact some (List.forall₂_nil_left_iff.mp digits)

/-! ## 4. The two readers -/

section Readers

variable {s : String} {bits v : Nat}

theorem parse?_eq_some_iff : parse? s bits = some v ↔
    ∃ base ds, digits? s.toList = some (base, ds) ∧
      v = Nat.ofDigits base ds.reverse ∧ v < 2 ^ bits ∧ v < 2 ^ 64 := by
  have fits : ∀ v, v < 1 <<< min bits 64 ↔ v < 2 ^ bits ∧ v < 2 ^ 64 := by
    intro v
    rw [Nat.one_shiftLeft]
    rcases Nat.le_total bits 64 with narrow | wide
    · have up : 2 ^ bits ≤ 2 ^ 64 := Nat.pow_le_pow_right (by decide) narrow
      rw [Nat.min_eq_left narrow]
      exact ⟨fun small => ⟨small, Nat.lt_of_lt_of_le small up⟩, And.left⟩
    · have up : 2 ^ 64 ≤ 2 ^ bits := Nat.pow_le_pow_right (by decide) wide
      rw [Nat.min_eq_right wide]
      exact ⟨fun small => ⟨Nat.lt_of_lt_of_le small up, small⟩, And.right⟩
  simp only [parse?, bind, Option.bind_eq_some_iff, Prod.exists, value_eq_ofDigits,
    Option.ite_none_right_eq_some, Option.some.injEq, fits]
  constructor
  · rintro ⟨base, ds, read, within, rfl⟩
    exact ⟨base, ds, read, rfl, within⟩
  · rintro ⟨base, ds, read, rfl, within⟩
    exact ⟨base, ds, read, within, rfl⟩

theorem parseByErasing?_eq_some_iff : parseByErasing? s bits = some v ↔
    ∃ base ds, digits? s.toList = some (base, ds) ∧
      v = Nat.ofDigits base ds.reverse ∧ v < 2 ^ bits ∧ v < 2 ^ 64 := by
  have fits (n : Nat) (small : n < 2 ^ 64) : (64 ≤ bits ∨ n >>> bits = 0) ↔ n < 2 ^ bits := by
    rw [Nat.shiftRight_eq_div_pow, Nat.div_eq_zero_iff_lt (Nat.two_pow_pos bits)]
    constructor
    · rintro (wide | within)
      · exact Nat.lt_of_lt_of_le small (Nat.pow_le_pow_right (by decide) wide)
      · exact within
    · exact .inr
  rcases at_front : front s.toList with ⟨body, b, marked⟩
  obtain ⟨hb, hb'⟩ := base_of_front at_front
  simp only [parseByErasing?, at_front, bind, Option.ite_none_left_eq_some, not_misplaced_iff,
    Option.bind_eq_some_iff, bare?_eq_some_iff hb hb', Option.ite_none_right_eq_some,
    Option.some.injEq, digits?_eq_some_iff_front at_front]
  constructor
  · rintro ⟨⟨parted, visible⟩, n, ⟨bare, small⟩, within, rfl⟩
    obtain ⟨ds, spaced, some, held⟩ := (digits_erased_iff hb').mp ⟨parted, bare⟩
    exact ⟨b, ds, ⟨rfl, spaced, some, visible⟩, held, (fits n small).mp within, small⟩
  · rintro ⟨_, ds, ⟨rfl, spaced, some, visible⟩, held, within, small⟩
    obtain ⟨parted, bare⟩ := (digits_erased_iff hb').mpr ⟨ds, spaced, some, held⟩
    exact ⟨⟨parted, visible⟩, v, ⟨bare, small⟩, (fits v small).mpr within, rfl⟩

/-- **The two readers are one.** -/
theorem parseByErasing?_eq (s : String) (bits : Nat) : parseByErasing? s bits = parse? s bits := by
  ext v
  rw [parseByErasing?_eq_some_iff, parse?_eq_some_iff]

end Readers

/-! ## 5. Literals of a width -/

/-- **A literal is read exactly if it is written as one and fits**, both in the width and in the
widest register; its value is that of its digits in its base.  It makes no difference whether the
underscores are read in their places or are erased first.  Texts with a foreign character, with
an underscore at either end or two in a row, and texts without digits are refused. -/
theorem literals_read (s : String) (bits : Nat) :
    parseByErasing? s bits = parse? s bits ∧
    (∀ v, parse? s bits = some v ↔ ∃ base ds, Written s.toList base ds ∧
      v = Nat.ofDigits base ds.reverse ∧ v < 2 ^ bits ∧ v < 2 ^ 64) ∧
    (Stray s.toList → parse? s bits = none) := by
  have reads : ∀ v, parse? s bits = some v ↔ ∃ base ds, Written s.toList base ds ∧
      v = Nat.ofDigits base ds.reverse ∧ v < 2 ^ bits ∧ v < 2 ^ 64 := by
    intro v
    simp only [parse?_eq_some_iff, digits?_eq_some_iff]
  refine ⟨parseByErasing?_eq s bits, reads, ?_⟩
  intro stray
  rw [Option.eq_none_iff_forall_ne_some]
  intro v read
  obtain ⟨base, ds, written, -⟩ := (reads v).mp read
  exact written.not_stray stray

/-- Underscores right after the mark and between digits are none of the strays. -/
theorem literals_read_binary : parse? "0b_1_01" 3 = some 5 ∧ parse? "0b1__01" 3 = none := by
  have one : IsDigit 2 '1' 1 := ⟨by decide, .lower, rfl⟩
  have zero : IsDigit 2 '0' 0 := ⟨by decide, .lower, rfl⟩
  have body : Spaced 2 ['_', '1', '_', '0', '1'] [1, 0, 1] :=
    .spaced one (.spaced zero (.digit one .nil))
  have written : Written "0b_1_01".toList 2 [1, 0, 1] := .marked (by decide) body (by decide)
  have twice : Stray "0b1__01".toList := .doubled ⟨['0', 'b', '1'], ['0', '1'], rfl⟩
  obtain ⟨-, reads, -⟩ := literals_read "0b_1_01" 3
  obtain ⟨-, -, refuses⟩ := literals_read "0b1__01" 3
  exact ⟨(reads 5).mpr ⟨2, [1, 0, 1], written, rfl, by decide, by decide⟩, refuses twice⟩

end Literal
end Handheld
