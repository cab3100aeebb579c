/-
# The language of number literals

A literal spells its base and then its digits, and an underscore may stand before any digit that
is not the first character.  `Written` is that language as a grammar, in which a digit is what
`Numeral` writes for it.  The reader goes by the characters in front and never looks at the
grammar; that the two agree rests on the marks `x`, `o` and `b` not being octal digits.

* `digits?_eq_some_iff`: the digits that are read are those that are written;
* `Written.not_stray`: what is not in any literal.
-/
import Handheld.Mmio.Literal
import Handheld.Proofs.Text.Digits

namespace Handheld

variable {base : Nat}

/-! ## 1. Underscores -/

namespace Numeral

theorem digitIn?_underscore : digitIn? base '_' = none := by
  have no_value : digitValue? '_' = none := by decide
  rw [digitIn?, no_value, Option.filter_none]

end Numeral

open Numeral

namespace Literal

/-! ## 2. The grammar -/

/-- Digits, each with or without an underscore before it, and what they stand for. -/
inductive Spaced (base : Nat) : List Char → List Nat → Prop
  | nil : Spaced base [] []
  | digit {c d cs ds} (stands : IsDigit base c d) (rest : Spaced base cs ds) :
      Spaced base (c :: cs) (d :: ds)
  | spaced {c d cs ds} (stands : IsDigit base c d) (rest : Spaced base cs ds) :
      Spaced base ('_' :: c :: cs) (d :: ds)

/-- The letters that mark a base. -/
def marks : List (Char × Nat) := [('x', 16), ('X', 16), ('o', 8), ('O', 8), ('b', 2), ('B', 2)]

/-- The text of a literal, its base and its digits. -/
inductive Written : List Char → Nat → List Nat → Prop
  | marked {x base cs ds} (mark : (x, base) ∈ marks) (body : Spaced base cs ds) (some : ds ≠ []) :
      Written ('0' :: x :: cs) base ds
  | octal {cs ds} (body : Spaced 8 cs ds) (some : ds ≠ []) : Written ('0' :: cs) 8 ds
  | zero : Written ['0'] 10 [0]
  | decimal {c d cs ds} (stands : IsDigit 10 c d) (positive : 0 < d) (rest : Spaced 10 cs ds) :
      Written (c :: cs) 10 (d :: ds)

/-! ## 3. Reading is parsing -/

variable {cs : List Char} {ds : List Nat}

/-- By the recursion of the reader, which looks for the underscore first. -/
theorem spaced?_eq_some_iff (hb : base ≤ 16) : spaced? base cs = some ds ↔ Spaced base cs ds := by
  constructor
  · intro h
    fun_induction spaced? base cs generalizing ds with
    | case1 =>
      cases h
      exact .nil
    | case2 c cs ih =>
      simp only [bind, Option.bind_eq_some_iff, pure, Option.some.injEq] at h
      obtain ⟨d, digit, ds, rest, rfl⟩ := h
      exact .spaced ((digitIn?_eq_some_iff hb).mp digit) (ih rest)
    | case3 c cs _ ih =>
      simp only [bind, Option.bind_eq_some_iff, pure, Option.some.injEq] at h
      obtain ⟨d, digit, ds, rest, rfl⟩ := h
      exact .digit ((digitIn?_eq_some_iff hb).mp digit) (ih rest)
  · intro h
    induction h with
    | nil => rfl
    | @digit c d cs ds stands rest ih =>
      have digit := (digitIn?_eq_some_iff hb).mpr stands
      rw [spaced?]
      · simp [digit, ih]
      · rintro c' cs' rfl -
        exact not_isDigit hb digitIn?_underscore d stands
    | spaced stands rest ih =>
      have digit := (digitIn?_eq_some_iff hb).mpr stands
      rw [spaced?]
      simp [digit, ih]

theorem splitBase_mark {x : Char} (h : (x, base) ∈ marks) :
    splitBase ('0' :: x :: cs) = some (base, cs) := by
  simp only [marks, List.mem_cons, Prod.mk.injEq, List.not_mem_nil, or_false] at h
  rcases h with ⟨rfl, rfl⟩ | ⟨rfl, rfl⟩ | ⟨rfl, rfl⟩ | ⟨rfl, rfl⟩ | ⟨rfl, rfl⟩ | ⟨rfl, rfl⟩ <;> rfl

/-- A mark can follow the zero of an octal literal neither as a digit nor before one. -/
theorem marks_apart : ∀ m ∈ marks, m.1 ≠ '_' ∧ digitIn? 8 m.1 = none := by decide +kernel

theorem splitBase_octal {c : Char} (h : c = '_' ∨ ∃ d, IsDigit 8 c d) :
    splitBase ('0' :: c :: cs) = some (8, c :: cs) := by
  have unmarked : ∀ m ∈ marks, c ≠ m.1 := by
    rintro m mark rfl
    obtain ⟨no_space, no_digit⟩ := marks_apart m mark
    rcases h with space | ⟨d, stands⟩
    · exact no_space space
    · exact not_isDigit (by decide) no_digit d stands
  simp only [marks, List.forall_mem_cons] at unmarked
  simp [splitBase, unmarked]

theorem splitBase_spaced (h : Spaced 8 cs ds) (some : ds ≠ []) :
    splitBase ('0' :: cs) = .some (8, cs) := by
  cases h with
  | nil => exact absurd rfl some
  | @digit c d cs ds stands rest => exact splitBase_octal (.inr ⟨d, stands⟩)
  | spaced stands rest => exact splitBase_octal (.inl rfl)

theorem splitBase_of_ne {c : Char} (h : c ≠ '0') : splitBase (c :: cs) = none := by
  simp [splitBase, h]

theorem eq_nil_of_splitBase (h : splitBase ('0' :: cs) = none) : cs = [] := by
  cases cs with
  | nil => rfl
  | cons c cs =>
    unfold splitBase at h
    split at h
    case h_8 unmatched => exact absurd rfl (unmatched c cs)
    all_goals cases h

theorem digits?_of_marked {b : Nat} {body : List Char} (h : splitBase cs = some (b, body)) :
    digits? cs = some (base, ds) ↔ b = base ∧ spaced? b body = some ds ∧ ds ≠ [] := by
  rw [digits?.eq_def, h]
  dsimp only
  split
  · rename_i d ds' read
    simp only [read, Option.some.injEq, Prod.mk.injEq]
    constructor
    · rintro ⟨rfl, rfl⟩
      exact ⟨rfl, rfl, List.cons_ne_nil d ds'⟩
    · rintro ⟨rfl, rfl, -⟩
      exact ⟨rfl, rfl⟩
  · rename_i none_read
    constructor
    · nofun
    · rintro ⟨-, read, some⟩
      obtain ⟨d, ds', rfl⟩ := List.exists_cons_of_ne_nil some
      exact absurd read (none_read d ds')

theorem digits?_of_unmarked (h : splitBase cs = none) :
    digits? cs = some (base, ds) ↔ 10 = base ∧ ∃ c cs' d ds', cs = c :: cs' ∧ ds = d :: ds' ∧
      digitIn? 10 c = some d ∧ spaced? 10 cs' = some ds' := by
  rw [digits?.eq_def, h]
  cases cs with
  | nil => simp
  | cons c cs =>
    simp only [bind, Option.bind_eq_some_iff, pure, Option.some.injEq, Prod.mk.injEq,
      List.cons.injEq]
    constructor
    · rintro ⟨d, digit, ds', rest, rfl, rfl⟩
      exact ⟨rfl, c, cs, d, ds', ⟨rfl, rfl⟩, rfl, digit, rest⟩
    · rintro ⟨rfl, c, cs, d, ds', ⟨rfl, rfl⟩, rfl, digit, rest⟩
      exact ⟨d, digit, ds', rest, rfl, rfl⟩

/-- **The digits that are read are those that are written.** -/
theorem digits?_eq_some_iff : digits? cs = some (base, ds) ↔ Written cs base ds := by
  constructor
  · intro h
    cases front : splitBase cs with
    | some found =>
      obtain ⟨b, body⟩ := found
      obtain ⟨rfl, read, some⟩ := (digits?_of_marked front).mp h
      unfold splitBase at front
      split at front
      all_goals cases front
      case h_7 => exact .octal ((spaced?_eq_some_iff (by decide)).mp read) some
      all_goals exact .marked (by decide) ((spaced?_eq_some_iff (by decide)).mp read) some
    | none =>
      obtain ⟨rfl, c, cs, d, ds, rfl, rfl, digit, read⟩ := (digits?_of_unmarked front).mp h
      have stands := (digitIn?_eq_some_iff (by decide)).mp digit
      have rest := (spaced?_eq_some_iff (by decide)).mp read
      rcases Nat.eq_zero_or_pos d with rfl | positive
      · obtain rfl : c = '0' := by
          obtain ⟨-, case, rfl⟩ := stands
          cases case <;> rfl
        obtain rfl := eq_nil_of_splitBase front
        cases rest
        exact .zero
      · exact .decimal stands positive rest
  · intro h
    cases h with
    | marked mark body some =>
      have within : ∀ m ∈ marks, m.2 ≤ 16 := by decide
      have read := (spaced?_eq_some_iff (within _ mark)).mpr body
      exact (digits?_of_marked (splitBase_mark mark)).mpr ⟨rfl, read, some⟩
    | octal body some =>
      have read := (spaced?_eq_some_iff (by decide)).mpr body
      exact (digits?_of_marked (splitBase_spaced body some)).mpr ⟨rfl, read, some⟩
    | zero => rfl
    | @decimal c d cs ds stands positive rest =>
      have digit := (digitIn?_eq_some_iff (by decide)).mpr stands
      have read := (spaced?_eq_some_iff (by decide)).mpr rest
      have nonzero : c ≠ '0' := by
        rintro rfl
        obtain rfl := eq_zero_of_isDigit (by decide) stands
        cases positive
      exact (digits?_of_unmarked (splitBase_of_ne nonzero)).mpr
        ⟨rfl, c, cs, d, ds, rfl, rfl, digit, read⟩

/-! ## 4. What no literal has -/

/-- Every character that occurs in a literal. -/
def alphabet : List Char := "0123456789abcdefABCDEFxXoO_".toList

/-- What keeps a text from being a literal, whatever else is in it. -/
inductive Stray : List Char → Prop
  | character {c : Char} {cs : List Char} (mem : c ∈ cs) (foreign : c ∉ alphabet) : Stray cs
  | doubled {cs : List Char} (twice : ['_', '_'] <:+: cs) : Stray cs
  | leading {cs : List Char} : Stray ('_' :: cs)
  | trailing {cs : List Char} : Stray (cs ++ ['_'])
  | empty : Stray []
  | digitless {x : Char} {base : Nat} (mark : (x, base) ∈ marks) : Stray ['0', x]

/-- No underscore is followed by another one, or by nothing. -/
structure Parted (cs : List Char) : Prop where
  single : ¬['_', '_'] <:+: cs
  ended : cs.getLast? ≠ some '_'

theorem Parted.tail {c : Char} (h : Parted (c :: cs)) : Parted cs where
  single inside := h.single (List.infix_cons inside)
  ended last := h.ended (by rw [List.getLast?_cons, last, Option.getD_some])

/-- What a text and its parts have in common. -/
structure Tidy (cs : List Char) : Prop extends Parted cs where
  known : ∀ c ∈ cs, c ∈ alphabet

theorem tidy_nil : Tidy [] where
  known := nofun
  single := by simp
  ended := nofun

theorem Tidy.cons {c : Char} (h : Tidy cs) (known : c ∈ alphabet) (visible : c ≠ '_') :
    Tidy (c :: cs) where
  known := List.forall_mem_cons.mpr ⟨known, h.known⟩
  single := by
    rw [List.infix_cons_iff]
    rintro (start | inside)
    · exact visible (List.cons_prefix_cons.mp start).1.symm
    · exact h.single inside
  ended := by
    cases cs with
    | nil => simpa using visible
    | cons c' cs => simpa using h.ended

theorem Tidy.underscore {c : Char} (h : Tidy (c :: cs)) (visible : c ≠ '_') :
    Tidy ('_' :: c :: cs) where
  known := List.forall_mem_cons.mpr ⟨by decide, h.known⟩
  single := by
    rw [List.infix_cons_iff]
    rintro (start | inside)
    · exact visible (List.cons_prefix_cons.mp (List.cons_prefix_cons.mp start).2).1.symm
    · exact h.single inside
  ended := by simpa using h.ended

theorem mem_alphabet_of_isDigit (hb : base ≤ 16) {c : Char} {d : Nat} (h : IsDigit base c d) :
    c ∈ alphabet ∧ c ≠ '_' := by
  obtain ⟨small, case, rfl⟩ := h
  have listed : ∀ case, ∀ d < 16, digitChar case d ∈ alphabet ∧ digitChar case d ≠ '_' := by
    rintro (_ | _)
    · decide
    · decide
  exact listed case d (Nat.lt_of_lt_of_le small hb)

theorem Spaced.tidy (hb : base ≤ 16) (h : Spaced base cs ds) : Tidy cs := by
  induction h with
  | nil => exact tidy_nil
  | digit stands rest ih =>
    obtain ⟨known, visible⟩ := mem_alphabet_of_isDigit hb stands
    exact ih.cons known visible
  | spaced stands rest ih =>
    obtain ⟨known, visible⟩ := mem_alphabet_of_isDigit hb stands
    exact (ih.cons known visible).underscore visible

theorem Written.tidy (h : Written cs base ds) : Tidy cs := by
  have zero : '0' ∈ alphabet ∧ '0' ≠ '_' := by decide
  cases h with
  | @marked x _ cs _ mark body some =>
    have known : ∀ m ∈ marks, m.1 ∈ alphabet ∧ m.1 ≠ '_' ∧ m.2 ≤ 16 := by decide
    obtain ⟨mem, visible, small⟩ := known _ mark
    exact ((body.tidy small).cons mem visible).cons zero.1 zero.2
  | octal body some => exact (body.tidy (by decide)).cons zero.1 zero.2
  | zero => exact tidy_nil.cons zero.1 zero.2
  | decimal stands positive rest =>
    obtain ⟨known, visible⟩ := mem_alphabet_of_isDigit (by decide) stands
    exact (rest.tidy (by decide)).cons known visible

theorem Written.not_stray (h : Written cs base ds) : ¬Stray cs := by
  intro stray
  cases stray with
  | character mem foreign => exact foreign (h.tidy.known _ mem)
  | doubled twice => exact h.tidy.single twice
  | trailing => exact h.tidy.ended (by simp)
  | leading =>
    cases h with
    | decimal stands positive rest =>
      exact (mem_alphabet_of_isDigit (by decide) stands).2 rfl
  | empty => cases h
  | digitless mark =>
    cases h with
    | marked _ body some =>
      cases body
      exact some rfl
    | octal body some =>
      cases body with
      | digit stands rest => exact not_isDigit (by decide) (marks_apart _ mark).2 _ stands
    | decimal stands positive rest =>
      obtain rfl := eq_zero_of_isDigit (by decide) stands
      cases positive

end Literal
end Handheld
