/-
# Operating modes

The seven modes of the core, their five-bit codes in a status word, and the slot of each
mode's saved status word.  User and System have none.

* `Mode.ofCode?_eq_some_iff`: a word names a mode exactly when it is that mode's code.
-/
import Handheld.Word
import Handheld.Text.Numeral

namespace Handheld

inductive Mode where
  | user | fiq | irq | supervisor | abort | undefined | system
  deriving DecidableEq

namespace Mode

def all : List Mode := [.user, .fiq, .irq, .supervisor, .abort, .undefined, .system]

def code : Mode → Word
  | user => 0b10000
  | fiq => 0b10001
  | irq => 0b10010
  | supervisor => 0b10011
  | abort => 0b10111
  | undefined => 0b11011
  | system => 0b11111

def name : Mode → String
  | user => "User"
  | fiq => "Fiq"
  | irq => "Irq"
  | supervisor => "Supervisor"
  | abort => "Abort"
  | undefined => "Undefined"
  | system => "System"

def ofName? (s : String) : Option Mode := all.find? (·.name = s)

/-- The mode whose code is the whole word `c`. -/
def ofCode? (c : Word) : Option Mode := all.find? (·.code = c)

theorem ofCode?_code (m : Mode) : ofCode? m.code = some m := by cases m <;> decide

theorem ofCode?_eq_some_iff {c : Word} {m : Mode} : ofCode? c = some m ↔ c = m.code := by
  constructor
  · intro h
    have := List.find?_some h
    simpa using (of_decide_eq_true this).symm
  · rintro rfl
    exact ofCode?_code m

theorem ofName?_name (m : Mode) : ofName? m.name = some m := by cases m <;> decide +kernel

/-- What is reported for a word that is no mode's code. -/
def unknownMessage (c : Word) : String :=
  "Unexpected value for Mode: " ++ Numeral.binaryPadded 5 c.toNat

/-- The slot of the mode's saved status word. -/
def savedSlot? : Mode → Option (Fin 5)
  | user | system => none
  | fiq => some 0
  | supervisor => some 1
  | abort => some 2
  | irq => some 3
  | undefined => some 4

/-- The slot behind an access that should not have been made. -/
def straySlot : Fin 5 := 0

/-- No two modes share a saved status word. -/
theorem savedSlot?_inj {m n : Mode} {i : Fin 5} (hm : m.savedSlot? = some i)
    (hn : n.savedSlot? = some i) : m = n := by
  cases m <;> cases n <;> simp_all [savedSlot?] <;> (subst hm; contradiction)

end Mode
end Handheld
