/-
# What tags make of registers

Setting up an interface goes through its fields in order, and through the options of each tagged
field in theirs.  Nothing that it checks depends on the device: whether an option can be carried
out is a matter of the tag, of the methods and of the width of the register.  So an option either
replaces its part of the register in every device, or is refused in every device and changes none.

* `setOption_eq_ok_iff`, `setOption_eq_error_iff`: one option;
* `setupField_eq_ok_iff`, `setupField_eq_error_iff`: the options of one field;
* `setup_eq_ok_iff`, `setup_eq_error_iff`: all fields of an interface;
* `register_foldl_amend`, `setup_declares`: what is left in a register.
-/
import Handheld.Mmio.Setup

namespace Handheld

variable {ι σ : Type} {w : Nat}

/-! ## 1. What a tag declares -/

namespace Tag

/-- The bits that the tag leaves writable in a register of `w` bits, if it says so. -/
def writable? (t : Tag) (w : Nat) : Option (BitVec w) :=
  (Literal.parse? (t.get "rwmask") w).map (BitVec.ofNat w)

/-- The value that the tag starts a register of `w` bits with, if it says so. -/
def initial? (t : Tag) (w : Nat) : Option (BitVec w) :=
  (Literal.parse? (t.get "reset") w).map (BitVec.ofNat w)

/-- `r'` has the mask and the value that the tag declares, and those of `r` where it declares
none.  What is given can be read. -/
structure Declares (t : Tag) (r r' : Register w) : Prop where
  mask_read : (t.get "rwmask").isEmpty ∨ (t.writable? w).isSome
  mask : r'.readOnly = ((t.writable? w).map (~~~ ·)).getD r.readOnly
  value_read : (t.get "reset").isEmpty ∨ (t.initial? w).isSome
  value : r'.value = (t.initial? w).getD r.value

end Tag

/-- The field is tagged and stands for the register in a slot. -/
def Field.tags [DecidableEq ι] (f : Field ι) (i : ι) : Bool :=
  !f.tag.isEmpty && decide (f.place = .register i)

/-- New parts for a register; where there is none, the old one stays. -/
structure Amendment (w : Nat) where
  value : Option (BitVec w) := none
  readOnly : Option (BitVec w) := none
  onRead : Option String := none
  onWrite : Option String := none

def Amendment.apply (u : Amendment w) (r : Register w) : Register w where
  value := u.value.getD r.value
  readOnly := u.readOnly.getD r.readOnly
  onRead := u.onRead.or r.onRead
  onWrite := u.onWrite.or r.onWrite

namespace Mmio

/-- The options that set up a register. -/
inductive Key where
  | rwmask | reset | rcb | wcb

/-- The options in the order in which they are looked at. -/
def Key.all : List Key := [.rwmask, .reset, .rcb, .wcb]

end Mmio

open Mmio

namespace Field

/-- The method that a callback option of the field names, if it is given. -/
def method? (f : Field ι) (key defaultStem : String) : Option String :=
  if (f.tag.get key).isEmpty then none else some (methodName f.name (f.tag.get key) defaultStem)

def reader? (f : Field ι) : Option String := f.method? "rcb" "Read"

def writer? (f : Field ι) : Option String := f.method? "wcb" "Write"

/-- What an option of the field replaces in a register of `w` bits. -/
def amendment (f : Field ι) (w : Nat) : Key → Amendment w
  | .rwmask => { readOnly := (f.tag.writable? w).map (~~~ ·) }
  | .reset => { value := f.tag.initial? w }
  | .rcb => { onRead := f.reader? }
  | .wcb => { onWrite := f.writer? }

/-- A register after all options of the field. -/
def amended (f : Field ι) (r : Register w) : Register w where
  value := (f.tag.initial? w).getD r.value
  readOnly := ((f.tag.writable? w).map (~~~ ·)).getD r.readOnly
  onRead := f.reader?.or r.onRead
  onWrite := f.writer?.or r.onWrite

variable [Layout ι]

/-- The device after some options of the field. -/
def amend [DecidableEq ι] (f : Field ι) (keys : List Key) (d : Device ι σ) : Device ι σ :=
  if f.tag.isEmpty then d
  else
    match f.place with
    | .register i => keys.foldl (fun d k => d.modify i (f.amendment (slotBits i) k).apply) d
    | .unsupported _ => d

/-- The register in slot `i` can be given what the option asks for, if it asks for anything. -/
def Accepts (p : Interface ι σ) (f : Field ι) (i : ι) : Key → Prop
  | .rwmask => (f.tag.get "rwmask").isEmpty ∨ (f.tag.writable? (slotBits i)).isSome
  | .reset => (f.tag.get "reset").isEmpty ∨ (f.tag.initial? (slotBits i)).isSome
  | .rcb => ∀ method, f.reader? = some method →
      ∃ run, p.callback? method = some (.read (Layout.width i) run)
  | .wcb => ∀ method, f.writer? = some method →
      ∃ run, p.callback? method = some (.write (Layout.width i) run)

/-- Why the register in slot `i` cannot be given what the option asks for. -/
inductive Refuses (p : Interface ι σ) (f : Field ι) (i : ι) : Key → Fault → Prop
  | mask (given : (f.tag.get "rwmask").isEmpty = false)
      (unread : Literal.parse? (f.tag.get "rwmask") (slotBits i) = none) :
      Refuses p f i .rwmask (.unreadable "rwmask" f.name (f.tag.get "rwmask"))
  | value (given : (f.tag.get "reset").isEmpty = false)
      (unread : Literal.parse? (f.tag.get "reset") (slotBits i) = none) :
      Refuses p f i .reset (.unreadable "reset" f.name (f.tag.get "reset"))
  | noReader {method : String} (given : f.reader? = some method)
      (missing : p.callback? method = none) : Refuses p f i .rcb (.missingMethod method f.name)
  | otherReader {method : String} {c : Callback ι σ} (given : f.reader? = some method)
      (found : p.callback? method = some c) (other : ∀ run, c ≠ .read (Layout.width i) run) :
      Refuses p f i .rcb
        (.wrongSignature method f.name c.kind ("read" ++ Numeral.decimal (slotBits i)))
  | noWriter {method : String} (given : f.writer? = some method)
      (missing : p.callback? method = none) : Refuses p f i .wcb (.missingMethod method f.name)
  | otherWriter {method : String} {c : Callback ι σ} (given : f.writer? = some method)
      (found : p.callback? method = some c) (other : ∀ run, c ≠ .write (Layout.width i) run) :
      Refuses p f i .wcb
        (.wrongSignature method f.name c.kind ("write" ++ Numeral.decimal (slotBits i)))

end Field

/-! ## 2. Single options -/

namespace Mmio

variable [Layout ι] [DecidableEq ι]

/-- Carries out one option of a field that stands for the register in slot `i`. -/
def setOption (p : Interface ι σ) (f : Field ι) (i : ι) : Key → Setup ι σ
  | .rwmask => setMask i f.name (f.tag.get "rwmask")
  | .reset => setReset i f.name (f.tag.get "reset")
  | .rcb => setReader p i f.name (f.tag.get "rcb")
  | .wcb => setWriter p i f.name (f.tag.get "wcb")

theorem parse?_of_isEmpty {s : String} (h : s.isEmpty = true) (bits : Nat) :
    Literal.parse? s bits = none := by
  obtain rfl := String.isEmpty_iff.mp h
  rfl

section Options

variable (p : Interface ι σ) (i : ι) (name value : String) (d : Device ι σ)

theorem setMask_apply :
    setMask i name value d =
      if value.isEmpty then .ok () d
      else
        match Literal.parse? value (slotBits i) with
        | some n => .ok () (d.modify i fun r => { r with readOnly := ~~~BitVec.ofNat _ n })
        | none => .error (.unreadable "rwmask" name value) d := by
  unfold setMask number
  split
  · rfl
  · cases Literal.parse? value (slotBits i) <;> rfl

theorem setReset_apply :
    setReset i name value d =
      if value.isEmpty then .ok () d
      else
        match Literal.parse? value (slotBits i) with
        | some n => .ok () (d.modify i fun r => { r with value := BitVec.ofNat _ n })
        | none => .error (.unreadable "reset" name value) d := by
  unfold setReset number
  split
  · rfl
  · cases Literal.parse? value (slotBits i) <;> rfl

theorem setReader_apply :
    setReader p i name value d =
      if value.isEmpty then .ok () d
      else
        match checkMethod p name (methodName name value "Read")
            ("read" ++ Numeral.decimal (slotBits i))
            fun c => (c.reader? (Layout.width i)).isSome with
        | .ok () =>
          .ok () (d.modify i fun r => { r with onRead := some (methodName name value "Read") })
        | .error f => .error f d := by
  unfold setReader
  split
  · rfl
  · dsimp only
    cases checkMethod p name (methodName name value "Read")
      ("read" ++ Numeral.decimal (slotBits i)) fun c => (c.reader? (Layout.width i)).isSome <;> rfl

theorem setWriter_apply :
    setWriter p i name value d =
      if value.isEmpty then .ok () d
      else
        match checkMethod p name (methodName name value "Write")
            ("write" ++ Numeral.decimal (slotBits i))
            fun c => (c.writer? (Layout.width i)).isSome with
        | .ok () =>
          .ok () (d.modify i fun r => { r with onWrite := some (methodName name value "Write") })
        | .error f => .error f d := by
  unfold setWriter
  split
  · rfl
  · dsimp only
    cases checkMethod p name (methodName name value "Write")
      ("write" ++ Numeral.decimal (slotBits i)) fun c => (c.writer? (Layout.width i)).isSome <;> rfl

end Options

omit [Layout ι] [DecidableEq ι] in
@[simp] theorem apply_empty (r : Register w) : ({} : Amendment w).apply r = r := rfl

@[simp] theorem modify_empty (d : Device ι σ) (i : ι) :
    d.modify i ({} : Amendment (slotBits i)).apply = d :=
  Device.modify_eq_self (apply_empty _)

variable {p : Interface ι σ} {f : Field ι} {i : ι} {k : Key} {e : Fault} {d d' : Device ι σ}

theorem setOption_of_accepts (h : f.Accepts p i k) :
    setOption p f i k d = .ok () (d.modify i (f.amendment (slotBits i) k).apply) := by
  cases k with
  | rwmask =>
    show setMask i f.name (f.tag.get "rwmask") d = _
    rw [setMask_apply]
    simp only [Field.Accepts, Field.amendment, Tag.writable?] at h ⊢
    split
    · rename_i absent
      simp [parse?_of_isEmpty absent]
    · rename_i given
      cases read : Literal.parse? (f.tag.get "rwmask") (slotBits i) with
      | none => simp [given, read] at h
      | some n => rfl
  | reset =>
    show setReset i f.name (f.tag.get "reset") d = _
    rw [setReset_apply]
    simp only [Field.Accepts, Field.amendment, Tag.initial?] at h ⊢
    split
    · rename_i absent
      simp [parse?_of_isEmpty absent]
    · rename_i given
      cases read : Literal.parse? (f.tag.get "reset") (slotBits i) with
      | none => simp [given, read] at h
      | some n => rfl
  | rcb =>
    show setReader p i f.name (f.tag.get "rcb") d = _
    rw [setReader_apply]
    simp only [Field.Accepts, Field.amendment, Field.reader?, Field.method?] at h ⊢
    split
    · simp
    · rename_i given
      obtain ⟨run, found⟩ := h _ (if_neg given)
      simp only [checkMethod, found, Callback.isSome_reader?_iff.mpr ⟨run, rfl⟩]
      rfl
  | wcb =>
    show setWriter p i f.name (f.tag.get "wcb") d = _
    rw [setWriter_apply]
    simp only [Field.Accepts, Field.amendment, Field.writer?, Field.method?] at h ⊢
    split
    · simp
    · rename_i given
      obtain ⟨run, found⟩ := h _ (if_neg given)
      simp only [checkMethod, found, Callback.isSome_writer?_iff.mpr ⟨run, rfl⟩]
      rfl

omit [Layout ι] [DecidableEq ι] in
theorem Field.method?_eq_some {key stem method : String} (h : f.method? key stem = some method) :
    ¬(f.tag.get key).isEmpty = true ∧ methodName f.name (f.tag.get key) stem = method := by
  unfold Field.method? at h
  split at h
  · cases h
  · rename_i present
    cases h
    exact ⟨present, rfl⟩

theorem setOption_of_refuses (h : f.Refuses p i k e) : setOption p f i k d = .error e d := by
  cases h with
  | mask given unread =>
    show setMask i f.name (f.tag.get "rwmask") d = _
    simp [setMask_apply, given, unread]
  | value given unread =>
    show setReset i f.name (f.tag.get "reset") d = _
    simp [setReset_apply, given, unread]
  | noReader given missing =>
    show setReader p i f.name (f.tag.get "rcb") d = _
    obtain ⟨present, rfl⟩ := Field.method?_eq_some given
    rw [setReader_apply, if_neg present]
    simp [checkMethod, missing]
  | otherReader given found other =>
    show setReader p i f.name (f.tag.get "rcb") d = _
    obtain ⟨present, rfl⟩ := Field.method?_eq_some given
    have unfit := mt Callback.isSome_reader?_iff.mp (not_exists.mpr other)
    rw [setReader_apply, if_neg present]
    simp [checkMethod, found, unfit]
  | noWriter given missing =>
    show setWriter p i f.name (f.tag.get "wcb") d = _
    obtain ⟨present, rfl⟩ := Field.method?_eq_some given
    rw [setWriter_apply, if_neg present]
    simp [checkMethod, missing]
  | otherWriter given found other =>
    show setWriter p i f.name (f.tag.get "wcb") d = _
    obtain ⟨present, rfl⟩ := Field.method?_eq_some given
    have unfit := mt Callback.isSome_writer?_iff.mp (not_exists.mpr other)
    rw [setWriter_apply, if_neg present]
    simp [checkMethod, found, unfit]

omit [DecidableEq ι] in
theorem accepts_of_no_reader (h : f.reader? = none) : f.Accepts p i .rcb := by
  intro method given
  rw [h] at given
  cases given

omit [DecidableEq ι] in
theorem accepts_of_no_writer (h : f.writer? = none) : f.Accepts p i .wcb := by
  intro method given
  rw [h] at given
  cases given

omit [DecidableEq ι] in
/-- What is given can be read or not, and a method is missing, suits or does not. -/
theorem accepts_or_refuses (p : Interface ι σ) (f : Field ι) (i : ι) (k : Key) :
    f.Accepts p i k ∨ ∃ e, f.Refuses p i k e := by
  cases k with
  | rwmask =>
    cases given : (f.tag.get "rwmask").isEmpty with
    | true => exact .inl (.inl given)
    | false =>
      cases read : Literal.parse? (f.tag.get "rwmask") (slotBits i) with
      | none => exact .inr ⟨_, .mask given read⟩
      | some n => exact .inl (.inr (by simp [Tag.writable?, read]))
  | reset =>
    cases given : (f.tag.get "reset").isEmpty with
    | true => exact .inl (.inl given)
    | false =>
      cases read : Literal.parse? (f.tag.get "reset") (slotBits i) with
      | none => exact .inr ⟨_, .value given read⟩
      | some n => exact .inl (.inr (by simp [Tag.initial?, read]))
  | rcb =>
    cases given : f.reader? with
    | none => exact .inl (accepts_of_no_reader given)
    | some method =>
      cases found : p.callback? method with
      | none => exact .inr ⟨_, .noReader given found⟩
      | some c =>
        by_cases suits : ∃ run, c = .read (Layout.width i) run
        · exact .inl (by simpa [Field.Accepts, given, found] using suits)
        · exact .inr ⟨_, .otherReader given found (not_exists.mp suits)⟩
  | wcb =>
    cases given : f.writer? with
    | none => exact .inl (accepts_of_no_writer given)
    | some method =>
      cases found : p.callback? method with
      | none => exact .inr ⟨_, .noWriter given found⟩
      | some c =>
        by_cases suits : ∃ run, c = .write (Layout.width i) run
        · exact .inl (by simpa [Field.Accepts, given, found] using suits)
        · exact .inr ⟨_, .otherWriter given found (not_exists.mp suits)⟩

theorem setOption_eq_ok_iff : setOption p f i k d = .ok () d' ↔
    f.Accepts p i k ∧ d' = d.modify i (f.amendment (slotBits i) k).apply := by
  constructor
  · intro h
    rcases accepts_or_refuses p f i k with accepted | ⟨e, refused⟩
    · rw [setOption_of_accepts accepted] at h
      cases h
      exact ⟨accepted, rfl⟩
    · rw [setOption_of_refuses refused] at h
      cases h
  · rintro ⟨accepted, rfl⟩
    exact setOption_of_accepts accepted

theorem setOption_eq_error_iff : setOption p f i k d = .error e d' ↔
    f.Refuses p i k e ∧ d' = d := by
  constructor
  · intro h
    rcases accepts_or_refuses p f i k with accepted | ⟨e', refused⟩
    · rw [setOption_of_accepts accepted] at h
      cases h
    · rw [setOption_of_refuses refused] at h
      cases h
      exact ⟨refused, rfl⟩
  · rintro ⟨refused, rfl⟩
    exact setOption_of_refuses refused

/-! ## 3. Lists of settings -/

section Lists

variable {α : Type} {act : α → Setup ι σ} {good : α → Prop} {done : α → Device ι σ → Device ι σ}
  (each : ∀ a d d', act a d = .ok () d' ↔ good a ∧ d' = done a d)
include each

omit [DecidableEq ι] in
/-- What succeeds whatever the device succeeds one after the other. -/
theorem forM_eq_ok_iff (l : List α) {d d' : Device ι σ} : l.forM act d = .ok () d' ↔
    (∀ a ∈ l, good a) ∧ d' = l.foldl (fun d a => done a d) d := by
  induction l generalizing d with
  | nil =>
    show EStateM.Result.ok () d = .ok () d' ↔ _
    simp [eq_comm]
  | cons a l ih =>
    show EStateM.bind (act a) (fun _ => l.forM act) d = _ ↔ _
    unfold EStateM.bind
    cases first : act a d with
    | ok u d₁ =>
      obtain ⟨fine, rfl⟩ := (each a d d₁).mp first
      rw [ih]
      simp [fine]
    | error e d₁ =>
      have faulty : ¬good a := by
        intro fine
        rw [(each a d _).mpr ⟨fine, rfl⟩] at first
        cases first
      simp [faulty]

omit [DecidableEq ι] in
/-- The first that fails ends it, and what those before it have done stays. -/
theorem forM_eq_error_iff (l : List α) {e : Fault} {d d' : Device ι σ} :
    l.forM act d = .error e d' ↔ ∃ before a after, l = before ++ a :: after ∧
      (∀ b ∈ before, good b) ∧ act a (before.foldl (fun d b => done b d) d) = .error e d' := by
  induction l generalizing d with
  | nil =>
    show EStateM.Result.ok () d = .error e d' ↔ _
    simp
  | cons a l ih =>
    show EStateM.bind (act a) (fun _ => l.forM act) d = _ ↔ _
    unfold EStateM.bind
    simp only [List.cons_eq_append_iff]
    cases first : act a d with
    | ok u d₁ =>
      obtain ⟨fine, rfl⟩ := (each a d d₁).mp first
      simp only [ih]
      constructor
      · rintro ⟨before, b, after, rfl, fines, fails⟩
        exact ⟨a :: before, b, after, .inr ⟨before, rfl, rfl⟩,
          List.forall_mem_cons.mpr ⟨fine, fines⟩, fails⟩
      · rintro ⟨before, b, after, ⟨rfl, same⟩ | ⟨before, rfl, rfl⟩, fines, fails⟩
        · cases same
          rw [List.foldl_nil, first] at fails
          cases fails
        · exact ⟨before, b, after, rfl, (List.forall_mem_cons.mp fines).2, fails⟩
    | error e' d₁ =>
      constructor
      · intro h
        cases h
        exact ⟨[], a, l, .inl ⟨rfl, rfl⟩, nofun, first⟩
      · rintro ⟨before, b, after, ⟨rfl, same⟩ | ⟨before, rfl, rfl⟩, fines, fails⟩
        · cases same
          rwa [List.foldl_nil, first] at fails
        · have fine := (List.forall_mem_cons.mp fines).1
          rw [(each a d _).mpr ⟨fine, rfl⟩] at first
          cases first

end Lists

/-! ## 4. Fields -/

end Mmio

namespace Field

variable [Layout ι] [DecidableEq ι]

/-- If it is tagged, the field stands for a register that accepts all of its options. -/
def Sound (p : Interface ι σ) (f : Field ι) : Prop :=
  f.tag.isEmpty = false → ∃ i, f.place = .register i ∧ ∀ k, f.Accepts p i k

/-- What the setup of the field fails with, and the options that have been carried out before. -/
inductive FailsAfter (p : Interface ι σ) (f : Field ι) : List Key → Fault → Prop
  | type {type : String} (tagged : f.tag.isEmpty = false) (place : f.place = .unsupported type) :
      FailsAfter p f [] (.unsupportedType f.name type)
  | option {i : ι} {done later : List Key} {k : Key} {e : Fault} (tagged : f.tags i = true)
      (order : Key.all = done ++ k :: later) (accepted : ∀ k ∈ done, f.Accepts p i k)
      (refused : f.Refuses p i k e) : FailsAfter p f done e

end Field

namespace Mmio

variable [Layout ι] [DecidableEq ι]
variable {p : Interface ι σ} {f : Field ι} {i : ι} {e : Fault} {d d' : Device ι σ}

omit [Layout ι] in
theorem tags_iff : f.tags i = true ↔ f.tag.isEmpty = false ∧ f.place = .register i := by
  simp [Field.tags]

theorem amend_of_untagged (h : f.tag.isEmpty = true) (keys : List Key) : f.amend keys d = d := by
  rw [Field.amend, if_pos h]

theorem amend_of_tags (h : f.tags i = true) (keys : List Key) :
    f.amend keys d =
      keys.foldl (fun d k => d.modify i (f.amendment (slotBits i) k).apply) d := by
  obtain ⟨tagged, place⟩ := tags_iff.mp h
  simp [Field.amend, tagged, place]

theorem setupField_of_untagged (h : f.tag.isEmpty = true) : setupField p f d = .ok () d := by
  unfold setupField
  rw [h]
  rfl

theorem setupField_of_unsupported (h : f.tag.isEmpty = false) {type : String}
    (place : f.place = .unsupported type) :
    setupField p f d = .error (.unsupportedType f.name type) d := by
  unfold setupField
  rw [h, place]
  rfl

theorem setupField_of_tags (h : f.tags i = true) :
    setupField p f d = Key.all.forM (setOption p f i) d := by
  obtain ⟨tagged, place⟩ := tags_iff.mp h
  simp [setupField, tagged, place, Key.all, setOption]

/-- **A field is set up if it is sound**, and then with all of its options. -/
theorem setupField_eq_ok_iff :
    setupField p f d = .ok () d' ↔ f.Sound p ∧ d' = f.amend Key.all d := by
  cases tagged : f.tag.isEmpty with
  | true =>
    rw [setupField_of_untagged tagged, amend_of_untagged tagged]
    simp [Field.Sound, tagged, eq_comm]
  | false =>
    match place : f.place with
    | .unsupported type =>
      rw [setupField_of_unsupported tagged place]
      simp [Field.Sound, tagged, place]
    | .register i =>
      have tags := tags_iff.mpr ⟨tagged, place⟩
      rw [setupField_of_tags tags, amend_of_tags tags,
        forM_eq_ok_iff fun k d d' => setOption_eq_ok_iff]
      have all : (∀ k ∈ Key.all, f.Accepts p i k) ↔ f.Sound p := by
        have mem : ∀ k, k ∈ Key.all := by
          rintro (_ | _ | _ | _) <;> simp [Key.all]
        simp [Field.Sound, tagged, place, mem]
      rw [all]

/-- **Otherwise its first fault is reported**, with the options before it carried out. -/
theorem setupField_eq_error_iff :
    setupField p f d = .error e d' ↔ ∃ done, f.FailsAfter p done e ∧ d' = f.amend done d := by
  cases tagged : f.tag.isEmpty with
  | true =>
    rw [setupField_of_untagged tagged]
    constructor
    · nofun
    · rintro ⟨done, fails, -⟩
      cases fails with
      | type given => simp [tagged] at given
      | option tags => simp [tags_iff, tagged] at tags
  | false =>
    match place : f.place with
    | .unsupported type =>
      rw [setupField_of_unsupported tagged place]
      constructor
      · intro h
        cases h
        refine ⟨[], .type tagged place, ?_⟩
        simp [Field.amend, tagged, place]
      · rintro ⟨done, fails, rfl⟩
        cases fails with
        | type _ place' =>
          rw [place] at place'
          cases place'
          simp [Field.amend, tagged, place]
        | option tags => simp [tags_iff, place] at tags
    | .register i =>
      have tags := tags_iff.mpr ⟨tagged, place⟩
      rw [setupField_of_tags tags, forM_eq_error_iff fun k d d' => setOption_eq_ok_iff]
      constructor
      · rintro ⟨done, k, later, order, accepted, fails⟩
        obtain ⟨refused, rfl⟩ := setOption_eq_error_iff.mp fails
        exact ⟨done, .option tags order accepted refused, (amend_of_tags tags done).symm⟩
      · rintro ⟨done, fails, rfl⟩
        cases fails with
        | type _ place' => simp [place] at place'
        | @option j _ later k _ tags' order accepted refused =>
          obtain rfl : i = j := by
            have place' := (tags_iff.mp tags').2
            rw [place] at place'
            cases place'
            rfl
          rw [amend_of_tags tags]
          exact ⟨done, k, later, order, accepted, setOption_eq_error_iff.mpr ⟨refused, rfl⟩⟩

/-! ## 5. Whole interfaces -/

theorem setup_eq_ok_iff : setup p d = .ok () d' ↔
    (∀ f ∈ p.fields, f.Sound p) ∧ d' = p.fields.foldl (fun d f => f.amend Key.all d) d :=
  forM_eq_ok_iff (fun _ _ _ => setupField_eq_ok_iff) p.fields

theorem setup_eq_error_iff : setup p d = .error e d' ↔
    ∃ before f after done, p.fields = before ++ f :: after ∧ (∀ g ∈ before, g.Sound p) ∧
      f.FailsAfter p done e ∧
      d' = f.amend done (before.foldl (fun d g => g.amend Key.all d) d) := by
  rw [setup, forM_eq_error_iff fun _ _ _ => setupField_eq_ok_iff]
  simp only [setupField_eq_error_iff]
  constructor
  · rintro ⟨before, f, after, split, sound, done, fails, rfl⟩
    exact ⟨before, f, after, done, split, sound, fails, rfl⟩
  · rintro ⟨before, f, after, done, split, sound, fails, rfl⟩
    exact ⟨before, f, after, split, sound, done, fails, rfl⟩

theorem register_amend_of_tags (h : f.tags i = true) :
    (f.amend Key.all d).register i = f.amended (d.register i) := by
  rw [amend_of_tags h]
  simp [Key.all, Amendment.apply, Field.amendment, Field.amended]

theorem register_foldl_modify_of_ne {j : ι} (h : j ≠ i) (keys : List Key) (d : Device ι σ) :
    (keys.foldl (fun d k => d.modify i (f.amendment (slotBits i) k).apply) d).register j =
      d.register j := by
  induction keys generalizing d with
  | nil => rfl
  | cons k keys ih => rw [List.foldl_cons, ih, Device.register_modify_of_ne _ _ h]

/-- Another field leaves the register alone. -/
theorem register_amend_of_not_tags (h : f.tags i = false) (keys : List Key) :
    (f.amend keys d).register i = d.register i := by
  unfold Field.amend
  split
  · rfl
  · rename_i tagged
    split
    · rename_i j place
      refine register_foldl_modify_of_ne ?_ keys d
      rintro rfl
      simp [Field.tags, tagged, place] at h
    · rfl

/-- A register passes through the fields that tag it. -/
theorem register_foldl_amend (fields : List (Field ι)) (i : ι) (d : Device ι σ) :
    (fields.foldl (fun d f => f.amend Key.all d) d).register i =
      (fields.filter (·.tags i)).foldl (fun r f => f.amended r) (d.register i) := by
  induction fields generalizing d with
  | nil => rfl
  | cons f fields ih =>
    rw [List.foldl_cons, ih]
    cases tags : f.tags i with
    | true =>
      rw [List.filter_cons_of_pos (by simp [tags]), List.foldl_cons, register_amend_of_tags tags]
    | false =>
      rw [List.filter_cons_of_neg (by simp [tags]), register_amend_of_not_tags tags]

/-- **A register that a single field tags is set up as that tag declares.** -/
theorem setup_declares (only : p.fields.filter (·.tags i) = [f]) (h : setup p d = .ok () d') :
    f.tag.Declares (d.register i) (d'.register i) := by
  obtain ⟨sound, rfl⟩ := setup_eq_ok_iff.mp h
  rw [register_foldl_amend, only, List.foldl_cons, List.foldl_nil]
  have member : f ∈ p.fields.filter (·.tags i) := only ▸ List.mem_singleton_self f
  obtain ⟨mem, tags⟩ := List.mem_filter.mp member
  obtain ⟨tagged, place⟩ := tags_iff.mp tags
  obtain ⟨j, place', accepted⟩ := sound f mem tagged
  rw [place] at place'
  cases place'
  exact ⟨accepted .rwmask, rfl, accepted .reset, rfl⟩

end Mmio
end Handheld
