/-
# Setting up an interface

Where no two tagged fields stand for one register, each register that a field tags has after the
setup what that tag asks for, and keeps the rest.  Where fields share registers, a later one
replaces what an earlier one has set; and where one is faulty, the setup stops within it.

In every case the setup replaces some parts of some registers, always by the same: which ones is a
matter of the interface alone.  Doing that twice is doing it once, however the parts overlap.

* `setup_applies_tags`: what a setup leaves behind, if each register is tagged by one field;
* `Replaces.twice`: a second time changes nothing;
* `setup_stops_at_first_fault`: what a setup that fails reports and leaves behind.
-/
import Handheld.Proofs.Mmio.Declarations
import Handheld.Proofs.Mmio.Turns

namespace Handheld

variable {ι σ : Type} [Layout ι]

/-! ## 1. What is replaced -/

namespace Amendment

variable {w : Nat}

/-- The parts of `v`, and those of `u` where it has none. -/
def andThen (u v : Amendment w) : Amendment w where
  value := v.value.or u.value
  readOnly := v.readOnly.or u.readOnly
  onRead := v.onRead.or u.onRead
  onWrite := v.onWrite.or u.onWrite

theorem apply_andThen (u v : Amendment w) (r : Register w) :
    (u.andThen v).apply r = v.apply (u.apply r) := by
  simp [andThen, apply, Option.or_assoc]

theorem apply_apply (u : Amendment w) (r : Register w) :
    u.apply (u.apply r) = u.apply r := by
  obtain ⟨value, readOnly, onRead, onWrite⟩ := u
  cases value <;> cases readOnly <;> cases onRead <;> cases onWrite <;> rfl

end Amendment

namespace Mmio

/-- A change that replaces certain parts of the registers, in every device by the same. -/
structure Replaces (g : Device ι σ → Device ι σ) : Prop where
  register : ∀ i, ∃ u : Amendment (slotBits i), ∀ d, (g d).register i = u.apply (d.register i)
  extra : ∀ d, (g d).extra = d.extra

namespace Replaces

variable {g h : Device ι σ → Device ι σ}

theorem id : Replaces (fun d : Device ι σ => d) := ⟨fun _ => ⟨{}, fun _ => rfl⟩, fun _ => rfl⟩

theorem comp (hh : Replaces h) (hg : Replaces g) : Replaces fun d => h (g d) where
  register i := by
    obtain ⟨u, hu⟩ := hg.register i
    obtain ⟨v, hv⟩ := hh.register i
    refine ⟨u.andThen v, fun d => ?_⟩
    rw [hv, hu, Amendment.apply_andThen]
  extra d := by rw [hh.extra, hg.extra]

/-- **A second time changes nothing.** -/
theorem twice (hg : Replaces g) (d : Device ι σ) : g (g d) = g d := by
  refine Device.eq_of_registers (fun i => ?_) (hg.extra (g d))
  obtain ⟨u, hu⟩ := hg.register i
  rw [hu, hu, Amendment.apply_apply]

theorem foldl {α : Type} {step : α → Device ι σ → Device ι σ} (each : ∀ a, Replaces (step a))
    (l : List α) : Replaces fun d => l.foldl (fun d a => step a d) d := by
  induction l with
  | nil => exact id
  | cons a l ih => exact ih.comp (each a)

end Replaces

variable [DecidableEq ι]

theorem replaces_modify (i : ι) (u : Amendment (slotBits i)) :
    Replaces fun d : Device ι σ => d.modify i u.apply where
  register j := by
    by_cases h : j = i
    · subst h
      exact ⟨u, fun d => Device.register_modify_self d j u.apply⟩
    · exact ⟨{}, fun d => Device.register_modify_of_ne d u.apply h⟩
  extra _ := rfl

theorem replaces_amend (f : Field ι) (keys : List Key) :
    Replaces fun d : Device ι σ => f.amend keys d := by
  unfold Field.amend
  split
  · exact .id
  · split
    · exact .foldl (fun k => replaces_modify _ _) keys
    · exact .id

/-! ## 2. One field for each register -/

/-- No two tagged fields stand for one register. -/
def Distinct (p : Interface ι σ) : Prop :=
  p.fields.Pairwise fun f g => ∀ i, f.tags i = true → g.tags i = false

/-- What the field makes of the register in slot `i`, and the methods that the bus then runs. -/
structure Applied (p : Interface ι σ) (f : Field ι) (i : ι) (d d' : Device ι σ) : Prop where
  register : d'.register i = f.amended (d.register i)
  reads : ∀ method, f.reader? = some method →
    ∃ run, p.callback? method = some (.read (Layout.width i) run) ∧ p.reader? d' i = some run
  writes : ∀ method, f.writer? = some method →
    ∃ run, p.callback? method = some (.write (Layout.width i) run) ∧ p.writer? d' i = some run

variable {p : Interface ι σ} {f : Field ι} {i : ι}

theorem filter_tags_eq (distinct : Distinct p) (mem : f ∈ p.fields) (tags : f.tags i = true) :
    p.fields.filter (·.tags i) = [f] := by
  obtain ⟨before, after, split⟩ := List.append_of_mem mem
  unfold Distinct at distinct
  rw [split, List.pairwise_append, List.pairwise_cons] at distinct
  obtain ⟨-, ⟨later, -⟩, earlier⟩ := distinct
  have none_before : before.filter (·.tags i) = [] := by
    rw [List.filter_eq_nil_iff]
    intro g hg tags'
    rw [earlier g hg f List.mem_cons_self i tags'] at tags
    cases tags
  have none_after : after.filter (·.tags i) = [] := by
    rw [List.filter_eq_nil_iff]
    intro g hg tags'
    rw [later g hg i tags] at tags'
    cases tags'
  rw [split, List.filter_append, none_before, List.filter_cons_of_pos (by simp [tags]), none_after]
  rfl

theorem accepts_of_sound (sound : f.Sound p) (tags : f.tags i = true) (k : Key) :
    f.Accepts p i k := by
  obtain ⟨tagged, place⟩ := tags_iff.mp tags
  obtain ⟨j, place', accepted⟩ := sound tagged
  rw [place] at place'
  cases place'
  exact accepted k

theorem applied_of_register {d d' : Device ι σ} (sound : f.Sound p) (tags : f.tags i = true)
    (register : d'.register i = f.amended (d.register i)) : Applied p f i d d' where
  register := register
  reads := by
    intro method given
    obtain ⟨run, found⟩ := accepts_of_sound sound tags .rcb method given
    have named : (d'.register i).onRead = some method := by
      rw [register, Field.amended, given, Option.some_or]
    refine ⟨run, found, ?_⟩
    simp only [Interface.reader?, named, found, Option.bind_some]
    exact dif_pos rfl
  writes := by
    intro method given
    obtain ⟨run, found⟩ := accepts_of_sound sound tags .wcb method given
    have named : (d'.register i).onWrite = some method := by
      rw [register, Field.amended, given, Option.some_or]
    refine ⟨run, found, ?_⟩
    simp only [Interface.writer?, named, found, Option.bind_some]
    exact dif_pos rfl

/-- **Tags are applied exactly.**  Where no two tagged fields stand for one register, the setup
succeeds if every field is sound; then each tagged register has the parts that its tag asks for, its
methods are those that the tag names, and everything else is as it was. -/
theorem setup_applies_tags (distinct : Distinct p) (d : Device ι σ) :
    ((∃ d', setup p d = .ok () d') ↔ ∀ f ∈ p.fields, f.Sound p) ∧
    ∀ d', setup p d = .ok () d' →
      (∀ f ∈ p.fields, ∀ i, f.tags i = true → Applied p f i d d') ∧
      (∀ i, (∀ f ∈ p.fields, f.tags i = false) → d'.register i = d.register i) ∧
      d'.extra = d.extra := by
  constructor
  · constructor
    · rintro ⟨d', done⟩
      exact (setup_eq_ok_iff.mp done).1
    · intro sound
      exact ⟨_, setup_eq_ok_iff.mpr ⟨sound, rfl⟩⟩
  · intro d' done
    obtain ⟨sound, rfl⟩ := setup_eq_ok_iff.mp done
    refine ⟨?_, ?_, (Replaces.foldl (replaces_amend · Key.all) p.fields).extra d⟩
    · intro f mem i tags
      apply applied_of_register (sound f mem) tags
      rw [register_foldl_amend, filter_tags_eq distinct mem tags]
      rfl
    · intro i others
      have nothing : p.fields.filter (·.tags i) = [] := by
        rw [List.filter_eq_nil_iff]
        intro f mem
        simp [others f mem]
      rw [register_foldl_amend, nothing]
      rfl

/-- The name of the callback is the default one, the method after it that has this name too is of no
account, and neither is the second reset value after an empty one. -/
theorem setup_applies_tags_default_name :
    ∃ (p : Interface Division.Slot Unit) (d d' : Division.Divider), Distinct p ∧
      setup p d = .ok () d' ∧
      d'.register .control = ⟨0x1234, 0xFF00, some "ReadSTATUS", some "Store"⟩ ∧
      ∀ i, i ≠ .control → d'.register i = d.register i := by
  let f : Field Division.Slot :=
    ⟨"Status", ⟨"rwmask=0xFF,rcb,reset=,reset=5"⟩, .register .control⟩
  let p : Interface Division.Slot Unit :=
    ⟨[⟨"Alias", ⟨""⟩, .register .control⟩, f],
     [⟨"ReadSTATUS", .read .half fun v u => (~~~v, u)⟩,
      ⟨"ReadSTATUS", .write .double fun _ _ u => u⟩]⟩
  let d : Division.Divider :=
    (Device.blank ()).modify .control fun _ => ⟨0x1234, 0, none, some "Store"⟩
  have distinct : Distinct p := by
    simp [Distinct, p, Field.tags, Tag.isEmpty]
  have sound : ∀ g ∈ p.fields, g.Sound p := by
    intro g mem tagged
    simp only [p, List.mem_cons, List.not_mem_nil, or_false] at mem
    rcases mem with rfl | rfl
    · cases tagged
    · refine ⟨.control, rfl, ?_⟩
      rintro (_ | _ | _ | _)
      · exact .inr (by decide +kernel)
      · exact .inl (by decide +kernel)
      · intro method given
        have named : f.reader? = some "ReadSTATUS" := by decide +kernel
        rw [named] at given
        cases given
        exact ⟨_, rfl⟩
      · exact accepts_of_no_writer (by decide +kernel)
  obtain ⟨d', done⟩ := (setup_applies_tags distinct d).1.mpr sound
  obtain ⟨applied, others, -⟩ := (setup_applies_tags distinct d).2 d' done
  have member : f ∈ p.fields := List.mem_cons_of_mem _ List.mem_cons_self
  refine ⟨p, d, d', distinct, done, ?_, ?_⟩
  · rw [(applied f member .control rfl).register]
    decide +kernel
  · intro i other
    apply others
    intro g mem
    simp only [p, List.mem_cons, List.not_mem_nil, or_false] at mem
    rcases mem with rfl | rfl
    · rfl
    · simp [f, Field.tags, other.symm]

/-! ## 3. The first fault -/

theorem mustSetup_apply (p : Interface ι σ) (d : Device ι σ) :
    mustSetup p d =
      match setup p d with
      | .ok u d' => .ok u d'
      | .error e d' => .error ⟨e.message⟩ d' := by
  show EStateM.adaptExcept _ _ _ = _
  unfold EStateM.adaptExcept
  cases setup p d <;> rfl

/-- **A setup that fails does so at the first fault, and doing it again changes nothing.**  The
fields before the faulty one are sound and set up in full; of the faulty one, the options before
the fault are carried out; and the fields after it are not looked at.  A second setup of what the
first has left ends as the first did.  `mustSetup` aborts with the same fault in the same state. -/
theorem setup_stops_at_first_fault (p : Interface ι σ) (d : Device ι σ) :
    (∀ d', setup p d = .ok () d' ↔
      (∀ f ∈ p.fields, f.Sound p) ∧ d' = p.fields.foldl (fun d f => f.amend Key.all d) d) ∧
    (∀ e d', setup p d = .error e d' ↔ ∃ before f after done, p.fields = before ++ f :: after ∧
      (∀ g ∈ before, g.Sound p) ∧ f.FailsAfter p done e ∧
      d' = f.amend done (before.foldl (fun d g => g.amend Key.all d) d)) ∧
    (∀ d', setup p d = .ok () d' → setup p d' = .ok () d') ∧
    (∀ e d', setup p d = .error e d' → setup p d' = .error e d') ∧
    (∀ d', mustSetup p d = .ok () d' ↔ setup p d = .ok () d') ∧
    (∀ a d', mustSetup p d = .error a d' ↔ ∃ e, setup p d = .error e d' ∧ a = ⟨e.message⟩) := by
  refine ⟨fun d' => setup_eq_ok_iff, fun e d' => setup_eq_error_iff, ?_, ?_, ?_, ?_⟩
  · intro d' done
    obtain ⟨sound, rfl⟩ := setup_eq_ok_iff.mp done
    have whole := Replaces.foldl (σ := σ) (replaces_amend · Key.all) p.fields
    exact setup_eq_ok_iff.mpr ⟨sound, (whole.twice d).symm⟩
  · intro e d' failed
    obtain ⟨before, f, after, done, split, sound, fails, rfl⟩ := setup_eq_error_iff.mp failed
    have whole := (replaces_amend f done).comp
      (Replaces.foldl (σ := σ) (replaces_amend · Key.all) before)
    exact setup_eq_error_iff.mpr
      ⟨before, f, after, done, split, sound, fails, (whole.twice d).symm⟩
  · intro d'
    rw [mustSetup_apply]
    cases setup p d with
    | ok u d₁ => simp
    | error e d₁ => simp
  · intro a d'
    rw [mustSetup_apply]
    cases setup p d with
    | ok u d₁ => simp
    | error e d₁ =>
      simp only [EStateM.Result.error.injEq]
      constructor
      · rintro ⟨rfl, rfl⟩
        exact ⟨e, ⟨rfl, rfl⟩, rfl⟩
      · rintro ⟨_, ⟨rfl, rfl⟩, rfl⟩
        exact ⟨rfl, rfl⟩

/-- Two fields share a register, and the second one's callback is of the wrong width: the mask is
the first one's and the value the second one's, and stays so. -/
theorem setup_stops_at_first_fault_shared :
    ∃ (p : Interface Division.Slot Unit) (d : Division.Divider) (e : Fault),
      e = .wrongSignature "Show" "Upper" "read64" "read16" ∧
      setup p (.blank ()) = .error e d ∧ setup p d = .error e d ∧
      mustSetup p (.blank ()) = .error ⟨e.message⟩ d ∧
      d.register .control = ⟨0x55, 0xFF00, none, none⟩ := by
  let f : Field Division.Slot := ⟨"Lower", ⟨"rwmask=0xFF,reset=0x1234"⟩, .register .control⟩
  let c : Callback Division.Slot Unit := .read .double fun v u => (v, u)
  let g : Field Division.Slot := ⟨"Upper", ⟨"wcb,reset=0x55,rcb=Show"⟩, .register .control⟩
  let p : Interface Division.Slot Unit := ⟨[f, g, f], [⟨"Show", c⟩]⟩
  have sound : ∀ g ∈ [f], g.Sound p := by
    simp only [List.forall_mem_cons, List.not_mem_nil, false_implies, implies_true, and_true]
    intro tagged
    refine ⟨.control, rfl, ?_⟩
    rintro (_ | _ | _ | _)
    · exact .inr (by decide +kernel)
    · exact .inr (by decide +kernel)
    · exact accepts_of_no_reader (by decide +kernel)
    · exact accepts_of_no_writer (by decide +kernel)
  let e : Fault :=
    .wrongSignature "Show" "Upper" c.kind
      ("read" ++ Numeral.decimal (slotBits Division.Slot.control))
  have fails : g.FailsAfter p [.rwmask, .reset] e := by
    have named : g.reader? = some "Show" := by decide +kernel
    have accepted : ∀ k ∈ [Key.rwmask, Key.reset], g.Accepts p .control k := by
      simp only [List.forall_mem_cons]
      exact ⟨.inl (by decide +kernel), .inr (by decide +kernel), nofun⟩
    have other : ∀ run, c ≠ .read .half run := by
      intro run same
      injection same with widths
      cases widths
    exact .option rfl rfl accepted (.otherReader named rfl other)
  have shown : e = .wrongSignature "Show" "Upper" "read64" "read16" := by decide +kernel
  obtain ⟨-, stops, -, again, -, aborts⟩ := setup_stops_at_first_fault p (.blank ())
  have first := (stops _ _).mpr ⟨[f], g, [f], [.rwmask, .reset], rfl, sound, fails, rfl⟩
  refine ⟨p, _, e, shown, first, again _ _ first, (aborts _ _).mpr ⟨_, first, rfl⟩, ?_⟩
  decide +kernel

end Mmio
end Handheld
