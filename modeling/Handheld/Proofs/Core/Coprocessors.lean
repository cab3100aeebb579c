/-
# The coprocessor slots

A slot is filled by putting a device there, and slot 15 also by enabling the system control
unit.  From then on it is reached by the register transfers that name it.  The unit has a place
of its own beside the table, so that slot 15 is kept twice; of the two places one is always
empty.

What a slot holds is a matter of its own history alone: whatever was put there last, after the
transfers that were made through the slot since.  The vector base is read off the unit, and so
depends on the last write to its control register.

* `withCoprocessor_of_holds`, `holds_mapCoprocessor`, `holds_enableSystemControl`: what single
  operations do to a slot;
* `Moves.holds`: what one move does to it;
* `coprocessors_last_installed`: what the slots hold and answer, and where handlers are entered.
-/
import Handheld.Proofs.Core.SavedStatus
import Handheld.Proofs.Core.Transfers

namespace Handheld

/-! ## 1. What transfers reach -/

/-- What a slot can hold. -/
inductive Occupant (κ : Type) where
  | unit (unit : SystemControl)
  | device (device : κ)

namespace Occupant

variable {κ α : Type}

/-- One or the other is done, depending on what is there. -/
def use (unit : SystemControl → α × SystemControl) (device : κ → α × κ) :
    Occupant κ → α × Occupant κ
  | .unit s => ((unit s).1, .unit (unit s).2)
  | .device d => ((device d).1, .device (device d).2)

def unit? : Occupant κ → Option SystemControl
  | .unit s => some s
  | .device _ => none

def device? : Occupant κ → Option κ
  | .unit _ => none
  | .device d => some d

variable [Coprocessor κ]

instance : Coprocessor (Occupant κ) where
  read o r := o.use (Coprocessor.read · r) (Coprocessor.read · r)
  write o r v :=
    (o.use (fun s => ((), Coprocessor.write s r v)) fun d => ((), Coprocessor.write d r v)).2

/-- The transfers of a unit go to the unit, and it stays one. -/
theorem foldl_leaves_unit (ts : List RegisterTransfer) (s : SystemControl) :
    ts.foldl RegisterTransfer.leaves (.unit s : Occupant κ) =
      .unit (ts.foldl RegisterTransfer.leaves s) := by
  induction ts generalizing s with
  | nil => rfl
  | cons t ts ih => cases t <;> exact ih _

theorem foldl_leaves_device (ts : List RegisterTransfer) (d : κ) :
    ts.foldl RegisterTransfer.leaves (.device d : Occupant κ) =
      .device (ts.foldl RegisterTransfer.leaves d) := by
  induction ts generalizing d with
  | nil => rfl
  | cons t ts ih => cases t <;> exact ih _

end Occupant

namespace Core

variable {β κ σ α : Type}

/-! ## 2. What single operations do to a slot -/

/-- Slot `n` holds `o`, and neither of its two places anything else. -/
structure Holds (c : Core β κ σ) (n : Fin 16) (o : Option (Occupant κ)) : Prop where
  unit : (if n = 15 then c.systemControl else none) = o.bind Occupant.unit?
  device : c.coprocessors[n] = o.bind Occupant.device?

/-- Whatever another slot than `n` holds in `c`, it holds in `c'`. -/
def SameBeside (n : Fin 16) (c c' : Core β κ σ) : Prop :=
  ∀ m ≠ n, ∀ o, c.Holds m o → c'.Holds m o

theorem SameBeside.holds {c c' : Core β κ σ} {i n : Fin 16} {o o' : Option (Occupant κ)}
    (same : SameBeside i c c') (changed : c'.Holds i o') (h : c.Holds n o) :
    c'.Holds n (if n = i then o' else o) := by
  by_cases hn : n = i
  · subst hn
    rw [if_pos rfl]
    exact changed
  · rw [if_neg hn]
    exact same n hn o h

theorem holds_new [Bus β] (revision : Revision) (bus : β) (surroundings : σ) (n : Fin 16) :
    (new revision bus surroundings : Core β κ σ).Holds n none where
  unit := ite_self none
  device := Vector.getElem_replicate _

theorem Holds.of_keepsExcept {parts : List Part} {c c' : Core β κ σ} {n : Fin 16}
    {o : Option (Occupant κ)} (h : c.Holds n o) (kept : KeepsExcept parts c c')
    (unit : .systemControl ∉ parts) (table : .coprocessors ∉ parts) : c'.Holds n o := by
  have same_unit : c'.systemControl = c.systemControl := kept .systemControl unit
  have same_table : c'.coprocessors = c.coprocessors := kept .coprocessors table
  constructor
  · rw [same_unit]
    exact h.unit
  · rw [same_table]
    exact h.device

/-- Only slot 15 has a place for the unit. -/
theorem sameBeside_systemControl (c : Core β κ σ) (s : Option SystemControl) :
    SameBeside 15 c { c with systemControl := s } := by
  intro m hm o h
  have unit := h.unit
  rw [if_neg hm] at unit
  exact ⟨(if_neg hm).trans unit, h.device⟩

theorem sameBeside_coprocessors (c : Core β κ σ) (n : Fin 16) (d : Option κ) :
    SameBeside n c { c with coprocessors := c.coprocessors.set n d } := by
  intro m hm o h
  refine ⟨h.unit, ?_⟩
  have other : (n : Nat) ≠ m := fun e => hm (Fin.ext e.symm)
  have kept := h.device
  simp only [Fin.getElem_fin] at kept ⊢
  rw [Vector.getElem_set_ne _ _ other, kept]

/-- A transfer reaches what the slot holds, and only that. -/
theorem withCoprocessor_of_holds {c : Core β κ σ} {n : Fin 16} {o : Option (Occupant κ)}
    (h : c.Holds n o) (unit : SystemControl → α × SystemControl) (device : κ → α × κ) :
    ∃ c', withCoprocessor n unit device c = .ok (o.map fun d => (d.use unit device).1) c' ∧
      c'.Holds n (o.map fun d => (d.use unit device).2) ∧ SameBeside n c c' := by
  have unit_there : (if (n : Nat) = 15 then c.systemControl else none) =
      o.bind Occupant.unit? := by
    rw [← h.unit]
    exact if_congr (Fin.ext_iff (b := 15)).symm rfl rfl
  have device_there : c.coprocessors[(n : Nat)] = o.bind Occupant.device? := h.device
  unfold withCoprocessor
  rw [dif_pos n.isLt, bind_apply, get_apply]
  dsimp only
  rw [unit_there]
  cases o with
  | none =>
    dsimp only [Option.bind_none] at device_there ⊢
    rw [device_there]
    exact ⟨c, rfl, h, fun m _ o h => h⟩
  | some o =>
    cases o with
    | unit s =>
      -- no other slot has a place for the unit
      have last : n = 15 := by
        by_contra other
        have absent := h.unit
        rw [if_neg other] at absent
        cases absent
      subst last
      exact ⟨_, rfl, ⟨rfl, h.device⟩, sameBeside_systemControl c _⟩
    | device d =>
      dsimp only [Option.bind_some, Occupant.unit?, Occupant.device?] at device_there ⊢
      rw [device_there]
      exact ⟨_, rfl, ⟨h.unit, Vector.getElem_set_self _⟩, sameBeside_coprocessors c n _⟩

section Transfers

variable [Bus β] [Coprocessor κ] {c : Core β κ σ} {n : Fin 16} {o : Option (Occupant κ)}

theorem answer_readCoprocessor (h : c.Holds n o) (r : CoprocessorRegister) :
    ∃ c', answer (.readCoprocessor n r) c = .ok (o.map fun d => (Coprocessor.read d r).1) c' ∧
      c'.Holds n (o.map (RegisterTransfer.leaves · (.read r))) ∧ SameBeside n c c' :=
  withCoprocessor_of_holds h (Coprocessor.read · r) (Coprocessor.read · r)

theorem answer_writeCoprocessor (h : c.Holds n o) (r : CoprocessorRegister) (v : Word) :
    ∃ c', answer (.writeCoprocessor n r v) c = .ok o.isSome c' ∧
      c'.Holds n (o.map (RegisterTransfer.leaves · (.write r v))) ∧ SameBeside n c c' := by
  obtain ⟨c', reached, changed, beside⟩ := withCoprocessor_of_holds h
    (fun s => ((), Coprocessor.write s r v)) (fun d => ((), Coprocessor.write d r v))
  refine ⟨c', ?_, changed, beside⟩
  simp only [answer, bind_apply, reached, pure_apply, Option.isSome_map]

end Transfers

theorem withCoprocessor_of_missing {n : Nat} (missing : 16 ≤ n) (c : Core β κ σ)
    (unit : SystemControl → α × SystemControl) (device : κ → α × κ) :
    withCoprocessor n unit device c = .error (.fault (.noCoprocessor n)) c := by
  unfold withCoprocessor
  rw [dif_neg (Nat.not_lt.mpr missing)]
  rfl

/-- A device takes the place of whatever was in the slot, the unit included. -/
theorem holds_mapCoprocessor (c : Core β κ σ) (n : Fin 16) (d : κ) :
    ∃ c', mapCoprocessor n d c = .ok () c' ∧ c'.Holds n (some (.device d)) ∧
      SameBeside n c c' := by
  unfold mapCoprocessor
  rw [dif_pos n.isLt]
  refine ⟨_, rfl, ⟨?_, Vector.getElem_set_self _⟩, ?_⟩
  · by_cases last : n = 15
    · subst last
      rfl
    · exact if_neg last
  · intro m hm o h
    have put := sameBeside_coprocessors c n (some d) m hm o h
    by_cases last : n = 15
    · subst last
      exact sameBeside_systemControl _ none m hm o put
    · have other : (n : Nat) ≠ 15 := fun e => last (Fin.ext e)
      simp only [if_neg other]
      exact put

theorem mapCoprocessor_of_missing {n : Nat} (missing : 16 ≤ n) (c : Core β κ σ) (d : κ) :
    mapCoprocessor n d c = .error (.fault (.noCoprocessor n)) c := by
  unfold mapCoprocessor
  rw [dif_neg (Nat.not_lt.mpr missing)]
  rfl

/-- A fresh unit takes the place of whatever was in slot 15. -/
theorem holds_enableSystemControl (c : Core β κ σ) :
    c.enableSystemControl.Holds 15 (some (.unit .initial)) ∧
      SameBeside 15 c c.enableSystemControl := by
  constructor
  · exact ⟨rfl, Vector.getElem_set_self _⟩
  · intro m hm o h
    have emptied := sameBeside_coprocessors c 15 none m hm o h
    exact sameBeside_systemControl _ (some .initial) m hm o emptied

theorem vectorBase_congr {c c' : Core β κ σ} (h : c'.systemControl = c.systemControl) :
    c'.vectorBase = c.vectorBase := by
  rw [vectorBase, vectorBase, h]

/-! ## 3. What a move does to a slot -/

namespace Moment

/-- What the next thing puts into slot `n`. -/
def installs? (x : Moment β κ σ) (n : Fin 16) : Option (Occupant κ) :=
  match x.control with
  | .program (.ask (.mapCoprocessor i d) _) => if i = n then some (.device d) else none
  | .program (.ask .enableSystemControl _) => if 15 = n.val then some (.unit .initial) else none
  | _ => none

/-- The transfer that is made next through slot `n`. -/
def transfers? (x : Moment β κ σ) (n : Fin 16) : Option RegisterTransfer :=
  match x.control with
  | .program (.ask (.readCoprocessor i r) _) => if i = n then some (.read r) else none
  | .program (.ask (.writeCoprocessor i r v) _) => if i = n then some (.write r v) else none
  | _ => none

/-- The number of the slot that the next thing asks for, whether or not there is such a slot. -/
def slot? (x : Moment β κ σ) : Option Nat :=
  match x.control with
  | .program (.ask (.mapCoprocessor i _) _) | .program (.ask (.readCoprocessor i _) _)
  | .program (.ask (.writeCoprocessor i _ _) _) => some i
  | _ => none

/-- No unit is installed but a fresh one. -/
theorem installs?_unit {x : Moment β κ σ} {n : Fin 16} {s : SystemControl}
    (h : x.installs? n = some (.unit s)) : s = .initial := by
  unfold installs? at h
  split at h
  · split at h <;> cases h
  · split at h
    · cases h
      rfl
    · cases h
  · cases h

variable [Coprocessor κ]

/-- What the next thing makes of slot `n`, if that holds `o`. -/
def leavesIn (x : Moment β κ σ) (n : Fin 16) (o : Option (Occupant κ)) : Option (Occupant κ) :=
  (x.installs? n).or (o.map ((x.transfers? n).toList.foldl RegisterTransfer.leaves))

theorem leavesIn_of_idle {x : Moment β κ σ} {n : Fin 16} (installs : x.installs? n = none)
    (transfers : x.transfers? n = none) (o : Option (Occupant κ)) : x.leavesIn n o = o := by
  rw [leavesIn, installs, transfers]
  exact Option.map_id_apply

theorem leavesIn_of_installs {x : Moment β κ σ} {n i : Fin 16} {o' : Occupant κ}
    (installs : x.installs? n = if i.val = n then some o' else none)
    (transfers : x.transfers? n = none) (o : Option (Occupant κ)) :
    x.leavesIn n o = if n = i then some o' else o := by
  rw [leavesIn, installs, transfers]
  by_cases hn : n = i
  · simp [hn]
  · simp [hn, Fin.val_inj, eq_comm]

theorem leavesIn_of_transfers {x : Moment β κ σ} {n i : Fin 16} {t : RegisterTransfer}
    (installs : x.installs? n = none)
    (transfers : x.transfers? n = if i.val = n then some t else none)
    (held : Fin 16 → Option (Occupant κ)) :
    x.leavesIn n (held n) =
      if n = i then (held i).map (RegisterTransfer.leaves · t) else held n := by
  rw [leavesIn, installs, transfers]
  by_cases hn : n = i
  · simp [hn]
  · simp [hn, Fin.val_inj, eq_comm]

variable [Bus β]

/-- A request for a slot that does not exist is refused, and changes nothing. -/
theorem step_of_missing {x : Moment β κ σ} {i : Nat} (asks : x.slot? = some i)
    (missing : 16 ≤ i) :
    x.step = ⟨x.core, .stopped (.fault (.noCoprocessor i)), x.stack⟩ := by
  obtain ⟨c, control, K⟩ := x
  match control with
  | .program (.ask r next) =>
    cases r with
    | mapCoprocessor j d =>
      cases asks
      simp only [step, answer, mapCoprocessor_of_missing missing]
    | readCoprocessor j r =>
      cases asks
      simp only [step, answer, withCoprocessor_of_missing missing]
    | writeCoprocessor j r v =>
      cases asks
      simp only [step, answer, bind_apply, withCoprocessor_of_missing missing]
    | _ => cases asks
  | .stopped e | .round s next | .program (.done m) | .program (.install j hook next)
  | .program (.raise e next) | .program (.run limit s next) | .program (.consult next)
  | .program (.update change next) => cases asks

theorem step_ask {x : Moment β κ σ} {r : Request κ σ} {next : r.Reply → Program κ σ}
    {v : r.Reply} {c : Core β κ σ} (asks : x.control = .program (.ask r next))
    (answered : answer r x.core = .ok v c) : x.step = ⟨c, .program (next v), x.stack⟩ := by
  obtain ⟨c', control, K⟩ := x
  simp only at asks answered
  subst asks
  simp only [step, answered]

theorem slot_cases (i : Nat) : (∃ n : Fin 16, i = n) ∨ 16 ≤ i := by
  by_cases hi : i < 16
  · exact .inl ⟨⟨i, hi⟩, rfl⟩
  · exact .inr (Nat.not_lt.mp hi)

/-- A request is answered by a change to slot `i` alone. -/
theorem holds_step_ask (K : List (Frame κ σ)) {r : Request κ σ} {next : r.Reply → Program κ σ}
    {c c' : Core β κ σ} {v : r.Reply} {n i : Fin 16} {o o' : Option (Occupant κ)}
    (h : c.Holds n o) (answered : answer r c = .ok v c') (changed : c'.Holds i o')
    (beside : SameBeside i c c')
    (left : leavesIn ⟨c, .program (.ask r next), K⟩ n o = if n = i then o' else o) :
    (step ⟨c, .program (.ask r next), K⟩).core.Holds n
      (leavesIn ⟨c, .program (.ask r next), K⟩ n o) := by
  rw [left]
  simp only [step, answered]
  exact beside.holds changed h

/-- **What one step does to the slots.** -/
theorem holds_step {x : Moment β κ σ} {held : Fin 16 → Option (Occupant κ)}
    (h : ∀ n, x.core.Holds n (held n)) (n : Fin 16) :
    x.step.core.Holds n (x.leavesIn n (held n)) := by
  have untouched : .systemControl ∉ x.control.parts → .coprocessors ∉ x.control.parts →
      x.installs? n = none → x.transfers? n = none →
      x.step.core.Holds n (x.leavesIn n (held n)) := by
    intro unit table installs transfers
    rw [leavesIn_of_idle installs transfers]
    exact (h n).of_keepsExcept x.step_keeps unit table
  have missing : ∀ i, x.slot? = some i → 16 ≤ i → x.installs? n = none → x.transfers? n = none →
      x.step.core.Holds n (x.leavesIn n (held n)) := by
    intro i asks missing installs transfers
    rw [leavesIn_of_idle installs transfers, step_of_missing asks missing]
    exact h n
  obtain ⟨c, control, K⟩ := x
  match control with
  | .program (.ask r next) =>
    cases r with
    | mapCoprocessor i d =>
      rcases slot_cases i with ⟨i, rfl⟩ | hi
      · obtain ⟨c', answered, filled, beside⟩ := c.holds_mapCoprocessor i d
        exact holds_step_ask K (h n) answered filled beside (leavesIn_of_installs rfl rfl _)
      · exact missing i rfl hi (if_neg (by omega)) rfl
    | enableSystemControl =>
      obtain ⟨filled, beside⟩ := c.holds_enableSystemControl
      exact holds_step_ask K (h n) rfl filled beside (leavesIn_of_installs rfl rfl _)
    | readCoprocessor i r =>
      rcases slot_cases i with ⟨i, rfl⟩ | hi
      · obtain ⟨c', answered, changed, beside⟩ := answer_readCoprocessor (h i) r
        exact holds_step_ask K (h n) answered changed beside (leavesIn_of_transfers rfl rfl held)
      · exact missing i rfl hi rfl (if_neg (by omega))
    | writeCoprocessor i r v =>
      rcases slot_cases i with ⟨i, rfl⟩ | hi
      · obtain ⟨c', answered, changed, beside⟩ := answer_writeCoprocessor (h i) r v
        exact holds_step_ask K (h n) answered changed beside (leavesIn_of_transfers rfl rfl held)
      · exact missing i rfl hi rfl (if_neg (by omega))
    | _ => exact untouched (of_decide_eq_false rfl) (of_decide_eq_false rfl) rfl rfl
  | .stopped e | .round s next | .program (.done m) | .program (.install j hook next)
  | .program (.raise e next) | .program (.run limit s next) | .program (.consult next)
  | .program (.update change next) =>
    exact untouched (of_decide_eq_false rfl) (of_decide_eq_false rfl) rfl rfl

/-- A handler is entered by way of the vector base. -/
theorem pc_step_of_enters {x : Moment β κ σ} {e : Exception} (he : x.enters? = some e) :
    x.step.core.pc = x.core.vectorBase + e.vectorOffset := by
  obtain ⟨c, control, K⟩ := x
  match control with
  | .round s next =>
    rw [core_step_round]
    rcases round_cases c K s next with ⟨e', enters, -, core⟩ | ⟨enters, -⟩
    · rw [enters] at he
      cases he
      rw [core, enter_eq]
      rfl
    · rw [enters] at he
      cases he
  | .program (.raise e' next) =>
    have kept := c.keepsExcept_intercept e'
    have unit : (c.intercept e').1.systemControl = c.systemControl :=
      kept .systemControl (by decide)
    rcases hi : c.intercept e' with ⟨c', _ | ⟨i, hook⟩⟩
    · rw [hi] at unit
      simp only [enters?, hi] at he
      cases he
      simp only [step, hi, enter_eq, vectorBase_congr unit]
    · simp only [enters?, hi] at he
      cases he
  | .program (.ask r next) =>
    cases r with
    | reset =>
      cases he
      show c.reset.pc = _
      rw [reset, enter_eq]
      rfl
    | _ => cases he
  | .stopped s | .program (.done m) | .program (.install j hook next)
  | .program (.run limit s next) | .program (.consult next)
  | .program (.update change next) => cases he

end Moment

section Moves

variable [Bus β] [Coprocessor κ] {x y : Moment β κ σ}

theorem Moves.holds (h : Moves x y) {held : Fin 16 → Option (Occupant κ)}
    (before : ∀ n, x.core.Holds n (held n)) (n : Fin 16) :
    y.core.Holds n (x.leavesIn n (held n)) := by
  cases h with
  | step => exact Moment.holds_step before n
  | resume | recover =>
    rw [Moment.leavesIn_of_idle rfl rfl]
    exact before n

/-- What a program asks is answered before anything else is done. -/
theorem Moves.eq_step (h : Moves x y) {r : Request κ σ} {next : r.Reply → Program κ σ}
    (asks : x.control = .program (.ask r next)) : y = x.step := by
  cases h with
  | step => rfl
  | resume | recover => cases asks

theorem Moves.eq_of_missing (h : Moves x y) {i : Nat} (asks : x.slot? = some i)
    (missing : 16 ≤ i) : y = ⟨x.core, .stopped (.fault (.noCoprocessor i)), x.stack⟩ := by
  cases h with
  | step => exact Moment.step_of_missing asks missing
  | resume | recover => cases asks

theorem Moves.pc_of_enters (h : Moves x y) {e : Exception} (he : x.enters? = some e) :
    y.core.pc = x.core.vectorBase + e.vectorOffset := by
  cases h with
  | step => exact Moment.pc_step_of_enters he
  | resume | recover => cases he

end Moves

/-! ## 4. The history of a slot -/

section History

variable {path : Nat → Moment β κ σ} {n : Fin 16} {i k : Nat}

/-- Slot `n` was last filled before `i` at `k`, with `o`. -/
structure FilledLast (path : Nat → Moment β κ σ) (n : Fin 16) (i k : Nat) (o : Occupant κ) :
    Prop where
  before : k < i
  installs : (path k).installs? n = some o
  since : ∀ l, k < l → l < i → (path l).installs? n = none

theorem FilledLast.unique {k' : Nat} {o o' : Occupant κ} (h : FilledLast path n i k o)
    (h' : FilledLast path n i k' o') : k = k' ∧ o = o' := by
  have same : k = k' := by
    rcases Nat.lt_trichotomy k k' with lt | eq | gt
    · have later := h.since k' lt h'.before
      rw [h'.installs] at later
      cases later
    · exact eq
    · have later := h'.since k gt h.before
      rw [h.installs] at later
      cases later
  subst same
  exact ⟨rfl, Option.some.inj (h.installs.symm.trans h'.installs)⟩

theorem FilledLast.of_installs {o : Occupant κ} (h : (path i).installs? n = some o) :
    FilledLast path n (i + 1) i o where
  before := Nat.lt_succ_self i
  installs := h
  since l hl hli := by omega

theorem FilledLast.succ {o : Occupant κ} (h : FilledLast path n i k o)
    (idle : (path i).installs? n = none) : FilledLast path n (i + 1) k o where
  before := Nat.lt_succ_of_lt h.before
  installs := h.installs
  since l hl hli := by
    rcases Nat.lt_succ_iff_lt_or_eq.mp hli with hlt | rfl
    · exact h.since l hl hlt
    · exact idle

/-- The transfers through slot `n` after `k` and before `i`. -/
def transfersBetween (path : Nat → Moment β κ σ) (n : Fin 16) (k i : Nat) :
    List RegisterTransfer :=
  (List.range' (k + 1) (i - (k + 1))).filterMap fun l => (path l).transfers? n

theorem transfersBetween_succ (hk : k < i) :
    transfersBetween path n k (i + 1) =
      transfersBetween path n k i ++ ((path i).transfers? n).toList := by
  have longer : i + 1 - (k + 1) = i - (k + 1) + 1 := by omega
  have last : k + 1 + (i - (k + 1)) = i := by omega
  rw [transfersBetween, transfersBetween, longer, List.range'_1_concat, last,
    List.filterMap_append]
  cases hi : (path i).transfers? n <;> simp [hi]

theorem transfersBetween_self : transfersBetween path n i (i + 1) = [] := by
  rw [transfersBetween, Nat.sub_self]
  rfl

variable [Coprocessor κ]

/-- What the history of slot `n` has left in it at `i`. -/
inductive LeftIn (path : Nat → Moment β κ σ) (n : Fin 16) (i : Nat) : Option (Occupant κ) → Prop
  | empty (never : ∀ k < i, (path k).installs? n = none) : LeftIn path n i none
  | filled {k : Nat} {o : Occupant κ} (last : FilledLast path n i k o) :
    LeftIn path n i (some ((transfersBetween path n k i).foldl RegisterTransfer.leaves o))

/-- The history of a slot goes on with what is done next. -/
theorem LeftIn.succ {o : Option (Occupant κ)} (h : LeftIn path n i o) :
    LeftIn path n (i + 1) ((path i).leavesIn n o) := by
  unfold Moment.leavesIn
  cases installs : (path i).installs? n with
  | some o' =>
    -- what was there before is gone, with its transfers
    have fresh := LeftIn.filled (FilledLast.of_installs installs)
    rw [transfersBetween_self] at fresh
    exact fresh
  | none =>
    cases h with
    | empty never =>
      refine .empty fun k hk => ?_
      rcases Nat.lt_succ_iff_lt_or_eq.mp hk with hlt | rfl
      · exact never k hlt
      · exact installs
    | filled last =>
      have longer := LeftIn.filled (last.succ installs)
      rw [transfersBetween_succ last.before, List.foldl_append] at longer
      exact longer

/-- A unit was fresh when it came. -/
theorem LeftIn.unit_iff {o : Option (Occupant κ)} (h : LeftIn path n i o) {s : SystemControl} :
    o.bind Occupant.unit? = some s ↔
      ∃ k, FilledLast path n i k (.unit .initial) ∧
        (transfersBetween path n k i).foldl RegisterTransfer.leaves .initial = s := by
  cases h with
  | empty never =>
    constructor
    · nofun
    · rintro ⟨k, last, -⟩
      have unfilled := never k last.before
      rw [last.installs] at unfilled
      cases unfilled
  | @filled k o last =>
    cases o with
    | device d =>
      rw [Occupant.foldl_leaves_device]
      constructor
      · nofun
      · rintro ⟨k', last', -⟩
        cases (last.unique last').2
    | unit u =>
      have fresh := Moment.installs?_unit last.installs
      subst fresh
      rw [Occupant.foldl_leaves_unit]
      constructor
      · intro h
        exact ⟨k, last, Option.some.inj h⟩
      · rintro ⟨k', last', rfl⟩
        rw [(last.unique last').1]
        rfl

/-- The vector table lies at the top of the address space: the unit was what slot 15 was last
filled with, and bit 13 is set in what was last written to its control register since. -/
inductive HighVectors (path : Nat → Moment β κ σ) (i : Nat) : Prop
  | intro {k : Nat} {v : Word} (last : FilledLast path 15 i k (.unit .initial))
    (written : RegisterTransfer.lastControl? (transfersBetween path 15 k i) = some v)
    (high : Bits.get v 13 = true)

theorem systemControl_iff {o : Option (Occupant κ)} (left : LeftIn path 15 i o)
    (holds : (path i).core.Holds 15 o) (s : SystemControl) :
    (path i).core.systemControl = some s ↔
      ∃ k, FilledLast path 15 i k (.unit .initial) ∧
        (transfersBetween path 15 k i).foldl RegisterTransfer.leaves .initial = s := by
  have unit := holds.unit
  rw [if_pos rfl] at unit
  rw [unit]
  exact left.unit_iff

/-- The vector base goes by the history of slot 15. -/
theorem vectorBase_of_leftIn {o : Option (Occupant κ)} (left : LeftIn path 15 i o)
    (holds : (path i).core.Holds 15 o) :
    (HighVectors path i → (path i).core.vectorBase = 0xFFFF0000) ∧
      (¬HighVectors path i → (path i).core.vectorBase = 0) := by
  constructor
  · rintro ⟨last, written, high⟩
    have unit := (systemControl_iff left holds _).mpr ⟨_, last, rfl⟩
    unfold vectorBase
    rw [unit]
    refine if_pos ?_
    rw [SystemControl.control_foldl_leaves, written]
    exact high
  · intro low
    unfold vectorBase
    cases unit : (path i).core.systemControl with
    | none => rfl
    | some s =>
      obtain ⟨k, last, rfl⟩ := (systemControl_iff left holds s).mp unit
      refine if_neg fun high => ?_
      rw [SystemControl.control_foldl_leaves] at high
      cases written : RegisterTransfer.lastControl? (transfersBetween path 15 k i) with
      | none =>
        -- nothing was written, and bit 13 of a fresh unit is clear
        rw [written] at high
        exact absurd high (by decide)
      | some v =>
        rw [written] at high
        exact low ⟨last, written, high⟩

end History

/-! ## 5. Sessions -/

variable [Bus β] [Coprocessor κ] {path : Nat → Moment β κ σ} {revision : Revision} {bus : β}
  {surroundings : σ} {p : Program κ σ}

/-- By induction on the moves, the slots hold what their histories have left in them. -/
theorem exists_leftIn (hp : Path path) (h0 : path 0 = .start (.new revision bus surroundings) p)
    (i : Nat) :
    ∃ held : Fin 16 → Option (Occupant κ),
      (∀ n, LeftIn path n i (held n)) ∧ ∀ n, (path i).core.Holds n (held n) := by
  induction i with
  | zero =>
    refine ⟨fun _ => none, fun n => .empty nofun, fun n => ?_⟩
    rw [h0]
    exact holds_new revision bus surroundings n
  | succ i ih =>
    obtain ⟨held, left, holds⟩ := ih
    exact ⟨_, fun n => (left n).succ, (hp i).holds holds⟩

/-- **The coprocessor slots and the vector base follow the last installation.**  Each of the
sixteen slots holds what its own history has left in it -- what was last put there, after the
transfers made through the slot since -- and answers transfers with that; nothing else changes
it.  A request for any other slot is refused and changes nothing.  The system control unit is
there if it was the last to come into slot 15, and every handler is entered at the top of the
address space if it is and bit 13 is set in what was last written to its control register. -/
theorem coprocessors_last_installed (hp : Path path)
    (h0 : path 0 = .start (.new revision bus surroundings) p) (i : Nat) :
    (∀ n, ∃ o, LeftIn path n i o ∧ (path i).core.Holds n o ∧
      (∀ r next, (path i).control = .program (.ask (.readCoprocessor n r) next) →
        (path (i + 1)).control = .program (next (o.map fun d => (Coprocessor.read d r).1))) ∧
      (∀ r v next, (path i).control = .program (.ask (.writeCoprocessor n r v) next) →
        (path (i + 1)).control = .program (next o.isSome)) ∧
      ((path i).installs? n = none → (path i).transfers? n = none →
        (path (i + 1)).core.Holds n o)) ∧
    (∀ n, 16 ≤ n → (path i).slot? = some n →
      path (i + 1) = ⟨(path i).core, .stopped (.fault (.noCoprocessor n)), (path i).stack⟩) ∧
    ((path i).core.systemControl.isSome ↔ ∃ k, FilledLast path 15 i k (.unit .initial)) ∧
    ∀ e, (path i).enters? = some e →
      (HighVectors path i → (path (i + 1)).core.pc = 0xFFFF0000 + e.vectorOffset) ∧
      (¬HighVectors path i → (path (i + 1)).core.pc = e.vectorOffset) := by
  obtain ⟨held, left, holds⟩ := exists_leftIn hp h0 i
  have presence := systemControl_iff (left 15) (holds 15)
  obtain ⟨high, low⟩ := vectorBase_of_leftIn (left 15) (holds 15)
  refine ⟨fun n => ⟨held n, left n, holds n, ?_, ?_, ?_⟩, ?_, ?_, ?_⟩
  · intro r next asks
    obtain ⟨c', answered, -⟩ := answer_readCoprocessor (holds n) r
    rw [(hp i).eq_step asks, Moment.step_ask asks answered]
  · intro r v next asks
    obtain ⟨c', answered, -⟩ := answer_writeCoprocessor (holds n) r v
    rw [(hp i).eq_step asks, Moment.step_ask asks answered]
  · intro installs transfers
    have kept := (hp i).holds holds n
    rw [Moment.leavesIn_of_idle installs transfers] at kept
    exact kept
  · intro n missing asks
    exact (hp i).eq_of_missing asks missing
  · rw [Option.isSome_iff_exists]
    constructor
    · rintro ⟨s, unit⟩
      obtain ⟨k, last, -⟩ := (presence s).mp unit
      exact ⟨k, last⟩
    · rintro ⟨k, last⟩
      exact ⟨_, (presence _).mpr ⟨k, last, rfl⟩⟩
  · intro e enters
    rw [(hp i).pc_of_enters enters]
    constructor
    · intro h
      rw [high h]
    · intro h
      rw [low h]
      exact BitVec.zero_add _

/-- A device in slot 15 gives way to the unit, whose control register then moves the vectors. -/
theorem coprocessors_last_installed_high :
    ∃ path : Nat → Moment Ram SystemControl Unit, Path path ∧
      (path 1).core.Holds 15 (some (.device ⟨1, 2, 3⟩)) ∧ (path 1).core.systemControl = none ∧
      (path 3).core.systemControl.isSome ∧ (path 3).enters? = some .irq ∧
      (path 4).core.pc = 0xFFFF0018 := by
  let path : Nat → Moment Ram SystemControl Unit := fun i => Moment.step^[i]
    (.start (.new .v5 ⟨#[0], 0⟩ ()) <| .ask (.mapCoprocessor 15 ⟨1, 2, 3⟩) fun _ =>
      .ask .enableSystemControl fun _ => .ask (.writeCoprocessor 15 ⟨0, 1, 0, 0⟩ 0x2000) fun _ =>
        .raise .irq (.done 0))
  have moves : Path path := path_iterate _
  have last : FilledLast path 15 3 1 (.unit .initial) := by
    refine ⟨by omega, rfl, fun l hl hl3 => ?_⟩
    have hl2 : l = 2 := by omega
    subst hl2
    rfl
  have written : RegisterTransfer.lastControl? (transfersBetween path 15 1 3) = some 0x2000 := rfl
  have high : HighVectors path 3 := ⟨last, written, rfl⟩
  obtain ⟨-, -, presence, vectors⟩ := coprocessors_last_installed moves rfl 3
  refine ⟨path, moves, ⟨rfl, rfl⟩, rfl, presence.mpr ⟨1, last⟩, rfl, ?_⟩
  exact (vectors .irq rfl).1 high

end Core
end Handheld
