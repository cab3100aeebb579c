/-
# Transfers beside each other

A controller serves any number of transfers, which share its pen and its memory.  Whatever
happens in between, a transfer gets from the controller what it would get alone,
`exchanges_eq_trace`: for each byte that it is offered it matters what the pen and the memory are
then, and nothing else matters.  Of these two only conversions take notice, and of the memory
only the calibration, `answer_eq_reading`.

* `conversions_isolated`: both bytes of a conversion are settled when its command is offered.
-/
import Mathlib.Data.List.Forall2
import Handheld.Proofs.Touch.Framing

namespace Handheld
namespace Touch

variable {μ ν : Type}

/-! ## 1. What a conversion takes notice of -/

/-- What a command is answered with: the bytes of a sample that is made of the pen and the
calibration. -/
def reading (c : Command) (pen : Pen) (k : Calibration) : Byte × Byte :=
  frame c <|
    if c.channel = 1 then
      if pen.down then k.sampleY pen.y.toInt else 0xFFF
    else if c.channel = 5 then
      if pen.down then k.sampleX pen.x.toInt else 0
    else midScale

/-- The bytes of the user settings that hold the calibration. -/
def settings [Peek μ] (memory : μ) : List Byte :=
  (List.range 12).map fun i => Peek.peek8 memory (Calibration.setting (BitVec.ofNat 32 (0x58 + i)))

theorem read_congr [Peek μ] [Peek ν] {m : μ} {m' : ν} (h : settings m = settings m') :
    Calibration.read m = Calibration.read m' := by
  have byte : ∀ i < 12, Peek.peek8 m (Calibration.setting (BitVec.ofNat 32 (0x58 + i))) =
      Peek.peek8 m' (Calibration.setting (BitVec.ofNat 32 (0x58 + i))) := fun i hi =>
    List.map_inj_left.mp h i (List.mem_range.mpr hi)
  have half : ∀ i < 11, Peek.peek16 m (Calibration.setting (BitVec.ofNat 32 (0x58 + i))) =
      Peek.peek16 m' (Calibration.setting (BitVec.ofNat 32 (0x58 + i))) := by
    intro i hi
    have successor : Calibration.setting (BitVec.ofNat 32 (0x58 + i)) + 1 =
        Calibration.setting (BitVec.ofNat 32 (0x58 + (i + 1))) := by
      unfold Calibration.setting
      rw [BitVec.add_assoc, ← Nat.add_assoc, BitVec.ofNat_add (0x58 + i) 1]
      rfl
    unfold Peek.peek16
    rw [successor, byte i (by omega), byte (i + 1) (by omega)]
  unfold Calibration.read
  rw [Calibration.mk.injEq]
  exact ⟨half 0 (by decide), half 2 (by decide), byte 4 (by decide), byte 5 (by decide),
    half 6 (by decide), half 8 (by decide), byte 10 (by decide), byte 11 (by decide)⟩

theorem answer_eq_reading [Peek μ] (o : Offer μ) :
    o.answer = reading o.command o.pen (Calibration.read o.memory) := rfl

/-- Two offers that nobody can tell apart by what is answered to them: they have the same byte,
and if it makes the transfer convert, the same pen and the same calibration. -/
structure Alike [Peek μ] [Peek ν] (x : Exchange μ) (x' : Exchange ν) : Prop where
  byte : x.byte = x'.byte
  pen : x.converts = true → x.pen = x'.pen
  settings : x.converts = true → settings x.memory = settings x'.memory

/-! ## 2. The bytes of a single transfer -/

section Trace

variable [Peek μ] [Peek ν]

/-- A transfer that is loaded sends both halves of its sample. -/
theorem replies_of_loaded (first second : Byte) (os : List (Offer μ)) :
    (∀ y, ((Transfer.sending first second false).trace os)[0]? = some y → y.reply = first) ∧
      ∀ z, ((Transfer.sending first second false).trace os)[1]? = some z → z.reply = second := by
  rcases os with _ | ⟨o, _ | ⟨o', os⟩⟩
  · exact ⟨nofun, nofun⟩
  · refine ⟨?_, nofun⟩
    rintro y ⟨⟩
    rfl
  · constructor
    · rintro y ⟨⟩
      rfl
    · rintro z ⟨⟩
      rfl

/-- The two bytes of a conversion are the replies to the next two offers. -/
theorem replies_of_converts (t : Transfer) (os : List (Offer μ)) {k : Nat} {x : Exchange μ}
    (hx : (t.trace os)[k]? = some x) (converts : x.converts = true) :
    (∀ y, (t.trace os)[k + 1]? = some y → y.reply = x.answer.1) ∧
      ∀ z, (t.trace os)[k + 2]? = some z → z.reply = x.answer.2 := by
  induction os generalizing t k with
  | nil => cases hx
  | cons o os ih =>
    rw [Transfer.trace_cons] at hx ⊢
    cases k with
    | zero =>
      cases hx
      have load : t.next o = .sending o.answer.1 o.answer.2 false := by
        rw [Transfer.next_eq, if_pos converts]
      rw [load]
      exact replies_of_loaded o.answer.1 o.answer.2 os
    | succ k => exact ih (t.next o) hx

/-- How many bytes of its last sample a transfer has still to send. -/
def Transfer.outstanding : Transfer → Nat
  | .sending _ _ false => 2
  | .sending _ _ true => 1
  | .idle | .drained => 0

theorem reply_of_outstanding {t : Transfer} (h : t.outstanding = 0) : t.reply = 0 := by
  rcases t with _ | ⟨first, second, _ | _⟩ | _
  · rfl
  · cases h
  · cases h
  · rfl

theorem outstanding_next (t : Transfer) (o : Offer μ) :
    (t.next o).outstanding = if t.listens && o.starts then 2 else t.outstanding - 1 := by
  rw [Transfer.next_eq]
  split
  · rfl
  · rcases t with _ | ⟨first, second, _ | _⟩ | _
    all_goals rfl

/-- Unless one of the last two offers was converted for, a transfer sends zero. -/
theorem reply_of_not_converts (t : Transfer) (os : List (Offer μ)) {k : Nat} {y : Exchange μ}
    (hy : (t.trace os)[k]? = some y) (sent : t.outstanding ≤ k)
    (none : ∀ j x, (t.trace os)[j]? = some x → x.converts = true → k ≠ j + 1 ∧ k ≠ j + 2) :
    y.reply = 0 := by
  induction os generalizing t k with
  | nil => cases hy
  | cons o os ih =>
    rw [Transfer.trace_cons] at hy none
    cases k with
    | zero =>
      cases hy
      exact reply_of_outstanding (Nat.le_zero.mp sent)
    | succ k =>
      have later : (t.next o).outstanding ≤ k := by
        rw [outstanding_next]
        split
        · rename_i taken
          obtain ⟨not_next, not_second⟩ := none 0 _ rfl taken
          omega
        · omega
      refine ih (t.next o) hy later fun j x hx converts => ?_
      obtain ⟨not_next, not_second⟩ := none (j + 1) x hx converts
      omega

/-- Offers that are alike are answered alike. -/
theorem replies_of_alike (t : Transfer) (os : List (Offer μ)) (os' : List (Offer ν))
    (h : List.Forall₂ Alike (t.trace os) (t.trace os')) :
    (t.trace os).map (·.reply) = (t.trace os').map (·.reply) := by
  induction os generalizing t os' with
  | nil =>
    cases os' with
    | nil => rfl
    | cons o' os' => cases h
  | cons o os ih =>
    cases os' with
    | nil => cases h
    | cons o' os' =>
      rw [Transfer.trace_cons, Transfer.trace_cons] at h ⊢
      obtain ⟨⟨byte, pen, settings⟩, rest⟩ := List.forall₂_cons.mp h
      have command : o.command = o'.command := congrArg Command.mk byte
      have starts : o.starts = o'.starts := congrArg Command.start command
      have same : t.next o = t.next o' := by
        rw [Transfer.next_eq, Transfer.next_eq, ← starts]
        split
        · rename_i taken
          have answer : o.answer = o'.answer := by
            rw [answer_eq_reading, answer_eq_reading, command, read_congr (settings taken)]
            exact congrArg (reading _ · _) (pen taken)
          rw [answer]
        · rfl
      rw [List.map_cons, List.map_cons, ih (t.next o) os' (same ▸ rest), same]

end Trace

/-! ## 3. The transfers of a controller -/

namespace Controller

section Transfers

/-- What transfer number `id` holds while it is open. -/
def transfer? (s : Controller μ) (id : Nat) : Option Transfer := s.transfers.getD id none

theorem transfer?_eq_none {s : Controller μ} {id : Nat} (h : s.transfers.size ≤ id) :
    s.transfer? id = none := by
  unfold transfer?
  rw [Array.getD_eq_getD_getElem?, Array.getElem?_eq_none h, Option.getD_none]

theorem lt_size_of_open {s : Controller μ} {id : Nat} {t : Transfer}
    (h : s.transfer? id = some t) : id < s.transfers.size := by
  by_contra outside
  rw [transfer?_eq_none (Nat.le_of_not_lt outside)] at h
  cases h

theorem transfer?_begin (s : Controller μ) (id : Nat) :
    s.begin.2.transfer? id =
      if id = s.transfers.size then some .idle else s.transfer? id := by
  simp only [transfer?, begin, Array.getD_eq_getD_getElem?, Array.getElem?_push]
  split
  · rfl
  · rfl

theorem transfer?_close (s : Controller μ) (i id : Nat) :
    (s.close i).2.transfer? id = if i = id then none else s.transfer? id := by
  simp only [transfer?, close, Array.getD_eq_getD_getElem?, Array.getElem?_setIfInBounds]
  split
  · split
    · rfl
    · rfl
  · rfl

variable [Peek μ]

theorem exchange_of_open {s : Controller μ} {id : Nat} {t : Transfer} (h : s.transfer? id = some t)
    (b : Byte) :
    s.exchange id b = (some t.reply, ⟨s.pen, s.memory,
      s.transfers.setIfInBounds id (some (t.next ⟨b, s.pen, s.memory⟩))⟩) := by
  have one := t.exchange_eq (⟨b, s.pen, s.memory⟩ : Offer μ)
  unfold transfer? at h
  unfold exchange
  dsimp only at one
  rw [h]
  dsimp only
  rw [one, ← Transfer.next_eq]

theorem exchange_of_not_open {s : Controller μ} {id : Nat} (h : s.transfer? id = none) (b : Byte) :
    s.exchange id b = (none, s) := by
  unfold transfer? at h
  unfold exchange
  rw [h]

theorem transfer?_exchange (s : Controller μ) (i : Nat) (b : Byte) (id : Nat) :
    (s.exchange i b).2.transfer? id =
      if i = id then (s.transfer? id).map (·.next ⟨b, s.pen, s.memory⟩) else s.transfer? id := by
  cases h : s.transfer? i with
  | none =>
    rw [exchange_of_not_open h]
    split
    · rename_i here
      rw [← here, h]
      rfl
    · rfl
  | some t =>
    have inside := lt_size_of_open h
    rw [exchange_of_open h]
    simp only [transfer?, Array.getD_eq_getD_getElem?, Array.getElem?_setIfInBounds, inside,
      if_true] at h ⊢
    split
    · rename_i here
      rw [← here, h]
      rfl
    · rfl

theorem size_exchange (s : Controller μ) (i : Nat) (b : Byte) :
    (s.exchange i b).2.transfers.size = s.transfers.size := by
  cases h : s.transfer? i with
  | none => rw [exchange_of_not_open h]
  | some t =>
    rw [exchange_of_open h]
    exact Array.size_setIfInBounds

end Transfers

end Controller

/-! ## 4. Histories of a controller -/

/-- What can happen to a controller and its memory. -/
inductive Event where
  | begin
  | offer (id : Nat) (b : Byte)
  | close (id : Nat)
  | setPen (down : Bool) (x y : Word)
  | poke (a : Word) (b : Byte)
  deriving DecidableEq

namespace Controller

variable [Peek μ]

/-- What an event exchanges on transfer number `id`. -/
def exchange? (s : Controller μ) (id : Nat) : Event → Option (Exchange μ)
  | .offer i b =>
    if i = id then
      (s.exchange i b).1.map fun reply =>
        ⟨⟨b, s.pen, s.memory⟩, reply, ((s.exchange i b).2.transfer? id).any (·.loaded)⟩
    else none
  | .begin | .close _ | .setPen _ _ _ | .poke _ _ => none

/-- An offer to an open transfer. -/
theorem exchange?_of_open {s : Controller μ} {id : Nat} {t : Transfer}
    (h : s.transfer? id = some t) (b : Byte) :
    s.exchange? id (.offer id b) = some ⟨⟨b, s.pen, s.memory⟩, t.reply,
      t.listens && (⟨b, s.pen, s.memory⟩ : Offer μ).starts⟩ := by
  have later := transfer?_exchange s id b id
  rw [if_pos rfl, h] at later
  have reply := congrArg Prod.fst (exchange_of_open h b)
  simp only [exchange?, if_true, reply, later, Option.map_some, Option.any_some,
    Transfer.loaded_next]

theorem exchange?_of_not_open {s : Controller μ} {id : Nat} (h : s.transfer? id = none)
    (e : Event) : s.exchange? id e = none := by
  cases e with
  | offer i b =>
    unfold exchange?
    dsimp only
    split
    · rename_i here
      rw [here, exchange_of_not_open h]
      rfl
    · rfl
  | begin | close _ | setPen _ _ _ | poke _ _ => rfl

variable [Bus μ]

/-- Where an event leads. -/
def after (s : Controller μ) : Event → Controller μ
  | .begin => s.begin.2
  | .offer id b => (s.exchange id b).2
  | .close id => (s.close id).2
  | .setPen down x y => s.setPen down x y
  | .poke a b => s.poke a b

/-- All that is exchanged on transfer number `id`. -/
def exchanges (id : Nat) : Controller μ → List Event → List (Exchange μ)
  | _, [] => []
  | s, e :: es => (s.exchange? id e).toList ++ (s.after e).exchanges id es

theorem exchanges_cons_of_none {s : Controller μ} {id : Nat} {e : Event}
    (h : s.exchange? id e = none) (es : List Event) :
    s.exchanges id (e :: es) = (s.after e).exchanges id es := by
  rw [exchanges, h, Option.toList_none, List.nil_append]

/-- A closed transfer stays closed, since no number is given out twice. -/
theorem exchanges_of_closed {s : Controller μ} {id : Nat} (closed : s.transfer? id = none)
    (begun : id < s.transfers.size) (es : List Event) : s.exchanges id es = [] := by
  induction es generalizing s with
  | nil => rfl
  | cons e es ih =>
    rw [exchanges_cons_of_none (exchange?_of_not_open closed e)]
    cases e with
    | begin =>
      have later := transfer?_begin s id
      rw [if_neg (Nat.ne_of_lt begun), closed] at later
      exact ih later (Nat.lt_of_lt_of_eq (Nat.lt_succ_of_lt begun) (Array.size_push _).symm)
    | offer i b =>
      have later := transfer?_exchange s i b id
      rw [closed, Option.map_none, ite_self] at later
      exact ih later ((size_exchange s i b).symm ▸ begun)
    | close i =>
      have later := transfer?_close s i id
      rw [closed, ite_self] at later
      exact ih later (Nat.lt_of_lt_of_eq begun Array.size_setIfInBounds.symm)
    | setPen down x y => exact ih (s := s.setPen down x y) closed begun
    | poke a b => exact ih (s := s.poke a b) closed begun

/-- **An open transfer exchanges what it would exchange alone.** -/
theorem exchanges_of_open {s : Controller μ} {id : Nat} {t : Transfer} (h : s.transfer? id = some t)
    (es : List Event) : s.exchanges id es = t.trace ((s.exchanges id es).map (·.toOffer)) := by
  induction es generalizing s t with
  | nil => rfl
  | cons e es ih =>
    cases e with
    | begin =>
      rw [exchanges_cons_of_none rfl]
      have later := transfer?_begin s id
      rw [if_neg (Nat.ne_of_lt (lt_size_of_open h)), h] at later
      exact ih later
    | offer i b =>
      have later := transfer?_exchange s i b id
      by_cases here : i = id
      · subst here
        rw [if_pos rfl, h, Option.map_some] at later
        rw [exchanges, exchange?_of_open h, Option.toList_some, List.singleton_append,
          List.map_cons, Transfer.trace_cons]
        exact congrArg _ (ih later)
      · rw [if_neg here, h] at later
        rw [exchanges_cons_of_none (by rw [exchange?, if_neg here])]
        exact ih later
    | close i =>
      rw [exchanges_cons_of_none rfl]
      have later := transfer?_close s i id
      by_cases here : i = id
      · rw [if_pos here] at later
        have gone : (s.after (.close i)).exchanges id es = [] := exchanges_of_closed later
          (Nat.lt_of_lt_of_eq (lt_size_of_open h) Array.size_setIfInBounds.symm) es
        rw [gone]
        rfl
      · rw [if_neg here, h] at later
        exact ih later
    | setPen down x y => exact ih (s := s.setPen down x y) h
    | poke a b => exact ih (s := s.poke a b) h

/-- A transfer that is yet to begin does so idle. -/
theorem exchanges_eq_trace {s : Controller μ} {id : Nat} (fresh : s.transfers.size ≤ id)
    (es : List Event) :
    s.exchanges id es = Transfer.idle.trace ((s.exchanges id es).map (·.toOffer)) := by
  induction es generalizing s with
  | nil => rfl
  | cons e es ih =>
    rw [exchanges_cons_of_none (exchange?_of_not_open (transfer?_eq_none fresh) e)]
    cases e with
    | begin =>
      have later := transfer?_begin s id
      by_cases here : id = s.transfers.size
      · rw [if_pos here] at later
        exact exchanges_of_open later es
      · exact ih (Nat.le_trans (Nat.le_of_eq (Array.size_push _)) (by omega))
    | offer i b => exact ih (Nat.le_trans (Nat.le_of_eq (size_exchange s i b)) fresh)
    | close i => exact ih (Nat.le_trans (Nat.le_of_eq Array.size_setIfInBounds) fresh)
    | setPen down x y => exact ih (s := s.setPen down x y) fresh
    | poke a b => exact ih (s := s.poke a b) fresh

end Controller

/-- **Conversions are isolated.**  In every history of a controller, with any number of transfers,
the two bytes that come back for a command are made of its bits and of the pen and the
calibration that were there when it was offered; everything else that is sent is zero.  So two
transfers, of whatever controllers, whose offers are alike are answered alike, whatever happens to
the pen, the memory and the other transfers. -/
theorem conversions_isolated [Bus μ] [Peek μ] [Bus ν] [Peek ν] (memory : μ) (es : List Event)
    (id : Nat) :
    let xs := (Controller.new memory).exchanges id es
    (∀ k x, xs[k]? = some x → x.converts = true →
      (∀ y, xs[k + 1]? = some y →
        y.reply = (reading x.command x.pen (Calibration.read x.memory)).1) ∧
      ∀ z, xs[k + 2]? = some z →
        z.reply = (reading x.command x.pen (Calibration.read x.memory)).2) ∧
    (∀ k y, xs[k]? = some y →
      (∀ j x, xs[j]? = some x → x.converts = true → k ≠ j + 1 ∧ k ≠ j + 2) → y.reply = 0) ∧
    ∀ (memory' : ν) (es' : List Event) (id' : Nat),
      let xs' := (Controller.new memory').exchanges id' es'
      List.Forall₂ Alike xs xs' → xs.map (·.reply) = xs'.map (·.reply) := by
  have alone := Controller.exchanges_eq_trace (s := Controller.new memory) (Nat.zero_le id) es
  dsimp only
  rw [alone]
  refine ⟨fun k x hx converts => replies_of_converts .idle _ hx converts,
    fun k y hy none => reply_of_not_converts .idle _ hy (Nat.zero_le k) none, ?_⟩
  intro memory' es' id' alike
  have alone' := Controller.exchanges_eq_trace (s := Controller.new memory') (Nat.zero_le id') es'
  rw [alone'] at alike ⊢
  exact replies_of_alike .idle _ _ alike

/-- Two chained conversions.  Between each command and its bytes the pen is lifted or the
calibration is overwritten, and another transfer is begun, used and closed; the second command
finds the pen back and the calibration changed.  A controller that goes through the same without
any of that in between answers the same. -/
theorem conversions_isolated_chained :
    ∃ (memory : Ram) (es es' : List Event),
      let xs := (Controller.new memory).exchanges 0 es
      let xs' := (Controller.new memory).exchanges 0 es'
      (∃ x y z, xs[0]? = some x ∧ xs[1]? = some y ∧ xs[2]? = some z ∧
        x.converts = true ∧ y.reply = 0x03 ∧ z.reply = 0x20 ∧ z.converts = true) ∧
      (∃ y z, xs[3]? = some y ∧ xs[4]? = some z ∧ y.reply = 0x02 ∧ z.reply = 0xD0) ∧
      (∃ x, xs[0]? = some x ∧ x.reply = 0) ∧
      List.Forall₂ Alike xs xs' ∧ xs.map (·.reply) = xs'.map (·.reply) := by
  let held (adcX1 : Byte) : Ram :=
    ⟨#[176, 0, 240, 176, 0, 0, 0, 0, adcX1, 0, 16, 0, 16, 16, 240, 0], 0⟩
  let pen : Pen := ⟨100, 60, true⟩
  let es : List Event := [.setPen true 100 60, .begin, .begin, .offer 0 0xD0, .setPen false 0 0,
    .offer 1 0xD0, .offer 0 0x00, .poke 0x3FFCD8 0, .setPen true 100 60, .offer 0 0xD0, .close 1,
    .poke 0x3FFCD8 255, .setPen true 7 9, .offer 0 0x00, .offer 0 0x00]
  let es' : List Event := [.begin, .setPen true 100 60, .offer 0 0xD0, .offer 0 0x00,
    .poke 0x3FFCD8 0, .offer 0 0xD0, .offer 0 0x00, .offer 0 0x00]
  have known : (Controller.new (held 16)).exchanges 0 es = [⟨⟨0xD0, pen, held 16⟩, 0x00, true⟩,
      ⟨⟨0x00, .lifted, held 16⟩, 0x03, false⟩, ⟨⟨0xD0, pen, held 0⟩, 0x20, true⟩,
      ⟨⟨0x00, ⟨7, 9, true⟩, held 255⟩, 0x02, false⟩,
      ⟨⟨0x00, ⟨7, 9, true⟩, held 255⟩, 0xD0, false⟩] := by decide +kernel
  have known' : (Controller.new (held 16)).exchanges 0 es' = [⟨⟨0xD0, pen, held 16⟩, 0x00, true⟩,
      ⟨⟨0x00, pen, held 16⟩, 0x03, false⟩, ⟨⟨0xD0, pen, held 0⟩, 0x20, true⟩,
      ⟨⟨0x00, pen, held 0⟩, 0x02, false⟩, ⟨⟨0x00, pen, held 0⟩, 0xD0, false⟩] := by decide +kernel
  obtain ⟨halves, zero, same⟩ := conversions_isolated (ν := Ram) (held 16) es 0
  have same := same (held 16) es' 0
  rw [known] at halves zero same
  rw [known'] at same
  refine ⟨held 16, es, es', ?_⟩
  rw [known, known']
  obtain ⟨first, second⟩ := halves 0 _ rfl rfl
  obtain ⟨third, fourth⟩ := halves 2 _ rfl rfl
  refine ⟨⟨_, _, _, rfl, rfl, rfl, rfl, (first _ rfl).trans (by decide +kernel),
    (second _ rfl).trans (by decide +kernel), rfl⟩, ⟨_, _, rfl, rfl,
    (third _ rfl).trans (by decide +kernel), (fourth _ rfl).trans (by decide +kernel)⟩,
    ⟨_, rfl, zero 0 _ rfl fun j x _ _ => ⟨by omega, by omega⟩⟩, ?alike, same ?alike⟩
  exact .cons ⟨rfl, fun _ => rfl, fun _ => rfl⟩ <| .cons ⟨rfl, nofun, nofun⟩ <|
    .cons ⟨rfl, fun _ => rfl, fun _ => rfl⟩ <| .cons ⟨rfl, nofun, nofun⟩ <|
    .cons ⟨rfl, nofun, nofun⟩ .nil

end Touch
end Handheld
