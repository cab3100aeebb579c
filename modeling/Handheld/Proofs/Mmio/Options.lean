/-
# The options of a tag

A tag is a list of options, written one after another with commas between them.  Keys have no
comma and no equals sign, and values have no comma, so that nothing is lost in the writing:
what is between two commas is one option, and its first equals sign ends the key.

* `tokens_ofTokens`, `ofTokens_tokens`: options are read back from the tag that is made of them,
  and every tag is made of its options;
* `get_eq_iff`: what is looked up is the value of the first option with the key;
* `options_decoded`: the three together.
-/
import Handheld.Mmio.Tag
import Mathlib.Logic.ExistsUnique

namespace Handheld

/-! ## 1. Cutting -/

namespace Split

variable {sep : Char} {cs front rest : List Char}

/-- A text without a cut in it has no separator. -/
theorem cut_eq_none_iff : cut sep cs = (front, none) ↔ sep ∉ front ∧ cs = front := by
  by_cases h : sep ∈ cs
  · obtain ⟨before, after, rfl, first⟩ := List.eq_append_cons_of_mem h
    rw [cut_append first]
    simp only [Prod.mk.injEq, reduceCtorEq, and_false, false_iff, not_and]
    rintro absent rfl
    exact absent h
  · rw [cut_eq_self h]
    constructor
    · rintro ⟨⟩
      exact ⟨h, rfl⟩
    · rintro ⟨-, rfl⟩
      rfl

/-- A text is cut at its first separator. -/
theorem cut_eq_some_iff :
    cut sep cs = (front, some rest) ↔ sep ∉ front ∧ cs = front ++ sep :: rest := by
  constructor
  · intro h
    by_cases mem : sep ∈ cs
    · obtain ⟨before, after, rfl, first⟩ := List.eq_append_cons_of_mem mem
      rw [cut_append first] at h
      cases h
      exact ⟨first, rfl⟩
    · rw [cut_eq_self mem] at h
      cases h
  · rintro ⟨absent, rfl⟩
    exact cut_append absent rest

end Split

namespace Tag

/-! ## 2. Options -/

namespace Token

/-- How an option is written. -/
def spelling (o : Token) : List Char :=
  match o.value with
  | some v => o.key ++ '=' :: v
  | none => o.key

/-- An option that can be told from what is around it. -/
structure Plain (o : Token) : Prop where
  comma_key : ',' ∉ o.key
  equals_key : '=' ∉ o.key
  comma_value : ∀ v ∈ o.value, ',' ∉ v

instance (o : Token) : Decidable o.Plain :=
  decidable_of_iff (',' ∉ o.key ∧ '=' ∉ o.key ∧ ∀ v ∈ o.value, ',' ∉ v)
    ⟨fun ⟨h, h', h''⟩ => ⟨h, h', h''⟩, fun ⟨h, h', h''⟩ => ⟨h, h', h''⟩⟩

theorem comma_spelling {o : Token} (h : o.Plain) : ',' ∉ o.spelling := by
  obtain ⟨key, _ | v⟩ := o
  · exact h.comma_key
  · have value := h.comma_value v rfl
    simp [spelling, h.comma_key, value]

theorem ofPiece_spelling {o : Token} (h : o.Plain) : ofPiece o.spelling = o := by
  obtain ⟨key, _ | v⟩ := o
  · simp [ofPiece, spelling, Split.cut_eq_self h.equals_key]
  · simp [ofPiece, spelling, Split.cut_append h.equals_key]

theorem spelling_ofPiece (cs : List Char) : (ofPiece cs).spelling = cs := by
  cases cut : Split.cut '=' cs with
  | mk front back =>
    cases back with
    | none =>
      obtain ⟨-, rfl⟩ := Split.cut_eq_none_iff.mp cut
      simp [ofPiece, spelling, cut]
    | some rest =>
      obtain ⟨-, rfl⟩ := Split.cut_eq_some_iff.mp cut
      simp [ofPiece, spelling, cut]

theorem plain_ofPiece {cs : List Char} (h : ',' ∉ cs) : (ofPiece cs).Plain := by
  cases cut : Split.cut '=' cs with
  | mk front back =>
    cases back with
    | none =>
      obtain ⟨equals, rfl⟩ := Split.cut_eq_none_iff.mp cut
      simp only [ofPiece, cut]
      exact ⟨h, equals, nofun⟩
    | some rest =>
      obtain ⟨equals, rfl⟩ := Split.cut_eq_some_iff.mp cut
      simp only [List.mem_append, List.mem_cons, not_or] at h
      simp only [ofPiece, cut]
      refine ⟨h.1, equals, ?_⟩
      rintro v ⟨⟩
      exact h.2.2

end Token

/-! ## 3. Tags -/

/-- The tag that is made of these options. -/
def ofTokens (os : List Token) : Tag :=
  ⟨String.ofList (Split.join ',' (os.map Token.spelling))⟩

theorem tokens_ne_nil (t : Tag) : t.tokens ≠ [] := by
  simp [tokens, Split.pieces_ne_nil]

theorem plain_of_mem_tokens {t : Tag} {o : Token} (h : o ∈ t.tokens) : o.Plain := by
  obtain ⟨p, mem, rfl⟩ := List.mem_map.mp h
  exact Token.plain_ofPiece (Split.not_mem_of_mem_pieces mem)

/-- **Options are read back from the tag that is made of them.** -/
theorem tokens_ofTokens {os : List Token} (some : os ≠ []) (plain : ∀ o ∈ os, o.Plain) :
    (ofTokens os).tokens = os := by
  have apart : ∀ p ∈ os.map Token.spelling, ',' ∉ p := by
    intro p mem
    obtain ⟨o, ho, rfl⟩ := List.mem_map.mp mem
    exact Token.comma_spelling (plain o ho)
  have each : ∀ o ∈ os, (Token.ofPiece ∘ Token.spelling) o = o := fun o ho =>
    Token.ofPiece_spelling (plain o ho)
  rw [tokens, ofTokens, String.toList_ofList, Split.pieces_join (by simpa using some) apart,
    List.map_map, List.map_congr_left each, List.map_id']

/-- **Every tag is made of its options.** -/
theorem ofTokens_tokens (t : Tag) : ofTokens t.tokens = t := by
  have each : Token.spelling ∘ Token.ofPiece = id := funext Token.spelling_ofPiece
  rw [ofTokens, tokens, List.map_map, each, List.map_id, Split.join_pieces, String.ofList_toList]

/-! ## 4. Look-ups -/

/-- What is answered for a key when these are the options. -/
inductive Answers (key : List Char) : List Token → String → Prop
  | bare {before after} (first : ∀ o ∈ before, o.key ≠ key) :
      Answers key (before ++ ⟨key, none⟩ :: after) "true"
  | given {before v after} (first : ∀ o ∈ before, o.key ≠ key) :
      Answers key (before ++ ⟨key, some v⟩ :: after) (String.ofList v)
  | missing {os} (missing : ∀ o ∈ os, o.key ≠ key) : Answers key os ""

theorem get_of_missing {t : Tag} {key : String} (missing : ∀ o ∈ t.tokens, o.key ≠ key.toList) :
    t.get key = "" := by
  have none_found : t.tokens.find? (·.key = key.toList) = none := by simpa using missing
  rw [get, none_found]

theorem get_of_first {t : Tag} {key : String} {before after : List Token} {o : Token}
    (split : t.tokens = before ++ o :: after) (first : ∀ o ∈ before, o.key ≠ key.toList)
    (here : o.key = key.toList) : t.get key = o.reading := by
  have found : t.tokens.find? (·.key = key.toList) = some o := by
    rw [split, List.find?_eq_some_iff_append]
    exact ⟨by simpa using here, before, after, rfl, by simpa using first⟩
  rw [get, found]

/-- **A look-up answers with the first option that has the key.** -/
theorem get_eq_iff {t : Tag} {key answer : String} :
    t.get key = answer ↔ Answers key.toList t.tokens answer := by
  constructor
  · rintro rfl
    cases found : t.tokens.find? (·.key = key.toList) with
    | none =>
      have missing : ∀ o ∈ t.tokens, o.key ≠ key.toList := by simpa using found
      rw [get_of_missing missing]
      exact .missing missing
    | some o =>
      obtain ⟨here, before, after, split, first⟩ := List.find?_eq_some_iff_append.mp found
      simp only [decide_eq_true_eq, Bool.not_eq_true', decide_eq_false_iff_not] at here first
      rw [get_of_first split first here, split]
      obtain ⟨k, value⟩ := o
      obtain rfl : k = key.toList := here
      cases value with
      | none => exact .bare first
      | some v => exact .given first
  · intro h
    generalize options : t.tokens = os at h
    cases h with
    | bare first => exact get_of_first options first rfl
    | given first => exact get_of_first options first rfl
    | missing missing => exact get_of_missing (options ▸ missing)

/-- **Looking a key up decodes the tag.**  Over options as they may stand in a tag, whatever the
keys have in common with one another, the answer is that of the first option with exactly the
key; a key that no option can have is never found; and a tag is made of one list of options only. -/
theorem options_decoded :
    (∀ os : List Token, os ≠ [] → (∀ o ∈ os, o.Plain) → ∀ key answer : String,
      (ofTokens os).get key = answer ↔ Answers key.toList os answer) ∧
    (∀ (t : Tag) (key : String), ',' ∈ key.toList ∨ '=' ∈ key.toList → t.get key = "") ∧
    ∀ t : Tag, ∃! os : List Token, os ≠ [] ∧ (∀ o ∈ os, o.Plain) ∧ ofTokens os = t := by
  refine ⟨?_, ?_, ?_⟩
  · intro os some plain key answer
    rw [get_eq_iff, tokens_ofTokens some plain]
  · intro t key foreign
    apply get_of_missing
    intro o mem same
    have plain := plain_of_mem_tokens mem
    rw [← same] at foreign
    rcases foreign with comma | equals
    · exact plain.comma_key comma
    · exact plain.equals_key equals
  · intro t
    refine ⟨t.tokens, ⟨t.tokens_ne_nil, fun _ => plain_of_mem_tokens, ofTokens_tokens t⟩, ?_⟩
    rintro os ⟨some, plain, rfl⟩
    exact (tokens_ofTokens some plain).symm

/-- Neither a longer key, on either side, nor a later option with a value stands in for the first
one, which has an empty value; and a key with an equals sign is not found where it is written. -/
theorem options_decoded_empty_first :
    (ofTokens [⟨"rcbx".toList, some "1".toList⟩, ⟨"xrcb".toList, none⟩,
        ⟨"rcb".toList, some []⟩, ⟨"rcb".toList, some "a=b".toList⟩]).get "rcb" = "" ∧
      (⟨"x=rcb=1"⟩ : Tag).get "x=rcb" = "" := by
  have first : Answers "rcb".toList ([⟨"rcbx".toList, some "1".toList⟩, ⟨"xrcb".toList, none⟩] ++
      ⟨"rcb".toList, some []⟩ :: [⟨"rcb".toList, some "a=b".toList⟩]) "" := .given (by decide)
  exact ⟨(options_decoded.1 _ (by decide) (by decide) _ _).mpr first,
    options_decoded.2.1 _ _ (.inr (by decide))⟩

end Tag
end Handheld
