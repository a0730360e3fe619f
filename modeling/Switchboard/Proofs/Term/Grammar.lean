import Switchboard.Proofs.Text.Cut
import Switchboard.Term.Basic

/-!
# How terms are written

The written forms overlap: brackets may hold colons and commas, and what has a
line feed between its brackets is no switch but perhaps a path. The forms are
told apart here without regard to how a text is read, by what it consists of.
Reading finds the form of every text, and refuses just those that have none.
-/
namespace Switchboard

namespace Comparator

theorem ofWord?_word (comparator : Comparator) : ofWord? comparator.word = some comparator := by
  cases comparator <;> decide

theorem ofWord?_eq_none {word : String}
    (no_word : ∀ comparator : Comparator, word ≠ comparator.word) : ofWord? word = none := by
  refine List.find?_eq_none.mpr fun comparator _ => ?_
  rw [beq_iff_eq]
  exact (no_word comparator).symm

theorem eq_word_of_ofWord? {word : String} {comparator : Comparator}
    (named : ofWord? word = some comparator) : word = comparator.word := by
  have found := List.find?_some (p := fun other : Comparator => other.word == word) named
  exact (eq_of_beq found).symm

end Comparator

namespace Term

open Switchboard.Text

/-- A text that consists of brackets and something on one line between them. -/
structure Bracketed (text inner : String) : Prop where
  encloses : text = "[" ++ inner ++ "]"
  some_inner : inner ≠ ""
  one_line : '\n' ∉ inner.toList

/-- A text as two parts around a comma, neither of them empty. -/
structure Halves (text bank channel : String) : Prop where
  joined : text = bank ++ "," ++ channel
  some_bank : bank ≠ ""
  some_channel : channel ≠ ""

/-- An optional part: an empty one is as good as none. -/
def given? (optional : List String) (i : Nat) : Option String :=
  optional[i]?.filter (· ≠ "")

/-- The items of a list that is written with commas; empty ones do not count. -/
def Lists (written : Option String) (items : List String) : Prop :=
  match written with
  | none => items = []
  | some text => ∃ parts, Parts ',' text parts ∧ items = parts.filter (· ≠ "")

def IsConstant (text : String) : Prop :=
  text ∈ ["", "off", "false", "0"] ∨ text ∈ ["on", "true", "1"]

def IsNotification (text : String) : Prop := "notifications.".toList <+: text.toList

/-- A text of none of the forms that are tried before paths. -/
structure Unmarked (text : String) : Prop where
  no_constant : ¬IsConstant text
  no_switch : ∀ inner, ¬Bracketed text inner
  no_notification : ¬IsNotification text

/-- The forms of terms, with the paths of their signals. -/
inductive Written : String → Term → Option String → Prop where
  | off {text : String} (word : text ∈ ["", "off", "false", "0"]) : Written text .off none
  | on {text : String} (word : text ∈ ["on", "true", "1"]) : Written text .on none
  | bankSwitch {text inner bank channel : String} (brackets : Bracketed text inner)
      (halves : Halves inner bank channel)
      (longest : ∀ bank' channel', Halves inner bank' channel' → bank'.length ≤ bank.length) :
      Written text (.switch (some bank) channel)
        (some ("electrical.switches.bank." ++ bank ++ "." ++ channel ++ ".state"))
  | plainSwitch {text channel : String} (brackets : Bracketed text channel)
      (whole : ∀ bank channel', ¬Halves channel bank channel') :
      Written text (.switch none channel) (some ("electrical.switches." ++ channel ++ ".state"))
  | notification {text path : String} {optional : List String} (marked : IsNotification text)
      (parts : Parts ':' text (path :: optional)) (few : optional.length ≤ 4)
      {methods : List String} (lists : Lists optional[3]? methods) :
      Written text
        (.notification path (given? optional 0) (given? optional 1) (given? optional 2) methods)
        (some path)
  | present {text path : String} (unmarked : Unmarked text) (parts : Parts ':' text [path])
      (some_path : path ≠ "") : Written text (.signal path .present) (some path)
  | equal {text path value : String} (unmarked : Unmarked text)
      (parts : Parts ':' text [path, value]) (some_path : path ≠ "") :
      Written text (.signal path (.compare .eq value)) (some path)
  | comparison {text path value : String} {comparator : Comparator} (unmarked : Unmarked text)
      (parts : Parts ':' text [path, comparator.word, value]) (some_path : path ≠ "") :
      Written text (.signal path (.compare comparator value)) (some path)
  | substitution {text path onValue offValue : String} (unmarked : Unmarked text)
      (parts : Parts ':' text [path, onValue, offValue]) (some_path : path ≠ "")
      (no_word : ∀ comparator : Comparator, onValue ≠ comparator.word) :
      Written text (.signal path (.substitute onValue offValue)) (some path)

/-- A text of no form: it has too many parts, or no path before its first colon. -/
structure Formless (text : String) : Prop where
  no_constant : ¬IsConstant text
  no_switch : ∀ inner, ¬Bracketed text inner
  parts : ∃ path optional, Parts ':' text (path :: optional) ∧
    (IsNotification text ∧ 4 < optional.length ∨
      ¬IsNotification text ∧ (path = "" ∨ 2 < optional.length))

/-! ### Brackets -/

theorem bracketed?_eq_some_iff {text inner : List Char} :
    bracketed? text = some inner ↔
      text = '[' :: (inner ++ [']']) ∧ inner ≠ [] ∧ '\n' ∉ inner := by
  constructor
  · intro found
    unfold bracketed? at found
    split at found
    · rename_i rest
      split at found
      · rename_i c reversed backwards
        split at found
        · exact nomatch found
        · rename_i one_line
          have shape : rest = (c :: reversed).reverse ++ [']'] :=
            (List.reverse_eq_iff.mp backwards).trans List.reverse_cons
          subst shape
          obtain rfl := Option.some.inj found
          refine ⟨rfl, by simp, ?_⟩
          rwa [List.mem_reverse]
      · exact nomatch found
    · exact nomatch found
  · rintro ⟨rfl, some_inner, one_line⟩
    cases backwards : inner.reverse with
    | nil => exact absurd (List.reverse_eq_nil_iff.mp backwards) some_inner
    | cons c reversed =>
      have inside : '\n' ∉ c :: reversed := by rwa [← backwards, List.mem_reverse]
      have forwards : (c :: reversed).reverse = inner := by rw [← backwards, List.reverse_reverse]
      rw [bracketed?, List.reverse_append, backwards]
      exact (if_neg inside).trans (congrArg some forwards)

theorem bracketed_iff {text inner : String} :
    Bracketed text inner ↔ bracketed? text.toList = some inner.toList := by
  rw [bracketed?_eq_some_iff]
  constructor
  · rintro ⟨rfl, some_inner, one_line⟩
    refine ⟨?_, ?_, one_line⟩
    · simp
    · simpa using some_inner
  · rintro ⟨shape, some_inner, one_line⟩
    refine ⟨?_, ?_, one_line⟩
    · rw [← String.toList_inj, shape]
      simp
    · simpa using some_inner

/-! ### Commas -/

theorem text_of_cutAtLastComma {text before after : List Char}
    (cut : cutAtLastComma text = some (before, after)) :
    text = before ++ ',' :: after ∧ after ≠ [] := by
  induction text generalizing before with
  | nil => exact nomatch cut
  | cons c rest ih =>
    rw [cutAtLastComma] at cut
    cases later : cutAtLastComma rest with
    | some pair =>
      obtain ⟨before', after'⟩ := pair
      rw [later] at cut
      obtain ⟨rfl, rfl⟩ := Prod.mk.inj (Option.some.inj cut)
      obtain ⟨rfl, some_after⟩ := ih later
      exact ⟨rfl, some_after⟩
    | none =>
      rw [later] at cut
      obtain ⟨⟨rfl, some_rest⟩, same⟩ := Option.ite_none_right_eq_some.mp cut
      obtain ⟨rfl, rfl⟩ := Prod.mk.inj (Option.some.inj same)
      exact ⟨rfl, some_rest⟩

/-- The cut is as far to the right as any comma with something behind it. -/
theorem cutAtLastComma_latest (before : List Char) {after : List Char} (some_after : after ≠ []) :
    ∃ before' after', cutAtLastComma (before ++ ',' :: after) = some (before', after') ∧
      before.length ≤ before'.length := by
  induction before with
  | nil =>
    rw [List.nil_append, cutAtLastComma]
    cases cutAtLastComma after with
    | some pair => exact ⟨_, _, rfl, Nat.zero_le _⟩
    | none => exact ⟨[], after, if_pos ⟨rfl, some_after⟩, Nat.zero_le _⟩
  | cons c before ih =>
    obtain ⟨before', after', cut, longer⟩ := ih
    rw [List.cons_append, cutAtLastComma, cut]
    exact ⟨_, _, rfl, Nat.succ_le_succ longer⟩

/-- Between brackets there are two parts where a comma has something on either side. -/
theorem halves_of_cutBank {inner bank channel : List Char}
    (cut : cutBank inner = some (bank, channel)) :
    Halves (String.ofList inner) (String.ofList bank) (String.ofList channel) := by
  cases inner with
  | nil => exact nomatch cut
  | cons c rest =>
    obtain ⟨⟨before, after⟩, found, same⟩ := Option.map_eq_some_iff.mp cut
    obtain ⟨rfl, rfl⟩ := Prod.mk.inj same
    obtain ⟨rfl, some_after⟩ := text_of_cutAtLastComma found
    refine ⟨?_, ?_, ?_⟩
    · rw [← String.toList_inj]
      simp
    · simp
    · simpa using some_after

theorem cutBank_latest {inner bank channel : String} (halves : Halves inner bank channel) :
    ∃ bank' channel', cutBank inner.toList = some (bank', channel') ∧
      bank.length ≤ bank'.length := by
  obtain ⟨rfl, some_bank, some_channel⟩ := halves
  cases first : bank.toList with
  | nil => exact absurd (by simpa using first) some_bank
  | cons c before =>
    have some_after : channel.toList ≠ [] := by simpa using some_channel
    obtain ⟨before', after', cut, longer⟩ := cutAtLastComma_latest before some_after
    have shape : (bank ++ "," ++ channel).toList = c :: (before ++ ',' :: channel.toList) := by
      simp [first]
    refine ⟨c :: before', after', ?_, ?_⟩
    · rw [shape, cutBank, cut]
      rfl
    · rw [← String.length_toList, first]
      exact Nat.succ_le_succ longer

/-- Two ways to cut a text at a comma are the same if their first parts are equally long. -/
theorem Halves.unique {inner bank channel bank' channel' : String}
    (halves : Halves inner bank channel) (halves' : Halves inner bank' channel')
    (length : bank.length = bank'.length) : bank = bank' ∧ channel = channel' := by
  have same := halves.joined.symm.trans halves'.joined
  rw [← String.toList_inj] at same
  simp only [String.toList_append] at same
  have lengths : bank.toList.length = bank'.toList.length := by
    rw [String.length_toList, String.length_toList, length]
  rw [List.append_assoc, List.append_assoc] at same
  obtain ⟨banks, rest⟩ := List.append_inj same lengths
  exact ⟨String.toList_inj.mp banks, String.toList_inj.mp (List.append_cancel_left rest)⟩

/-! ### Switches -/

theorem switchOf_of_halves {inner bank channel : String} (halves : Halves inner bank channel)
    (longest : ∀ bank' channel', Halves inner bank' channel' → bank'.length ≤ bank.length) :
    switchOf inner.toList = .switch (some bank) channel := by
  obtain ⟨bank', channel', cut, longer⟩ := cutBank_latest halves
  have found := halves_of_cutBank cut
  rw [String.ofList_toList] at found
  have length : bank.length = (String.ofList bank').length := by
    have shorter := longest _ _ found
    rw [String.length_ofList] at shorter ⊢
    exact Nat.le_antisymm longer shorter
  obtain ⟨rfl, rfl⟩ := halves.unique found length
  rw [switchOf, cut]

theorem switchOf_of_whole {inner : String} (whole : ∀ bank channel, ¬Halves inner bank channel) :
    switchOf inner.toList = .switch none inner := by
  rw [switchOf]
  cases cut : cutBank inner.toList with
  | none => exact congrArg (Term.switch none) String.ofList_toList
  | some halves =>
    have found := halves_of_cutBank cut
    rw [String.ofList_toList] at found
    exact absurd found (whole _ _)

theorem written_switchOf {text inner : String} (brackets : Bracketed text inner) :
    Written text (switchOf inner.toList) (switchOf inner.toList).path? := by
  cases cut : cutBank inner.toList with
  | some halves =>
    have found := halves_of_cutBank cut
    rw [String.ofList_toList] at found
    have longest : ∀ bank' channel', Halves inner bank' channel' →
        bank'.length ≤ (String.ofList halves.1).length := by
      intro bank' channel' others
      obtain ⟨bank, channel, same, longer⟩ := cutBank_latest others
      obtain rfl := Option.some.inj (cut.symm.trans same)
      rwa [String.length_ofList]
    rw [switchOf_of_halves found longest]
    exact .bankSwitch brackets found longest
  | none =>
    have whole : ∀ bank channel, ¬Halves inner bank channel := by
      intro bank channel halves
      obtain ⟨bank', channel', same, -⟩ := cutBank_latest halves
      exact nomatch cut.symm.trans same
    rw [switchOf_of_whole whole]
    exact .plainSwitch brackets whole

/-! ### Segments -/

theorem segment?_eq_filter (part : String) : segment? part = (some part).filter (· ≠ "") := by
  rw [segment?, Option.filter_some]
  by_cases empty : part = "" <;> simp [empty]

/-- The items that are listed in an optional part. -/
def items (written : Option String) : List String :=
  match written with
  | none => []
  | some text => (splitAt ',' text).filter (· ≠ "")

theorem lists_iff {written : Option String} {methods : List String} :
    Lists written methods ↔ items written = methods := by
  cases written with
  | none => exact eq_comm
  | some text =>
    constructor
    · rintro ⟨parts, cut, rfl⟩
      rw [items, parts_iff.mp cut]
    · rintro rfl
      exact ⟨_, parts_iff.mpr rfl, rfl⟩

theorem notificationOf?_of_few {path : String} {optional : List String}
    (few : optional.length ≤ 4) :
    notificationOf? (path :: optional) =
      some (.notification path (given? optional 0) (given? optional 1) (given? optional 2)
        (items optional[3]?)) := by
  match optional, few with
  | [], _ => rfl
  | [_], _ => rw [notificationOf?, segment?_eq_filter]; rfl
  | [_, _], _ => rw [notificationOf?, segment?_eq_filter, segment?_eq_filter]; rfl
  | [_, _, _], _ =>
    rw [notificationOf?, segment?_eq_filter, segment?_eq_filter, segment?_eq_filter]; rfl
  | [_, _, _, _], _ =>
    rw [notificationOf?, segment?_eq_filter, segment?_eq_filter, segment?_eq_filter]; rfl

theorem notificationOf?_of_many {path : String} {optional : List String}
    (many : 4 < optional.length) : notificationOf? (path :: optional) = none := by
  match optional, many with
  | _ :: _ :: _ :: _ :: _ :: _, _ => rfl

theorem signalOf?_one {path : String} (some_path : path ≠ "") :
    signalOf? [path] = some (.signal path .present) := by
  rw [signalOf?]
  exact some_path

theorem signalOf?_two {path value : String} (some_path : path ≠ "") :
    signalOf? [path, value] = some (.signal path (.compare .eq value)) := by
  rw [signalOf?]
  exact some_path

theorem signalOf?_three {path middle last : String} (some_path : path ≠ "") :
    signalOf? [path, middle, last] = match Comparator.ofWord? middle with
      | some comparator => some (.signal path (.compare comparator last))
      | none => some (.signal path (.substitute middle last)) := by
  cases read : Comparator.ofWord? middle <;> simp [signalOf?, read]

theorem signalOf?_of_many (path : String) {optional : List String} (many : 2 < optional.length) :
    signalOf? (path :: optional) = none := by
  match optional, many with
  | _ :: _ :: _ :: _, _ => unfold signalOf?; split <;> simp_all

/-! ### The order in which the forms are tried -/

theorem head_of_isConstant {text : String} (constant : IsConstant text) :
    text.toList.head? ≠ some '[' ∧ text.toList.head? ≠ some 'n' := by
  have all : ∀ word ∈ ["", "off", "false", "0"] ++ ["on", "true", "1"],
      word.toList.head? ≠ some '[' ∧ word.toList.head? ≠ some 'n' := by decide
  exact all text (List.mem_append.mpr constant)

theorem Bracketed.head {text inner : String} (brackets : Bracketed text inner) :
    text.toList.head? = some '[' := by
  rw [brackets.encloses]
  simp

theorem IsNotification.head {text : String} (marked : IsNotification text) :
    text.toList.head? = some 'n' := by
  obtain ⟨rest, shape⟩ := marked
  rw [← shape]
  rfl

theorem ofText?_off {text : String} (word : text ∈ ["", "off", "false", "0"]) :
    ofText? text = some .off := if_pos word

theorem ofText?_on {text : String} (word : text ∈ ["on", "true", "1"]) :
    ofText? text = some .on := by
  have other : text ∉ ["", "off", "false", "0"] := by
    have apart : ∀ word ∈ ["on", "true", "1"], word ∉ ["", "off", "false", "0"] := by
      decide
    exact apart text word
  rw [ofText?, if_neg other, if_pos word]

theorem ofText?_of_not_constant {text : String} (no_constant : ¬IsConstant text) :
    ofText? text = match bracketed? text.toList with
      | some inner => some (switchOf inner)
      | none =>
        if notificationRoot.toList.isPrefixOf text.toList then notificationOf? (splitAt ':' text)
        else signalOf? (splitAt ':' text) := by
  obtain ⟨not_off, not_on⟩ := not_or.mp no_constant
  exact (if_neg not_off).trans (if_neg not_on)

theorem ofText?_bracketed {text inner : String} (brackets : Bracketed text inner) :
    ofText? text = some (switchOf inner.toList) := by
  rw [ofText?_of_not_constant fun constant => (head_of_isConstant constant).1 brackets.head,
    bracketed_iff.mp brackets]

theorem bracketed?_eq_none {text : String} (no_switch : ∀ inner, ¬Bracketed text inner) :
    bracketed? text.toList = none := by
  refine Option.eq_none_iff_forall_ne_some.mpr fun inner found => ?_
  rw [← String.toList_ofList (l := inner)] at found
  exact no_switch _ (bracketed_iff.mpr found)

theorem ofText?_notification {text : String} (marked : IsNotification text) :
    ofText? text = notificationOf? (splitAt ':' text) := by
  have no_switch : ∀ inner, ¬Bracketed text inner := by
    intro inner brackets
    have heads := brackets.head.symm.trans marked.head
    exact absurd heads (by decide)
  rw [ofText?_of_not_constant fun constant => (head_of_isConstant constant).2 marked.head,
    bracketed?_eq_none no_switch]
  exact if_pos (List.isPrefixOf_iff_prefix.mpr marked)

theorem ofText?_unmarked {text : String} (unmarked : Unmarked text) :
    ofText? text = signalOf? (splitAt ':' text) := by
  rw [ofText?_of_not_constant unmarked.no_constant, bracketed?_eq_none unmarked.no_switch]
  exact if_neg fun marked => unmarked.no_notification (List.isPrefixOf_iff_prefix.mp marked)

/-- Every text is of a form that is tried, or is read as a path. -/
theorem form_cases (text : String) :
    IsConstant text ∨ (∃ inner, Bracketed text inner) ∨ IsNotification text ∨ Unmarked text := by
  by_cases constant : IsConstant text
  · exact .inl constant
  · by_cases brackets : ∃ inner, Bracketed text inner
    · exact .inr (.inl brackets)
    · by_cases marked : IsNotification text
      · exact .inr (.inr (.inl marked))
      · exact .inr (.inr (.inr ⟨constant, not_exists.mp brackets, marked⟩))

/-! ### Reading finds the form -/

theorem ofText?_of_written {text : String} {term : Term} {path : Option String}
    (written : Written text term path) : ofText? text = some term ∧ term.path? = path := by
  cases written with
  | off word => exact ⟨ofText?_off word, rfl⟩
  | on word => exact ⟨ofText?_on word, rfl⟩
  | bankSwitch brackets halves longest =>
    exact ⟨by rw [ofText?_bracketed brackets, switchOf_of_halves halves longest], rfl⟩
  | plainSwitch brackets whole =>
    exact ⟨by rw [ofText?_bracketed brackets, switchOf_of_whole whole], rfl⟩
  | notification marked parts few lists =>
    refine ⟨?_, rfl⟩
    rw [ofText?_notification marked, parts_iff.mp parts, notificationOf?_of_few few,
      lists_iff.mp lists]
  | present unmarked parts some_path =>
    exact ⟨by rw [ofText?_unmarked unmarked, parts_iff.mp parts, signalOf?_one some_path], rfl⟩
  | equal unmarked parts some_path =>
    exact ⟨by rw [ofText?_unmarked unmarked, parts_iff.mp parts, signalOf?_two some_path], rfl⟩
  | comparison unmarked parts some_path =>
    refine ⟨?_, rfl⟩
    rw [ofText?_unmarked unmarked, parts_iff.mp parts, signalOf?_three some_path,
      Comparator.ofWord?_word]
  | substitution unmarked parts some_path no_word =>
    refine ⟨?_, rfl⟩
    rw [ofText?_unmarked unmarked, parts_iff.mp parts, signalOf?_three some_path,
      Comparator.ofWord?_eq_none no_word]

theorem written_of_ofText? {text : String} {term : Term} (found : ofText? text = some term) :
    Written text term term.path? := by
  rcases form_cases text with word | ⟨inner, brackets⟩ | marked | unmarked
  · rcases word with word | word
    · obtain rfl := Option.some.inj ((ofText?_off word).symm.trans found)
      exact .off word
    · obtain rfl := Option.some.inj ((ofText?_on word).symm.trans found)
      exact .on word
  · obtain rfl := Option.some.inj ((ofText?_bracketed brackets).symm.trans found)
    exact written_switchOf brackets
  · rw [ofText?_notification marked] at found
    obtain ⟨path, optional, cut⟩ := exists_parts ':' text
    rw [parts_iff.mp cut] at found
    rcases Nat.lt_or_ge 4 optional.length with many | few
    · rw [notificationOf?_of_many many] at found
      exact nomatch found
    · obtain rfl := Option.some.inj ((notificationOf?_of_few few).symm.trans found)
      exact .notification marked cut few (lists_iff.mpr rfl)
  · rw [ofText?_unmarked unmarked] at found
    obtain ⟨path, optional, cut⟩ := exists_parts ':' text
    rw [parts_iff.mp cut] at found
    by_cases no_path : path = ""
    · rw [no_path] at found
      exact nomatch found
    · match optional, cut, found with
      | [], cut, found =>
        obtain rfl := Option.some.inj ((signalOf?_one no_path).symm.trans found)
        exact .present unmarked cut no_path
      | [_], cut, found =>
        obtain rfl := Option.some.inj ((signalOf?_two no_path).symm.trans found)
        exact .equal unmarked cut no_path
      | [middle, last], cut, found =>
        rw [signalOf?_three no_path] at found
        cases named : Comparator.ofWord? middle with
        | some comparator =>
          rw [named] at found
          obtain rfl := Option.some.inj found
          rw [Comparator.eq_word_of_ofWord? named] at cut
          exact .comparison unmarked cut no_path
        | none =>
          rw [named] at found
          obtain rfl := Option.some.inj found
          refine .substitution unmarked cut no_path fun comparator same => ?_
          rw [same, Comparator.ofWord?_word] at named
          exact nomatch named
      | _ :: _ :: _ :: _, _, found =>
        rw [signalOf?_of_many _ (by simp)] at found
        exact nomatch found

theorem formless_iff {text : String} : Formless text ↔ ofText? text = none := by
  constructor
  · rintro ⟨no_constant, no_switch, path, optional, cut, ⟨marked, many⟩ | ⟨unmarked, wrong⟩⟩
    · rw [ofText?_notification marked, parts_iff.mp cut, notificationOf?_of_many many]
    · rw [ofText?_unmarked ⟨no_constant, no_switch, unmarked⟩, parts_iff.mp cut]
      rcases wrong with rfl | many
      · rfl
      · exact signalOf?_of_many path many
  · intro missing
    obtain ⟨path, optional, cut⟩ := exists_parts ':' text
    rcases form_cases text with word | ⟨inner, brackets⟩ | marked | unmarked
    · rcases word with word | word
      · exact nomatch (ofText?_off word).symm.trans missing
      · exact nomatch (ofText?_on word).symm.trans missing
    · exact nomatch (ofText?_bracketed brackets).symm.trans missing
    · refine ⟨fun constant => (head_of_isConstant constant).2 marked.head,
        fun inner brackets => absurd (brackets.head.symm.trans marked.head) (by decide),
        path, optional, cut, .inl ⟨marked, ?_⟩⟩
      refine Nat.lt_of_not_le fun few => ?_
      rw [ofText?_notification marked, parts_iff.mp cut, notificationOf?_of_few few] at missing
      exact nomatch missing
    · refine ⟨unmarked.no_constant, unmarked.no_switch, path, optional, cut,
        .inr ⟨unmarked.no_notification, ?_⟩⟩
      refine Decidable.or_iff_not_imp_left.mpr fun some_path => Nat.lt_of_not_le fun few => ?_
      rw [ofText?_unmarked unmarked, parts_iff.mp cut] at missing
      match optional, few with
      | [], _ => exact nomatch (signalOf?_one some_path).symm.trans missing
      | [_], _ => exact nomatch (signalOf?_two some_path).symm.trans missing
      | [middle, _], _ =>
        rw [signalOf?_three some_path] at missing
        cases named : Comparator.ofWord? middle <;> rw [named] at missing <;> exact nomatch missing

theorem parse_eq_ok_iff {text : String} {term : Term} :
    parse text = .ok term ↔ ofText? text = some term := by
  rw [parse]
  cases ofText? text with
  | some other => exact ⟨fun same => congrArg some (Except.ok.inj same),
      fun same => congrArg Except.ok (Option.some.inj same)⟩
  | none => exact ⟨nofun, nofun⟩

/-- What a text stands for is told by its form, and so is the path of its signal; just the
texts that have no form are refused. -/
theorem parse_iff_written (text : String) :
    (∀ term path, parse text = .ok term ∧ term.path? = path ↔ Written text term path) ∧
      ∀ e, parse text = .error e ↔ e = .undefinedTerm text ∧ Formless text := by
  refine ⟨fun term path => ⟨?_, fun written => ?_⟩, fun e => ?_⟩
  · rintro ⟨read, rfl⟩
    exact written_of_ofText? (parse_eq_ok_iff.mp read)
  · obtain ⟨found, about⟩ := ofText?_of_written written
    exact ⟨parse_eq_ok_iff.mpr found, about⟩
  · rw [formless_iff, parse]
    cases ofText? text with
    | some term => simp
    | none => simp [eq_comm]

end Term

end Switchboard
