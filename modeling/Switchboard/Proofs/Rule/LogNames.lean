import Mathlib
import Switchboard.Engine.Compile
import Switchboard.Rule.Log

/-!
# Which rules keep the same log

The log of a rule is named after the rule's key, and a name tells less than a
key. Every character that is not harmless is shown as an underscore, dots at
the ends are left out, and where nothing else is left an underscore stands for
it. A key in which there is nothing to clean up, such as a number, is its own
name. Keys themselves can coincide as well: a rule without an id goes by its
number, and a number may be the id of another rule.
-/
namespace Switchboard

namespace RuleLog

/-! ## Keys with the same name -/

/-- The character that a name shows. -/
def shown (c : Char) : Char := if isHarmless c then c else '_'

/-- Characters of which a name does not tell which one it was. -/
def Blurred (c : Char) : Prop := c = '_' ∨ isHarmless c = false

instance (c : Char) : Decidable (Blurred c) := inferInstanceAs (Decidable (_ ∨ _))

/-- A key without the dots at its ends. -/
def bare (key : String) : List Char :=
  match trimDots key.toList with
  | [] => ['_']
  | name => name

/-- Two keys that agree, but for dots at their ends and for characters that are blurred. -/
def Alike (key other : String) : Prop :=
  List.Forall₂ (fun c d => c = d ∨ Blurred c ∧ Blurred d) (bare key) (bare other)

instance (key other : String) : Decidable (Alike key other) :=
  inferInstanceAs (Decidable (List.Forall₂ _ _ _))

theorem shown_of_blurred {c : Char} (blurred : Blurred c) : shown c = '_' := by
  rcases blurred with rfl | harmful
  · rfl
  · simp [shown, harmful]

theorem shown_eq_iff (c d : Char) : shown c = shown d ↔ c = d ∨ Blurred c ∧ Blurred d := by
  constructor
  · intro same
    by_cases c_harmless : isHarmless c = true <;> by_cases d_harmless : isHarmless d = true <;>
      simp only [shown, c_harmless, d_harmless, if_true, if_false, Bool.false_eq_true] at same
    · exact .inl same
    · exact .inr ⟨.inl same, .inr (Bool.not_eq_true _ ▸ d_harmless)⟩
    · exact .inr ⟨.inr (Bool.not_eq_true _ ▸ c_harmless), .inl same.symm⟩
    · exact .inr ⟨.inr (Bool.not_eq_true _ ▸ c_harmless), .inr (Bool.not_eq_true _ ▸ d_harmless)⟩
  · rintro (rfl | ⟨c_blurred, d_blurred⟩)
    · rfl
    · rw [shown_of_blurred c_blurred, shown_of_blurred d_blurred]

/-- A dot is shown as it is, and nothing else is shown as a dot. -/
theorem shown_dot (c : Char) : (shown c == '.') = (c == '.') := by
  by_cases harmless : isHarmless c = true
  · rw [shown, if_pos harmless]
  · have other : c ≠ '.' := by
      rintro rfl
      exact harmless rfl
    rw [shown, if_neg harmless]
    simp [other]

theorem trimDots_map_shown (text : List Char) :
    trimDots (text.map shown) = (trimDots text).map shown := by
  have same : (fun c => c == '.') ∘ shown = fun c => c == '.' := funext shown_dot
  simp only [trimDots, List.dropWhile_map, ← List.map_reverse, same]

/-- The name for a key shows what is left of it without the dots at its ends. -/
theorem directoryName_eq (key : String) :
    directoryName key = String.ofList ((bare key).map shown) := by
  have trimmed := trimDots_map_shown key.toList
  unfold directoryName bare
  rw [show (fun c => if isHarmless c then c else '_') = shown from rfl, trimmed]
  cases trimDots key.toList <;> rfl

theorem directoryName_eq_iff (key other : String) :
    directoryName key = directoryName other ↔ Alike key other := by
  rw [directoryName_eq, directoryName_eq, String.ofList_inj, ← List.forall₂_eq_eq_eq,
    List.forall₂_map_left_iff, List.forall₂_map_right_iff]
  simp only [shown_eq_iff]
  rfl

example : Alike ".a b" "a_b" := by decide

/-! ## Names that stay as they are -/

/-- No dot stands at an end of the text. -/
structure Undotted (text : List Char) : Prop where
  first : text.head? ≠ some '.'
  last : text.getLast? ≠ some '.'

theorem Undotted.of_not_mem {text : List Char} (absent : '.' ∉ text) : Undotted text where
  first := fun first => absent (List.mem_of_mem_head? first)
  last := fun last => absent (List.mem_of_getLast? last)

theorem head?_dropDots (text : List Char) : (text.dropWhile (· == '.')).head? ≠ some '.' := by
  intro first
  have other := List.head?_dropWhile_not (· == '.') text
  rw [first] at other
  exact nomatch other

theorem dropDots_eq_self {text : List Char} (first : text.head? ≠ some '.') :
    text.dropWhile (· == '.') = text := by
  cases text with
  | nil => rfl
  | cons c rest =>
    have other : ¬(c == '.') = true := fun dot => first (congrArg some (eq_of_beq dot))
    exact List.dropWhile_cons_of_neg other

theorem undotted_trimDots (text : List Char) : Undotted (trimDots text) where
  first := by
    -- What is left is an initial part of what is left when the first dots are dropped.
    obtain ⟨dots, whole⟩ := List.rdropWhile_prefix (· == '.') (text.dropWhile (· == '.'))
    intro first
    refine head?_dropDots text ?_
    rw [← whole, List.head?_append]
    exact congrArg (·.or dots.head?) first
  last := by
    rw [trimDots, List.getLast?_reverse]
    exact head?_dropDots _

/-- Where no dots are at the ends none are left out. -/
theorem Undotted.trimDots_eq {text : List Char} (undotted : Undotted text) :
    trimDots text = text := by
  have last : text.reverse.head? ≠ some '.' := by
    rw [List.head?_reverse]
    exact undotted.last
  rw [trimDots, dropDots_eq_self undotted.first, dropDots_eq_self last, List.reverse_reverse]

theorem Undotted.bare_eq {key : String} (undotted : Undotted key.toList)
    (nonempty : key.toList ≠ []) : bare key = key.toList := by
  unfold bare
  rw [undotted.trimDots_eq]
  cases here : key.toList with
  | nil => exact absurd here nonempty
  | cons c rest => rfl

theorem map_shown_of_harmless {text : List Char} (harmless : ∀ c ∈ text, isHarmless c = true) :
    text.map shown = text := by
  have same : ∀ c ∈ text, shown c = id c := fun c member => if_pos (harmless c member)
  rw [List.map_congr_left same, List.map_id]

theorem Undotted.directoryName_eq {key : String} (undotted : Undotted key.toList)
    (nonempty : key.toList ≠ []) (harmless : ∀ c ∈ key.toList, isHarmless c = true) :
    directoryName key = key := by
  rw [RuleLog.directoryName_eq, undotted.bare_eq nonempty, map_shown_of_harmless harmless,
    String.ofList_toList]

/-! ## Numbers -/

theorem isDigit_of_mem_number {n : Nat} {c : Char} (member : c ∈ (toString n).toList) :
    c.isDigit = true := by
  rw [Nat.toString_eq_repr, Nat.repr_eq_ofList_toDigits, String.toList_ofList] at member
  exact Nat.isDigit_of_mem_toDigits (by decide) (by decide) member

theorem number_ne_nil (n : Nat) : (toString n).toList ≠ [] := by
  rw [Nat.toString_eq_repr, Nat.repr_eq_ofList_toDigits, String.toList_ofList]
  exact Nat.toDigits_ne_nil

theorem harmless_of_isDigit {c : Char} (digit : c.isDigit = true) : isHarmless c = true := by
  simp [isHarmless, Char.isAlphanum, digit]

theorem not_blurred_of_isDigit {c : Char} (digit : c.isDigit = true) : ¬ Blurred c := by
  rintro (rfl | harmful)
  · exact nomatch digit
  · exact nomatch (harmless_of_isDigit digit).symm.trans harmful

theorem undotted_number (n : Nat) : Undotted (toString n).toList :=
  .of_not_mem fun member => nomatch isDigit_of_mem_number member

theorem bare_number (n : Nat) : bare (toString n) = (toString n).toList :=
  (undotted_number n).bare_eq (number_ne_nil n)

theorem directoryName_number (n : Nat) : directoryName (toString n) = toString n :=
  (undotted_number n).directoryName_eq (number_ne_nil n) fun _ member =>
    harmless_of_isDigit (isDigit_of_mem_number member)

theorem bare_eq_number_iff (key : String) (n : Nat) :
    bare key = (toString n).toList ↔ trimDots key.toList = (toString n).toList := by
  unfold bare
  split
  · next empty =>
    rw [empty]
    constructor
    · intro same
      have member : '_' ∈ (toString n).toList := same ▸ List.mem_cons_self
      exact nomatch isDigit_of_mem_number member
    · exact fun same => absurd same.symm (number_ne_nil n)
  · rfl

/-- Only the number itself, perhaps with dots at its ends, has the name of a number. -/
theorem alike_number_iff (key : String) (n : Nat) :
    Alike key (toString n) ↔ trimDots key.toList = (toString n).toList := by
  rw [← bare_eq_number_iff, Alike, bare_number]
  constructor
  · intro alike
    rw [← List.forall₂_eq_eq_eq]
    refine List.forall₂_iff_zip.mpr ⟨alike.length_eq, fun {c d} pair => ?_⟩
    have digit := isDigit_of_mem_number (List.of_mem_zip pair).2
    rcases (List.forall₂_iff_zip.mp alike).2 pair with same | ⟨_, blurred⟩
    · exact same
    · exact absurd blurred (not_blurred_of_isDigit digit)
  · intro same
    rw [same]
    exact List.forall₂_same.mpr fun _ _ => .inl rfl

end RuleLog

/-! ## Rules with the same log -/

open RuleLog

/-- Two rules at certain places whose logs have the same name. -/
def RuleConfig.SharesLog (rule : RuleConfig) (place : Nat) (other : RuleConfig) (place' : Nat) :
    Prop :=
  match rule.id, other.id with
  | some id, some id' => Alike id id'
  | some id, none => trimDots id.toList = (toString (place' + 1)).toList
  | none, some id' => trimDots id'.toList = (toString (place + 1)).toList
  | none, none => place = place'

instance (rule other : RuleConfig) (place place' : Nat) :
    Decidable (rule.SharesLog place other place') := by
  unfold RuleConfig.SharesLog
  split <;> infer_instance

theorem RuleConfig.directoryName_key_eq_iff (rule : RuleConfig) (place : Nat) (other : RuleConfig)
    (place' : Nat) : directoryName (rule.key place) = directoryName (other.key place') ↔
      rule.SharesLog place other place' := by
  unfold SharesLog key
  cases rule.id with
  | some id =>
    cases other.id with
    | some id' => exact directoryName_eq_iff id id'
    | none => exact (directoryName_eq_iff _ _).trans (alike_number_iff id _)
  | none =>
    cases other.id with
    | some id' => exact eq_comm.trans ((directoryName_eq_iff _ _).trans (alike_number_iff id' _))
    | none =>
      dsimp only
      rw [directoryName_eq_iff, alike_number_iff, (undotted_number _).trimDots_eq, String.toList_inj,
        Nat.toString_eq_repr, Nat.toString_eq_repr, Nat.repr_inj, Nat.add_right_cancel_iff]

namespace EngineConfig

/-- Two places of a configuration whose rules have logs of the same name. -/
def SharesLog (config : EngineConfig) (place place' : Nat) : Prop :=
  match config.rules[place]?, config.rules[place']? with
  | some rule, some other => rule.SharesLog place other place'
  | _, _ => False

instance (config : EngineConfig) (place place' : Nat) :
    Decidable (config.SharesLog place place') := by
  unfold SharesLog
  split <;> infer_instance

theorem sharesLog_iff {config : EngineConfig} {place place' : Nat} {rule other : RuleConfig}
    (here : config.rules[place]? = some rule) (there : config.rules[place']? = some other) :
    config.SharesLog place place' ↔ rule.SharesLog place other place' := by
  rw [SharesLog, here, there]

/--
Ids that are names of logs as they stand, different from each other and from the number of every
rule without an id.
-/
structure HasTidyIds (config : EngineConfig) : Prop where
  names : ∀ rule ∈ config.rules, ∀ id, rule.id = some id → directoryName id = id
  different : ∀ (place place' : Nat) (rule other : RuleConfig) (id : String),
    config.rules[place]? = some rule → config.rules[place']? = some other →
    rule.id = some id → other.id = some id → place = place'
  no_number : ∀ rule ∈ config.rules, ∀ (place : Nat) (other : RuleConfig),
    config.rules[place]? = some other → other.id = none → rule.id ≠ some (toString (place + 1))

/-- With tidy ids logs are named as the rules are. -/
theorem HasTidyIds.directoryName_key {config : EngineConfig} (tidy : config.HasTidyIds)
    {place : Nat} {rule : RuleConfig} (here : config.rules[place]? = some rule) :
    directoryName (rule.key place) = rule.key place := by
  unfold RuleConfig.key
  cases id : rule.id with
  | none => exact directoryName_number _
  | some text => exact tidy.names rule (List.mem_of_getElem? here) text id

/-- With tidy ids every rule has a log of its own. -/
theorem HasTidyIds.apart {config : EngineConfig} (tidy : config.HasTidyIds) {place place' : Nat}
    (apart : place ≠ place') : ¬ config.SharesLog place place' := by
  intro shares
  cases here : config.rules[place]? with
  | none => simp [SharesLog, here] at shares
  | some rule =>
    cases there : config.rules[place']? with
    | none => simp [SharesLog, here, there] at shares
    | some other =>
      have same_name := (rule.directoryName_key_eq_iff place other place').mpr
        ((sharesLog_iff here there).mp shares)
      rw [tidy.directoryName_key here, tidy.directoryName_key there] at same_name
      unfold RuleConfig.key at same_name
      cases id : rule.id with
      | some text =>
        cases id' : other.id with
        | some text' =>
          obtain rfl : text = text' := by simpa [id, id'] using same_name
          exact apart (tidy.different _ _ _ _ _ here there id id')
        | none =>
          obtain rfl : text = toString (place' + 1) := by simpa [id, id'] using same_name
          exact tidy.no_number rule (List.mem_of_getElem? here) _ _ there id' id
      | none =>
        cases id' : other.id with
        | some text' =>
          obtain rfl : toString (place + 1) = text' := by simpa [id, id'] using same_name
          exact tidy.no_number other (List.mem_of_getElem? there) _ _ here id id'
        | none =>
          refine apart (Nat.add_right_cancel (Nat.repr_inj.mp (?_ : (place + 1).repr = _)))
          simpa [id, id'] using same_name

end EngineConfig

end Switchboard
