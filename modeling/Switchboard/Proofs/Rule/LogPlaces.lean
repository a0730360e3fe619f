import Switchboard.Proofs.Json.Members
import Switchboard.Proofs.Rule.LogNames
import Switchboard.Proofs.Text.Cut

/-!
# Where a log is kept

A key can be any text, and the path of a log is put together from the key's
name. The name is safe: it has letters, digits and a few other characters, and
no dot at its ends, so it is neither empty nor a way to stay or to go up. A
path that ends in such a name leads one step down from where the rest of it
leads. Names that are safe are their own names, so cleaning up a key twice is
cleaning it up once, and the logs in use are the same whether they are asked
for by keys or by names.
-/
namespace Switchboard

/-! ## Where paths lead -/

/-- Where a name leads from a directory, which is given by the names on the way down to it. -/
def stepInto (here : List String) (name : String) : List String :=
  if name = "" ∨ name = "." then here
  else if name = ".." then here.dropLast
  else here ++ [name]

/-- Where a path leads from a directory. -/
def destination (here : List String) (path : String) : List String :=
  (Text.splitAt '/' path).foldl stepInto (if path.toList.head? = some '/' then [] else here)

example : destination ["srv"] "logs/../rules//./a" = ["srv", "rules", "a"] := by decide

theorem stepInto_empty (here : List String) : stepInto here "" = here := if_pos (.inl rfl)

theorem splitAt_slash (stem : String) {name : String} (single : '/' ∉ name.toList) :
    Text.splitAt '/' (stem ++ "/" ++ name) = Text.splitAt '/' stem ++ [name] :=
  (Text.splitAt_between '/' stem name).trans (congrArg _ (Text.splitAt_of_not_mem single))

theorem splitAt_trailing (stem : String) :
    Text.splitAt '/' (stem ++ "/") = Text.splitAt '/' stem ++ [""] := by
  rw [← splitAt_slash stem (show '/' ∉ "".toList from nofun), String.append_empty]

theorem head?_toList_append {first : String} (nonempty : first ≠ "") (more : String) :
    (first ++ more).toList.head? = first.toList.head? := by
  have some_char : first.toList ≠ [] := fun empty => nonempty (String.toList_eq_nil_iff.mp empty)
  rw [String.toList_append, List.head?_append_of_ne_nil _ some_char]

/-- A name behind a slash is one step from where the path before it leads. -/
theorem destination_slash (here : List String) (stem : String) {name : String}
    (single : '/' ∉ name.toList) :
    destination here (stem ++ "/" ++ name) = stepInto (destination here (stem ++ "/")) name := by
  have nonempty : stem ++ "/" ≠ "" := by simp
  rw [destination, destination, splitAt_slash stem single, splitAt_trailing,
    head?_toList_append nonempty, List.foldl_append, List.foldl_append, List.foldl_cons,
    List.foldl_cons, List.foldl_nil, List.foldl_nil, stepInto_empty]

/-- A slash at the end of a path makes no difference. -/
theorem destination_trailing (here : List String) {path : String} (nonempty : path ≠ "") :
    destination here (path ++ "/") = destination here path := by
  rw [destination, destination, splitAt_trailing, head?_toList_append nonempty, List.foldl_append,
    List.foldl_cons, List.foldl_nil, stepInto_empty]

/-- A name that is put behind a path is one step from where the path leads. -/
theorem destination_pathWithin (here : List String) (directory : String) {name : String}
    (single : '/' ∉ name.toList) :
    destination here (pathWithin directory name) = stepInto (destination here directory) name := by
  unfold pathWithin
  split
  · rename_i ends
    rcases ends with rfl | slash
    · have relative : ¬name.toList.head? = some '/' := fun first =>
        single (List.mem_of_mem_head? first)
      rw [String.empty_append, destination, if_neg relative, Text.splitAt_of_not_mem single]
      rfl
    · obtain ⟨stem, whole⟩ := List.getLast?_eq_some_iff.mp slash
      obtain rfl : directory = String.ofList stem ++ "/" := by
        rw [← String.toList_inj, String.toList_append, String.toList_ofList, whole]
        rfl
      exact destination_slash here _ single
  · rename_i open_end
    rw [destination_slash here _ single, destination_trailing here (not_or.mp open_end).1]

namespace RuleLog

/-! ## Safe names -/

/-- The characters that a safe name may have. -/
def IsSafeChar (c : Char) : Prop :=
  ('A' ≤ c ∧ c ≤ 'Z') ∨ ('a' ≤ c ∧ c ≤ 'z') ∨ ('0' ≤ c ∧ c ≤ '9') ∨ c = '-' ∨ c = '_' ∨ c = '.'

/-- A name that is safe for a directory. -/
structure IsSafeName (name : String) : Prop where
  nonempty : name ≠ ""
  chars : ∀ c ∈ name.toList, IsSafeChar c
  undotted : Undotted name.toList

theorem isHarmless_iff (c : Char) : isHarmless c = true ↔ IsSafeChar c := by
  simp only [isHarmless, Char.isAlphanum, Char.isAlpha, Char.isUpper, Char.isLower, Char.isDigit,
    IsSafeChar, Bool.or_eq_true, Bool.and_eq_true, decide_eq_true_eq, beq_iff_eq, ge_iff_le,
    Char.le_def, or_assoc]

theorem isSafeChar_shown (c : Char) : IsSafeChar (shown c) := by
  rw [← isHarmless_iff, shown]
  split
  · assumption
  · rfl

theorem eq_dot_of_shown {c : Char} (dot : shown c = '.') : c = '.' := by
  have same := shown_dot c
  rw [dot] at same
  exact eq_of_beq same.symm

theorem undotted_bare (key : String) : Undotted (bare key) := by
  unfold bare
  split
  · exact .of_not_mem (by decide)
  · exact undotted_trimDots _

theorem bare_ne_nil (key : String) : bare key ≠ [] := by
  unfold bare
  split
  · exact List.cons_ne_nil _ _
  · assumption

theorem Undotted.map_shown {text : List Char} (undotted : Undotted text) :
    Undotted (text.map shown) where
  first := by
    rw [List.head?_map]
    intro dot
    obtain ⟨c, first, dotted⟩ := Option.map_eq_some_iff.mp dot
    exact undotted.first (first.trans (congrArg some (eq_dot_of_shown dotted)))
  last := by
    rw [List.getLast?_map]
    intro dot
    obtain ⟨c, last, dotted⟩ := Option.map_eq_some_iff.mp dot
    exact undotted.last (last.trans (congrArg some (eq_dot_of_shown dotted)))

/-- The name of a log is safe, whatever the key. -/
theorem isSafeName_directoryName (key : String) : IsSafeName (directoryName key) := by
  have name : (directoryName key).toList = (bare key).map shown := by
    rw [directoryName_eq, String.toList_ofList]
  refine ⟨?_, ?_, ?_⟩
  · intro empty
    rw [empty] at name
    exact bare_ne_nil key (List.map_eq_nil_iff.mp name.symm)
  · rw [name]
    intro c member
    obtain ⟨d, _, rfl⟩ := List.mem_map.mp member
    exact isSafeChar_shown d
  · rw [name]
    exact (undotted_bare key).map_shown

example : directoryName "../bilge pump / aft." = "_bilge_pump___aft" := by decide

/-- The names that are safe stay as they are. -/
theorem directoryName_eq_self_iff {name : String} : directoryName name = name ↔ IsSafeName name := by
  constructor
  · intro same
    rw [← same]
    exact isSafeName_directoryName name
  · intro safe
    have some_char : name.toList ≠ [] := fun empty => safe.nonempty (String.toList_eq_nil_iff.mp empty)
    exact safe.undotted.directoryName_eq some_char fun c member =>
      (isHarmless_iff c).mpr (safe.chars c member)

namespace IsSafeName

variable {name : String}

theorem not_mem_slash (safe : IsSafeName name) : '/' ∉ name.toList := fun member =>
  nomatch (isHarmless_iff '/').mpr (safe.chars '/' member)

/-- A safe name leads to a child. -/
theorem stepInto_eq (safe : IsSafeName name) (here : List String) :
    stepInto here name = here ++ [name] := by
  have no_stay : name ≠ "." := by
    rintro rfl
    exact safe.undotted.first rfl
  have no_way_up : name ≠ ".." := by
    rintro rfl
    exact safe.undotted.first rfl
  rw [stepInto, if_neg (not_or.mpr ⟨safe.nonempty, no_stay⟩), if_neg no_way_up]

/-- The directory of a log is a child of the directory of all logs. -/
theorem destination_path (safe : IsSafeName name) (site : Site) (here : List String) :
    destination here (site.path name) = destination here (rootUnder site.root) ++ [name] :=
  (destination_pathWithin here _ safe.not_mem_slash).trans (safe.stepInto_eq _)

end IsSafeName

/-! ## Logs in use -/

theorem directoryName_idem (key : String) :
    directoryName (directoryName key) = directoryName key :=
  directoryName_eq_self_iff.mpr (isSafeName_directoryName key)

/-- What can be done with the logs on a shelf. -/
inductive Use where
  | get (key : String)
  | remove (key : String)
  | clear

/-- The same use with the name of the log for its key. -/
def Use.named : Use → Use
  | .get key => .get (directoryName key)
  | .remove key => .remove (directoryName key)
  | .clear => .clear

namespace Shelf

variable (shelf : Shelf) (key : String)

/-- One use of a shelf, with the log that it gives. -/
def perform : Use → Shelf × Option Place
  | .get key => ((shelf.get key).1, some (shelf.get key).2)
  | .remove key => (shelf.remove key, none)
  | .clear => (shelf.clear, none)

/-- Uses of a shelf one after the other, with the logs that they give. -/
def performAll : Shelf → List Use → Shelf × List (Option Place)
  | shelf, [] => (shelf, [])
  | shelf, use :: rest =>
    let later := (shelf.perform use).1.performAll rest
    (later.1, (shelf.perform use).2 :: later.2)

theorem get_directoryName : shelf.get (directoryName key) = shelf.get key := by
  unfold get
  rw [directoryName_idem]

theorem remove_directoryName : shelf.remove (directoryName key) = shelf.remove key := by
  unfold remove
  rw [directoryName_idem]

/-- A log that is asked for is in use under its name, and all others stay as they are. -/
theorem lookup_get (name : String) :
    (shelf.get key).1.logs.lookup name =
      if name = directoryName key then some (shelf.get key).2.number
      else shelf.logs.lookup name := by
  unfold get
  dsimp only
  split
  · rename_i number found
    split
    · rename_i same
      rw [same]
      exact found
    · rfl
  · exact Json.lookup_member _ _ _ _

/-- A log that is removed is not in use any more, and all others stay as they are. -/
theorem lookup_remove (name : String) :
    (shelf.remove key).logs.lookup name =
      if name = directoryName key then none else shelf.logs.lookup name := by
  unfold remove
  dsimp only
  induction shelf.logs with
  | nil => exact (ite_self none).symm
  | cons entry logs ih =>
    obtain ⟨other, number⟩ := entry
    rw [List.filter_cons]
    by_cases removed : other = directoryName key
    · subst removed
      rw [if_neg (by simp), ih, Json.lookup_member]
      split <;> rfl
    · rw [if_pos (by simpa using removed), Json.lookup_member, Json.lookup_member, ih]
      split
      · rename_i same
        rw [if_neg (same ▸ removed)]
      · rfl

theorem perform_named (use : Use) : shelf.perform use.named = shelf.perform use := by
  cases use with
  | get key => exact congrArg (fun taken => (taken.1, some taken.2)) (shelf.get_directoryName key)
  | remove key => exact congrArg (·, none) (shelf.remove_directoryName key)
  | clear => rfl

/-- It makes no difference whether logs are asked for, or removed, by their keys or by their names. -/
theorem performAll_named (uses : List Use) :
    shelf.performAll (uses.map Use.named) = shelf.performAll uses := by
  induction uses generalizing shelf with
  | nil => rfl
  | cons use rest ih => rw [List.map_cons, performAll, performAll, perform_named, ih]

end Shelf

/--
The name of a log is safe, whatever the key. The names that stay as they are when they are cleaned
up are those that are safe, so cleaning up a second time changes nothing. The directory of the log is
a child of the directory of all rule logs, wherever that is. A key and its name are one log: it is
taken into use and put out of use under the name, and no other log is touched. So all uses of a shelf
give the same logs, and leave the same logs in use, if every key is replaced by its name.
-/
theorem logs_are_children (key : String) :
    IsSafeName (directoryName key) ∧
    (∀ name, directoryName name = name ↔ IsSafeName name) ∧
    directoryName (directoryName key) = directoryName key ∧
    (∀ (site : Site) (here : List String),
      destination here (site.path (directoryName key)) =
        destination here (rootUnder site.root) ++ [directoryName key]) ∧
    (∀ shelf : Shelf,
      shelf.get (directoryName key) = shelf.get key ∧
      shelf.remove (directoryName key) = shelf.remove key ∧
      ∀ name,
        (shelf.get key).1.logs.lookup name =
          (if name = directoryName key then some (shelf.get key).2.number
          else shelf.logs.lookup name) ∧
        (shelf.remove key).logs.lookup name =
          if name = directoryName key then none else shelf.logs.lookup name) ∧
    ∀ (shelf : Shelf) (uses : List Use),
      shelf.performAll (uses.map Use.named) = shelf.performAll uses := by
  have safe := isSafeName_directoryName key
  refine ⟨safe, fun name => directoryName_eq_self_iff, directoryName_idem key,
    safe.destination_path, fun shelf => ?_, Shelf.performAll_named⟩
  refine ⟨shelf.get_directoryName key, shelf.remove_directoryName key, fun name => ?_⟩
  exact ⟨shelf.lookup_get key name, shelf.lookup_remove key name⟩

end RuleLog

end Switchboard
