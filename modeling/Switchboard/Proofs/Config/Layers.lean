import Mathlib
import Switchboard.Config.Load
import Switchboard.Proofs.Json.Members
import Switchboard.Proofs.Text.Words

/-!
# Layers of settings

A layer that is laid over another one replaces or extends what it names, and
leaves the rest. It takes no name away. The settings of a file have every name
once, whatever the format, and no name that the environment sets has a capital
letter in it.
-/
namespace Switchboard

namespace Setting

open Json

/-- A setting laid over what stands at its place, if anything does. -/
def laidOver (old : Option Setting) (setting : Setting) : Setting :=
  match old with
  | some old => overlay old setting
  | none => setting

variable {under members : List (String × Setting)}

theorem overlayMembers_cons (under : List (String × Setting)) (name : String) (setting : Setting)
    (rest : List (String × Setting)) : overlayMembers under ((name, setting) :: rest) =
      overlayMembers (insertMember name (laidOver (under.lookup name) setting) under) rest := by
  rw [overlayMembers]
  rfl

theorem overlay_table (under members : List (String × Setting)) :
    overlay (.table under) (.table members) = .table (overlayMembers under members) := by
  rw [overlay]

theorem ordered_overlayMembers (ordered : Ordered under) (members : List (String × Setting)) :
    Ordered (overlayMembers under members) := by
  induction members generalizing under with
  | nil => exact ordered
  | cons member rest ih =>
    rw [overlayMembers_cons]
    exact ih (ordered.insertMember _ _)

/-- No name is lost, and none is added that is in neither layer. -/
theorem isSome_lookup_overlayMembers (under members : List (String × Setting)) (name : String) :
    ((overlayMembers under members).lookup name).isSome =
      ((under.lookup name).isSome || (members.lookup name).isSome) := by
  induction members generalizing under with
  | nil => exact (Bool.or_false _).symm
  | cons member rest ih =>
    obtain ⟨here, setting⟩ := member
    rw [overlayMembers_cons, ih, lookup_insertMember, lookup_member]
    by_cases same : name = here <;> simp [same]

/-- What is found under a name depends on nothing else that is below. -/
theorem lookup_overlayMembers_congr {under under' : List (String × Setting)} {name : String}
    (same : under.lookup name = under'.lookup name) (members : List (String × Setting)) :
    (overlayMembers under members).lookup name = (overlayMembers under' members).lookup name := by
  induction members generalizing under under' with
  | nil => exact same
  | cons member rest ih =>
    obtain ⟨here, setting⟩ := member
    rw [overlayMembers_cons, overlayMembers_cons]
    refine ih ?_
    rw [lookup_insertMember, lookup_insertMember]
    by_cases replaced : name = here
    · subst replaced
      rw [same]
    · rw [if_neg replaced, if_neg replaced, same]

theorem lookup_overlayMembers_of_none (under : List (String × Setting)) {name : String}
    (nothing : members.lookup name = none) :
    (overlayMembers under members).lookup name = under.lookup name := by
  induction members generalizing under with
  | nil => rfl
  | cons member rest ih =>
    obtain ⟨here, setting⟩ := member
    rw [lookup_member] at nothing
    split at nothing
    · cases nothing
    · rename_i other
      rw [overlayMembers_cons, ih _ nothing, lookup_insertMember, if_neg other]

/-- What is found in a layer that is laid over another one. -/
theorem lookup_overlayMembers (ordered : Ordered members) (under : List (String × Setting))
    (name : String) : (overlayMembers under members).lookup name =
      match members.lookup name with
      | none => under.lookup name
      | some setting => some (laidOver (under.lookup name) setting) := by
  induction members generalizing under with
  | nil => rfl
  | cons member rest ih =>
    obtain ⟨here, setting⟩ := member
    obtain ⟨first, later⟩ := List.pairwise_cons.mp ordered
    rw [overlayMembers_cons, ih later, lookup_member]
    by_cases same : name = here
    · subst same
      have nothing : rest.lookup name = none := lookup_eq_none fun next there =>
        ne_of_gt (first next there)
      rw [nothing, lookup_insertMember]
      simp
    · rw [lookup_insertMember, if_neg same, if_neg same]

end Setting

/-! ### Files -/

section Files

open Json

theorem Json.ordered_ofMembers {α : Type} (members : List (String × α)) :
    Ordered (members.foldl (fun object member => insertMember member.1 member.2 object) []) := by
  have all (object : List (String × α)) (ordered : Ordered object) :
      Ordered (members.foldl (fun object member => insertMember member.1 member.2 object)
        object) := by
    induction members generalizing object with
    | nil => exact ordered
    | cons member rest ih => exact ih _ (ordered.insertMember _ _)
  exact all [] .nil

/-- Members of the same names in the same order. -/
theorem Json.Ordered.of_names {α β : Type} {members : List (String × α)}
    {others : List (String × β)} (ordered : Ordered members)
    (names : others.map Prod.fst = members.map Prod.fst) : Ordered others := by
  have lift {γ : Type} (members : List (String × γ)) :
      Ordered members ↔ (members.map Prod.fst).Pairwise (· < ·) :=
    List.pairwise_map.symm
  rw [lift] at ordered ⊢
  rwa [names]

theorem Setting.names_ofObject (members : List (String × Json)) :
    (Setting.ofObject members).map Prod.fst = members.map Prod.fst := by
  induction members with
  | nil => rfl
  | cons member rest ih => exact congrArg _ ih

theorem Json.ordered_of_value {depth : Nat} {document : Document} {members : List (String × Json)}
    (reads : document.value? depth = some (.object members)) : Ordered members := by
  cases document with
  | object given =>
    cases depth with
    | zero =>
      rw [Document.value?] at reads
      cases reads
    | succ depth =>
      rw [Document.value?] at reads
      obtain ⟨values, _, same⟩ := Option.map_eq_some_iff.mp reads
      obtain rfl := Json.object.inj same
      exact ordered_ofMembers values
  | broken | null | bool _ => simp [Document.value?] at reads
  | number value => rcases value with _ | _ | _ <;> simp [Document.value?] at reads
  | string text => simp [Document.value?] at reads
  | array items => cases depth <;> simp [Document.value?] at reads

namespace Toml

/-- A change of a table that keeps its members in order. -/
def Orderly (change : Members → Option Members) : Prop :=
  ∀ members after, Ordered members → change members = some after → Ordered after

theorem orderly_within (step : Standing) {change : Change}
    (orderly : ∀ standing, Orderly (change standing)) (path : List String) (standing : Standing) :
    Orderly (within step change path standing) := by
  intro members after ordered changes
  cases path with
  | nil => exact orderly standing members after ordered changes
  | cons name rest =>
    rw [within] at changes
    split at changes
    · obtain ⟨inner, _, rfl⟩ := Option.map_eq_some_iff.mp changes
      exact ordered.insertMember _ _
    · cases changes
    · split at changes
      · cases changes
      · obtain ⟨inner, _, rfl⟩ := Option.map_eq_some_iff.mp changes
        exact ordered.insertMember _ _
    · split at changes
      · cases changes
      · obtain ⟨last, _, rfl⟩ := Option.map_eq_some_iff.mp changes
        exact ordered.insertMember _ _

theorem orderly_define (name : String) (setting : Setting) : Orderly (define name setting) := by
  intro members after ordered changes
  unfold define at changes
  split at changes
  · cases changes
  · obtain rfl := Option.some.inj changes
    exact ordered.insertMember _ _

theorem orderly_openTable (name : String) : Orderly (openTable name) := by
  intro members after ordered changes
  unfold openTable at changes
  split at changes
  · obtain rfl := Option.some.inj changes
    exact ordered.insertMember _ _
  · obtain rfl := Option.some.inj changes
    exact ordered.insertMember _ _
  · cases changes

theorem orderly_addTable (name : String) : Orderly (addTable name) := by
  intro members after ordered changes
  unfold addTable at changes
  split at changes
  · obtain rfl := Option.some.inj changes
    exact ordered.insertMember _ _
  · obtain rfl := Option.some.inj changes
    exact ordered.insertMember _ _
  · cases changes

theorem orderly_assign (key : List String) (setting : Setting) : Orderly (assign key setting) := by
  have pointed (name : String) (standing : Standing) :
      Orderly fun members => if standing = .pointed then define name setting members else none := by
    intro members after ordered changes
    dsimp only at changes
    split at changes
    · exact orderly_define name setting members after ordered changes
    · cases changes
  intro members after ordered changes
  unfold assign at changes
  split at changes
  · cases changes
  · exact orderly_define _ setting members after ordered changes
  · exact orderly_within .pointed (pointed _) _ .opened members after ordered changes

theorem orderly_atHeader {change : String → Members → Option Members}
    (orderly : ∀ name, Orderly (change name)) (path : List String) :
    Orderly (atHeader change path) := by
  intro members after ordered changes
  unfold atHeader at changes
  split at changes
  · cases changes
  · exact orderly_within .implied (fun _ => orderly _) _ .opened members after ordered changes

/-- No statement brings the members of the document out of order. -/
theorem State.ordered_after {state next : State} {statement : Statement}
    (ordered : Ordered state.members) (goes : state.after statement = some next) :
    Ordered next.members := by
  cases statement with
  | assign key setting =>
    obtain ⟨members, changes, rfl⟩ := Option.map_eq_some_iff.mp goes
    exact orderly_within .implied (fun _ => orderly_assign key setting) _ .opened _ _ ordered
      changes
  | table path =>
    obtain ⟨members, changes, rfl⟩ := Option.map_eq_some_iff.mp goes
    exact orderly_atHeader orderly_openTable path _ _ ordered changes
  | append path =>
    obtain ⟨members, changes, rfl⟩ := Option.map_eq_some_iff.mp goes
    exact orderly_atHeader orderly_addTable path _ _ ordered changes

theorem State.ordered_foldlM {statements : List Statement} {state last : State}
    (ordered : Ordered state.members) (goes : statements.foldlM State.after state = some last) :
    Ordered last.members := by
  induction statements generalizing state with
  | nil =>
    obtain rfl := Option.some.inj goes
    exact ordered
  | cons statement rest ih =>
    rw [List.foldlM_cons] at goes
    obtain ⟨next, first, goes⟩ := Option.bind_eq_some_iff.mp goes
    exact ih (State.ordered_after ordered first) goes

theorem names_settings (members : Members) :
    (settings members).map Prod.fst = members.map Prod.fst := by
  induction members with
  | nil => rfl
  | cons member rest ih =>
    obtain ⟨name, part⟩ := member
    rw [settings]
    exact congrArg _ ih

end Toml

/-- Settings in which every name of the outermost table stands once, and in order. -/
def Setting.Tidy (setting : Setting) : Prop := ∀ members, setting = .table members → Ordered members

theorem Json.tidy_ofText? {text : String} {value : Json} (reads : ofText? text = some value) :
    (Setting.ofJson value).Tidy := by
  rintro members same
  unfold ofText? at reads
  split at reads
  · cases value with
    | object given =>
      rw [Setting.ofJson] at same
      injection same with same
      subst same
      exact (ordered_of_value reads).of_names (Setting.names_ofObject given)
    | null | bool _ | int _ | float _ | string _ | array _ =>
      rw [Setting.ofJson] at same
      cases same
  · cases reads

theorem Toml.tidy_ofText? {text : String} {setting : Setting}
    (reads : Toml.ofText? text = some setting) : setting.Tidy := by
  rintro members rfl
  obtain ⟨statements, _, reads⟩ := Option.bind_eq_some_iff.mp reads
  obtain ⟨last, goes, same⟩ := Option.map_eq_some_iff.mp reads
  injection same with same
  subst same
  exact (State.ordered_foldlM .nil goes).of_names (names_settings last.members)

/-- An untagged table is read member by member. -/
theorem Yaml.Node.setting?_table (depth : Nat) (members : List (Node × Node)) (scope : Scope) :
    (Node.table none members).setting? (depth + 1) scope =
      (scope.members (Node.setting? depth) members).map fun (settings, scope) =>
        (.ofMembers settings, scope) := by
  rw [Node.setting?.eq_def]
  rfl

theorem Yaml.Node.ordered_settings {named : List Named} {node : Node}
    {members : List (String × Setting)} (reads : node.settings? named = some (.table members)) :
    Ordered members := by
  unfold Node.settings? at reads
  dsimp only at reads
  split at reads
  · injection reads with same
    injection same with same
    subst same
    exact .nil
  · obtain ⟨⟨setting, after⟩, table, rfl⟩ := Option.map_eq_some_iff.mp reads
    rw [nestingLimit, Node.setting?_table] at table
    obtain ⟨⟨settings, scope⟩, _, same⟩ := Option.map_eq_some_iff.mp table
    have same := Setting.table.inj (Prod.mk.inj same).1
    subst same
    exact ordered_ofMembers settings
  · cases reads

theorem Yaml.tidy_ofText? {text : String} {setting : Setting}
    (reads : Yaml.ofText? text = some setting) : setting.Tidy := by
  rintro members rfl
  unfold Yaml.ofText? at reads
  split at reads
  · cases reads
  · injection reads with same
    injection same with same
    subst same
    exact .nil
  · exact Node.ordered_settings reads

theorem Setting.names_unwrapMembers? {members unwrapped : List (String × Setting)}
    (unwraps : unwrapMembers? members = some unwrapped) :
    unwrapped.map Prod.fst = members.map Prod.fst := by
  induction members generalizing unwrapped with
  | nil =>
    obtain rfl := Option.some.inj unwraps
    rfl
  | cons member rest ih =>
    obtain ⟨name, setting⟩ := member
    rw [unwrapMembers?, List.mapM_cons] at unwraps
    obtain ⟨first, first_unwraps, unwraps⟩ := Option.bind_eq_some_iff.mp unwraps
    obtain ⟨later, rest_unwraps, same⟩ := Option.bind_eq_some_iff.mp unwraps
    obtain rfl := Option.some.inj same
    obtain ⟨inner, _, rfl⟩ := Option.map_eq_some_iff.mp first_unwraps
    exact congrArg (name :: ·) (ih rest_unwraps)

/-- The settings of a file have every name once. -/
theorem FileFormat.ordered_settings {format : FileFormat} {text : String}
    {members : List (String × Setting)}
    (reads : format.settings? text = some (.table members)) : Ordered members := by
  unfold FileFormat.settings? at reads
  split at reads
  · rename_i given raw
    obtain ⟨unwrapped, unwraps, same⟩ := Option.map_eq_some_iff.mp reads
    obtain rfl := Setting.table.inj same
    have tidy : (Setting.table given).Tidy := by
      cases format with
      | json =>
        obtain ⟨value, reads, same⟩ := Option.map_eq_some_iff.mp raw
        rw [← same]
        exact Json.tidy_ofText? reads
      | yaml => exact Yaml.tidy_ofText? raw
      | toml => exact Toml.tidy_ofText? raw
    exact (tidy given rfl).of_names (Setting.names_unwrapMembers? unwraps)
  · cases reads

end Files

/-! ### The environment -/

/-- A text without capital letters of the Latin alphabet. -/
def Lowered (name : String) : Prop := ∀ c ∈ name.toList, c.isUpper = false

namespace Variable

/-- A variable leads through at least one member, and all of them are named in small letters. -/
theorem path?_lowered {name : String} {path : List String} (leads : path? name = some path) :
    path ≠ [] ∧ ∀ part ∈ path, Lowered part := by
  unfold path? at leads
  split at leads
  · cases leads
  · dsimp only at leads
    split at leads
    · cases leads
    · obtain rfl := Option.some.inj leads
      refine ⟨fun none_left => Text.pieces_ne_nil _ _ (List.map_eq_nil_iff.mp none_left), ?_⟩
      intro part there c within
      obtain ⟨piece, cut, rfl⟩ := List.mem_map.mp there
      rw [String.toList_ofList] at within
      obtain ⟨d, _, rfl⟩ := List.mem_map.mp (Text.mem_of_pieces cut c within)
      exact Char.isUpper_toLower_eq_false d

/-- A table whose members are named in small letters. -/
def LowTable (setting : Setting) : Prop :=
  ∃ members, setting = .table members ∧ ∀ name, (members.lookup name).isSome → Lowered name

theorem LowTable.nested {path : List String} (leads : path ≠ []) (low : ∀ part ∈ path, Lowered part)
    (setting : Setting) : LowTable (Setting.nested path setting) := by
  obtain ⟨first, rest, rfl⟩ := List.exists_cons_of_ne_nil leads
  refine ⟨[(first, Setting.nested rest setting)], rfl, fun name found => ?_⟩
  rw [Json.lookup_member] at found
  split at found
  · rename_i same
    rw [same]
    exact low first List.mem_cons_self
  · cases found

theorem LowTable.overlay {lower upper : Setting} (low : LowTable lower) (low' : LowTable upper) :
    LowTable (lower.overlay upper) := by
  obtain ⟨under, rfl, names⟩ := low
  obtain ⟨members, rfl, names'⟩ := low'
  refine ⟨_, Setting.overlay_table under members, fun name found => ?_⟩
  rw [Setting.isSome_lookup_overlayMembers, Bool.or_eq_true] at found
  exact found.elim (names name) (names' name)

theorem mem_mapM {α β ε : Type} {f : α → Except ε β} {xs : List α} {ys : List β}
    (maps : xs.mapM f = .ok ys) : ∀ y ∈ ys, ∃ x ∈ xs, f x = .ok y := by
  induction xs generalizing ys with
  | nil =>
    obtain rfl := Except.ok.inj maps
    exact nofun
  | cons x rest ih =>
    rw [List.mapM_cons] at maps
    cases here : f x with
    | error e =>
      rw [here] at maps
      cases maps
    | ok y =>
      cases later : rest.mapM f with
      | error e =>
        rw [here, later] at maps
        cases maps
      | ok others =>
        rw [here, later] at maps
        obtain rfl := Except.ok.inj maps
        intro z there
        rcases List.mem_cons.mp there with rfl | there
        · exact ⟨x, List.mem_cons_self, here⟩
        · obtain ⟨x', member, same⟩ := ih later z there
          exact ⟨x', List.mem_cons_of_mem _ member, same⟩

theorem LowTable.foldl {layers : List Setting} (each : ∀ layer ∈ layers, LowTable layer)
    {lower : Setting} (low : LowTable lower) : LowTable (layers.foldl Setting.overlay lower) := by
  induction layers generalizing lower with
  | nil => exact low
  | cons layer rest ih =>
    obtain ⟨first, later⟩ := List.forall_mem_cons.mp each
    exact ih later (low.overlay first)

theorem LowTable.of_variable {path : List String} {value : String} {setting : Setting}
    {name : String} (leads : path? name = some path)
    (means : (valueOf value).map (Setting.nested path) = .ok setting) : LowTable setting := by
  obtain ⟨nonempty, low⟩ := path?_lowered leads
  cases meant : valueOf value with
  | error e =>
    rw [meant] at means
    cases means
  | ok inner =>
    rw [meant] at means
    obtain rfl := Except.ok.inj means
    exact .nested nonempty low inner

/-- The environment amounts to a table, and sets no name that has a capital letter in it. -/
theorem settings_low {environment : List Variable} {setting : Setting}
    (reads : settings environment = .ok setting) : LowTable setting := by
  unfold settings at reads
  dsimp only at reads
  generalize environment.mergeSort (fun a b => a.name ≤ b.name) = sorted at reads
  cases maps : (sorted.filterMap fun given =>
      (path? given.name).map fun path => (path, given.value)).mapM
        fun (path, value) => (valueOf value).map (Setting.nested path) with
  | error e =>
    rw [maps] at reads
    cases reads
  | ok layers =>
    rw [maps] at reads
    obtain rfl := Except.ok.inj reads
    refine .foldl (fun layer there => ?_) ⟨[], rfl, nofun⟩
    obtain ⟨⟨path, value⟩, placed, means⟩ := mem_mapM maps layer there
    obtain ⟨given, _, placed⟩ := List.mem_filterMap.mp placed
    obtain ⟨path', leads, same⟩ := Option.map_eq_some_iff.mp placed
    obtain ⟨rfl, rfl⟩ := Prod.mk.inj same
    exact .of_variable leads means

end Variable

end Switchboard
