import Mathlib.Data.List.Nodup
import Mathlib.Data.List.Pairwise
import Mathlib.Logic.Relation
import Switchboard.Json.Fields

/-!
# The same record written in other ways

A record is read field by field, and each field is looked for by its names. So
the order of the members does not count, members of other names do not count as
long as they can be skipped, and of several names of a field any will do. These
are the steps by which one way of writing a record leads to another; what the
fields hold is the same before and after every step.
-/
namespace Switchboard.Json

/-! ### Steps -/

/-- A step from one way of writing the members of a record to another. -/
inductive Rewrite (names : FieldNames) : List Member → List Member → Prop where
  /-- Members change their places. -/
  | reorder {members others : List Member} (perm : members.Perm others) :
      Rewrite names members others
  /-- A member comes in that is no field. -/
  | unknown {members : List Member} {name : String} {value : Document}
      (no_field : ∀ group ∈ names, name ∉ group) (intact : value.intact = true) :
      Rewrite names members ((some name, value) :: members)
  /-- A field gets another one of its names. -/
  | rename {members : List Member} {group : List String} {name other : String} {value : Document}
      (field : group ∈ names) (one : name ∈ group) (another : other ∈ group) :
      Rewrite names ((some name, value) :: members) ((some other, value) :: members)

/-- Documents that are the same, or objects that differ by some steps, back or forth. -/
inductive Rewritten (step : List Member → List Member → Prop) : Document → Document → Prop where
  | same (document : Document) : Rewritten step document document
  | object {members others : List Member} (steps : Relation.EqvGen step members others) :
      Rewritten step (.object members) (.object others)

/-! ### What the fields hold -/

variable {names : FieldNames} {members others : List Member}

theorem fieldOf?_perm (perm : members.Perm others) (group : List String) :
    fieldOf? group members = fieldOf? group others := by
  have left := perm.filter fun member => member.1.any group.contains
  unfold fieldOf?
  generalize members.filter (fun member => member.1.any group.contains) = found at left
  generalize others.filter (fun member => member.1.any group.contains) = found' at left
  match found with
  | [] => rw [left.symm.eq_nil]
  | [member] => rw [List.singleton_perm.mp left]
  | first :: second :: more =>
    obtain ⟨first', second', more', rfl⟩ : ∃ first' second' more', found' =
        first' :: second' :: more' := by
      have number := left.length_eq
      match found' with
      | [] => exact nomatch number
      | [_] => exact nomatch number
      | first' :: second' :: more' => exact ⟨first', second', more', rfl⟩
    rfl

theorem fieldOf?_skip {group : List String} {name : String} (no_name : name ∉ group)
    (value : Document) (members : List Member) :
    fieldOf? group ((some name, value) :: members) = fieldOf? group members := by
  rw [fieldOf?, List.filter_cons_of_neg (by simpa using no_name), ← fieldOf?]

/-- A member for a field is what the field holds, if there is no other one. -/
theorem fieldOf?_cons {group : List String} {name : String} (named : name ∈ group)
    (value : Document) (members : List Member) :
    fieldOf? group ((some name, value) :: members) =
      match fieldOf? group members with
      | some none => some (some value)
      | _ => none := by
  unfold fieldOf?
  rw [List.filter_cons_of_pos (by simpa using named)]
  cases members.filter (fun member => member.1.any group.contains) with
  | nil => rfl
  | cons member more => cases more <;> rfl

/-- Of the name of a member it counts only whether it is one of the field's. -/
theorem fieldOf?_rename {group : List String} {name other : String}
    (alike : name ∈ group ↔ other ∈ group) (value : Document) (members : List Member) :
    fieldOf? group ((some name, value) :: members) =
      fieldOf? group ((some other, value) :: members) := by
  by_cases named : name ∈ group
  · rw [fieldOf?_cons named, fieldOf?_cons (alike.mp named)]
  · rw [fieldOf?_skip named, fieldOf?_skip fun named' => named (alike.mpr named')]

/-- A name belongs to one field only. -/
theorem mem_group_iff (distinct : names.flatten.Nodup) {group another : List String}
    (field : group ∈ names) (field' : another ∈ names) {name other : String} (one : name ∈ group)
    (second : other ∈ group) : name ∈ another ↔ other ∈ another := by
  by_cases same : group = another
  · subst same
    exact iff_of_true one second
  · have symmetric : Std.Symm (@List.Disjoint String) := ⟨fun _ _ apart _ one other => apart other one⟩
    have apart : List.Disjoint group another :=
      (List.nodup_flatten.mp distinct).2.forall field field' same
    exact iff_of_false (apart one) (apart second)

theorem Rewrite.fieldOf?_eq (distinct : names.flatten.Nodup)
    (step : Rewrite names members others) {group : List String} (field : group ∈ names) :
    fieldOf? group members = fieldOf? group others := by
  cases step with
  | reorder perm => exact fieldOf?_perm perm group
  | unknown no_field intact => exact (fieldOf?_skip (no_field group field) _ _).symm
  | rename field' one another =>
    exact fieldOf?_rename (mem_group_iff distinct field' field one another) _ _

theorem Rewrite.readable_eq (step : Rewrite names members others) :
    readable members = readable others := by
  cases step with
  | reorder perm => exact perm.all_eq
  | unknown no_field intact => simp [readable, intact]
  | rename => simp [readable]

theorem mapM_congr {α β : Type} {f g : α → Option β} {items : List α}
    (same : ∀ item ∈ items, f item = g item) : items.mapM f = items.mapM g := by
  induction items with
  | nil => rfl
  | cons item items ih =>
    obtain ⟨here, same⟩ := List.forall_mem_cons.mp same
    rw [List.mapM_cons, List.mapM_cons, here, ih same]

/-- A record is read the same after a step. -/
theorem Rewrite.fields_eq (distinct : names.flatten.Nodup) (step : Rewrite names members others) :
    fieldsOfMembers? names members = fieldsOfMembers? names others := by
  unfold fieldsOfMembers?
  rw [step.readable_eq, mapM_congr fun group field => step.fieldOf?_eq distinct field]

theorem intactMembers_eq (members : List Member) :
    Document.intactMembers members = members.all fun member => member.2.intact := by
  induction members with
  | nil => rfl
  | cons member members ih => rw [Document.intactMembers, ih, List.all_cons]

/-- A complete document stays complete. -/
theorem Rewrite.intact_eq (step : Rewrite names members others) :
    (Document.object members).intact = (Document.object others).intact := by
  rw [Document.intact, Document.intact, intactMembers_eq, intactMembers_eq]
  cases step with
  | reorder perm => exact perm.all_eq
  | unknown no_field intact => simp [intact]
  | rename => rfl

mutual

/-- Documents that denote values are complete. -/
theorem intact_ofValue : ∀ value : Json, (Document.ofValue value).intact = true
  | .null | .bool _ | .int _ | .float _ | .string _ => rfl
  | .array items => intact_ofItems items
  | .object members => intact_ofMembers members

theorem intact_ofItems : ∀ items : List Json,
    Document.intactItems (Document.ofItems items) = true
  | [] => rfl
  | item :: rest => by
    rw [Document.ofItems, Document.intactItems, intact_ofValue item, intact_ofItems rest]
    rfl

theorem intact_ofMembers : ∀ members : List (String × Json),
    Document.intactMembers (Document.ofMembers members) = true
  | [] => rfl
  | (name, value) :: rest => by
    rw [Document.ofMembers, Document.intactMembers, intact_ofValue value, intact_ofMembers rest]
    rfl

end

theorem readable_ofMembers (members : List (String × Json)) :
    readable (Document.ofMembers members) = true := by
  induction members with
  | nil => rfl
  | cons member members ih =>
    obtain ⟨name, value⟩ := member
    rw [readable] at ih ⊢
    rw [Document.ofMembers, List.all_cons, ih]
    dsimp only
    rw [intact_ofValue]
    rfl

/-- Whatever every step keeps of an object, is kept when it is written in another way. -/
theorem Rewritten.keeps {α : Type u} {step : List Member → List Member → Prop}
    {read : Document → α}
    (kept : ∀ members others, step members others → read (.object members) = read (.object others))
    {document other : Document} (rewritten : Rewritten step document other) :
    read document = read other := by
  cases rewritten with
  | same => rfl
  | object steps =>
    induction steps with
    | rel _ _ step => exact kept _ _ step
    | refl => rfl
    | symm _ _ _ ih => exact ih.symm
    | trans _ _ _ _ _ first second => exact first.trans second

end Switchboard.Json
