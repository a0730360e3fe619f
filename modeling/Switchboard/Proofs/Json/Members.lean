import Mathlib.Data.String.Basic
import Switchboard.Json.Fields

/-!
# Members in order

The members of an object are kept in the order of their names, so that every
name occurs once. What such members amount to is then told by looking names
up. Putting a member in its place changes what is found under its name, and
nothing else.
-/
namespace Switchboard.Json

variable {α : Type u} {members others : List (String × α)} {name : String} {value : α}

/-- Members in the order of their names, every name once. -/
def Ordered (members : List (String × α)) : Prop := members.Pairwise fun one next => one.1 < next.1

theorem lookup_member (name : String) (value : α) (members : List (String × α)) (other : String) :
    ((name, value) :: members).lookup other =
      if other = name then some value else members.lookup other := by
  rw [List.lookup_cons]
  by_cases same : other = name
  · simp [same]
  · rw [beq_eq_false_iff_ne.mpr same, if_neg same]

theorem mem_of_lookup (found : members.lookup name = some value) : (name, value) ∈ members := by
  induction members with
  | nil => cases found
  | cons member rest ih =>
    obtain ⟨other, old⟩ := member
    rw [lookup_member] at found
    split at found
    · rename_i same
      obtain rfl := same
      obtain rfl := Option.some.inj found
      exact List.mem_cons_self
    · exact List.mem_cons_of_mem _ (ih found)

theorem lookup_eq_none (absent : ∀ member ∈ members, member.1 ≠ name) :
    members.lookup name = none := by
  cases found : members.lookup name with
  | none => rfl
  | some value => exact absurd rfl (absent _ (mem_of_lookup found))

/-- Only what is found under the name of the member changes. -/
theorem lookup_insertMember (members : List (String × α)) (name : String) (value : α)
    (other : String) : (insertMember name value members).lookup other =
      if other = name then some value else members.lookup other := by
  induction members with
  | nil => exact lookup_member name value [] other
  | cons member rest ih =>
    obtain ⟨here, old⟩ := member
    rw [insertMember]
    split
    · exact lookup_member name value _ other
    · split
      · rename_i replaced
        subst replaced
        simp only [lookup_member]
        split <;> rfl
      · rename_i different
        simp only [lookup_member, ih]
        by_cases same : other = here
        · subst same
          simp [Ne.symm different]
        · simp [same]

theorem mem_insertMember {member : String × α} (there : member ∈ insertMember name value members) :
    member = (name, value) ∨ member ∈ members := by
  induction members with
  | nil => exact .inl (List.mem_singleton.mp there)
  | cons first rest ih =>
    rw [insertMember] at there
    split at there
    · exact List.mem_cons.mp there
    · split at there
      · exact (List.mem_cons.mp there).imp_right (List.mem_cons_of_mem _)
      · rcases List.mem_cons.mp there with rfl | there
        · exact .inr List.mem_cons_self
        · exact (ih there).imp_right (List.mem_cons_of_mem _)

namespace Ordered

theorem nil : Ordered ([] : List (String × α)) := List.Pairwise.nil

theorem insertMember (ordered : Ordered members) (name : String) (value : α) :
    Ordered (Json.insertMember name value members) := by
  induction members with
  | nil => exact List.pairwise_singleton _ _
  | cons member rest ih =>
    obtain ⟨other, old⟩ := member
    obtain ⟨first, later⟩ := List.pairwise_cons.mp ordered
    rw [Json.insertMember]
    split
    · rename_i before
      refine List.pairwise_cons.mpr ⟨fun next there => ?_, ordered⟩
      rcases List.mem_cons.mp there with rfl | there
      · exact before
      · exact lt_trans before (first next there)
    · rename_i not_before
      split
      · rename_i same
        subst same
        exact List.pairwise_cons.mpr ⟨first, later⟩
      · rename_i different
        refine List.pairwise_cons.mpr ⟨fun next there => ?_, ih later⟩
        rcases mem_insertMember there with rfl | there
        · exact lt_of_le_of_ne (not_lt.mp not_before) (Ne.symm different)
        · exact first next there

theorem lookup_of_mem (ordered : Ordered members) (there : (name, value) ∈ members) :
    members.lookup name = some value := by
  induction members with
  | nil => cases there
  | cons member rest ih =>
    obtain ⟨first, later⟩ := List.pairwise_cons.mp ordered
    rcases List.mem_cons.mp there with rfl | there
    · simp
    · rw [lookup_member, if_neg (ne_of_gt (first _ there))]
      exact ih later there

/-- Under every name there is at most one member. -/
theorem filter_name (ordered : Ordered members) (name : String) :
    members.filter (fun member => member.1 == name) =
      ((members.lookup name).map (name, ·)).toList := by
  induction members with
  | nil => rfl
  | cons member rest ih =>
    obtain ⟨first, later⟩ := List.pairwise_cons.mp ordered
    obtain ⟨other, value⟩ := member
    rw [lookup_member]
    by_cases same : other = name
    · subst same
      have none_left : rest.filter (fun member => member.1 == other) = [] := by
        rw [List.filter_eq_nil_iff]
        intro next there again
        exact ne_of_gt (first next there) (eq_of_beq again)
      simp [none_left]
    · rw [List.filter_cons_of_neg (by simpa using same), ih later, if_neg (Ne.symm same)]

end Ordered

end Switchboard.Json
