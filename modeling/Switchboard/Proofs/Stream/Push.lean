import Switchboard.Stream.Basic

/-!
# A value at a leaf, stream by stream

What becomes of a value that is let in at a leaf, in terms of what becomes of
it at the stream inside. Later arguments take these equations and leave the
definition alone.
-/
namespace Switchboard.Stream

variable {κ ν ρ α β γ : Type}

theorem push_subject (key : κ) (state : (subject key : Stream κ ν ρ ν).State)
    (incoming : Option ν) :
    (subject key : Stream κ ν ρ ν).push state 0 incoming = .ok ⟨state, incoming, []⟩ :=
  rfl

theorem push_subject_beyond (key : κ) (state : (subject key : Stream κ ν ρ ν).State)
    (beyond : Nat) (incoming : Option ν) :
    (subject key : Stream κ ν ρ ν).push state (beyond + 1) incoming = .error beyond :=
  rfl

theorem push_constant (value : α) (state : (constant value : Stream κ ν ρ α).State)
    (incoming : Option ν) :
    (constant value : Stream κ ν ρ α).push state 0 incoming = .ok ⟨state, some value, []⟩ :=
  rfl

theorem push_constant_beyond (value : α) (state : (constant value : Stream κ ν ρ α).State)
    (beyond : Nat) (incoming : Option ν) :
    (constant value : Stream κ ν ρ α).push state (beyond + 1) incoming = .error beyond :=
  rfl

variable (leaf : Nat) (incoming : Option ν)

theorem push_filterMap (f : α → Option β) (source : Stream κ ν ρ α) (state : source.State) :
    (filterMap f source).push state leaf incoming =
      match source.push state leaf incoming with
      | .ok ⟨state, value, remarks⟩ => .ok ⟨state, value.bind f, remarks⟩
      | .error beyond => .error beyond :=
  rfl

theorem push_tap (remark : α → ρ) (source : Stream κ ν ρ α) (state : source.State) :
    (tap remark source).push state leaf incoming =
      match source.push state leaf incoming with
      | .ok ⟨state, some value, remarks⟩ => .ok ⟨state, some value, remarks ++ [remark value]⟩
      | .ok ⟨state, none, remarks⟩ => .ok ⟨state, none, remarks⟩
      | .error beyond => .error beyond :=
  rfl

theorem push_renewed (same : α → α → Bool) (source : Stream κ ν ρ α)
    (memory : Option α × source.State) :
    (renewed same source).push memory leaf incoming =
      match source.push memory.2 leaf incoming with
      | .ok ⟨state, some value, remarks⟩ =>
        if memory.1.any (same · value) then .ok ⟨(memory.1, state), none, remarks⟩
        else .ok ⟨(some value, state), some value, remarks⟩
      | .ok ⟨state, none, remarks⟩ => .ok ⟨(memory.1, state), none, remarks⟩
      | .error beyond => .error beyond :=
  rfl

theorem push_distinct (decEq : DecidableEq α) (source : Stream κ ν ρ α)
    (memory : Option α × source.State) :
    (distinct decEq source).push memory leaf incoming =
      match source.push memory.2 leaf incoming with
      | .ok ⟨state, some value, remarks⟩ =>
        if memory.1 = some value then .ok ⟨(memory.1, state), none, remarks⟩
        else .ok ⟨(some value, state), some value, remarks⟩
      | .ok ⟨state, none, remarks⟩ => .ok ⟨(memory.1, state), none, remarks⟩
      | .error beyond => .error beyond := by
  have repeated (value : α) :
      memory.1.any (fun passed => decide (passed = value)) = true ↔ memory.1 = some value := by
    cases memory.1 <;> simp
  rw [push_renewed]
  simp only [repeated]

theorem push_property (fallback : α) (source : Stream κ ν ρ α) (memory : Bool × source.State) :
    (property fallback source).push memory leaf incoming =
      match source.push memory.2 leaf incoming with
      | .ok ⟨state, value, remarks⟩ => .ok ⟨(memory.1 || value.isSome, state), value, remarks⟩
      | .error 0 => .ok ⟨memory, if memory.1 then none else some fallback, []⟩
      | .error (beyond + 1) => .error beyond :=
  rfl

theorem push_combine (f : α → β → γ) (left : Stream κ ν ρ α) (right : Stream κ ν ρ β)
    (memory : (Option α × Option β) × left.State × right.State) :
    (combine f left right).push memory leaf incoming =
      match left.push memory.2.1 leaf incoming with
      | .ok ⟨state, some a, remarks⟩ =>
        .ok ⟨((some a, memory.1.2), state, memory.2.2), memory.1.2.map (f a), remarks⟩
      | .ok ⟨state, none, remarks⟩ => .ok ⟨(memory.1, state, memory.2.2), none, remarks⟩
      | .error beyond =>
        match right.push memory.2.2 beyond incoming with
        | .ok ⟨state, some b, remarks⟩ =>
          .ok ⟨((memory.1.1, some b), memory.2.1, state), memory.1.1.map (f · b), remarks⟩
        | .ok ⟨state, none, remarks⟩ => .ok ⟨(memory.1, memory.2.1, state), none, remarks⟩
        | .error beyond => .error beyond :=
  rfl

end Switchboard.Stream
