/-!
# Streams

A stream is a recipe for a source of values. At its leaves stand subjects,
which are values published under a key, and values of the recipe itself. A
subscription keeps the state that the recipe needs and numbers its leaves from
left to right; a value that arrives at a leaf changes the state and reaches
the top at most once, so everything between two leaves happens at one stroke.
-/
namespace Switchboard

variable {κ ν ρ : Type}

/--
`κ` are the keys of subjects, `ν` the values published there, and `ρ` the
remarks that a stream makes in passing.
-/
inductive Stream (κ ν ρ : Type) : Type → Type 1 where
  | subject (key : κ) : Stream κ ν ρ ν
  | constant {α : Type} (value : α) : Stream κ ν ρ α
  /-- The values of `f`, where it has one. -/
  | filterMap {α β : Type} (f : α → Option β) (source : Stream κ ν ρ α) : Stream κ ν ρ β
  /-- A remark on every value. -/
  | tap {α : Type} (remark : α → ρ) (source : Stream κ ν ρ α) : Stream κ ν ρ α
  /-- A value that is the same as the one that was passed on before it is left out. -/
  | renewed {α : Type} (same : α → α → Bool) (source : Stream κ ν ρ α) : Stream κ ν ρ α
  /-- A value of its own when a subscription begins and the source has none. -/
  | property {α : Type} (fallback : α) (source : Stream κ ν ρ α) : Stream κ ν ρ α
  /-- The latest values of both sides, once both have one. -/
  | combine {α β γ : Type} (f : α → β → γ) (left : Stream κ ν ρ α) (right : Stream κ ν ρ β) :
      Stream κ ν ρ γ

/-- Where values enter a stream. -/
inductive Leaf (κ : Type) where
  | subject (key : κ)
  | own
  deriving DecidableEq

namespace Stream

variable {α β γ : Type}

def map (f : α → β) (source : Stream κ ν ρ α) : Stream κ ν ρ β :=
  .filterMap (fun a => some (f a)) source

def filter (test : α → Bool) (source : Stream κ ν ρ α) : Stream κ ν ρ α :=
  .filterMap (fun a => if test a then some a else none) source

/-- Values equal to the one before are left out. -/
@[reducible] def distinct (decEq : DecidableEq α) (source : Stream κ ν ρ α) : Stream κ ν ρ α :=
  .renewed (fun passed value => decide (passed = value)) source

/-- The latest values of both sides as pairs. -/
def pair (left : Stream κ ν ρ α) (right : Stream κ ν ρ β) : Stream κ ν ρ (α × β) :=
  .combine Prod.mk left right

/--
The leaves from left to right. The value that stands in for a missing one comes after its source.
-/
def leaves : {α : Type} → Stream κ ν ρ α → List (Leaf κ)
  | _, .subject key => [.subject key]
  | _, .constant _ => [.own]
  | _, .filterMap _ source => source.leaves
  | _, .tap _ source => source.leaves
  | _, .renewed _ source => source.leaves
  | _, .property _ source => source.leaves ++ [.own]
  | _, .combine _ left right => left.leaves ++ right.leaves

/-- What a subscription remembers: last values, and whether a source has had any. -/
def State : {α : Type} → Stream κ ν ρ α → Type
  | _, .subject _ => Unit
  | _, .constant _ => Unit
  | _, .filterMap _ source => source.State
  | _, .tap _ source => source.State
  | α, .renewed _ source => Option α × source.State
  | _, .property _ source => Bool × source.State
  | _, @combine _ _ _ α β _ _ left right => (Option α × Option β) × left.State × right.State

/-- What a subscription remembers before any value has arrived. -/
def initial : {α : Type} → (stream : Stream κ ν ρ α) → stream.State
  | _, .subject _ => ()
  | _, .constant _ => ()
  | _, .filterMap _ source => source.initial
  | _, .tap _ source => source.initial
  | _, .renewed _ source => (none, source.initial)
  | _, .property _ source => (false, source.initial)
  | _, .combine _ left right => ((none, none), left.initial, right.initial)

/--
What comes of a value at a leaf: the new state, the value at the top and the remarks on the way.
-/
structure Pushed (state α ρ : Type) where
  state : state
  value : Option α
  remarks : List ρ

/--
Lets a value into a stream at a leaf. A leaf of the stream's own has its value with it. If the
stream has no leaf of that number, the answer is how many leaves further on that leaf is than the
first one after the stream.
-/
def push : {α : Type} → (stream : Stream κ ν ρ α) → stream.State → Nat → Option ν →
    Except Nat (Pushed stream.State α ρ)
  | _, .subject _, state, 0, incoming => .ok ⟨state, incoming, []⟩
  | _, .subject _, _, beyond + 1, _ => .error beyond
  | _, .constant value, state, 0, _ => .ok ⟨state, some value, []⟩
  | _, .constant _, _, beyond + 1, _ => .error beyond
  | _, .filterMap f source, state, leaf, incoming =>
    match source.push state leaf incoming with
    | .ok ⟨state, value, remarks⟩ => .ok ⟨state, value.bind f, remarks⟩
    | .error beyond => .error beyond
  | _, .tap remark source, state, leaf, incoming =>
    match source.push state leaf incoming with
    | .ok ⟨state, some value, remarks⟩ => .ok ⟨state, some value, remarks ++ [remark value]⟩
    | .ok ⟨state, none, remarks⟩ => .ok ⟨state, none, remarks⟩
    | .error beyond => .error beyond
  | _, .renewed same source, memory, leaf, incoming =>
    match source.push memory.2 leaf incoming with
    | .ok ⟨state, some value, remarks⟩ =>
      if memory.1.any (same · value) then .ok ⟨(memory.1, state), none, remarks⟩
      else .ok ⟨(some value, state), some value, remarks⟩
    | .ok ⟨state, none, remarks⟩ => .ok ⟨(memory.1, state), none, remarks⟩
    | .error beyond => .error beyond
  | _, .property fallback source, memory, leaf, incoming =>
    match source.push memory.2 leaf incoming with
    | .ok ⟨state, value, remarks⟩ => .ok ⟨(memory.1 || value.isSome, state), value, remarks⟩
    | .error 0 => .ok ⟨memory, if memory.1 then none else some fallback, []⟩
    | .error (beyond + 1) => .error beyond
  | _, .combine f left right, memory, leaf, incoming =>
    match left.push memory.2.1 leaf incoming with
    | .ok ⟨state, some a, remarks⟩ =>
      .ok ⟨((some a, memory.1.2), state, memory.2.2), memory.1.2.map (f a), remarks⟩
    | .ok ⟨state, none, remarks⟩ => .ok ⟨(memory.1, state, memory.2.2), none, remarks⟩
    | .error beyond =>
      match right.push memory.2.2 beyond incoming with
      | .ok ⟨state, some b, remarks⟩ =>
        .ok ⟨((memory.1.1, some b), memory.2.1, state), memory.1.1.map (f · b), remarks⟩
      | .ok ⟨state, none, remarks⟩ => .ok ⟨(memory.1, memory.2.1, state), none, remarks⟩
      | .error beyond => .error beyond

end Stream

end Switchboard
