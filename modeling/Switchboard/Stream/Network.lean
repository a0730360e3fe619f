import Switchboard.Stream.Script

/-!
# Networks

A network holds the subjects, the subscriptions to streams over them, the
memory that listeners share and the journal. A subject remembers its latest
value and gives every new one to all its listeners in the order in which they
came; a value that is published while another is on its way waits in a queue
until that one has reached everybody.

Running is a sequence of small steps on a stack of unfinished business, so
that a listener may do anything while the value that woke it is still on its
way to others.
-/
namespace Switchboard

variable {κ ν ρ σ : Type}

/-- A value source with many listeners, each named by its subscription and the leaf there. -/
structure Subject (ν : Type) where
  latest : Option ν
  listeners : List (Nat × Nat)
  busy : Bool
  queue : List ν

def Subject.fresh : Subject ν := ⟨none, [], false, []⟩

structure Subscription (κ ν ρ σ : Type) : Type 1 where
  {α : Type}
  stream : Stream κ ν ρ α
  state : stream.State
  listener : α → Script κ ν ρ σ

structure Network (κ ν ρ σ : Type) : Type 1 where
  subjects : List (κ × Subject ν)
  /-- The place of a subscription is its number. -/
  subscriptions : List (Subscription κ ν ρ σ)
  /-- The latest entry comes first. -/
  journal : List ρ
  memory : σ

/-- Business that a run has still to finish. -/
inductive Frame (κ ν ρ σ : Type) : Type 1 where
  | script (script : Script κ ν ρ σ)
  /-- A value on its way to the listeners that a subject had when it set out. -/
  | fanOut (key : κ) (value : ν) (waiting : List (Nat × Nat)) (audience : Nat)
      (next : Nat → Script κ ν ρ σ)
  /-- A subscription whose leaves from a certain one on are still to be opened. -/
  | opening (subscription leaf : Nat) (leaves : List (Leaf κ)) (next : Script κ ν ρ σ)

namespace Network

def start (memory : σ) : Network κ ν ρ σ := ⟨[], [], [], memory⟩

section Subjects

variable [DecidableEq κ]

def subject (network : Network κ ν ρ σ) (key : κ) : Subject ν :=
  (network.subjects.lookup key).getD .fresh

/-- Replaces the entry of a key, or adds one at the end. -/
def setEntry (key : κ) (subject : Subject ν) : List (κ × Subject ν) → List (κ × Subject ν)
  | [] => [(key, subject)]
  | (other, old) :: rest =>
    if key = other then (key, subject) :: rest else (other, old) :: setEntry key subject rest

def setSubject (network : Network κ ν ρ σ) (key : κ) (subject : Subject ν) :
    Network κ ν ρ σ :=
  { network with subjects := setEntry key subject network.subjects }

/-- The value that a subject has now. -/
def latest (network : Network κ ν ρ σ) (key : κ) : Option ν := (network.subject key).latest

def listenerCount (network : Network κ ν ρ σ) (key : κ) : Nat :=
  (network.subject key).listeners.length

/-- Takes a registration off its subject. -/
def detachOne (network : Network κ ν ρ σ) (registration : Registration κ) : Network κ ν ρ σ :=
  let subject := network.subject registration.subject
  network.setSubject registration.subject
    { subject with
      listeners := subject.listeners.filter
        (· ≠ (registration.subscription, registration.leaf)) }

def detach (network : Network κ ν ρ σ) (registrations : List (Registration κ)) :
    Network κ ν ρ σ :=
  registrations.foldl detachOne network

/-- Sends a value on its way: the subject has it from now on. -/
def setOut (network : Network κ ν ρ σ) (key : κ) (value : ν) (queue : List ν) :
    Network κ ν ρ σ :=
  let subject := network.subject key
  network.setSubject key { subject with latest := some value, busy := true, queue := queue }

end Subjects

def write (network : Network κ ν ρ σ) (entries : List ρ) : Network κ ν ρ σ :=
  { network with journal := entries.reverse ++ network.journal }

/-- Lets a value into a subscription; the script of its listener, if the value reaches the top. -/
def feed (network : Network κ ν ρ σ) (subscription leaf : Nat) (incoming : Option ν) :
    Network κ ν ρ σ × List (Frame κ ν ρ σ) :=
  match network.subscriptions[subscription]? with
  | none => (network, [])
  | some ⟨stream, state, listener⟩ =>
    match stream.push state leaf incoming with
    | .error _ => (network, [])
    | .ok ⟨state, value, remarks⟩ =>
      ({ network with
          subscriptions := network.subscriptions.set subscription ⟨stream, state, listener⟩
          journal := remarks.reverse ++ network.journal },
        value.toList.map fun a => .script (listener a))

variable [DecidableEq κ]

/-- One step of a script that is on top of the stack. -/
def stepScript (network : Network κ ν ρ σ) (rest : List (Frame κ ν ρ σ)) :
    Script κ ν ρ σ → Network κ ν ρ σ × List (Frame κ ν ρ σ)
  | .done => (network, rest)
  | .record entry next => (network.write [entry], .script next :: rest)
  | .change f next => ({ network with memory := f network.memory }, .script next :: rest)
  | .consult next => (network, .script (next network.memory) :: rest)
  | .publish key value next =>
    let subject := network.subject key
    if subject.busy then
      (network.setSubject key { subject with queue := subject.queue ++ [value] },
        .script (next subject.listeners.length) :: rest)
    else
      (network.setOut key value [],
        .fanOut key value subject.listeners subject.listeners.length next :: rest)
  | .subscribe stream listener next =>
    ({ network with
        subscriptions := network.subscriptions ++ [⟨stream, stream.initial, listener⟩] },
      .opening network.subscriptions.length 0 stream.leaves
        (next (stream.handle network.subscriptions.length)) :: rest)
  | .detach registrations next => (network.detach registrations, .script next :: rest)

/-- One step. -/
def step (network : Network κ ν ρ σ) :
    List (Frame κ ν ρ σ) → Network κ ν ρ σ × List (Frame κ ν ρ σ)
  | [] => (network, [])
  | .script script :: rest => network.stepScript rest script
  | .fanOut key value ((subscription, leaf) :: waiting) audience next :: rest =>
    match network.feed subscription leaf (some value) with
    | (network, woken) => (network, woken ++ .fanOut key value waiting audience next :: rest)
  | .fanOut key _ [] audience next :: rest =>
    let subject := network.subject key
    match subject.queue with
    | value :: queue =>
      (network.setOut key value queue,
        .fanOut key value subject.listeners subject.listeners.length next :: rest)
    | [] =>
      (network.setSubject key { subject with busy := false }, .script (next audience) :: rest)
  | .opening subscription leaf (.subject key :: leaves) next :: rest =>
    let subject := network.subject key
    let network := network.setSubject key
      { subject with listeners := subject.listeners ++ [(subscription, leaf)] }
    match subject.latest with
    | some value =>
      match network.feed subscription leaf (some value) with
      | (network, woken) =>
        (network, woken ++ .opening subscription (leaf + 1) leaves next :: rest)
    | none => (network, .opening subscription (leaf + 1) leaves next :: rest)
  | .opening subscription leaf (.own :: leaves) next :: rest =>
    match network.feed subscription leaf none with
    | (network, woken) => (network, woken ++ .opening subscription (leaf + 1) leaves next :: rest)
  | .opening _ _ [] next :: rest => (network, .script next :: rest)

/-- Steps until nothing is left to do, if that takes fewer than `fuel` steps. -/
def settle : Nat → Network κ ν ρ σ → List (Frame κ ν ρ σ) → Option (Network κ ν ρ σ)
  | 0, _, _ => none
  | _ + 1, network, [] => some network
  | fuel + 1, network, frame :: rest =>
    match network.step (frame :: rest) with
    | (network, stack) => settle fuel network stack

/-- Runs a script and all that it sets off. -/
def perform (fuel : Nat) (network : Network κ ν ρ σ) (script : Script κ ν ρ σ) :
    Option (Network κ ν ρ σ) :=
  network.settle fuel [.script script]

end Network

end Switchboard
