import Switchboard.Proofs.Engine.Evaluation

/-!
# Paths that nothing has been published at

Switches, plain signals, substitutions and notifications have a bit from the
beginning: a subscription to their stream supplies a value of its own where
there is none on the line. A notification supplies the bit itself. The others
supply the number zero before they read it, and a substitution whose on
literal stands for that number reads it as on.
-/
namespace Switchboard

open Event Network

namespace Json

/-- The number zero matches just the literals that stand for it. -/
theorem zero_matchesLiteral (literal : String) :
    (Json.int 0).matchesLiteral literal = (Json.int 0).same (ofLiteral literal) := by
  have itself : (Json.int 0).same (ofLiteral "0") = true := by decide
  have printed : (Json.int 0).plainText = "0" := by decide
  rw [matchesLiteral, printed]
  by_cases zero : "0" = literal
  · rw [← zero, itself, Bool.true_or]
  · rw [beq_eq_false_iff_ne.mpr zero, Bool.or_false]

end Json

namespace Term

/-- Terms that have a bit while nothing has been published at their path. -/
def Defaulting : Term → Prop
  | .off | .on | .signal _ (.compare ..) => False
  | .switch .. | .notification .. | .signal _ .present | .signal _ (.substitute ..) => True

/-- The bit that such a term begins with. -/
def startsOn : Term → Bool
  | .signal _ (.substitute onValue _) => (Json.int 0).same (.ofLiteral onValue)
  | _ => false

theorem substituted?_zero (onValue offValue : String) :
    substituted? onValue offValue (.int 0) = some ((Json.int 0).same (.ofLiteral onValue)) := by
  rw [substituted?, Json.zero_matchesLiteral]
  cases (Json.int 0).same (.ofLiteral onValue) with
  | true => rfl
  | false => exact (if_neg Bool.false_ne_true).trans (ite_self _)

theorem Defaulting.leaves (bus : Bus) {term : Term} (defaulting : term.Defaulting) :
    (term.stream bus).leaves = [.subject (bus.line term.path), .own] := by
  cases term with
  | off => exact defaulting.elim
  | on => exact defaulting.elim
  | switch => rfl
  | notification => rfl
  | signal path test =>
    cases test with
    | compare => exact defaulting.elim
    | present => rfl
    | substitute => rfl

/-- The value of its own brings a new subscription to the bit that the term begins with. -/
theorem Defaulting.push (bus : Bus) {term : Term} (defaulting : term.Defaulting) :
    ∃ state remarks, (term.stream bus).push (term.stream bus).initial 1 none =
      .ok ⟨state, some term.startsOn, remarks⟩ := by
  cases term with
  | off => exact defaulting.elim
  | on => exact defaulting.elim
  | switch => exact ⟨_, _, rfl⟩
  | notification => exact ⟨_, _, rfl⟩
  | signal path test =>
    cases test with
    | compare => exact defaulting.elim
    | present => exact ⟨_, _, rfl⟩
    | substitute onValue offValue =>
      have read : ((Term.signal path (.substitute onValue offValue)).bits bus).push
          ((Term.signal path (.substitute onValue offValue)).bits bus).initial 1 none =
          .ok ⟨(false, ()), substituted? onValue offValue (.int 0), []⟩ := rfl
      rw [substituted?_zero] at read
      exact ⟨_, _, by simp only [stream, Stream.push, Stream.initial, read]; rfl⟩

end Term

namespace Network

variable {κ ν ρ σ α : Type} {keeps : σ → Prop}

/-- A value that reaches the top wakes the listener. -/
theorem feed_of_push {network : Network κ ν ρ σ} {n leaf : Nat} {incoming : Option ν}
    {stream : Stream κ ν ρ α} {before after : stream.State} {listener : α → Script κ ν ρ σ}
    {a : α} {remarks : List ρ}
    (there : network.subscriptions[n]? = some ⟨stream, before, listener⟩)
    (pushed : stream.push before leaf incoming = .ok ⟨after, some a, remarks⟩) :
    (network.feed n leaf incoming).2 = [.script (listener a)] ∧
      network.feedEvents n leaf incoming = [.fed n leaf incoming, .called n ⟨α, a⟩] := by
  simp [feed, feedEvents, there, pushed]

variable [DecidableEq κ]

/-- An own value is let in, and the opening goes on. -/
theorem Run.supplied {network : Network κ ν ρ σ} {n leaf : Nat} {leaves : List (Leaf κ)}
    {go : Script κ ν ρ σ} :
    Run network [.opening n leaf (.own :: leaves) go] (network.feedEvents n leaf none)
      (network.feed n leaf none).1
      ((network.feed n leaf none).2 ++ [.opening n (leaf + 1) leaves go]) :=
  .single rfl

/--
Where nothing has been published, a quiet listener is called once by a subscription that begins
with a value of its own.
-/
theorem run_unreported {network : Network κ ν ρ σ} {stream : Stream κ ν ρ α} {key : κ}
    (leaves : stream.leaves = [.subject key, .own]) (unreported : network.latest key = none)
    {a : α} {state : stream.State} {remarks : List ρ}
    (begins : stream.push stream.initial 1 none = .ok ⟨state, some a, remarks⟩)
    {listener : α → Script κ ν ρ σ} (quiet : (listener a).Quiet keeps)
    (holds : keeps network.memory) :
    ∃ last, Run network [.script (.subscribe stream listener fun _ => .done)]
      [.subscribed network.subscriptions.length,
        .attached ⟨key, network.subscriptions.length, 0⟩ none,
        .fed network.subscriptions.length 1 none,
        .called network.subscriptions.length ⟨α, a⟩] last [] := by
  let n := network.subscriptions.length
  let joining : Network κ ν ρ σ := { network with
    subscriptions := network.subscriptions ++ [⟨stream, stream.initial, listener⟩] }
  have there : (joining.attach key n 0).subscriptions[n]? =
      some ⟨stream, stream.initial, listener⟩ := by
    simp [n, joining, attach, setSubject]
  obtain ⟨wakes, fed⟩ := feed_of_push there begins
  have kept : keeps ((joining.attach key n 0).feed n 1 none).1.memory := by
    rw [feed_memory]
    exact holds
  obtain ⟨last, heard, _⟩ := run_quiet quiet kept
  have joins : Run network [.script (.subscribe stream listener fun _ => .done)] [.subscribed n]
      joining [.opening n 0 [.subject key, .own] .done] := by
    rw [← leaves]
    exact .single rfl
  have attaches : Run joining [.opening n 0 [.subject key, .own] .done]
      [.attached ⟨key, n, 0⟩ none] (joining.attach key n 0) [.opening n 1 [.own] .done] :=
    .attached unreported
  have supplies : Run (joining.attach key n 0) [.opening n 1 [.own] .done]
      [.fed n 1 none, .called n ⟨α, a⟩] ((joining.attach key n 0).feed n 1 none).1
      [.script (listener a), .opening n 2 [] .done] := by
    have one : Run (joining.attach key n 0) [.opening n 1 [.own] .done] _ _ _ := .supplied
    rwa [wakes, fed] at one
  have ends : Run last [.opening n 2 [] .done] [] last [] := .step rfl (.step rfl (.still _ _))
  exact ⟨last, joins.trans (attaches.trans (supplies.trans ((heard.above _).trans ends)))⟩

end Network

namespace Engine

variable {ς : Type}

/--
Whatever else is at work on the bus, a subscription to a term that nothing has been published for
emits one bit at once. It is off, unless the term is a substitution with zero for on.
-/
theorem unreported_emits_one_bit (engine : Engine ς) {term : Term} (defaulting : term.Defaulting)
    (unreported : engine.network.latest (engine.plant.bus.line term.path) = none)
    (listener : Bool → PlantScript ς) (quiet : ∀ b, (listener b).Quiet fun _ => True) :
    engine.Hears (term.stream engine.plant.bus) listener [] [term.startsOn] := by
  obtain ⟨_, _, begins⟩ := defaulting.push engine.plant.bus
  obtain ⟨last, run⟩ :=
    run_unreported (defaulting.leaves _) unreported begins (quiet term.startsOn) trivial
  obtain ⟨least, ends⟩ := subscribe_of_run run
  refine ⟨least, fun budget enough => ?_⟩
  obtain ⟨attached, watched⟩ := ends budget enough
  rw [heard, attached]
  simp [publishAll, publishAllEvents, watched, calls, List.filterMap, call?]

/-- A substitution that takes zero for on and one for off begins with on. -/
theorem inverted_begins_with_on : ∃ term, Term.ofText? "o:0:1" = some term ∧
    (Engine.new Outlet.sink (.limited none "" false) none).Hears (term.stream .empty)
      (fun _ => .done) [] [true] := by
  have zero : (Json.int 0).same (.ofLiteral "0") = true := by decide
  have hears := unreported_emits_one_bit (Engine.new Outlet.sink (.limited none "" false) none)
    (show (Term.signal "o" (.substitute "0" "1")).Defaulting from trivial) rfl
    (fun _ => .done) fun _ => .done
  rw [Term.startsOn, zero] at hears
  exact ⟨_, by decide, hears⟩

end Engine

end Switchboard
