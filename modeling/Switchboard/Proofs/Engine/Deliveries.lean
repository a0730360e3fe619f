import Switchboard.Proofs.Engine.Session
import Switchboard.Proofs.Network.Journal

/-!
# The deliveries of an engine

What an engine has delivered is told from its journal. No operation takes a
delivery back, and nothing but the running of rules adds one.
-/
namespace Switchboard.Engine

variable {ς : Type}

/-- The deliveries that an engine has made, in order. -/
def deliveries (engine : Engine ς) : List Delivery := engine.journal.filterMap Entry.delivery?

theorem deliveries_write (engine : Engine ς) {entries : List Entry}
    (unread : ∀ entry ∈ entries, entry.delivery? = none) :
    (engine.write entries).deliveries = engine.deliveries := by
  have nothing : entries.filterMap Entry.delivery? = [] := List.filterMap_eq_nil_iff.mpr unread
  simp [deliveries, journal, write, Network.write, nothing]

theorem deliveries_note (engine : Engine ς) (note : Note) :
    (engine.write [.note note]).deliveries = engine.deliveries :=
  engine.deliveries_write (List.forall_mem_singleton.mpr rfl)

/-- A publication only adds deliveries. -/
theorem deliveries_publish {engine after : Engine ς} {budget audience : Nat} {path : String}
    {value : Json} (ends : engine.publish budget path value = some (after, audience)) :
    engine.deliveries <+: after.deliveries := by
  obtain ⟨network, rfl, run⟩ := run_of_publish ends
  exact (List.reverse_prefix.mpr run.journal).filterMap _

theorem journal_released (rules : List ActiveRule) (engine : Engine ς) :
    (rules.foldl (fun engine rule => engine.detach rule.handle.released) engine).journal =
      engine.journal := by
  induction rules generalizing engine with
  | nil => rfl
  | cons rule rest ih =>
    exact (ih _).trans (congrArg List.reverse (engine.network.journal_detach _))

/-- To stop adds none. -/
theorem deliveries_stop (engine : Engine ς) : engine.stop.deliveries = engine.deliveries := by
  unfold stop
  split
  · exact (deliveries_note _ _).trans
      (congrArg (List.filterMap Entry.delivery?) (journal_released engine.active engine))
  · rfl

end Switchboard.Engine
