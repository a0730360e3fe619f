import Mathlib
import Switchboard.Proofs.Engine.Firing
import Switchboard.Proofs.Host.Refinement

/-!
# Input that is not all text

Blank lines and lines that are no update are passed over, and the updates
around them are published. A line that is no text is not passed over: it ends
the input. The service does not fail at it. It publishes what stands before,
says nothing of what stands behind, and comes to the same end as if the input
had stopped there.
-/
namespace Switchboard

/-- An outlet that acknowledges first reports as little back as one that does not. -/
theorem Outlet.memory_silent : Outlet.memory.Silent fun outlet => outlet.loopback = false :=
  ⟨Outlet.silent.stays, Outlet.silent.no_echo⟩

namespace Host

open Engine

/-- Where values are not reported back, whatever is published is done with some time. -/
theorem exists_publishes {config : ServiceConfig} (off : config.loopback = false) {budget : Nat}
    {started : Engine Outlet} {report : StartReport}
    (starts : (inMemory config).start budget config.engine = some (started, .ok report))
    (values : List (String × Json)) : ∃ last, started.Publishes values last := by
  have fresh : Resting Outlet.memory (fun outlet => outlet.loopback = false) (inMemory config) [] :=
    ⟨rfl, ⟨[], .start off⟩, .start Outlet.memory _⟩
  obtain ⟨started', starts', rest, _⟩ := start_keeps config.engine
    (Resting Outlet.memory fun outlet => outlet.loopback = false)
    (fun rest => rest.calm.choose_spec.passive.holds.1) (fun still rest => rest.aside still)
    (fun circuit drive _ output rest => rest.subscribe Outlet.memory_silent circuit drive output)
    rfl rfl fresh
  obtain rfl := starts'.unique (starts_of_some starts)
  obtain ⟨last, publishes, _⟩ := rest.publishAll values
  exact ⟨last, publishes⟩

/-- What stands behind a line that is no text makes no difference. -/
theorem legible_append {before : List (List UInt8)} (text : AllText before) {line : List UInt8}
    (bad : textOf? line = none) (after : List (List UInt8)) :
    legible (before ++ line :: after) = before := by
  have stops : InputLine.ofBytes line = .noText := by rw [InputLine.ofBytes, bad]
  unfold legible
  rw [List.takeWhile_append_of_pos text]
  exact (congrArg (before ++ ·) (legible_cons_noText stops after)).trans (List.append_nil before)

/--
Of an input the updates on the lines before the first one that is no text are published, all of them
in order and no others: by the service that takes one line after the other, and in every schedule of
its tasks, unless it is told to shut down. Blank lines and lines that are no update make no
difference, and neither does what stands behind a line that is no text. The service comes to its end
without an error, and some schedule always brings it there.
-/
theorem updates_before_no_text (look : String → Presence) (config : ServiceConfig)
    (input : List UInt8) {budget : Nat} {started : Engine Outlet} {report : StartReport}
    (starts : (inMemory config).start budget config.engine = some (started, .ok report)) :
    (∀ last, started.Publishes (values (accepted (legible (lines input)))) last →
      (∃ least, ∀ more, least ≤ more → ∃ journal,
        serve more look config input none none = some ⟨journal, written last.deliveries,
          .ok ⟨report, (accepted (legible (lines input))).length, last.deliveries.length⟩⟩) ∧
      ∀ tasks, Tasks.Reached look config input tasks →
        tasks.phase = .finished ∨ ∃ next, tasks.Step next) ∧
    (∀ tasks, Tasks.Reached look config input tasks → tasks.phase = .finished →
      tasks.told = false → tasks.published = accepted (legible (lines input)) ∧
        ∃ last, started.Publishes (values tasks.published) last ∧
          tasks.written = written last.deliveries ∧
          tasks.summary = ⟨report, tasks.published.length, last.deliveries.length⟩) ∧
    (config.loopback = false →
      ∃ last, started.Publishes (values (accepted (legible (lines input)))) last) ∧
    (∃ tasks, Tasks.Reached look config input tasks) ∧
    (WellFounded fun next tasks => Tasks.Step tasks next) ∧
    (AllText (lines input) → legible (lines input) = lines input) ∧
    ∀ before line after, lines input = before ++ line :: after → AllText before →
      textOf? line = none → legible (lines input) = before := by
  refine ⟨fun last publishes => ⟨?_, ?_⟩, ?_, fun off => exists_publishes off starts _,
    Tasks.exists_reached look config input starts, Tasks.wellFounded_step, AllText.legible_eq, ?_⟩
  · exact serve_legible look config input starts none publishes
  · intro tasks reached
    exact Tasks.finished_or_step (Tasks.accounts_legible starts reached).1 publishes
  · intro tasks reached finished untold
    obtain ⟨_, whole, outcome⟩ := Tasks.outcome_legible starts reached finished
    exact ⟨whole untold, outcome⟩
  · intro before line after same text bad
    rw [same]
    exact legible_append text bad after

namespace Garbled

/-- Two updates, and between them a line of one byte that is no text. -/
def input : List UInt8 :=
  "\x7b\x22path\x22:\x22p\x22,\x22value\x22:1\x7d\n".toUTF8.toList ++ [255, 10] ++
    "\x7b\x22path\x22:\x22p\x22,\x22value\x22:0\x7d\n".toUTF8.toList

def updates : List Update := [⟨"p", .int 1⟩]

theorem accepted_legible : accepted (legible (lines input)) = updates := by
  cbv

def last : Engine Outlet := (Valve.started.publishAll 200 (values updates)).getD Valve.started

theorem publishes_last : Valve.started.Publishes (values updates) last := by
  have ends : (Valve.started.publishAll 200 (values updates)).isSome = true := by decide
  obtain ⟨engine, ends⟩ := Option.isSome_iff_exists.mp ends
  have same : engine = last := by rw [last, ends, Option.getD_some]
  exact publishes_of_some (same ▸ ends)

theorem written_last : last.deliveries.length = 1 ∧ written last.deliveries =
    "\x7b\x22mode\x22:\x22put\x22,\x22path\x22:\x22y\x22,\x22value\x22:1\x7d\n" := by
  decide

end Garbled

/-- The second update is lost without an error, in every schedule. -/
theorem garbled_loses_the_rest :
    (∃ least, ∀ more, least ≤ more → ∃ journal,
      serve more Valve.nothingThere Valve.config Garbled.input none none =
        some ⟨journal, "\x7b\x22mode\x22:\x22put\x22,\x22path\x22:\x22y\x22,\x22value\x22:1\x7d\n",
          .ok ⟨Valve.report, 1, 1⟩⟩) ∧
    ∀ tasks, Tasks.Reached Valve.nothingThere Valve.config Garbled.input tasks →
      tasks.phase = .finished → tasks.told = false → tasks.published = [⟨"p", .int 1⟩] := by
  obtain ⟨serves, finishes, _⟩ :=
    updates_before_no_text Valve.nothingThere Valve.config Garbled.input Valve.starts
  rw [Garbled.accepted_legible] at serves finishes
  obtain ⟨outputs, written⟩ := Garbled.written_last
  refine ⟨?_, fun tasks reached finished untold => (finishes tasks reached finished untold).1⟩
  have ends := (serves Garbled.last Garbled.publishes_last).1
  rw [outputs, written] at ends
  exact ends

end Host

end Switchboard
