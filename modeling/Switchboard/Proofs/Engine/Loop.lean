import Mathlib.Logic.Function.Basic
import Switchboard.Proofs.Engine.RuleMemory
import Switchboard.Proofs.Engine.Starting
import Switchboard.Proofs.Network.Reaching

/-!
# Rules in a closed loop

The sink reports back what it takes, so that a rule that fires publishes on
the line of its own output. The rules have ranks: an input reads outputs of
lower rank only. What happens at a rule reaches rules of higher rank and the
rule itself, and leaves the lines and the memory of rules of lower rank alone.
-/
namespace Switchboard

open Network

/-- A sink that reports everything back on the bus, as long as it remembers something of a kind. -/
structure Sink.Echoing {ς : Type} (sink : Sink ς) (kind : ς → Prop) : Prop where
  stays : ∀ remembered, kind remembered →
    ∀ delivery, kind (sink.offer remembered delivery).1
  echoes : ∀ remembered, kind remembered →
    ∀ delivery, ∃ response, (sink.offer remembered delivery).2 = .taken response true

/-- An outlet that takes everything with success and reports it back. -/
def Outlet.Open (outlet : Outlet) : Prop :=
  outlet.allowance = none ∧ outlet.loopback = true ∧ outlet.response.isSuccess = true

theorem Outlet.echoing : Outlet.sink.Echoing Outlet.Open := by
  constructor
  · rintro outlet ⟨unlimited, loops, succeeds⟩ delivery
    show (outlet.offer delivery).1.Open
    rw [Outlet.offer, unlimited]
    exact ⟨unlimited, loops, succeeds⟩
  · rintro outlet ⟨unlimited, loops, succeeds⟩ delivery
    refine ⟨outlet.response, ?_⟩
    show (outlet.offer delivery).2 = _
    rw [Outlet.offer, unlimited]
    simp [Outlet.answer, loops, succeeds]

/-- Circuits with outputs of their own, where no output depends on itself. -/
structure Layered (circuits : List Circuit) (rank : Nat → Nat) : Prop where
  settable : ∀ circuit ∈ circuits, circuit.output.Settable
  apart : ∀ (i j : Nat) (c d : Circuit), circuits[i]? = some c → circuits[j]? = some d →
    c.output.path = d.output.path → i = j
  ranked : rank.Injective
  below : ∀ (i j : Nat) (c d : Circuit), circuits[i]? = some c → circuits[j]? = some d →
    ∀ term ∈ c.input.operands, term.path? = some d.output.path → rank j < rank i

/-- A closed loop: layered circuits over a sink that reports everything back. -/
structure Loop (ς : Type) where
  sink : Sink ς
  kind : ς → Prop
  circuits : List Circuit
  rank : Nat → Nat
  echoing : sink.Echoing kind
  layered : Layered circuits rank

/-- What the subscriptions have been fed with. -/
abbrev Feeds := Nat → List (Nat × Option Json)

/-- One more feed to one subscription. -/
def Feeds.more (fed : Feeds) (n : Nat) (feed : Nat × Option Json) : Feeds :=
  Function.update fed n (fed n ++ [feed])

theorem Feeds.more_self (fed : Feeds) (n : Nat) (feed : Nat × Option Json) :
    fed.more n feed n = fed n ++ [feed] :=
  Function.update_self ..

theorem Feeds.more_other (fed : Feeds) {n m : Nat} (other : m ≠ n) (feed : Nat × Option Json) :
    fed.more n feed m = fed m :=
  Function.update_of_ne other ..

namespace Drive

variable {ς : Type} {kind : ς → Prop}

theorem leads_deliver (drive : Drive) {sink : Sink ς} (echoing : sink.Echoing kind)
    (value : Json) :
    (drive.deliver sink value).Leads (Within 0 kind) (Bus.empty.line drive.output.path) value := by
  refine .record (.consult fun plant here => .change (fun _ now => ?_) ?_)
  · exact ⟨now.1, echoing.stays _ here.2 _⟩
  obtain ⟨response, answers⟩ := echoing.echoes plant.sink here.2 (drive.delivery value)
  simp only [answers]
  refine .record ?_
  unfold PlantScript.acknowledge
  split
  · exact (drive.quiet_noteAnswer _).leads (Engine.leads_publish 0 kind _ value fun _ => .done)
  · exact Engine.leads_publish 0 kind _ value fun _ => drive.quiet_noteAnswer _

theorem leads_writeLog (drive : Drive) (action : Action) (outcome : String) {next : PlantScript ς}
    {line : Line} {value : Json} (leads : next.Leads (Within 0 kind) line value) :
    (drive.writeLog action outcome next).Leads (Within 0 kind) line value := by
  unfold writeLog
  split
  · exact .record leads
  · exact leads

/-- Where the sink reports back, a rule that fires publishes on the line of its output. -/
theorem leads_fire (drive : Drive) {sink : Sink ς} (echoing : sink.Echoing kind) {action : Action}
    {value : Json} (gives : drive.output.output action = .ok (some value)) :
    (drive.fire sink action).Leads (Within 0 kind) (Bus.empty.line drive.output.path) value := by
  refine .record (.change (fun _ here => here) ?_)
  rw [gives]
  exact .change (fun _ here => here) (drive.leads_writeLog _ _ (drive.leads_deliver echoing value))

end Drive

/-- Networks that differ in memory and journal, and on one line, but not in who listens there. -/
structure Touched {ς : Type} (line : Line) (network next : PlantNetwork ς) : Prop where
  subscriptions : next.subscriptions = network.subscriptions
  listeners : (next.subject line).listeners = (network.subject line).listeners
  others : ∀ other, other ≠ line → next.subject other = network.subject other

namespace Touched

variable {ς : Type} {line : Line} {network next last : PlantNetwork ς}

theorem trans (first : Touched line network next) (second : Touched line next last) :
    Touched line network last where
  subscriptions := second.subscriptions.trans first.subscriptions
  listeners := second.listeners.trans first.listeners
  others other differs := (second.others other differs).trans (first.others other differs)

theorem of_alike (line : Line) (alike : network.Alike next) : Touched line network next where
  subscriptions := alike.subscriptions
  listeners := by rw [subject_congr alike.subjects]
  others other _ := by rw [subject_congr alike.subjects]

theorem setSubject {subject : Subject Json}
    (same : subject.listeners = (network.subject line).listeners) :
    Touched line network (network.setSubject line subject) where
  subscriptions := rfl
  listeners := by rw [subject_setSubject, if_pos rfl, same]
  others other differs := by rw [subject_setSubject, if_neg differs]

theorem setOut (network : PlantNetwork ς) (line : Line) (value : Json) (queue : List Json) :
    Touched line network (network.setOut line value queue) where
  subscriptions := rfl
  listeners := by rw [subject_setOut, if_pos rfl, Subject.sending]
  others other differs := by rw [subject_setOut, if_neg differs]

theorem known (touched : Touched line network next) :
    ∀ listener ∈ (network.subject line).listeners, listener ∈ (next.subject line).listeners := by
  rw [touched.listeners]
  exact fun _ member => member

theorem all_listeners (touched : Touched line network next) (other : Line) :
    (next.subject other).listeners = (network.subject other).listeners := by
  by_cases same : other = line
  · rw [same]
    exact touched.listeners
  · rw [touched.others other same]

end Touched

namespace Loop

variable {ς : Type} (loop : Loop ς)

/-- The network of a closed loop whose subscriptions have had certain feeds. -/
structure Running (fed : Feeds) (network : PlantNetwork ς) : Prop where
  holds : Within 0 loop.kind network.memory
  stands : ∀ (n : Nat) (circuit : Circuit), loop.circuits[n]? = some circuit →
    ∃ drive : Drive, drive.output = circuit.output ∧ network.subscriptions[n]? =
      some ⟨circuit.actions, (circuit.actions.course (fed n)).1, drive.fire loop.sink⟩
  /-- Who listens to a line has a leaf there. -/
  place : ∀ (line : Line) (n leaf : Nat), (n, leaf) ∈ (network.subject line).listeners →
    ∃ circuit, loop.circuits[n]? = some circuit ∧
      circuit.actions.leaves[leaf]? = some (.subject line)
  /-- An output that shows something listens to its line. -/
  heard : ∀ (n : Nat) (circuit : Circuit), loop.circuits[n]? = some circuit →
    circuit.shown (fed n) = none ∨
      (n, circuit.outLeaf) ∈ (network.subject circuit.outLine).listeners

/-- All rules from a rank on are at rest and agree. -/
structure Settled (bound : Nat) (fed : Feeds) (network : PlantNetwork ς) : Prop where
  running : loop.Running fed network
  idle : ∀ (n : Nat) (circuit : Circuit), loop.circuits[n]? = some circuit →
    bound ≤ loop.rank n → (network.subject circuit.outLine).busy = false
  agrees : ∀ (n : Nat) (circuit : Circuit), loop.circuits[n]? = some circuit →
    bound ≤ loop.rank n → circuit.Agrees (fed n)

/-- What happens from a rank on leaves alone what is below. -/
structure Beyond (bound : Nat) (fed : Feeds) (network : PlantNetwork ς) (fed' : Feeds)
    (next : PlantNetwork ς) : Prop where
  fed : ∀ n, loop.rank n < bound → fed' n = fed n
  subject : ∀ line : Line, (∀ (n : Nat) (circuit : Circuit), loop.circuits[n]? = some circuit →
    circuit.outLine = line → loop.rank n < bound) → next.subject line = network.subject line
  listeners : ∀ line, (next.subject line).listeners = (network.subject line).listeners
  length : next.subscriptions.length = network.subscriptions.length

variable {loop} {bound bound' : Nat} {fed fed' fed'' : Feeds}
variable {network next last : PlantNetwork ς}

namespace Beyond

theorem refl (bound : Nat) (fed : Feeds) (network : PlantNetwork ς) :
    loop.Beyond bound fed network fed network :=
  ⟨fun _ _ => rfl, fun _ _ => rfl, fun _ => rfl, rfl⟩

theorem trans (first : loop.Beyond bound fed network fed' next)
    (second : loop.Beyond bound fed' next fed'' last) :
    loop.Beyond bound fed network fed'' last where
  fed n low := (second.fed n low).trans (first.fed n low)
  subject line low := (second.subject line low).trans (first.subject line low)
  listeners line := (second.listeners line).trans (first.listeners line)
  length := second.length.trans first.length

theorem mono (beyond : loop.Beyond bound fed network fed' next) (less : bound' ≤ bound) :
    loop.Beyond bound' fed network fed' next where
  fed n low := beyond.fed n (Nat.lt_of_lt_of_le low less)
  subject line low := beyond.subject line fun n circuit here writes =>
    Nat.lt_of_lt_of_le (low n circuit here writes) less
  listeners := beyond.listeners
  length := beyond.length

end Beyond

theorem outLine_inj {c d : Circuit} (same : c.outLine = d.outLine) :
    c.output.path = d.output.path := by
  injection same

/-- A line is the output of one rule at most. -/
theorem writer_unique {i j : Nat} {c d : Circuit} (at_i : loop.circuits[i]? = some c)
    (at_j : loop.circuits[j]? = some d) (same : c.outLine = d.outLine) : i = j :=
  loop.layered.apart i j c d at_i at_j (outLine_inj same)

/-- Below its rank a rule's line is out of reach. -/
theorem Beyond.line_below {n : Nat} {circuit : Circuit}
    (beyond : loop.Beyond bound fed network fed' next)
    (here : loop.circuits[n]? = some circuit) (low : loop.rank n < bound) :
    next.subject circuit.outLine = network.subject circuit.outLine := by
  refine beyond.subject _ fun m other there same => ?_
  rw [writer_unique there here same]
  exact low

namespace Running

/-- Memory, busyness and queues may change. -/
theorem touched (running : loop.Running fed network) {line : Line}
    (touched : Touched line network next) (holds : Within 0 loop.kind next.memory) :
    loop.Running fed next where
  holds := holds
  stands n circuit here := by
    rw [touched.subscriptions]
    exact running.stands n circuit here
  place other n leaf listening := by
    rw [touched.all_listeners] at listening
    exact running.place other n leaf listening
  heard n circuit here := by
    rw [touched.all_listeners]
    exact running.heard n circuit here

variable {n : Nat} {circuit : Circuit} {leaf : Nat}

/-- A feed at the input, or when the output listens already. -/
theorem feed (running : loop.Running fed network) (here : loop.circuits[n]? = some circuit)
    (fits : leaf < circuit.outLeaf ∨
      (n, circuit.outLeaf) ∈ (network.subject circuit.outLine).listeners)
    (incoming : Option Json) :
    loop.Running (fed.more n (leaf, incoming)) (network.feed n leaf incoming).1 := by
  constructor
  · rw [feed_memory]
    exact running.holds
  · intro m other there
    obtain ⟨drive, output, stands⟩ := running.stands m other there
    by_cases same : m = n
    · obtain rfl := same
      rw [Feeds.more_self]
      exact ⟨drive, output, (feed_course stands leaf incoming).1⟩
    · rw [Feeds.more_other fed same, feed_other (Ne.symm same)]
      exact ⟨drive, output, stands⟩
  · rw [feed_subject]
    exact running.place
  · intro m other there
    rw [feed_subject]
    by_cases same : m = n
    · obtain rfl := same
      obtain rfl : other = circuit := Option.some.inj (there.symm.trans here)
      rw [Feeds.more_self]
      rcases fits with inner | listening
      · rw [other.shown_input inner]
        exact running.heard m other here
      · exact .inr listening
    · rw [Feeds.more_other fed same]
      exact running.heard m other there

/-- Who listens to a line reads it in its input, or has it as its output. -/
theorem side (running : loop.Running fed network) {line : Line}
    (listening : (n, leaf) ∈ (network.subject line).listeners) :
    ∃ circuit, loop.circuits[n]? = some circuit ∧
      ((leaf < circuit.outLeaf ∧ ∀ (m : Nat) (other : Circuit), loop.circuits[m]? = some other →
        other.outLine = line → loop.rank m < loop.rank n) ∨
      leaf = circuit.outLeaf ∧ line = circuit.outLine) := by
  obtain ⟨circuit, here, leaf_at⟩ := running.place line n leaf listening
  refine ⟨circuit, here, ?_⟩
  rcases circuit.side_of_leaf leaf_at with ⟨inner, term, operand, path, reads, rfl⟩ | output
  · refine .inl ⟨inner, fun m other there writes => ?_⟩
    have same : other.output.path = path := by injection writes
    rw [← same] at reads
    exact loop.layered.below n m circuit other here there term operand reads
  · exact .inr output

end Running

/-- What happens on the line of a rule is not noticed below its rank. -/
theorem Beyond.of_touched {n : Nat} {circuit : Circuit} (here : loop.circuits[n]? = some circuit)
    (fed : Feeds) (touched : Touched circuit.outLine network next) :
    loop.Beyond (loop.rank n) fed network fed next where
  fed _ _ := rfl
  subject line low := touched.others line fun same =>
    Nat.lt_irrefl _ (low n circuit here same.symm)
  listeners := touched.all_listeners
  length := by rw [touched.subscriptions]

/-- A feed to a rule is not noticed below its rank. -/
theorem Beyond.of_feed (fed : Feeds) (network : PlantNetwork ς) (n leaf : Nat)
    (incoming : Option Json) :
    loop.Beyond (loop.rank n) fed network (fed.more n (leaf, incoming))
      (network.feed n leaf incoming).1 where
  fed m low := fed.more_other (fun same => by rw [same] at low; exact Nat.lt_irrefl _ low) _
  subject line _ := by rw [feed_subject]
  listeners line := by rw [feed_subject]
  length := feed_length ..

namespace Settled

theorem mono (settled : loop.Settled bound fed network) (less : bound ≤ bound') :
    loop.Settled bound' fed network where
  running := settled.running
  idle n circuit here high := settled.idle n circuit here (Nat.le_trans less high)
  agrees n circuit here high := settled.agrees n circuit here (Nat.le_trans less high)

/-- What has been settled stays so below what happens next. -/
theorem extend (settled : loop.Settled bound fed network) (settled' : loop.Settled bound' fed' next)
    (beyond : loop.Beyond bound' fed network fed' next) : loop.Settled bound fed' next where
  running := settled'.running
  idle n circuit here high := by
    by_cases low : loop.rank n < bound'
    · rw [beyond.line_below here low]
      exact settled.idle n circuit here high
    · exact settled'.idle n circuit here (Nat.not_lt.mp low)
  agrees n circuit here high := by
    by_cases low : loop.rank n < bound'
    · rw [beyond.fed n low]
      exact settled.agrees n circuit here high
    · exact settled'.agrees n circuit here (Nat.not_lt.mp low)

theorem alike (settled : loop.Settled bound fed network) (alike : network.Alike next)
    (holds : Within 0 loop.kind next.memory) : loop.Settled bound fed next where
  running := settled.running.touched (.of_alike (Bus.empty.line "") alike) holds
  idle := by
    rw [subject_congr alike.subjects]
    exact settled.idle
  agrees := settled.agrees

/-- A leaf of a rule joins the listeners of its line. -/
theorem attach (settled : loop.Settled bound fed network) {n leaf : Nat} {circuit : Circuit}
    {line : Line} (here : loop.circuits[n]? = some circuit)
    (leaf_at : circuit.actions.leaves[leaf]? = some (.subject line)) :
    loop.Settled bound fed (network.attach line n leaf) where
  running.holds := settled.running.holds
  running.stands := settled.running.stands
  running.place other m leaf' listening := by
    rw [listeners_attach] at listening
    split at listening
    · rename_i same
      rcases List.mem_append.mp listening with before | new
      · exact settled.running.place other m leaf' before
      · obtain ⟨rfl, rfl⟩ := Prod.mk.inj (List.mem_singleton.mp new)
        exact ⟨circuit, here, by rw [same, leaf_at]⟩
    · exact settled.running.place other m leaf' listening
  running.heard m other there := by
    refine (settled.running.heard m other there).imp_right fun listening => ?_
    rw [listeners_attach]
    split
    · exact List.mem_append_left _ listening
    · exact listening
  idle m other there high := by
    rw [(network.sameTraffic_attach line n leaf _).1]
    exact settled.idle m other there high
  agrees := settled.agrees

section Above

variable {n leaf : Nat} {circuit : Circuit} (here : loop.circuits[n]? = some circuit)
include here

/-- What happens on the line of a rule does not concern the rules above. -/
theorem touched (settled : loop.Settled (loop.rank n + 1) fed network)
    (touched : Touched circuit.outLine network next) (holds : Within 0 loop.kind next.memory) :
    loop.Settled (loop.rank n + 1) fed next where
  running := settled.running.touched touched holds
  idle m other there high := by
    have different : other.outLine ≠ circuit.outLine := by
      intro same
      have m_is_n : m = n := writer_unique there here same
      rw [m_is_n] at high
      exact Nat.lt_irrefl _ high
    rw [touched.others _ different]
    exact settled.idle m other there high
  agrees := settled.agrees

/-- A feed to a rule does not concern the rules above. -/
theorem feed (settled : loop.Settled (loop.rank n + 1) fed network)
    (fits : leaf < circuit.outLeaf ∨
      (n, circuit.outLeaf) ∈ (network.subject circuit.outLine).listeners)
    (incoming : Option Json) :
    loop.Settled (loop.rank n + 1) (fed.more n (leaf, incoming))
      (network.feed n leaf incoming).1 where
  running := settled.running.feed here fits incoming
  idle := by
    rw [feed_subject]
    exact settled.idle
  agrees m other there high := by
    have different : m ≠ n := by
      rintro rfl
      exact Nat.lt_irrefl _ high
    rw [fed.more_other different]
    exact settled.agrees m other there high

/-- With a rule that is at rest and agrees, this goes for one more rank. -/
theorem join (settled : loop.Settled (loop.rank n + 1) fed network)
    (idle : (network.subject circuit.outLine).busy = false) (agrees : circuit.Agrees (fed n)) :
    loop.Settled (loop.rank n) fed network := by
  have next_rank {m : Nat} (other : m ≠ n) (high : loop.rank n ≤ loop.rank m) :
      loop.rank n + 1 ≤ loop.rank m := by
    have different : loop.rank n ≠ loop.rank m := fun same =>
      other (loop.layered.ranked same).symm
    omega
  refine ⟨settled.running, ?_, ?_⟩
  · intro m other there high
    by_cases same : m = n
    · rw [same, here] at there
      obtain rfl := Option.some.inj there
      exact idle
    · exact settled.idle m other there (next_rank same high)
  · intro m other there high
    by_cases same : m = n
    · rw [same, here] at there
      obtain rfl := Option.some.inj there
      rw [same]
      exact agrees
    · exact settled.agrees m other there (next_rank same high)

end Above

end Settled

end Loop

end Switchboard
