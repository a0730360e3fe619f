import Switchboard.Host.Service
import Switchboard.Proofs.Engine.Exchange

/-!
# What the service does with its input

The service is an engine whose sink hands deliveries on, and nothing else is
ever published there than the updates of its input, in their order. So it
makes the deliveries that an engine makes whose sink keeps them itself. What
the service notes on the way makes no difference.
-/
namespace Switchboard.Host

open Engine

/-- The update on a line, if there is one. -/
def carried? (line : List UInt8) : Option Update :=
  match textOf? line with
  | none => none
  | some text =>
    match Update.ofLine text with
    | .ok update => update
    | .error _ => none

/-- The updates on lines, in order. -/
def accepted (lines : List (List UInt8)) : List Update := lines.filterMap carried?

/-- All lines are text. -/
def AllText (lines : List (List UInt8)) : Prop := ∀ line ∈ lines, (textOf? line).isSome

/-- The lines before the first one that is no text. -/
def legible (lines : List (List UInt8)) : List (List UInt8) :=
  lines.takeWhile fun line => (textOf? line).isSome

theorem legible_text (lines : List (List UInt8)) : AllText (legible lines) := fun _ there =>
  List.mem_takeWhile_imp (p := fun line => (textOf? line).isSome) there

theorem isSome_textOf_iff (line : List UInt8) :
    (textOf? line).isSome = true ↔ InputLine.ofBytes line ≠ .noText := by
  unfold InputLine.ofBytes
  cases textOf? line with
  | none => simp
  | some text =>
    dsimp only
    rcases Update.ofLine text with fault | update | update <;> simp

theorem legible_cons {line : List UInt8} (text : InputLine.ofBytes line ≠ .noText)
    (rest : List (List UInt8)) : legible (line :: rest) = line :: legible rest :=
  List.takeWhile_cons_of_pos ((isSome_textOf_iff line).mpr text)

theorem legible_cons_noText {line : List UInt8} (bad : InputLine.ofBytes line = .noText)
    (rest : List (List UInt8)) : legible (line :: rest) = [] :=
  List.takeWhile_cons_of_neg fun text => (isSome_textOf_iff line).mp text bad

theorem AllText.legible_eq {lines : List (List UInt8)} (text : AllText lines) :
    legible lines = lines :=
  List.takeWhile_eq_self_iff.mpr text

/-- What stands behind the legible lines is nothing, or begins with a line that is no text. -/
theorem legible_split (lines : List (List UInt8)) : ∃ rest, lines = legible lines ++ rest ∧
    (rest = [] ∨ ∃ line more, rest = line :: more ∧ InputLine.ofBytes line = .noText) := by
  refine ⟨lines.dropWhile fun line => (textOf? line).isSome,
    List.takeWhile_append_dropWhile.symm, ?_⟩
  cases behind : lines.dropWhile fun line => (textOf? line).isSome with
  | nil => exact .inl rfl
  | cons line more =>
    have bad : textOf? line = none := by
      have first := List.head_dropWhile_not (fun line => (textOf? line).isSome)
        (l := lines) (by simp [behind])
      simpa [behind] using first
    refine .inr ⟨line, more, rfl, ?_⟩
    rw [InputLine.ofBytes, bad]

/-- The line is blank, or no update. -/
def Skipped (line : List UInt8) : Prop :=
  InputLine.ofBytes line = .blank ∨ ∃ text fault, InputLine.ofBytes line = .faulty text fault

theorem Skipped.ne_noText {line : List UInt8} (skipped : Skipped line) :
    InputLine.ofBytes line ≠ .noText := by
  rcases skipped with here | ⟨text, fault, here⟩ <;> simp [here]

theorem carried_eq (line : List UInt8) : carried? line =
    match InputLine.ofBytes line with
    | .update update => some update
    | _ => none := by
  unfold carried? InputLine.ofBytes
  cases textOf? line with
  | none => rfl
  | some text =>
    dsimp only
    rcases Update.ofLine text with fault | update | update <;> rfl

theorem accepted_cons_update {line : List UInt8} {update : Update}
    (here : InputLine.ofBytes line = .update update) (rest : List (List UInt8)) :
    accepted (line :: rest) = update :: accepted rest := by
  have carried : carried? line = some update := by rw [carried_eq, here]
  exact List.filterMap_cons_some carried

theorem accepted_cons_skipped {line : List UInt8} (here : Skipped line)
    (rest : List (List UInt8)) : accepted (line :: rest) = accepted rest := by
  have nothing : carried? line = none := by
    rcases here with here | ⟨text, fault, here⟩ <;> rw [carried_eq, here]
  exact List.filterMap_cons_none nothing

/-- A line of text carries an update or is passed over. -/
theorem line_cases {line : List UInt8} (text : (textOf? line).isSome) :
    (∃ update, InputLine.ofBytes line = .update update) ∨ Skipped line := by
  obtain ⟨text, read⟩ := Option.isSome_iff_exists.mp text
  unfold Skipped InputLine.ofBytes
  simp only [read]
  cases Update.ofLine text with
  | error fault => exact .inr (.inr ⟨text, fault, rfl⟩)
  | ok update =>
    cases update with
    | none => exact .inr (.inl rfl)
    | some update => exact .inl ⟨update, rfl⟩

/-- Updates as they are published. -/
def values (updates : List Update) : List (String × Json) :=
  updates.map fun update => (update.path, update.value)

/-- As much of a list as a limit allows. -/
def upTo {α : Type} : Option Nat → List α → List α
  | none, xs => xs
  | some limit, xs => xs.take limit

/-- The engine of a service, with a sink that keeps deliveries itself. -/
def inMemory (config : ServiceConfig) : Engine Outlet :=
  .new Outlet.memory (.limited none "" config.loopback) none

/-- An engine over a sink that keeps deliveries, and one over a sink that hands them on. -/
abbrev Mirrors (loopback : Bool) (engine engine' : Engine Outlet) : Prop :=
  Engine.Mirrors (Outlet.Peers loopback) engine engine'

variable {loopback : Bool} {engine engine' : Engine Outlet}

theorem Mirrors.noteAs (mirrors : Mirrors loopback engine engine') (level : Level) (origin : Origin)
    (text : String) : Mirrors loopback engine (Host.noteAs level origin text engine') :=
  Engine.Mirrors.write_right mirrors (List.forall_mem_singleton.mpr rfl)

theorem mirrors_fresh (look : String → Presence) (config : ServiceConfig) :
    Mirrors config.loopback (inMemory config) (fresh look config) := by
  have new : ∀ logs, Mirrors config.loopback (inMemory config)
      (.new Outlet.sink (channel config.loopback) logs) := fun _ =>
    ⟨Outlet.memory_agrees config.loopback, ⟨rfl, .nil, rfl, rfl, ⟨rfl, rfl, rfl⟩, ⟨rfl, rfl, rfl⟩⟩,
      rfl, rfl⟩
  unfold fresh
  dsimp only
  split
  · exact (new _).noteAs _ _ _
  · exact new _

/-- The service starts its rules with the outcome that they have in the other engine. -/
theorem opened_of_start (look : String → Presence) (config : ServiceConfig) {budget : Nat}
    {started : Engine Outlet} {report : StartReport}
    (starts : (inMemory config).start budget config.engine = some (started, .ok report)) :
    ∃ least engine, Mirrors config.loopback started engine ∧ ∀ more, least ≤ more →
      Service.opened more look config = some (.ok ⟨engine, report, 0, 0, 0, false⟩) := by
  obtain ⟨least, middle, mirrors, ends⟩ := (mirrors_fresh look config).start rfl starts
  refine ⟨least, report.dropped.foldl noteNotStarted middle, ?_, fun more enough => ?_⟩
  · generalize report.dropped = dropped
    clear ends
    induction dropped generalizing middle with
    | nil => exact mirrors
    | cons first rest ih => exact ih _ (Mirrors.noteAs mirrors _ _ _)
  · rw [Service.opened, ends more enough]
    rfl

namespace Service

/-- A service in the middle of its input, beside an engine that has had the same updates. -/
structure Follows (service : Service) (loopback : Bool) (engine : Engine Outlet)
    (report : StartReport) (updates : Nat) : Prop where
  mirrors : Mirrors loopback engine service.engine
  report : service.report = report
  updates : service.updates = updates
  unflushed : service.flushed = 0
  going : service.failed = false

variable {service : Service} {report : StartReport} {updates : Nat}

theorem Follows.deliveries (follows : service.Follows loopback engine report updates) :
    service.deliveries = engine.deliveries :=
  follows.mirrors.deliveries.symm

theorem Follows.outputs (follows : service.Follows loopback engine report updates) :
    service.outputs = engine.deliveries.length := by
  rw [Service.outputs, follows.unflushed, follows.deliveries, Nat.zero_add]

/-- To publish an update is to publish its value at its path. -/
theorem Follows.publish (follows : service.Follows loopback engine report updates) {update : Update}
    {budget audience : Nat} {after : Engine Outlet}
    (publishes : engine.publish budget update.path update.value = some (after, audience)) :
    ∃ least service', service'.Follows loopback after report (updates + 1) ∧
      ∀ more, least ≤ more → service.publish more update = some service' := by
  obtain ⟨least, after', mirrors, ends⟩ := (follows.mirrors.noteAs .trace .host
    ("update " ++ update.path ++ " = " ++ update.value.text)).publish publishes
  refine ⟨least, { service with engine := after', updates := service.updates + 1 }, ?_, ?_⟩
  · exact ⟨mirrors, follows.report, congrArg (· + 1) follows.updates, follows.unflushed,
      follows.going⟩
  · intro more enough
    rw [Service.publish, ends more enough]
    rfl

/-- A line that carries an update has it published. -/
theorem Follows.take (follows : service.Follows loopback engine report updates) {line : List UInt8}
    {update : Update} (here : InputLine.ofBytes line = .update update) {budget audience : Nat}
    {after : Engine Outlet}
    (publishes : engine.publish budget update.path update.value = some (after, audience)) :
    ∃ least service', service'.Follows loopback after report (updates + 1) ∧
      ∀ more, least ≤ more → service.take more line = some service' := by
  have counted :
      Follows { service with lines := service.lines + 1 } loopback engine report updates :=
    ⟨follows.mirrors, follows.report, follows.updates, follows.unflushed, follows.going⟩
  obtain ⟨least, service', follows', ends⟩ := counted.publish publishes
  refine ⟨least, service', follows', fun more enough => ?_⟩
  rw [Service.take, if_neg (Bool.eq_false_iff.mp follows.going), ← ends more enough]
  dsimp only
  rw [here]

/-- A line that is text but carries no update is passed over. -/
theorem Follows.skip (follows : service.Follows loopback engine report updates) {line : List UInt8}
    (here : Skipped line) : ∃ service', service'.Follows loopback engine report updates ∧
      ∀ budget, service.take budget line = some service' := by
  simp only [Service.take, follows.going, Bool.false_eq_true, if_false]
  rcases here with here | ⟨text, fault, here⟩
  · rw [here]
    refine ⟨_, ?_, fun _ => rfl⟩
    exact ⟨follows.mirrors, follows.report, follows.updates, follows.unflushed, rfl⟩
  · rw [here]
    refine ⟨_, ?_, fun _ => rfl⟩
    exact ⟨follows.mirrors.noteAs _ _ _, follows.report, follows.updates, follows.unflushed, rfl⟩

theorem takeAll_cons (budget : Nat) (limit : Option Nat) (service : Service) (line : List UInt8)
    (rest : List (List UInt8)) : service.takeAll budget limit none (line :: rest) =
      if limit = some service.updates then some service
      else (service.take budget line).bind fun after => after.takeAll budget limit none rest := by
  have turn : (if service.updates % burst = 0 then service.tryOutput none else service) = service :=
    ite_id _
  rw [takeAll, turn]
  dsimp only
  cases service.take budget line <;> rfl

/-- What is left of a limit after some updates. -/
def remaining (limit : Option Nat) (updates : Nat) : Option Nat := limit.map (· - updates)

theorem upTo_nil {α : Type} (limit : Option Nat) : upTo limit ([] : List α) = [] := by
  cases limit with
  | none => rfl
  | some limit => exact List.take_nil

theorem upTo_reached {α : Type} (updates : Nat) (xs : List α) :
    upTo (remaining (some updates) updates) xs = [] := by
  rw [remaining, Option.map_some, Nat.sub_self]
  rfl

theorem upTo_cons {α : Type} {limit : Option Nat} {updates : Nat}
    (below : ∀ most, limit = some most → updates < most) (x : α) (xs : List α) :
    upTo (remaining limit updates) (x :: xs) = x :: upTo (remaining limit (updates + 1)) xs := by
  cases limit with
  | none => rfl
  | some most =>
    have more : most - updates = most - (updates + 1) + 1 := by
      have := below most rfl
      omega
    rw [remaining, Option.map_some, more]
    rfl

/--
The service takes its input as far as the limit allows, and has published the updates there. The
induction is on the lines; after each the limit that is left is told from the updates so far.
-/
theorem Follows.takeAll (follows : service.Follows loopback engine report updates)
    {lines : List (List UInt8)} (text : AllText lines) {limit : Option Nat}
    (below : ∀ most, limit = some most → updates ≤ most) {last : Engine Outlet}
    (publishes : engine.Publishes (values (upTo (remaining limit updates) (accepted lines))) last) :
    ∃ least service', service'.Follows loopback last report
        (updates + (upTo (remaining limit updates) (accepted lines)).length) ∧
      ∀ budget, least ≤ budget → service.takeAll budget limit none lines = some service' := by
  induction lines generalizing service engine updates with
  | nil =>
    rw [accepted, List.filterMap_nil, upTo_nil] at publishes ⊢
    obtain rfl := publishes.unique (.nil engine)
    exact ⟨0, service, follows, fun _ _ => rfl⟩
  | cons line rest ih =>
    simp only [takeAll_cons, follows.updates]
    by_cases reached : limit = some updates
    · rw [reached, upTo_reached] at publishes ⊢
      obtain rfl := publishes.unique (.nil engine)
      exact ⟨0, service, follows, fun _ _ => if_pos rfl⟩
    · have early : ∀ most, limit = some most → updates < most := by
        intro most same
        refine Nat.lt_of_le_of_ne (below most same) ?_
        rintro rfl
        exact reached same
      simp only [if_neg reached]
      obtain ⟨here, text⟩ := List.forall_mem_cons.mp text
      rcases line_cases here with ⟨update, is_update⟩ | skipped
      · rw [accepted_cons_update is_update, upTo_cons early] at publishes ⊢
        obtain ⟨_, middle, _, published, later⟩ := publishes_cons_iff.mp publishes
        obtain ⟨least, service', follows', takes⟩ := follows.take is_update published
        obtain ⟨least', service'', follows'', takes'⟩ := ih follows' text early later
        refine ⟨max least least', service'', ?_, fun budget enough => ?_⟩
        · rw [List.length_cons, Nat.add_comm _ 1, ← Nat.add_assoc]
          exact follows''
        · rw [takes budget (by omega)]
          exact takes' budget (by omega)
      · rw [accepted_cons_skipped skipped] at publishes ⊢
        obtain ⟨service', follows', takes⟩ := follows.skip skipped
        obtain ⟨least, service'', follows'', takes'⟩ := ih follows' text below publishes
        refine ⟨least, service'', follows'', fun budget enough => ?_⟩
        rw [takes budget]
        exact takes' budget enough

/-- When a line was no text, nothing more is taken. -/
theorem takeAll_failed {service : Service} (failed : service.failed = true) (budget : Nat)
    (limit : Option Nat) (lines : List (List UInt8)) :
    service.takeAll budget limit none lines = some service := by
  induction lines with
  | nil => rfl
  | cons line rest ih =>
    rw [takeAll_cons, take, if_pos failed, Option.bind_some, ih, ite_id]

theorem takeAll_append (budget : Nat) (limit : Option Nat) (service : Service)
    (first second : List (List UInt8)) : service.takeAll budget limit none (first ++ second) =
      (service.takeAll budget limit none first).bind fun middle =>
        middle.takeAll budget limit none second := by
  induction first generalizing service with
  | nil => rfl
  | cons line rest ih =>
    rw [List.cons_append, takeAll_cons, takeAll_cons]
    split
    · rename_i reached
      cases second with
      | nil => rfl
      | cons line rest => rw [Option.bind_some, takeAll_cons, if_pos reached]
    · cases service.take budget line with
      | none => rfl
      | some middle => exact ih middle

/-- What stands behind the legible lines is not taken. -/
theorem Follows.takeRest (follows : service.Follows loopback engine report updates)
    {rest : List (List UInt8)}
    (behind : rest = [] ∨ ∃ line more, rest = line :: more ∧ InputLine.ofBytes line = .noText)
    (limit : Option Nat) : ∃ service', ∀ budget, service.takeAll budget limit none rest =
      some service' ∧ { service' with failed := false } = service := by
  have whole : { service with failed := false } = service := by rw [← follows.going]
  rcases behind with rfl | ⟨line, more, rfl, bad⟩
  · exact ⟨service, fun _ => ⟨rfl, whole⟩⟩
  · by_cases reached : limit = some service.updates
    · refine ⟨service, fun budget => ⟨?_, whole⟩⟩
      rw [takeAll_cons, if_pos reached]
    · refine ⟨{ service with failed := true }, fun budget => ⟨?_, whole⟩⟩
      have stops : service.take budget line = some { service with failed := true } := by
        rw [Service.take, if_neg (Bool.eq_false_iff.mp follows.going)]
        dsimp only
        rw [bad]
      rw [takeAll_cons, if_neg reached, stops, Option.bind_some]
      exact takeAll_failed rfl budget limit more

end Service

/-- The service writes what the other engine delivers that is given the updates of legible lines. -/
theorem serve_legible (look : String → Presence) (config : ServiceConfig) (input : List UInt8)
    {budget : Nat} {started last : Engine Outlet} {report : StartReport}
    (starts : (inMemory config).start budget config.engine = some (started, .ok report))
    (limit : Option Nat)
    (publishes :
      started.Publishes (values (upTo limit (accepted (legible (lines input))))) last) :
    ∃ least, ∀ more, least ≤ more → ∃ journal,
      serve more look config input limit none = some ⟨journal, written last.deliveries,
        .ok ⟨report, (upTo limit (accepted (legible (lines input)))).length,
          last.deliveries.length⟩⟩ := by
  obtain ⟨least, engine, mirrors, opens⟩ := opened_of_start look config starts
  have follows :
      Service.Follows ⟨engine, report, 0, 0, 0, false⟩ config.loopback started report 0 :=
    ⟨mirrors, rfl, rfl, rfl, rfl⟩
  have whole : Service.remaining limit 0 = limit := by
    cases limit <;> rfl
  have below : ∀ most, limit = some most → 0 ≤ most := fun _ _ => Nat.zero_le _
  obtain ⟨least', service, follows', takes⟩ :=
    follows.takeAll (legible_text (lines input)) below (whole.symm ▸ publishes)
  rw [whole, Nat.zero_add] at follows'
  obtain ⟨rest, split, behind⟩ := legible_split (lines input)
  obtain ⟨service', takes'⟩ := follows'.takeRest behind limit
  have same := (takes' 0).2
  have taken (more : Nat) (enough : max least least' ≤ more) :
      Service.takeAll more limit none ⟨engine, report, 0, 0, 0, false⟩ (lines input) =
        some service' := by
    rw [split, Service.takeAll_append, takes more (by omega), Option.bind_some, (takes' more).1]
  refine ⟨max least least', fun more enough =>
    ⟨(service'.close (limit == some service'.updates) none).1.journal, ?_⟩⟩
  rw [serve, opens more (by omega)]
  dsimp only
  rw [taken more enough, ← follows'.outputs, ← follows'.deliveries, ← follows'.updates,
    ← follows'.report, ← same]
  rfl

/-- The service writes what the other engine delivers, and counts it. -/
theorem serve_of_publishes (look : String → Presence) (config : ServiceConfig) {input : List UInt8}
    (text : AllText (lines input)) {budget : Nat} {started last : Engine Outlet}
    {report : StartReport}
    (starts : (inMemory config).start budget config.engine = some (started, .ok report))
    (limit : Option Nat)
    (publishes : started.Publishes (values (upTo limit (accepted (lines input)))) last) :
    ∃ least, ∀ more, least ≤ more → ∃ journal,
      serve more look config input limit none = some ⟨journal, written last.deliveries,
        .ok ⟨report, (upTo limit (accepted (lines input))).length, last.deliveries.length⟩⟩ := by
  rw [← text.legible_eq] at publishes ⊢
  exact serve_legible look config input starts limit publishes

end Switchboard.Host
