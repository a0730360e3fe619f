import Switchboard.Proofs.Config.Layers

/-!
# Two names for the prefixes

The prefixes of paths that are driven by requests have two names, and a
document that is read on its own may use either. The layers of settings are
not read so: the defaults, which lie below a file, write the prefixes under
the first name, and a file that uses the second one adds a second member
instead of replacing the first. Both are the same field, which is then given
twice. No such file can be loaded, whatever else it says.
-/
namespace Switchboard

open Json

namespace ServiceConfig

/-- The document of a member of a given name. -/
def documentAt (name : String) (setting : Setting) : Document :=
  if name = loggingName then (trimmed setting).document .direct else setting.document .gathered

theorem memberDocument_eq (member : String × Setting) :
    memberDocument member = (some member.1, documentAt member.1 member.2) := by
  unfold memberDocument documentAt
  split <;> rfl

variable {merged merged' : List (String × Setting)}

/-- What members hold for a field, if they use one name of it at most. -/
theorem fieldOf?_members (ordered : Ordered merged) {names : List String} {name : String}
    (named : name ∈ names)
    (others : ∀ other ∈ names, other ≠ name → merged.lookup other = none) :
    fieldOf? names (merged.map memberDocument) =
      some ((merged.lookup name).map (documentAt name)) := by
  have only : merged.filter ((fun member => member.1.any names.contains) ∘ memberDocument) =
      merged.filter fun member => member.1 == name := by
    refine List.filter_congr fun member there => ?_
    rw [Function.comp_apply, memberDocument_eq, Option.any_some]
    by_cases same : member.1 = name
    · simp [same, named]
    · have absent : member.1 ∉ names := fun listed => by
        have found := ordered.lookup_of_mem there
        rw [others member.1 listed same] at found
        cases found
      simp [same, absent]
  unfold fieldOf?
  rw [List.filter_map, only, ordered.filter_name]
  cases merged.lookup name with
  | none => rfl
  | some setting => simp [memberDocument_eq]

/-- Two members for one field are refused. -/
theorem fieldOf?_twice {members : List Member} {names : List String} {one other : Member}
    (first : one ∈ members) (second : other ∈ members) (different : one ≠ other)
    (named : one.1.any names.contains = true) (named' : other.1.any names.contains = true) :
    fieldOf? names members = none := by
  have there : one ∈ members.filter fun member => member.1.any names.contains :=
    List.mem_filter.mpr ⟨first, named⟩
  have there' : other ∈ members.filter fun member => member.1.any names.contains :=
    List.mem_filter.mpr ⟨second, named'⟩
  unfold fieldOf?
  split
  · rename_i nothing
    rw [nothing] at there
    cases there
  · rename_i single
    rw [single] at there there'
    exact absurd ((List.mem_singleton.mp there).trans (List.mem_singleton.mp there').symm) different
  · rfl

/-- Settings that use both names of the prefixes amount to no configuration. -/
theorem ofSetting?_both {camel snake : Setting} (first : merged.lookup "usePut" = some camel)
    (second : merged.lookup "use_put" = some snake) : ofSetting? (.table merged) = none := by
  have twice : fieldOf? ["usePut", "use_put"] (merged.map memberDocument) = none := by
    refine fieldOf?_twice (List.mem_map_of_mem (mem_of_lookup first))
      (List.mem_map_of_mem (mem_of_lookup second)) ?_ ?_ ?_
    · rw [memberDocument_eq, memberDocument_eq]
      intro same
      have names := Option.some.inj (Prod.mk.inj same).1
      simp at names
    · rw [memberDocument_eq]
      rfl
    · rw [memberDocument_eq]
      rfl
  have refused : fieldNames.mapM (fieldOf? · (merged.map memberDocument)) = none := by
    simp only [fieldNames, EngineConfig.fieldNames, List.cons_append, List.nil_append,
      List.mapM_cons, twice]
    cases fieldOf? ["logging"] (merged.map memberDocument) with
    | none => rfl
    | some logging => cases fieldOf? ["loopback"] (merged.map memberDocument) <;> rfl
  show (fieldsOfMembers? fieldNames (merged.map memberDocument)).bind ofFields? = none
  unfold fieldsOfMembers?
  rw [refused]
  split <;> rfl

/-- What settings amount to that do not use the second name of the prefixes. -/
theorem ofSetting?_table (ordered : Ordered merged) (absent : merged.lookup "use_put" = none) :
    ofSetting? (.table merged) =
      if readable (merged.map memberDocument) then
        let field (name : String) := (merged.lookup name).map (documentAt name)
        ofFields? [field "logging", field "loopback", field "usePut", field "rules"]
      else none := by
  have alone (name : String) : fieldOf? [name] (merged.map memberDocument) =
      some ((merged.lookup name).map (documentAt name)) :=
    fieldOf?_members ordered List.mem_cons_self fun other listed different =>
      absurd (List.mem_singleton.mp listed) different
  have prefixes : fieldOf? ["usePut", "use_put"] (merged.map memberDocument) =
      some ((merged.lookup "usePut").map (documentAt "usePut")) := by
    refine fieldOf?_members ordered List.mem_cons_self fun other listed different => ?_
    rcases List.mem_cons.mp listed with same | listed
    · exact absurd same different
    · rw [List.mem_singleton.mp listed, absent]
  show (fieldsOfMembers? fieldNames (merged.map memberDocument)).bind ofFields? = _
  unfold fieldsOfMembers?
  split
  · simp only [fieldNames, EngineConfig.fieldNames, List.cons_append, List.nil_append,
      List.mapM_cons, List.mapM_nil, alone, prefixes]
    rfl
  · rfl

theorem readable_iff (ordered : Ordered merged) : readable (merged.map memberDocument) = true ↔
    ∀ name setting, merged.lookup name = some setting → (documentAt name setting).intact = true := by
  simp only [readable, List.all_map, List.all_eq_true, Function.comp_apply, memberDocument_eq,
    Option.isSome_some, Bool.true_and]
  constructor
  · intro all name setting found
    exact all _ (mem_of_lookup found)
  · intro all member there
    exact all _ _ (ordered.lookup_of_mem there)

/-- A row of texts is read as it is written. -/
theorem documentAt_texts (texts : List String) :
    documentAt "usePut" (.list (texts.map .text)) = .array (texts.map fun s => .string (some s)) := by
  have items : Setting.itemDocuments .gathered (texts.map .text) =
      texts.map fun s => .string (some s) := by
    induction texts with
    | nil => rfl
    | cons text rest ih => exact congrArg _ ih
  rw [documentAt, if_neg (by decide), Setting.document, items]

theorem intact_texts (texts : List String) :
    (Document.array (texts.map fun s => .string (some s))).intact = true := by
  rw [Document.intact]
  induction texts with
  | nil => rfl
  | cons text rest ih => simpa [Document.intactItems, Document.intact] using ih

theorem list?_texts (texts : List String) : Document.list? Document.string?
    (.array (texts.map fun s => .string (some s))) = some texts := by
  rw [Document.list?]
  induction texts with
  | nil => rfl
  | cons text rest ih =>
    rw [List.map_cons, List.mapM_cons, ih]
    rfl

/-- The configuration with other prefixes. -/
def withPrefixes (prefixes : List String) (config : ServiceConfig) : ServiceConfig :=
  { config with engine := { config.engine with usePut := prefixes } }

theorem ofFields?_prefixes (logging loopback rules : Option Document) (old new : List String) :
    ofFields? [logging, loopback, some (.array (new.map fun s => .string (some s))), rules] =
      (ofFields? [logging, loopback, some (.array (old.map fun s => .string (some s))), rules]).map
        (withPrefixes new) := by
  have prefixes (texts : List String) :
      Document.orDefault? EngineConfig.defaultUsePut (Document.list? Document.string?)
        (some (.array (texts.map fun s => .string (some s)))) = some texts :=
    list?_texts texts
  simp only [ofFields?, EngineConfig.ofFields?, prefixes]
  cases Document.orDefault? .defaults LoggingConfig.ofDocument? logging <;>
    cases Document.orDefault? true Document.bool? loopback <;>
      cases Document.orDefault? [] (Document.list? RuleConfig.ofDocument?) rules <;> rfl

/-- Settings that differ in the prefixes only amount to configurations that do. -/
theorem ofSetting?_prefixes (ordered : Ordered merged) (ordered' : Ordered merged')
    (absent : merged.lookup "use_put" = none)
    (same : ∀ name, name ≠ "usePut" → merged'.lookup name = merged.lookup name)
    {old new : List String} (before : merged.lookup "usePut" = some (.list (old.map .text)))
    (after : merged'.lookup "usePut" = some (.list (new.map .text))) :
    ofSetting? (.table merged') = (ofSetting? (.table merged)).map (withPrefixes new) := by
  have absent' : merged'.lookup "use_put" = none := (same _ (by decide)).trans absent
  have reads : readable (merged'.map memberDocument) = readable (merged.map memberDocument) := by
    rw [Bool.eq_iff_iff, readable_iff ordered, readable_iff ordered']
    refine forall_congr' fun name => ?_
    by_cases here : name = "usePut"
    · subst here
      rw [before, after]
      have intact (texts : List String) :
          ∀ setting, some (Setting.list (texts.map .text)) = some setting →
            (documentAt "usePut" setting).intact = true := by
        intro setting found
        obtain rfl := Option.some.inj found
        rw [documentAt_texts, intact_texts]
      exact iff_of_true (intact new) (intact old)
    · rw [same name here]
  rw [ofSetting?_table ordered absent, ofSetting?_table ordered' absent', reads]
  split
  · simp only [before, after, same "logging" (by decide), same "loopback" (by decide),
      same "rules" (by decide), Option.map_some, documentAt_texts]
    exact ofFields?_prefixes _ _ _ old new
  · rfl

/-! ### Layers -/

/-- The settings of the defaults. -/
def defaultMembers : List (String × Setting) :=
  match Setting.ofJson defaults.toJson with
  | .table members => members
  | _ => []

theorem ofJson_defaults : Setting.ofJson defaults.toJson = .table defaultMembers := rfl

theorem ordered_defaults : Ordered defaultMembers :=
  (ordered_ofMembers _).of_names (Setting.names_ofObject _)

theorem lookup_defaults : defaultMembers.lookup "usePut" =
    some (.list (EngineConfig.defaultUsePut.map .text)) := rfl

theorem ofLayers?_tables (members upper : List (String × Setting)) :
    ofLayers? (.table members) (.table upper) =
      ofSetting? (.table (Setting.overlayMembers
        (Setting.overlayMembers defaultMembers members) upper)) := by
  rw [ofLayers?, ofJson_defaults, Setting.overlay_table, Setting.overlay_table]

theorem exists_lookup_overlay (under members : List (String × Setting)) {name : String}
    {setting : Setting}
    (found : under.lookup name = some setting ∨ members.lookup name = some setting) :
    ∃ laid, (Setting.overlayMembers under members).lookup name = some laid := by
  rw [← Option.isSome_iff_exists, Setting.isSome_lookup_overlayMembers, Bool.or_eq_true]
  exact found.imp (fun found => by rw [found]; rfl) fun found => by rw [found]; rfl

/-- Under the second name the prefixes stand beside those of the defaults. -/
theorem ofLayers?_snake {members : List (String × Setting)} {snake : Setting}
    (found : members.lookup "use_put" = some snake) (upper : Setting) :
    ofLayers? (.table members) upper = none := by
  have camel := lookup_defaults
  obtain ⟨_, camel⟩ := exists_lookup_overlay defaultMembers members (.inl camel)
  obtain ⟨_, second⟩ := exists_lookup_overlay defaultMembers members (.inr found)
  cases upper with
  | table upper =>
    rw [ofLayers?_tables]
    obtain ⟨_, camel⟩ := exists_lookup_overlay _ upper (.inl camel)
    obtain ⟨_, second⟩ := exists_lookup_overlay _ upper (.inl second)
    exact ofSetting?_both camel second
  | null | bool _ | int _ | fraction | text _ | char _ | list _ => rfl

/-- Under the first name the prefixes take the place of those of the defaults. -/
theorem ofLayers?_camel {bare members upper : List (String × Setting)} (ordered : Ordered bare)
    (ordered' : Ordered members) (nowhere : bare.lookup "usePut" = none)
    (same : ∀ name, name ≠ "usePut" → members.lookup name = bare.lookup name)
    {prefixes : List String} (found : members.lookup "usePut" = some (.list (prefixes.map .text)))
    (above : upper.lookup "usePut" = none) :
    ofLayers? (.table members) (.table upper) =
      (ofLayers? (.table bare) (.table upper)).map (withPrefixes prefixes) := by
  rw [ofLayers?_tables, ofLayers?_tables]
  have lower (name : String) (other : name ≠ "usePut") :
      (Setting.overlayMembers defaultMembers members).lookup name =
        (Setting.overlayMembers defaultMembers bare).lookup name := by
    rw [Setting.lookup_overlayMembers ordered, Setting.lookup_overlayMembers ordered',
      same name other]
  have whole (name : String) (other : name ≠ "usePut") :=
    Setting.lookup_overlayMembers_congr (lower name other) upper
  have old : (Setting.overlayMembers (Setting.overlayMembers defaultMembers bare) upper).lookup
      "usePut" = some (.list (EngineConfig.defaultUsePut.map .text)) := by
    rw [Setting.lookup_overlayMembers_of_none _ above,
      Setting.lookup_overlayMembers_of_none _ nowhere, lookup_defaults]
  have new : (Setting.overlayMembers (Setting.overlayMembers defaultMembers members) upper).lookup
      "usePut" = some (.list (prefixes.map .text)) := by
    rw [Setting.lookup_overlayMembers_of_none _ above, Setting.lookup_overlayMembers ordered', found,
      lookup_defaults]
    dsimp only
    rw [Setting.laidOver, Setting.overlay]
    intro _ table
    cases table
  have tidy (members : List (String × Setting)) : Ordered (Setting.overlayMembers
      (Setting.overlayMembers defaultMembers members) upper) :=
    Setting.ordered_overlayMembers (Setting.ordered_overlayMembers ordered_defaults members) upper
  cases absent : (Setting.overlayMembers (Setting.overlayMembers defaultMembers bare) upper).lookup
      "use_put" with
  | none => exact ofSetting?_prefixes (tidy bare) (tidy members) absent whole old new
  | some snake =>
    rw [ofSetting?_both old absent, ofSetting?_both new ((whole _ (by decide)).trans absent)]
    rfl

/-! ### Files -/

/-- A file that can be read and holds settings of certain names. -/
def Holds (file : ConfigFile) (members : List (String × Setting)) : Prop :=
  ∃ format content, file.format = .ok format ∧ file.presence = .file content ∧
    format.settings? content = some (.table members)

theorem Holds.ordered {file : ConfigFile} {members : List (String × Setting)}
    (holds : Holds file members) : Ordered members := by
  obtain ⟨format, content, _, _, reads⟩ := holds
  exact FileFormat.ordered_settings reads

/-- A configuration, or that there is none. -/
def orInvalid : Option ServiceConfig → Except LoadError ServiceConfig
  | some config => .ok config
  | none => .error .invalid

/-- Loading lays the environment over the file, if it can be read. -/
theorem Holds.load {file : ConfigFile} {members : List (String × Setting)}
    (holds : Holds file members) (environment : List Variable) :
    ServiceConfig.load (some file) environment =
      (environmentSettings environment).bind fun upper =>
        orInvalid (ofLayers? (.table members) upper) := by
  obtain ⟨format, content, known, there, reads⟩ := holds
  have settings : (file.format).map file.presence.settings? = .ok (some (.table members)) := by
    rw [known, there]
    exact congrArg Except.ok reads
  unfold ServiceConfig.load
  dsimp only
  rw [settings]
  rfl

theorem Holds.load_snake {file : ConfigFile} {members : List (String × Setting)} {snake : Setting}
    (holds : Holds file members) (found : members.lookup "use_put" = some snake)
    (environment : List Variable) :
    (∀ config, ServiceConfig.load (some file) environment ≠ .ok config) ∧
      ∀ upper, environmentSettings environment = .ok upper →
        ServiceConfig.load (some file) environment = .error .invalid := by
  rw [holds.load]
  simp only [ofLayers?_snake found]
  cases environmentSettings environment with
  | error e => exact ⟨nofun, nofun⟩
  | ok upper => exact ⟨nofun, fun _ _ => rfl⟩

theorem settings_of_environment {environment : List Variable} {upper : Setting}
    (reads : environmentSettings environment = .ok upper) :
    Variable.settings environment = .ok upper := by
  unfold environmentSettings at reads
  cases read : Variable.settings environment with
  | error e =>
    rw [read] at reads
    cases reads
  | ok setting =>
    rw [read] at reads
    exact congrArg _ (Except.ok.inj reads)

theorem Holds.load_camel {file bare : ConfigFile} {members others : List (String × Setting)}
    (holds : Holds file members) (holds' : Holds bare others)
    (nowhere : others.lookup "usePut" = none)
    (same : ∀ name, name ≠ "usePut" → members.lookup name = others.lookup name)
    {prefixes : List String} (found : members.lookup "usePut" = some (.list (prefixes.map .text)))
    (environment : List Variable) : ServiceConfig.load (some file) environment =
      (ServiceConfig.load (some bare) environment).map (withPrefixes prefixes) := by
  rw [holds.load, holds'.load]
  cases reads : environmentSettings environment with
  | error e => rfl
  | ok upper =>
    obtain ⟨above, rfl, low⟩ := Variable.settings_low (settings_of_environment reads)
    have small : above.lookup "usePut" = none := by
      cases capital : above.lookup "usePut" with
      | none => rfl
      | some setting =>
        have lowered := low "usePut" (by rw [capital]; rfl) 'P' (by decide)
        exact absurd lowered (by decide)
    show orInvalid (ofLayers? (.table members) (.table above)) =
      (orInvalid (ofLayers? (.table others) (.table above))).map (withPrefixes prefixes)
    rw [ofLayers?_camel holds'.ordered holds.ordered nowhere same found small]
    cases ofLayers? (.table others) (.table above) <;> rfl

/-- A file that gives prefixes under a name, and other settings beside them. -/
def Gives (file : ConfigFile) (name : String) (prefixes : List String)
    (others : List (String × Setting)) : Prop :=
  ∃ members, Holds file members ∧ ∀ other, members.lookup other =
    if other = name then some (.list (prefixes.map .text)) else others.lookup other

/-! ### Documents that are read on their own -/

/-- A member under the first name instead of the second one. -/
def respelled (member : Member) : Member :=
  if member.1 = some "use_put" then (some "usePut", member.2) else member

theorem respelled_snd (member : Member) : (respelled member).2 = member.2 := by
  unfold respelled
  split <;> rfl

theorem fieldOf?_respelled {names : List String}
    (either : names.contains "usePut" = names.contains "use_put") (members : List Member) :
    fieldOf? names (members.map respelled) = fieldOf? names members := by
  have alike : (fun member : Member => member.1.any names.contains) ∘ respelled =
      fun member => member.1.any names.contains := by
    funext member
    rw [Function.comp_apply, respelled]
    split
    · rename_i snake
      rw [snake]
      exact either
    · rfl
  unfold fieldOf?
  rw [List.filter_map, alike]
  generalize members.filter (fun member => member.1.any names.contains) = given
  rcases given with _ | ⟨first, _ | ⟨second, rest⟩⟩
  · rfl
  · show some (some (respelled first).2) = _
    rw [respelled_snd]
  · rfl

theorem readable_respelled (members : List Member) :
    readable (members.map respelled) = readable members := by
  have alike (member : Member) : (respelled member).1.isSome = member.1.isSome := by
    unfold respelled
    split
    · rename_i snake
      rw [snake]
      rfl
    · rfl
  unfold readable
  rw [List.all_map]
  congr 1
  funext member
  show ((respelled member).1.isSome && (respelled member).2.intact) = _
  rw [alike, respelled_snd]

/-- A document that is read on its own may use either name. -/
theorem ofDocument?_respelled (members : List Member) :
    ofDocument? (.object (members.map respelled)) = ofDocument? (.object members) := by
  have fields : fieldNames.mapM (fieldOf? · (members.map respelled)) =
      fieldNames.mapM (fieldOf? · members) := by
    simp only [fieldNames, EngineConfig.fieldNames, List.cons_append, List.nil_append,
      List.mapM_cons, List.mapM_nil]
    rw [fieldOf?_respelled (by decide), fieldOf?_respelled (by decide),
      fieldOf?_respelled (by decide), fieldOf?_respelled (by decide)]
  show (fieldsOfMembers? fieldNames (members.map respelled)).bind ofFields? =
    (fieldsOfMembers? fieldNames members).bind ofFields?
  unfold fieldsOfMembers?
  rw [readable_respelled, fields]

end ServiceConfig

/--
A file that gives the prefixes under their second name is never loaded, whatever else it says and
whatever the environment sets. So the two names are alike exactly where the file is not loaded under
the first name either. Under that name the prefixes take the place of the default ones: the file is
loaded exactly when it is loaded without them, and nothing else is different. A document that is
read on its own may use either name.
-/
theorem load_of_either_name (camel snake : ConfigFile) (others : List (String × Setting))
    (prefixes : List String) (environment : List Variable)
    (nowhere : others.lookup "usePut" = none)
    (first : ServiceConfig.Gives camel "usePut" prefixes others)
    (second : ServiceConfig.Gives snake "use_put" prefixes others) :
    ((∀ config, ServiceConfig.load (some snake) environment = .ok config ↔
        ServiceConfig.load (some camel) environment = .ok config) ↔
      ∀ config, ServiceConfig.load (some camel) environment ≠ .ok config) ∧
    (∀ config, ServiceConfig.load (some snake) environment ≠ .ok config) ∧
    (∀ upper, ServiceConfig.environmentSettings environment = .ok upper →
      ServiceConfig.load (some snake) environment = .error .invalid) ∧
    (∀ bare, ServiceConfig.Holds bare others → ServiceConfig.load (some camel) environment =
      (ServiceConfig.load (some bare) environment).map (ServiceConfig.withPrefixes prefixes)) ∧
    ∀ members : List Member,
      ServiceConfig.ofDocument? (.object (members.map ServiceConfig.respelled)) =
        ServiceConfig.ofDocument? (.object members) := by
  obtain ⟨_, holds, given⟩ := first
  obtain ⟨_, holds', listed⟩ := second
  have found := (given "usePut").trans (if_pos rfl)
  have found' := (listed "use_put").trans (if_pos rfl)
  obtain ⟨never, invalid⟩ := holds'.load_snake found' environment
  refine ⟨?_, never, invalid, fun bare plain => ?_, ServiceConfig.ofDocument?_respelled⟩
  · constructor
    · intro alike config loaded
      exact never config ((alike config).mpr loaded)
    · intro unloaded config
      exact iff_of_false (never config) (unloaded config)
  · exact holds.load_camel plain nowhere (fun name other => (given name).trans (if_neg other)) found
      environment

namespace Spelled

/-- A file that says nothing. -/
def bare : ConfigFile := ⟨"c.toml", .file ""⟩

def camel : ConfigFile := ⟨"c.toml", .file "usePut = ['x.']"⟩

def snake : ConfigFile := ⟨"c.toml", .file "use_put = ['x.']"⟩

theorem holds_bare : ServiceConfig.Holds bare [] := ⟨.toml, _, rfl, rfl, by cbv⟩

theorem gives_camel : ServiceConfig.Gives camel "usePut" ["x."] [] :=
  ⟨[("usePut", .list [.text "x."])], ⟨.toml, _, rfl, rfl, by cbv⟩, fun _ => lookup_member ..⟩

theorem gives_snake : ServiceConfig.Gives snake "use_put" ["x."] [] :=
  ⟨[("use_put", .list [.text "x."])], ⟨.toml, _, rfl, rfl, by cbv⟩, fun _ => lookup_member ..⟩

theorem environment_nil : ServiceConfig.environmentSettings [] = .ok (.table []) := by cbv

theorem load_bare : ServiceConfig.load (some bare) [] = .ok .defaults := by cbv

end Spelled

/-- Of two files that say the same, the one is loaded and the other is not. -/
theorem second_name_is_refused :
    ServiceConfig.load (some Spelled.snake) [] = .error .invalid ∧
      ServiceConfig.load (some Spelled.camel) [] =
        .ok (ServiceConfig.defaults.withPrefixes ["x."]) := by
  obtain ⟨_, _, refused, loaded, _⟩ :=
    load_of_either_name Spelled.camel Spelled.snake [] ["x."] [] rfl Spelled.gives_camel
      Spelled.gives_snake
  refine ⟨refused _ Spelled.environment_nil, ?_⟩
  rw [loaded _ Spelled.holds_bare, Spelled.load_bare]
  rfl

end Switchboard
