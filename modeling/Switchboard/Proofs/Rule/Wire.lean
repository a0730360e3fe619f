import Switchboard.Proofs.Json.Members
import Switchboard.Proofs.Json.Readback
import Switchboard.Proofs.Json.Records
import Switchboard.Rule.Config

/-!
# Configurations and responses in writing

What is written for a configuration or a response is read back as the same,
whether its members stand in the order of the fields or in the order of their
names. And it is read as the same in every other way of writing it: with its
members in another order, with members that are no fields, and, where the
prefixes or a rule's own request flag are concerned, under the other name.
-/
namespace Switchboard

open Json

/-! ### Items and members -/

namespace Json

theorem ofItems_eq (items : List Json) : Document.ofItems items = items.map Document.ofValue := by
  induction items with
  | nil => rfl
  | cons item items ih => rw [Document.ofItems, ih, List.map_cons]

theorem ofMembers_eq (members : List (String × Json)) :
    Document.ofMembers members =
      members.map fun member => (some member.1, Document.ofValue member.2) := by
  induction members with
  | nil => rfl
  | cons member members ih => rw [Document.ofMembers, ih, List.map_cons]

theorem mapM_map_some {α β : Type} {read : β → Option α} {write : α → β} {items : List α}
    (back : ∀ item ∈ items, read (write item) = some item) :
    (items.map write).mapM read = some items := by
  induction items with
  | nil => rfl
  | cons item items ih =>
    obtain ⟨here, back⟩ := List.forall_mem_cons.mp back
    rw [List.map_cons, List.mapM_cons, here, ih back]
    rfl

theorem insertMember_perm {α : Type u} {name : String} {value : α} {members : List (String × α)}
    (absent : name ∉ members.map Prod.fst) :
    (insertMember name value members).Perm ((name, value) :: members) := by
  induction members with
  | nil => exact .refl _
  | cons member rest ih =>
    obtain ⟨other, old⟩ := member
    rw [List.map_cons, List.mem_cons, not_or] at absent
    rw [insertMember]
    split
    · exact .refl _
    · rw [if_neg absent.1]
      exact ((ih absent.2).cons _).trans (.swap _ _ _)

/-- Members of different names are only put in order. -/
theorem exists_sorted {members : List (String × Json)} (distinct : (members.map Prod.fst).Nodup) :
    ∃ sorted, Json.ofMembers members = .object sorted ∧ sorted.Perm members := by
  have gathers (placed members : List (String × Json))
      (distinct : ((placed ++ members).map Prod.fst).Nodup) :
      (members.foldl (fun object member => insertMember member.1 member.2 object) placed).Perm
        (placed ++ members) := by
    induction members generalizing placed with
    | nil => rw [List.append_nil, List.foldl_nil]
    | cons member members ih =>
      have moved : (placed ++ member :: members).Perm (member :: placed ++ members) :=
        List.perm_middle
      have distinct' := (moved.map Prod.fst).nodup_iff.mp distinct
      have absent : member.1 ∉ placed.map Prod.fst := by
        rw [List.cons_append, List.map_cons, List.nodup_cons, List.map_append] at distinct'
        exact fun there => distinct'.1 (List.mem_append_left _ there)
      have put : (insertMember member.1 member.2 placed).Perm (member :: placed) :=
        insertMember_perm absent
      have all := (put.append_right members).map Prod.fst
      rw [List.foldl_cons]
      exact (ih _ (all.nodup_iff.mpr distinct')).trans ((put.append_right members).trans moved.symm)
  exact ⟨_, rfl, gathers [] members distinct⟩

theorem exact_ofMembers {members : List (String × Json)} (distinct : (members.map Prod.fst).Nodup)
    (exact_all : ExactMembers members) : (Json.ofMembers members).Exact := by
  obtain ⟨sorted, shape, perm⟩ := exists_sorted distinct
  rw [shape]
  exact exactMembers_iff.mpr fun member there =>
    exactMembers_iff.mp exact_all member (perm.mem_iff.mp there)

/-- A record whose members are put in the order of names is the same record. -/
theorem rewritten_ofMembers (names : FieldNames) {members : List (String × Json)}
    (distinct : (members.map Prod.fst).Nodup) :
    Rewritten (Rewrite names) (Document.ofValue (Json.ofMembers members))
      (Document.ofValue (.object members)) := by
  obtain ⟨sorted, shape, perm⟩ := exists_sorted distinct
  rw [shape, Document.ofValue, Document.ofValue, ofMembers_eq, ofMembers_eq]
  exact .object (.rel _ _ (.reorder (perm.map _)))

end Json

/-! ### Rules -/

namespace RuleConfig

/-- The members of a rule in the order of its fields. -/
def members (rule : RuleConfig) : List (String × Json) :=
  optionalMember "id" rule.id ++
    [nullableMember "input" rule.input, nullableMember "output" rule.output] ++
    optionalMember "description" rule.description ++
    [("usePut", .bool rule.usePut), ("enabled", .bool rule.enabled)]

/-- Documents that write one rule in two ways. -/
def Rewritten : Document → Document → Prop := Json.Rewritten (Rewrite fieldNames)

theorem Rewritten.read_eq {document other : Document} (rewritten : Rewritten document other) :
    ofDocument? document = ofDocument? other := by
  refine rewritten.keeps fun members others step => ?_
  have fields := step.fields_eq (by decide)
  rw [ofDocument?, ofDocument?, fields?, fields?, fields]

theorem Rewritten.intact_eq {document other : Document} (rewritten : Rewritten document other) :
    document.intact = other.intact :=
  rewritten.keeps fun _ _ step => step.intact_eq

/-- A rule is read from its members, whichever of them are left out. -/
theorem ofDocument?_members (rule : RuleConfig) :
    ofDocument? (Document.ofValue (.object rule.members)) = some rule := by
  obtain ⟨id, input, output, description, usePut, enabled⟩ := rule
  cases id <;> cases input <;> cases output <;> cases description <;> rfl

theorem names_optionalMember (name : String) (held : Option String) :
    ((optionalMember name held).map Prod.fst).Sublist [name] := by
  cases held with
  | none => exact List.nil_sublist _
  | some s => exact .refl _

theorem fst_nullableMember (name : String) (held : Option String) :
    (nullableMember name held).1 = name := by
  cases held <;> rfl

/-- No name is used twice. -/
theorem distinct_members (rule : RuleConfig) : (rule.members.map Prod.fst).Nodup := by
  have all : ["id", "input", "output", "description", "usePut", "enabled"].Nodup := by decide
  refine all.sublist ?_
  have front := (names_optionalMember "id" rule.id).append (.refl ["input", "output"])
  have middle := front.append (names_optionalMember "description" rule.description)
  have whole := middle.append (.refl ["usePut", "enabled"])
  simpa [members, fst_nullableMember] using whole

theorem exact_optionalMember (name : String) (held : Option String) :
    ∀ member ∈ optionalMember name held, member.2.Exact := by
  cases held with
  | none => exact nofun
  | some s => exact List.forall_mem_singleton.mpr trivial

theorem exact_nullableMember (name : String) (held : Option String) :
    (nullableMember name held).2.Exact := by
  cases held <;> trivial

theorem exact_members (rule : RuleConfig) : (Json.object rule.members).Exact := by
  refine exactMembers_iff.mpr ?_
  simp only [members, List.forall_mem_append, List.forall_mem_cons, List.not_mem_nil, false_implies,
    implies_true, and_true]
  refine ⟨⟨⟨exact_optionalMember _ _, exact_nullableMember _ _, exact_nullableMember _ _⟩,
    exact_optionalMember _ _⟩, ?_, ?_⟩
  · trivial
  · trivial

/-- A rule is also read from its members in the order of names. -/
theorem rewritten_toJson (rule : RuleConfig) :
    Rewritten (Document.ofValue rule.toJson) (Document.ofValue (.object rule.members)) :=
  rewritten_ofMembers fieldNames rule.distinct_members

theorem exact_toJson (rule : RuleConfig) : rule.toJson.Exact :=
  exact_ofMembers rule.distinct_members rule.exact_members

end RuleConfig

/-! ### Configurations -/

namespace EngineConfig

/-- The members of a configuration in the order of its fields, and so within its rules. -/
def members (config : EngineConfig) : List (String × Json) :=
  [("usePut", .array (config.usePut.map .string)),
   ("rules", .array (config.rules.map fun rule => .object rule.members))]

/-- The text of a configuration. -/
def line (config : EngineConfig) : String := writtenMembers config.members

/-- A step within the configuration itself, or steps within its rules. -/
inductive Rewrite : List Member → List Member → Prop where
  | own {members others : List Member} (step : Json.Rewrite fieldNames members others) :
      Rewrite members others
  | rules {members : List Member} {items others : List Document}
      (each : List.Forall₂ RuleConfig.Rewritten items others) :
      Rewrite ((some "rules", .array items) :: members) ((some "rules", .array others) :: members)

/-- Documents that write one configuration in two ways. -/
def Rewritten : Document → Document → Prop := Json.Rewritten Rewrite

theorem rules_eq {items others : List Document}
    (each : List.Forall₂ RuleConfig.Rewritten items others) :
    items.mapM RuleConfig.ofDocument? = others.mapM RuleConfig.ofDocument? ∧
      Document.intactItems items = Document.intactItems others := by
  induction each with
  | nil => exact ⟨rfl, rfl⟩
  | cons first _ ih =>
    rw [List.mapM_cons, List.mapM_cons, Document.intactItems, Document.intactItems, first.read_eq,
      first.intact_eq, ih.1, ih.2]
    exact ⟨rfl, rfl⟩

/-- The rules may be rewritten wherever they stand. -/
theorem steps_rules (before after : List Member) {items others : List Document}
    (each : List.Forall₂ RuleConfig.Rewritten items others) :
    Relation.EqvGen Rewrite (before ++ (some "rules", .array items) :: after)
      (before ++ (some "rules", .array others) :: after) := by
  have front (items : List Document) : Relation.EqvGen Rewrite
      (before ++ (some "rules", .array items) :: after)
      ((some "rules", .array items) :: (before ++ after)) :=
    .rel _ _ (.own (.reorder List.perm_middle))
  exact ((front items).trans _ _ _ (.rel _ _ (.rules each))).trans _ _ _ ((front others).symm _ _)

/-- What is read from a configuration, field by field. -/
theorem ofDocument?_object (members : List Member) : ofDocument? (.object members) =
    if readable members then
      match fieldOf? ["usePut", "use_put"] members, fieldOf? ["rules"] members with
      | some usePut, some rules => ofFields? [usePut, rules]
      | _, _ => none
    else none := by
  rw [ofDocument?, fields?, fieldsOfMembers?]
  split
  · cases first : fieldOf? ["usePut", "use_put"] members <;>
      cases second : fieldOf? ["rules"] members <;>
        simp [fieldNames, first, second]
  · rfl

theorem Rewritten.read_eq {document other : Document} (rewritten : Rewritten document other) :
    ofDocument? document = ofDocument? other := by
  refine rewritten.keeps fun members others step => ?_
  cases step with
  | own step =>
    have fields := step.fields_eq (by decide)
    rw [ofDocument?, ofDocument?, fields?, fields?, fields]
  | rules each =>
    rename_i members items others
    obtain ⟨read, intact⟩ := rules_eq each
    have whole : readable ((some "rules", .array items) :: members) =
        readable ((some "rules", .array others) :: members) := by
      simp [readable, Document.intact, intact]
    have held (items : List Document) :=
      fieldOf?_cons (List.mem_singleton.mpr rfl : "rules" ∈ ["rules"]) (.array items) members
    have skipped (items : List Document) :=
      fieldOf?_skip (by decide : "rules" ∉ ["usePut", "use_put"]) (.array items) members
    have same (usePut : Option Document) : ofFields? [usePut, some (.array items)] =
        ofFields? [usePut, some (.array others)] := by
      simp only [ofFields?, Document.orDefault?, Document.list?, read]
    rw [ofDocument?_object, ofDocument?_object, whole, skipped, skipped, held, held]
    -- If there are other rules too, neither document is read.
    cases fieldOf? ["usePut", "use_put"] members with
    | none => rfl
    | some usePut =>
      cases fieldOf? ["rules"] members with
      | none => rfl
      | some other =>
        cases other with
        | none => simp only [same]
        | some rules => rfl

/-- A configuration is read from its members. -/
theorem ofDocument?_members (config : EngineConfig) :
    ofDocument? (Document.ofValue (.object config.members)) = some config := by
  have prefixes : (config.usePut.map fun s => Document.ofValue (.string s)).mapM Document.string? =
      some config.usePut := mapM_map_some fun _ _ => rfl
  have rules : (config.rules.map fun rule => Document.ofValue (.object rule.members)).mapM
      RuleConfig.ofDocument? = some config.rules :=
    mapM_map_some fun rule _ => rule.ofDocument?_members
  have first : fieldOf? ["usePut", "use_put"] (Document.ofMembers config.members) =
      some (some (.array (config.usePut.map fun s => Document.ofValue (.string s)))) := by
    simp only [members, Document.ofMembers, Document.ofValue, ofItems_eq, List.map_map]
    rfl
  have second : fieldOf? ["rules"] (Document.ofMembers config.members) =
      some (some (.array (config.rules.map fun rule => Document.ofValue (.object rule.members)))) := by
    simp only [members, Document.ofMembers, Document.ofValue, ofItems_eq, List.map_map]
    rfl
  rw [Document.ofValue, ofDocument?_object, readable_ofMembers, if_pos rfl, first, second]
  simp only [ofFields?, Document.orDefault?, Document.list?, prefixes, rules]

theorem exact_texts (texts : List String) : ExactItems (texts.map .string) :=
  exactItems_of_forall (List.forall_mem_map.mpr fun _ _ => trivial)

theorem exact_members (config : EngineConfig) : (Json.object config.members).Exact := by
  have rules : ExactItems (config.rules.map fun rule => .object rule.members) :=
    exactItems_of_forall (List.forall_mem_map.mpr fun rule _ => rule.exact_members)
  exact ⟨exact_texts _, rules, trivial⟩

theorem distinct_toMembers (config : EngineConfig) : (config.toMembers.map Prod.fst).Nodup :=
  (by decide : ["usePut", "rules"].Nodup)

theorem exact_toJson (config : EngineConfig) : config.toJson.Exact := by
  have rules : ExactItems (config.rules.map RuleConfig.toJson) :=
    exactItems_of_forall (List.forall_mem_map.mpr fun rule _ => rule.exact_toJson)
  exact exact_ofMembers config.distinct_toMembers ⟨exact_texts _, rules, trivial⟩

/-- A configuration is also read from its members, and its rules' members, in the order of names. -/
theorem rewritten_toJson (config : EngineConfig) :
    Rewritten (Document.ofValue config.toJson) (Document.ofValue (.object config.members)) := by
  obtain ⟨sorted, shape, perm⟩ := exists_sorted config.distinct_toMembers
  have value : config.toJson = .object sorted := shape
  have each : List.Forall₂ RuleConfig.Rewritten
      (Document.ofItems (config.rules.map RuleConfig.toJson))
      (Document.ofItems (config.rules.map fun rule => .object rule.members)) := by
    rw [ofItems_eq, ofItems_eq, List.map_map, List.map_map, List.forall₂_map_left_iff,
      List.forall₂_map_right_iff, List.forall₂_same]
    exact fun rule _ => rule.rewritten_toJson
  have gathered : (Document.ofMembers sorted).Perm (Document.ofMembers config.toMembers) := by
    rw [ofMembers_eq, ofMembers_eq]
    exact perm.map _
  rw [value, Document.ofValue, Document.ofValue]
  refine .object ((Relation.EqvGen.rel _ _ (.own (.reorder gathered))).trans _ _ _ ?_)
  exact steps_rules [(some "usePut", .array (Document.ofItems (config.usePut.map .string)))] [] each

end EngineConfig

/-! ### Responses -/

namespace PutResponse

/-- Documents that write one response in two ways. -/
def Rewritten : Document → Document → Prop := Json.Rewritten (Rewrite fieldNames)

theorem Rewritten.read_eq {document other : Document} (rewritten : Rewritten document other) :
    ofDocument? document = ofDocument? other := by
  refine rewritten.keeps fun members others step => ?_
  have fields := step.fields_eq (by decide)
  rw [ofDocument?, ofDocument?, fields?, fields?, fields]

/-- A response is read from its members. -/
theorem ofDocument?_members {response : PutResponse} (status : response.status ≤ maxStatus) :
    ofDocument? (Document.ofValue (.object response.members)) = some response := by
  obtain ⟨code, message⟩ := response
  have read : Document.natUpTo? maxStatus (.number (some (.int code))) = some code := by
    rw [Document.natUpTo?, if_pos ⟨Int.natCast_nonneg code, Int.ofNat_le.mpr status⟩]
    rfl
  have fields : fields? fieldNames (Document.ofValue (.object (members ⟨code, message⟩))) =
      some [some (.string (some "COMPLETED")), some (.number (some (.int code))),
        message.map fun s => .string (some s)] := by
    cases message <;> rfl
  rw [ofDocument?, fields, Option.bind_some]
  cases message <;>
    simp only [ofFields?, Document.required?, completedState?, read, Option.map_none,
      Option.map_some, Document.orDefault?, Document.optional?, Document.string?]

theorem exact_members {response : PutResponse} (status : response.status ≤ maxStatus) :
    (Json.object response.members).Exact := by
  have range : InRange response.status := by
    unfold maxStatus at status
    constructor
    · simp only [signedLimit]
      omega
    · simp only [maxWord]
      omega
  refine exactMembers_iff.mpr ?_
  rw [members, List.forall_mem_append]
  exact ⟨List.forall_mem_cons.mpr ⟨trivial, List.forall_mem_singleton.mpr range⟩,
    RuleConfig.exact_optionalMember _ _⟩

theorem distinct_members (response : PutResponse) : (response.members.map Prod.fst).Nodup := by
  have all : ["state", "statusCode", "message"].Nodup := by decide
  refine all.sublist ?_
  rw [members, List.map_append]
  exact (List.Sublist.refl ["state", "statusCode"]).append
    (RuleConfig.names_optionalMember "message" response.message)

end PutResponse

/--
The text of a configuration or a response, in the order of the fields or of their names, is read
back as the same. Texts of documents that write a configuration, with its rules, or a response in
two ways are read as the same, or neither of them is.
-/
theorem written_forms_are_read :
    (∀ config : EngineConfig,
      readText? EngineConfig.ofDocument? config.line = some config ∧
        readText? EngineConfig.ofDocument? config.toJson.text = some config) ∧
    (∀ response : PutResponse, response.status ≤ PutResponse.maxStatus →
      readText? PutResponse.ofDocument? response.line = some response ∧
        readText? PutResponse.ofDocument? response.toJson.text = some response) ∧
    ∀ (text other : String) (document rewritten : Document) (more : Bool),
      Document.ofText text.toList = (document, more) →
      Document.ofText other.toList = (rewritten, more) →
        (EngineConfig.Rewritten document rewritten →
          readText? EngineConfig.ofDocument? text = readText? EngineConfig.ofDocument? other) ∧
        (PutResponse.Rewritten document rewritten →
          readText? PutResponse.ofDocument? text = readText? PutResponse.ofDocument? other) := by
  refine ⟨fun config => ⟨?_, ?_⟩, fun response status => ⟨?_, ?_⟩, ?_⟩
  · rw [EngineConfig.line, writtenMembers_eq, readText?_text _ config.exact_members]
    exact config.ofDocument?_members
  · rw [readText?_text _ config.exact_toJson, config.rewritten_toJson.read_eq]
    exact config.ofDocument?_members
  · rw [PutResponse.line, writtenMembers_eq, readText?_text _ (PutResponse.exact_members status)]
    exact PutResponse.ofDocument?_members status
  · have sorted := rewritten_ofMembers PutResponse.fieldNames response.distinct_members
    have exact_sorted := exact_ofMembers response.distinct_members (PutResponse.exact_members status)
    rw [PutResponse.toJson, readText?_text _ exact_sorted, PutResponse.Rewritten.read_eq sorted]
    exact PutResponse.ofDocument?_members status
  · intro text other document rewritten more first second
    rw [readText?, readText?, readText?, readText?, first, second]
    refine ⟨fun same => ?_, fun same => ?_⟩
    · cases more with
      | true => rfl
      | false => exact same.read_eq
    · cases more with
      | true => rfl
      | false => exact same.read_eq

/-- A text with another order, two members that are no fields, and the other name in both places. -/
theorem other_names_are_read :
    200 ≤ PutResponse.maxStatus ∧
      readText? PutResponse.ofDocument? PutResponse.completed.line = some .completed ∧
      readText? EngineConfig.ofDocument? (Json.text (.object [("note", .null),
        ("rules", .array [.object [("x", .int 1), ("use_put", .bool true), ("output", .string "o"),
          ("input", .string "p"), ("enabled", .bool true)]]),
        ("use_put", .array [.string "a"])])) =
      some ⟨["a"], [⟨none, some "p", some "o", none, true, true⟩]⟩ := by
  obtain ⟨configs, responses, others⟩ := written_forms_are_read
  have status : 200 ≤ PutResponse.maxStatus := by decide
  refine ⟨status, (responses .completed status).1, ?_⟩
  -- The rule first: one member goes, one is renamed, and three change their places.
  have rule : RuleConfig.Rewritten
      (Document.ofValue (.object [("x", .int 1), ("use_put", .bool true), ("output", .string "o"),
        ("input", .string "p"), ("enabled", .bool true)]))
      (Document.ofValue (.object
        (RuleConfig.members ⟨none, some "p", some "o", none, true, true⟩))) := by
    have gone (rest : List Member) : Relation.EqvGen (Rewrite RuleConfig.fieldNames)
        ((some "x", Document.ofValue (.int 1)) :: rest) rest :=
      .symm _ _ (.rel _ _ (.unknown (by decide) rfl))
    have renamed (value : Document) (rest : List Member) :
        Relation.EqvGen (Rewrite RuleConfig.fieldNames) ((some "use_put", value) :: rest)
          ((some "usePut", value) :: rest) :=
      .rel _ _ (.rename (by decide : ["usePut", "use_put"] ∈ RuleConfig.fieldNames) (by decide)
        (by decide))
    have placed (a b c d : Member) :
        Relation.EqvGen (Rewrite RuleConfig.fieldNames) [a, b, c, d] [c, b, a, d] :=
      .rel _ _ (.reorder ((List.reverse_perm [c, b, a]).append_right [d]))
    exact .object (((gone _).trans _ _ _ (renamed _ _)).trans _ _ _ (placed _ _ _ _))
  have gone (rest : List Member) :
      Relation.EqvGen EngineConfig.Rewrite ((some "note", .null) :: rest) rest :=
    .symm _ _ (.rel _ _ (.own (.unknown (by decide) rfl)))
  have swapped (a b : Member) : Relation.EqvGen EngineConfig.Rewrite [a, b] [b, a] :=
    .rel _ _ (.own (.reorder (.swap _ _ _)))
  have renamed (value : Document) (rest : List Member) :
      Relation.EqvGen EngineConfig.Rewrite ((some "use_put", value) :: rest)
        ((some "usePut", value) :: rest) :=
    .rel _ _ (.own (.rename (by decide : ["usePut", "use_put"] ∈ EngineConfig.fieldNames)
      (by decide) (by decide)))
  have same : EngineConfig.Rewritten
      (Document.ofValue (.object [("note", .null),
        ("rules", .array [.object [("x", .int 1), ("use_put", .bool true), ("output", .string "o"),
          ("input", .string "p"), ("enabled", .bool true)]]),
        ("use_put", .array [.string "a"])]))
      (Document.ofValue (.object (EngineConfig.members
        ⟨["a"], [⟨none, some "p", some "o", none, true, true⟩]⟩))) :=
    .object ((((gone _).trans _ _ _ (swapped _ _)).trans _ _ _ (renamed _ _)).trans _ _ _
      (EngineConfig.steps_rules [_] [] (.cons rule .nil)))
  have exact_text : (Json.object [("note", .null),
      ("rules", .array [.object [("x", .int 1), ("use_put", .bool true), ("output", .string "o"),
        ("input", .string "p"), ("enabled", .bool true)]]),
      ("use_put", .array [.string "a"])]).Exact :=
    ⟨trivial, ⟨⟨(by decide : InRange 1), trivial, trivial, trivial, trivial, trivial⟩, trivial⟩,
      ⟨trivial, trivial⟩, trivial⟩
  have written := ofText_text (EngineConfig.exact_members
    ⟨["a"], [⟨none, some "p", some "o", none, true, true⟩]⟩)
  rw [(others _ _ _ _ false (ofText_text exact_text) written).1 same, ← writtenMembers_eq]
  exact (configs _).1

end Switchboard
