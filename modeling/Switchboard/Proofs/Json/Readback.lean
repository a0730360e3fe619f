import Switchboard.Json.Fields
import Switchboard.Proofs.Number.Decimal

/-!
# JSON text that is read back

What is written for a value is read back as the document that denotes it, and
nothing is left over. Numbers with a fraction are left out: what is written for
one may be read as its neighbour. Strings hold whatever they like. The text is
cut into tokens first, one lemma for what one token takes of it; the tokens
are then put together again, with fuel that is counted by the tokens.
-/
namespace Switchboard.Json

/-! ### Values -/

mutual

/-- A value all of whose numbers are whole and in range. -/
def Exact : Json → Prop
  | .int n => InRange n
  | .float _ => False
  | .array items => ExactItems items
  | .object members => ExactMembers members
  | _ => True

def ExactItems : List Json → Prop
  | [] => True
  | item :: rest => item.Exact ∧ ExactItems rest

def ExactMembers : List (String × Json) → Prop
  | [] => True
  | (_, value) :: rest => value.Exact ∧ ExactMembers rest

end

theorem exactItems_of_forall {items : List Json} (all : ∀ item ∈ items, item.Exact) :
    ExactItems items := by
  induction items with
  | nil => trivial
  | cons item rest ih =>
    obtain ⟨here, all⟩ := List.forall_mem_cons.mp all
    exact ⟨here, ih all⟩

theorem exactMembers_iff {members : List (String × Json)} :
    ExactMembers members ↔ ∀ member ∈ members, member.2.Exact := by
  induction members with
  | nil => exact iff_of_true trivial nofun
  | cons member rest ih =>
    rw [List.forall_mem_cons, ← ih]
    rfl

/-! ### Strings -/

theorem hexDigit?_hexDigit : ∀ n < 16, hexDigit? (hexDigit n) = some n := by
  decide

/-- A control character is spelled by its number. -/
theorem unitOfHex?_hexDigit {c : Char} (low : c.toNat < 0x20) :
    unitOfHex? '0' '0' (hexDigit (c.toNat / 16)) (hexDigit (c.toNat % 16)) = some (.char c) := by
  have zero : hexDigit? '0' = some 0 := rfl
  have first := hexDigit?_hexDigit (c.toNat / 16) (by omega)
  have second := hexDigit?_hexDigit (c.toNat % 16) (by omega)
  have code : 4096 * 0 + 256 * 0 + 16 * (c.toNat / 16) + c.toNat % 16 = c.toNat := by omega
  rw [unitOfHex?, zero, first, second]
  dsimp only
  rw [code, if_neg (by omega), Char.ofNat_toNat]

theorem stringUnits_plain {c : Char} (no_quote : c ≠ '"') (no_backslash : c ≠ '\\')
    (printable : ¬c.toNat < 0x20) (rest : List Char) :
    stringUnits (c :: rest) =
      (stringUnits rest).map fun (units, after) => (.char c :: units, after) := by
  rw [stringUnits.eq_def]
  split
  · rename_i none_left
    exact nomatch none_left
  · rename_i quoted
    exact absurd (List.cons.inj quoted).1 no_quote
  · rename_i escaped
    exact absurd (List.cons.inj escaped).1 no_backslash
  · rename_i escaped
    exact absurd (List.cons.inj escaped).1 no_backslash
  · rename_i same
    obtain ⟨rfl, rfl⟩ := List.cons.inj same
    rw [if_neg (by simp [printable, no_backslash])]

/-- What is written for a character is read as this character. -/
theorem stringUnits_escape (c : Char) (rest : List Char) :
    stringUnits (escape c ++ rest) =
      (stringUnits rest).map fun (units, after) => (.char c :: units, after) := by
  have of_code {code : Nat} (same : c.toNat = code) : c = Char.ofNat code := by
    rw [← same, Char.ofNat_toNat]
  unfold escape
  split
  · subst_vars
    rfl
  split
  · subst_vars
    rfl
  split
  · subst_vars
    rfl
  split
  · subst_vars
    rfl
  split
  · subst_vars
    rfl
  split
  · rename_i code
    rw [of_code code]
    rfl
  split
  · rename_i code
    rw [of_code code]
    rfl
  split
  · rename_i low
    show stringUnits ('\\' :: 'u' :: '0' :: '0' :: _ :: _ :: rest) = _
    rw [stringUnits, unitOfHex?_hexDigit low]
  · rename_i no_quote no_backslash _ _ _ _ _ printable
    exact stringUnits_plain no_quote no_backslash printable rest

theorem stringUnits_escaped (text rest : List Char) :
    stringUnits (text.flatMap escape ++ '"' :: rest) = some (text.map .char, rest) := by
  induction text with
  | nil => rfl
  | cons c text ih =>
    rw [List.flatMap_cons, List.append_assoc, stringUnits_escape, ih]
    rfl

theorem spell?_chars (text : List Char) : spell? (text.map .char) = some text := by
  induction text with
  | nil => rfl
  | cons c text ih =>
    rw [List.map_cons, spell?, ih]
    rfl

/-- A quoted text is one token. -/
theorem takeToken_quote (text : String) (rest : List Char) :
    takeToken (quote text ++ rest) = (.string (some text), rest) := by
  have shape : quote text ++ rest = '"' :: (text.toList.flatMap escape ++ '"' :: rest) := by
    rw [quote, List.cons_append, List.append_assoc]
    rfl
  rw [shape, takeToken, stringUnits_escaped]
  dsimp only
  rw [spell?_chars, Option.map_some, String.ofList_toList]

/-! ### Numbers -/

theorem takeToken_digit {c : Char} (digit : c.isDigit = true) (rest : List Char) :
    takeToken (c :: rest) =
      match takeNumber false (c :: rest) with
      | some (value, rest) => (.number value, rest)
      | none => (.fault, []) := by
  have other {d : Char} (no_digit : d.isDigit = false) : c ≠ d := by
    rintro rfl
    rw [digit] at no_digit
    exact nomatch no_digit
  rw [takeToken.eq_def]
  split
  all_goals try
    rename_i same
    exact absurd (List.cons.inj same).1 (other rfl)
  rfl

theorem isSpace_digit {c : Char} (digit : c.isDigit = true) : isSpace c = false := by
  have bounds := Char.isDigit_iff_toNat.mp digit
  have low : 48 ≤ c.toNat := bounds.1
  have other {d : Char} (below : d.toNat < 48) : (c == d) = false := by
    refine beq_eq_false_iff_ne.mpr ?_
    rintro rfl
    omega
  rw [isSpace, other (by decide), other (by decide), other (by decide), other (by decide)]
  rfl

/-- A whole number is one token. -/
theorem takeToken_intText {n : Int} (range : InRange n) {rest : List Char}
    (ends : NumeralEnds rest) :
    takeToken (intText n ++ rest) = (.number (some (.int n)), rest) := by
  have takes := takeNumber_intText range ends
  unfold intText
  by_cases negative : n < 0
  · rw [decide_eq_true negative] at takes
    rw [if_pos negative, List.cons_append, takeToken, takes]
  · rw [decide_eq_false negative] at takes
    rw [if_neg negative]
    obtain ⟨c, digits, first⟩ := List.exists_cons_of_ne_nil (Nat.toDigits_ne_nil (b := 10) (n := n.natAbs))
    have digit : c.isDigit = true := isDigit_toDigits (n := n.natAbs) (by rw [first]; simp)
    rw [first] at takes ⊢
    rw [List.cons_append, takeToken_digit digit, ← List.cons_append, takes]

/-! ### Tokens -/

mutual

/-- The tokens of which the text of a value consists. -/
def tokensOf : Json → List Token
  | .null => [.null]
  | .bool b => [.bool b]
  | .int n => [.number (some (.int n))]
  | .float x => [.number (some (.float x))]
  | .string s => [.string (some s)]
  | .array items => .openArray :: (itemTokens items ++ [.closeArray])
  | .object members => .openObject :: (memberTokens members ++ [.closeObject])

def itemTokens : List Json → List Token
  | [] => []
  | [item] => tokensOf item
  | item :: next :: rest => tokensOf item ++ .comma :: itemTokens (next :: rest)

def memberTokens : List (String × Json) → List Token
  | [] => []
  | [(name, value)] => .string (some name) :: .colon :: tokensOf value
  | (name, value) :: next :: rest =>
    .string (some name) :: .colon :: (tokensOf value ++ .comma :: memberTokens (next :: rest))

end

/-- A text is cut into some tokens when it stands before another text. -/
def CutsInto (text : List Char) (tokens : List Token) (rest : List Char) : Prop :=
  ∀ fuel, (text ++ rest).length < fuel →
    ∃ left, rest.length < left ∧ tokensFrom fuel (text ++ rest) = tokens ++ tokensFrom left rest

theorem CutsInto.one {c : Char} {text rest : List Char} {token : Token}
    (solid : isSpace c = false) (takes : takeToken (c :: text ++ rest) = (token, rest))
    (sound : token ≠ .fault) : CutsInto (c :: text) [token] rest := by
  intro fuel enough
  obtain ⟨fuel, rfl⟩ : ∃ less, fuel = less + 1 := ⟨fuel - 1, by omega⟩
  refine ⟨fuel, ?_, ?_⟩
  · simp only [List.cons_append, List.length_cons, List.length_append] at enough
    omega
  · have begins : (c :: text ++ rest).dropWhile isSpace = c :: text ++ rest := by
      rw [List.cons_append, List.dropWhile_cons_of_neg (by simp [solid])]
    rw [tokensFrom, begins]
    dsimp only [List.cons_append] at takes ⊢
    rw [takes]
    split
    · rename_i fault
      exact absurd (Prod.mk.inj fault).1 sound
    · rename_i same
      obtain ⟨rfl, rfl⟩ := Prod.mk.inj same
      rfl

theorem CutsInto.append {text more rest : List Char} {tokens others : List Token}
    (first : CutsInto text tokens (more ++ rest)) (second : CutsInto more others rest) :
    CutsInto (text ++ more) (tokens ++ others) rest := by
  intro fuel enough
  rw [List.append_assoc] at enough ⊢
  obtain ⟨left, enough, cut⟩ := first fuel enough
  obtain ⟨left', enough, cut'⟩ := second left enough
  refine ⟨left', enough, ?_⟩
  rw [cut, cut', List.append_assoc]

theorem cutsInto_mark {c : Char} {token : Token} (rest : List Char)
    (solid : isSpace c = false) (takes : takeToken (c :: rest) = (token, rest))
    (sound : token ≠ .fault) : CutsInto [c] [token] rest :=
  .one solid takes sound

theorem cutsInto_quote (text : String) (rest : List Char) :
    CutsInto (quote text) [.string (some text)] rest :=
  .one rfl (takeToken_quote text rest) nofun

theorem cutsInto_int {n : Int} (range : InRange n) {rest : List Char} (ends : NumeralEnds rest) :
    CutsInto (intText n) [.number (some (.int n))] rest := by
  have takes := takeToken_intText range ends
  obtain ⟨c, text, first, solid⟩ : ∃ c text, intText n = c :: text ∧ isSpace c = false := by
    unfold intText
    split
    · exact ⟨_, _, rfl, rfl⟩
    · obtain ⟨c, digits, first⟩ :=
        List.exists_cons_of_ne_nil (Nat.toDigits_ne_nil (b := 10) (n := n.natAbs))
      exact ⟨c, digits, first, isSpace_digit (isDigit_toDigits (by rw [first]; simp))⟩
  rw [first] at takes ⊢
  exact .one solid takes nofun

theorem numeralEnds_mark {c : Char} (other : c.isDigit = false ∧ c ≠ '.' ∧ c ≠ 'e' ∧ c ≠ 'E')
    (rest : List Char) : NumeralEnds (c :: rest) := by
  rintro _ ⟨⟩
  exact other

mutual

/-- The text of a value is cut into the tokens of which it consists. -/
theorem cutsInto_write : ∀ (value : Json), value.Exact → ∀ {rest : List Char}, NumeralEnds rest →
    CutsInto value.write value.tokensOf rest
  | .null, _, rest, _ => .one rfl rfl nofun
  | .bool true, _, rest, _ => .one rfl rfl nofun
  | .bool false, _, rest, _ => .one rfl rfl nofun
  | .int _, range, rest, ends => cutsInto_int range ends
  | .float _, no_float, _, _ => no_float.elim
  | .string s, _, rest, _ => cutsInto_quote s rest
  | .array items, exact_items, rest, _ => by
    rw [write, tokensOf]
    have opens : CutsInto ['['] [.openArray] (writeItems items ++ [']'] ++ rest) :=
      cutsInto_mark _ rfl rfl nofun
    exact opens.append (cutsInto_writeItems items exact_items rest)
  | .object members, exact_members, rest, _ => by
    rw [write, tokensOf]
    have opens : CutsInto ['\x7b'] [.openObject] (writeMembers members ++ ['\x7d'] ++ rest) :=
      cutsInto_mark _ rfl rfl nofun
    exact opens.append (cutsInto_writeMembers members exact_members rest)

theorem cutsInto_writeItems : ∀ (items : List Json), ExactItems items → ∀ (rest : List Char),
    CutsInto (writeItems items ++ [']']) (itemTokens items ++ [.closeArray]) rest
  | [], _, rest => cutsInto_mark rest rfl rfl nofun
  | [item], ⟨exact_item, _⟩, rest => by
    have closes : CutsInto [']'] [.closeArray] rest := cutsInto_mark rest rfl rfl nofun
    have ends : NumeralEnds ([']'] ++ rest) := numeralEnds_mark (by decide) rest
    exact (cutsInto_write item exact_item ends).append closes
  | item :: next :: more, ⟨exact_item, exact_items⟩, rest => by
    have later := cutsInto_writeItems (next :: more) exact_items rest
    have parts : CutsInto [','] [.comma] (writeItems (next :: more) ++ [']'] ++ rest) :=
      cutsInto_mark _ rfl rfl nofun
    have ends : NumeralEnds ([','] ++ (writeItems (next :: more) ++ [']']) ++ rest) :=
      numeralEnds_mark (by decide) _
    have whole := (cutsInto_write item exact_item ends).append (parts.append later)
    rw [writeItems, itemTokens, List.append_assoc, List.append_assoc]
    exact whole

theorem cutsInto_writeMembers : ∀ (members : List (String × Json)), ExactMembers members →
    ∀ (rest : List Char),
    CutsInto (writeMembers members ++ ['\x7d']) (memberTokens members ++ [.closeObject]) rest
  | [], _, rest => cutsInto_mark rest rfl rfl nofun
  | [(name, value)], ⟨exact_value, _⟩, rest => by
    have closes : CutsInto ['\x7d'] [.closeObject] rest := cutsInto_mark rest rfl rfl nofun
    have ends : NumeralEnds (['\x7d'] ++ rest) := numeralEnds_mark (by decide) rest
    have held := (cutsInto_write value exact_value ends).append closes
    have parts : CutsInto [':'] [.colon] (value.write ++ ['\x7d'] ++ rest) :=
      cutsInto_mark _ rfl rfl nofun
    have whole := (cutsInto_quote name _).append (parts.append held)
    rw [writeMembers, memberTokens, List.append_assoc]
    exact whole
  | (name, value) :: next :: more, ⟨exact_value, exact_members⟩, rest => by
    have later := cutsInto_writeMembers (next :: more) exact_members rest
    have comma : CutsInto [','] [.comma] (writeMembers (next :: more) ++ ['\x7d'] ++ rest) :=
      cutsInto_mark _ rfl rfl nofun
    have ends : NumeralEnds ([','] ++ (writeMembers (next :: more) ++ ['\x7d']) ++ rest) :=
      numeralEnds_mark (by decide) _
    have held := (cutsInto_write value exact_value ends).append (comma.append later)
    have parts : CutsInto [':'] [.colon]
        (value.write ++ ([','] ++ (writeMembers (next :: more) ++ ['\x7d'])) ++ rest) :=
      cutsInto_mark _ rfl rfl nofun
    have whole := (cutsInto_quote name _).append (parts.append held)
    simpa only [writeMembers, memberTokens, List.append_assoc, List.cons_append, List.nil_append]
      using whole

end

/-- All tokens of a text that has been written. -/
theorem tokens_write {value : Json} (exact_value : value.Exact) :
    tokens value.write = value.tokensOf := by
  have enough : (value.write ++ []).length < value.write.length + 1 := by
    rw [List.append_nil]
    exact Nat.lt_succ_self _
  have ends : NumeralEnds [] := nofun
  obtain ⟨left, some_left, cut⟩ := cutsInto_write value exact_value ends _ enough
  obtain ⟨left, rfl⟩ : ∃ less, left = less + 1 := ⟨left - 1, by omega⟩
  rw [List.append_nil] at cut
  rw [tokens, cut]
  exact List.append_nil _

/-! ### Documents -/

theorem tokensOf_cons (value : Json) :
    ∃ token more, value.tokensOf = token :: more ∧ token ≠ .closeArray := by
  cases value <;> exact ⟨_, _, rfl, nofun⟩

theorem tokensOf_pos (value : Json) : 0 < value.tokensOf.length := by
  obtain ⟨token, more, shape, _⟩ := tokensOf_cons value
  rw [shape]
  exact Nat.succ_pos _

theorem itemTokens_cons (item : Json) (rest : List Json) :
    ∃ token more, itemTokens (item :: rest) = token :: more ∧ token ≠ .closeArray := by
  obtain ⟨token, more, shape, other⟩ := tokensOf_cons item
  cases rest with
  | nil => exact ⟨token, more, shape, other⟩
  | cons next rest =>
    refine ⟨token, more ++ .comma :: itemTokens (next :: rest), ?_, other⟩
    rw [itemTokens, shape, List.cons_append]

theorem take_array {fuel : Nat} {token : Token} (other : token ≠ .closeArray)
    (more : List Token) : Document.take (fuel + 1) (.openArray :: token :: more) =
      (.array (Document.takeItems fuel (token :: more)).1,
        (Document.takeItems fuel (token :: more)).2) := by
  rw [Document.take]
  rintro rest ⟨⟩
  exact other rfl

mutual

/-- The tokens of a value are put together again, whatever follows them. -/
theorem take_tokensOf : ∀ (value : Json) (fuel : Nat) (rest : List Token),
    2 * value.tokensOf.length ≤ fuel →
    Document.take fuel (value.tokensOf ++ rest) = (Document.ofValue value, rest)
  | value, 0, _, enough => absurd (tokensOf_pos value) (by omega)
  | .null, _ + 1, _, _ => rfl
  | .bool _, _ + 1, _, _ => rfl
  | .int _, _ + 1, _, _ => rfl
  | .float _, _ + 1, _, _ => rfl
  | .string _, _ + 1, _, _ => rfl
  | .array [], _ + 1, _, _ => rfl
  | .object [], _ + 1, _, _ => rfl
  | .array (item :: items), fuel + 1, rest, enough => by
    rw [tokensOf, List.length_cons, List.length_append, List.length_singleton] at enough
    have taken := take_itemTokens (item :: items) fuel rest nofun (by omega)
    obtain ⟨token, more, shape, other⟩ := itemTokens_cons item items
    rw [tokensOf, List.cons_append, List.append_assoc, List.singleton_append]
    rw [shape, List.cons_append] at taken ⊢
    rw [take_array other, taken]
    rfl
  | .object (member :: members), fuel + 1, rest, enough => by
    rw [tokensOf, List.length_cons, List.length_append, List.length_singleton] at enough
    have taken := take_memberTokens (member :: members) fuel rest nofun (by omega)
    rw [tokensOf, List.cons_append, List.append_assoc, List.singleton_append]
    have begins : ∃ name more, memberTokens (member :: members) = .string name :: more := by
      cases members <;> exact ⟨_, _, rfl⟩
    obtain ⟨name, more, shape⟩ := begins
    rw [shape, List.cons_append] at taken ⊢
    rw [Document.take, taken]
    · rfl
    · exact nofun

theorem take_itemTokens : ∀ (items : List Json) (fuel : Nat) (rest : List Token), items ≠ [] →
    2 * (itemTokens items).length + 1 ≤ fuel →
    Document.takeItems fuel (itemTokens items ++ .closeArray :: rest) =
      (Document.ofItems items, rest)
  | [], _, _, some_item, _ => absurd rfl some_item
  | [item], fuel + 1, rest, _, enough => by
    have taken := take_tokensOf item fuel (.closeArray :: rest) (by
      rw [itemTokens] at enough
      omega)
    rw [itemTokens, Document.takeItems, taken]
    rfl
  | item :: next :: more, fuel + 1, rest, _, enough => by
    rw [itemTokens, List.length_append, List.length_cons] at enough
    have later := take_itemTokens (next :: more) fuel rest nofun (by omega)
    have taken := take_tokensOf item fuel
      (.comma :: (itemTokens (next :: more) ++ .closeArray :: rest)) (by omega)
    rw [itemTokens, List.append_assoc, List.cons_append, Document.takeItems, taken]
    dsimp only
    rw [later]
    rfl

theorem take_memberTokens : ∀ (members : List (String × Json)) (fuel : Nat) (rest : List Token),
    members ≠ [] → 2 * (memberTokens members).length + 1 ≤ fuel →
    Document.takeMembers fuel (memberTokens members ++ .closeObject :: rest) =
      (Document.ofMembers members, rest)
  | [], _, _, some_member, _ => absurd rfl some_member
  | [(name, value)], fuel + 1, rest, _, enough => by
    have taken := take_tokensOf value fuel (.closeObject :: rest) (by
      rw [memberTokens, List.length_cons, List.length_cons] at enough
      omega)
    rw [memberTokens, List.cons_append, List.cons_append, Document.takeMembers, taken]
    rfl
  | (name, value) :: next :: more, fuel + 1, rest, _, enough => by
    rw [memberTokens, List.length_cons, List.length_cons, List.length_append,
      List.length_cons] at enough
    have later := take_memberTokens (next :: more) fuel rest nofun (by omega)
    have taken := take_tokensOf value fuel
      (.comma :: (memberTokens (next :: more) ++ .closeObject :: rest)) (by omega)
    rw [memberTokens, List.cons_append, List.cons_append, List.append_assoc, List.cons_append,
      Document.takeMembers, taken]
    dsimp only
    rw [later]
    rfl

end

/-- What is written for a value is read back as the document that denotes it. -/
theorem ofText_write {value : Json} (exact_value : value.Exact) :
    Document.ofText value.write = (Document.ofValue value, false) := by
  have taken := take_tokensOf value (2 * value.tokensOf.length + 2) [] (by omega)
  rw [List.append_nil] at taken
  rw [Document.ofText, tokens_write exact_value, Document.ofTokens, taken]
  rfl

theorem ofText_text {value : Json} (exact_value : value.Exact) :
    Document.ofText value.text.toList = (Document.ofValue value, false) := by
  rw [text, String.toList_ofList, ofText_write exact_value]

/-- So a reader of documents reads from the text of a value what it reads from the value. -/
theorem readText?_text {α : Type u} (read : Document → Option α) {value : Json}
    (exact_value : value.Exact) : readText? read value.text = read (Document.ofValue value) := by
  rw [readText?, ofText_text exact_value]

/-- Members that are written in a given order are an object's. -/
theorem writtenMembers_eq (members : List (String × Json)) :
    writtenMembers members = (Json.object members).text := by
  rw [writtenMembers, text, write]

end Switchboard.Json
