import Switchboard.Proofs.Expr.Skipping

/-!
# Between a text and its tokens

An expression is a text, and its tokens are found by cutting it. Every text is
a way of writing down tokens, one list of them only, so that nothing in it is
lost but white space. The Polish form is a text once more: its tokens, which
are among those of the infix text, are joined by blanks, and both evaluations
cut it again. As a token has no white space in it and is not empty, it comes
out of this as it went in. Hence it does not matter for the Polish form, the
errors and the value whether one thinks of texts or of tokens.
-/
namespace Switchboard

namespace Text

/-! ## White space -/

/-- The code points with the property White_Space. -/
def whiteSpace : List Nat :=
  [0x9, 0xA, 0xB, 0xC, 0xD, 0x20, 0x85, 0xA0, 0x1680, 0x2000, 0x2001, 0x2002, 0x2003, 0x2004,
    0x2005, 0x2006, 0x2007, 0x2008, 0x2009, 0x200A, 0x2028, 0x2029, 0x202F, 0x205F, 0x3000]

def isWhiteSpace (c : Char) : Bool := whiteSpace.contains c.toNat

/-- The blanks are the characters with the property White_Space. -/
theorem isBlank_eq : isBlank = isWhiteSpace := by
  funext c
  rw [Bool.eq_iff_iff]
  simp only [isBlank, isWhiteSpace, whiteSpace, List.contains_iff_mem, List.mem_cons,
    List.not_mem_nil, Bool.or_eq_true, Bool.and_eq_true, decide_eq_true_eq, beq_iff_eq, or_false]
  constructor
  · intro blank
    omega
  · intro listed
    omega

theorem pieces_eq_splitOnP {α : Type} (cut : α → Bool) (text : List α) :
    pieces cut text = text.splitOnP cut := by
  induction text with
  | nil => rfl
  | cons c text ih =>
    rw [pieces, List.splitOnP_cons_eq_if_modifyHead, ih]
    split
    · rfl
    · cases cuts : text.splitOnP cut with
      | nil => exact absurd cuts (List.splitOnP_ne_nil cut text)
      | cons piece more => rfl

/-- Blanks are left out, and words stay as they are. -/
theorem filter_blanks {gap : List Char} (blank : ∀ c ∈ gap, isBlank c = true) :
    gap.filter (!isBlank ·) = [] :=
  List.filter_eq_nil_iff.mpr fun c member => by simp [blank c member]

theorem filter_word {word : List Char} (is_word : IsWord word) :
    word.filter (!isBlank ·) = word :=
  List.filter_eq_self.mpr fun c member => by simp [is_word.2 c member]

end Text

namespace Expr

open Text

universe u

variable {α : Type u}

/-! ## Every text is tokens written down -/

/-- The two kinds of tokens that a text can have. -/
def IsToken (token : String) : Prop := IsMark token ∨ IsPlain token

theorem IsToken.isWord {token : String} (is_token : IsToken token) : IsWord token.toList := by
  rcases is_token with mark | plain
  · exact (pad_mark mark).2
  · exact plain.1

theorem isMark_singleton {c : Char} (mark : c = '(' ∨ c = ')') : IsMark (String.singleton c) := by
  rcases mark with rfl | rfl
  · exact .inl rfl
  · exact .inr rfl

theorem IsPlain.not_isMark {token : String} (plain : IsPlain token) : ¬IsMark token := by
  rintro (rfl | rfl)
  · exact (plain.2 '(' List.mem_cons_self).1 rfl
  · exact (plain.2 ')' List.mem_cons_self).2 rfl

/-- A character in front of a plain token makes another one. -/
theorem isPlain_cons {c : Char} {token : List Char} (solid : isBlank c = false)
    (free : c ≠ '(' ∧ c ≠ ')') (later : ∀ d ∈ token, isBlank d = false ∧ d ≠ '(' ∧ d ≠ ')') :
    IsPlain (String.ofList (c :: token)) := by
  rw [IsPlain, String.toList_ofList]
  refine ⟨⟨List.cons_ne_nil c token, ?_⟩, ?_⟩
  · exact List.forall_mem_cons.mpr ⟨solid, fun d member => (later d member).1⟩
  · exact List.forall_mem_cons.mpr ⟨free, fun d member => (later d member).2⟩

namespace Spells

variable {tokens : List String} {text : List Char} {c : Char}

theorem blank_cons (blank : isBlank c = true) (spells : Spells tokens text) :
    Spells tokens (c :: text) := by
  cases spells with
  | nil gap_blank => exact .nil (List.forall_mem_cons.mpr ⟨blank, gap_blank⟩)
  | @cons gap gap_blank token rest text later apart =>
    have blanks : ∀ d ∈ c :: gap, isBlank d = true := List.forall_mem_cons.mpr ⟨blank, gap_blank⟩
    exact .cons blanks later apart

/-- A token that stands at the very beginning. -/
theorem token_cons {token : List Char} (spells : Spells tokens text)
    (apart : IsMark (String.ofList token) ∨ (∀ next ∈ tokens.head?, IsMark next) ∨ Ends text) :
    Spells (String.ofList token :: tokens) (token ++ text) := by
  have nothing : ∀ d ∈ ([] : List Char), isBlank d = true := nofun
  have whole := Spells.cons nothing spells apart
  rwa [List.nil_append, String.toList_ofList] at whole

/-- A character that is no blank and no parenthesis begins the next token or is one by itself. -/
theorem exists_plain_cons (solid : isBlank c = false) (free : c ≠ '(' ∧ c ≠ ')')
    (spells : Spells tokens text) (all : ∀ token ∈ tokens, IsToken token) :
    ∃ tokens', Spells tokens' (c :: text) ∧ ∀ token ∈ tokens', IsToken token := by
  have alone (apart : (∀ next ∈ tokens.head?, IsMark next) ∨ Ends text) :
      ∃ tokens', Spells tokens' (c :: text) ∧ ∀ token ∈ tokens', IsToken token := by
    have is_token : IsToken (String.ofList [c]) := .inr (isPlain_cons solid free nofun)
    exact ⟨_, spells.token_cons (.inr apart), List.forall_mem_cons.mpr ⟨is_token, all⟩⟩
  -- Only a plain token right behind the character takes it in.
  cases spells with
  | nil blank => exact alone (.inr fun d first => blank d (List.mem_of_mem_head? first))
  | @cons gap blank token rest text later apart =>
    cases gap with
    | cons d gap =>
      refine alone (.inr ?_)
      rintro _ ⟨⟩
      exact blank d List.mem_cons_self
    | nil =>
      obtain ⟨mark | plain, others⟩ := List.forall_mem_cons.mp all
      · refine alone (.inl ?_)
        rintro _ ⟨⟩
        exact mark
      · have longer : IsPlain (String.ofList (c :: token.toList)) :=
          isPlain_cons solid free fun d member => ⟨plain.1.2 d member, plain.2 d member⟩
        have apart' := apart.resolve_left plain.not_isMark
        exact ⟨_, later.token_cons (.inr apart'), List.forall_mem_cons.mpr ⟨.inr longer, others⟩⟩

/-- All of a text but its white space is in its tokens. -/
theorem flatMap_eq (spells : Spells tokens text) (all : ∀ token ∈ tokens, IsToken token) :
    tokens.flatMap String.toList = text.filter (!isBlank ·) := by
  induction spells with
  | nil blank => rw [filter_blanks blank, List.flatMap_nil]
  | @cons gap blank token rest text later apart ih =>
    obtain ⟨first, others⟩ := List.forall_mem_cons.mp all
    rw [List.flatMap_cons, List.filter_append, List.filter_append, filter_blanks blank,
      filter_word first.isWord, ih others, List.nil_append]

end Spells

/-- In every text tokens are written down. -/
theorem exists_spelling (text : List Char) :
    ∃ tokens, Spells tokens text ∧ ∀ token ∈ tokens, IsToken token := by
  induction text with
  | nil => exact ⟨[], .nil nofun, nofun⟩
  | cons c text ih =>
    obtain ⟨tokens, spells, all⟩ := ih
    by_cases mark : c = '(' ∨ c = ')'
    · have is_mark : IsMark (String.ofList [c]) := isMark_singleton mark
      exact ⟨_, spells.token_cons (.inl is_mark), List.forall_mem_cons.mpr ⟨.inl is_mark, all⟩⟩
    · cases blank : isBlank c with
      | true => exact ⟨tokens, spells.blank_cons blank, all⟩
      | false => exact spells.exists_plain_cons blank (not_or.mp mark) all

/-- Cutting finds the tokens of which a text is a spelling. -/
theorem tokenize_eq_iff {text : String} {tokens : List String} :
    tokenize text = tokens ↔ Spells tokens text.toList ∧ ∀ token ∈ tokens, IsToken token := by
  constructor
  · rintro rfl
    obtain ⟨tokens, spells, all⟩ := exists_spelling text.toList
    rw [tokenize_of_spells spells all]
    exact ⟨spells, all⟩
  · rintro ⟨spells, all⟩
    exact tokenize_of_spells spells all

/-! ## Cutting twice -/

theorem tokensOf_eq_splitOnP (text : String) :
    tokensOf text =
      ((text.toList.splitOnP isWhiteSpace).filter (!·.isEmpty)).map String.ofList := by
  rw [tokensOf, words, pieces_eq_splitOnP, isBlank_eq]

section Texts

variable (table : Table α) (text : String)

/-- A text has been compiled if its tokens have been, and its Polish form is cut into theirs. -/
theorem polish_eq_ok_iff (tokens : List String) :
    table.polish (tokenize text) = .ok tokens ↔
      ∃ polish, table.compile text = .ok polish ∧ tokensOf polish = tokens := by
  have words : ∀ token ∈ tokenize text, IsWord token.toList := fun _ => isWord_of_mem_tokenize
  cases result : table.polish (tokenize text) with
  | error e =>
    rw [Table.compile_of_error result]
    constructor
    · rintro ⟨⟩
    · rintro ⟨_, ⟨⟩, _⟩
  | ok done =>
    have compiles := Table.compile_of_polish result
    have found := tokensOf_polish words result
    constructor
    · rintro ⟨⟩
      exact ⟨_, compiles, found⟩
    · rintro ⟨polish, compiles', cut⟩
      obtain rfl := Except.ok.inj (compiles.symm.trans compiles')
      rw [← cut, found]

theorem polish_eq_error_iff (e : Error) :
    table.polish (tokenize text) = .error e ↔ table.compile text = .error e := by
  cases result : table.polish (tokenize text) with
  | error e' => rw [Table.compile_of_error result, Except.error.injEq, Except.error.injEq]
  | ok done =>
    rw [Table.compile_of_polish result]
    constructor <;> rintro ⟨⟩

/-- The evaluation from the right takes the tokens of the Polish form. -/
theorem value?_eq_some_iff (value : α) :
    table.value? text = some value ↔ ∃ tokens, table.polish (tokenize text) = .ok tokens ∧
      table.stackOf tokens = some [value] := by
  cases compiles : table.compile text with
  | error e =>
    have fails := (polish_eq_error_iff table text e).mpr compiles
    rw [Table.value?, compiles, fails]
    constructor
    · rintro ⟨⟩
    · rintro ⟨_, ⟨⟩, _⟩
  | ok polish =>
    have polishes := (polish_eq_ok_iff table text _).mpr ⟨polish, compiles, rfl⟩
    rw [Table.value?_of_compile compiles, Table.evaluate_eq_some_iff, polishes]
    constructor
    · intro values
      exact ⟨_, rfl, values⟩
    · rintro ⟨_, ⟨⟩, values⟩
      exact values

/-- The evaluation from the left takes the tokens of the Polish form. -/
theorem value_eq_bind :
    table.value text = (table.polish (tokenize text)).bind table.evaluateTokens := by
  cases compiles : table.compile text with
  | error e =>
    have fails := (polish_eq_error_iff table text e).mpr compiles
    rw [Table.value, compiles, fails]
    rfl
  | ok polish =>
    have polishes := (polish_eq_ok_iff table text _).mpr ⟨polish, compiles, rfl⟩
    rw [Table.value_of_compile compiles, polishes]
    rfl

/--
A text is a spelling of the tokens into which it is cut. They are not empty and have no white space
in them, they are parentheses or free of parentheses, and one after the other they are the text
without its white space. The text compiles exactly if its tokens do. Then the Polish form, cut at
its white space, is the Polish form of the tokens, and both evaluations of the text are evaluations
of these tokens.
-/
theorem texts_agree_with_tokens :
    (∀ token ∈ tokenize text, token ≠ "" ∧ (∀ c ∈ token.toList, isWhiteSpace c = false) ∧
      (token = openMark ∨ token = closeMark ∨ ∀ c ∈ token.toList, c ≠ '(' ∧ c ≠ ')')) ∧
    Spells (tokenize text) text.toList ∧
    (tokenize text).flatMap String.toList = text.toList.filter (!isWhiteSpace ·) ∧
    (∀ tokens, table.polish (tokenize text) = .ok tokens ↔
      ∃ polish, table.compile text = .ok polish ∧ tokensOf polish = tokens) ∧
    (∀ e, table.polish (tokenize text) = .error e ↔ table.compile text = .error e) ∧
    (∀ value, table.value? text = some value ↔ ∃ tokens,
      table.polish (tokenize text) = .ok tokens ∧ table.stackOf tokens = some [value]) ∧
    table.value text = (table.polish (tokenize text)).bind table.evaluateTokens ∧
    ∀ polish, tokensOf polish =
      ((polish.toList.splitOnP isWhiteSpace).filter (!·.isEmpty)).map String.ofList := by
  obtain ⟨spells, all⟩ := tokenize_eq_iff.mp (rfl : tokenize text = _)
  rw [← isBlank_eq]
  refine ⟨fun token member => ⟨?_, ?_, ?_⟩, spells, spells.flatMap_eq all,
    polish_eq_ok_iff table text, polish_eq_error_iff table text, value?_eq_some_iff table text,
    value_eq_bind table text, ?_⟩
  · rintro rfl
    exact (all "" member).isWord.1 rfl
  · exact (all token member).isWord.2
  · rcases all token member with (opens | closes) | plain
    · exact .inl opens
    · exact .inr (.inl closes)
    · exact .inr (.inr plain.2)
  · rw [isBlank_eq]
    exact tokensOf_eq_splitOnP

end Texts

namespace Spaced

def logic : Table Bool := .booleans fun _ => some true

/-- No-break and ideographic spaces, a line separator, and no blank next to a parenthesis. -/
def text : String := "\u00A0a\u3000and\u2028not(b)"

end Spaced

/-- Every kind of white space separates tokens, and none of it is in the Polish form. -/
theorem texts_agree_with_tokens_spaced :
    tokenize Spaced.text = ["a", "and", "not", "(", "b", ")"] ∧
      (∀ c ∈ "not".toList, isWhiteSpace c = false) ∧
      Spaced.logic.polish ["a", "and", "not", "(", "b", ")"] = .ok ["and", "not", "b", "a"] ∧
      (∃ polish, Spaced.logic.compile Spaced.text = .ok polish ∧
        tokensOf polish = ["and", "not", "b", "a"]) ∧
      Spaced.logic.value? Spaced.text = some false ∧
      Spaced.logic.value Spaced.text = .ok false := by
  have cut : tokenize Spaced.text = ["a", "and", "not", "(", "b", ")"] := rfl
  have polishes : Spaced.logic.polish (tokenize Spaced.text) = .ok ["and", "not", "b", "a"] := rfl
  have values : Spaced.logic.stackOf ["and", "not", "b", "a"] = some [false] := rfl
  have member : "not" ∈ tokenize Spaced.text := by rw [cut]; decide
  obtain ⟨tokens, _, _, compiles, _, right, left, _⟩ :=
    texts_agree_with_tokens Spaced.logic Spaced.text
  refine ⟨cut, (tokens "not" member).2.1, polishes, (compiles _).mp polishes,
    (right false).mpr ⟨_, polishes, values⟩, ?_⟩
  rw [left, polishes]
  rfl

end Expr

end Switchboard
