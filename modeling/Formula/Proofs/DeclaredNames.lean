import Formula.Proofs.ConsoleSession
import Formula.Proofs.DefaultFunctions
import Formula.Proofs.LexicalGrammar
import Formula.Proofs.PhraseSpans

set_option autoImplicit false

namespace Formula

def Reserved (word : String) : Prop := ∃ b, word = (Value.boolean b).display

namespace Lexer

theorem reserved_terminal (b : Bool) :
    wordTerminal (Value.boolean b).display.toList = .boolean b := by
  cases b <;> rfl

theorem free_terminal {word : String} (free : ¬ Reserved word) :
    wordTerminal word.toList = .identifier word := by
  have other (b : Bool) : word.toList ≠ (Value.boolean b).display.toList :=
    fun same => free ⟨b, String.toList_inj.mp same⟩
  have notTrue : word.toList ≠ ['t', 'r', 'u', 'e'] := other true
  have notFalse : word.toList ≠ ['f', 'a', 'l', 's', 'e'] := other false
  rw [wordTerminal, if_neg notTrue, if_neg notFalse, String.ofList_toList]

def wordToken (word : String) (terminal : Terminal) : Token :=
  ⟨terminal, word, ⟨0, word.utf8ByteSize⟩⟩

theorem name_steady {cs : List Char} (valid : Console.isName cs = true) :
    WordsSteady [] [⟨[], cs, wordTerminal cs⟩] := by
  cases cs with
  | nil => cases valid
  | cons c cs =>
    rw [Console.isName, Bool.and_eq_true, List.all_eq_true] at valid
    have gap : Layout [] := List.forall_mem_nil _
    refine ⟨⟨gap, spelled_word valid.1 valid.2, ?_, ?_⟩, gap⟩
    · intro next first
      cases first
    · intro n same
      obtain ⟨d, ds, text, digit⟩ := numeral_first n
      rw [text] at same
      cases same
      rw [name_start_not_digit valid.1] at digit
      cases digit

theorem name_lexed {word : String} (valid : Console.isName word.toList = true) :
    lex word = ⟨[wordToken word (wordTerminal word.toList)],
      .eof (.eofAt word.utf8ByteSize)⟩ := by
  have text : word.toList = textOf [] [⟨[], word.toList, wordTerminal word.toList⟩] := by
    simp [textOf]
  have start : byteLength [] = 0 := rfl
  rw [lex_words text (name_steady valid), tokensFrom, tokensFrom, start, Nat.add_zero, Nat.zero_add,
    byte_length_source, String.ofList_toList]
  rfl

theorem identifier_name {cs : List Char} {n : String} (spelled : Spelled cs (.identifier n)) :
    Console.isName cs = true := by
  cases spelled with
  | identifier start parts notTrue notFalse =>
    rw [Console.isName, Bool.and_eq_true, List.all_eq_true]
    exact ⟨(name_start_iff _).mpr start, fun d member => (name_part_iff d).mpr (parts d member)⟩

theorem name_iff (word : String) : Console.isName word.toList = true ↔
    tokens word = .ok [wordToken word (.identifier word), .eofAt word.utf8ByteSize] ∨
      Reserved word := by
  constructor
  · intro valid
    by_cases reserved : Reserved word
    · exact .inr reserved
    · left
      rw [tokens_ok_iff, name_lexed valid, free_terminal reserved]
      exact ⟨rfl, rfl⟩
  · rintro (read | ⟨b, rfl⟩)
    · obtain ⟨behind, words, -, steady, split⟩ := tokens_iff_words.mp read
      cases words with
      | nil => cases split
      | cons first words =>
        obtain ⟨same, -⟩ := List.cons.inj split
        have terminal : .identifier word = first.terminal := congrArg Token.terminal same
        have lexeme : word = String.ofList first.lexeme := congrArg Token.lexeme same
        have spelled := steady.1.spelled
        rw [← terminal] at spelled
        rw [lexeme, String.toList_ofList]
        exact identifier_name spelled
    · cases b <;> rfl

end Lexer

section

open Lexer Grammar

theorem word_parsed {word : String} (valid : Console.isName word.toList = true)
    (p : Phrase .primary) (read : p.tokens = [wordToken word (wordTerminal word.toList)]) :
    parse word = .ok p.tree := by
  obtain ⟨q, tokens, tree⟩ := widens .primary p
  rw [parse, Parser.complete_ok_iff, name_lexed valid]
  exact ⟨_, rfl, q, tokens.trans read, tree⟩

theorem name_evaluated {word : String} (valid : Console.isName word.toList = true)
    (free : ¬ Reserved word) {env : Environment} {v : Value}
    (bound : env.get? word = some (.value v)) : evaluate word env = .ok v := by
  have parsed := word_parsed valid (.name (wordToken word (.identifier word)) word rfl)
    (by rw [free_terminal free]; rfl)
  rw [evaluate_of_parsed parsed]
  exact Expr.name_value bound _

theorem reserved_evaluated (b : Bool) (env : Environment) :
    evaluate (Value.boolean b).display env = .ok (.boolean b) := by
  have valid : Console.isName (Value.boolean b).display.toList = true := by cases b <;> rfl
  have parsed := word_parsed valid
    (.literal (wordToken (Value.boolean b).display (.boolean b)) (.boolean b) (.boolean b))
    (by rw [reserved_terminal]; rfl)
  rw [evaluate_of_parsed parsed]
  rfl

end

namespace Console

open Environment (Extends extends_refl extends_trans declare_extends)

variable {env next : Environment} {line : List Char} {name source : String} {v : Value}

theorem name_of_declaration (declares : declaration? line = some (name, source)) :
    isName name.toList = true := by
  have shape := let_line_of_read ((declaration_eq_some line name source).mp declares)
  generalize name.toList = cs, source.toList = ds at shape ⊢
  cases shape with
  | intro form gap first valid some => exact valid

theorem declared_bound (declared : declare env name source = .ok (next, v)) :
    next.get? name = some (.value v) := by
  rw [declare] at declared
  obtain ⟨_, -, further⟩ := bind_ok declared
  obtain ⟨_, made, last⟩ := bind_ok further
  cases last
  rw [Environment.get_declared (Environment.variable_declared made), if_pos rfl]

theorem declaration_answered (declares : declaration? line = some (name, source))
    (declared : declare env name source = .ok (next, v)) :
    answer env line = ⟨next, .line (name ++ " = " ++ v.display), .going⟩ := by
  have asked := (declaration_eq_some line name source).mp declares
  obtain ⟨_, -, further⟩ := bind_ok declared
  obtain ⟨_, made, last⟩ := bind_ok further
  cases last
  rw [answer_command env asked (some_of_read asked nofun), execute, declared]
  change Reply.print next (v.write.map _) = _
  rw [write_in_range (Environment.range_of_declared made)]
  rfl

theorem answer_extends (env : Environment) (line : List Char) :
    Extends env (answer env line).env := by
  rcases answer_env env line with same | ⟨name, source, value, -, declared⟩
  · rw [same]
    exact extends_refl env
  · obtain ⟨_, -, further⟩ := bind_ok declared
    obtain ⟨_, made, last⟩ := bind_ok further
    cases last
    exact declare_extends (Environment.variable_declared made)

def accumulated (env : Environment) (lines : List (List Char)) : Environment :=
  lines.foldl (fun env line => (answer env line).env) env

theorem accumulated_extends (env : Environment) (lines : List (List Char)) :
    Extends env (accumulated env lines) := by
  induction lines generalizing env with
  | nil => exact extends_refl env
  | cons line lines ih => exact extends_trans (answer_extends env line) (ih (answer env line).env)

/-- A line that declares a name is answered with the value, and the variable is listed for good. If
the name does not stand for a truth value, it is read as an identifier, and is found to have the
value then and after any further lines. If it does, it has the truth value it stands for. These two
words are all in which the names of the console differ from the identifiers of the language. -/
theorem declared_name_found (declares : declaration? line = some (name, source))
    (declared : declare env name source = .ok (next, v)) :
    answer env line = ⟨next, .line (name ++ " = " ++ v.display), .going⟩ ∧
    (∀ lines, (name, v) ∈ (accumulated next lines).allVariables) ∧
    (¬ Reserved name →
      Lexer.tokens name =
        .ok [Lexer.wordToken name (.identifier name), .eofAt name.utf8ByteSize] ∧
      Formula.evaluate name next = .ok v ∧
      ∀ lines, Formula.evaluate name (accumulated next lines) = .ok v) ∧
    (∀ b, name = (Value.boolean b).display →
      Formula.evaluate name next = .ok (.boolean b) ∧
      ∀ lines, Formula.evaluate name (accumulated next lines) = .ok (.boolean b)) ∧
    ∀ word : String, isName word.toList = true ↔
      Lexer.tokens word =
        .ok [Lexer.wordToken word (.identifier word), .eofAt word.utf8ByteSize] ∨
      Reserved word := by
  have valid := name_of_declaration declares
  have bound := declared_bound declared
  have kept (lines : List (List Char)) : (accumulated next lines).get? name = some (.value v) :=
    accumulated_extends next lines name (.value v) bound
  refine ⟨declaration_answered declares declared, ?_, ?_, ?_, Lexer.name_iff⟩
  · intro lines
    exact (Environment.mem_all_variables_iff _ name v).mpr (kept lines)
  · intro free
    exact ⟨((Lexer.name_iff name).mp valid).resolve_right free, name_evaluated valid free bound,
      fun lines => name_evaluated valid free (kept lines)⟩
  · rintro b rfl
    exact ⟨reserved_evaluated b next, fun lines => reserved_evaluated b _⟩

theorem declared_of_value
    (value : (declare env name source).map Prod.snd = .ok v) :
    ∃ next, declare env name source = .ok (next, v) := by
  cases declared : declare env name source with
  | error e =>
    rw [declared] at value
    cases value
  | ok made =>
    rw [declared] at value
    cases value
    exact ⟨made.1, rfl⟩

theorem declared_name_found_of_rate :
    ∃ next, declare .empty "rate_2.x" "0.25 * 2" = .ok (next, .number ⟨50, 2⟩) ∧
      answer .empty ":let rate_2.x = 0.25 * 2".toList =
        ⟨next, .line "rate_2.x = 0.5", .going⟩ ∧
      Formula.evaluate "rate_2.x" next = .ok (.number ⟨50, 2⟩) := by
  obtain ⟨next, declared⟩ : ∃ next, declare .empty "rate_2.x" "0.25 * 2" =
      .ok (next, .number ⟨50, 2⟩) := declared_of_value (by decide +kernel)
  have line : declaration? ":let rate_2.x = 0.25 * 2".toList = some ("rate_2.x", "0.25 * 2") := by
    decide +kernel
  have free : ¬ Reserved "rate_2.x" := by
    rintro ⟨b, same⟩
    cases b <;> exact absurd same (by decide)
  have shown : "rate_2.x" ++ " = " ++ (Value.number ⟨50, 2⟩).display = "rate_2.x = 0.5" := by
    decide +kernel
  obtain ⟨answered, -, found, -⟩ := declared_name_found line declared
  rw [shown] at answered
  exact ⟨next, declared, answered, (found free).2.1⟩

/-- A variable that is named as a truth value does not have the value that it was declared with. -/
theorem reserved_name_lost :
    ¬ ∀ (env next : Environment) (line : List Char) (name source : String) (v : Value),
      declaration? line = some (name, source) → declare env name source = .ok (next, v) →
        Formula.evaluate name next = .ok v := by
  intro found
  obtain ⟨next, declared⟩ : ∃ next, declare .empty "true" "1" = .ok (next, .number ⟨1, 0⟩) :=
    declared_of_value (by decide +kernel)
  have line : declaration? ":let true = 1".toList = some ("true", "1") := by decide +kernel
  have lost := found .empty next _ "true" "1" _ line declared
  have truth : Formula.evaluate "true" next = .ok (.boolean true) := reserved_evaluated true next
  rw [truth] at lost
  cases lost

end Console

end Formula
