import Formula.Proofs.Lexing
import Formula.Proofs.ParserEquations
import Formula.Proofs.Unambiguity

set_option autoImplicit false

namespace Formula.Parser

open Grammar
open Lexer (Ending)

theorem operator_iff {level : Level} {t : Terminal} {operator : Infix} :
    level.operator? t = some operator ↔ Joins level t operator := by
  constructor
  · intro found
    cases level <;> cases t <;> cases found <;> constructor
  · intro joins
    cases joins <;> rfl

theorem prefix_operator_iff {t : Terminal} {operator : UnaryOp} :
    prefixOperator? t = some operator ↔ Signs t operator := by
  constructor
  · intro found
    cases t <;> cases found <;> constructor
  · intro signs
    cases signs <;> rfl

theorem behind_shorter {n : Nonterminal} {p : Phrase n} {ts rest : List Token}
    (tokens : p.tokens ++ rest = ts) : rest.length < ts.length := by
  obtain ⟨first, more, opens, _⟩ := phrase_opens p
  rw [← tokens, opens]
  simp only [List.length_append, List.length_cons]
  omega

section Soundness

variable (ending : Ending)

-- The recursion is the parser's: on the tokens that are left, and on the depth of the production
-- among calls at the same tokens. Each `shorter` is what makes a later call smaller.
mutual

theorem expression_derives (ts : List Token) (e : Expr) (rest : List Token)
    (read : readExpression ending ts = .ok (e, rest)) :
    ∃ p : Phrase .expression, p.tokens ++ rest = ts ∧ p.tree = e := by
  rw [read_expression_eq] at read
  obtain ⟨⟨condition, behind⟩, first, read⟩ := bind_ok read
  obtain ⟨p, tokens, rfl⟩ := chain_derives .logical ts condition behind first
  have shorter := behind_shorter tokens
  cases behind with
  | nil =>
    obtain ⟨_, _, read⟩ := bind_ok read
    cases read
    exact ⟨.plain p, tokens, rfl⟩
  | cons question after =>
    by_cases isQuestion : question.terminal = .question
    · simp only [isQuestion, if_true] at read
      obtain ⟨⟨whenTrue, behind⟩, second, read⟩ := bind_ok read
      simp only [List.length_cons] at shorter
      obtain ⟨q, branch, rfl⟩ := expression_derives after whenTrue behind second
      have shorter := behind_shorter branch
      cases behind with
      | nil =>
        obtain ⟨_, _, read⟩ := bind_ok read
        cases read
      | cons colon after =>
        by_cases isColon : colon.terminal = .colon
        · simp only [isColon, if_true] at read
          obtain ⟨⟨whenFalse, behind⟩, third, read⟩ := bind_ok read
          simp only [List.length_cons] at shorter
          obtain ⟨r, last, rfl⟩ := expression_derives after whenFalse behind third
          cases read
          refine ⟨.ternary p question isQuestion q colon isColon r, ?_, rfl⟩
          rw [← tokens, ← branch, ← last]
          simp only [Phrase.tokens, List.append_assoc, List.cons_append]
        · simp only [isColon, if_false] at read
          cases read
    · simp only [isQuestion, if_false] at read
      cases read
      exact ⟨.plain p, tokens, rfl⟩
termination_by ts.length * 13 + 11

theorem chain_derives (level : Level) (ts : List Token) (e : Expr) (rest : List Token)
    (read : readChain ending level ts = .ok (e, rest)) :
    ∃ p : Phrase (.chain level), p.tokens ++ rest = ts ∧ p.tree = e := by
  rw [read_chain_eq] at read
  obtain ⟨⟨first, behind⟩, operand, tail⟩ := bind_ok read
  obtain ⟨p, tokens, rfl⟩ := operand_derives level ts first behind operand
  have shorter := behind_shorter tokens
  obtain ⟨t, more, rfl⟩ := tail_derives level p.tree behind e rest tail
  refine ⟨.chain p t, ?_, rfl⟩
  rw [← tokens, ← more, Phrase.tokens, List.append_assoc]
termination_by ts.length * 13 + 2 * level.rank + 2

theorem tail_derives (level : Level) (left : Expr) (ts : List Token) (e : Expr)
    (rest : List Token) (read : readTail ending level left ts = .ok (e, rest)) :
    ∃ t : Tail level, t.tokens ++ rest = ts ∧ t.join left = e := by
  rw [read_tail_eq] at read
  cases ts with
  | nil =>
    obtain ⟨_, _, read⟩ := bind_ok read
    cases read
    exact ⟨.nil, rfl, rfl⟩
  | cons next after =>
    cases joins : level.operator? next.terminal with
    | none =>
      simp only [joins] at read
      cases read
      exact ⟨.nil, rfl, rfl⟩
    | some operator =>
      simp only [joins] at read
      obtain ⟨⟨right, behind⟩, operand, tail⟩ := bind_ok read
      have bounded := rank_bounded level
      have shorter : after.length < (next :: after).length := Nat.lt_succ_self _
      obtain ⟨p, tokens, rfl⟩ := operand_derives level after right behind operand
      have shorterTail := behind_shorter tokens
      obtain ⟨t, more, rfl⟩ := tail_derives level _ behind e rest tail
      refine ⟨.cons next operator (operator_iff.mp joins) p t, ?_, rfl⟩
      rw [← tokens, ← more]
      simp only [Tail.tokens, List.append_assoc, List.cons_append]
termination_by ts.length * 13

theorem operand_derives (level : Level) (ts : List Token) (e : Expr) (rest : List Token)
    (read : readOperand ending level ts = .ok (e, rest)) :
    ∃ p : Phrase (operands level), p.tokens ++ rest = ts ∧ p.tree = e := by
  rw [read_operand_eq] at read
  cases level with
  | logical => exact chain_derives .equality ts e rest read
  | equality => exact chain_derives .additive ts e rest read
  | additive => exact chain_derives .multiplicative ts e rest read
  | multiplicative => exact exponent_derives ts e rest read
termination_by ts.length * 13 + 2 * level.rank + 1

theorem exponent_derives (ts : List Token) (e : Expr) (rest : List Token)
    (read : readExponent ending ts = .ok (e, rest)) :
    ∃ p : Phrase .exponent, p.tokens ++ rest = ts ∧ p.tree = e := by
  rw [read_exponent_eq] at read
  obtain ⟨⟨base, behind⟩, first, read⟩ := bind_ok read
  obtain ⟨p, tokens, rfl⟩ := unary_derives ts base behind first
  have shorter := behind_shorter tokens
  cases behind with
  | nil =>
    obtain ⟨_, _, read⟩ := bind_ok read
    cases read
    exact ⟨.base p, tokens, rfl⟩
  | cons caret after =>
    by_cases isCaret : caret.terminal = .caret
    · simp only [isCaret, if_true] at read
      obtain ⟨⟨power, behind⟩, second, read⟩ := bind_ok read
      simp only [List.length_cons] at shorter
      obtain ⟨q, more, rfl⟩ := exponent_derives after power behind second
      cases read
      refine ⟨.power p caret isCaret q, ?_, rfl⟩
      rw [← tokens, ← more]
      simp only [Phrase.tokens, List.append_assoc, List.cons_append]
    · simp only [isCaret, if_false] at read
      cases read
      exact ⟨.base p, tokens, rfl⟩
termination_by ts.length * 13 + 2

theorem unary_derives (ts : List Token) (e : Expr) (rest : List Token)
    (read : readUnary ending ts = .ok (e, rest)) :
    ∃ p : Phrase .unary, p.tokens ++ rest = ts ∧ p.tree = e := by
  rw [read_unary_eq] at read
  cases ts with
  | nil =>
    obtain ⟨_, _, read⟩ := bind_ok read
    cases read
  | cons next after =>
    have shorter : after.length < (next :: after).length := Nat.lt_succ_self _
    cases sign : prefixOperator? next.terminal with
    | some operator =>
      simp only [sign] at read
      obtain ⟨⟨inner, behind⟩, operand, read⟩ := bind_ok read
      obtain ⟨p, tokens, rfl⟩ := unary_derives after inner behind operand
      cases read
      refine ⟨.signed next operator (prefix_operator_iff.mp sign) p, ?_, rfl⟩
      rw [← tokens, Phrase.tokens, List.cons_append]
    | none =>
      simp only [sign] at read
      obtain ⟨p, tokens, rfl⟩ := primary_derives next after e rest read
      exact ⟨.unsigned p, tokens, rfl⟩
termination_by ts.length * 13 + 1

theorem primary_derives (next : Token) (ts : List Token) (e : Expr) (rest : List Token)
    (read : readPrimary ending next ts = .ok (e, rest)) :
    ∃ p : Phrase .call, p.tokens ++ rest = next :: ts ∧ p.tree = e := by
  rw [read_primary_eq] at read
  cases is : next.terminal with
  | number d =>
    simp only [is] at read
    cases read
    exact ⟨.simple (.literal next (.number d) (is ▸ .number d)), rfl, rfl⟩
  | string s =>
    simp only [is] at read
    cases read
    exact ⟨.simple (.literal next (.text s) (is ▸ .string s)), rfl, rfl⟩
  | boolean b =>
    simp only [is] at read
    cases read
    exact ⟨.simple (.literal next (.boolean b) (is ▸ .boolean b)), rfl, rfl⟩
  | identifier name =>
    simp only [is] at read
    cases ts with
    | nil =>
      obtain ⟨_, _, read⟩ := bind_ok read
      cases read
      exact ⟨.simple (.name next name is), rfl, rfl⟩
    | cons opening after =>
      by_cases isOpening : opening.terminal = .leftParen
      · simp only [isOpening, if_true] at read
        obtain ⟨⟨args, closing, behind⟩, call, read⟩ := bind_ok read
        cases read
        rcases call_derives after args closing behind call with
          ⟨isClosing, ⟨rfl, rfl⟩ | ⟨a, tokens, rfl⟩⟩
        · exact ⟨.callEmpty next name is opening isOpening closing isClosing, rfl, rfl⟩
        · refine ⟨.call next name is opening isOpening a closing isClosing, ?_, rfl⟩
          rw [← tokens]
          simp only [Phrase.tokens, List.append_assoc, List.cons_append, List.nil_append]
      · simp only [isOpening, if_false] at read
        cases read
        exact ⟨.simple (.name next name is), rfl, rfl⟩
  | leftParen =>
    simp only [is] at read
    obtain ⟨⟨inner, behind⟩, first, read⟩ := bind_ok read
    obtain ⟨p, tokens, rfl⟩ := expression_derives ts inner behind first
    cases behind with
    | nil =>
      obtain ⟨_, _, read⟩ := bind_ok read
      cases read
    | cons closing after =>
      by_cases isClosing : closing.terminal = .rightParen
      · simp only [isClosing, if_true] at read
        cases read
        refine ⟨.simple (.group next is p closing isClosing), ?_, rfl⟩
        rw [← tokens]
        simp only [Phrase.tokens, List.append_assoc, List.cons_append, List.nil_append]
      · simp only [isClosing, if_false] at read
        cases read
  | _ =>
    simp only [is] at read
    cases read
termination_by (ts.length + 1) * 13

theorem call_derives (ts : List Token) (args : List Expr) (closing : Token) (rest : List Token)
    (read : readCall ending ts = .ok (args, closing, rest)) :
    closing.terminal = .rightParen ∧
      ((args = [] ∧ ts = closing :: rest) ∨
        ∃ a : Arguments, a.tokens ++ closing :: rest = ts ∧ a.trees = args) := by
  rw [read_call_eq] at read
  cases ts with
  | nil =>
    obtain ⟨_, _, read⟩ := bind_ok read
    cases read
  | cons next after =>
    by_cases isClosing : next.terminal = .rightParen
    · simp only [isClosing, if_true] at read
      cases read
      exact ⟨isClosing, .inl ⟨rfl, rfl⟩⟩
    · simp only [isClosing, if_false] at read
      obtain ⟨isClosing, a, tokens, trees⟩ := arguments_derive (next :: after) args closing rest read
      exact ⟨isClosing, .inr ⟨a, tokens, trees⟩⟩
termination_by ts.length * 13 + 13

theorem arguments_derive (ts : List Token) (args : List Expr) (closing : Token)
    (rest : List Token) (read : readArguments ending ts = .ok (args, closing, rest)) :
    closing.terminal = .rightParen ∧
      ∃ a : Arguments, a.tokens ++ closing :: rest = ts ∧ a.trees = args := by
  rw [read_arguments_eq] at read
  obtain ⟨⟨arg, behind⟩, first, read⟩ := bind_ok read
  obtain ⟨p, tokens, rfl⟩ := expression_derives ts arg behind first
  have shorter := behind_shorter tokens
  cases behind with
  | nil =>
    obtain ⟨_, _, read⟩ := bind_ok read
    cases read
  | cons next after =>
    by_cases isComma : next.terminal = .comma
    · simp only [isComma, if_true] at read
      obtain ⟨⟨more, last, behind⟩, later, read⟩ := bind_ok read
      simp only [List.length_cons] at shorter
      obtain ⟨isClosing, a, listed, rfl⟩ := arguments_derive after more last behind later
      cases read
      refine ⟨isClosing, .more p next isComma a, ?_, rfl⟩
      rw [← tokens, ← listed]
      simp only [Arguments.tokens, List.append_assoc, List.cons_append]
    · by_cases isClosing : next.terminal = .rightParen
      · simp only [isClosing, if_true] at read
        cases read
        exact ⟨isClosing, .last p, tokens, rfl⟩
      · simp only [isComma, isClosing, if_false] at read
        cases read
termination_by ts.length * 13 + 12

end

end Soundness

section Completeness

variable (eof : Token)

def readPhrase (ending : Ending) : Nonterminal → List Token → Result (Expr × List Token)
  | .expression => readExpression ending
  | .chain level => readChain ending level
  | .exponent => readExponent ending
  | .unary | .call | .primary => readUnary ending

theorem read_operand_phrase (ending : Ending) (level : Level) (ts : List Token) :
    readOperand ending level ts = readPhrase ending (operands level) ts := by
  rw [read_operand_eq]
  cases level <;> rfl

theorem stops_not {n : Nonterminal} {next : Token} {rest : List Token} {t : Terminal}
    (stops : Stops n (next :: rest)) (tight : tightness n ≤ bond t) : next.terminal ≠ t := by
  intro same
  exact stops_absurd stops rfl same tight

theorem read_literal (ending : Ending) (token : Token) (value : Value)
    (denotes : Denotes token.terminal value) (rest : List Token) :
    readUnary ending (token :: rest) = .ok (.literal value token.span, rest) := by
  obtain ⟨terminal, lexeme, span⟩ := token
  rw [read_unary_eq]
  cases denotes <;> simp only [prefixOperator?] <;> rw [read_primary_eq] <;> rfl

-- The recursion is on the derivation. What follows a phrase stops it, so the parser looks at the
-- next token where the phrase ends, and leaves it there.
mutual

theorem phrase_read {n : Nonterminal} (p : Phrase n) (rest : List Token) (stops : Stops n rest) :
    readPhrase (.eof eof) n (p.tokens ++ rest) = .ok (p.tree, rest) := by
  cases p with
  | plain condition =>
    have first := phrase_read condition rest (stops_tighter stops (by decide))
    simp only [readPhrase] at first ⊢
    rw [read_expression_eq, Phrase.tokens, first]
    cases rest with
    | nil => rfl
    | cons next after =>
      have other : next.terminal ≠ .question := stops_not stops (by decide)
      simp only [bind, Except.bind, other, if_false]
      rfl
  | ternary condition question isQuestion whenTrue colon isColon whenFalse =>
    have first := phrase_read condition
      (question :: (whenTrue.tokens ++ colon :: (whenFalse.tokens ++ rest)))
      (stops_cons isQuestion (by decide))
    have second := phrase_read whenTrue (colon :: (whenFalse.tokens ++ rest))
      (stops_cons isColon (by decide))
    have third := phrase_read whenFalse rest stops
    simp only [readPhrase] at first second third ⊢
    simp only [Phrase.tokens, List.append_assoc, List.cons_append]
    rw [read_expression_eq, first]
    simp only [bind, Except.bind, isQuestion, if_true, second, isColon, third]
    rfl
  | chain first tail =>
    rename_i level
    have operand := phrase_read first (tail.tokens ++ rest) (tail_stops tail stops)
    have more := tail_read tail first.tree rest stops
    rw [readPhrase, Phrase.tokens, List.append_assoc, read_chain_eq, read_operand_phrase, operand]
    exact more
  | base base =>
    have first := phrase_read base rest (stops_tighter stops (by decide))
    simp only [readPhrase] at first ⊢
    rw [read_exponent_eq, Phrase.tokens, first]
    cases rest with
    | nil => rfl
    | cons next after =>
      have other : next.terminal ≠ .caret := stops_not stops (by decide)
      simp only [bind, Except.bind, other, if_false]
      rfl
  | power base caret isCaret exponent =>
    have first := phrase_read base (caret :: (exponent.tokens ++ rest))
      (stops_cons isCaret (by decide))
    have second := phrase_read exponent rest stops
    simp only [readPhrase] at first second ⊢
    simp only [Phrase.tokens, List.append_assoc, List.cons_append]
    rw [read_exponent_eq, first]
    simp only [bind, Except.bind, isCaret, if_true, second]
    rfl
  | signed sign operator signs operand =>
    have first := phrase_read operand rest stops
    simp only [readPhrase] at first ⊢
    rw [Phrase.tokens, List.cons_append, read_unary_eq]
    simp only [prefix_operator_iff.mpr signs, first]
    rfl
  | unsigned operand => exact phrase_read operand rest stops
  | callEmpty callee name isName opening isOpening closing isClosing =>
    have plain : prefixOperator? callee.terminal = none := by
      rw [isName]
      rfl
    rw [readPhrase, Phrase.tokens, List.cons_append, read_unary_plain plain, read_primary_eq]
    simp only [isName, isOpening, if_true, List.cons_append, List.nil_append, read_call_eq,
      isClosing]
    rfl
  | call callee name isName opening isOpening args closing isClosing =>
    have listed := arguments_read args closing rest isClosing
    obtain ⟨first, more, tokens, opens⟩ := arguments_open args
    have notClosing : first.terminal ≠ .rightParen :=
      fun isClosing => closing_not_opens isClosing opens
    rw [tokens, List.cons_append] at listed
    have plain : prefixOperator? callee.terminal = none := by
      rw [isName]
      rfl
    rw [readPhrase, Phrase.tokens, List.cons_append, read_unary_plain plain, read_primary_eq]
    simp only [isName, isOpening, if_true, List.cons_append, List.append_assoc, List.nil_append,
      tokens, read_call_eq, notClosing, if_false, listed]
    rfl
  | simple operand => exact phrase_read operand rest stops
  | literal token value denotes =>
    rw [readPhrase, Phrase.tokens, List.cons_append, List.nil_append]
    exact read_literal (.eof eof) token value denotes rest
  | name token name isName =>
    have plain : prefixOperator? token.terminal = none := by
      rw [isName]
      rfl
    rw [readPhrase, Phrase.tokens, List.cons_append, read_unary_plain plain, read_primary_eq]
    simp only [isName, List.nil_append]
    cases rest with
    | nil => rfl
    | cons next after =>
      have other : next.terminal ≠ .leftParen := stops_not stops (by decide)
      simp only [other, if_false]
      rfl
  | group opening isOpening inner closing isClosing =>
    have first := phrase_read inner (closing :: rest) (stops_cons isClosing (by decide))
    simp only [readPhrase] at first ⊢
    have plain : prefixOperator? opening.terminal = none := by
      rw [isOpening]
      rfl
    rw [Phrase.tokens, List.cons_append, read_unary_plain plain, read_primary_eq]
    simp only [isOpening, List.append_assoc, List.cons_append, List.nil_append, first, bind,
      Except.bind, isClosing, if_true]
    rfl

theorem tail_read {level : Level} (tail : Tail level) (left : Expr) (rest : List Token)
    (stops : Stops (.chain level) rest) :
    readTail (.eof eof) level left (tail.tokens ++ rest) = .ok (tail.join left, rest) := by
  match tail with
  | .nil =>
    rw [read_tail_eq, Tail.tokens, List.nil_append]
    cases rest with
    | nil => rfl
    | cons next after =>
      cases joins : level.operator? next.terminal with
      | none =>
        simp only [joins]
        rfl
      | some operator =>
        have bonds := joins_bond (operator_iff.mp joins)
        exact (stops_absurd stops rfl rfl (Nat.le_of_eq bonds.symm)).elim
  | .cons token operator joins right more =>
    have operand := phrase_read right (more.tokens ++ rest) (tail_stops more stops)
    have later := tail_read more (operator.node left right.tree) rest stops
    rw [read_tail_eq, Tail.tokens, List.cons_append, List.append_assoc]
    simp only [operator_iff.mpr joins, read_operand_phrase, operand]
    exact later

theorem arguments_read (args : Arguments) (closing : Token) (rest : List Token)
    (isClosing : closing.terminal = .rightParen) :
    readArguments (.eof eof) (args.tokens ++ closing :: rest) =
      .ok (args.trees, closing, rest) := by
  match args with
  | .last arg =>
    have first := phrase_read arg (closing :: rest) (stops_cons isClosing (by decide))
    simp only [readPhrase] at first
    rw [read_arguments_eq, Arguments.tokens, first]
    simp only [bind, Except.bind, isClosing, if_true]
    rfl
  | .more arg comma isComma more =>
    have first := phrase_read arg (comma :: (more.tokens ++ closing :: rest))
      (stops_cons isComma (by decide))
    have later := arguments_read more closing rest isClosing
    simp only [readPhrase] at first
    simp only [Arguments.tokens, List.append_assoc, List.cons_append]
    rw [read_arguments_eq, first]
    simp only [bind, Except.bind, isComma, if_true, later]
    rfl

end

end Completeness

theorem complete_ok_iff (lexed : Lexer.Lexed) (e : Expr) :
    complete lexed = .ok e ↔ ∃ eof, lexed.ending = .eof eof ∧
      ∃ p : Phrase .expression, p.tokens = lexed.tokens ∧ p.tree = e := by
  rw [complete_eq]
  constructor
  · intro ok
    obtain ⟨⟨e, rest⟩, read, ok⟩ := bind_ok ok
    obtain ⟨p, tokens, rfl⟩ := expression_derives lexed.ending lexed.tokens e rest read
    cases rest with
    | cons next rest => cases ok
    | nil =>
      obtain ⟨eof, ending, ok⟩ := bind_ok ok
      cases ok
      rw [List.append_nil] at tokens
      cases at_ : lexed.ending with
      | eof token => exact ⟨token, rfl, p, tokens, rfl⟩
      | fault e =>
        rw [at_] at ending
        cases ending
  · rintro ⟨eof, ending, p, tokens, rfl⟩
    have read := phrase_read eof p [] (stops_nil _)
    rw [List.append_nil, tokens] at read
    simp only [readPhrase] at read
    rw [ending, read]
    rfl

end Formula.Parser

namespace Formula

open Grammar

/-- A source is accepted exactly if its tokens are those of a derivation, whose tree is the result.
No tokens have two derivations, and a tree has the tokens of its derivation, in their order. -/
theorem parse_accepts_grammar (source : String) :
    (∀ e, parse source = .ok e ↔
      ∃ eof : Token, eof.isEof = true ∧ ∃ p : Phrase .expression,
        Lexer.tokens source = .ok (p.tokens ++ [eof]) ∧ p.tree = e) ∧
    (∀ p q : Phrase .expression, p.tokens = q.tokens → p = q) ∧
    ∀ p : Phrase .expression, p.tree.terminals = p.tokens.map Token.terminal := by
  refine ⟨?_, ?_, phrase_terminals⟩
  · intro e
    rw [parse, Parser.complete_ok_iff]
    constructor
    · rintro ⟨eof, ending, p, tokens, tree⟩
      refine ⟨.eofAt source.utf8ByteSize, rfl, p, Lexer.tokens_ok_iff.mpr ⟨?_, by rw [tokens]⟩, tree⟩
      rw [ending, Lexer.lex_ending ending]
    · rintro ⟨eof, _, p, read, tree⟩
      obtain ⟨ending, tokens⟩ := Lexer.tokens_ok_iff.mp read
      exact ⟨_, ending, p, (List.append_inj_left' tokens rfl).symm, tree⟩
  · intro p q same
    exact (phrase_unique p q [] [] (by rw [same]) (stops_nil _) (stops_nil _)).1

end Formula
