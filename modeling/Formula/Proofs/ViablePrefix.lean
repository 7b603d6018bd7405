import Formula.Proofs.LookAhead
import Mathlib.Data.List.TakeWhile

set_option autoImplicit false

namespace Formula.Parser

open Grammar
open Lexer (Ending Lexed)

def Viable (n : Nonterminal) (front : List Token) : Prop := ∃ p : Phrase n, front <+: p.tokens

def ViableTail (level : Level) (front : List Token) : Prop :=
  ∃ tail : Tail level, front <+: tail.tokens

def ViableArguments (front : List Token) : Prop := ∃ args : Arguments, front <+: args.tokens

def someName : Phrase .primary := .name ⟨.identifier "x", "x", ⟨0, 1⟩⟩ "x" rfl

def someColon : Token := ⟨.colon, ":", ⟨0, 1⟩⟩

def someClosing : Token := ⟨.rightParen, ")", ⟨0, 1⟩⟩

theorem some_phrase (n : Nonterminal) : Nonempty (Phrase n) := by
  let unary : Phrase .unary := .unsigned (.simple someName)
  let multiplicative : Phrase (.chain .multiplicative) := .chain (.base unary) .nil
  let additive : Phrase (.chain .additive) := .chain multiplicative .nil
  let equality : Phrase (.chain .equality) := .chain additive .nil
  let logical : Phrase (.chain .logical) := .chain equality .nil
  cases n with
  | expression => exact ⟨.plain logical⟩
  | chain level =>
    cases level with
    | logical => exact ⟨logical⟩
    | equality => exact ⟨equality⟩
    | additive => exact ⟨additive⟩
    | multiplicative => exact ⟨multiplicative⟩
  | exponent => exact ⟨.base unary⟩
  | unary => exact ⟨unary⟩
  | call => exact ⟨.simple someName⟩
  | primary => exact ⟨someName⟩

theorem viable_nil (n : Nonterminal) : Viable n [] := by
  obtain ⟨p⟩ := some_phrase n
  exact ⟨p, List.nil_prefix⟩

theorem viable_whole {n : Nonterminal} (p : Phrase n) : Viable n p.tokens := ⟨p, List.prefix_rfl⟩

theorem viable_tail_nil (level : Level) : ViableTail level [] := ⟨.nil, List.nil_prefix⟩

theorem viable_arguments_nil : ViableArguments [] := by
  obtain ⟨p⟩ := some_phrase .expression
  exact ⟨.last p, List.nil_prefix⟩

-- How the front of a part makes a front of the whole: what stands before the part is there, and
-- what has to follow it can be had.
section

variable {front : List Token}

theorem viable_condition (viable : Viable (.chain .logical) front) : Viable .expression front := by
  obtain ⟨p, part⟩ := viable
  exact ⟨.plain p, part⟩

theorem viable_when_true (condition : Phrase (.chain .logical)) {question : Token}
    (isQuestion : question.terminal = .question) (viable : Viable .expression front) :
    Viable .expression (condition.tokens ++ question :: front) := by
  obtain ⟨q, part⟩ := viable
  obtain ⟨r⟩ := some_phrase .expression
  refine ⟨.ternary condition question isQuestion q someColon rfl r, ?_⟩
  simp only [Phrase.tokens, List.prefix_append_right_inj, List.cons_prefix_cons, true_and]
  exact part.trans (List.prefix_append _ _)

theorem viable_when_false (condition : Phrase (.chain .logical)) {question : Token}
    (isQuestion : question.terminal = .question) (whenTrue : Phrase .expression) {colon : Token}
    (isColon : colon.terminal = .colon) (viable : Viable .expression front) :
    Viable .expression
      (condition.tokens ++ question :: (whenTrue.tokens ++ colon :: front)) := by
  obtain ⟨r, part⟩ := viable
  refine ⟨.ternary condition question isQuestion whenTrue colon isColon r, ?_⟩
  simp only [Phrase.tokens, List.prefix_append_right_inj, List.cons_prefix_cons, true_and]
  exact part

theorem viable_first {level : Level} (viable : Viable (operands level) front) :
    Viable (.chain level) front := by
  obtain ⟨p, part⟩ := viable
  exact ⟨.chain p .nil, part.trans (List.prefix_append _ _)⟩

theorem viable_behind {level : Level} (first : Phrase (operands level))
    (viable : ViableTail level front) : Viable (.chain level) (first.tokens ++ front) := by
  obtain ⟨tail, part⟩ := viable
  refine ⟨.chain first tail, ?_⟩
  simp only [Phrase.tokens, List.prefix_append_right_inj]
  exact part

theorem viable_operand {level : Level} {token : Token} {operator : Infix}
    (joins : Joins level token.terminal operator) (viable : Viable (operands level) front) :
    ViableTail level (token :: front) := by
  obtain ⟨p, part⟩ := viable
  refine ⟨.cons token operator joins p .nil, ?_⟩
  simp only [Tail.tokens, List.cons_prefix_cons, true_and]
  exact part.trans (List.prefix_append _ _)

theorem viable_onward {level : Level} {token : Token} {operator : Infix}
    (joins : Joins level token.terminal operator) (right : Phrase (operands level))
    (viable : ViableTail level front) : ViableTail level (token :: (right.tokens ++ front)) := by
  obtain ⟨tail, part⟩ := viable
  refine ⟨.cons token operator joins right tail, ?_⟩
  simp only [Tail.tokens, List.cons_prefix_cons, List.prefix_append_right_inj, true_and]
  exact part

theorem viable_base (viable : Viable .unary front) : Viable .exponent front := by
  obtain ⟨p, part⟩ := viable
  exact ⟨.base p, part⟩

theorem viable_power (base : Phrase .unary) {caret : Token} (isCaret : caret.terminal = .caret)
    (viable : Viable .exponent front) : Viable .exponent (base.tokens ++ caret :: front) := by
  obtain ⟨p, part⟩ := viable
  refine ⟨.power base caret isCaret p, ?_⟩
  simp only [Phrase.tokens, List.prefix_append_right_inj, List.cons_prefix_cons, true_and]
  exact part

theorem viable_signed {sign : Token} {operator : UnaryOp} (signs : Signs sign.terminal operator)
    (viable : Viable .unary front) : Viable .unary (sign :: front) := by
  obtain ⟨p, part⟩ := viable
  refine ⟨.signed sign operator signs p, ?_⟩
  simp only [Phrase.tokens, List.cons_prefix_cons, true_and]
  exact part

theorem viable_group {opening : Token} (isOpening : opening.terminal = .leftParen)
    (viable : Viable .expression front) : Viable .unary (opening :: front) := by
  obtain ⟨p, part⟩ := viable
  refine ⟨.unsigned (.simple (.group opening isOpening p someClosing rfl)), ?_⟩
  simp only [Phrase.tokens, List.cons_prefix_cons, true_and]
  exact part.trans (List.prefix_append _ _)

theorem viable_call {callee : Token} {name : String} (isName : callee.terminal = .identifier name)
    {opening : Token} (isOpening : opening.terminal = .leftParen)
    (viable : ViableArguments front) : Viable .unary (callee :: opening :: front) := by
  obtain ⟨args, part⟩ := viable
  refine ⟨.unsigned (.call callee name isName opening isOpening args someClosing rfl), ?_⟩
  simp only [Phrase.tokens, List.cons_prefix_cons, true_and]
  exact part.trans (List.prefix_append _ _)

theorem viable_last (viable : Viable .expression front) : ViableArguments front := by
  obtain ⟨p, part⟩ := viable
  exact ⟨.last p, part⟩

theorem viable_more (arg : Phrase .expression) {comma : Token} (isComma : comma.terminal = .comma)
    (viable : ViableArguments front) : ViableArguments (arg.tokens ++ comma :: front) := by
  obtain ⟨args, part⟩ := viable
  refine ⟨.more arg comma isComma args, ?_⟩
  simp only [Arguments.tokens, List.prefix_append_right_inj, List.cons_prefix_cons, true_and]
  exact part

end

section

variable (ending : Ending)

def bracketed (read : List Expr × Token × List Token) : (List Expr × Token) × List Token :=
  ((read.1, read.2.1), read.2.2)

theorem bind_bracketed {β : Type} (read : Result (List Expr × Token × List Token))
    (next : List Expr × Token × List Token → Result β) :
    read >>= next =
      (bracketed <$> read) >>= fun (result, rest) => next (result.1, result.2, rest) := by
  cases read <;> rfl

theorem same_front {ts front middle rest : List Token} (split : front ++ rest = ts)
    (tokens : middle ++ rest = ts) : front = middle :=
  List.append_cancel_right (split.trans tokens.symm)

mutual

theorem expression_predictive (ts : List Token) :
    Predictive readExpression (Viable .expression) ending ts := by
  rw [show readExpression = _ from funext fun ending => funext (read_expression_eq ending)]
  refine .bind ((chain_predictive .logical ts).mono fun _ => viable_condition) ?_
  intro condition behind front first split
  obtain ⟨p, tokens, -⟩ := chain_derives ending .logical ts condition behind first
  obtain rfl := same_front split tokens
  have shorter := behind_shorter tokens
  have whole : Viable .expression p.tokens := viable_condition (viable_whole p)
  cases behind with
  | nil => exact .stops_at_end rfl (by simpa using whole)
  | cons question after =>
    by_cases isQuestion : question.terminal = .question
    · simp only [List.length_cons] at shorter
      refine .accepts (fun _ _ => if_pos isQuestion) ?_
      refine .bind ((expression_predictive after).mono fun _ => viable_when_true p isQuestion) ?_
      intro whenTrue behind front second split
      obtain ⟨q, branch, -⟩ := expression_derives ending after whenTrue behind second
      obtain rfl := same_front split branch
      have shorter := behind_shorter branch
      have branches := viable_when_true p isQuestion (viable_whole q)
      cases behind with
      | nil => exact .refuses_at_end rfl (fun _ => .malformedTernary) (by simpa using branches)
      | cons colon after =>
        by_cases isColon : colon.terminal = .colon
        · simp only [List.length_cons] at shorter
          refine .accepts (fun _ _ => if_pos isColon) ?_
          refine .bind ((expression_predictive after).mono fun _ viable => ?_) ?_
          · exact viable_when_false p isQuestion q isColon viable
          · exact fun _ _ _ _ _ => .returns _ fun _ _ => rfl
        · exact .refuses (fun _ _ => if_neg isColon) .malformedTernary (by simpa using branches)
    · exact .stops fun _ _ => if_neg isQuestion
termination_by ts.length * 13 + 11

theorem chain_predictive (level : Level) (ts : List Token) :
    Predictive (fun ending => readChain ending level) (Viable (.chain level)) ending ts := by
  rw [show (fun ending => readChain ending level) = _ from
    funext fun ending => funext (read_chain_eq ending level)]
  refine .bind ((operand_predictive level ts).mono fun _ => viable_first) ?_
  intro left behind front first split
  obtain ⟨p, tokens, -⟩ := operand_derives ending level ts left behind first
  obtain rfl := same_front split tokens
  have shorter := behind_shorter tokens
  exact (tail_predictive level left behind).mono fun _ => viable_behind p
termination_by ts.length * 13 + 2 * level.rank + 2

theorem tail_predictive (level : Level) (left : Expr) (ts : List Token) :
    Predictive (fun ending => readTail ending level left) (ViableTail level) ending ts := by
  cases ts with
  | nil => exact .stops_at_end (read_tail_eq ending level left []) (viable_tail_nil level)
  | cons next after =>
    cases joins : level.operator? next.terminal with
    | none => exact .stops fun ending => read_tail_done ending joins left
    | some operator =>
      have joined := operator_iff.mp joins
      have bounded := rank_bounded level
      have shorter : after.length < (next :: after).length := Nat.lt_succ_self _
      refine .accepts (fun ending => read_tail_joined ending joins left) ?_
      refine .bind ((operand_predictive level after).mono fun _ => viable_operand joined) ?_
      intro right behind front operand split
      obtain ⟨p, tokens, -⟩ := operand_derives ending level after right behind operand
      obtain rfl := same_front split tokens
      have shorterTail := behind_shorter tokens
      exact (tail_predictive level _ behind).mono fun _ => viable_onward joined p
termination_by ts.length * 13

theorem operand_predictive (level : Level) (ts : List Token) :
    Predictive (fun ending => readOperand ending level) (Viable (operands level)) ending ts := by
  rw [show (fun ending => readOperand ending level) = _ from
    funext fun ending => funext (read_operand_eq ending level)]
  cases level with
  | logical => exact chain_predictive .equality ts
  | equality => exact chain_predictive .additive ts
  | additive => exact chain_predictive .multiplicative ts
  | multiplicative => exact exponent_predictive ts
termination_by ts.length * 13 + 2 * level.rank + 1

theorem exponent_predictive (ts : List Token) :
    Predictive readExponent (Viable .exponent) ending ts := by
  rw [show readExponent = _ from funext fun ending => funext (read_exponent_eq ending)]
  refine .bind ((unary_predictive ts).mono fun _ => viable_base) ?_
  intro base behind front first split
  obtain ⟨p, tokens, -⟩ := unary_derives ending ts base behind first
  obtain rfl := same_front split tokens
  have shorter := behind_shorter tokens
  have whole : Viable .exponent p.tokens := viable_base (viable_whole p)
  cases behind with
  | nil => exact .stops_at_end rfl (by simpa using whole)
  | cons caret after =>
    by_cases isCaret : caret.terminal = .caret
    · simp only [List.length_cons] at shorter
      refine .accepts (fun _ _ => if_pos isCaret) ?_
      refine .bind ((exponent_predictive after).mono fun _ => viable_power p isCaret) ?_
      exact fun _ _ _ _ _ => .returns _ fun _ _ => rfl
    · exact .stops fun _ _ => if_neg isCaret
termination_by ts.length * 13 + 2

theorem unary_predictive (ts : List Token) :
    Predictive readUnary (Viable .unary) ending ts := by
  cases ts with
  | nil =>
    exact .refuses_at_end (read_unary_eq ending []) (fun _ => .expectedExpression) (viable_nil .unary)
  | cons next after =>
    have shorter : after.length < (next :: after).length := Nat.lt_succ_self _
    cases sign : prefixOperator? next.terminal with
    | none => exact primary_predictive next sign after
    | some operator =>
      have signs := prefix_operator_iff.mp sign
      refine .accepts (fun ending => read_unary_signed ending sign) ?_
      refine .bind ((unary_predictive after).mono fun _ => viable_signed signs) ?_
      exact fun _ _ _ _ _ => .returns _ fun _ _ => rfl
termination_by ts.length * 13 + 1

theorem primary_predictive (next : Token) (plain : prefixOperator? next.terminal = none)
    (ts : List Token) : Predictive readUnary (Viable .unary) ending (next :: ts) := by
  have opens (ending : Ending) (ts : List Token) :=
    (@read_unary_plain ending _ plain ts).trans (read_primary_eq ending next ts)
  cases is : next.terminal with
  | number | string | boolean =>
    simp only [is] at opens
    exact .accepts opens (.returns _ fun _ _ => rfl)
  | identifier name =>
    simp only [is] at opens
    refine .accepts opens ?_
    have named : Viable .unary [next] := ⟨.unsigned (.simple (.name next name is)), List.prefix_rfl⟩
    cases ts with
    | nil => exact .stops_at_end rfl named
    | cons opening after =>
      by_cases isOpening : opening.terminal = .leftParen
      · refine .accepts (fun _ _ => (if_pos isOpening).trans (bind_bracketed _ _)) ?_
        refine .bind ((call_predictive after).mono fun _ => viable_call is isOpening) ?_
        rintro ⟨args, closing⟩ behind - - -
        exact .returns (.call name args (next.span.cover closing.span)) fun _ _ => rfl
      · exact .stops fun _ _ => if_neg isOpening
  | leftParen =>
    simp only [is] at opens
    refine .accepts opens ?_
    refine .bind ((expression_predictive ts).mono fun _ => viable_group is) ?_
    intro inner behind front first split
    obtain ⟨p, tokens, -⟩ := expression_derives ending ts inner behind first
    obtain rfl := same_front split tokens
    have whole : Viable .unary (next :: p.tokens) := viable_group is (viable_whole p)
    cases behind with
    | nil =>
      exact .refuses_at_end rfl (fun _ => .missingClosingParen "expression") (by simpa using whole)
    | cons closing after =>
      by_cases isClosing : closing.terminal = .rightParen
      · exact .accepts (fun _ _ => if_pos isClosing)
          (.returns (.group inner (next.span.cover closing.span)) fun _ _ => rfl)
      · exact .refuses (fun _ _ => if_neg isClosing) (.missingClosingParen "expression")
          (by simpa using whole)
  | _ =>
    simp only [is] at opens
    exact .refuses opens .expectedExpression (viable_nil .unary)
termination_by (ts.length + 1) * 13

theorem call_predictive (ts : List Token) :
    Predictive (fun ending ts => bracketed <$> readCall ending ts) ViableArguments ending ts := by
  rw [show readCall = _ from funext fun ending => funext (read_call_eq ending)]
  cases ts with
  | nil =>
    refine .refuses_at_end ?_ (fun _ => .expectedExpression) viable_arguments_nil
    cases ending <;> rfl
  | cons next after =>
    by_cases isClosing : next.terminal = .rightParen
    · exact .accepts (fun _ _ => congrArg (bracketed <$> ·) (if_pos isClosing))
        (.returns ([], next) fun _ _ => rfl)
    · exact (arguments_predictive (next :: after)).agrees fun _ _ =>
        congrArg (bracketed <$> ·) (if_neg isClosing)
termination_by ts.length * 13 + 13

theorem arguments_predictive (ts : List Token) :
    Predictive (fun ending ts => bracketed <$> readArguments ending ts) ViableArguments ending ts := by
  rw [show (fun ending ts => bracketed <$> readArguments ending ts) = _ from
    funext fun ending => funext fun ts =>
      (congrArg (bracketed <$> ·) (read_arguments_eq ending ts)).trans (map_bind ..)]
  refine .bind ((expression_predictive ts).mono fun _ => viable_last) ?_
  intro arg behind front first split
  obtain ⟨p, tokens, -⟩ := expression_derives ending ts arg behind first
  obtain rfl := same_front split tokens
  have shorter := behind_shorter tokens
  have whole : ViableArguments p.tokens := viable_last (viable_whole p)
  cases behind with
  | nil =>
    refine .refuses_at_end ?_ (fun _ => .missingClosingParen "arguments") (by simpa using whole)
    cases ending <;> rfl
  | cons next after =>
    by_cases isComma : next.terminal = .comma
    · simp only [List.length_cons] at shorter
      refine .accepts (fun _ _ => (congrArg (bracketed <$> ·) (if_pos isComma)).trans
        ((map_bind ..).trans (bind_bracketed _ _))) ?_
      refine .bind ((arguments_predictive after).mono fun _ => viable_more p isComma) ?_
      rintro ⟨args, closing⟩ behind - - -
      exact .returns (arg :: args, closing) fun _ _ => rfl
    · by_cases isClosing : next.terminal = .rightParen
      · exact .accepts (fun _ _ => congrArg (bracketed <$> ·)
          ((if_neg isComma).trans (if_pos isClosing))) (.returns ([arg], next) fun _ _ => rfl)
      · exact .refuses (fun _ _ => congrArg (bracketed <$> ·)
          ((if_neg isComma).trans (if_neg isClosing))) (.missingClosingParen "arguments")
          (by simpa using whole)
termination_by ts.length * 13 + 12

end

end

def readFormula : Reader Expr := fun ending ts =>
  readExpression ending ts >>= fun (e, rest) =>
    match rest with
    | [] => ending.token >>= fun _ => .ok (e, [])
    | next :: _ => .error (.failed (mismatch .unexpectedToken next))

theorem complete_read (lexed : Lexed) :
    complete lexed = Prod.fst <$> readFormula lexed.ending lexed.tokens := by
  rw [complete_eq, readFormula]
  cases readExpression lexed.ending lexed.tokens with
  | error e => rfl
  | ok result =>
    obtain ⟨e, rest⟩ := result
    cases rest with
    | nil => cases lexed.ending <;> rfl
    | cons next rest => rfl

theorem formula_predictive (ending : Ending) (ts : List Token) :
    Predictive readFormula (Viable .expression) ending ts := by
  refine .bind (expression_predictive ending ts) ?_
  intro e behind front first split
  obtain ⟨p, tokens, -⟩ := expression_derives ending ts e behind first
  obtain rfl := same_front split tokens
  have whole : Viable .expression p.tokens := viable_whole p
  cases behind with
  | nil => exact .stops_at_end rfl (by simpa using whole)
  | cons next after => exact .refuses (fun _ _ => rfl) .unexpectedToken (by simpa using whole)

theorem complete_stuck {lexed : Lexed} {stop : Stop Error}
    (failed : complete lexed = .error stop) :
    Stuck readFormula (Viable .expression) lexed.ending lexed.tokens stop := by
  apply (formula_predictive lexed.ending lexed.tokens).stuck
  rw [complete_read] at failed
  cases read : readFormula lexed.ending lexed.tokens with
  | error f =>
    rw [read] at failed
    cases failed
    rfl
  | ok result =>
    rw [read] at failed
    cases failed

end Formula.Parser

namespace Formula

open Grammar Formula.Parser

namespace Lexer

def Lexed.stream (lexed : Lexed) : List Token :=
  match lexed.ending with
  | .eof eof => lexed.tokens ++ [eof]
  | .fault _ => lexed.tokens

theorem tokens_stream (lexed : Lexed) : lexed.tokens <+: lexed.stream := by
  unfold Lexed.stream
  cases lexed.ending with
  | eof eof => exact List.prefix_append _ _
  | fault e => exact List.prefix_rfl

theorem stream_prefix {source : String} {front : List Token} {t : Token}
    (here : front ++ [t] <+: (lex source).stream) :
    (t.isEof = false ∧ front ++ [t] <+: (lex source).tokens) ∨
      (t.isEof = true ∧ lex source = ⟨front, .eof t⟩) := by
  have inside (part : front ++ [t] <+: (lex source).tokens) :
      t.isEof = false ∧ front ++ [t] <+: (lex source).tokens :=
    ⟨lexed_more (part.subset (by simp)), part⟩
  unfold Lexed.stream at here
  cases ends : (lex source).ending with
  | fault e =>
    rw [ends] at here
    exact .inl (inside here)
  | eof eof =>
    rw [ends] at here
    rcases List.prefix_concat_iff.mp here with whole | part
    · obtain ⟨rfl, last⟩ := List.append_inj' whole rfl
      obtain rfl := List.singleton_inj.mp last
      rw [← ends]
      exact .inr ⟨by rw [lex_ending ends]; rfl, rfl⟩
    · exact .inl (inside part)

end Lexer

open Lexer

theorem refused_inside {front : List Token} {t : Token} {stop : Stop Error}
    (steady : ∀ ending behind, readFormula ending (front ++ t :: behind) = .error stop)
    (p : Phrase .expression) : ¬ front ++ [t] <+: p.tokens := by
  rintro ⟨behind, tokens⟩
  rw [List.append_assoc, List.singleton_append] at tokens
  have ok := (complete_ok_iff ⟨p.tokens, .eof (.eofAt 0)⟩ p.tree).mpr ⟨_, rfl, p, rfl, rfl⟩
  rw [complete_read] at ok
  simp only [← tokens, steady] at ok
  cases ok

theorem panic_lexed {source : String} (panics : parse source = .error .panicked) :
    (lex source).ending = .fault .panicked ∧ Viable .expression (lex source).tokens := by
  cases complete_stuck panics with
  | lexical fault before => exact ⟨fault, before⟩
  | atEnd eof ends before blames => cases blames
  | atToken front t behind split before blames steady => cases blames

/-- The error of a source that does not parse is reported at its first token that cannot stand where
it stands: the tokens before it are the start of a formula, and together with it they are not. An
error of the lexer is reported only if all tokens before it are the start of a formula. What is
behind the token does not matter: a source with the same tokens up to it fails in the same way. -/
theorem error_at_first_offender {source : String} {e : Error}
    (failed : parse source = .error (.failed e)) :
    ∃ front, Viable .expression front ∧
      ((e.category = .lexical ∧ (lex source).ending = .fault (.failed e) ∧ front = (lex source).tokens) ∨
        (e.category = .parse ∧ ∃ t, Blames t (.failed e) ∧ front ++ [t] <+: (lex source).stream ∧
          (t.isEof = false → ∀ p : Phrase .expression, ¬ front ++ [t] <+: p.tokens) ∧
          (t.isEof = true → ∀ p : Phrase .expression, p.tokens ≠ front) ∧
          ∀ other, front ++ [t] <+: (lex other).stream → parse other = .error (.failed e))) := by
  cases complete_stuck failed with
  | lexical fault before =>
    exact ⟨_, before, .inl ⟨(lex_fault fault).1, fault, rfl⟩⟩
  | atEnd eof ends before blames =>
    have last : eof.isEof = true := by rw [lex_ending ends]; rfl
    have stream : (lex source).stream = (lex source).tokens ++ [eof] := by
      rw [Lexed.stream, ends]
    refine ⟨_, before, .inr ⟨blames_parse blames, eof, blames, ?_, ?_, ?_, ?_⟩⟩
    · exact stream ▸ List.prefix_rfl
    · intro more
      rw [last] at more
      cases more
    · intro _ p same
      have ok := (complete_ok_iff (lex source) p.tree).mpr ⟨eof, ends, p, same, rfl⟩
      rw [parse, ok] at failed
      cases failed
    · intro other here
      rcases stream_prefix here with ⟨more, -⟩ | ⟨-, same⟩
      · rw [last] at more
        cases more
      · rw [parse, same, ← ends]
        exact failed
  | atToken front t behind split before blames steady =>
    have part : front ++ [t] <+: (lex source).tokens := ⟨behind, by rw [← split]; simp⟩
    have more : t.isEof = false := lexed_more (part.subset (by simp))
    refine ⟨front, before, .inr ⟨blames_parse blames, t, blames,
      part.trans (tokens_stream _), fun _ => refused_inside steady, ?_, ?_⟩⟩
    · intro last
      rw [last] at more
      cases more
    · intro other here
      rcases stream_prefix here with ⟨-, after, tokens⟩ | ⟨last, -⟩
      · rw [List.append_assoc, List.singleton_append] at tokens
        rw [parse, complete_read, ← tokens, steady]
        rfl
      · rw [last] at more
        cases more

theorem error_at_first_offender_of_arguments :
    let e := mismatch (.missingClosingParen "arguments") ⟨.number ⟨3, 0⟩, "3", ⟨7, 8⟩⟩
    parse "f(1, 2 3 $" = .error (.failed e) ∧
      ∃ front t, t.span = ⟨7, 8⟩ ∧ Viable .expression front ∧
        (t.isEof = false → ∀ p : Phrase .expression, ¬ front ++ [t] <+: p.tokens) := by
  intro e
  have failed : parse "f(1, 2 3 $" = .error (.failed e) := by
    have shown : (parse "f(1, 2 3 $").map (fun _ => ()) = .error (.failed e) := by
      decide +kernel
    cases parsed : parse "f(1, 2 3 $" with
    | ok tree =>
      rw [parsed] at shown
      cases shown
    | error stop =>
      rw [parsed] at shown
      exact congrArg Except.error (Except.error.inj shown)
  refine ⟨failed, ?_⟩
  obtain ⟨front, viable, ⟨lexical, -⟩ | ⟨-, t, blames, -, refused, -⟩⟩ :=
    error_at_first_offender failed
  · cases lexical
  · refine ⟨front, t, ?_, viable, refused⟩
    have place (e : Error) (blames : Blames t (.failed e)) : e.span = some t.span := by
      cases blames <;> rfl
    exact (Option.some.inj (place _ blames)).symm

end Formula
