import Formula.Expr.Parser

set_option autoImplicit false

namespace Formula.Grammar

open Formula.Parser (Level Infix)

inductive Nonterminal where
  | expression
  | chain (level : Level)
  | exponent
  | unary
  | call
  | primary
deriving DecidableEq

def operands : Level → Nonterminal
  | .logical => .chain .equality
  | .equality => .chain .additive
  | .additive => .chain .multiplicative
  | .multiplicative => .exponent

inductive Joins : Level → Terminal → Infix → Prop where
  | and : Joins .logical .and (.logical .and)
  | or : Joins .logical .or (.logical .or)
  | equal : Joins .equality .equalEqual (.binary .equal)
  | notEqual : Joins .equality .bangEqual (.binary .notEqual)
  | greater : Joins .equality .greater (.binary .greater)
  | greaterEqual : Joins .equality .greaterEqual (.binary .greaterEqual)
  | less : Joins .equality .less (.binary .less)
  | lessEqual : Joins .equality .lessEqual (.binary .lessEqual)
  | add : Joins .additive .plus (.binary .add)
  | subtract : Joins .additive .minus (.binary .subtract)
  | multiply : Joins .multiplicative .star (.binary .multiply)
  | divide : Joins .multiplicative .slash (.binary .divide)
  | remainder : Joins .multiplicative .percent (.binary .remainder)

inductive Signs : Terminal → UnaryOp → Prop where
  | plus : Signs .plus .plus
  | negate : Signs .minus .negate
  | not : Signs .bang .not

inductive Denotes : Terminal → Value → Prop where
  | number (d : Decimal) : Denotes (.number d) (.number d)
  | string (s : String) : Denotes (.string s) (.text s)
  | boolean (b : Bool) : Denotes (.boolean b) (.boolean b)

-- The derivations, one constructor for each production. A repetition is a flat list of operators
-- and operands: how it associates is decided by `Tail.join`, not by the shape of a derivation.
mutual

inductive Phrase : Nonterminal → Type where
  | plain (condition : Phrase (.chain .logical)) : Phrase .expression
  | ternary (condition : Phrase (.chain .logical))
      (question : Token) (isQuestion : question.terminal = .question)
      (whenTrue : Phrase .expression)
      (colon : Token) (isColon : colon.terminal = .colon)
      (whenFalse : Phrase .expression) : Phrase .expression
  | chain {level : Level} (first : Phrase (operands level)) (tail : Tail level) :
      Phrase (.chain level)
  | base (base : Phrase .unary) : Phrase .exponent
  | power (base : Phrase .unary) (caret : Token) (isCaret : caret.terminal = .caret)
      (exponent : Phrase .exponent) : Phrase .exponent
  | signed (sign : Token) (operator : UnaryOp) (signs : Signs sign.terminal operator)
      (operand : Phrase .unary) : Phrase .unary
  | unsigned (operand : Phrase .call) : Phrase .unary
  | callEmpty (callee : Token) (name : String) (isName : callee.terminal = .identifier name)
      (opening : Token) (isOpening : opening.terminal = .leftParen)
      (closing : Token) (isClosing : closing.terminal = .rightParen) : Phrase .call
  | call (callee : Token) (name : String) (isName : callee.terminal = .identifier name)
      (opening : Token) (isOpening : opening.terminal = .leftParen)
      (args : Arguments)
      (closing : Token) (isClosing : closing.terminal = .rightParen) : Phrase .call
  | simple (operand : Phrase .primary) : Phrase .call
  | literal (token : Token) (value : Value) (denotes : Denotes token.terminal value) :
      Phrase .primary
  | name (token : Token) (name : String) (isName : token.terminal = .identifier name) :
      Phrase .primary
  | group (opening : Token) (isOpening : opening.terminal = .leftParen)
      (inner : Phrase .expression)
      (closing : Token) (isClosing : closing.terminal = .rightParen) : Phrase .primary

inductive Tail : Level → Type where
  | nil {level : Level} : Tail level
  | cons {level : Level} (token : Token) (operator : Infix)
      (joins : Joins level token.terminal operator)
      (right : Phrase (operands level)) (tail : Tail level) : Tail level

inductive Arguments : Type where
  | last (arg : Phrase .expression) : Arguments
  | more (arg : Phrase .expression) (comma : Token) (isComma : comma.terminal = .comma)
      (args : Arguments) : Arguments

end

mutual

def Phrase.tokens {n : Nonterminal} : Phrase n → List Token
  | .plain condition => condition.tokens
  | .ternary condition question _ whenTrue colon _ whenFalse =>
    condition.tokens ++ question :: (whenTrue.tokens ++ colon :: whenFalse.tokens)
  | .chain first tail => first.tokens ++ tail.tokens
  | .base base => base.tokens
  | .power base caret _ exponent => base.tokens ++ caret :: exponent.tokens
  | .signed sign _ _ operand => sign :: operand.tokens
  | .unsigned operand => operand.tokens
  | .callEmpty callee _ _ opening _ closing _ => [callee, opening, closing]
  | .call callee _ _ opening _ args closing _ =>
    callee :: opening :: (args.tokens ++ [closing])
  | .simple operand => operand.tokens
  | .literal token _ _ => [token]
  | .name token _ _ => [token]
  | .group opening _ inner closing _ => opening :: (inner.tokens ++ [closing])

def Tail.tokens {level : Level} : Tail level → List Token
  | .nil => []
  | .cons token _ _ right tail => token :: (right.tokens ++ tail.tokens)

def Arguments.tokens : Arguments → List Token
  | .last arg => arg.tokens
  | .more arg comma _ args => arg.tokens ++ comma :: args.tokens

end

mutual

def Phrase.tree {n : Nonterminal} : Phrase n → Expr
  | .plain condition => condition.tree
  | .ternary condition _ _ whenTrue _ _ whenFalse =>
    .ternaryOf condition.tree whenTrue.tree whenFalse.tree
  | .chain first tail => tail.join first.tree
  | .base base => base.tree
  | .power base _ _ exponent => .binaryOf .power base.tree exponent.tree
  | .signed sign operator _ operand =>
    .unary operator operand.tree (sign.span.cover operand.tree.span)
  | .unsigned operand => operand.tree
  | .callEmpty callee name _ _ _ closing _ => .call name [] (callee.span.cover closing.span)
  | .call callee name _ _ _ args closing _ =>
    .call name args.trees (callee.span.cover closing.span)
  | .simple operand => operand.tree
  | .literal token value _ => .literal value token.span
  | .name token name _ => .name name token.span
  | .group opening _ inner closing _ => .group inner.tree (opening.span.cover closing.span)

def Tail.join {level : Level} : Tail level → Expr → Expr
  | .nil, left => left
  | .cons _ operator _ right tail, left => tail.join (operator.node left right.tree)

def Arguments.trees : Arguments → List Expr
  | .last arg => [arg.tree]
  | .more arg _ _ args => arg.tree :: args.trees

end

end Formula.Grammar

namespace Formula

def BinaryOp.terminal : BinaryOp → Terminal
  | .add => .plus
  | .subtract => .minus
  | .multiply => .star
  | .divide => .slash
  | .remainder => .percent
  | .power => .caret
  | .equal => .equalEqual
  | .notEqual => .bangEqual
  | .less => .less
  | .lessEqual => .lessEqual
  | .greater => .greater
  | .greaterEqual => .greaterEqual

def LogicalOp.terminal : LogicalOp → Terminal
  | .and => .and
  | .or => .or

def UnaryOp.terminal : UnaryOp → Terminal
  | .plus => .plus
  | .negate => .minus
  | .not => .bang

def Value.terminal : Value → Terminal
  | .number d => .number d
  | .text s => .string s
  | .boolean b => .boolean b

namespace Expr

mutual

def terminals : Expr → List Terminal
  | literal value _ => [value.terminal]
  | name n _ => [.identifier n]
  | group inner _ => .leftParen :: (terminals inner ++ [.rightParen])
  | unary operator operand _ => operator.terminal :: terminals operand
  | binary operator left right _ => terminals left ++ operator.terminal :: terminals right
  | logical operator left right _ => terminals left ++ operator.terminal :: terminals right
  | ternary condition whenTrue whenFalse _ =>
    terminals condition ++ .question :: (terminals whenTrue ++ .colon :: terminals whenFalse)
  | call n args _ => .identifier n :: .leftParen :: (terminalsOfAll args ++ [.rightParen])

def terminalsOfAll : List Expr → List Terminal
  | [] => []
  | [e] => terminals e
  | e :: es => terminals e ++ .comma :: terminalsOfAll es

end

theorem terminals_of_mem {e : Expr} {es : List Expr} (below : e ∈ es) {t : Terminal}
    (member : t ∈ e.terminals) : t ∈ terminalsOfAll es := by
  induction es with
  | nil => cases below
  | cons first es ih =>
    rcases List.mem_cons.mp below with rfl | later
    · cases es with
      | nil => exact member
      | cons next es => exact List.mem_append_left _ member
    · cases es with
      | nil => cases later
      | cons next es => exact List.mem_append_right _ (List.mem_cons_of_mem _ (ih later))

theorem child_terminals {e child : Expr} (below : child ∈ e.children) {t : Terminal}
    (member : t ∈ child.terminals) : t ∈ e.terminals := by
  cases e with
  | literal | name => cases below
  | group | unary =>
    cases List.mem_singleton.mp below
    simp [terminals, member]
  | binary | logical =>
    simp only [children, List.mem_cons, List.not_mem_nil, or_false] at below
    rcases below with rfl | rfl <;> simp [terminals, member]
  | ternary =>
    simp only [children, List.mem_cons, List.not_mem_nil, or_false] at below
    rcases below with rfl | rfl | rfl <;> simp [terminals, member]
  | call n args span =>
    have listed : t ∈ terminalsOfAll args := terminals_of_mem below member
    simp [terminals, listed]

theorem child_smaller {e child : Expr} (below : child ∈ e.children) : sizeOf child < sizeOf e := by
  cases e with
  | literal | name => cases below
  | group | unary =>
    cases List.mem_singleton.mp below
    simp only [group.sizeOf_spec, unary.sizeOf_spec]
    omega
  | binary | logical =>
    simp only [children, List.mem_cons, List.not_mem_nil, or_false] at below
    rcases below with rfl | rfl <;> simp only [binary.sizeOf_spec, logical.sizeOf_spec] <;> omega
  | ternary =>
    simp only [children, List.mem_cons, List.not_mem_nil, or_false] at below
    rcases below with rfl | rfl | rfl <;> simp only [ternary.sizeOf_spec] <;> omega
  | call n args span =>
    have smaller : sizeOf child < sizeOf args := List.sizeOf_lt_of_mem below
    simp only [call.sizeOf_spec]
    omega

theorem mem_nodes_of_all {n : Expr} {es : List Expr} :
    n ∈ nodesOfAll es ↔ ∃ e ∈ es, n ∈ e.nodes := by
  induction es with
  | nil => simp [nodesOfAll]
  | cons e es ih => simp [nodesOfAll, ih]

theorem mem_nodes {e n : Expr} :
    n ∈ e.nodes ↔ n = e ∨ ∃ child ∈ e.children, n ∈ child.nodes := by
  cases e <;> simp [nodes, children, mem_nodes_of_all]

theorem node_terminals (e : Expr) {n : Expr} (node : n ∈ e.nodes) {t : Terminal}
    (member : t ∈ n.terminals) : t ∈ e.terminals := by
  rcases mem_nodes.mp node with rfl | ⟨child, below, inside⟩
  · exact member
  · exact child_terminals below (node_terminals child inside member)
termination_by sizeOf e
decreasing_by exact child_smaller below

end Expr

namespace Grammar

open Formula.Parser (Level Infix)

theorem signs_terminal {t : Terminal} {operator : UnaryOp} (signs : Signs t operator) :
    operator.terminal = t := by
  cases signs <;> rfl

theorem denotes_terminal {t : Terminal} {value : Value} (denotes : Denotes t value) :
    value.terminal = t := by
  cases denotes <;> rfl

theorem joined_terminals {level : Level} {t : Terminal} {operator : Infix}
    (joins : Joins level t operator) (left right : Expr) :
    (operator.node left right).terminals = left.terminals ++ t :: right.terminals := by
  cases joins <;> rfl

theorem trees_nonempty (args : Arguments) : ∃ e es, args.trees = e :: es := by
  cases args with
  | last arg => exact ⟨arg.tree, [], rfl⟩
  | more arg comma isComma args => exact ⟨arg.tree, args.trees, rfl⟩

mutual

theorem phrase_terminals {n : Nonterminal} (p : Phrase n) :
    p.tree.terminals = p.tokens.map Token.terminal := by
  cases p with
  | plain condition => exact phrase_terminals condition
  | ternary condition question isQuestion whenTrue colon isColon whenFalse =>
    simp only [Phrase.tree, Expr.ternaryOf, Expr.terminals, Phrase.tokens, List.map_append,
      List.map_cons, isQuestion, isColon, phrase_terminals condition, phrase_terminals whenTrue,
      phrase_terminals whenFalse]
  | chain first tail =>
    rw [Phrase.tree, Phrase.tokens, tail_terminals tail, phrase_terminals first, List.map_append]
  | base base => exact phrase_terminals base
  | power base caret isCaret exponent =>
    simp only [Phrase.tree, Expr.binaryOf, Expr.terminals, BinaryOp.terminal, Phrase.tokens,
      List.map_append, List.map_cons, isCaret, phrase_terminals base, phrase_terminals exponent]
  | signed sign operator signs operand =>
    simp only [Phrase.tree, Expr.terminals, Phrase.tokens, List.map_cons, signs_terminal signs,
      phrase_terminals operand]
  | unsigned operand => exact phrase_terminals operand
  | callEmpty callee name isName opening isOpening closing isClosing =>
    simp only [Phrase.tree, Expr.terminals, Expr.terminalsOfAll, Phrase.tokens, List.map_cons,
      List.map_nil, List.nil_append, isName, isOpening, isClosing]
  | call callee name isName opening isOpening args closing isClosing =>
    simp only [Phrase.tree, Expr.terminals, Phrase.tokens, List.map_cons, List.map_append,
      List.map_nil, isName, isOpening, isClosing, arguments_terminals args]
  | simple operand => exact phrase_terminals operand
  | literal token value denotes =>
    simp only [Phrase.tree, Expr.terminals, Phrase.tokens, List.map_cons, List.map_nil,
      denotes_terminal denotes]
  | name token name isName =>
    simp only [Phrase.tree, Expr.terminals, Phrase.tokens, List.map_cons, List.map_nil, isName]
  | group opening isOpening inner closing isClosing =>
    simp only [Phrase.tree, Expr.terminals, Phrase.tokens, List.map_cons, List.map_append,
      List.map_nil, isOpening, isClosing, phrase_terminals inner]

theorem tail_terminals {level : Level} (tail : Tail level) (left : Expr) :
    (tail.join left).terminals = left.terminals ++ tail.tokens.map Token.terminal := by
  match tail with
  | .nil => simp only [Tail.join, Tail.tokens, List.map_nil, List.append_nil]
  | .cons token operator joins right rest =>
    have later := tail_terminals rest (operator.node left right.tree)
    have operand := phrase_terminals right
    rw [Tail.join, later, joined_terminals joins, operand]
    simp only [Tail.tokens, List.map_cons, List.map_append, List.append_assoc, List.cons_append]

theorem arguments_terminals (args : Arguments) :
    Expr.terminalsOfAll args.trees = args.tokens.map Token.terminal := by
  cases args with
  | last arg => exact phrase_terminals arg
  | more arg comma isComma args =>
    have later := arguments_terminals args
    obtain ⟨e, es, trees⟩ := trees_nonempty args
    rw [trees] at later
    simp only [Arguments.trees, trees, Expr.terminalsOfAll, later, phrase_terminals arg,
      Arguments.tokens, List.map_append, List.map_cons, isComma]

end

end Grammar

end Formula
