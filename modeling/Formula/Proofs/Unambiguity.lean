import Formula.Proofs.Grammar

set_option autoImplicit false

namespace Formula.Grammar

open Formula.Parser (Level Infix)

-- A phrase ends where the next token cannot go on with it. Every terminal that can go on with a
-- phrase has a bond, every nonterminal a tightness, and a phrase goes on over the bonds that are
-- not looser than it is tight. The bond of the opening parenthesis is that of a name before it.
def bond : Terminal → Nat
  | .question => 1
  | .and | .or => 2
  | .equalEqual | .bangEqual | .greater | .greaterEqual | .less | .lessEqual => 3
  | .plus | .minus => 4
  | .star | .slash | .percent => 5
  | .caret => 6
  | .leftParen => 7
  | _ => 0

def tightness : Nonterminal → Nat
  | .expression => 1
  | .chain .logical => 2
  | .chain .equality => 3
  | .chain .additive => 4
  | .chain .multiplicative => 5
  | .exponent => 6
  | .unary | .call | .primary => 7

def Stops (n : Nonterminal) (rest : List Token) : Prop :=
  ∀ next ∈ rest.head?, bond next.terminal < tightness n

theorem stops_nil (n : Nonterminal) : Stops n [] := by
  simp [Stops]

theorem stops_cons {n : Nonterminal} {next : Token} {rest : List Token} {t : Terminal}
    (terminal : next.terminal = t) (loose : bond t < tightness n) : Stops n (next :: rest) := by
  subst terminal
  simpa [Stops] using loose

theorem stops_tighter {n m : Nonterminal} {rest : List Token} (stops : Stops n rest)
    (tighter : tightness n ≤ tightness m) : Stops m rest :=
  fun next first => Nat.lt_of_lt_of_le (stops next first) tighter

theorem operands_tighter (level : Level) : tightness (.chain level) < tightness (operands level) := by
  cases level <;> decide

theorem joins_bond {level : Level} {t : Terminal} {operator : Infix}
    (joins : Joins level t operator) : bond t = tightness (.chain level) := by
  cases joins <;> rfl

theorem joins_unique {level : Level} {t : Terminal} {a b : Infix} (first : Joins level t a)
    (second : Joins level t b) : a = b := by
  cases first <;> cases second <;> rfl

theorem signs_unique {t : Terminal} {a b : UnaryOp} (first : Signs t a) (second : Signs t b) :
    a = b := by
  cases first <;> cases second <;> rfl

theorem denotes_unique {t : Terminal} {a b : Value} (first : Denotes t a) (second : Denotes t b) :
    a = b := by
  cases first <;> cases second <;> rfl

inductive Starts : Terminal → Prop where
  | literal {t : Terminal} {value : Value} (denotes : Denotes t value) : Starts t
  | name (name : String) : Starts (.identifier name)
  | group : Starts .leftParen

def Opens (t : Terminal) : Prop := Starts t ∨ ∃ operator, Signs t operator

def First (opens : Terminal → Prop) (ts : List Token) : Prop :=
  ∃ first rest, ts = first :: rest ∧ opens first.terminal

theorem first_append {opens : Terminal → Prop} {ts : List Token} (first : First opens ts)
    (us : List Token) : First opens (ts ++ us) := by
  obtain ⟨next, rest, rfl, opening⟩ := first
  exact ⟨next, rest ++ us, rfl, opening⟩

theorem signs_not_starts {t : Terminal} {operator : UnaryOp} (signs : Signs t operator) :
    ¬ Starts t := by
  intro starts
  cases signs <;> cases starts <;> rename_i denotes <;> cases denotes

theorem closing_not_opens {t : Terminal} (isClosing : t = .rightParen) : ¬ Opens t := by
  subst isClosing
  rintro (starts | ⟨operator, signs⟩)
  · cases starts
    rename_i denotes
    cases denotes
  · cases signs

theorem primary_starts (p : Phrase .primary) : First Starts p.tokens := by
  cases p with
  | literal token value denotes => exact ⟨token, [], rfl, .literal denotes⟩
  | name token name isName => exact ⟨token, [], rfl, isName ▸ .name name⟩
  | group opening isOpening inner closing isClosing =>
    exact ⟨opening, inner.tokens ++ [closing], rfl, isOpening ▸ .group⟩

theorem call_starts (p : Phrase .call) : First Starts p.tokens := by
  cases p with
  | callEmpty callee name isName opening isOpening closing isClosing =>
    exact ⟨callee, [opening, closing], rfl, isName ▸ .name name⟩
  | call callee name isName opening isOpening args closing isClosing =>
    exact ⟨callee, opening :: (args.tokens ++ [closing]), rfl, isName ▸ .name name⟩
  | simple operand => exact primary_starts operand

theorem starts_opens {ts : List Token} (first : First Starts ts) : First Opens ts := by
  obtain ⟨next, rest, tokens, starts⟩ := first
  exact ⟨next, rest, tokens, .inl starts⟩

theorem phrase_opens {n : Nonterminal} (p : Phrase n) : First Opens p.tokens := by
  cases p with
  | plain condition => exact phrase_opens condition
  | ternary condition question isQuestion whenTrue colon isColon whenFalse =>
    exact first_append (phrase_opens condition) _
  | chain first tail => exact first_append (phrase_opens first) _
  | base base => exact phrase_opens base
  | power base caret isCaret exponent => exact first_append (phrase_opens base) _
  | signed sign operator signs operand => exact ⟨sign, operand.tokens, rfl, .inr ⟨operator, signs⟩⟩
  | unsigned operand => exact starts_opens (call_starts operand)
  | callEmpty => exact starts_opens (call_starts (.callEmpty ..))
  | call => exact starts_opens (call_starts (.call ..))
  | simple operand => exact starts_opens (primary_starts operand)
  | literal => exact starts_opens (primary_starts (.literal ..))
  | name => exact starts_opens (primary_starts (.name ..))
  | group => exact starts_opens (primary_starts (.group ..))

theorem arguments_open (args : Arguments) : First Opens args.tokens := by
  cases args with
  | last arg => exact phrase_opens arg
  | more arg comma isComma args => exact first_append (phrase_opens arg) _

theorem sign_not_call {sign : Token} {operator : UnaryOp} (signs : Signs sign.terminal operator)
    (operand : Phrase .call) (r s : List Token) : sign :: r ≠ operand.tokens ++ s := by
  intro same
  obtain ⟨next, rest, tokens, starts⟩ := call_starts operand
  rw [tokens, List.cons_append] at same
  obtain ⟨rfl, _⟩ := List.cons.inj same
  exact signs_not_starts signs starts

theorem closing_not_arguments {closing : Token} (isClosing : closing.terminal = .rightParen)
    (args : Arguments) (r s : List Token) : closing :: r ≠ args.tokens ++ s := by
  intro same
  obtain ⟨next, rest, tokens, opens⟩ := arguments_open args
  rw [tokens, List.cons_append] at same
  obtain ⟨rfl, _⟩ := List.cons.inj same
  exact closing_not_opens isClosing opens

theorem tail_stops {level : Level} (tail : Tail level) {rest : List Token}
    (stops : Stops (.chain level) rest) : Stops (operands level) (tail.tokens ++ rest) := by
  cases tail with
  | nil => exact stops_tighter stops (Nat.le_of_lt (operands_tighter level))
  | cons token operator joins right tail =>
    apply stops_cons rfl
    rw [joins_bond joins]
    exact operands_tighter level

theorem stops_absurd {n : Nonterminal} {next : Token} {rest after : List Token} {t : Terminal}
    (stops : Stops n rest) (same : rest = next :: after) (terminal : next.terminal = t)
    (tight : tightness n ≤ bond t) : False := by
  subst same terminal
  exact absurd (stops next rfl) (Nat.not_lt_of_le tight)

theorem behind_name (p : Phrase .primary) {callee : Token} {name : String} {r more : List Token}
    (isName : callee.terminal = .identifier name) (same : p.tokens ++ r = callee :: more) :
    r = more := by
  cases p with
  | literal token value denotes =>
    obtain ⟨rfl, _⟩ := List.cons.inj same
    rw [isName] at denotes
    cases denotes
  | name token name isName => exact (List.cons.inj same).2
  | group opening isOpening inner closing isClosing =>
    obtain ⟨rfl, _⟩ := List.cons.inj same
    exact Terminal.noConfusion (isName.symm.trans isOpening)

-- The recursion is on the first derivation. Each part is compared with what follows it, which
-- stops it on both sides, so the parts end at the same token.
mutual

theorem phrase_unique {n : Nonterminal} (p q : Phrase n) (r s : List Token)
    (same : p.tokens ++ r = q.tokens ++ s) (stopsR : Stops n r) (stopsS : Stops n s) :
    p = q ∧ r = s := by
  cases p with
  | plain condition =>
    cases q with
    | plain condition' =>
      obtain ⟨rfl, rest⟩ := phrase_unique condition condition' r s same
        (stops_tighter stopsR (by decide)) (stops_tighter stopsS (by decide))
      exact ⟨rfl, rest⟩
    | ternary condition' question isQuestion whenTrue colon isColon whenFalse =>
      simp only [Phrase.tokens, List.append_assoc, List.cons_append] at same
      obtain ⟨_, rest⟩ := phrase_unique condition condition' _ _ same
        (stops_tighter stopsR (by decide)) (stops_cons isQuestion (by decide))
      exact (stops_absurd stopsR rest isQuestion (by decide)).elim
  | ternary condition question isQuestion whenTrue colon isColon whenFalse =>
    cases q with
    | plain condition' =>
      simp only [Phrase.tokens, List.append_assoc, List.cons_append] at same
      obtain ⟨_, rest⟩ := phrase_unique condition condition' _ _ same
        (stops_cons isQuestion (by decide)) (stops_tighter stopsS (by decide))
      exact (stops_absurd stopsS rest.symm isQuestion (by decide)).elim
    | ternary condition' question' isQuestion' whenTrue' colon' isColon' whenFalse' =>
      simp only [Phrase.tokens, List.append_assoc, List.cons_append] at same
      obtain ⟨rfl, branches⟩ := phrase_unique condition condition' _ _ same
        (stops_cons isQuestion (by decide)) (stops_cons isQuestion' (by decide))
      obtain ⟨rfl, first⟩ := List.cons.inj branches
      obtain ⟨rfl, second⟩ := phrase_unique whenTrue whenTrue' _ _ first
        (stops_cons isColon (by decide)) (stops_cons isColon' (by decide))
      obtain ⟨rfl, last⟩ := List.cons.inj second
      obtain ⟨rfl, rest⟩ := phrase_unique whenFalse whenFalse' r s last stopsR stopsS
      exact ⟨rfl, rest⟩
  | chain first tail =>
    cases q with
    | chain first' tail' =>
      simp only [Phrase.tokens, List.append_assoc] at same
      obtain ⟨rfl, tails⟩ := phrase_unique first first' _ _ same (tail_stops tail stopsR)
        (tail_stops tail' stopsS)
      obtain ⟨rfl, rest⟩ := tail_unique tail tail' r s tails stopsR stopsS
      exact ⟨rfl, rest⟩
  | base base =>
    cases q with
    | base base' =>
      obtain ⟨rfl, rest⟩ := phrase_unique base base' r s same
        (stops_tighter stopsR (by decide)) (stops_tighter stopsS (by decide))
      exact ⟨rfl, rest⟩
    | power base' caret isCaret exponent =>
      simp only [Phrase.tokens, List.append_assoc, List.cons_append] at same
      obtain ⟨_, rest⟩ := phrase_unique base base' _ _ same
        (stops_tighter stopsR (by decide)) (stops_cons isCaret (by decide))
      exact (stops_absurd stopsR rest isCaret (by decide)).elim
  | power base caret isCaret exponent =>
    cases q with
    | base base' =>
      simp only [Phrase.tokens, List.append_assoc, List.cons_append] at same
      obtain ⟨_, rest⟩ := phrase_unique base base' _ _ same
        (stops_cons isCaret (by decide)) (stops_tighter stopsS (by decide))
      exact (stops_absurd stopsS rest.symm isCaret (by decide)).elim
    | power base' caret' isCaret' exponent' =>
      simp only [Phrase.tokens, List.append_assoc, List.cons_append] at same
      obtain ⟨rfl, power⟩ := phrase_unique base base' _ _ same
        (stops_cons isCaret (by decide)) (stops_cons isCaret' (by decide))
      obtain ⟨rfl, exponents⟩ := List.cons.inj power
      obtain ⟨rfl, rest⟩ := phrase_unique exponent exponent' r s exponents stopsR stopsS
      exact ⟨rfl, rest⟩
  | signed sign operator signs operand =>
    cases q with
    | signed sign' operator' signs' operand' =>
      obtain ⟨rfl, operands⟩ := List.cons.inj same
      obtain rfl := signs_unique signs signs'
      obtain ⟨rfl, rest⟩ := phrase_unique operand operand' r s operands stopsR stopsS
      exact ⟨rfl, rest⟩
    | unsigned operand' => exact absurd same (sign_not_call signs operand' _ s)
  | unsigned operand =>
    cases q with
    | signed sign operator signs operand' =>
      exact absurd same.symm (sign_not_call signs operand _ r)
    | unsigned operand' =>
      obtain ⟨rfl, rest⟩ := phrase_unique operand operand' r s same stopsR stopsS
      exact ⟨rfl, rest⟩
  | callEmpty callee name isName opening isOpening closing isClosing =>
    cases q with
    | callEmpty callee' name' isName' opening' isOpening' closing' isClosing' =>
      simp only [Phrase.tokens, List.cons_append, List.nil_append, List.cons.injEq] at same
      obtain ⟨rfl, rfl, rfl, rest⟩ := same
      obtain rfl := Terminal.identifier.inj (isName.symm.trans isName')
      exact ⟨rfl, rest⟩
    | call callee' name' isName' opening' isOpening' args closing' isClosing' =>
      simp only [Phrase.tokens, List.cons_append, List.nil_append, List.append_assoc,
        List.cons.injEq] at same
      obtain ⟨_, _, inside⟩ := same
      exact absurd inside (closing_not_arguments isClosing args _ _)
    | simple operand =>
      have rest := behind_name operand isName same.symm
      exact (stops_absurd stopsS rest isOpening (by decide)).elim
  | call callee name isName opening isOpening args closing isClosing =>
    cases q with
    | callEmpty callee' name' isName' opening' isOpening' closing' isClosing' =>
      simp only [Phrase.tokens, List.cons_append, List.nil_append, List.append_assoc,
        List.cons.injEq] at same
      obtain ⟨_, _, inside⟩ := same
      exact absurd inside.symm (closing_not_arguments isClosing' args _ _)
    | call callee' name' isName' opening' isOpening' args' closing' isClosing' =>
      simp only [Phrase.tokens, List.cons_append, List.nil_append, List.append_assoc,
        List.cons.injEq] at same
      obtain ⟨rfl, rfl, inside⟩ := same
      obtain rfl := Terminal.identifier.inj (isName.symm.trans isName')
      obtain ⟨rfl, behind⟩ := arguments_unique args args' closing closing' r s inside isClosing
        isClosing'
      obtain ⟨rfl, rest⟩ := List.cons.inj behind
      exact ⟨rfl, rest⟩
    | simple operand =>
      have rest := behind_name operand isName same.symm
      exact (stops_absurd stopsS rest isOpening (by decide)).elim
  | simple operand =>
    cases q with
    | callEmpty callee name isName opening isOpening closing isClosing =>
      have rest := behind_name operand isName same
      exact (stops_absurd stopsR rest isOpening (by decide)).elim
    | call callee name isName opening isOpening args closing isClosing =>
      have rest := behind_name operand isName same
      exact (stops_absurd stopsR rest isOpening (by decide)).elim
    | simple operand' =>
      obtain ⟨rfl, rest⟩ := phrase_unique operand operand' r s same stopsR stopsS
      exact ⟨rfl, rest⟩
  | literal token value denotes =>
    cases q with
    | literal token' value' denotes' =>
      obtain ⟨rfl, rest⟩ := List.cons.inj same
      obtain rfl := denotes_unique denotes denotes'
      exact ⟨rfl, rest⟩
    | name token' name isName =>
      obtain ⟨rfl, _⟩ := List.cons.inj same
      rw [isName] at denotes
      cases denotes
    | group opening isOpening inner closing isClosing =>
      obtain ⟨rfl, _⟩ := List.cons.inj same
      rw [isOpening] at denotes
      cases denotes
  | name token name isName =>
    cases q with
    | literal token' value denotes =>
      obtain ⟨rfl, _⟩ := List.cons.inj same
      rw [isName] at denotes
      cases denotes
    | name token' name' isName' =>
      obtain ⟨rfl, rest⟩ := List.cons.inj same
      obtain rfl := Terminal.identifier.inj (isName.symm.trans isName')
      exact ⟨rfl, rest⟩
    | group opening isOpening inner closing isClosing =>
      obtain ⟨rfl, _⟩ := List.cons.inj same
      exact Terminal.noConfusion (isName.symm.trans isOpening)
  | group opening isOpening inner closing isClosing =>
    cases q with
    | literal token value denotes =>
      obtain ⟨rfl, _⟩ := List.cons.inj same
      rw [isOpening] at denotes
      cases denotes
    | name token name isName =>
      obtain ⟨rfl, _⟩ := List.cons.inj same
      exact Terminal.noConfusion (isName.symm.trans isOpening)
    | group opening' isOpening' inner' closing' isClosing' =>
      simp only [Phrase.tokens, List.append_assoc, List.cons_append, List.nil_append,
        List.cons.injEq] at same
      obtain ⟨rfl, inside⟩ := same
      obtain ⟨rfl, behind⟩ := phrase_unique inner inner' _ _ inside
        (stops_cons isClosing (by decide)) (stops_cons isClosing' (by decide))
      obtain ⟨rfl, rest⟩ := List.cons.inj behind
      exact ⟨rfl, rest⟩

theorem tail_unique {level : Level} (t u : Tail level) (r s : List Token)
    (same : t.tokens ++ r = u.tokens ++ s) (stopsR : Stops (.chain level) r)
    (stopsS : Stops (.chain level) s) : t = u ∧ r = s := by
  match t with
  | .nil =>
    cases u with
    | nil => exact ⟨rfl, same⟩
    | cons token operator joins right tail =>
      simp only [Tail.tokens, List.nil_append, List.cons_append] at same
      exact (stops_absurd stopsR same rfl (Nat.le_of_eq (joins_bond joins).symm)).elim
  | .cons token operator joins right tail =>
    cases u with
    | nil =>
      simp only [Tail.tokens, List.nil_append, List.cons_append] at same
      exact (stops_absurd stopsS same.symm rfl (Nat.le_of_eq (joins_bond joins).symm)).elim
    | cons token' operator' joins' right' tail' =>
      simp only [Tail.tokens, List.append_assoc, List.cons_append] at same
      obtain ⟨rfl, behind⟩ := List.cons.inj same
      obtain rfl := joins_unique joins joins'
      obtain ⟨rfl, tails⟩ := phrase_unique right right' _ _ behind (tail_stops tail stopsR)
        (tail_stops tail' stopsS)
      obtain ⟨rfl, rest⟩ := tail_unique tail tail' r s tails stopsR stopsS
      exact ⟨rfl, rest⟩

theorem arguments_unique (a b : Arguments) (closing closing' : Token) (r s : List Token)
    (same : a.tokens ++ closing :: r = b.tokens ++ closing' :: s)
    (isClosing : closing.terminal = .rightParen) (isClosing' : closing'.terminal = .rightParen) :
    a = b ∧ closing :: r = closing' :: s := by
  cases a with
  | last arg =>
    cases b with
    | last arg' =>
      obtain ⟨rfl, rest⟩ := phrase_unique arg arg' _ _ same
        (stops_cons isClosing (by decide)) (stops_cons isClosing' (by decide))
      exact ⟨rfl, rest⟩
    | more arg' comma isComma args =>
      simp only [Arguments.tokens, List.append_assoc, List.cons_append] at same
      obtain ⟨_, behind⟩ := phrase_unique arg arg' _ _ same
        (stops_cons isClosing (by decide)) (stops_cons isComma (by decide))
      obtain ⟨rfl, _⟩ := List.cons.inj behind
      exact Terminal.noConfusion (isClosing.symm.trans isComma)
  | more arg comma isComma args =>
    cases b with
    | last arg' =>
      simp only [Arguments.tokens, List.append_assoc, List.cons_append] at same
      obtain ⟨_, behind⟩ := phrase_unique arg arg' _ _ same
        (stops_cons isComma (by decide)) (stops_cons isClosing' (by decide))
      obtain ⟨rfl, _⟩ := List.cons.inj behind
      exact Terminal.noConfusion (isComma.symm.trans isClosing')
    | more arg' comma' isComma' args' =>
      simp only [Arguments.tokens, List.append_assoc, List.cons_append] at same
      obtain ⟨rfl, behind⟩ := phrase_unique arg arg' _ _ same
        (stops_cons isComma (by decide)) (stops_cons isComma' (by decide))
      obtain ⟨rfl, later⟩ := List.cons.inj behind
      obtain ⟨rfl, rest⟩ := arguments_unique args args' closing closing' r s later isClosing
        isClosing'
      exact ⟨rfl, rest⟩

end

end Formula.Grammar
