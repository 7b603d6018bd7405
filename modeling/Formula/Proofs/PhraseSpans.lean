import Formula.Proofs.Grammar

set_option autoImplicit false

namespace Formula

structure Ordered (ts : List Token) : Prop where
  forward : ∀ t ∈ ts, t.span.start ≤ t.span.stop
  apart : ts.Pairwise fun a b => a.span.stop ≤ b.span.start

def Spans (ts : List Token) (span : Span) : Prop :=
  ∃ first ∈ ts.head?, ∃ last ∈ ts.getLast?, span = ⟨first.span.start, last.span.stop⟩

theorem ordered_sublist {ts us : List Token} (part : ts.Sublist us) (ordered : Ordered us) :
    Ordered ts :=
  ⟨fun t member => ordered.forward t (part.subset member), ordered.apart.sublist part⟩

theorem spans_single (t : Token) : Spans [t] t.span := ⟨t, rfl, t, rfl, rfl⟩

theorem spans_unique {ts : List Token} {a b : Span} (left : Spans ts a) (right : Spans ts b) :
    a = b := by
  obtain ⟨first, head, last, tail, rfl⟩ := left
  obtain ⟨first', head', last', tail', rfl⟩ := right
  rw [Option.mem_unique head head', Option.mem_unique tail tail']

theorem spans_member {ts : List Token} {span : Span} {t : Token} (ordered : Ordered ts)
    (spans : Spans ts span) (member : t ∈ ts) :
    span.start ≤ t.span.start ∧ t.span.stop ≤ span.stop := by
  obtain ⟨first, head, last, tail, rfl⟩ := spans
  have forward := ordered.forward
  constructor
  · obtain ⟨rest, rfl⟩ := List.head?_eq_some_iff.mp head
    rcases List.mem_cons.mp member with rfl | later
    · exact Nat.le_refl _
    · exact Nat.le_trans (forward first List.mem_cons_self)
        ((List.pairwise_cons.mp ordered.apart).1 t later)
  · obtain ⟨front, rfl⟩ := List.getLast?_eq_some_iff.mp tail
    rcases List.mem_append.mp member with early | final
    · exact Nat.le_trans
        ((List.pairwise_append.mp ordered.apart).2.2 t early last List.mem_cons_self)
        (forward last (by simp))
    · obtain rfl := List.mem_singleton.mp final
      exact Nat.le_refl _

theorem spans_inside {ts us : List Token} {a b : Span} (ordered : Ordered us)
    (part : ts.Sublist us) (inner : Spans ts a) (outer : Spans us b) :
    b.start ≤ a.start ∧ a.stop ≤ b.stop := by
  obtain ⟨first, head, last, tail, rfl⟩ := inner
  exact ⟨(spans_member ordered outer (part.subset (List.mem_of_mem_head? head))).1,
    (spans_member ordered outer (part.subset (List.mem_of_mem_getLast? tail))).2⟩

theorem spans_apart {ts us : List Token} {a b : Span} (ordered : Ordered (ts ++ us))
    (left : Spans ts a) (right : Spans us b) : a.stop ≤ b.start := by
  obtain ⟨first, head, last, tail, rfl⟩ := left
  obtain ⟨first', head', last', tail', rfl⟩ := right
  exact (List.pairwise_append.mp ordered.apart).2.2 last (List.mem_of_mem_getLast? tail) first'
    (List.mem_of_mem_head? head')

theorem spans_cover {ts us : List Token} {a b : Span} (mid : List Token)
    (ordered : Ordered (ts ++ (mid ++ us))) (left : Spans ts a) (right : Spans us b) :
    Spans (ts ++ (mid ++ us)) (a.cover b) := by
  obtain ⟨first, head, last, tail, rfl⟩ := left
  obtain ⟨first', head', last', tail', rfl⟩ := right
  have whole : Spans (ts ++ (mid ++ us)) ⟨first.span.start, last'.span.stop⟩ := by
    refine ⟨first, ?_, last', ?_, rfl⟩
    · obtain ⟨rest, rfl⟩ := List.head?_eq_some_iff.mp head
      rfl
    · obtain ⟨front, rfl⟩ := List.getLast?_eq_some_iff.mp tail'
      rw [← List.append_assoc, ← List.append_assoc, List.getLast?_append]
      rfl
  have begins := spans_member ordered whole (t := first') (by simp [List.mem_of_mem_head? head'])
  have ends := spans_member ordered whole (t := last) (by simp [List.mem_of_mem_getLast? tail])
  have same : Span.cover ⟨first.span.start, last.span.stop⟩ ⟨first'.span.start, last'.span.stop⟩ =
      ⟨first.span.start, last'.span.stop⟩ := by
    rw [Span.cover, if_pos begins.1, if_pos ends.2]
  rwa [same]

namespace Grammar

open Formula.Parser (Level Infix)

theorem node_span (operator : Infix) (left right : Expr) :
    (operator.node left right).span = left.span.cover right.span := by
  cases operator <;> rfl

theorem node_children (operator : Infix) (left right : Expr) :
    (operator.node left right).children = [left, right] := by
  cases operator <;> rfl

mutual

theorem phrase_spans {n : Nonterminal} (p : Phrase n) (ordered : Ordered p.tokens) :
    Spans p.tokens p.tree.span := by
  cases p with
  | plain condition => exact phrase_spans condition ordered
  | ternary condition question isQuestion whenTrue colon isColon whenFalse =>
    have whole : condition.tokens ++ question :: (whenTrue.tokens ++ colon :: whenFalse.tokens) =
        condition.tokens ++ ((question :: (whenTrue.tokens ++ [colon])) ++ whenFalse.tokens) := by
      simp
    rw [Phrase.tokens, whole] at ordered ⊢
    have first := phrase_spans condition (ordered_sublist (List.sublist_append_left _ _) ordered)
    have last := phrase_spans whenFalse (ordered_sublist
      ((List.sublist_append_right _ _).trans (List.sublist_append_right _ _)) ordered)
    exact spans_cover _ ordered first last
  | chain first tail =>
    have left := phrase_spans first (ordered_sublist (List.sublist_append_left _ _) ordered)
    exact tail_spans tail first.tree first.tokens left ordered
  | base base => exact phrase_spans base ordered
  | power base caret isCaret exponent =>
    have first := phrase_spans base (ordered_sublist (List.sublist_append_left _ _) ordered)
    have last := phrase_spans exponent (ordered_sublist (by simp [Phrase.tokens]) ordered)
    exact spans_cover [caret] ordered first last
  | signed sign operator signs operand =>
    have last := phrase_spans operand (ordered_sublist (List.sublist_cons_self _ _) ordered)
    exact spans_cover [] ordered (spans_single sign) last
  | unsigned operand => exact phrase_spans operand ordered
  | callEmpty callee name isName opening isOpening closing isClosing =>
    exact spans_cover [opening] ordered (spans_single callee) (spans_single closing)
  | call callee name isName opening isOpening args closing isClosing =>
    exact spans_cover (opening :: args.tokens) ordered (spans_single callee) (spans_single closing)
  | simple operand => exact phrase_spans operand ordered
  | literal token value denotes => exact spans_single token
  | name token name isName => exact spans_single token
  | group opening isOpening inner closing isClosing =>
    exact spans_cover inner.tokens ordered (spans_single opening) (spans_single closing)

theorem tail_spans {level : Level} (tail : Tail level) (left : Expr) (ts : List Token)
    (spans : Spans ts left.span) (ordered : Ordered (ts ++ tail.tokens)) :
    Spans (ts ++ tail.tokens) (tail.join left).span := by
  match tail with
  | .nil => simpa [Tail.tokens, Tail.join] using spans
  | .cons token operator joins right rest =>
    have whole : ts ++ token :: (right.tokens ++ rest.tokens) =
        (ts ++ ([token] ++ right.tokens)) ++ rest.tokens := by simp
    rw [Tail.tokens, whole] at ordered ⊢
    have front := ordered_sublist (List.sublist_append_left _ _) ordered
    have operand := phrase_spans right (ordered_sublist (by simp) front)
    have joined := spans_cover [token] front spans operand
    rw [← node_span operator left right.tree] at joined
    exact tail_spans rest _ _ joined ordered

end

def Widens (n : Nonterminal) : Prop :=
  ∀ p : Phrase n, ∃ q : Phrase .expression, q.tokens = p.tokens ∧ q.tree = p.tree

theorem operands_widen (level : Level) (wider : Widens (.chain level)) :
    Widens (operands level) := by
  intro p
  obtain ⟨q, tokens, tree⟩ := wider (.chain p .nil)
  exact ⟨q, by rw [tokens, Phrase.tokens, Tail.tokens, List.append_nil], tree⟩

theorem widens (n : Nonterminal) : Widens n := by
  have logical : Widens (.chain .logical) := fun p => ⟨.plain p, rfl, rfl⟩
  have equality : Widens (.chain .equality) := operands_widen .logical logical
  have additive : Widens (.chain .additive) := operands_widen .equality equality
  have multiplicative : Widens (.chain .multiplicative) := operands_widen .additive additive
  have exponent : Widens .exponent := operands_widen .multiplicative multiplicative
  have unary : Widens .unary := fun p => exponent (.base p)
  have call : Widens .call := fun p => unary (.unsigned p)
  cases n with
  | expression => exact fun p => ⟨p, rfl, rfl⟩
  | chain level => cases level <;> assumption
  | exponent => exact exponent
  | unary => exact unary
  | call => exact call
  | primary => exact fun p => call (.simple p)

inductive Arranged : List Expr → List Token → Prop where
  | nil (ts : List Token) : Arranged [] ts
  | cons (skipped : List Token) (p : Phrase .expression) {es : List Expr} {ts : List Token}
      (later : Arranged es ts) : Arranged (p.tree :: es) (skipped ++ (p.tokens ++ ts))

theorem arranged_cons {n : Nonterminal} (skipped : List Token) (p : Phrase n) {es : List Expr}
    {ts : List Token} (later : Arranged es ts) :
    Arranged (p.tree :: es) (skipped ++ (p.tokens ++ ts)) := by
  obtain ⟨q, tokens, tree⟩ := widens n p
  rw [← tokens, ← tree]
  exact .cons skipped q later

theorem arranged_behind {es : List Expr} {ts : List Token} (arranged : Arranged es ts)
    (front : List Token) : Arranged es (front ++ ts) := by
  cases arranged with
  | nil => exact .nil _
  | cons skipped p later =>
    rw [← List.append_assoc]
    exact .cons (front ++ skipped) p later

theorem arranged_before {es : List Expr} {ts : List Token} (arranged : Arranged es ts)
    (back : List Token) : Arranged es (ts ++ back) := by
  induction arranged with
  | nil => exact .nil _
  | cons skipped p later ih =>
    rw [List.append_assoc, List.append_assoc]
    exact .cons skipped p ih

def Tail.snoc {level : Level} (token : Token) (operator : Infix)
    (joins : Joins level token.terminal operator) (right : Phrase (operands level)) :
    Tail level → Tail level
  | .nil => .cons token operator joins right .nil
  | .cons t o j r rest => .cons t o j r (rest.snoc token operator joins right)

section

variable {level : Level} (token : Token) (operator : Infix)
  (joins : Joins level token.terminal operator) (right : Phrase (operands level))

theorem snoc_tokens (tail : Tail level) :
    (tail.snoc token operator joins right).tokens = tail.tokens ++ token :: right.tokens := by
  cases tail with
  | nil => simp [Tail.snoc, Tail.tokens]
  | cons t o j r rest => simp [Tail.snoc, Tail.tokens, snoc_tokens rest]

theorem snoc_join (tail : Tail level) :
    ∀ left, (tail.snoc token operator joins right).join left =
      operator.node (tail.join left) right.tree := by
  cases tail with
  | nil => simp [Tail.snoc, Tail.join]
  | cons t o j r rest => simp [Tail.snoc, Tail.join, snoc_join rest]

end

-- A repetition leans to the left: each of its nodes has what stands before its operator, itself a
-- repetition, as its first child. So a tail is taken with the repetition that it goes on from.
mutual

theorem children_arranged {n : Nonterminal} (p : Phrase n) : Arranged p.tree.children p.tokens := by
  cases p with
  | plain condition => exact children_arranged condition
  | ternary condition question isQuestion whenTrue colon isColon whenFalse =>
    have parts := arranged_cons [] condition (arranged_cons [question] whenTrue
      (arranged_cons [colon] whenFalse (.nil [])))
    simpa [Phrase.tree, Phrase.tokens, Expr.ternaryOf, Expr.children] using parts
  | chain first tail =>
    rename_i level
    have left := children_arranged first
    let whole : Phrase (.chain level) := .chain first .nil
    have tokens : whole.tokens = first.tokens := by simp [whole, Phrase.tokens, Tail.tokens]
    have arranged := tail_arranged tail whole (tokens ▸ left)
    rwa [tokens] at arranged
  | base base => exact children_arranged base
  | power base caret isCaret exponent =>
    have parts := arranged_cons [] base (arranged_cons [caret] exponent (.nil []))
    simpa [Phrase.tree, Phrase.tokens, Expr.binaryOf, Expr.children] using parts
  | signed sign operator signs operand =>
    have part := arranged_cons [sign] operand (.nil [])
    simpa [Phrase.tree, Phrase.tokens, Expr.children] using part
  | unsigned operand => exact children_arranged operand
  | callEmpty callee name isName opening isOpening closing isClosing => exact .nil _
  | call callee name isName opening isOpening args closing isClosing =>
    exact arranged_behind (arranged_before (arguments_arranged args) [closing]) [callee, opening]
  | simple operand => exact children_arranged operand
  | literal token value denotes => exact .nil _
  | name token name isName => exact .nil _
  | group opening isOpening inner closing isClosing =>
    exact arranged_cons [opening] inner (.nil [closing])

theorem tail_arranged {level : Level} (tail : Tail level) (left : Phrase (.chain level))
    (arranged : Arranged left.tree.children left.tokens) :
    Arranged (tail.join left.tree).children (left.tokens ++ tail.tokens) := by
  match tail with
  | .nil => simpa [Tail.tokens, Tail.join] using arranged
  | .cons token operator joins right rest =>
    cases left with
    | chain first done =>
      let left : Phrase (.chain level) := .chain first done
      let longer : Phrase (.chain level) := .chain first (done.snoc token operator joins right)
      have tokens : longer.tokens = [] ++ (left.tokens ++ ([token] ++ (right.tokens ++ []))) := by
        simp [longer, left, Phrase.tokens, snoc_tokens]
      have tree : longer.tree = operator.node left.tree right.tree :=
        snoc_join token operator joins right done first.tree
      have whole := tail_arranged rest longer (by
        rw [tree, node_children, tokens]
        exact arranged_cons [] left (arranged_cons [token] right (.nil [])))
      rw [tree, tokens] at whole
      simpa [Tail.join, Tail.tokens] using whole

theorem arguments_arranged (args : Arguments) : Arranged args.trees args.tokens := by
  cases args with
  | last arg => simpa [Arguments.tokens, Arguments.trees] using arranged_cons [] arg (.nil [])
  | more arg comma isComma rest =>
    exact arranged_cons [] arg (arranged_behind (arguments_arranged rest) [comma])

end

theorem arranged_member {es : List Expr} {ts : List Token} (arranged : Arranged es ts) {e : Expr}
    (member : e ∈ es) :
    ∃ p : Phrase .expression, p.tree = e ∧ ∃ before after, before ++ (p.tokens ++ after) = ts := by
  induction arranged with
  | nil => cases member
  | cons skipped p later ih =>
    rcases List.mem_cons.mp member with rfl | member
    · exact ⟨p, rfl, skipped, _, rfl⟩
    · obtain ⟨q, tree, before, after, rfl⟩ := ih member
      exact ⟨q, tree, skipped ++ (p.tokens ++ before), after, by simp⟩

theorem node_phrase (p : Phrase .expression) {n : Expr} (node : n ∈ p.tree.nodes) :
    ∃ q : Phrase .expression, q.tree = n ∧
      ∃ before after, before ++ (q.tokens ++ after) = p.tokens := by
  rcases Expr.mem_nodes.mp node with rfl | ⟨child, below, inside⟩
  · exact ⟨p, rfl, [], [], by simp⟩
  · obtain ⟨c, rfl, before, after, tokens⟩ := arranged_member (children_arranged p) below
    have smaller := Expr.child_smaller below
    obtain ⟨q, tree, before', after', inner⟩ := node_phrase c inside
    exact ⟨q, tree, before ++ before', after' ++ after, by rw [← tokens, ← inner]; simp⟩
termination_by sizeOf p.tree

theorem part_sublist {ts us before after : List Token} (whole : before ++ (ts ++ after) = us) :
    ts.Sublist us := by
  rw [← whole]
  exact (List.sublist_append_left _ _).trans (List.sublist_append_right _ _)

theorem arranged_apart {es : List Expr} {ts : List Token} (arranged : Arranged es ts)
    (ordered : Ordered ts) : es.Pairwise fun a b => a.span.stop ≤ b.span.start := by
  induction arranged with
  | nil => exact .nil
  | cons skipped p later ih =>
    have behind := ordered_sublist (List.sublist_append_right _ _) ordered
    refine .cons ?_ (ih (ordered_sublist (List.sublist_append_right _ _) behind))
    intro e member
    obtain ⟨q, rfl, before, after, tokens⟩ := arranged_member later member
    have both := ordered_sublist ((part_sublist tokens).append_left p.tokens) behind
    exact spans_apart both
      (phrase_spans p (ordered_sublist (List.sublist_append_left _ _) both))
      (phrase_spans q (ordered_sublist (List.sublist_append_right _ _) both))

theorem child_inside {n : Nonterminal} (p : Phrase n) (ordered : Ordered p.tokens) {child : Expr}
    (below : child ∈ p.tree.children) :
    p.tree.span.start ≤ child.span.start ∧ child.span.stop ≤ p.tree.span.stop := by
  obtain ⟨q, rfl, before, after, tokens⟩ := arranged_member (children_arranged p) below
  have part := part_sublist tokens
  exact spans_inside ordered part (phrase_spans q (ordered_sublist part ordered))
    (phrase_spans p ordered)

end Grammar

end Formula
