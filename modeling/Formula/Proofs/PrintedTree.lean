import Formula.Expr.Printer
import Formula.Proofs.CanonicalForm
import Formula.Proofs.QuotedText
import Formula.Proofs.Subexpressions

set_option autoImplicit false

namespace Formula

def Value.normalized : Value → Value
  | .number d => .number d.normalized
  | value => value

theorem Value.same_iff_normalized (v w : Value) :
    v.same w = true ↔ v.normalized = w.normalized := by
  cases v <;> cases w <;> simp [Value.same, Value.normalized, Decimal.sameNumber]

namespace Expr

mutual

def skeleton : Expr → Expr
  | literal value _ => literal value.normalized ⟨0, 0⟩
  | name n _ => name n ⟨0, 0⟩
  | group inner _ => group (skeleton inner) ⟨0, 0⟩
  | unary operator operand _ => unary operator (skeleton operand) ⟨0, 0⟩
  | binary operator left right _ => binary operator (skeleton left) (skeleton right) ⟨0, 0⟩
  | logical operator left right _ => logical operator (skeleton left) (skeleton right) ⟨0, 0⟩
  | ternary condition whenTrue whenFalse _ =>
    ternary (skeleton condition) (skeleton whenTrue) (skeleton whenFalse) ⟨0, 0⟩
  | call n args _ => call n (skeletonOfAll args) ⟨0, 0⟩

def skeletonOfAll : List Expr → List Expr
  | [] => []
  | e :: es => skeleton e :: skeletonOfAll es

end

theorem skeleton_of_all (es : List Expr) : skeletonOfAll es = es.map skeleton := by
  induction es with
  | nil => rfl
  | cons e es ih => rw [skeletonOfAll, ih, List.map_cons]

theorem normalized_text (value : Value) : literalText value.normalized = literalText value := by
  cases value with
  | number d =>
    change d.normalized.text = d.text
    rw [Decimal.text_eq, Decimal.text_eq, Decimal.normalized_value]
  | text s => rfl
  | boolean b => rfl

mutual

theorem print_skeleton (e : Expr) : e.skeleton.print = e.print := by
  cases e with
  | literal value span => exact normalized_text value
  | name n span => rfl
  | group inner span => rw [skeleton, print, print, print_skeleton inner]
  | unary operator operand span => rw [skeleton, print, print, print_skeleton operand]
  | binary operator left right span =>
    rw [skeleton, print, print, print_skeleton left, print_skeleton right]
  | logical operator left right span =>
    rw [skeleton, print, print, print_skeleton left, print_skeleton right]
  | ternary condition whenTrue whenFalse span =>
    rw [skeleton, print, print, print_skeleton condition, print_skeleton whenTrue,
      print_skeleton whenFalse]
  | call n args span => rw [skeleton, print, print, print_all_skeleton args]

theorem print_all_skeleton (es : List Expr) : printAll (skeletonOfAll es) = printAll es := by
  cases es with
  | nil => rfl
  | cons e es => rw [skeletonOfAll, printAll, printAll, print_skeleton e, print_all_skeleton es]

end

structure Word (w : List Char) : Prop where
  written : w ≠ []
  inside : ∀ c ∈ w, c ≠ ' ' ∧ c ≠ ')' ∧ c ≠ '(' ∧ c ≠ '"'

theorem word_of_all {w : List Char} (written : w.isEmpty = false)
    (all : (w.all fun c => c != ' ' && c != ')' && c != '(' && c != '"') = true) : Word w := by
  refine ⟨List.isEmpty_eq_false_iff.mp written, fun c member => ?_⟩
  have checked := List.all_eq_true.mp all c member
  simpa only [Bool.and_eq_true, bne_iff_ne, and_assoc] using checked

def Ends (rest : List Char) : Prop := ∀ c ∈ rest.head?, c = ' ' ∨ c = ')'

theorem word_prefix {w w' rest rest' : List Char} (word : Word w) (word' : Word w')
    (ends : Ends rest) (ends' : Ends rest') (same : w ++ rest = w' ++ rest') :
    w = w' ∧ rest = rest' := by
  have split {w rest : List Char} (word : Word w) (ends : Ends rest) :
      (w ++ rest).takeWhile (fun c => c != ' ' && c != ')') = w ∧
        (w ++ rest).dropWhile (fun c => c != ' ' && c != ')') = rest :=
    take_drop_exact
      (fun c member => by simp [(word.inside c member).1, (word.inside c member).2.1])
      (fun c first => by rcases ends c first with rfl | rfl <;> rfl)
  constructor
  · rw [← (split word ends).1, same, (split word' ends').1]
  · rw [← (split word ends).2, same, (split word' ends').2]

structure IsName (n : String) : Prop where
  start : ∃ c cs, n.toList = c :: cs ∧ Lexer.isNameStart c = true
  parts : ∀ c ∈ n.toList, Lexer.isNamePart c = true
  notTrue : n ≠ "true"
  notFalse : n ≠ "false"

theorem spelled_name {w : List Char} {n : String} (spelled : Lexer.Spelled w (.identifier n)) :
    IsName n := by
  cases spelled with
  | @identifier c cs start parts notTrue notFalse =>
    have first := (Lexer.name_start_iff c).mpr start
    refine ⟨⟨c, cs, String.toList_ofList, first⟩, ?_, ?_, ?_⟩
    · rw [String.toList_ofList]
      exact List.forall_mem_cons.mpr ⟨Lexer.name_start_part first,
        fun d member => (Lexer.name_part_iff d).mpr (parts d member)⟩
    · intro same
      exact notTrue (by rw [← String.toList_ofList (l := c :: cs), same]; rfl)
    · intro same
      exact notFalse (by rw [← String.toList_ofList (l := c :: cs), same]; rfl)

theorem name_word {n : String} (isName : IsName n) : Word n.toList := by
  obtain ⟨⟨c, cs, written, -⟩, parts, -, -⟩ := isName
  refine ⟨by rw [written]; exact List.cons_ne_nil c cs, fun d member => ?_⟩
  have part := parts d member
  refine ⟨?_, ?_, ?_, ?_⟩ <;> (rintro rfl; exact absurd part (by decide))

theorem number_first (d : Decimal) :
    ∃ c cs, d.text.toList = c :: cs ∧ Lexer.isNameStart c = false := by
  obtain ⟨negative, n, shown⟩ := Decimal.shows d
  rw [Decimal.text, String.toList_ofList, shown.text]
  cases negative with
  | true => exact ⟨'-', n.text, rfl, rfl⟩
  | false =>
    obtain ⟨c, cs, text, digit⟩ := Lexer.numeral_first n
    refine ⟨c, cs, text, Bool.eq_false_iff.mpr fun start => ?_⟩
    rw [Lexer.name_start_not_digit start] at digit
    cases digit

theorem number_word (d : Decimal) : Word d.text.toList := by
  obtain ⟨negative, n, shown⟩ := Decimal.shows d
  have inside : ∀ c ∈ n.text, c = '.' ∨ c.isDigit = true := by
    intro c member
    rw [Numeral.text_bare shown.canonical.bare, Numeral.base, List.mem_append] at member
    rcases member with whole | behind
    · exact .inr (n.wholeDigits c whole)
    · cases places : n.places with
      | nil =>
        rw [places] at behind
        cases behind
      | cons d ds =>
        rw [places] at behind
        rcases List.mem_cons.mp behind with point | digit
        · exact .inl point
        · exact .inr (n.placesDigits c (places ▸ digit))
  have plain {c : Char} (part : c = '-' ∨ c = '.' ∨ c.isDigit = true) :
      c ≠ ' ' ∧ c ≠ ')' ∧ c ≠ '(' ∧ c ≠ '"' := by
    refine ⟨?_, ?_, ?_, ?_⟩ <;> (rintro rfl; exact absurd part (by decide))
  obtain ⟨c, cs, written, -⟩ := number_first d
  refine ⟨by rw [written]; exact List.cons_ne_nil c cs, fun c member => plain ?_⟩
  rw [Decimal.text, String.toList_ofList, shown.text] at member
  cases negative with
  | true => exact (List.mem_cons.mp member).imp_right (inside c)
  | false => exact .inr (inside c member)

inductive Shape where
  | word
  | quoted
  | node
deriving DecidableEq

def shape : Expr → Shape
  | literal (.text _) _ => .quoted
  | literal _ _ => .word
  | name _ _ => .word
  | _ => .node

def Shape.ofFirst (c : Char) : Shape :=
  if c = '(' then .node else if c = '"' then .quoted else .word

def Readable (e : Expr) : Prop := ∀ n, .identifier n ∈ e.terminals → IsName n

theorem literal_word {value : Value} (noText : ∀ s, value ≠ .text s) :
    Word (literalText value).toList := by
  cases value with
  | number d => exact number_word d
  | text s => exact absurd rfl (noText s)
  | boolean b => cases b <;> exact word_of_all (by decide) (by decide)

theorem print_word {e : Expr} (readable : e.Readable) (isWord : e.shape = .word) :
    Word e.print.toList := by
  cases e with
  | literal value span =>
    refine literal_word ?_
    rintro s rfl
    cases isWord
  | name n span => exact name_word (readable n (by simp [terminals]))
  | group | unary | binary | logical | ternary | call => cases isWord

def head : Expr → String
  | literal _ _ | name _ _ => ""
  | group _ _ => "group"
  | unary operator _ _ => operator.symbol
  | binary operator _ _ _ => operator.symbol
  | logical operator _ _ _ => operator.symbol
  | ternary _ _ _ _ => "?:"
  | call _ _ _ => "call"

def fields : Expr → List Expr
  | call n args span => name n span :: args
  | e => e.children

theorem print_node {e : Expr} (node : e.shape = .node) :
    e.print.toList = '(' :: (e.head.toList ++ ((printAll e.fields).toList ++ [')'])) := by
  cases e with
  | literal value span => cases value <;> cases node
  | name n span => cases node
  | group | unary | binary | logical | ternary | call =>
    simp [print, printAll, head, fields, children]

theorem head_word {e : Expr} (node : e.shape = .node) : Word e.head.toList := by
  cases e with
  | literal value span => cases value <;> cases node
  | name n span => cases node
  | unary operator =>
    change Word operator.symbol.toList
    cases operator <;> exact word_of_all (by decide) (by decide)
  | binary operator =>
    change Word operator.symbol.toList
    cases operator <;> exact word_of_all (by decide) (by decide)
  | logical operator =>
    change Word operator.symbol.toList
    cases operator <;> exact word_of_all (by decide) (by decide)
  | group =>
    change Word "group".toList
    exact word_of_all (by decide) (by decide)
  | ternary =>
    change Word "?:".toList
    exact word_of_all (by decide) (by decide)
  | call =>
    change Word "call".toList
    exact word_of_all (by decide) (by decide)

def unaryOf? (symbol : String) : Option UnaryOp :=
  [.plus, .negate, .not].find? fun operator => operator.symbol == symbol

def binaryOf? (symbol : String) : Option BinaryOp :=
  [.add, .subtract, .multiply, .divide, .remainder, .power, .equal, .notEqual, .less, .lessEqual,
    .greater, .greaterEqual].find? fun operator => operator.symbol == symbol

def logicalOf? (symbol : String) : Option LogicalOp :=
  [.and, .or].find? fun operator => operator.symbol == symbol

-- The node that a list stands for. A sign has one field or two, and so is a unary operator or a
-- binary one.
def assembled (head : String) (fields : List Expr) : Option Expr :=
  match fields with
  | [] => none
  | first :: rest =>
    if head = "call" then
      match first with
      | name n _ => some (call n rest ⟨0, 0⟩)
      | _ => none
    else
      match rest with
      | [] =>
        if head = "group" then some (group first ⟨0, 0⟩)
        else (unaryOf? head).map fun operator => unary operator first ⟨0, 0⟩
      | [right] =>
        match binaryOf? head with
        | some operator => some (binary operator first right ⟨0, 0⟩)
        | none => (logicalOf? head).map fun operator => logical operator first right ⟨0, 0⟩
      | [whenTrue, whenFalse] => some (ternary first whenTrue whenFalse ⟨0, 0⟩)
      | _ => none

theorem assembled_fields {e : Expr} (node : e.shape = .node) :
    assembled e.head (e.fields.map skeleton) = some e.skeleton := by
  cases e with
  | literal value span => cases value <;> cases node
  | name n span => cases node
  | unary operator | binary operator | logical operator => cases operator <;> rfl
  | group | ternary => rfl
  | call n args span =>
    rw [skeleton, skeleton_of_all]
    rfl

theorem quoted_iff {e : Expr} : e.shape = .quoted ↔ ∃ s span, e = literal (.text s) span := by
  constructor
  · intro quoted
    cases e with
    | literal value span =>
      cases value with
      | text s => exact ⟨s, span, rfl⟩
      | number | boolean => cases quoted
    | name | group | unary | binary | logical | ternary | call => cases quoted
  · rintro ⟨s, span, rfl⟩
    rfl

theorem print_first {e : Expr} (readable : e.Readable) :
    ∃ c cs, e.print.toList = c :: cs ∧ Shape.ofFirst c = e.shape := by
  cases shape : e.shape with
  | word =>
    obtain ⟨written, inside⟩ := print_word readable shape
    obtain ⟨c, cs, first⟩ := List.exists_cons_of_ne_nil written
    obtain ⟨-, -, opening, quote⟩ := inside c (first ▸ List.mem_cons_self)
    exact ⟨c, cs, first, by rw [Shape.ofFirst, if_neg opening, if_neg quote]⟩
  | quoted =>
    obtain ⟨s, span, rfl⟩ := quoted_iff.mp shape
    exact ⟨'"', _, String.toList_ofList, rfl⟩
  | node => exact ⟨'(', _, print_node shape, rfl⟩

theorem same_shape {e e' : Expr} (readable : e.Readable) (readable' : e'.Readable)
    {rest rest' : List Char} (same : e.print.toList ++ rest = e'.print.toList ++ rest') :
    e.shape = e'.shape := by
  obtain ⟨c, cs, first, shape⟩ := print_first readable
  obtain ⟨c', cs', first', shape'⟩ := print_first readable'
  rw [first, first'] at same
  rw [← shape, ← shape', (List.cons.inj same).1]

theorem same_literal {value value' : Value} (noText : ∀ s, value ≠ .text s)
    (noText' : ∀ s, value' ≠ .text s) (same : literalText value = literalText value') :
    value.normalized = value'.normalized := by
  have number_not_boolean (d : Decimal) (b : Bool) : d.text ≠ (Value.boolean b).display := by
    intro same
    obtain ⟨c, cs, first, other⟩ := number_first d
    cases b <;>
    · rw [same] at first
      obtain ⟨rfl, -⟩ := List.cons.inj first
      cases other
  cases value with
  | text s => exact absurd rfl (noText s)
  | number d =>
    cases value' with
    | text s => exact absurd rfl (noText' s)
    | number d' =>
      obtain ⟨negative, n, shown⟩ := Decimal.shows d
      obtain ⟨negative', n', shown'⟩ := Decimal.shows d'
      exact (Value.same_iff_normalized (.number d) (.number d')).mp
        ((Decimal.shows_same shown shown').mp same)
    | boolean b => exact absurd same (number_not_boolean d b)
  | boolean b =>
    cases value' with
    | text s => exact absurd rfl (noText' s)
    | number d => exact absurd same.symm (number_not_boolean d b)
    | boolean b' => cases b <;> cases b' <;> first | rfl | exact absurd same (by decide)

theorem literal_not_name {value : Value} (noText : ∀ s, value ≠ .text s) {n : String}
    (isName : IsName n) : literalText value ≠ n := by
  cases value with
  | text s => exact absurd rfl (noText s)
  | number d =>
    intro same
    obtain ⟨c, cs, first, other⟩ := number_first d
    obtain ⟨c', cs', first', start⟩ := isName.start
    rw [show d.text = n from same, first'] at first
    rw [(List.cons.inj first).1, other] at start
    cases start
  | boolean b =>
    cases b with
    | true => exact isName.notTrue.symm
    | false => exact isName.notFalse.symm

theorem word_cases {e : Expr} (readable : e.Readable) (word : e.shape = .word) :
    (∃ value span, e = literal value span ∧ ∀ s, value ≠ .text s) ∨
      ∃ n span, e = name n span ∧ IsName n := by
  cases e with
  | literal value span =>
    refine .inl ⟨value, span, rfl, ?_⟩
    rintro s rfl
    cases word
  | name n span => exact .inr ⟨n, span, rfl, readable n (by simp [terminals])⟩
  | group | unary | binary | logical | ternary | call => cases word

theorem same_word {e e' : Expr} (readable : e.Readable) (readable' : e'.Readable)
    (word : e.shape = .word) (word' : e'.shape = .word) (same : e.print = e'.print) :
    e.skeleton = e'.skeleton := by
  rcases word_cases readable word with ⟨value, span, rfl, noText⟩ | ⟨n, span, rfl, isName⟩ <;>
    rcases word_cases readable' word' with ⟨value', span', rfl, noText'⟩ | ⟨n', span', rfl, isName'⟩
  · rw [skeleton, skeleton, same_literal noText noText' same]
  · exact absurd same (literal_not_name noText isName')
  · exact absurd same.symm (literal_not_name noText' isName)
  · rw [skeleton, skeleton, show n = n' from same]

def Decodes (e : Expr) : Prop :=
  ∀ ⦃e' : Expr⦄ ⦃rest rest' : List Char⦄, e'.Readable → Ends rest → Ends rest' →
    e.print.toList ++ rest = e'.print.toList ++ rest' → e.skeleton = e'.skeleton ∧ rest = rest'

theorem print_all_cons (e : Expr) (es : List Expr) (rest : List Char) :
    (printAll (e :: es)).toList ++ ')' :: rest =
      ' ' :: (e.print.toList ++ ((printAll es).toList ++ ')' :: rest)) := by
  simp [printAll]

theorem ends_of_all (es : List Expr) (rest : List Char) :
    Ends ((printAll es).toList ++ ')' :: rest) := by
  cases es with
  | nil =>
    rintro _ ⟨⟩
    exact .inr rfl
  | cons e es =>
    rw [print_all_cons]
    rintro _ ⟨⟩
    exact .inl rfl

theorem decodes_all {es : List Expr} (each : ∀ e ∈ es, Decodes e) {es' : List Expr}
    (readable : ∀ e ∈ es', e.Readable) {rest rest' : List Char}
    (same : (printAll es).toList ++ ')' :: rest = (printAll es').toList ++ ')' :: rest') :
    es.map skeleton = es'.map skeleton ∧ rest = rest' := by
  induction es generalizing es' with
  | nil =>
    cases es' with
    | nil => exact ⟨rfl, (List.cons.inj same).2⟩
    | cons e' es' =>
      rw [print_all_cons] at same
      exact absurd (List.cons.inj same).1 (by decide)
  | cons e es ih =>
    cases es' with
    | nil =>
      rw [print_all_cons] at same
      exact absurd (List.cons.inj same).1 (by decide)
    | cons e' es' =>
      obtain ⟨first, others⟩ := List.forall_mem_cons.mp each
      obtain ⟨readable_first, readable_others⟩ := List.forall_mem_cons.mp readable
      rw [print_all_cons, print_all_cons] at same
      obtain ⟨equal, behind⟩ := first readable_first (ends_of_all es rest) (ends_of_all es' rest')
        (List.cons.inj same).2
      obtain ⟨later, end_⟩ := ih others readable_others behind
      exact ⟨by rw [List.map_cons, List.map_cons, equal, later], end_⟩

theorem decodes_leaf {e : Expr} (readable : e.Readable) (leaf : e.shape ≠ .node) : Decodes e := by
  intro e' rest rest' readable' ends ends' same
  have shapes := same_shape readable readable' same
  cases shape : e.shape with
  | word =>
    rw [shape] at shapes
    obtain ⟨prints, behind⟩ := word_prefix (print_word readable shape)
      (print_word readable' shapes.symm) ends ends' same
    exact ⟨same_word readable readable' shape shapes.symm (String.toList_inj.mp prints), behind⟩
  | quoted =>
    rw [shape] at shapes
    obtain ⟨s, span, rfl⟩ := quoted_iff.mp shape
    obtain ⟨s', span', rfl⟩ := quoted_iff.mp shapes.symm
    obtain ⟨rfl, behind⟩ := Text.quote_prefix same
    exact ⟨rfl, behind⟩
  | node => exact absurd shape leaf

theorem field_cases {e field : Expr} (member : field ∈ e.fields) :
    field ∈ e.children ∨ ∃ n args span, e = call n args span ∧ field = name n span := by
  cases e with
  | call n args span =>
    rcases List.mem_cons.mp member with callee | arg
    · exact .inr ⟨n, args, span, rfl, callee⟩
    · exact .inl arg
  | literal | name | group | unary | binary | logical | ternary => exact .inl member

theorem readable_field {e field : Expr} (readable : e.Readable) (member : field ∈ e.fields) :
    field.Readable := by
  intro n below
  rcases field_cases member with child | ⟨callee, args, span, rfl, rfl⟩
  · exact readable n (child_terminals child below)
  · refine readable n ?_
    rw [terminals, List.mem_singleton] at below
    rw [terminals, below]
    exact List.mem_cons_self

theorem decodes_node {e : Expr} (readable : e.Readable) (node : e.shape = .node)
    (each : ∀ field ∈ e.fields, Decodes field) : Decodes e := by
  intro e' rest rest' readable' _ _ same
  have node' : e'.shape = .node := by rw [← same_shape readable readable' same, node]
  rw [print_node node, print_node node'] at same
  simp only [List.cons_append, List.append_assoc, List.cons.injEq, true_and, List.nil_append]
    at same
  obtain ⟨heads, behind⟩ := word_prefix (head_word node) (head_word node') (ends_of_all _ _)
    (ends_of_all _ _) same
  obtain ⟨fields, rests⟩ := decodes_all each (fun field => readable_field readable') behind
  refine ⟨Option.some.inj ?_, rests⟩
  rw [← assembled_fields node, ← assembled_fields node', fields, String.toList_inj.mp heads]

theorem decodes (e : Expr) (readable : e.Readable) : Decodes e := by
  by_cases node : e.shape = .node
  · refine decodes_node readable node fun field member => ?_
    have readable_here := readable_field readable member
    rcases field_cases member with below | ⟨n, args, span, rfl, rfl⟩
    · exact decodes field readable_here
    · exact decodes_leaf readable_here nofun
  · exact decodes_leaf readable node
termination_by sizeOf e
decreasing_by exact child_smaller below

end Expr

theorem Lexer.tokens_spelled {behind : List Char} {words : List Word} {k : Nat} {t : Token}
    (steady : WordsSteady behind words) (member : t ∈ tokensFrom k words) :
    ∃ w, Spelled w t.terminal := by
  induction words generalizing k with
  | nil => cases member
  | cons word words ih =>
    rcases List.mem_cons.mp member with rfl | later
    · exact ⟨word.lexeme, steady.1.spelled⟩
    · exact ih steady.2 later

theorem Parser.parsed_readable {source : String} {e : Expr} (parsed : parse source = .ok e) :
    e.Readable := by
  obtain ⟨p, rfl, -, behind, words, -, steady, same⟩ := parse_ok_words parsed
  intro n member
  rw [Grammar.phrase_terminals, same] at member
  obtain ⟨t, lexed, identifier⟩ := List.mem_map.mp member
  obtain ⟨w, spelled⟩ := Lexer.tokens_spelled steady lexed
  rw [identifier] at spelled
  exact Expr.spelled_name spelled

/-- Two trees that are parsed print the same exactly if they differ in spans and in the forms of
numbers at most. -/
theorem print_faithful {source source' : String} {e e' : Expr} (parsed : parse source = .ok e)
    (parsed' : parse source' = .ok e') : e.print = e'.print ↔ e.skeleton = e'.skeleton := by
  constructor
  · intro same
    have ends : Expr.Ends [] := nofun
    have chars : e.print.toList ++ [] = e'.print.toList ++ [] := by rw [same]
    exact (e.decodes (Parser.parsed_readable parsed) (Parser.parsed_readable parsed') ends ends
      chars).1
  · intro same
    rw [← e.print_skeleton, same, e'.print_skeleton]

theorem parsed_of_print (source text : String)
    (prints : (parse source).toOption.map Expr.print = some text) :
    ∃ e, parse source = .ok e ∧ e.print = text := by
  cases parsed : parse source with
  | error e =>
    rw [parsed] at prints
    cases prints
  | ok e =>
    rw [parsed] at prints
    exact ⟨e, rfl, Option.some.inj prints⟩

theorem print_faithful_of_spelling :
    ∃ e e', parse "1.50 + f( 'a b)' )" = .ok e ∧ parse "1.5+f(\"a b)\")" = .ok e' ∧
      e.print = "(+ 1.5 (call f \"a b)\"))" ∧ e'.print = "(+ 1.5 (call f \"a b)\"))" ∧
      e.skeleton = e'.skeleton := by
  obtain ⟨e, parsed, prints⟩ := parsed_of_print "1.50 + f( 'a b)' )"
    "(+ 1.5 (call f \"a b)\"))" (by decide +kernel)
  obtain ⟨e', parsed', prints'⟩ := parsed_of_print "1.5+f(\"a b)\")"
    "(+ 1.5 (call f \"a b)\"))" (by decide +kernel)
  exact ⟨e, e', parsed, parsed', prints, prints',
    (print_faithful parsed parsed').mp (prints.trans prints'.symm)⟩

end Formula
