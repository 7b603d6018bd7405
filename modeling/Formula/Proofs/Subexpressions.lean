import Formula.Proofs.LexicalGrammar
import Formula.Proofs.MovedSpans
import Formula.Proofs.PhraseSpans

set_option autoImplicit false

namespace Formula

def Move.right (k : Nat) : Move where
  place span := ⟨span.start + k, span.stop + k⟩
  covers a b := by
    simp only [Span.cover, Nat.add_le_add_iff_right, apply_ite (· + k)]

@[simp] theorem Move.right_place (k : Nat) (span : Span) :
    (Move.right k).place span = ⟨span.start + k, span.stop + k⟩ := rfl

namespace Lexer

theorem byte_length_words (word : Word) (words : List Word) :
    byteLength (textOf [] (word :: words)) =
      byteLength word.gap + (byteLength word.lexeme + byteLength (textOf [] words)) := by
  rw [textOf, byte_length_append, byte_length_append]

theorem text_append (behind : List Char) (front back : List Word) :
    textOf behind (front ++ back) = textOf [] front ++ textOf behind back := by
  induction front with
  | nil => rfl
  | cons word words ih => simp only [List.cons_append, textOf, ih, List.append_assoc]

theorem tokens_split {k : Nat} {words : List Word} {before after : List Token}
    (split : tokensFrom k words = before ++ after) :
    ∃ front back, words = front ++ back ∧ tokensFrom k front = before ∧
      tokensFrom (k + byteLength (textOf [] front)) back = after := by
  induction before generalizing k words with
  | nil => exact ⟨[], words, rfl, rfl, split⟩
  | cons t before ih =>
    cases words with
    | nil => cases split
    | cons word words =>
      obtain ⟨first, later⟩ := List.cons.inj split
      obtain ⟨front, back, rfl, same, rest⟩ := ih later
      refine ⟨word :: front, back, rfl, ?_, ?_⟩
      · rw [tokensFrom, first, same]
      · simpa only [textOf, byte_length_append, Nat.add_assoc] using rest

theorem tokens_moved (j k : Nat) (words : List Word) :
    (tokensFrom j words).map (Token.move (.right k)) = tokensFrom (j + k) words := by
  induction words generalizing j with
  | nil => rfl
  | cons word words ih =>
    have start : j + byteLength word.gap + k = j + k + byteLength word.gap :=
      Nat.add_right_comm _ _ _
    simp only [tokensFrom, List.map_cons, ih, Token.move, Move.right_place, start,
      Nat.add_right_comm _ (byteLength word.lexeme) k]

theorem tokens_behind {k : Nat} {words : List Word} {t : Token} (member : t ∈ tokensFrom k words) :
    k ≤ t.span.start ∧ t.span.start ≤ t.span.stop := by
  induction words generalizing k with
  | nil => cases member
  | cons word words ih =>
    rcases List.mem_cons.mp member with rfl | later
    · exact ⟨Nat.le_add_right _ _, Nat.le_add_right _ _⟩
    · have := ih later
      omega

theorem tokens_ordered (k : Nat) (words : List Word) : Ordered (tokensFrom k words) := by
  refine ⟨fun t member => (tokens_behind member).2, ?_⟩
  induction words generalizing k with
  | nil => exact .nil
  | cons word words ih => exact .cons (fun t member => (tokens_behind member).1) (ih _)

theorem tokens_end (k : Nat) (word : Word) (words : List Word) :
    ∃ last ∈ (tokensFrom k (word :: words)).getLast?,
      last.span.stop = k + byteLength (textOf [] (word :: words)) := by
  induction words generalizing k word with
  | nil =>
    refine ⟨_, rfl, ?_⟩
    rw [byte_length_words]
    exact Nat.add_assoc _ _ _
  | cons next words ih =>
    obtain ⟨last, member, stop⟩ := ih (k + byteLength word.gap + byteLength word.lexeme) next
    refine ⟨last, ?_, ?_⟩
    · rw [tokensFrom, tokensFrom, List.getLast?_cons_cons]
      exact member
    · rw [stop, byte_length_words word]
      omega

theorem stops_before {w rest more : List Char} (stops : Stops w (rest ++ more)) : Stops w rest := by
  intro next first
  obtain ⟨tail, rfl⟩ := List.head?_eq_some_iff.mp first
  exact stops next rfl

theorem steady_front {behind : List Char} {front back : List Word}
    (steady : WordsSteady behind (front ++ back)) : WordsSteady [] front := by
  induction front with
  | nil => exact nofun
  | cons word words ih =>
    have first : word.Steady (textOf behind (words ++ back)) := steady.1
    rw [text_append] at first
    exact ⟨{ first with stops := stops_before first.stops }, ih steady.2⟩

theorem steady_back {behind : List Char} {front back : List Word}
    (steady : WordsSteady behind (front ++ back)) : WordsSteady behind back := by
  induction front with
  | nil => exact steady
  | cons word words ih => exact ih steady.2

structure Piece (text : List Char) (own : List Token) (words : List Word) (start : Nat) : Prop where
  steady : WordsSteady [] words
  tokens : own = tokensFrom start words
  spans : Spans own ⟨start, start + byteLength (textOf [] words)⟩
  part : ∃ front back, text = front ++ (textOf [] words ++ back) ∧ byteLength front = start

theorem piece_of_tokens {behind : List Char} {words : List Word} {before own after : List Token}
    (steady : WordsSteady behind words)
    (split : before ++ (own ++ after) = tokensFrom 0 words) (some : own ≠ []) :
    ∃ piece start, Piece (textOf behind words) own piece start := by
  obtain ⟨front, back, rfl, -, rest⟩ := tokens_split split.symm
  obtain ⟨mid, back, rfl, rfl, -⟩ := tokens_split rest
  have alone := steady_front (steady_back steady)
  cases mid with
  | nil => exact absurd rfl some
  | cons word words =>
    -- The gap before the first word is no part of the piece.
    let first : Word := { word with gap := [] }
    obtain ⟨last, member, stop⟩ := tokens_end
      (0 + byteLength (textOf [] front) + byteLength word.gap) first words
    refine ⟨first :: words, 0 + byteLength (textOf [] front) + byteLength word.gap,
      ⟨{ alone.1 with layout := nofun }, alone.2⟩, rfl, ⟨_, rfl, last, member, ?_⟩,
      textOf [] front ++ word.gap, textOf behind back, ?_, ?_⟩
    · rw [stop]
    · rw [text_append, text_append]
      simp [textOf, first]
    · rw [byte_length_append, Nat.zero_add]

end Lexer

namespace Parser

open Grammar
open Lexer

theorem parse_ok_words {source : String} {e : Expr} (ok : parse source = .ok e) :
    ∃ p : Phrase .expression, p.tree = e ∧
      tokens source = .ok (p.tokens ++ [.eofAt source.utf8ByteSize]) ∧
      ∃ behind words, source.toList = textOf behind words ∧ WordsSteady behind words ∧
        p.tokens = tokensFrom 0 words := by
  obtain ⟨eof, ending, p, same, tree⟩ := (complete_ok_iff _ _).mp ok
  rw [lex_ending ending] at ending
  have read := tokens_ok_iff.mpr ⟨ending, rfl⟩
  rw [← same] at read
  obtain ⟨behind, words, text, steady, split⟩ := tokens_iff_words.mp read
  exact ⟨p, tree, read, behind, words, text, steady, List.append_cancel_right split⟩

theorem parse_moved {source : String} {behind : List Char} {words : List Word}
    (text : source.toList = textOf behind words) (steady : WordsSteady behind words)
    {start : Nat} {p : Phrase .expression} (same : p.tokens = tokensFrom start words) :
    ∃ m, parse source = .ok m ∧ m.move (.right start) = p.tree := by
  have ok : complete ((lex source).move (.right start)) = .ok p.tree := by
    rw [complete_ok_iff, lex_words text steady]
    refine ⟨_, rfl, p, ?_, rfl⟩
    rw [same, Lexed.move, tokens_moved, Nat.zero_add]
  rw [complete_moved] at ok
  cases read : complete (lex source) with
  | error e =>
    rw [read] at ok
    cases ok
  | ok m =>
    rw [read] at ok
    exact ⟨m, read, Except.ok.inj ok⟩

theorem tokens_written {n : Nonterminal} (p : Phrase n) : p.tokens ≠ [] := by
  obtain ⟨first, more, opens, -⟩ := phrase_opens p
  rw [opens]
  exact List.cons_ne_nil _ _

end Parser

open Grammar in
/-- Every node of a parsed tree has the span of its own tokens, from the start of the first to the
end of the last. Its children lie inside, one behind the other. The stretch of the source under it
parses by itself, to the same node at the start of its own text. -/
theorem node_spans_exact {source : String} {e n : Expr} (ok : parse source = .ok e)
    (node : n ∈ e.nodes) :
    (∃ p : Phrase .expression, p.tree = n ∧ Spans p.tokens n.span ∧ ∃ before after,
      Lexer.tokens source = .ok (before ++ (p.tokens ++ after))) ∧
    (∀ child ∈ n.children, n.span.start ≤ child.span.start ∧ child.span.stop ≤ n.span.stop) ∧
    (n.children.Pairwise fun a b => a.span.stop ≤ b.span.start) ∧
    ∃ text m, Lexer.Reads source n.span text ∧ parse (String.ofList text) = .ok m ∧
      m.move (.right n.span.start) = n := by
  obtain ⟨whole, rfl, read, behind, words, text, steady, same⟩ := Parser.parse_ok_words ok
  obtain ⟨p, rfl, before, after, split⟩ := node_phrase whole node
  have ordered := Lexer.tokens_ordered 0 words
  rw [← same] at ordered
  have own := ordered_sublist (part_sublist split) ordered
  have spans := phrase_spans p own
  refine ⟨⟨p, rfl, spans, before, after ++ [.eofAt source.utf8ByteSize], ?_⟩,
    fun child below => child_inside p own below, arranged_apart (children_arranged p) own, ?_⟩
  · rw [read, ← split]
    simp
  · obtain ⟨piece, start, alone⟩ :=
      Lexer.piece_of_tokens steady (split.trans same) (Parser.tokens_written p)
    obtain ⟨front, back, part, place⟩ := alone.part
    have span := spans_unique spans alone.spans
    obtain ⟨m, parsed, moved⟩ := Parser.parse_moved (String.toList_ofList) alone.steady alone.tokens
    refine ⟨_, m, ⟨front, back, text.trans part, ?_⟩, parsed, ?_⟩
    · rw [span, place]
    · rw [span, moved]

theorem node_spans_exact_of_product :
    ∃ e n, parse "(a - b) * c" = .ok e ∧ n ∈ e.nodes ∧ n.span = ⟨1, 6⟩ ∧
      ∃ text m, Lexer.Reads "(a - b) * c" ⟨1, 6⟩ text ∧ parse (String.ofList text) = .ok m ∧
        m.move (.right 1) = n := by
  have spans : (parse "(a - b) * c").toOption.map (fun e => e.nodes.map Expr.span) =
      some [⟨0, 11⟩, ⟨0, 7⟩, ⟨1, 6⟩, ⟨1, 2⟩, ⟨5, 6⟩, ⟨10, 11⟩] := by decide +kernel
  cases parsed : parse "(a - b) * c" with
  | error e =>
    rw [parsed] at spans
    cases spans
  | ok e =>
    rw [parsed] at spans
    have listed : e.nodes.map Expr.span = _ := Option.some.inj spans
    have inside : ⟨1, 6⟩ ∈ e.nodes.map Expr.span := by simp [listed]
    obtain ⟨n, node, span⟩ := List.mem_map.mp inside
    obtain ⟨-, -, -, text, m, reads, alone, moved⟩ := node_spans_exact parsed node
    rw [span] at reads moved
    exact ⟨e, n, rfl, node, span, text, m, reads, alone, moved⟩

end Formula
