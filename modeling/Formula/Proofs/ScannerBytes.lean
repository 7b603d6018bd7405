import Formula.Proofs.Lexing
import Formula.Proofs.Scanner

set_option autoImplicit false

namespace Formula

open Lexer (Munch byte_length_append byte_length_cons byte_length_source)

theorem utf8_append (a b : List Char) : utf8 (a ++ b) = utf8 a ++ utf8 b := List.flatMap_append

theorem utf8_length (cs : List Char) : (utf8 cs).length = byteLength cs := by
  induction cs with
  | nil => rfl
  | cons c cs ih =>
    rw [utf8, List.flatMap_cons, List.length_append, String.length_utf8EncodeChar, byte_length_cons]
    exact congrArg _ ih

theorem encode_narrow {c : Char} (narrow : c.toNat < 128) :
    (String.utf8EncodeChar c).map Char.ofUInt8 = [c] := by
  have small : c.val.toNat ≤ 127 := Nat.le_of_lt_succ narrow
  simp only [String.utf8EncodeChar, if_pos small, List.map_cons, List.map_nil]
  congr 1
  apply Char.ext
  apply UInt32.toNat_inj.mp
  change (UInt8.ofNat c.val.toNat).toNat = c.val.toNat
  rw [UInt8.toNat_ofNat']
  omega

theorem encode_wide {c : Char} (wide : 128 ≤ c.toNat) {b : UInt8}
    (member : b ∈ String.utf8EncodeChar c) : 128 ≤ (Char.ofUInt8 b).toNat := by
  have large : ¬ c.val.toNat ≤ 127 := Nat.not_le_of_lt wide
  change 128 ≤ b.toNat
  simp only [String.utf8EncodeChar, if_neg large] at member
  split at member
  · rcases List.mem_cons.mp member with rfl | member
    · rw [UInt8.toNat_ofNat']
      omega
    · rw [List.mem_singleton.mp member, UInt8.toNat_ofNat']
      omega
  split at member
  · simp only [List.mem_cons, List.not_mem_nil, or_false] at member
    rcases member with rfl | rfl | rfl <;> rw [UInt8.toNat_ofNat'] <;> omega
  · simp only [List.mem_cons, List.not_mem_nil, or_false] at member
    rcases member with rfl | rfl | rfl | rfl <;> rw [UInt8.toNat_ofNat'] <;> omega

def Uniform (p : Char → Bool) : Prop := ∃ v, ∀ c : Char, 128 ≤ c.toNat → p c = v

theorem uniform_bytes {p : Char → Bool} (uniform : Uniform p) {c : Char} {b : UInt8}
    (member : b ∈ String.utf8EncodeChar c) : p (Char.ofUInt8 b) = p c := by
  by_cases narrow : c.toNat < 128
  · have only := List.mem_map_of_mem (f := Char.ofUInt8) member
    rw [encode_narrow narrow, List.mem_singleton] at only
    rw [only]
  · obtain ⟨v, same⟩ := uniform
    have wide := Nat.le_of_not_lt narrow
    rw [same _ wide, same _ (encode_wide wide member)]

theorem take_while_utf8 {p : Char → Bool} (uniform : Uniform p) (cs : List Char) :
    (utf8 cs).takeWhile (p ∘ Char.ofUInt8) = utf8 (cs.takeWhile p) := by
  induction cs with
  | nil => rfl
  | cons c cs ih =>
    have each (b : UInt8) (member : b ∈ String.utf8EncodeChar c) :
        (p ∘ Char.ofUInt8) b = p c := uniform_bytes uniform member
    rw [utf8, List.flatMap_cons, List.takeWhile_cons]
    by_cases passes : p c = true
    · rw [List.takeWhile_append_of_pos (fun b member => (each b member).trans passes), if_pos passes,
        utf8, List.flatMap_cons]
      exact congrArg _ ih
    · rw [if_neg passes]
      cases bytes : String.utf8EncodeChar c with
      | nil => exact absurd bytes String.utf8EncodeChar_ne_nil
      | cons b bytes' =>
        have first := each b (by rw [bytes]; exact List.mem_cons_self)
        rw [List.cons_append, List.takeWhile_cons_of_neg (by rwa [first])]
        rfl

theorem split_bytes_append (front back : List Char) :
    splitBytes (byteLength front) (front ++ back) = some (front, back) := by
  induction front with
  | nil => cases back <;> rfl
  | cons c front ih =>
    obtain ⟨n, size⟩ := Nat.exists_eq_succ_of_ne_zero (Nat.ne_of_gt c.utf8Size_pos)
    have bytes : byteLength (c :: front) = n + byteLength front + 1 := by
      rw [byte_length_cons, size]
      omega
    have left : n + byteLength front + 1 - c.utf8Size = byteLength front := by omega
    rw [bytes, List.cons_append, splitBytes, if_pos (by omega), left, ih]
    rfl

namespace Scanner

open Lexer (Cursor Within isLayout isNameStart isNamePart munch malformation)

-- What stands before the token that is scanned, what of it was taken, and what is behind. Both
-- bytes of the scanner are boundaries of characters.
structure Stands (source : String) (front taken rest : List Char) (s : Scanner) : Prop where
  whole : s.source = source
  text : source.toList = front ++ (taken ++ rest)
  start : s.start = byteLength front
  current : s.current = byteLength front + byteLength taken

section

variable {source : String} {front taken rest cs : List Char} {c : Char} {s : Scanner}
  {p : Char → Bool}

theorem bytes_ahead (stands : Stands source front taken rest s) :
    (utf8 s.source.toList).drop s.current = utf8 rest := by
  have before : s.current = (utf8 (front ++ taken)).length := by
    rw [utf8_length, byte_length_append, stands.current]
  rw [stands.whole, stands.text, ← List.append_assoc, utf8_append, before, List.drop_left]

theorem at_end_iff (stands : Stands source front taken rest s) :
    s.isAtEnd = true ↔ rest = [] := by
  have size : s.source.utf8ByteSize = s.current + byteLength rest := by
    rw [stands.whole, ← byte_length_source, stands.text, byte_length_append, byte_length_append,
      stands.current, Nat.add_assoc]
  rw [isAtEnd, decide_eq_true_iff, size]
  cases rest with
  | nil => exact iff_of_true (Nat.le_refl _) rfl
  | cons c cs =>
    have some := Lexer.byte_length_positive (List.cons_ne_nil c cs)
    exact iff_of_false (by omega) nofun

theorem peek_eq (stands : Stands source front taken rest s) :
    s.peek = Char.ofUInt8 ((utf8 rest).head?.getD 0) := by
  rw [peek, ← bytes_ahead stands, List.head?_drop]

theorem peek_end (stands : Stands source front taken [] s) : s.peek = '\x00' := peek_eq stands

theorem peek_more (stands : Stands source front taken (c :: cs) s) (uniform : Uniform p) :
    p s.peek = p c := by
  rw [peek_eq stands, utf8, List.flatMap_cons]
  cases bytes : String.utf8EncodeChar c with
  | nil => exact absurd bytes String.utf8EncodeChar_ne_nil
  | cons b bytes' => exact uniform_bytes uniform (by rw [bytes]; exact List.mem_cons_self)

theorem peek_any (stands : Stands source front taken rest s) (uniform : Uniform p)
    (nul : p '\x00' = false) : p s.peek = rest.head?.any p := by
  cases rest with
  | nil => rw [peek_end stands, nul]; rfl
  | cons c cs => exact peek_more stands uniform

theorem uniform_eq {e : Char} (narrow : e.toNat < 128) : Uniform (· == e) := by
  refine ⟨false, fun c wide => beq_eq_false_iff_ne.mpr ?_⟩
  rintro rfl
  exact Nat.not_lt_of_le wide narrow

theorem uniform_ne {e : Char} (narrow : e.toNat < 128) : Uniform (· != e) := by
  obtain ⟨v, same⟩ := uniform_eq narrow
  exact ⟨!v, fun c wide => congrArg _ (same c wide)⟩

theorem narrow_size (narrow : c.toNat < 128) : c.utf8Size = 1 := by
  rw [Char.utf8Size_eq_one_iff]
  exact UInt32.le_iff_toNat_le.mpr (Nat.le_of_lt_succ narrow)

theorem advance_stands (stands : Stands source front taken (c :: cs) s) (narrow : c.toNat < 128) :
    Stands source front (taken ++ [c]) cs s.advance := by
  refine ⟨stands.whole, ?_, stands.start, ?_⟩
  · rw [stands.text, List.append_assoc taken, List.singleton_append]
  · rw [byte_length_append, byte_length_cons, narrow_size narrow, advance, stands.current]
    rfl

theorem ended_or_peeked (s : Scanner) :
    s.isAtEnd = true ∧ (utf8 s.source.toList).drop s.current = [] ∨
      ¬ s.isAtEnd = true ∧ ∃ b, s.peek = Char.ofUInt8 b ∧
        (utf8 s.source.toList).drop s.current =
          b :: (utf8 s.source.toList).drop s.advance.current := by
  have size : (utf8 s.source.toList).length = s.source.utf8ByteSize := by
    rw [utf8_length, byte_length_source]
  rw [isAtEnd, decide_eq_true_iff, ← size]
  by_cases past : (utf8 s.source.toList).length ≤ s.current
  · exact .inl ⟨past, List.drop_eq_nil_of_le past⟩
  · have inside := Nat.lt_of_not_le past
    refine .inr ⟨past, (utf8 s.source.toList)[s.current], ?_, List.drop_eq_getElem_cons inside⟩
    rw [peek, List.getElem?_eq_getElem inside, Option.getD_some]

theorem pass_while_eq (p : Char → Bool) (s : Scanner) :
    s.passWhile p = { s with
      current := s.current +
        (((utf8 s.source.toList).drop s.current).takeWhile (p ∘ Char.ofUInt8)).length } := by
  rcases ended_or_peeked s with ⟨ended, nothing⟩ | ⟨more, b, first, behind⟩
  · rw [passWhile, if_pos ended, nothing]
    rfl
  · rw [passWhile, if_neg more, behind, List.takeWhile_cons, Function.comp_apply, ← first]
    by_cases passes : p s.peek = true
    · rw [if_pos passes, if_pos passes, pass_while_eq p s.advance, List.length_cons]
      simp only [advance, Nat.add_assoc, Nat.add_comm 1]
    · rw [if_neg passes, if_neg passes]
      rfl
termination_by s.source.utf8ByteSize - s.current
decreasing_by
  simp only [isAtEnd, decide_eq_true_eq] at more
  simp only [advance]
  omega

theorem pass_stands (stands : Stands source front taken rest s) (uniform : Uniform p) :
    Stands source front (taken ++ rest.takeWhile p) (rest.dropWhile p) (s.passWhile p) := by
  rw [pass_while_eq, bytes_ahead stands, take_while_utf8 uniform, utf8_length]
  refine ⟨stands.whole, ?_, stands.start, ?_⟩
  · rw [List.append_assoc, List.takeWhile_append_dropWhile]
    exact stands.text
  · rw [byte_length_append, ← Nat.add_assoc, stands.current]

theorem run_stands (stands : Stands source front [c] cs s) (uniform : Uniform p)
    (first : p c = true) :
    Stands source front ((c :: cs).takeWhile p) ((c :: cs).dropWhile p) (s.passWhile p) := by
  rw [List.takeWhile_cons_of_pos first, List.dropWhile_cons_of_pos first]
  exact pass_stands stands uniform

theorem begin_stands (stands : Stands source front taken rest s) :
    Stands source (front ++ taken) [] rest { s with start := s.current } := by
  have current : s.current = byteLength (front ++ taken) := by
    rw [stands.current, byte_length_append]
  refine ⟨stands.whole, ?_, current, current⟩
  rw [stands.text, List.append_assoc]
  rfl

theorem byte_matches (stands : Stands source front taken (c :: cs) s) (narrow : c.toNat < 128) :
    s.matchByte c = (true, s.advance) := by
  have more : s.isAtEnd = false := Bool.eq_false_iff.mpr fun ended => by
    cases (at_end_iff stands).mp ended
  rw [matchByte, more, peek_more (p := (· != c)) stands (uniform_ne narrow), bne_self_eq_false]
  rfl

theorem byte_differs (stands : Stands source front taken rest s) (narrow : c.toNat < 128)
    (other : ∀ cs, rest ≠ c :: cs) : s.matchByte c = (false, s) := by
  rw [matchByte]
  cases rest with
  | nil =>
    rw [(at_end_iff stands).mpr rfl]
    rfl
  | cons d ds =>
    have apart : (d != c) = true := bne_iff_ne.mpr fun same => other ds (by rw [same])
    rw [peek_more (p := (· != c)) stands (uniform_ne narrow), apart, Bool.or_true]
    rfl

theorem slice_reads {span : Span} {text : List Char} (reads : Lexer.Reads source span text)
    (whole : s.source = source) : s.slice span.start span.stop = .ok (String.ofList text) := by
  obtain ⟨before, after, split, rfl⟩ := reads
  have inner : splitBytes (byteLength before + byteLength text) source.toList =
      some (before ++ text, after) := by
    rw [← byte_length_append, split, ← List.append_assoc]
    exact split_bytes_append _ _
  rw [slice, whole, inner, Option.bind_some]
  dsimp only
  rw [split_bytes_append]

theorem lexeme_stands (stands : Stands source front taken rest s) :
    s.lexeme = .ok (String.ofList taken) := by
  rw [lexeme, stands.start, stands.current]
  exact slice_reads ⟨front, rest, stands.text, rfl⟩ stands.whole

theorem quoted_stands (narrow : c.toNat < 128)
    (stands : Stands source front ([c] ++ cs ++ [c]) rest s) :
    s.slice (s.start + 1) (s.current - 1) = .ok (String.ofList cs) := by
  have one : c.utf8Size = 1 := narrow_size narrow
  have text : source.toList = (front ++ [c]) ++ (cs ++ (c :: rest)) := by
    rw [stands.text]
    simp
  have start : s.start + 1 = byteLength (front ++ [c]) := by
    rw [stands.start, byte_length_append, byte_length_cons, one]
    rfl
  have stop : s.current - 1 = byteLength (front ++ [c]) + byteLength cs := by
    have nothing : byteLength [] = 0 := rfl
    rw [stands.current]
    simp only [byte_length_append, byte_length_cons, one, nothing]
    omega
  rw [start, stop]
  exact slice_reads ⟨front ++ [c], c :: rest, text, rfl⟩ stands.whole

theorem make_token_stands (stands : Stands source front taken rest s) (type : TokenType)
    (literal : Option Value) :
    s.makeToken type literal = .ok ⟨type, literal, String.ofList taken,
      byteLength front + byteLength taken,
      ⟨byteLength front, byteLength front + byteLength taken⟩⟩ := by
  rw [makeToken, lexeme_stands stands, span, stands.start, stands.current]
  rfl

end

end Scanner

end Formula
