import Formula.Console
import Formula.Proofs.Lexeme
import Mathlib.Data.List.TakeWhile

set_option autoImplicit false

namespace Formula

namespace Text

def Blank (cs : List Char) : Prop := ∀ c ∈ cs, isBlank c = true

structure Solid (cs : List Char) : Prop where
  front : ∃ c more, cs = c :: more ∧ isBlank c = false
  back : ∃ more c, cs = more ++ [c] ∧ isBlank c = false

theorem trim_start_eq {front core : List Char} (blank : Blank front) {c : Char} {more : List Char}
    (solid : core = c :: more ∧ isBlank c = false) : trimStart (front ++ core) = core := by
  rw [trimStart, List.dropWhile_append_of_pos blank, solid.1, List.dropWhile_cons_of_neg]
  rw [solid.2]
  exact Bool.false_ne_true

theorem trim_end_eq {core back : List Char} (blank : Blank back) {c : Char} {more : List Char}
    (solid : core = more ++ [c] ∧ isBlank c = false) : trimEnd (core ++ back) = core := by
  have reversed : Blank back.reverse := fun c member => blank c (List.mem_reverse.mp member)
  have dropped := trim_start_eq reversed
    (show core.reverse = c :: more.reverse ∧ isBlank c = false from
      ⟨by rw [solid.1, List.reverse_append]; rfl, solid.2⟩)
  rw [trimStart] at dropped
  rw [trimEnd, List.reverse_append, dropped, List.reverse_reverse]

theorem trim_eq {front core back : List Char} (blankFront : Blank front) (blankBack : Blank back)
    (solid : Solid core) : trim (front ++ (core ++ back)) = core := by
  obtain ⟨c, more, form, solid_front⟩ := solid.front
  obtain ⟨more', d, form', solid_back⟩ := solid.back
  rw [trim, trim_start_eq blankFront ⟨by rw [form]; rfl, solid_front⟩,
    trim_end_eq blankBack ⟨form', solid_back⟩]

theorem drop_blank {cs : List Char} (some : cs.dropWhile isBlank ≠ []) :
    ∃ c more, cs.dropWhile isBlank = c :: more ∧ isBlank c = false := by
  obtain ⟨c, more, form⟩ := List.exists_cons_of_ne_nil some
  refine ⟨c, more, form, ?_⟩
  have head := List.head_dropWhile_not isBlank some
  simpa only [form, List.head_cons] using head

theorem take_blank (cs : List Char) : Blank (cs.takeWhile isBlank) :=
  fun _ member => List.mem_takeWhile_imp member

theorem trim_parts {cs : List Char} (some : trim cs ≠ []) :
    ∃ front back, cs = front ++ (trim cs ++ back) ∧ Blank front ∧ Blank back ∧ Solid (trim cs) := by
  have behind : trimStart cs = trim cs ++ ((trimStart cs).reverse.takeWhile isBlank).reverse := by
    rw [trim, trimEnd, ← List.reverse_append, List.takeWhile_append_dropWhile,
      List.reverse_reverse]
  have solid_back : (trimStart cs).reverse.dropWhile isBlank ≠ [] := by
    intro nothing
    rw [trim, trimEnd, nothing] at some
    exact some rfl
  have solid_front : cs.dropWhile isBlank ≠ [] := by
    intro nothing
    rw [trim, trimStart, nothing] at some
    exact some rfl
  obtain ⟨d, more', form', solid'⟩ := drop_blank solid_back
  obtain ⟨c, more, form, solid⟩ := drop_blank solid_front
  refine ⟨cs.takeWhile isBlank, ((trimStart cs).reverse.takeWhile isBlank).reverse, ?_,
    take_blank cs, fun c member => take_blank _ c (List.mem_reverse.mp member), ?_, ?_⟩
  · rw [← behind, trimStart, List.takeWhile_append_dropWhile]
  · obtain ⟨e, rest, trimmed⟩ := List.exists_cons_of_ne_nil some
    rw [trimStart, form, trimmed, List.cons_append, List.cons.injEq] at behind
    exact ⟨e, rest, trimmed, behind.1 ▸ solid⟩
  · exact ⟨more'.reverse, d, by rw [trim, trimEnd, form', List.reverse_cons], solid'⟩

theorem trim_blank_front {front cs : List Char} (blank : Blank front) (some : trim cs ≠ []) :
    trim (front ++ cs) = trim cs := by
  obtain ⟨more, back, form, blankMore, blankBack, solid⟩ := trim_parts some
  calc
    trim (front ++ cs) = trim ((front ++ more) ++ (trim cs ++ back)) := by
      rw [List.append_assoc, ← form]
    _ = trim cs := trim_eq (List.forall_mem_append.mpr ⟨blank, blankMore⟩) blankBack solid

theorem trim_blank_back {cs back : List Char} (blank : Blank back) (some : trim cs ≠ []) :
    trim (cs ++ back) = trim cs := by
  obtain ⟨front, more, form, blankFront, blankMore, solid⟩ := trim_parts some
  calc
    trim (cs ++ back) = trim (front ++ (trim cs ++ (more ++ back))) := by
      rw [← List.append_assoc (trim cs), ← List.append_assoc front, ← form]
    _ = trim cs := trim_eq blankFront (List.forall_mem_append.mpr ⟨blankMore, blank⟩) solid

theorem blank_nil : Blank [] := fun _ member => nomatch member

theorem trim_solid_self {cs : List Char} (solid : Solid cs) : trim cs = cs := by
  have trimmed := trim_eq blank_nil blank_nil solid
  rwa [List.append_nil, List.nil_append] at trimmed

theorem solid_of_trimmed {cs : List Char} (trimmed : trim cs = cs) (some : cs ≠ []) : Solid cs := by
  obtain ⟨_, _, _, _, _, solid⟩ := trim_parts (trimmed.symm ▸ some)
  rwa [trimmed] at solid

theorem solid_append {cs between ds : List Char} (front : Solid cs) (back : Solid ds) :
    Solid (cs ++ (between ++ ds)) := by
  obtain ⟨c, more, form, solid⟩ := front.front
  obtain ⟨more', d, form', solid'⟩ := back.back
  constructor
  · exact ⟨c, more ++ (between ++ ds), by rw [form, List.cons_append], solid⟩
  · exact ⟨cs ++ (between ++ more'), d, by rw [form']; simp only [List.append_assoc], solid'⟩

end Text

namespace Console

open Text (Blank Solid)

def ends (line : List Char) : Bool :=
  Text.trim line == ['e', 'x', 'i', 't'] || Text.trim line == ['q', 'u', 'i', 't']

def declaration? (line : List Char) : Option (String × String) :=
  match read (Text.trim line) with
  | .ok (.declare name source) => some (name, source)
  | _ => none

inductive LetLine (line : List Char) : List Char → List Char → Prop where
  | intro {blank : Char} {left right : List Char}
      (form : Text.trim line = ':' :: (['l', 'e', 't'] ++ blank :: (left ++ '=' :: right)))
      (gap : Text.isBlank blank = true) (first : '=' ∉ left)
      (name : isName (Text.trim left) = true) (source : Text.trim right ≠ []) :
      LetLine line (Text.trim left) (Text.trim right)

theorem not_equals {around : List Char} (first : '=' ∉ around) :
    ∀ c ∈ around, (c != '=') = true := by
  intro c member
  rw [bne_iff_ne]
  rintro rfl
  exact first member

theorem cut_at_equals {around : List Char} (first : '=' ∉ around) (behind : List Char) :
    (around ++ '=' :: behind).takeWhile (· != '=') = around ∧
      (around ++ '=' :: behind).dropWhile (· != '=') = '=' :: behind := by
  constructor
  · rw [List.takeWhile_append_of_pos (not_equals first), List.takeWhile_cons_of_neg (by simp),
      List.append_nil]
  · rw [List.dropWhile_append_of_pos (not_equals first)]
    rfl

theorem first_equals {cs behind : List Char} {c : Char}
    (rest : cs.dropWhile (· != '=') = c :: behind) :
    '=' ∉ cs.takeWhile (· != '=') ∧ cs = cs.takeWhile (· != '=') ++ '=' :: behind := by
  have parts := List.takeWhile_append_dropWhile (p := (· != '=')) (l := cs)
  have head := List.head_dropWhile_not (· != '=') (l := cs) (by rw [rest]; simp)
  have equals : c = '=' := by simpa [rest] using head
  rw [rest, equals] at parts
  refine ⟨fun member => ?_, parts.symm⟩
  have test := List.mem_takeWhile_imp member
  simp at test

theorem read_split {around behind : List Char} (first : '=' ∉ around) :
    readDeclaration (around ++ '=' :: behind) =
      if !isName (Text.trim around) then
        .error (.invalidName (String.ofList (Text.trim around)))
      else if Text.trim behind = [] then .error .declareUsage
      else
        .ok (.declare (String.ofList (Text.trim around)) (String.ofList (Text.trim behind))) := by
  obtain ⟨taken, dropped⟩ := cut_at_equals first behind
  rw [readDeclaration, dropped, taken]

theorem split_of_read {argument : List Char} {name source : String}
    (declared : readDeclaration argument = .ok (.declare name source)) :
    ∃ around behind, argument = around ++ '=' :: behind ∧ '=' ∉ around ∧
      isName (Text.trim around) = true ∧ Text.trim behind ≠ [] ∧
      name = String.ofList (Text.trim around) ∧ source = String.ofList (Text.trim behind) := by
  cases rest : argument.dropWhile (· != '=') with
  | nil =>
    rw [readDeclaration, rest] at declared
    cases declared
  | cons c behind =>
    obtain ⟨first, parts⟩ := first_equals rest
    rw [parts, read_split first] at declared
    by_cases valid : isName (Text.trim (argument.takeWhile (· != '='))) = true
    · by_cases empty : Text.trim behind = []
      · rw [if_neg (by simp [valid]), if_pos empty] at declared
        cases declared
      · rw [if_neg (by simp [valid]), if_neg empty] at declared
        cases declared
        exact ⟨_, behind, parts, first, valid, empty, rfl, rfl⟩
    · rw [if_pos (by simp [valid])] at declared
      cases declared

theorem let_run {blank : Char} (gap : Text.isBlank blank = true) (behind : List Char) :
    (['l', 'e', 't'] ++ blank :: behind).takeWhile (!Text.isBlank ·) = ['l', 'e', 't'] ∧
      (['l', 'e', 't'] ++ blank :: behind).dropWhile (!Text.isBlank ·) = blank :: behind := by
  have word : ∀ c ∈ ['l', 'e', 't'], (!Text.isBlank c) = true := List.all_eq_true.mp rfl
  rw [List.takeWhile_append_of_pos word, List.dropWhile_append_of_pos word, List.takeWhile_cons,
    List.dropWhile_cons, gap]
  exact ⟨rfl, rfl⟩

theorem read_let (argument : List Char) :
    readKeyword ['l', 'e', 't'] argument = readDeclaration argument := rfl

theorem let_of_read {keyword argument : List Char} {name source : String}
    (declared : readKeyword keyword argument = .ok (.declare name source)) :
    keyword = ['l', 'e', 't'] ∧ readDeclaration argument = .ok (.declare name source) := by
  by_cases word : String.ofList keyword = "let"
  · have letters : keyword = ['l', 'e', 't'] := by
      rw [← String.toList_ofList (l := keyword), word]
      rfl
    rw [letters] at declared
    exact ⟨letters, declared⟩
  · rw [readKeyword] at declared
    simp only [if_neg word] at declared
    repeat' split at declared
    all_goals cases declared

theorem keyword_of_read {text : List Char} {name source : String}
    (declared : read text = .ok (.declare name source)) :
    ∃ rest, text = ':' :: rest ∧ rest.takeWhile (!Text.isBlank ·) = ['l', 'e', 't'] ∧
      readDeclaration (Text.trim (rest.dropWhile (!Text.isBlank ·))) =
        .ok (.declare name source) := by
  unfold read at declared
  split at declared
  · exact ⟨_, rfl, let_of_read declared⟩
  · dsimp only at declared
    split at declared <;> cases declared

theorem declaration_eq_some (line : List Char) (name source : String) :
    declaration? line = some (name, source) ↔
      read (Text.trim line) = .ok (.declare name source) := by
  rw [declaration?]
  split
  · rename_i declared
    rw [declared]
    simp
  · rename_i other
    constructor
    · intro found
      cases found
    · intro declared
      exact absurd declared (other name source)

theorem name_ne_nil {name : List Char} (valid : isName name = true) : name ≠ [] := by
  rintro rfl
  cases valid

theorem let_line_of_read {line : List Char} {name source : String}
    (declared : read (Text.trim line) = .ok (.declare name source)) :
    LetLine line name.toList source.toList := by
  obtain ⟨rest, text, word, argument⟩ := keyword_of_read declared
  obtain ⟨around, behind, split, first, valid, some, rfl, rfl⟩ := split_of_read argument
  have parts := List.takeWhile_append_dropWhile (p := (!Text.isBlank ·)) (l := rest)
  rw [word] at parts
  have some_argument : Text.trim (rest.dropWhile (!Text.isBlank ·)) ≠ [] := by
    rw [split]
    simp
  obtain ⟨front, back, trimmed, blankFront, blankBack, solid⟩ := Text.trim_parts some_argument
  rw [split] at trimmed solid
  rw [String.toList_ofList, String.toList_ofList]
  cases front with
  | nil =>
    obtain ⟨c, more, form, letter⟩ := solid.front
    have raw : rest.dropWhile (!Text.isBlank ·) = c :: (more ++ back) := by
      rw [trimmed, form]
      rfl
    have head := List.head_dropWhile_not (!Text.isBlank ·) (by rw [raw]; simp)
    simp only [raw, List.head_cons, letter] at head
    cases head
  | cons blank front =>
    have gap := blankFront blank List.mem_cons_self
    have blankMore : Blank front := fun c member => blankFront c (List.mem_cons_of_mem _ member)
    rw [← Text.trim_blank_front blankMore (name_ne_nil valid),
      ← Text.trim_blank_back blankBack some]
    refine .intro ?_ gap ?_ ?_ ?_
    · rw [text, ← parts, trimmed]
      simp only [List.cons_append, List.append_assoc, List.nil_append]
    · intro member
      rcases List.mem_append.mp member with blanks | inside
      · cases blankMore _ blanks
      · exact first inside
    · rwa [Text.trim_blank_front blankMore (name_ne_nil valid)]
    · rwa [Text.trim_blank_back blankBack some]

theorem trim_sides {blank : Char} {left right : List Char} (gap : Text.isBlank blank = true)
    (name : Text.trim left ≠ []) (source : Text.trim right ≠ []) :
    ∃ between around, (∃ front, left = front ++ (Text.trim left ++ between)) ∧
      Text.trim (blank :: (left ++ '=' :: right)) =
        (Text.trim left ++ between) ++ '=' :: (around ++ Text.trim right) ∧
      Text.trim (Text.trim left ++ between) = Text.trim left ∧
      Text.trim (around ++ Text.trim right) = Text.trim right := by
  obtain ⟨front, between, leftForm, blankFront, blankBetween, solidName⟩ := Text.trim_parts name
  obtain ⟨around, back, rightForm, blankAround, blankBack, solidSource⟩ := Text.trim_parts source
  refine ⟨between, around, ⟨front, leftForm⟩, ?_, ?_, ?_⟩
  · generalize Text.trim left = n at leftForm solidName ⊢
    generalize Text.trim right = s at rightForm solidSource ⊢
    calc
      Text.trim (blank :: (left ++ '=' :: right)) =
          Text.trim ((blank :: front) ++ ((n ++ ((between ++ '=' :: around) ++ s)) ++ back)) := by
        rw [leftForm, rightForm]
        simp only [List.cons_append, List.append_assoc]
      _ = n ++ ((between ++ '=' :: around) ++ s) :=
        Text.trim_eq (List.forall_mem_cons.mpr ⟨gap, blankFront⟩) blankBack
          (Text.solid_append solidName solidSource)
      _ = (n ++ between) ++ '=' :: (around ++ s) := by
        simp only [List.cons_append, List.append_assoc]
  · exact Text.trim_eq Text.blank_nil blankBetween solidName
  · have trimmed := Text.trim_eq blankAround Text.blank_nil solidSource
    rwa [List.append_nil] at trimmed

theorem read_of_let_line {line name source : List Char} (shape : LetLine line name source) :
    read (Text.trim line) = .ok (.declare (String.ofList name) (String.ofList source)) := by
  cases shape with
  | @intro blank left right form gap first valid some =>
    obtain ⟨taken, dropped⟩ := let_run gap (left ++ '=' :: right)
    obtain ⟨between, around, ⟨front, leftForm⟩, argument, trimLeft, trimRight⟩ :=
      trim_sides gap (name_ne_nil valid) some
    have first' : '=' ∉ Text.trim left ++ between := by
      intro member
      rw [leftForm] at first
      exact first (List.mem_append_right _ member)
    rw [form, read, taken, dropped, read_let, argument, read_split first', trimLeft, trimRight,
      if_neg (by simp [valid]), if_neg some]

/-- The lines that are read as declarations are those of that form. -/
theorem declaration_iff (line : List Char) (name source : String) :
    declaration? line = some (name, source) ↔ LetLine line name.toList source.toList := by
  rw [declaration_eq_some]
  constructor
  · exact let_line_of_read
  · intro shape
    have written := read_of_let_line shape
    rwa [String.ofList_toList, String.ofList_toList] at written

theorem name_char_not_blank {c : Char} (part : Lexer.isNamePart c = true) :
    Text.isBlank c = false := by
  rcases (Lexer.name_part_iff c).mp part with letter | rfl | rfl
  · have code : 48 ≤ c.toNat ∧ c.toNat ≤ 122 := by
      rcases Bool.or_eq_true_iff.mp letter with alpha | digit
      · have letters := Lexer.alpha_code alpha
        omega
      · have digits := Lexer.digit_code digit
        omega
    simp [Text.isBlank]
    omega
  · rfl
  · rfl

theorem name_chars {name : List Char} (valid : isName name = true) :
    ∀ c ∈ name, Lexer.isNamePart c = true := by
  cases name with
  | nil => cases valid
  | cons c cs =>
    rw [isName, Bool.and_eq_true, List.all_eq_true] at valid
    exact List.forall_mem_cons.mpr ⟨Lexer.name_start_part valid.1, valid.2⟩

theorem solid_name {name : List Char} (valid : isName name = true) : Solid name := by
  have letters := fun c member => name_char_not_blank (name_chars valid c member)
  have some := name_ne_nil valid
  obtain ⟨c, more, form⟩ := List.exists_cons_of_ne_nil some
  refine ⟨⟨c, more, form, letters c (form ▸ List.mem_cons_self)⟩,
    ⟨name.dropLast, name.getLast some, (List.dropLast_concat_getLast some).symm,
      letters _ (List.getLast_mem some)⟩⟩

def letLine (name source : List Char) : List Char :=
  [':', 'l', 'e', 't'] ++ (' ' :: (name ++ [' ', '=', ' ']) ++ source)

theorem trim_let_line (name : List Char) {source : List Char} (solid : Solid source) :
    Text.trim (letLine name source) =
      ':' :: (['l', 'e', 't'] ++ ' ' :: ((name ++ [' ']) ++ '=' :: (' ' :: source))) := by
  have keyword : Solid [':', 'l', 'e', 't'] :=
    ⟨⟨':', ['l', 'e', 't'], rfl, rfl⟩, ⟨[':', 'l', 'e'], 't', rfl, rfl⟩⟩
  rw [letLine, Text.trim_solid_self (Text.solid_append keyword solid)]
  simp only [List.cons_append, List.append_assoc, List.nil_append]

/-- A valid name and a trimmed formula are read as they are written, also if there is an equals sign
in the formula. -/
theorem let_line_as_written {name source : List Char} (valid : isName name = true)
    (trimmed : Text.trim source = source) (some : source ≠ []) :
    LetLine (letLine name source) name source := by
  have solid := Text.solid_of_trimmed trimmed some
  have named := Text.trim_solid_self (solid_name valid)
  have blank : Blank [' '] := by
    intro c member
    rw [List.mem_singleton.mp member]
    rfl
  have left : Text.trim (name ++ [' ']) = name := by
    have inFront := Text.trim_blank_back blank (named.symm ▸ name_ne_nil valid)
    rwa [named] at inFront
  have right : Text.trim (' ' :: source) = source := by
    have behind := Text.trim_blank_front blank (trimmed.symm ▸ some)
    rwa [trimmed] at behind
  have first : '=' ∉ name ++ [' '] := by
    intro member
    rcases List.mem_append.mp member with inside | last
    · cases name_chars valid _ inside
    · cases List.mem_singleton.mp last
  have shape := LetLine.intro (trim_let_line name solid) rfl first (by rwa [left]) (by rwa [right])
  rwa [left, right] at shape

end Console

end Formula
