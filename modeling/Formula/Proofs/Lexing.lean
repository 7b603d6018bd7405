import Formula.Token.Lexer

set_option autoImplicit false

namespace Formula.Lexer

theorem byte_length_append (a b : List Char) :
    byteLength (a ++ b) = byteLength a + byteLength b := by
  induction a with
  | nil => simp [byteLength]
  | cons c a ih =>
    simp only [byteLength, List.cons_append, List.foldr_cons] at ih ⊢
    omega

theorem byte_length_cons (c : Char) (cs : List Char) :
    byteLength (c :: cs) = c.utf8Size + byteLength cs := rfl

theorem byte_length_positive {cs : List Char} (nonempty : cs ≠ []) : 0 < byteLength cs := by
  cases cs with
  | nil => exact absurd rfl nonempty
  | cons c cs =>
    rw [byte_length_cons]
    exact Nat.lt_of_lt_of_le c.utf8Size_pos (Nat.le_add_right _ _)

theorem length_le_byte_length (cs : List Char) : cs.length ≤ byteLength cs := by
  induction cs with
  | nil => exact Nat.le_refl 0
  | cons c cs ih =>
    have positive := c.utf8Size_pos
    rw [List.length_cons, byte_length_cons]
    omega

theorem byte_size_of_list (cs : List Char) : (String.ofList cs).utf8ByteSize = byteLength cs := by
  induction cs with
  | nil => rfl
  | cons c cs ih =>
    rw [String.ofList_cons, String.utf8ByteSize_append, String.utf8ByteSize_singleton, ih,
      byte_length_cons]

theorem byte_length_source (source : String) :
    byteLength source.toList = source.utf8ByteSize := by
  rw [← byte_size_of_list, String.ofList_toList]

-- The characters of a source between two bytes, which are boundaries of characters.
def Reads (source : String) (span : Span) (text : List Char) : Prop :=
  ∃ before after, source.toList = before ++ (text ++ after) ∧
    span = ⟨byteLength before, byteLength before + byteLength text⟩

def Within (source : String) (cursor : Cursor) : Prop :=
  ∃ before, source.toList = before ++ cursor.rest ∧ byteLength before = cursor.position

theorem within_start (source : String) : Within source (.start source) := ⟨[], rfl, rfl⟩

theorem within_skip {source : String} {cursor : Cursor} (within : Within source cursor) :
    Within source cursor.skip := by
  obtain ⟨before, whole, position⟩ := within
  refine ⟨before ++ cursor.rest.takeWhile isLayout, ?_, ?_⟩
  · rw [whole, List.append_assoc, Cursor.skip, List.takeWhile_append_dropWhile]
  · rw [byte_length_append, position, Cursor.skip]

theorem next_of_end {cursor : Cursor} (behind : cursor.skip.rest = []) :
    cursor.next = (.ok (.eofAt cursor.skip.position), cursor.skip) := by
  simp only [Cursor.next, behind]

theorem next_of_more {cursor : Cursor} {c : Char} {cs : List Char}
    (behind : cursor.skip.rest = c :: cs) :
    cursor.next = ((munch c cs).place cursor.skip.position,
      ⟨cursor.skip.position + byteLength (munch c cs).lexeme, (munch c cs).rest⟩) := by
  simp only [Cursor.next, behind]

theorem next_reads {source : String} {cursor : Cursor} (within : Within source cursor) {c : Char}
    {cs : List Char} (behind : cursor.skip.rest = c :: cs) :
    Reads source ⟨cursor.skip.position, cursor.next.2.position⟩ (munch c cs).lexeme ∧
      Within source cursor.next.2 := by
  obtain ⟨before, whole, position⟩ := within_skip within
  obtain ⟨split, _⟩ := munch_splits c cs
  rw [behind, ← split] at whole
  rw [next_of_more behind]
  refine ⟨⟨before, (munch c cs).rest, whole, ?_⟩, before ++ (munch c cs).lexeme, ?_, ?_⟩
  · rw [position]
  · rw [whole, List.append_assoc]
  · rw [byte_length_append, position]

theorem next_advances {cursor : Cursor} {c : Char} {cs : List Char}
    (behind : cursor.skip.rest = c :: cs) :
    cursor.skip.position < cursor.next.2.position ∧
      cursor.next.2.rest.length < cursor.rest.length := by
  have shorter : (cursor.rest.dropWhile isLayout).length ≤ cursor.rest.length :=
    (List.dropWhile_suffix _).length_le
  have skipped : cursor.rest.dropWhile isLayout = c :: cs := behind
  have lexeme := byte_length_positive (munch_splits c cs).2
  have rest := munch_rest_shorter c cs
  rw [skipped, List.length_cons] at shorter
  rw [next_of_more behind]
  exact ⟨by simp only; omega, by simp only; omega⟩

theorem run_steps_length (cursor : Cursor) : cursor.run.steps.length ≤ cursor.rest.length := by
  fun_induction Cursor.run cursor with
  | case1 cursor behind => exact Nat.zero_le _
  | case2 cursor c cs behind run ih =>
    have shorter := (next_advances behind).2
    exact Nat.succ_le_of_lt (Nat.lt_of_le_of_lt ih shorter)

theorem run_eof {source : String} {cursor : Cursor} (within : Within source cursor) :
    cursor.run.eof = .eofAt source.utf8ByteSize := by
  fun_induction Cursor.run cursor with
  | case1 cursor behind =>
    obtain ⟨before, whole, position⟩ := within_skip within
    rw [behind, List.append_nil] at whole
    rw [← position, ← byte_length_source, whole]
  | case2 cursor c cs behind run ih => exact ih (next_reads within behind).2

theorem run_reads {source : String} {cursor : Cursor} (within : Within source cursor)
    (step : Result Token) (member : step ∈ cursor.run.steps) :
    ∃ c cs span, Reads source span (munch c cs).lexeme ∧
      step = (munch c cs).place span.start := by
  fun_induction Cursor.run cursor with
  | case1 cursor behind => cases member
  | case2 cursor c cs behind run ih =>
    obtain ⟨reads, within⟩ := next_reads within behind
    rcases List.mem_cons.mp member with rfl | later
    · refine ⟨c, cs, _, reads, ?_⟩
      rw [next_of_more behind]
    · exact ih within later

def Quotes (lexeme : List Char) (content : String) : Prop :=
  ∃ quote, (quote = '"' ∨ quote = '\'') ∧ lexeme = quote :: (content.toList ++ [quote])

def Plain (t : Terminal) : Prop := t ≠ .eof ∧ (∀ s, t ≠ .string s) ∧ ∀ d, t ≠ .number d

-- What can be munched: a sign or a word, a text, a numeral that may be refused, or an error.
inductive Munched : Munch → Prop where
  | plain {t : Terminal} {w rest : List Char} : Plain t → Munched ⟨.ok t, w, rest⟩
  | text {s : String} {w rest : List Char} : Quotes w s → Munched ⟨.ok (.string s), w, rest⟩
  | numeral (w rest : List Char) : Munched (finished w rest)
  | fault {fault : Fault} {w rest : List Char} :
    fault.cause.category = .lexical → Munched ⟨.error (.failed fault), w, rest⟩

theorem exponent_munched (sofar cs : List Char) : Munched (exponent sofar cs) := by
  cases cs with
  | nil => exact .numeral sofar []
  | cons mark cs =>
    simp only [exponent]
    split
    · split
      · exact .numeral _ _
      · exact .fault rfl
    · exact .numeral _ _

theorem number_munched (cs : List Char) : Munched (number cs) := by
  unfold number
  split
  · split
    · exact exponent_munched _ _
    · exact .fault rfl
  · exact exponent_munched _ _

theorem quoted_munched (quote : Char) (cs : List Char) (mark : quote = '"' ∨ quote = '\'') :
    Munched (quoted quote cs) := by
  unfold quoted
  split
  · rename_i closing rest behind
    have closes : closing = quote := by
      have stopped := List.head?_dropWhile_not (· != quote) cs
      simpa [behind] using stopped
    subst closes
    exact .text ⟨closing, mark, by simp⟩
  · exact .fault rfl

theorem word_plain (w : List Char) : Plain (wordTerminal w) := by
  unfold wordTerminal
  split
  · simp [Plain]
  · split <;> simp [Plain]

theorem with_equal_munched {short long : Terminal} (c : Char) (cs : List Char)
    (plain : Plain short) (plain' : Plain long) : Munched (withEqual short long c cs) := by
  unfold withEqual
  split
  · exact .plain plain'
  · exact .plain plain

theorem doubled_munched {t : Terminal} (c : Char) (cs : List Char) (plain : Plain t) :
    Munched (doubled t c cs) := by
  unfold doubled
  split
  · split
    · exact .plain plain
    · exact .fault rfl
  · exact .fault rfl

theorem munch_munched (c : Char) (cs : List Char) : Munched (munch c cs) := by
  unfold munch
  split
  any_goals exact .plain (by simp [Plain])
  any_goals exact with_equal_munched _ _ (by simp [Plain]) (by simp [Plain])
  any_goals exact doubled_munched _ _ (by simp [Plain])
  · exact quoted_munched '"' cs (.inl rfl)
  · exact quoted_munched '\'' cs (.inr rfl)
  · split
    · exact number_munched _
    · split
      · exact .plain (word_plain _)
      · exact .fault rfl

section

variable {m : Munch}

theorem munched_more {t : Terminal} (munched : Munched m) (ok : m.verdict = .ok t) : t ≠ .eof := by
  cases munched with
  | plain plain =>
    cases ok
    exact plain.1
  | text => cases ok; exact nofun
  | numeral w =>
    obtain ⟨d, -, -, rfl⟩ := (literal_ok_iff w t).mp ok
    exact nofun
  | fault => cases ok

theorem munched_quotes {s : String} (munched : Munched m) (ok : m.verdict = .ok (.string s)) :
    Quotes m.lexeme s := by
  cases munched with
  | plain plain =>
    cases ok
    exact absurd rfl (plain.2.1 s)
  | text quotes => cases ok; exact quotes
  | numeral w =>
    obtain ⟨d, -, -, same⟩ := (literal_ok_iff w _).mp ok
    cases same
  | fault => cases ok

theorem munched_in_range {d : Decimal} (munched : Munched m) (ok : m.verdict = .ok (.number d)) :
    d.inRange = some true := by
  cases munched with
  | plain plain =>
    cases ok
    exact absurd rfl (plain.2.2 d)
  | text => cases ok
  | numeral w =>
    obtain ⟨_, -, range, same⟩ := (literal_ok_iff w _).mp ok
    cases same
    exact range
  | fault => cases ok

theorem munched_lexical {fault : Fault} (munched : Munched m)
    (failed : m.verdict = .error (.failed fault)) : fault.cause.category = .lexical := by
  cases munched with
  | plain | text => cases failed
  | numeral w =>
    simp only [finished, literal, Decimal.byRange] at failed
    split at failed
    · cases failed
      rfl
    · split at failed <;> cases failed
      rfl
  | fault lexical => cases failed; exact lexical

theorem munched_panic (munched : Munched m) (panics : m.verdict = .error .panicked) :
    ∃ d, Decimal.read m.lexeme = .ok d ∧ d.inRange = none := by
  cases munched with
  | plain | text | fault => cases panics
  | numeral w =>
    simp only [finished, literal, Decimal.byRange] at panics ⊢
    split at panics
    · cases panics
    · rename_i d read
      refine ⟨d, read, ?_⟩
      split at panics
      · cases panics
      · cases panics
      · assumption

end

theorem ending_of_steps (steps : List (Result Token)) (eof token : Token)
    (ending : (Lexed.ofSteps steps eof).ending = .eof token) : token = eof := by
  fun_induction Lexed.ofSteps steps eof with
  | case1 eof =>
    cases ending
    rfl
  | case2 token steps eof lexed ih => exact ih ending
  | case3 e steps eof => cases ending

theorem lex_ending {source : String} {eof : Token} (ending : (lex source).ending = .eof eof) :
    eof = .eofAt source.utf8ByteSize := by
  rw [ending_of_steps _ _ _ ending, run_eof (within_start source)]

theorem tokens_ok_iff {source : String} {ts : List Token} :
    tokens source = .ok ts ↔
      (lex source).ending = .eof (.eofAt source.utf8ByteSize) ∧
        (lex source).tokens ++ [.eofAt source.utf8ByteSize] = ts := by
  unfold tokens
  cases ending : (lex source).ending with
  | eof token =>
    obtain rfl := lex_ending ending
    simp [ending, Ending.token, Except.map]
  | fault e => simp [ending, Ending.token, Except.map]

theorem place_ok {m : Munch} {position : Nat} {t : Token} (placed : m.place position = .ok t) :
    m.verdict = .ok t.terminal ∧ t.lexeme = String.ofList m.lexeme ∧
      t.span = ⟨position, position + byteLength m.lexeme⟩ := by
  unfold Munch.place at placed
  cases verdict : m.verdict with
  | error stop =>
    rw [verdict] at placed
    cases placed
  | ok terminal =>
    rw [verdict] at placed
    cases placed
    exact ⟨rfl, rfl, rfl⟩

theorem place_more {c : Char} {cs : List Char} {position : Nat} {t : Token}
    (placed : (munch c cs).place position = .ok t) : t.isEof = false :=
  beq_eq_false_iff_ne.mpr (munched_more (munch_munched c cs) (place_ok placed).1)

theorem place_error {m : Munch} {position : Nat} {stop : Stop Error}
    (placed : m.place position = .error stop) : ∃ fault, m.verdict = .error fault ∧
      stop = fault.map fun fault =>
        ⟨fault.cause, some ⟨position, position + byteLength m.lexeme⟩, fault.help⟩ := by
  unfold Munch.place at placed
  cases verdict : m.verdict with
  | error fault =>
    rw [verdict] at placed
    cases placed
    exact ⟨fault, rfl, rfl⟩
  | ok terminal =>
    rw [verdict] at placed
    cases placed

theorem lexed_of_steps {steps : List (Result Token)} {eof t : Token}
    (member : t ∈ (Lexed.ofSteps steps eof).tokens) : .ok t ∈ steps := by
  fun_induction Lexed.ofSteps steps eof with
  | case1 eof => cases member
  | case2 token steps eof lexed ih =>
    rcases List.mem_cons.mp member with rfl | later
    · exact List.mem_cons_self
    · exact List.mem_cons_of_mem _ (ih later)
  | case3 e steps eof => cases member

theorem lexed_in_range {source : String} {t : Token} {d : Decimal}
    (member : t ∈ (lex source).tokens) (number : t.terminal = .number d) :
    d.inRange = some true := by
  obtain ⟨c, cs, span, -, step⟩ :=
    run_reads (within_start source) _ (lexed_of_steps member)
  obtain ⟨verdict, -⟩ := place_ok step.symm
  rw [number] at verdict
  exact munched_in_range (munch_munched c cs) verdict

theorem lexed_fault {steps : List (Result Token)} {eof : Token} {stop : Stop Error}
    (ends : (Lexed.ofSteps steps eof).ending = .fault stop) : .error stop ∈ steps := by
  fun_induction Lexed.ofSteps steps eof with
  | case1 eof => cases ends
  | case2 token steps eof lexed ih => exact List.mem_cons_of_mem _ (ih ends)
  | case3 f steps eof =>
    cases ends
    exact List.mem_cons_self

theorem lexed_more {source : String} {t : Token} (member : t ∈ (lex source).tokens) :
    t.isEof = false := by
  obtain ⟨c, cs, span, -, step⟩ :=
    run_reads (within_start source) _ (lexed_of_steps member)
  exact place_more step.symm

theorem lex_fault {source : String} {e : Error} (ends : (lex source).ending = .fault (.failed e)) :
    e.category = .lexical ∧ ∃ span text, e.span = some span ∧ Reads source span text := by
  obtain ⟨c, cs, span, reads, step⟩ := run_reads (within_start source) _ (lexed_fault ends)
  have placed : span = ⟨span.start, span.start + byteLength (munch c cs).lexeme⟩ := by
    obtain ⟨before, after, -, rfl⟩ := reads
    rfl
  obtain ⟨fault | _, verdict, same⟩ := place_error step.symm
  · cases same
    exact ⟨munched_lexical (munch_munched c cs) verdict, span, _, congrArg some placed.symm, reads⟩
  · cases same

end Formula.Lexer
