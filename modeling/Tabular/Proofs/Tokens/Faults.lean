import Mathlib.Data.List.Basic
import Tabular.Proofs.Tokens.Separation

/-!
# Lexical errors

What a lexer may fail at, told of the text alone: a character with which no token begins, a number
that is too large, and a quote without its counterpart.  A lexer fails at the first of these that it
meets behind a token, and nowhere else, and what stands before it is a text without faults.
-/

namespace Tabular

open Lexeme
open Binary64 (Digits digitsValue)

/-! ## What a lexer fails at -/

/-- Characters between quotes; a backslash takes the character behind it along. -/
inductive Inside (quote : Char) : List Char → Prop where
  | nil : Inside quote []
  | plain {c : Char} {cs : List Char} : c ≠ quote → c ≠ '\\' → Inside quote cs →
      Inside quote (c :: cs)
  | escaped {c : Char} {cs : List Char} : Inside quote cs → Inside quote ('\\' :: c :: cs)

/-- The text goes on up to a quote without a backslash before it. -/
def Closes (quote : Char) (cs : List Char) : Prop :=
  ∃ body behind, cs = body ++ quote :: behind ∧ Inside quote body

/-- Behind `before` stands something that a lexer of this mode fails at. -/
inductive Offence (mode : Mode) (before : List Char) : List Char → Fault → Prop where
  | unrecognized {c : Char} {cs : List Char} :
      mode = .strict → Text.isBlank c = false → ¬BeginsToken c cs.head? →
      Offence mode before (c :: cs) (.unrecognizedCharacter c)
  /-- The run goes on at neither end, and no point makes it a part of a real. -/
  | outOfRange {digits rest : List Char} :
      digits ≠ [] → Digits digits → (∀ d ∈ before.getLast?, d.isDigit = false) →
      Stops Char.isDigit rest → rest.head? ≠ some '.' → 2 ^ 63 ≤ digitsValue digits →
      Offence mode before (digits ++ rest) (.integerOutOfRange digits)
  | unterminated {quote : Char} {cs : List Char} :
      mode = .strict → quote = '\'' ∨ quote = '"' → ¬Closes quote cs →
      Offence mode before (quote :: cs) .unterminatedString

/-- From the cursor on, a lexer of this mode reads these tokens and stands before what follows. -/
inductive Reaches (mode : Mode) : Cursor → List Token → Cursor → Prop where
  | here (cursor : Cursor) : Reaches mode cursor [] cursor.skipBlank
  | token {cursor final : Cursor} {c : Char} {cs : List Char} {k : TokenKind}
      {tokens : List Token} :
      cursor.skipBlank.rest = c :: cs → (read mode c cs).meaning = .ok k → k.Proper →
      Reaches mode (cursor.past (read mode c cs)) tokens final →
      Reaches mode cursor (cursor.token (read mode c cs) k :: tokens) final
  | dropped {cursor final : Cursor} {c : Char} {cs : List Char} {tokens : List Token} :
      mode = .permissive → cursor.skipBlank.rest = c :: cs → ¬BeginsToken c cs.head? →
      Reaches mode (cursor.past (unrecognized c cs)) tokens final →
      Reaches mode cursor tokens final

/-! ## Lexemes at fault -/

/-- A lexer of this mode does not go past `c :: cs`. -/
def Fails (mode : Mode) (c : Char) (cs : List Char) (fault : Fault) : Prop :=
  (read mode c cs).meaning = .error fault ∨
    mode = .strict ∧ ¬BeginsToken c cs.head? ∧ fault = .unrecognizedCharacter c

variable {mode : Mode} {c quote : Char} {before cs rest digits : List Char} {fault : Fault}

theorem closed_iff (other : '\\' ≠ quote) :
    (Quoted.read quote cs).closed = true ↔ Closes quote cs := by
  constructor
  · intro closed
    fun_induction Quoted.read quote cs with
    | case1 => cases closed
    | case2 => exact ⟨[], [], rfl, .nil⟩
    | case3 => cases closed
    | case4 d rest => exact ⟨[], d :: rest, rfl, .nil⟩
    | case5 d rest tail _ ih =>
        obtain ⟨body, behind, rfl, inside⟩ := ih closed
        exact ⟨'\\' :: d :: body, behind, rfl, .escaped inside⟩
    | case6 c d rest other escape tail ih =>
        obtain ⟨body, behind, split, inside⟩ := ih closed
        exact ⟨c :: body, behind, by rw [split]; rfl, .plain other escape inside⟩
  · rintro ⟨body, behind, rfl, inside⟩
    induction inside with
    | nil => rw [List.nil_append, read_quote]
    | plain different escape _ ih =>
        rw [List.cons_append, read_plain different escape]
        exact ih
    | escaped _ ih =>
        rw [List.cons_append, List.cons_append, read_escaped other]
        exact ih

theorem string_fault_iff :
    (Lexeme.string mode quote cs).meaning = .error fault ↔
      mode = .strict ∧ (Quoted.read quote cs).closed = false ∧ fault = .unterminatedString := by
  cases mode <;> cases closed : (Quoted.read quote cs).closed <;>
    simp [Lexeme.string, closed, @eq_comm _ fault]

theorem integerKind_fault_iff :
    integerKind digits = .error fault ↔
      2 ^ 63 ≤ digitsValue digits ∧ fault = .integerOutOfRange digits := by
  by_cases small : digitsValue digits < 2 ^ 63
  · simp only [integerKind, if_pos small, Nat.not_le.mpr small, reduceCtorEq, false_and]
  · simp only [integerKind, if_neg small, Nat.not_lt.mp small, Except.error.injEq, true_and]
    exact eq_comm

theorem quote_ne_backslash (h : quote = '\'' ∨ quote = '"') : '\\' ≠ quote := by
  rcases h with rfl | rfl <;> decide

theorem Offence.fails {text : List Char} (h : Offence mode before text fault)
    (split : text = c :: cs) : Fails mode c cs fault := by
  cases h with
  | unrecognized strict _ nothing =>
      cases split
      exact .inr ⟨strict, nothing, rfl⟩
  | outOfRange given digits _ stop noPoint large =>
      obtain ⟨c', cs', split', -, read⟩ := read_digits given digits stop noPoint mode
      cases split'.symm.trans split
      refine .inl ?_
      rw [read]
      exact integerKind_fault_iff.mpr ⟨large, rfl⟩
  | unterminated strict isQuote endless =>
      cases split
      refine .inl ?_
      rw [Lexeme.read, if_pos isQuote]
      refine string_fault_iff.mpr ⟨strict, ?_, rfl⟩
      rw [← closed_iff (quote_ne_backslash isQuote)] at endless
      simpa using endless

theorem offence_of_string (isQuote : quote = '\'' ∨ quote = '"')
    (meaning : (Lexeme.string mode quote cs).meaning = .error fault) :
    Offence mode before (quote :: cs) fault := by
  obtain ⟨strict, opened, rfl⟩ := string_fault_iff.mp meaning
  refine .unterminated strict isQuote ?_
  rw [← closed_iff (quote_ne_backslash isQuote), opened]
  simp

theorem offence_of_number (digit : c.isDigit = true)
    (meaning : (Lexeme.number (c :: cs)).meaning = .error fault)
    (apart : ∀ d ∈ before.getLast?, d.isDigit = false) : Offence mode before (c :: cs) fault := by
  rcases number_cases digit cs with ⟨whole, fraction, rest, split, given, h, h', stop⟩ |
    ⟨digits, rest, split, given, h, stop, noPoint⟩
  · rw [split, number_decimal given h h' stop] at meaning
    cases meaning
  · rw [split, number_digits h stop noPoint] at meaning
    obtain ⟨large, rfl⟩ := integerKind_fault_iff.mp meaning
    rw [split]
    exact .outOfRange given h apart stop noPoint large

theorem offence_of_meaning (meaning : (read mode c cs).meaning = .error fault)
    (apart : c.isDigit = true → ∀ d ∈ before.getLast?, d.isDigit = false) :
    Offence mode before (c :: cs) fault := by
  revert meaning
  refine read_by_first
    (motive := fun r => (r cs).meaning = .error fault → Offence mode before (c :: cs) fault)
    mode c ?_ ?_ ?_ ?_
  · exact fun isQuote => offence_of_string isQuote
  · exact fun digit meaning => offence_of_number digit meaning (apart digit)
  · exact fun _ => nofun
  · exact fun _ _ _ => nofun

theorem Fails.offence (h : Fails mode c cs fault) (visible : Text.isBlank c = false)
    (apart : c.isDigit = true → ∀ d ∈ before.getLast?, d.isDigit = false) :
    Offence mode before (c :: cs) fault := by
  rcases h with meaning | ⟨strict, nothing, rfl⟩
  · exact offence_of_meaning meaning apart
  · exact .unrecognized strict visible nothing

/-! ## Runs that fail -/

namespace Lexer

variable {l : Lexer} {tokens : List Token} {e : Error}

theorem validTokens_of_fails (running : l.finished = false)
    (front : l.cursor.skipBlank.rest = c :: cs) (h : Fails l.mode c cs fault) :
    l.validTokens.1 = .error (fault.toError l.cursor.skipBlank.position) := by
  rcases h with meaning | ⟨strict, nothing, rfl⟩
  · exact validTokens_of_error (next_of_fault running front meaning)
  · rw [validTokens_of_nothing running front nothing, if_pos strict]

theorem validTokens_of_reaches {cursor final : Cursor} (h : Reaches mode cursor tokens final)
    (running : l.finished = false) (same : l.mode = mode) (here : l.cursor = cursor)
    (front : final.rest = c :: cs) (fails : Fails mode c cs fault) :
    l.validTokens.1 = .error (fault.toError final.position) := by
  induction h generalizing l with
  | here cursor =>
      subst here same
      exact validTokens_of_fails running front fails
  | token there meaning proper _ ih =>
      subst here same
      rw [validTokens_of_token running there meaning proper,
        ih (l := l.past _) running rfl rfl front]
      rfl
  | dropped permissive there nothing _ ih =>
      subst here same
      rw [validTokens_of_nothing running there nothing, if_neg (by simp [permissive])]
      exact ih (l := l.past _) running rfl rfl front

theorem exists_reaches_of_error (running : l.finished = false)
    (failed : l.validTokens.1 = .error e) :
    ∃ tokens final c cs fault, Reaches l.mode l.cursor tokens final ∧ final.rest = c :: cs ∧
      Fails l.mode c cs fault ∧ e = fault.toError final.position := by
  induction left : l.cursor.rest.length using Nat.strongRecOn generalizing l with
  | ind n ih =>
  cases front : l.cursor.skipBlank.rest with
  | nil =>
      rw [validTokens_of_next (next_of_end running front) (by simp),
        validTokens_of_finished rfl] at failed
      cases failed
  | cons c cs =>
      have shorter := length_past_lt l.mode front
      rw [left] at shorter
      by_cases stuck : ∃ fault, Fails l.mode c cs fault
      · obtain ⟨fault, fails⟩ := stuck
        rw [validTokens_of_fails running front fails] at failed
        cases failed
        exact ⟨[], _, c, cs, fault, .here _, front, fails, rfl⟩
      rcases read_cases l.mode c cs with ⟨fault, meaning⟩ | ⟨k, meaning, proper⟩ | ⟨nothing, taken⟩
      · exact (stuck ⟨fault, .inl meaning⟩).elim
      · rw [validTokens_of_token running front meaning proper, map_eq_error_iff] at failed
        obtain ⟨tokens, final, d, ds, fault, reached, there, fails, rfl⟩ :=
          ih _ shorter (l := l.past _) running failed rfl
        exact ⟨_, final, d, ds, fault, .token front meaning proper reached, there, fails, rfl⟩
      · have permissive : l.mode ≠ .strict := fun strict => stuck ⟨_, .inr ⟨strict, nothing, rfl⟩⟩
        rw [validTokens_of_nothing running front nothing, if_neg permissive] at failed
        rw [taken] at shorter
        obtain ⟨tokens, final, d, ds, fault, reached, there, fails, rfl⟩ :=
          ih _ shorter (l := l.past _) running failed rfl
        exact ⟨tokens, final, d, ds, fault,
          .dropped (mode_eq_permissive permissive) front nothing reached, there, fails, rfl⟩

end Lexer

/-! ## Runs of digits -/

/-- A digit at the end of `before` is the last of its run. -/
def Settled (before rest : List Char) : Prop :=
  ∀ d ∈ before.getLast?, d.isDigit = true → Stops Char.isDigit rest

theorem settled_nil (rest : List Char) : Settled [] rest :=
  nofun

theorem Filler.isBlank_getLast {gap : List Char} (h : Filler gap) :
    ∀ d ∈ gap.getLast?, Text.isBlank d = true := by
  induction h with
  | nil => nofun
  | @blank c gap blank _ ih =>
      cases gap with
      | nil =>
          rintro _ ⟨⟩
          exact blank
      | cons d gap => simpa using ih
  | @comment body gap _ _ ih =>
      have behind : ('-' :: '-' :: body ++ '\n' :: gap).getLast? = ('\n' :: gap).getLast? :=
        List.getLast?_append_of_ne_nil _ (List.cons_ne_nil _ _)
      rw [behind]
      cases gap with
      | nil =>
          rintro _ ⟨⟩
          rfl
      | cons d gap => simpa using ih

theorem Settled.filler {gap : List Char} (h : Settled before (gap ++ rest)) (filler : Filler gap) :
    Settled (before ++ gap) rest := by
  cases gap with
  | nil => simpa using h
  | cons c gap =>
      intro d last digit
      rw [List.getLast?_append_of_ne_nil _ (List.cons_ne_nil c gap)] at last
      cases (not_isBlank_of_isDigit digit).symm.trans (filler.isBlank_getLast d last)

theorem Quoted.rest_or_quote (quote : Char) (cs : List Char) :
    (Quoted.read quote cs).rest = [] ∨ (Quoted.read quote cs).text.getLast? = some quote := by
  fun_induction Quoted.read quote cs with
  | case1 | case3 => exact .inl rfl
  | case2 | case4 => exact .inr rfl
  | case5 d rest tail _ ih =>
      refine ih.imp_right fun quoted => ?_
      rw [List.getLast?_cons, List.getLast?_cons, quoted]
      rfl
  | case6 c d rest _ _ tail ih =>
      refine ih.imp_right fun quoted => ?_
      rw [List.getLast?_cons, quoted]
      rfl

theorem settled_string (isQuote : quote = '\'' ∨ quote = '"') (cs : List Char) :
    Settled (Lexeme.string mode quote cs).text (Lexeme.string mode quote cs).rest := by
  intro d last digit
  rcases Quoted.rest_or_quote quote cs with ended | quoted
  · simp only [Lexeme.string, ended]
    exact stops_nil _
  · simp only [Lexeme.string, List.getLast?_cons, quoted] at last
    cases last
    rcases isQuote with rfl | rfl <;> cases digit

theorem stops_number (digit : c.isDigit = true) (cs : List Char) :
    Stops Char.isDigit (Lexeme.number (c :: cs)).rest := by
  rcases number_cases digit cs with ⟨whole, fraction, rest, split, given, h, h', stop⟩ |
    ⟨digits, rest, split, given, h, stop, noPoint⟩
  · rw [split, number_decimal given h h' stop]
    exact stop
  · rw [split, number_digits h stop noPoint]
    exact stop

theorem stops_word (cs : List Char) : Stops Char.isDigit (Lexeme.word cs).rest := by
  intro d next
  have stop : continuesWord d = false := stops_dropWhile continuesWord cs d next
  simp only [continuesWord, Char.isAlphanum, Bool.or_eq_false_iff] at stop
  exact stop.1.2

theorem exists_of_double (double : (symbolKind c cs.head?).2 = true) :
    ∃ d rest, cs = d :: rest ∧ d.isDigit = false := by
  cases cs with
  | nil => cases symbolKind_none.symm.trans double
  | cons d rest =>
      refine ⟨d, rest, rfl, ?_⟩
      by_contra digit
      have other : symbolKind c (some d) = symbolKind c none := by
        apply symbolKind_of_other
        · rintro ⟨⟩
          exact digit rfl
        · rintro ⟨⟩
          exact digit rfl
      rw [List.head?_cons, other, symbolKind_none] at double
      cases double

theorem settled_symbol (noDigit : ¬c.isDigit = true) (cs : List Char) :
    Settled (Lexeme.symbol c cs).text (Lexeme.symbol c cs).rest := by
  intro d last digit
  cases double : (symbolKind c cs.head?).2 with
  | false =>
      obtain rfl : c = d := by simpa [Lexeme.symbol, double] using last
      exact (noDigit digit).elim
  | true =>
      obtain ⟨second, rest, rfl, noDigit'⟩ := exists_of_double double
      rw [List.head?_cons] at double
      obtain rfl : second = d := by simpa [Lexeme.symbol, double] using last
      cases noDigit'.symm.trans digit

/-- No lexeme ends in the middle of a run of digits. -/
theorem settled_read (mode : Mode) (c : Char) (cs : List Char) :
    Settled (read mode c cs).text (read mode c cs).rest := by
  refine read_by_first (motive := fun r => Settled (r cs).text (r cs).rest) mode c ?_ ?_ ?_ ?_
  · exact fun isQuote => settled_string isQuote cs
  · exact fun digit _ _ _ => stops_number digit cs
  · exact fun _ _ _ _ => stops_word (c :: cs)
  · exact fun _ noDigit _ => settled_symbol noDigit cs

/-! ## What stands before -/

/-- Behind `before`, the lexer passes over text from one cursor to the other. -/
structure Spans (before : List Char) (cursor : Cursor) (passed : List Char) (final : Cursor) :
    Prop where
  rest : cursor.rest = passed ++ final.rest
  position : final.position = cursor.position.after passed
  settled : Settled (before ++ passed) final.rest

variable {tokens : List Token} {cursor next final : Cursor} {passed passed' : List Char}

theorem Spans.trans (h : Spans before cursor passed next)
    (h' : Spans (before ++ passed) next passed' final) :
    Spans before cursor (passed ++ passed') final where
  rest := by rw [h.rest, h'.rest, List.append_assoc]
  position := by rw [h'.position, h.position, Position.after_append]
  settled := by
    rw [← List.append_assoc]
    exact h'.settled

theorem spans_skipBlank (settled : Settled before cursor.rest) :
    Spans before cursor (splitBlank false cursor.rest).1 cursor.skipBlank := by
  have split : cursor.rest = (splitBlank false cursor.rest).1 ++ cursor.skipBlank.rest :=
    (splitBlank_append false cursor.rest).symm
  refine ⟨split, rfl, ?_⟩
  cases front : cursor.skipBlank.rest with
  | nil => exact fun _ _ _ => stops_nil _
  | cons c cs =>
      rw [split, front] at settled
      exact settled.filler (filler_of_splitBlank front)

theorem spans_past (mode : Mode) (settled : Settled before cursor.rest)
    (front : cursor.skipBlank.rest = c :: cs) :
    Spans before cursor ((splitBlank false cursor.rest).1 ++ (read mode c cs).text)
      (cursor.past (read mode c cs)) := by
  refine (spans_skipBlank settled).trans ⟨?_, rfl, ?_⟩
  · rw [front]
    exact (read_append mode c cs).symm
  · intro d last
    rw [List.getLast?_append_of_ne_nil _ (read_text_ne_nil mode c cs)] at last
    exact settled_read mode c cs d last

theorem Reaches.spans (h : Reaches mode cursor tokens final)
    (settled : Settled before cursor.rest) : ∃ passed, Spans before cursor passed final := by
  induction h generalizing before with
  | here => exact ⟨_, spans_skipBlank settled⟩
  | token front meaning proper _ ih =>
      have first := spans_past mode settled front
      obtain ⟨passed, others⟩ := ih first.settled
      exact ⟨_, first.trans others⟩
  | dropped permissive front nothing _ ih =>
      have first := spans_past mode settled front
      rw [read_of_nothing mode nothing] at first
      obtain ⟨passed, others⟩ := ih first.settled
      exact ⟨_, first.trans others⟩

theorem Reaches.isBlank_eq_false (h : Reaches mode cursor tokens final)
    (front : final.rest = c :: cs) : Text.isBlank c = false := by
  induction h with
  | here => exact isBlank_of_splitBlank front
  | token _ _ _ _ ih => exact ih front
  | dropped _ _ _ _ ih => exact ih front

theorem skipBlank_filler {gap text : List Char} (filler : Filler gap)
    (visible : splitBlank false text = ([], text)) (p : Position) :
    (⟨gap ++ text, p⟩ : Cursor).skipBlank = ⟨text, p.after gap⟩ := by
  simp only [Cursor.skipBlank, filler.splitBlank, visible, List.append_nil]

theorem Tokenizes.again {gap text : List Char} {p : Position} (filler : Filler gap)
    (visible : splitBlank false (c :: cs) = ([], c :: cs))
    (meaning : (read .strict c cs).meaning = .ok k) (proper : k.Proper)
    (apart : Detached (read .strict c cs).rest text)
    (others : Tokenizes .strict ⟨text, (p.after gap).after (read .strict c cs).text⟩ tokens) :
    Tokenizes .strict ⟨gap ++ ((read .strict c cs).text ++ text), p⟩
      (⟨k, String.ofList (read .strict c cs).text, p.after gap⟩ :: tokens) := by
  obtain ⟨tail, written⟩ := exists_read_text .strict c cs
  have same := read_detached meaning written apart
  have stands := skipBlank_filler filler (splitBlank_detached visible written apart) p
  rw [written, List.cons_append]
  -- From here on only what stands in front of the new text counts.
  generalize (⟨gap ++ c :: (tail ++ text), p⟩ : Cursor) = new at stands ⊢
  have made : new.token (read .strict c (tail ++ text)) k =
      ⟨k, String.ofList (c :: tail), p.after gap⟩ := by
    rw [Cursor.token, stands, same, ← written]
  have past : new.past (read .strict c (tail ++ text)) =
      ⟨text, (p.after gap).after (read .strict c cs).text⟩ := by
    rw [Cursor.past, stands, same]
  rw [← past] at others
  rw [← made]
  refine .token (congrArg Cursor.rest stands) ?_ proper others
  rw [same]
  exact meaning

theorem Reaches.tokenizes (h : Reaches .strict cursor tokens final) (more : final.rest ≠ [])
    (split : cursor.rest = passed ++ final.rest) :
    Tokenizes .strict ⟨passed, cursor.position⟩
      (tokens ++ [⟨.endMarker, "", final.position⟩]) := by
  induction h generalizing passed with
  | here cursor =>
      obtain ⟨c, cs, front⟩ := List.exists_cons_of_ne_nil more
      have skipped := (spans_skipBlank (settled_nil cursor.rest)).rest
      obtain rfl := List.append_cancel_right (split.symm.trans skipped)
      have ended : splitBlank false [] = ([], []) := rfl
      have stands := skipBlank_filler (filler_of_splitBlank front) ended cursor.position
      rw [List.append_nil] at stands
      have last : Tokenizes .strict ⟨(splitBlank false cursor.rest).1, cursor.position⟩ _ :=
        .last (congrArg Cursor.rest stands)
      rw [stands] at last
      exact last
  | @token cursor final c cs k tokens front meaning proper h ih =>
      obtain ⟨passed', others⟩ := h.spans (settled_nil _)
      have behind : (read .strict c cs).rest = passed' ++ final.rest := others.rest
      have first := (spans_past .strict (settled_nil cursor.rest) front).rest
      obtain rfl : (splitBlank false cursor.rest).1 ++ ((read .strict c cs).text ++ passed') =
          passed := by
        refine List.append_cancel_right (Eq.trans ?_ split)
        rw [List.append_assoc, List.append_assoc, ← others.rest, ← List.append_assoc]
        exact first.symm
      have apart : Detached (read .strict c cs).rest passed' := by
        intro d next
        rw [behind, List.head?_append, next]
        exact .inr rfl
      exact .again (filler_of_splitBlank front) (splitBlank_of_front front) meaning proper apart
        (ih more others.rest)
  | dropped permissive => cases permissive

/-! ## Texts with a fault -/

/-- Behind these tokens and the text `before`, a lexer meets a fault. -/
structure Meets (source : String) (mode : Mode) (tokens : List Token) (before rest : List Char)
    (p : Position) (fault : Fault) : Prop where
  split : source.toList = before ++ rest
  located : Located before p
  reached : Reaches mode (.ofText source.toList) tokens ⟨rest, p⟩
  offence : Offence mode before rest fault

variable {source : String} {p : Position}

theorem Offence.ne_nil (h : Offence mode before rest fault) : rest ≠ [] := by
  cases h with
  | unrecognized | unterminated => exact List.cons_ne_nil _ _
  | outOfRange given => simp [given]

theorem Meets.tokenize_eq_error (h : Meets source mode tokens before rest p fault) :
    tokenize source mode = .error (fault.toError p) := by
  obtain ⟨c, cs, front⟩ := List.exists_cons_of_ne_nil h.offence.ne_nil
  exact Lexer.validTokens_of_reaches (l := .ofString source mode) h.reached rfl rfl rfl front
    (h.offence.fails front)

theorem exists_meets_of_error {e : Error} (failed : tokenize source mode = .error e) :
    ∃ tokens before rest p fault, Meets source mode tokens before rest p fault ∧
      e = fault.toError p := by
  obtain ⟨tokens, ⟨rest, p⟩, c, cs, fault, reached, front, fails, rfl⟩ :=
    Lexer.exists_reaches_of_error (l := .ofString source mode) rfl failed
  obtain rfl : rest = c :: cs := front
  obtain ⟨before, spans⟩ := reached.spans (settled_nil _)
  refine ⟨tokens, before, _, p, fault, ⟨spans.rest, ?_, reached, ?_⟩, rfl⟩
  · rw [show p = Position.start.after before from spans.position]
    exact located_start.after before
  · refine fails.offence (reached.isBlank_eq_false rfl) fun digit d last => ?_
    by_contra inside
    have settled := spans.settled d last (by simpa using inside) c rfl
    cases settled.symm.trans digit

theorem Meets.tokenize_before (h : Meets source .strict tokens before rest p fault) :
    tokenize (String.ofList before) .strict = .ok (tokens ++ [⟨.endMarker, "", p⟩]) := by
  rw [tokenize_eq_ok_iff, String.toList_ofList]
  exact h.reached.tokenizes h.offence.ne_nil h.split

theorem prefix_toList_append {s : String} {front : List Char} (h : front <+: s.toList)
    (t : String) : front <+: (s ++ t).toList := by
  rw [String.toList_append]
  exact h.trans (List.prefix_append _ _)

/-- The messages differ in their first letters. -/
theorem toError_ne_invalidReal (h : Offence mode before rest fault) (literal : List Char)
    (p q : Position) : fault.toError p ≠ (Fault.invalidReal literal).toError q := by
  intro same
  have message : fault.message = (Fault.invalidReal literal).message := (Error.lexical.inj same).1
  have invalid : ['i', 'n', 'v'] <+: (Fault.invalidReal literal).message.toList :=
    prefix_toList_append (by decide +kernel) _
  rw [← message] at invalid
  cases h with
  | unterminated => exact absurd invalid (by decide +kernel)
  | @outOfRange digits =>
      have integer : ['i', 'n', 't'] <+: (Fault.integerOutOfRange digits).message.toList :=
        prefix_toList_append (prefix_toList_append (by decide +kernel) _) _
      exact absurd (List.prefix_of_prefix_length_le integer invalid (by decide)) (by decide)
  | @unrecognized c =>
      have unknown : ['u', 'n', 'r'] <+: (Fault.unrecognizedCharacter c).message.toList :=
        prefix_toList_append (prefix_toList_append (by decide +kernel) _) _
      exact absurd (List.prefix_of_prefix_length_le unknown invalid (by decide)) (by decide)

/--
A lexer refuses a text where it meets an offence behind the tokens that it has read, and nowhere
else.  The text before that place is read as those tokens.  A permissive lexer refuses nothing but
numbers that are too large, and no lexer refuses a real.
-/
theorem lexical_errors_are_offences (source : String) :
    (∀ mode e, tokenize source mode = .error e ↔
      ∃ tokens before rest p fault, Meets source mode tokens before rest p fault ∧
        e = fault.toError p) ∧
      (∀ tokens before rest p fault, Meets source .strict tokens before rest p fault →
        tokenize (String.ofList before) .strict = .ok (tokens ++ [⟨.endMarker, "", p⟩])) ∧
      (∀ e, tokenize source .permissive = .error e →
        ∃ digits p, 2 ^ 63 ≤ digitsValue digits ∧ e = (Fault.integerOutOfRange digits).toError p) ∧
      ∀ mode literal p, tokenize source mode ≠ .error ((Fault.invalidReal literal).toError p) := by
  refine ⟨fun mode e => ⟨exists_meets_of_error, ?_⟩, fun _ _ _ _ _ => Meets.tokenize_before, ?_, ?_⟩
  · rintro ⟨tokens, before, rest, p, fault, meets, rfl⟩
    exact meets.tokenize_eq_error
  · intro e failed
    obtain ⟨tokens, before, rest, p, fault, meets, rfl⟩ := exists_meets_of_error failed
    cases meets.offence with
    | unrecognized strict | unterminated strict => cases strict
    | outOfRange _ _ _ _ _ large => exact ⟨_, p, large, rfl⟩
  · intro mode literal p failed
    obtain ⟨tokens, before, rest, q, fault, meets, same⟩ := exists_meets_of_error failed
    exact toError_ne_invalidReal meets.offence literal q p same.symm

/-- The second quote stands behind a backslash, and the sign in the comment is harmless. -/
theorem lexical_errors_are_offences_quote :
    ∃ tokens before rest p fault, Meets "a <-- !\n'it\\'s" .strict tokens before rest p fault ∧
      Error.lexical "unterminated string literal" ⟨8, 2, 1⟩ = fault.toError p := by
  have failed : tokenize "a <-- !\n'it\\'s" .strict =
      .error (.lexical "unterminated string literal" ⟨8, 2, 1⟩) := by
    decide +kernel
  exact ((lexical_errors_are_offences _).1 .strict _).mp failed

end Tabular
