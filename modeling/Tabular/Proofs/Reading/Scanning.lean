import Tabular.Expr.Render
import Tabular.Proofs.Binary64.Text
import Tabular.Proofs.Tokens.Tokenizing

/-!
# Scanning

Which kinds of tokens a strict lexer reads from a text, as a relation that is built from the back of
the text.  Each piece of text is scanned in front of whatever may stand behind it.  What the last
token stands before is left open, so the relation tells of whole texts and of texts with a fault.
-/

namespace Tabular

open Lexeme

/-! ## Texts -/

/--
A strict lexer reads tokens of these kinds from the text, and behind the blanks that follow them
stands what is `final`.
-/
inductive Scans (final : List Char → Prop) : List Char → List TokenKind → Prop where
  | done {cs : List Char} : final (splitBlank false cs).2 → Scans final cs []
  | more {cs front : List Char} {c : Char} {k : TokenKind} {kinds : List TokenKind} :
      (splitBlank false cs).2 = c :: front → (read .strict c front).meaning = .ok k → k.Proper →
      Scans final (read .strict c front).rest kinds → Scans final cs (k :: kinds)

/-! ### Texts without faults -/

theorem tokenizes_of_scans {cs : List Char} {kinds : List TokenKind} (h : Scans (· = []) cs kinds)
    (cursor : Cursor) (source : cursor.rest = cs) :
    ∃ tokens, Tokenizes .strict cursor tokens ∧ tokens.map Token.kind = kinds ++ [.endMarker] := by
  induction h generalizing cursor with
  | done ended =>
      rw [← source] at ended
      exact ⟨_, .last ended, rfl⟩
  | @more cs front c k kinds split meaning proper _ ih =>
      rw [← source] at split
      obtain ⟨tokens, others, same⟩ := ih (cursor.past (read .strict c front)) rfl
      exact ⟨_, .token split meaning proper others, congrArg (k :: ·) same⟩

theorem tokenize_of_scans {source : String} {kinds : List TokenKind}
    (h : Scans (· = []) source.toList kinds) :
    ∃ tokens, tokenize source .strict = .ok tokens ∧
      tokens.map Token.kind = kinds ++ [.endMarker] := by
  obtain ⟨tokens, read, same⟩ := tokenizes_of_scans h (.ofText source.toList) rfl
  exact ⟨tokens, tokenize_eq_ok_iff.mpr read, same⟩

/-! ### Texts with a fault -/

/-- The text begins with a lexeme that is at fault in every mode. -/
def Faulty (cs : List Char) : Prop :=
  ∃ c front, cs = c :: front ∧ ∀ mode, ∃ fault, (read mode c front).meaning = .error fault

theorem not_tokenizes_of_scans {cs : List Char} {kinds : List TokenKind} (h : Scans Faulty cs kinds)
    {mode : Mode} {cursor : Cursor} (source : cursor.rest = cs) (tokens : List Token) :
    ¬Tokenizes mode cursor tokens := by
  induction h generalizing cursor tokens with
  | done faulty =>
      rw [← source] at faulty
      obtain ⟨c, front, split, atFault⟩ := faulty
      have here : cursor.skipBlank.rest = c :: front := split
      obtain ⟨fault, meaning⟩ := atFault mode
      intro tokenizes
      cases tokenizes with
      | last ended => simp [here] at ended
      | token there read =>
          cases here.symm.trans there
          cases meaning.symm.trans read
      | dropped _ there nothing =>
          cases here.symm.trans there
          rw [read_of_nothing mode nothing] at meaning
          cases meaning
  | @more cs front c k kinds split meaning proper _ ih =>
      rw [← source] at split
      have here : cursor.skipBlank.rest = c :: front := split
      have same := read_of_strict meaning mode
      intro tokenizes
      cases tokenizes with
      | last ended => simp [here] at ended
      | token there read _ others =>
          cases here.symm.trans there
          exact ih (congrArg Lexeme.rest same) _ others
      | dropped _ there nothing =>
          cases here.symm.trans there
          rw [read_of_nothing .strict nothing] at meaning
          cases meaning
          exact proper.2 _ rfl

theorem tokenize_of_scans_faulty {source : String} {kinds : List TokenKind}
    (h : Scans Faulty source.toList kinds) (mode : Mode) :
    ∃ e, tokenize source mode = .error e := by
  cases read : tokenize source mode with
  | ok tokens => exact (not_tokenizes_of_scans h rfl tokens (tokenize_eq_ok_iff.mp read)).elim
  | error e => exact ⟨e, rfl⟩

/-! ## Pieces of text -/

variable {final : List Char → Prop} {c : Char} {cs rest : List Char} {k : TokenKind}
  {kinds : List TokenKind}

theorem isBlank_of_printable (low : 0x20 < c.toNat) (high : c.toNat < 0x7F) :
    Text.isBlank c = false := by
  simp [Text.isBlank, Text.blankRanges]
  omega

/-! ### Fillers -/

/-- Blanks, and comments that end with their line. -/
inductive Filler : List Char → Prop where
  | nil : Filler []
  | blank {c : Char} {gap : List Char} : Text.isBlank c = true → Filler gap → Filler (c :: gap)
  | comment {body gap : List Char} :
      '\n' ∉ body → Filler gap → Filler ('-' :: '-' :: body ++ '\n' :: gap)

theorem splitBlank_comment {body : List Char} (inside : '\n' ∉ body) (cs : List Char) :
    splitBlank true (body ++ '\n' :: cs) =
      (body ++ '\n' :: (splitBlank false cs).1, (splitBlank false cs).2) := by
  induction body with
  | nil => rfl
  | cons c body ih =>
      obtain ⟨feed, others⟩ := List.ne_and_not_mem_of_not_mem_cons inside
      have more : (c != '\n') = true := by simpa using Ne.symm feed
      rw [List.cons_append, splitBlank, more, ih others]
      rfl

theorem Filler.splitBlank {gap : List Char} (h : Filler gap) (cs : List Char) :
    splitBlank false (gap ++ cs) = (gap ++ (splitBlank false cs).1, (splitBlank false cs).2) := by
  induction h with
  | nil => rfl
  | blank blank _ ih =>
      rw [List.cons_append, Tabular.splitBlank, if_pos blank, ih]
      rfl
  | @comment body gap inside _ ih =>
      have dash : Text.isBlank '-' = false := by decide
      have whole : '-' :: '-' :: body ++ '\n' :: gap ++ cs =
          '-' :: (('-' :: body) ++ '\n' :: (gap ++ cs)) := by simp
      have later : '\n' ∉ '-' :: body := by simpa using inside
      rw [whole, Tabular.splitBlank, dash, if_neg (by simp), if_pos (by simp),
        splitBlank_comment later, ih]
      simp

theorem Scans.filler {gap : List Char} (filler : Filler gap) (h : Scans final cs kinds) :
    Scans final (gap ++ cs) kinds := by
  have skip : (splitBlank false (gap ++ cs)).2 = (splitBlank false cs).2 := by
    rw [filler.splitBlank]
  cases h with
  | done ended => exact .done (skip ▸ ended)
  | more front meaning proper h => exact .more (skip.trans front) meaning proper h

theorem Scans.space (h : Scans final cs kinds) : Scans final (' ' :: cs) kinds :=
  h.filler (.blank rfl .nil)

/-! ### Lexemes -/

theorem splitBlank_printable (low : 0x20 < c.toNat) (high : c.toNat < 0x7F)
    (noComment : c = '-' → cs.head? ≠ some '-') : (splitBlank false (c :: cs)).2 = c :: cs := by
  rw [splitBlank, isBlank_of_printable low high]
  have inside : ¬(c = '-' ∧ cs.head? = some '-') := fun comment => noComment comment.1 comment.2
  simp only [Bool.false_eq_true, if_false, if_neg inside]

theorem Scans.lexeme {rest : List Char} (low : 0x20 < c.toNat) (high : c.toNat < 0x7F)
    (noComment : c = '-' → cs.head? ≠ some '-') (meaning : (read .strict c cs).meaning = .ok k)
    (proper : k.Proper) (behind : (read .strict c cs).rest = rest) (h : Scans final rest kinds) :
    Scans final (c :: cs) (k :: kinds) :=
  .more (splitBlank_printable low high noComment) meaning proper (behind ▸ h)

/-! ### Runs of characters -/

/-- The text does not go on with such a character. -/
def Stops (p : Char → Bool) (rest : List Char) : Prop :=
  ∀ c ∈ rest.head?, p c = false

theorem stops_nil (p : Char → Bool) : Stops p [] :=
  nofun

theorem stops_cons {p : Char → Bool} (h : p c = false) : Stops p (c :: rest) := by
  rintro _ ⟨⟩
  exact h

theorem takeWhile_run {p : Char → Bool} {run : List Char} (inside : ∀ c ∈ run, p c = true)
    (stop : Stops p rest) : (run ++ rest).takeWhile p = run := by
  rw [List.takeWhile_append_of_pos inside]
  cases rest with
  | nil => simp
  | cons c rest => simp [stop c rfl]

theorem dropWhile_run {p : Char → Bool} {run : List Char} (inside : ∀ c ∈ run, p c = true)
    (stop : Stops p rest) : (run ++ rest).dropWhile p = rest := by
  rw [List.dropWhile_append_of_pos inside]
  cases rest with
  | nil => simp
  | cons c rest => simp [stop c rfl]

theorem stops_dropWhile (p : Char → Bool) (cs : List Char) : Stops p (cs.dropWhile p) := by
  intro c next
  have first := List.head?_dropWhile_not p cs
  rw [next] at first
  simpa using first

/-! ### Words -/

def isWordText : List Char → Bool
  | [] => false
  | c :: cs => beginsWord c && cs.all continuesWord

theorem exists_of_isWordText {word : List Char} (h : isWordText word = true) :
    ∃ c cs, word = c :: cs ∧ beginsWord c = true ∧ ∀ d ∈ cs, continuesWord d = true := by
  cases word with
  | nil => cases h
  | cons c cs =>
      have parts := Bool.and_eq_true_iff.mp h
      exact ⟨c, cs, rfl, parts.1, List.all_eq_true.mp parts.2⟩

theorem toNat_of_beginsWord (h : beginsWord c = true) :
    65 ≤ c.toNat ∧ c.toNat ≤ 90 ∨ c.toNat = 95 ∨ 97 ≤ c.toNat ∧ c.toNat ≤ 122 := by
  have ranges : beginsWord c = (decide (65 ≤ c.val ∧ c.val ≤ 90) ||
      (decide (97 ≤ c.val) && decide (c.val ≤ 122)) || c == '_') := rfl
  simp only [ranges, Bool.or_eq_true, Bool.and_eq_true, decide_eq_true_eq, beq_iff_eq,
    UInt32.le_iff_toNat_le] at h
  rcases h with (h | h) | rfl
  · exact .inl h
  · exact .inr (.inr h)
  · exact .inr (.inl rfl)

theorem continuesWord_of_beginsWord (h : beginsWord c = true) : continuesWord c = true := by
  simp only [beginsWord, Bool.or_eq_true] at h
  rcases h with h | h <;> simp [continuesWord, Char.isAlphanum, h]

theorem not_isDigit_of_beginsWord (h : beginsWord c = true) : c.isDigit = false := by
  have range := toNat_of_beginsWord h
  simp only [Char.isDigit, Bool.and_eq_false_iff, decide_eq_false_iff_not, ge_iff_le,
    UInt32.le_iff_toNat_le]
  change ¬ 48 ≤ c.toNat ∨ ¬ c.toNat ≤ 57
  omega

theorem read_of_beginsWord (h : beginsWord c = true) (mode : Mode) (cs : List Char) :
    read mode c cs = Lexeme.word (c :: cs) := by
  have range := toNat_of_beginsWord h
  have single : c ≠ '\'' := by
    intro same
    subst same
    contradiction
  have double : c ≠ '"' := by
    intro same
    subst same
    contradiction
  unfold Lexeme.read
  rw [if_neg (by simp [single, double]), if_neg (by simp [not_isDigit_of_beginsWord h]), if_pos h]

theorem read_isWordText {word : List Char} (h : isWordText word = true)
    (stop : Stops continuesWord rest) (mode : Mode) :
    ∃ c cs, word ++ rest = c :: cs ∧ beginsWord c = true ∧
      read mode c cs = { text := word, rest, meaning := .ok (wordKind word) } := by
  obtain ⟨c, cs, rfl, first, others⟩ := exists_of_isWordText h
  have inside : ∀ d ∈ c :: cs, continuesWord d = true := by
    intro d member
    rcases List.mem_cons.mp member with rfl | later
    · exact continuesWord_of_beginsWord first
    · exact others d later
  refine ⟨c, cs ++ rest, rfl, first, ?_⟩
  rw [read_of_beginsWord first, ← List.cons_append, Lexeme.word, takeWhile_run inside stop,
    dropWhile_run inside stop]

theorem Scans.word {word : List Char} (h : isWordText word = true)
    (stop : Stops continuesWord rest) (behind : Scans final rest kinds) :
    Scans final (word ++ rest) (wordKind word :: kinds) := by
  obtain ⟨c, cs, split, first, read⟩ := read_isWordText h stop .strict
  have range := toNat_of_beginsWord first
  rw [split]
  refine .lexeme (by omega) (by omega) ?_ ?_ (proper_wordKind _) ?_ behind
  · rintro rfl
    contradiction
  · rw [read]
  · rw [read]

/-! ### Keywords -/

theorem isUpper_spelling (w : Keyword) : ∀ c ∈ w.spelling.toList, c.isUpper = true := by
  have letters : w.spelling.toList.all Char.isUpper = true := by cases w <;> decide +kernel
  exact List.all_eq_true.mp letters

theorem isAlpha_of_toUpper (h : c.toUpper.isUpper = true) : c.isAlpha = true := by
  have either : c.isAlpha = (c.isUpper || c.isLower) := rfl
  have range : c.isLower = (decide (97 ≤ c.val) && decide (c.val ≤ 122)) := rfl
  by_cases lower : c.isLower = true
  · rw [either, lower, Bool.or_true]
  · have same : c.toUpper = c := dif_neg (by simpa [range] using lower)
    rw [same] at h
    rw [either, h, Bool.true_or]

theorem isWordText_of_ofWord? {word : List Char} {w : Keyword}
    (h : Keyword.ofWord? word = some w) : isWordText word = true := by
  have spelled : w.spelling.toList = word.map Char.toUpper := by
    simpa using List.find?_some h
  have letters : ∀ c ∈ word, c.isAlpha = true := by
    intro c member
    apply isAlpha_of_toUpper
    apply isUpper_spelling w
    rw [spelled]
    exact List.mem_map_of_mem member
  cases word with
  | nil => cases w <;> simp [Keyword.spelling] at spelled
  | cons c cs =>
      obtain ⟨first, others⟩ := List.forall_mem_cons.mp letters
      simp only [isWordText, beginsWord, first, Bool.true_or, Bool.true_and, List.all_eq_true]
      intro d member
      simp [continuesWord, Char.isAlphanum, others d member]

theorem Scans.keyword {word : List Char} {w : Keyword} (behind : Scans final rest kinds)
    (meaning : Keyword.ofWord? word = some w) :
    Scans final (word ++ ' ' :: rest) (.keyword w :: kinds) := by
  have scanned := Scans.word (isWordText_of_ofWord? meaning) (stops_cons rfl) behind.space
  rw [wordKind, meaning] at scanned
  exact scanned

/-! ### Numbers -/

theorem toNat_of_isDigit (h : c.isDigit = true) : 48 ≤ c.toNat ∧ c.toNat ≤ 57 := by
  simpa [Char.isDigit, UInt32.le_iff_toNat_le] using h

theorem read_of_isDigit (h : c.isDigit = true) (mode : Mode) (cs : List Char) :
    read mode c cs = Lexeme.number (c :: cs) := by
  have range := toNat_of_isDigit h
  have single : c ≠ '\'' := by
    intro same
    subst same
    contradiction
  have double : c ≠ '"' := by
    intro same
    subst same
    contradiction
  unfold Lexeme.read
  rw [if_neg (by simp [single, double]), if_pos h]

open Binary64 (Digits digitsValue digitsMagnitude)

theorem number_digits {digits : List Char} (h : Digits digits) (stop : Stops Char.isDigit rest)
    (noPoint : rest.head? ≠ some '.') :
    Lexeme.number (digits ++ rest) = { text := digits, rest, meaning := integerKind digits } := by
  unfold Lexeme.number
  rw [takeWhile_run h stop, dropWhile_run h stop]
  split
  · exact (noPoint rfl).elim
  · rfl

theorem number_decimal {whole fraction : List Char} (given : whole ≠ []) (h : Digits whole)
    (h' : Digits fraction) (stop : Stops Char.isDigit rest) :
    Lexeme.number (whole ++ '.' :: fraction ++ rest) =
      { text := whole ++ '.' :: fraction, rest
        meaning := .ok (.real (Binary64.ofParts false (digitsMagnitude whole fraction))) } := by
  have point : Stops Char.isDigit ('.' :: fraction ++ rest) := stops_cons rfl
  rw [← realKind_digits given h h', List.append_assoc]
  unfold Lexeme.number
  rw [takeWhile_run h point, dropWhile_run h point]
  simp only [List.cons_append, takeWhile_run h' stop, dropWhile_run h' stop]

theorem number_cases (digit : c.isDigit = true) (cs : List Char) :
    (∃ whole fraction rest, c :: cs = whole ++ '.' :: fraction ++ rest ∧ whole ≠ [] ∧
        Digits whole ∧ Digits fraction ∧ Stops Char.isDigit rest) ∨
      ∃ digits rest, c :: cs = digits ++ rest ∧ digits ≠ [] ∧ Digits digits ∧
        Stops Char.isDigit rest ∧ rest.head? ≠ some '.' := by
  have split := List.takeWhile_append_dropWhile (p := Char.isDigit) (l := c :: cs)
  have given : (c :: cs).takeWhile Char.isDigit ≠ [] := by simp [digit]
  have digits : Digits ((c :: cs).takeWhile Char.isDigit) := List.all_eq_true.mp List.all_takeWhile
  by_cases point : ((c :: cs).dropWhile Char.isDigit).head? = some '.'
  · obtain ⟨rest, behind⟩ := List.head?_eq_some_iff.mp point
    refine .inl ⟨_, rest.takeWhile Char.isDigit, rest.dropWhile Char.isDigit, ?_, given, digits,
      List.all_eq_true.mp List.all_takeWhile, stops_dropWhile _ rest⟩
    rw [behind] at split
    simpa using split.symm
  · exact .inr ⟨_, _, split.symm, given, digits, stops_dropWhile _ _, point⟩

theorem read_digits {digits : List Char} (given : digits ≠ []) (h : Digits digits)
    (stop : Stops Char.isDigit rest) (noPoint : rest.head? ≠ some '.') (mode : Mode) :
    ∃ c cs, digits ++ rest = c :: cs ∧ c.isDigit = true ∧
      read mode c cs = { text := digits, rest, meaning := integerKind digits } := by
  obtain ⟨c, cs, rfl⟩ := List.exists_cons_of_ne_nil given
  have digit := h c (List.mem_cons_self ..)
  refine ⟨c, cs ++ rest, rfl, digit, ?_⟩
  rw [read_of_isDigit digit, ← List.cons_append, number_digits h stop noPoint]

theorem Scans.integer {digits : List Char} (given : digits ≠ []) (h : Digits digits)
    (bound : digitsValue digits < 2 ^ 63) (stop : Stops Char.isDigit rest)
    (noPoint : rest.head? ≠ some '.') (behind : Scans final rest kinds) :
    Scans final (digits ++ rest) (.integer (Int64.ofNat (digitsValue digits)) :: kinds) := by
  obtain ⟨c, cs, split, digit, read⟩ := read_digits given h stop noPoint .strict
  have range := toNat_of_isDigit digit
  rw [split]
  refine .lexeme (by omega) (by omega) ?_ ?_ (by simp [TokenKind.Proper]) ?_ behind
  · rintro rfl
    contradiction
  · rw [read]
    exact if_pos bound
  · rw [read]

theorem scans_outOfRange {digits : List Char} (given : digits ≠ []) (h : Digits digits)
    (large : ¬digitsValue digits < 2 ^ 63) (stop : Stops Char.isDigit rest)
    (noPoint : rest.head? ≠ some '.') : Scans Faulty (digits ++ rest) [] := by
  obtain ⟨c, cs, split, digit, -⟩ := read_digits given h stop noPoint .strict
  have range := toNat_of_isDigit digit
  have front : (splitBlank false (c :: cs)).2 = c :: cs := by
    refine splitBlank_printable (by omega) (by omega) ?_
    rintro rfl
    contradiction
  rw [split]
  refine .done ⟨c, cs, front, fun mode => ⟨.integerOutOfRange digits, ?_⟩⟩
  obtain ⟨c', cs', split', -, read⟩ := read_digits given h stop noPoint mode
  cases split.symm.trans split'
  rw [read]
  exact if_neg large

theorem read_decimal {whole fraction : List Char} (given : whole ≠ []) (h : Digits whole)
    (h' : Digits fraction) (stop : Stops Char.isDigit rest) (mode : Mode) :
    ∃ c cs, whole ++ '.' :: fraction ++ rest = c :: cs ∧ c.isDigit = true ∧
      read mode c cs =
        { text := whole ++ '.' :: fraction, rest
          meaning := .ok (.real (Binary64.ofParts false (digitsMagnitude whole fraction))) } := by
  obtain ⟨c, cs, rfl⟩ := List.exists_cons_of_ne_nil given
  have digit := h c (List.mem_cons_self ..)
  refine ⟨c, cs ++ '.' :: fraction ++ rest, rfl, digit, ?_⟩
  rw [read_of_isDigit digit, ← List.cons_append, ← List.cons_append,
    number_decimal given h h' stop]

theorem Scans.real {whole fraction : List Char} (given : whole ≠ []) (h : Digits whole)
    (h' : Digits fraction) (stop : Stops Char.isDigit rest) (behind : Scans final rest kinds) :
    Scans final (whole ++ '.' :: fraction ++ rest)
      (.real (Binary64.ofParts false (digitsMagnitude whole fraction)) :: kinds) := by
  obtain ⟨c, cs, split, digit, read⟩ := read_decimal given h h' stop .strict
  have range := toNat_of_isDigit digit
  rw [split]
  refine .lexeme (by omega) (by omega) ?_ ?_ (by simp [TokenKind.Proper]) ?_ behind
  · rintro rfl
    contradiction
  · rw [read]
  · rw [read]

/-! ### Texts between quotes -/

section

variable {quote : Char}

theorem read_quote (cs : List Char) :
    Quoted.read quote (quote :: cs) = ⟨[], [quote], cs, true⟩ := by
  cases cs <;> simp [Quoted.read]

theorem read_escaped (other : '\\' ≠ quote) (d : Char) (cs : List Char) :
    Quoted.read quote ('\\' :: d :: cs) =
      { Quoted.read quote cs with
        contents := unescape d :: (Quoted.read quote cs).contents
        text := '\\' :: d :: (Quoted.read quote cs).text } := by
  rw [Quoted.read, if_neg other, if_pos rfl]

theorem read_plain (other : c ≠ quote) (escape : c ≠ '\\') (cs : List Char) :
    Quoted.read quote (c :: cs) =
      { Quoted.read quote cs with
        contents := c :: (Quoted.read quote cs).contents
        text := c :: (Quoted.read quote cs).text } := by
  cases cs with
  | nil => simp [Quoted.read, other]
  | cons d cs => rw [Quoted.read, if_neg other, if_neg escape]

end

theorem read_escape (cs rest : List Char) :
    (Quoted.read '\'' (cs.flatMap Expr.quote.escape ++ '\'' :: rest)).contents = cs ∧
      (Quoted.read '\'' (cs.flatMap Expr.quote.escape ++ '\'' :: rest)).rest = rest ∧
      (Quoted.read '\'' (cs.flatMap Expr.quote.escape ++ '\'' :: rest)).closed = true := by
  induction cs with
  | nil =>
      rw [List.flatMap_nil, List.nil_append, read_quote]
      exact ⟨rfl, rfl, rfl⟩
  | cons c cs ih =>
      rcases ih with ⟨contents, left, closed⟩
      by_cases special : c = '\\' ∨ c = '\''
      · have escaped : Expr.quote.escape c = ['\\', c] := if_pos special
        have same : unescape c = c := by rcases special with rfl | rfl <;> rfl
        have other : '\\' ≠ '\'' := by decide
        rw [List.flatMap_cons, escaped]
        simp only [List.cons_append, List.nil_append, read_escaped other, contents, left, closed,
          same, and_self]
      · have plain : Expr.quote.escape c = [c] := if_neg special
        obtain ⟨escape, quote⟩ := not_or.mp special
        rw [List.flatMap_cons, plain]
        simp only [List.cons_append, List.nil_append, read_plain quote escape, contents, left,
          closed, and_self]

theorem Scans.quoted (s : String) (behind : Scans final rest kinds) :
    Scans final ((Expr.quote s).toList ++ rest) (.text s :: kinds) := by
  have text : (Expr.quote s).toList ++ rest =
      '\'' :: (s.toList.flatMap Expr.quote.escape ++ '\'' :: rest) := by
    simp [Expr.quote]
  obtain ⟨contents, left, closed⟩ := read_escape s.toList rest
  rw [text]
  refine Scans.lexeme (by decide) (by decide) (by simp) ?_ (by simp [TokenKind.Proper]) left behind
  simp only [Lexeme.read, true_or, if_true, Lexeme.string, closed, contents, Bool.true_or,
    String.ofList_toList]

/-! ### Signs -/

theorem Scans.leftParen (behind : Scans final rest kinds) :
    Scans final ('(' :: rest) (.symbol .leftParen :: kinds) :=
  .lexeme (by decide) (by decide) (by simp) rfl (by simp [TokenKind.Proper]) rfl behind

theorem Scans.rightParen (behind : Scans final rest kinds) :
    Scans final (')' :: rest) (.symbol .rightParen :: kinds) :=
  .lexeme (by decide) (by decide) (by simp) rfl (by simp [TokenKind.Proper]) rfl behind

theorem Scans.dot (behind : Scans final rest kinds) :
    Scans final ('.' :: rest) (.symbol .dot :: kinds) :=
  .lexeme (by decide) (by decide) (by simp) rfl (by simp [TokenKind.Proper]) rfl behind

theorem Scans.comma (behind : Scans final rest kinds) :
    Scans final (',' :: rest) (.symbol .comma :: kinds) :=
  .lexeme (by decide) (by decide) (by simp) rfl (by simp [TokenKind.Proper]) rfl behind

theorem Scans.star (behind : Scans final rest kinds) :
    Scans final ('*' :: rest) (.symbol .star :: kinds) :=
  .lexeme (by decide) (by decide) (by simp) rfl (by simp [TokenKind.Proper]) rfl behind

/-- Two minus signs would begin a comment. -/
theorem Scans.minus (single : rest.head? ≠ some '-') (behind : Scans final rest kinds) :
    Scans final ('-' :: rest) (.symbol .minus :: kinds) :=
  .lexeme (by decide) (by decide) (fun _ => single) rfl (by simp [TokenKind.Proper]) rfl behind

def BinaryOp.sign : BinaryOp → TokenKind
  | .arithmetic .add => .symbol .plus
  | .arithmetic .subtract => .symbol .minus
  | .arithmetic .multiply => .symbol .star
  | .arithmetic .divide => .symbol .slash
  | .comparison .equal => .symbol .equal
  | .comparison .notEqual => .symbol .notEqual
  | .comparison .less => .symbol .less
  | .comparison .greater => .symbol .greater
  | .comparison .lessEqual => .symbol .lessEqual
  | .comparison .greaterEqual => .symbol .greaterEqual
  | .connective .and => .keyword .and
  | .connective .or => .keyword .or

theorem proper_sign (op : BinaryOp) : op.sign.Proper := by
  cases op with
  | arithmetic op => cases op <;> simp [TokenKind.Proper, BinaryOp.sign]
  | comparison op => cases op <;> simp [TokenKind.Proper, BinaryOp.sign]
  | connective op => cases op <;> simp [TokenKind.Proper, BinaryOp.sign]

theorem Scans.operator (op : BinaryOp) (behind : Scans final rest kinds) :
    Scans final (op.symbol.toList ++ ' ' :: rest) (op.sign :: kinds) := by
  have space := behind.space
  cases op with
  | arithmetic op =>
      cases op <;>
        exact .lexeme (by decide) (by decide) (by simp) rfl (proper_sign _) rfl space
  | comparison op =>
      cases op with
      | equal | less | greater =>
          exact .lexeme (by decide) (by decide) (by simp) rfl (proper_sign _) rfl space
      | notEqual =>
          change Scans final ('<' :: '>' :: ' ' :: rest) _
          exact .lexeme (by decide) (by decide) (by simp) rfl (proper_sign _) rfl space
      | lessEqual =>
          change Scans final ('<' :: '=' :: ' ' :: rest) _
          exact .lexeme (by decide) (by decide) (by simp) rfl (proper_sign _) rfl space
      | greaterEqual =>
          change Scans final ('>' :: '=' :: ' ' :: rest) _
          exact .lexeme (by decide) (by decide) (by simp) rfl (proper_sign _) rfl space
  | connective op =>
      cases op with
      | and => exact behind.keyword (by decide +kernel)
      | or => exact behind.keyword (by decide +kernel)

end Tabular
