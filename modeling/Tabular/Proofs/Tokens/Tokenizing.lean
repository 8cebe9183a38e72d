import Tabular.Proofs.Action
import Tabular.Token.Lexer

/-!
# Runs of the lexer

Which tokens a lexer reads behind a cursor, piece by piece, where it meets no fault.  What holds of
all the tokens of a text is proved along these pieces.
-/

namespace Tabular

/-! ## Lexemes -/

/-- A token between the beginning of a text and its end marker. -/
def TokenKind.Proper (k : TokenKind) : Prop :=
  k ≠ .endMarker ∧ ∀ c, k ≠ .invalid c

namespace Lexeme

/-- Does a token begin with `c` where `next` stands behind it? -/
def BeginsToken (c : Char) (next : Option Char) : Prop :=
  c ∈ ['\'', '"', '(', ')', ',', ';', '.', '+', '-', '*', '/', '=', '<', '>'] ∨
    c.isDigit = true ∨ beginsWord c = true ∨ c = '!' ∧ next = some '='

/-- What the lexer takes for a character that begins no token. -/
def unrecognized (c : Char) (cs : List Char) : Lexeme :=
  ⟨[c], cs, .ok (.invalid c)⟩

variable {mode : Mode} {c : Char} {cs : List Char} {k : TokenKind}

theorem symbolKind_cases {next : Option Char} (quote : ¬(c = '\'' ∨ c = '"'))
    (digit : ¬c.isDigit = true) (word : ¬beginsWord c = true) :
    BeginsToken c next ∧ (∃ s, (symbolKind c next).1 = .symbol s) ∨
      ¬BeginsToken c next ∧ symbolKind c next = (.invalid c, false) := by
  unfold symbolKind
  split
  -- Only `<`, `>` and `!` look at the character behind them, and `!` alone needs it.
  case h_13 =>
    split
    · rename_i double
      exact .inl ⟨.inr (.inr (.inr ⟨rfl, double⟩)), _, rfl⟩
    · rename_i single
      exact .inr ⟨by simp [BeginsToken, digit, word, single], rfl⟩
  case h_14 =>
    refine .inr ⟨?_, rfl⟩
    simp only [BeginsToken, digit, word, List.mem_cons]
    grind
  case h_11 =>
    refine .inl ⟨.inl (by simp), ?_⟩
    split
    · exact ⟨_, rfl⟩
    · split <;> exact ⟨_, rfl⟩
  case h_12 =>
    refine .inl ⟨.inl (by simp), ?_⟩
    split <;> exact ⟨_, rfl⟩
  all_goals exact .inl ⟨.inl (by simp), _, rfl⟩

theorem proper_wordKind (word : List Char) : (wordKind word).Proper := by
  unfold wordKind
  split <;> simp [TokenKind.Proper]

/-- The first character tells what reads the lexeme. -/
theorem read_by_first {motive : (List Char → Lexeme) → Prop} (mode : Mode) (c : Char)
    (quoted : c = '\'' ∨ c = '"' → motive (string mode c))
    (numeral : c.isDigit = true → motive fun cs => number (c :: cs))
    (lettered : beginsWord c = true → motive fun cs => word (c :: cs))
    (sign : ¬(c = '\'' ∨ c = '"') → ¬c.isDigit = true → ¬beginsWord c = true →
      motive (symbol c)) :
    motive (read mode c) := by
  by_cases quote : c = '\'' ∨ c = '"'
  · rw [show read mode c = string mode c from funext fun cs => if_pos quote]
    exact quoted quote
  by_cases digit : c.isDigit = true
  · rw [show read mode c = fun cs => number (c :: cs) from
      funext fun cs => (if_neg quote).trans (if_pos digit)]
    exact numeral digit
  by_cases letter : beginsWord c = true
  · rw [show read mode c = fun cs => word (c :: cs) from
      funext fun cs => (if_neg quote).trans ((if_neg digit).trans (if_pos letter))]
    exact lettered letter
  · rw [show read mode c = symbol c from
      funext fun cs => (if_neg quote).trans ((if_neg digit).trans (if_neg letter))]
    exact sign quote digit letter

theorem read_cases (mode : Mode) (c : Char) (cs : List Char) :
    (∃ fault, (read mode c cs).meaning = .error fault) ∨
      (∃ k, (read mode c cs).meaning = .ok k ∧ k.Proper) ∨
      ¬BeginsToken c cs.head? ∧ read mode c cs = unrecognized c cs := by
  unfold read
  split
  · cases whole : (Quoted.read c cs).closed || mode == .permissive with
    | true => exact .inr (.inl ⟨_, if_pos whole, by simp [TokenKind.Proper]⟩)
    | false => exact .inl ⟨_, if_neg (by simp [whole])⟩
  · split
    · rename_i digit
      unfold number
      split
      · have given : (c :: cs).takeWhile Char.isDigit ≠ [] := by simp [digit]
        refine .inr (.inl ⟨_, realKind_digits given ?_ ?_, by simp [TokenKind.Proper]⟩)
        · exact List.all_eq_true.mp List.all_takeWhile
        · exact List.all_eq_true.mp List.all_takeWhile
      · by_cases small : Binary64.digitsValue ((c :: cs).takeWhile Char.isDigit) < 2 ^ 63
        · exact .inr (.inl ⟨_, if_pos small, by simp [TokenKind.Proper]⟩)
        · exact .inl ⟨_, if_neg small⟩
    · split
      · exact .inr (.inl ⟨_, rfl, proper_wordKind _⟩)
      · rename_i quote digit word
        rcases symbolKind_cases quote digit word with ⟨-, s, sign⟩ | ⟨nothing, kind⟩
        · exact .inr (.inl ⟨_, congrArg Except.ok sign, by simp [TokenKind.Proper]⟩)
        · exact .inr (.inr ⟨nothing, by simp [symbol, kind, unrecognized]⟩)

theorem read_of_nothing (mode : Mode) (nothing : ¬BeginsToken c cs.head?) :
    read mode c cs = unrecognized c cs := by
  have quote : ¬(c = '\'' ∨ c = '"') := by
    rintro (rfl | rfl) <;> exact nothing (.inl (by simp))
  have digit : ¬c.isDigit = true := fun digit => nothing (.inr (.inl digit))
  have word : ¬beginsWord c = true := fun word => nothing (.inr (.inr (.inl word)))
  have kind := ((symbolKind_cases quote digit word).resolve_left fun begins => nothing begins.1).2
  rw [read, if_neg quote, if_neg digit, if_neg word]
  simp [symbol, kind, unrecognized]

end Lexeme

open Lexeme

/-! ## Steps of the lexer -/

/-- The cursor behind the blanks and the lexeme in front of it. -/
def Cursor.past (cursor : Cursor) (lexeme : Lexeme) : Cursor :=
  ⟨lexeme.rest, cursor.skipBlank.position.after lexeme.text⟩

/-- The token that a lexeme makes in front of the cursor. -/
def Cursor.token (cursor : Cursor) (lexeme : Lexeme) (k : TokenKind) : Token :=
  ⟨k, String.ofList lexeme.text, cursor.skipBlank.position⟩

/-- From the cursor on, a lexer of this mode reads these tokens and meets no fault. -/
inductive Tokenizes (mode : Mode) : Cursor → List Token → Prop where
  | last {cursor : Cursor} : cursor.skipBlank.rest = [] →
      Tokenizes mode cursor [⟨.endMarker, "", cursor.skipBlank.position⟩]
  | token {cursor : Cursor} {c : Char} {cs : List Char} {k : TokenKind} {tokens : List Token} :
      cursor.skipBlank.rest = c :: cs → (read mode c cs).meaning = .ok k → k.Proper →
      Tokenizes mode (cursor.past (read mode c cs)) tokens →
      Tokenizes mode cursor (cursor.token (read mode c cs) k :: tokens)
  | dropped {cursor : Cursor} {c : Char} {cs : List Char} {tokens : List Token} :
      mode = .permissive → cursor.skipBlank.rest = c :: cs → ¬BeginsToken c cs.head? →
      Tokenizes mode (cursor.past (unrecognized c cs)) tokens → Tokenizes mode cursor tokens

theorem mode_eq_permissive {mode : Mode} (h : mode ≠ .strict) : mode = .permissive := by
  cases mode with
  | strict => exact (h rfl).elim
  | permissive => rfl

namespace Lexer

variable {l moved : Lexer} {t : Token} {c : Char} {cs : List Char} {k : TokenKind}

def past (l : Lexer) (lexeme : Lexeme) : Lexer :=
  { l with cursor := l.cursor.past lexeme }

theorem next_of_end (running : l.finished = false) (ended : l.cursor.skipBlank.rest = []) :
    l.next = (some (.ok ⟨.endMarker, "", l.cursor.skipBlank.position⟩),
      { l with cursor := l.cursor.skipBlank, finished := true }) := by
  rw [Lexer.next, running]
  simp only [Bool.false_eq_true, if_false, nextToken, Cursor.next, ended]
  rfl

theorem next_of_fault (running : l.finished = false) (front : l.cursor.skipBlank.rest = c :: cs)
    {fault : Fault} (meaning : (read l.mode c cs).meaning = .error fault) :
    l.next = (some (.error (fault.toError l.cursor.skipBlank.position)),
      { l with cursor := l.cursor.past (read l.mode c cs), finished := true }) := by
  rw [Lexer.next, running]
  simp only [Bool.false_eq_true, if_false, nextToken, Cursor.next, front, Cursor.tokenAt, meaning]
  rfl

theorem next_of_token (running : l.finished = false) (front : l.cursor.skipBlank.rest = c :: cs)
    (meaning : (read l.mode c cs).meaning = .ok k) (inner : k ≠ .endMarker) :
    l.next = (some (.ok (l.cursor.token (read l.mode c cs) k)), l.past (read l.mode c cs)) := by
  rw [Lexer.next, running]
  simp only [Bool.false_eq_true, if_false, nextToken, Cursor.next, front, Cursor.tokenAt, meaning,
    Cursor.isLast, Token.isEnd, decide_eq_false inner, past, running]
  rfl

theorem next_of_finished (finished : l.finished = true) : l.next = (none, l) :=
  if_pos finished

/-! ### Runs by their first item -/

theorem validTokens_of_end (next : l.next = (none, moved)) : l.validTokens = (.ok [], moved) := by
  rw [validTokens]
  split <;> simp_all

theorem validTokens_of_fault {e : Error} (next : l.next = (some (.error e), moved)) :
    l.validTokens = (.error e, moved) := by
  rw [validTokens]
  split <;> simp_all

theorem validTokens_of_refused (next : l.next = (some (.ok t), moved))
    (invalid : t.kind = .invalid c) (strict : l.mode = .strict) :
    l.validTokens = (.error ((Fault.unrecognizedCharacter c).toError t.position), moved) := by
  rw [validTokens]
  split <;> simp_all

theorem validTokens_of_dropped (next : l.next = (some (.ok t), moved))
    (invalid : t.kind = .invalid c) (permissive : l.mode = .permissive) :
    l.validTokens = moved.validTokens := by
  rw [validTokens]
  split <;> simp_all

theorem validTokens_of_valid (next : l.next = (some (.ok t), moved))
    (valid : ∀ c, t.kind ≠ .invalid c) :
    l.validTokens = (moved.validTokens.1.map (t :: ·), moved.validTokens.2) := by
  rw [validTokens]
  split <;> simp_all

theorem validTokens_of_finished (finished : l.finished = true) : l.validTokens = (.ok [], l) :=
  validTokens_of_end (next_of_finished finished)

theorem validTokens_of_next (next : l.next = (some (.ok t), moved))
    (valid : ∀ c, t.kind ≠ .invalid c) :
    l.validTokens.1 = moved.validTokens.1.map (t :: ·) :=
  congrArg Prod.fst (validTokens_of_valid next valid)

theorem validTokens_of_error {e : Error} (next : l.next = (some (.error e), moved)) :
    l.validTokens.1 = .error e :=
  congrArg Prod.fst (validTokens_of_fault next)

theorem validTokens_of_invalid (next : l.next = (some (.ok t), moved))
    (invalid : t.kind = .invalid c) :
    l.validTokens.1 =
      if l.mode = .strict then .error ((Fault.unrecognizedCharacter c).toError t.position)
      else moved.validTokens.1 := by
  cases mode : l.mode with
  | strict => rw [validTokens_of_refused next invalid mode, if_pos rfl]
  | permissive => rw [validTokens_of_dropped next invalid mode, if_neg (by simp)]

theorem validTokens_of_token (running : l.finished = false)
    (front : l.cursor.skipBlank.rest = c :: cs) (meaning : (read l.mode c cs).meaning = .ok k)
    (proper : k.Proper) :
    l.validTokens.1 = (l.past (read l.mode c cs)).validTokens.1.map
      (l.cursor.token (read l.mode c cs) k :: ·) :=
  validTokens_of_next (next_of_token running front meaning proper.1) proper.2

/-- A character that begins no token ends a strict run, and a permissive one passes over it. -/
theorem validTokens_of_nothing (running : l.finished = false)
    (front : l.cursor.skipBlank.rest = c :: cs) (nothing : ¬BeginsToken c cs.head?) :
    l.validTokens.1 =
      if l.mode = .strict then
        .error ((Fault.unrecognizedCharacter c).toError l.cursor.skipBlank.position)
      else (l.past (unrecognized c cs)).validTokens.1 := by
  have taken := read_of_nothing l.mode nothing
  have meaning : (read l.mode c cs).meaning = .ok (.invalid c) := congrArg Lexeme.meaning taken
  rw [validTokens_of_invalid (next_of_token running front meaning (by simp)) rfl, taken]
  rfl

theorem length_past_lt {cursor : Cursor} (mode : Mode) (front : cursor.skipBlank.rest = c :: cs) :
    (cursor.past (read mode c cs)).rest.length < cursor.rest.length := by
  have skipped : cursor.skipBlank.rest.length ≤ cursor.rest.length :=
    length_splitBlank_le false cursor.rest
  have taken := length_read_rest_lt mode c cs
  rw [front] at skipped
  exact Nat.lt_of_lt_of_le taken skipped

theorem tokenizes_of_validTokens {tokens : List Token} (running : l.finished = false)
    (valid : l.validTokens.1 = .ok tokens) : Tokenizes l.mode l.cursor tokens := by
  -- The iteration ends by its own measure; here what is left of the text is enough.
  induction left : l.cursor.rest.length using Nat.strongRecOn generalizing l tokens with
  | ind n ih =>
  cases front : l.cursor.skipBlank.rest with
  | nil =>
      rw [validTokens_of_next (next_of_end running front) (by simp),
        validTokens_of_finished rfl] at valid
      cases valid
      exact .last front
  | cons c cs =>
      have shorter := length_past_lt l.mode front
      rw [left] at shorter
      rcases read_cases l.mode c cs with ⟨fault, meaning⟩ | ⟨k, meaning, proper⟩ | ⟨nothing, taken⟩
      · rw [validTokens_of_error (next_of_fault running front meaning)] at valid
        cases valid
      · rw [validTokens_of_token running front meaning proper, map_eq_ok_iff] at valid
        obtain ⟨tokens, valid, rfl⟩ := valid
        exact .token front meaning proper (ih _ shorter (l := l.past _) running valid rfl)
      · rw [validTokens_of_nothing running front nothing] at valid
        rw [taken] at shorter
        split at valid
        · cases valid
        · rename_i permissive
          have others := ih _ shorter (l := l.past _) running valid rfl
          exact .dropped (mode_eq_permissive permissive) front nothing others

theorem validTokens_of_tokenizes {mode : Mode} {cursor : Cursor} {tokens : List Token}
    (h : Tokenizes mode cursor tokens) (running : l.finished = false) (same : l.mode = mode)
    (here : l.cursor = cursor) : l.validTokens.1 = .ok tokens := by
  induction h generalizing l with
  | last ended =>
      subst here
      rw [validTokens_of_next (next_of_end running ended) (by simp), validTokens_of_finished rfl]
      rfl
  | token front meaning proper h ih =>
      subst here same
      rw [validTokens_of_token running front meaning proper, ih (l := l.past _) running rfl rfl]
      rfl
  | dropped permissive front nothing h ih =>
      subst here same
      rw [validTokens_of_nothing running front nothing, if_neg (by simp [permissive])]
      exact ih (l := l.past _) running rfl rfl

theorem validTokens_eq_ok_iff {tokens : List Token} (running : l.finished = false) :
    l.validTokens.1 = .ok tokens ↔ Tokenizes l.mode l.cursor tokens :=
  ⟨tokenizes_of_validTokens running, fun h => validTokens_of_tokenizes h running rfl rfl⟩

end Lexer

theorem tokenize_eq_ok_iff {source : String} {mode : Mode} {tokens : List Token} :
    tokenize source mode = .ok tokens ↔ Tokenizes mode (.ofText source.toList) tokens :=
  Lexer.validTokens_eq_ok_iff rfl

/-! ## Modes -/

namespace Lexeme

/-- Only a string without an end depends on the mode. -/
theorem read_permissive {c : Char} {cs : List Char} {k : TokenKind}
    (meaning : (read .strict c cs).meaning = .ok k) :
    read .permissive c cs = read .strict c cs := by
  unfold read at *
  split
  · rename_i quote
    rw [if_pos quote] at meaning
    have closed : (Quoted.read c cs).closed = true := by
      cases closed : (Quoted.read c cs).closed with
      | true => rfl
      | false => simp [string, closed] at meaning
    simp [string, closed]
  · rfl

theorem read_of_strict {c : Char} {cs : List Char} {k : TokenKind}
    (meaning : (read .strict c cs).meaning = .ok k) (mode : Mode) :
    read mode c cs = read .strict c cs := by
  cases mode with
  | strict => rfl
  | permissive => exact read_permissive meaning

end Lexeme

theorem tokenizes_permissive {cursor : Cursor} {tokens : List Token}
    (h : Tokenizes .strict cursor tokens) : Tokenizes .permissive cursor tokens := by
  induction h with
  | last ended => exact .last ended
  | token front meaning proper _ ih =>
      have same := read_permissive meaning
      rw [← same] at ih meaning ⊢
      exact .token front meaning proper ih
  | dropped permissive => cases permissive

theorem tokenize_permissive {source : String} {tokens : List Token}
    (read : tokenize source .strict = .ok tokens) : tokenize source .permissive = .ok tokens :=
  tokenize_eq_ok_iff.mpr (tokenizes_permissive (tokenize_eq_ok_iff.mp read))

end Tabular
