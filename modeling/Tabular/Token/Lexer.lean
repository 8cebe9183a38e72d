import Tabular.Token.Lexeme

/-!
# The lexer

A cursor stands between the part of a text that has been read and the part that has not.  The lexer
moves it token by token, can be taken back to the beginning, and reads a whole text at once.
-/

namespace Tabular

/-- A place in a text and what stands behind it. -/
structure Cursor where
  rest : List Char
  position : Position

namespace Cursor

def ofText (source : List Char) : Cursor :=
  ⟨source, Position.start⟩

/-- The cursor behind the blanks and comments in front of it. -/
def skipBlank (cursor : Cursor) : Cursor :=
  let (blank, other) := splitBlank false cursor.rest
  ⟨other, cursor.position.after blank⟩

def tokenAt (place : Position) (lexeme : Lexeme) : Except Error Token :=
  match lexeme.meaning with
  | .ok kind => .ok ⟨kind, String.ofList lexeme.text, place⟩
  | .error fault => .error (fault.toError place)

/-- Reads one token, or the end marker.  The cursor moves over the piece even if it is at fault. -/
def next (mode : Mode) (cursor : Cursor) : Except Error Token × Cursor :=
  let front := cursor.skipBlank
  match front.rest with
  | [] => (.ok ⟨.endMarker, "", front.position⟩, front)
  | c :: cs =>
      let lexeme := Lexeme.read mode c cs
      (tokenAt front.position lexeme, ⟨lexeme.rest, front.position.after lexeme.text⟩)

def isLast : Except Error Token → Bool
  | .ok t => t.isEnd
  | .error _ => true

/-- Every token but the last moves the cursor. -/
theorem length_next_lt (mode : Mode) (cursor : Cursor)
    (h : isLast (cursor.next mode).1 = false) :
    (cursor.next mode).2.rest.length < cursor.rest.length := by
  have skipped : cursor.skipBlank.rest.length ≤ cursor.rest.length :=
    length_splitBlank_le false cursor.rest
  unfold next at h ⊢
  cases front : cursor.skipBlank.rest with
  | nil => simp [front, isLast, Token.isEnd] at h
  | cons c cs =>
      have taken := Lexeme.length_read_rest_lt mode c cs
      rw [front] at skipped
      simp only [front]
      omega

end Cursor

structure Lexer where
  source : List Char
  mode : Mode
  cursor : Cursor
  /-- Has the iteration met the end or a fault? -/
  finished : Bool

namespace Lexer

def ofString (source : String) (mode : Mode) : Lexer :=
  ⟨source.toList, mode, .ofText source.toList, false⟩

/-- Back to the beginning of the text; the mode stays. -/
def reset (l : Lexer) : Lexer :=
  { l with cursor := .ofText l.source, finished := false }

def setMode (l : Lexer) (mode : Mode) : Lexer :=
  { l with mode }

/--
The next token at the cursor, whether or not the iteration has ended.  Characters that begin no
token come back as tokens of their own.
-/
def nextToken (l : Lexer) : Except Error Token × Lexer :=
  let (answer, cursor) := l.cursor.next l.mode
  (answer, { l with cursor })

/-- One step of the iteration, which ends behind the end marker or a fault. -/
def next (l : Lexer) : Option (Except Error Token) × Lexer :=
  if l.finished then (none, l)
  else
    let (answer, moved) := l.nextToken
    (some answer, { moved with finished := Cursor.isLast answer })

/-- A bound on the steps that the iteration still takes. -/
def pending (l : Lexer) : Nat :=
  if l.finished then 0 else l.cursor.rest.length + 1

theorem pending_next_lt {l : Lexer} {answer : Except Error Token} {moved : Lexer}
    (h : l.next = (some answer, moved)) : moved.pending < l.pending := by
  unfold next at h
  split at h
  · simp at h
  · rename_i running
    simp only [nextToken, Prod.mk.injEq, Option.some.injEq] at h
    rcases h with ⟨rfl, rfl⟩
    simp only [pending, running]
    split
    · simp
    · rename_i unfinished
      have := Cursor.length_next_lt l.mode l.cursor (by simpa using unfinished)
      simp only [Bool.false_eq_true, ↓reduceIte]
      omega

def remaining (l : Lexer) : List (Except Error Token) × Lexer :=
  match h : l.next with
  | (none, moved) => ([], moved)
  | (some answer, moved) =>
      have := pending_next_lt h
      let (answers, last) := moved.remaining
      (answer :: answers, last)
termination_by l.pending

/--
The tokens that the iteration still meets.  A character that begins no token is refused by a
strict lexer, which stops behind it, and left out by a permissive one.
-/
def validTokens (l : Lexer) : Except Error (List Token) × Lexer :=
  match h : l.next with
  | (none, moved) => (.ok [], moved)
  | (some (.error e), moved) => (.error e, moved)
  | (some (.ok t), moved) =>
      have := pending_next_lt h
      match t.kind, l.mode with
      | .invalid c, .strict => (.error ((Fault.unrecognizedCharacter c).toError t.position), moved)
      | .invalid _, .permissive => moved.validTokens
      | _, _ =>
          let (tokens, last) := moved.validTokens
          (tokens.map (t :: ·), last)
termination_by l.pending

/-- The tokens of the whole text, from its beginning to the end marker. -/
def tokenize (l : Lexer) : Except Error (List Token) × Lexer :=
  l.reset.validTokens

end Lexer

def tokenize (source : String) (mode : Mode) : Except Error (List Token) :=
  (Lexer.ofString source mode).tokenize.1

end Tabular
