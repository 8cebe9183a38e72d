import Tabular.Error
import Tabular.Text.Blank
import Tabular.Token.Basic

/-!
# Lexemes

The longest piece at the front of a text that makes one token, what it means, and what follows it.
Blanks and comments in front are taken off first.  Nothing is lost: the parts of each split make up
the text again, and a lexeme is never empty.
-/

namespace Tabular

/-! ## Blanks and comments -/

/--
Takes blanks and comments off the front of a text.  A comment begins with two minus signs and
ends before the next line feed; the flag tells whether the text begins inside a comment.
-/
def splitBlank : Bool → List Char → List Char × List Char
  | _, [] => ([], [])
  | true, c :: rest =>
      let (blank, other) := splitBlank (c != '\n') rest
      (c :: blank, other)
  | false, c :: rest =>
      if Text.isBlank c then
        let (blank, other) := splitBlank false rest
        (c :: blank, other)
      else if c = '-' ∧ rest.head? = some '-' then
        let (blank, other) := splitBlank true rest
        (c :: blank, other)
      else ([], c :: rest)

theorem splitBlank_append (inComment : Bool) (cs : List Char) :
    (splitBlank inComment cs).1 ++ (splitBlank inComment cs).2 = cs := by
  fun_induction splitBlank inComment cs <;> simp_all

theorem length_splitBlank_le (inComment : Bool) (cs : List Char) :
    (splitBlank inComment cs).2.length ≤ cs.length := by
  have h := congrArg List.length (splitBlank_append inComment cs)
  simp only [List.length_append] at h
  omega

/-! ## The pieces -/

/-- How the lexer takes what has no token: a strict one refuses it, a permissive one reads on. -/
inductive Mode where
  | strict
  | permissive
  deriving DecidableEq

inductive Fault where
  | unterminatedString
  | integerOutOfRange (digits : List Char)
  | invalidReal (literal : List Char)
  | unrecognizedCharacter (c : Char)
  deriving DecidableEq

def Fault.message : Fault → String
  | unterminatedString => "unterminated string literal"
  | integerOutOfRange digits => "integer literal " ++ String.ofList digits ++ " out of range"
  | invalidReal literal => "invalid real literal " ++ String.ofList literal
  | unrecognizedCharacter c => "unrecognized character '" ++ String.singleton c ++ "'"

def Fault.toError (fault : Fault) (position : Position) : Error :=
  .lexical fault.message position

/-- A piece of text, what follows it, and the token that it makes. -/
structure Lexeme where
  text : List Char
  rest : List Char
  meaning : Except Fault TokenKind

structure Quoted where
  /-- The characters that the literal stands for. -/
  contents : List Char
  /-- The characters it is written with, the closing quote included. -/
  text : List Char
  rest : List Char
  closed : Bool

/-- The character that a backslash and `c` stand for. -/
def unescape (c : Char) : Char :=
  if c = 'n' then '\n'
  else if c = 't' then '\t'
  else if c = 'r' then '\r'
  else c

/--
Reads up to the next `quote` without a backslash before it, or to the end of the text.  A
backslash that ends the text stands for itself.
-/
def Quoted.read (quote : Char) : List Char → Quoted
  | [] => ⟨[], [], [], false⟩
  | [c] =>
      if c = quote then ⟨[], [c], [], true⟩ else ⟨[c], [c], [], false⟩
  | c :: d :: rest =>
      if c = quote then ⟨[], [c], d :: rest, true⟩
      else if c = '\\' then
        let tail := Quoted.read quote rest
        { tail with contents := unescape d :: tail.contents, text := c :: d :: tail.text }
      else
        let tail := Quoted.read quote (d :: rest)
        { tail with contents := c :: tail.contents, text := c :: tail.text }

theorem Quoted.read_append (quote : Char) (cs : List Char) :
    (Quoted.read quote cs).text ++ (Quoted.read quote cs).rest = cs := by
  fun_induction Quoted.read quote cs with
  | case5 d rest tail _ ih => simpa using ih
  | case6 c d rest tail _ _ ih => simpa using ih
  | _ => simp

namespace Lexeme

/-- A string literal whose opening quote has been taken off. -/
def string (mode : Mode) (quote : Char) (cs : List Char) : Lexeme :=
  let body := Quoted.read quote cs
  { text := quote :: body.text
    rest := body.rest
    meaning :=
      if body.closed || mode == .permissive then .ok (.text (String.ofList body.contents))
      else .error .unterminatedString }

/-- The integer that a run of digits stands for. -/
def integerKind (digits : List Char) : Except Fault TokenKind :=
  let n := Binary64.digitsValue digits
  if n < 2 ^ 63 then .ok (.integer (Int64.ofNat n)) else .error (.integerOutOfRange digits)

/-- The real that digits with a point stand for. -/
def realKind (literal : List Char) : Except Fault TokenKind :=
  match Binary64.ofDecimal? literal with
  | some x => .ok (.real x)
  | none => .error (.invalidReal literal)

theorem realKind_digits {whole fraction : List Char} (given : whole ≠ [])
    (digits : ∀ c ∈ whole, c.isDigit = true) (digits' : ∀ c ∈ fraction, c.isDigit = true) :
    realKind (whole ++ '.' :: fraction) =
      .ok (.real (Binary64.ofParts false (Binary64.digitsMagnitude whole fraction))) := by
  rw [realKind, Binary64.ofDecimal?_digits given digits digits']

/-- A run of digits, and behind a point perhaps more of them. -/
def number (cs : List Char) : Lexeme :=
  let whole := cs.takeWhile Char.isDigit
  match cs.dropWhile Char.isDigit with
  | '.' :: rest =>
      let literal := whole ++ '.' :: rest.takeWhile Char.isDigit
      { text := literal, rest := rest.dropWhile Char.isDigit, meaning := realKind literal }
  | rest => { text := whole, rest := rest, meaning := integerKind whole }

def beginsWord (c : Char) : Bool :=
  c.isAlpha || c == '_'

def continuesWord (c : Char) : Bool :=
  c.isAlphanum || c == '_'

/-- What a word means: a keyword, or else a name. -/
def wordKind (word : List Char) : TokenKind :=
  match Keyword.ofWord? word with
  | some k => .keyword k
  | none => .identifier (String.ofList word)

def word (cs : List Char) : Lexeme :=
  let run := cs.takeWhile continuesWord
  { text := run, rest := cs.dropWhile continuesWord, meaning := .ok (wordKind run) }

/-- The token that `c` makes, in two characters if `next` continues it. -/
def symbolKind (c : Char) (next : Option Char) : TokenKind × Bool :=
  match c with
  | '(' => (.symbol .leftParen, false)
  | ')' => (.symbol .rightParen, false)
  | ',' => (.symbol .comma, false)
  | ';' => (.symbol .semicolon, false)
  | '.' => (.symbol .dot, false)
  | '+' => (.symbol .plus, false)
  | '-' => (.symbol .minus, false)
  | '*' => (.symbol .star, false)
  | '/' => (.symbol .slash, false)
  | '=' => (.symbol .equal, false)
  | '<' =>
      if next = some '=' then (.symbol .lessEqual, true)
      else if next = some '>' then (.symbol .notEqual, true)
      else (.symbol .less, false)
  | '>' => if next = some '=' then (.symbol .greaterEqual, true) else (.symbol .greater, false)
  | '!' => if next = some '=' then (.symbol .notEqual, true) else (.invalid '!', false)
  | _ => (.invalid c, false)

def symbol (c : Char) (cs : List Char) : Lexeme :=
  let (kind, double) := symbolKind c cs.head?
  let width := if double then 1 else 0
  { text := c :: cs.take width, rest := cs.drop width, meaning := .ok kind }

/-- The lexeme at the front of `c :: cs`, where `c` is no blank. -/
def read (mode : Mode) (c : Char) (cs : List Char) : Lexeme :=
  if c = '\'' ∨ c = '"' then string mode c cs
  else if c.isDigit then number (c :: cs)
  else if beginsWord c then word (c :: cs)
  else symbol c cs

theorem number_append (cs : List Char) : (number cs).text ++ (number cs).rest = cs := by
  have split := List.takeWhile_append_dropWhile (p := Char.isDigit) (l := cs)
  unfold number
  split <;> rename_i h
  · rw [h] at split
    simpa using split
  · exact split

theorem symbol_append (c : Char) (cs : List Char) :
    (symbol c cs).text ++ (symbol c cs).rest = c :: cs := by
  simp [symbol]

theorem read_append (mode : Mode) (c : Char) (cs : List Char) :
    (read mode c cs).text ++ (read mode c cs).rest = c :: cs := by
  unfold read
  split
  · simp [string, Quoted.read_append]
  · split
    · exact number_append _
    · split
      · simp [word]
      · exact symbol_append c cs

theorem read_text_ne_nil (mode : Mode) (c : Char) (cs : List Char) :
    (read mode c cs).text ≠ [] := by
  unfold read
  split
  · simp [string]
  · split
    · rename_i digit
      unfold number
      split <;> simp [digit]
    · split
      · rename_i letter
        simp only [beginsWord, Bool.or_eq_true] at letter
        have inside : continuesWord c = true := by
          rcases letter with letter | letter <;> simp [continuesWord, Char.isAlphanum, letter]
        simp [word, inside]
      · simp [symbol]

theorem length_read_rest_lt (mode : Mode) (c : Char) (cs : List Char) :
    (read mode c cs).rest.length < (c :: cs).length := by
  have h := congrArg List.length (read_append mode c cs)
  have hne := List.length_pos_iff.mpr (read_text_ne_nil mode c cs)
  simp only [List.length_append] at h
  omega

end Lexeme

end Tabular
