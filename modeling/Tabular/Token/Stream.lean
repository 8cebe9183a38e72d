import Tabular.Error
import Tabular.Token.Basic

/-!
# Reading tokens

A stream of tokens ends in an end marker that cannot be passed.  Readers move along the stream;
where one fails, the stream stays at the token that it names.  Readers that others are given to are
readers in every monad that reads tokens, so that the same ones can keep count of something besides.
-/

namespace Tabular

structure TokenStream where
  index : Nat
  ahead : List Token
  /-- The place of the end marker behind the tokens. -/
  stop : Position

namespace TokenStream

/--
The stream of a list of tokens.  A last end marker becomes the end of the stream; if there is
none, the stream ends at the place of the last token.
-/
def ofTokens (tokens : List Token) : TokenStream :=
  match tokens.getLast? with
  | none => ⟨0, [], ⟨0, 0, 0⟩⟩
  | some last => ⟨0, if last.isEnd then tokens.dropLast else tokens, last.position⟩

def current (s : TokenStream) : Token :=
  s.ahead.headD ⟨.endMarker, "", s.stop⟩

/-- The stream behind its next token; the end marker stays. -/
def advance (s : TokenStream) : TokenStream :=
  match s.ahead with
  | [] => s
  | _ :: rest => { s with index := s.index + 1, ahead := rest }

def unexpected (s : TokenStream) (expected : String) : Error :=
  .unexpectedToken expected s.current.describe s.index s.current.position

end TokenStream

abbrev Parse := EStateM Error TokenStream

/-- Monads in which a reader can say that what it reads stands one parenthesis or operator in. -/
class Nesting (m : Type → Type) where
  nested {α : Type} : m α → m α

/-- Where only tokens are read, nothing comes of that. -/
instance : Nesting Parse :=
  ⟨id⟩

@[simp] theorem Parse.nested_eq (inner : Parse α) : Nesting.nested inner = inner :=
  rfl

namespace Parse

def kind : Parse TokenKind :=
  return (← get).current.kind

def advance : Parse Unit :=
  modify TokenStream.advance

def refuse (expected : String) : Parse α := do
  throw ((← get).unexpected expected)

/-- Reads a token of this kind if it is next, and tells whether it was. -/
def accept (k : TokenKind) : Parse Bool := do
  if (← kind) = k then
    advance
    return true
  else return false

def expect (k : TokenKind) : Parse Unit := do
  if (← kind) = k then advance else refuse k.describe

/-- Reads a name, which a failure calls `what`. -/
def identifier (what : String) : Parse String := do
  match ← kind with
  | .identifier name =>
      advance
      return name
  | _ => refuse what

def answer (reader : Parse α) (s : TokenStream) : Except Error α × TokenStream :=
  match reader.run s with
  | .ok a behind => (.ok a, behind)
  | .error e behind => (.error e, behind)

section

variable {α : Type} {m : Type → Type} [Monad m] [MonadLiftT Parse m]

/-- Reads what stands behind a token of this kind, if there is one. -/
def optional (k : TokenKind) (clause : m α) : m (Option α) := do
  if ← accept k then return some (← clause) else return none

def closed (inner : m α) : m α := do
  let a ← inner
  expect (.symbol .rightParen)
  return a

def parenthesized (inner : m α) : m α := do
  expect (.symbol .leftParen)
  closed inner

/-- Repeats a step as long as it has an answer, at most once for each token of `bound`. -/
def iterateWithin (step : α → m (Option α)) : List Token → α → m α
  | [], a => return a
  | _ :: bound, a => do
      match ← step a with
      | some b => iterateWithin step bound b
      | none => return a

/--
Repeats a step as long as it has an answer.  A step with an answer must read a token, so the
tokens ahead are a bound.
-/
def iterate (step : α → m (Option α)) (a : α) : m α := do
  iterateWithin step (← (get : Parse TokenStream)).ahead a

/-- Reads a comma and the item behind it, if there is one; the last item comes first. -/
def nextItem (item : m α) (read : List α) : m (Option (List α)) := do
  if ← accept (.symbol .comma) then return some ((← item) :: read) else return none

/-- Reads items with commas between them, at least one. -/
def separated (item : m α) : m (List α) := do
  let first ← item
  let reversed ← iterate (nextItem item) [first]
  return reversed.reverse

end

end Parse

end Tabular
