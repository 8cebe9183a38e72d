/-!
# Places in a text

A place counts the bytes before it, and names its line and its column in that line.
-/

namespace Tabular

structure Position where
  offset : Nat
  /-- Line, from 1. -/
  line : Nat
  /-- Column in characters, from 1. -/
  column : Nat
  deriving DecidableEq

namespace Position

def start : Position :=
  ⟨0, 1, 1⟩

/-- The place behind one more character; only a line feed begins a line. -/
def advance (p : Position) (c : Char) : Position :=
  if c = '\n' then ⟨p.offset + c.utf8Size, p.line + 1, 1⟩
  else ⟨p.offset + c.utf8Size, p.line, p.column + 1⟩

def after (p : Position) (cs : List Char) : Position :=
  cs.foldl advance p

@[simp] theorem after_nil (p : Position) : p.after [] = p :=
  rfl

@[simp] theorem after_cons (p : Position) (c : Char) (cs : List Char) :
    p.after (c :: cs) = (p.advance c).after cs :=
  rfl

theorem after_append (p : Position) (cs ds : List Char) :
    p.after (cs ++ ds) = (p.after cs).after ds := by
  simp [after]

def text (p : Position) : String :=
  "line " ++ toString p.line ++ ", column " ++ toString p.column

end Position

end Tabular
