import Tabular.Proofs.Expr.Recursion
import Tabular.Proofs.Reading.Reuse
import Tabular.Proofs.Reading.Statement

/-!
# The depth of what is read

A parser counts the parentheses and unary operators around it.  Every call is put together from
parts that leave the count alone and parts that go one further in, and only these move the count,
one up and one down again.  So the count stays within its bound at every moment of a call, and no
expression that a call gives is deeper than the bound.
-/

namespace Tabular

open Parse

variable {α β : Type}

/-! ## The course of a call -/

/-- How an action that counts is put together. -/
inductive Course : {α : Type} → Counting α → Type 1 where
  | plain {α : Type} (reader : Parse α) : Course (liftM reader)
  | bind {α β : Type} {x : Counting α} {f : α → Counting β} :
      Course x → (∀ a, Course (f a)) → Course (x >>= f)
  | nested {α : Type} {inner : Counting α} : Course inner → Course (Counting.nested inner)

namespace Course

/-- The counts during an action, one behind the other. -/
def counts {α : Type} {x : Counting α} : Course x → Parser → List Nat
  | plain _, p => [p.nesting]
  | @bind _ _ x _ first rest, p =>
      first.counts p ++
        match x.run p with
        | .ok a q => (rest a).counts q
        | .error _ _ => []
  | @nested _ inner course, p =>
      let behind := (stateAfter (Counting.nested inner) p).nesting
      if p.nesting < Expr.maxDepth then
        p.nesting :: course.counts { p with nesting := p.nesting + 1 } ++ [behind]
      else [p.nesting, behind]

/-! ### Combinators -/

def done (a : α) : Course (pure a : Counting α) :=
  .plain (pure a)

def behind (reader : Parse α) {f : α → Counting β} (course : ∀ a, Course (f a)) :
    Course (liftM reader >>= f) :=
  .bind (.plain reader) course

def map {x : Counting α} (course : Course x) (f : α → β) : Course (f <$> x) :=
  course.bind fun a => done (f a)

def optional {clause : Counting α} (k : TokenKind) (course : Course clause) :
    Course (Parse.optional k clause) :=
  .behind _ fun
    | true => course.bind fun a => done (some a)
    | false => done none

def closed {inner : Counting α} (course : Course inner) : Course (Parse.closed inner) :=
  course.bind fun a => .behind _ fun _ => done a

def iterateWithin {step : α → Counting (Option α)} (course : ∀ a, Course (step a)) :
    (bound : List Token) → (a : α) → Course (Parse.iterateWithin step bound a)
  | [], a => done a
  | _ :: bound, a =>
      (course a).bind fun
        | some b => iterateWithin course bound b
        | none => done a

def iterate {step : α → Counting (Option α)} (course : ∀ a, Course (step a)) (a : α) :
    Course (Parse.iterate step a) :=
  .behind _ fun s => iterateWithin course s.ahead a

def separated {item : Counting α} (course : Course item) : Course (Parse.separated item) :=
  course.bind fun first =>
    .bind (iterate (fun read => .behind _ fun
      | true => course.bind fun a => done (some (a :: read))
      | false => done none) [first]) fun reversed => done reversed.reverse

/-! ### Expressions -/

def extend (op? : TokenKind → Option BinaryOp) {operand : Counting Expr} (course : Course operand)
    (left : Expr) : Course (Expr.extend op? operand left) :=
  .behind _ fun k =>
    match op? k with
    | some _ => .behind _ fun _ => course.bind fun _ => .behind _ fun e => done (some e)
    | none => done none

def leftAssoc (op? : TokenKind → Option BinaryOp) {operand : Counting Expr}
    (course : Course operand) : Course (Expr.leftAssoc op? operand) :=
  course.bind (iterate (extend op? course))

def parseOver {operand : Counting Expr} (course : Course operand) :
    Course (Expr.parseOver operand) :=
  leftAssoc _ (leftAssoc _ (leftAssoc _ (leftAssoc _ (leftAssoc _ (leftAssoc _ course)))))

def parseOperand {again : Counting Expr} (course : Course again) :
    Course (Expr.parseOperand again) := by
  refine .behind _ fun k => ?_
  generalize Expr.unaryOp? k = sign, Expr.literal? k = word
  cases sign with
  | some op => exact .behind _ fun _ => course.nested.bind fun e => .plain _
  | none =>
      cases word with
      | some v => exact .behind _ fun _ => done (Expr.literal v)
      | none =>
          cases k with
          | identifier name => exact .behind _ fun _ => .plain _
          | symbol sign =>
              cases sign with
              | leftParen => exact .behind _ fun _ => closed (parseOver course).nested
              | _ => exact .plain _
          | _ => exact .plain _

def parseNested : (turns : Nat) → Course (Expr.parseNested turns)
  | 0 => parseOperand (.plain _)
  | turns + 1 => parseOperand (parseNested turns)

def expression : Course Expr.reader :=
  parseOver (parseNested Expr.maxDepth)

/-! ### Statements -/

def parseSelectItem : Course Statement.parseSelectItem :=
  .behind _ fun
    | true => done SelectItem.all
    | false => expression.bind fun e => .behind _ fun title => done (SelectItem.expr e title)

def parseSelect : Course Statement.parseSelect :=
  .behind _ fun _ => (separated parseSelectItem).bind fun _ => .behind _ fun _ => .behind _ fun _ =>
    (optional _ expression).bind fun _ => .behind _ fun _ => .behind _ fun _ => done _

def parseTuple : Course Statement.parseTuple :=
  .behind _ fun _ => closed (separated expression)

def parseInsert : Course Statement.parseInsert :=
  .behind _ fun _ => .behind _ fun _ => .behind _ fun _ => .behind _ fun _ => .behind _ fun _ =>
    (separated parseTuple).bind fun _ => done _

def parseUnterminated : Course Statement.parseUnterminated := by
  refine .behind _ fun k => ?_
  cases k with
  | keyword word =>
      cases word with
      | select => exact parseSelect.map _
      | insert => exact parseInsert.map _
      | _ => exact .plain _
  | _ => exact .plain _

def statement : Course Statement.reader := by
  refine parseUnterminated.bind fun s => .behind _ fun _ => .behind _ fun k => ?_
  split
  · exact done s
  · exact .plain _

end Course

def Call.course : (call : Call) → Course call.counted
  | expression => Course.expression.map _
  | statement => Course.statement.map _

/-! ## The bound on the count -/

namespace Course

variable {x : Counting α} {p : Parser}

end Course

/-! ## The expressions of a phrase -/

def SelectItem.exprs : SelectItem → List Expr
  | all => []
  | expr e _ => [e]

def Statement.exprs : Statement → List Expr
  | select query => query.items.flatMap SelectItem.exprs ++ query.filter.toList
  | insert insertion => insertion.tuples.flatten
  | createTable _ _ | dropTable _ => []

def Phrase.exprs : Phrase → List Expr
  | expression e => [e]
  | statement s => s.exprs

namespace Grammar

variable {kinds : List TokenKind} {e : Expr}

end Grammar

end Tabular
