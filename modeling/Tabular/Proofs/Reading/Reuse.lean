import Tabular.Proofs.Reading.Expression
import Tabular.Proofs.Reading.Lookahead

/-!
# Parsers used again

A parser that keeps count of the parentheses and unary operators around it, call after call.  The
count is back where it was behind every call, also behind one that fails deep inside, so a parser
answers each call as a new one would over the tokens that are left.
-/

namespace Tabular

open Parse

variable {α β : Type}

/-! ## Parsers that count -/

structure Parser where
  stream : TokenStream
  /-- The parentheses and unary operators that have been entered and not left. -/
  nesting : Nat

abbrev Counting := EStateM Error Parser

namespace Counting

def beside (d : Nat) : EStateM.Result Error TokenStream α → EStateM.Result Error Parser α
  | .ok a s => .ok a ⟨s, d⟩
  | .error e s => .error e ⟨s, d⟩

/-- A reader that does not touch the count. -/
def plain (reader : Parse α) : Counting α :=
  fun p => beside p.nesting (reader.run p.stream)

/--
Reads what stands one parenthesis or unary operator further in.  The count goes up before it and
down behind it, whether or not it has failed.
-/
def nested (inner : Counting α) : Counting α := fun p =>
  if p.nesting < Expr.maxDepth then
    match inner.run { p with nesting := p.nesting + 1 } with
    | .ok a q => .ok a { q with nesting := q.nesting - 1 }
    | .error e q => .error e { q with nesting := q.nesting - 1 }
  else (plain Expr.tooDeep).run p

instance : MonadLift Parse Counting :=
  ⟨plain⟩

instance : Nesting Counting :=
  ⟨nested⟩

end Counting

/-! ## The count -/

open Counting (beside plain nested)

/--
Where the count is `d`, the one does what the other does, and behind it the count is `d` again, also
where it fails.
-/
def Counts (d : Nat) (counting : Counting α) (reader : Parse α) : Prop :=
  ∀ s, counting.run ⟨s, d⟩ = beside d (reader.run s)

variable {d : Nat} {counting : Counting α} {reader : Parse α}

theorem counts_lift (reader : Parse α) : Counts d (liftM reader) (liftM reader) :=
  fun _ => rfl

theorem counts_pure (a : α) : Counts d (pure a) (pure a) :=
  fun _ => rfl

theorem Counts.bind {f : α → Counting β} {g : α → Parse β} (h : Counts d counting reader)
    (h' : ∀ a, Counts d (f a) (g a)) : Counts d (counting >>= f) (reader >>= g) := by
  intro s
  rw [EStateM.run_bind, h s, EStateM.run_bind]
  cases reader.run s with
  | ok a t => exact h' a t
  | error e t => rfl

theorem Counts.behind (reader : Parse α) {f : α → Counting β} {g : α → Parse β}
    (h : ∀ a, Counts d (f a) (g a)) : Counts d (liftM reader >>= f) (liftM reader >>= g) :=
  (counts_lift reader).bind h

theorem Counts.map (h : Counts d counting reader) (f : α → β) :
    Counts d (f <$> counting) (f <$> reader) :=
  h.bind fun a => counts_pure (f a)

theorem Counts.nested (h : Counts (d + 1) counting reader) (room : d < Expr.maxDepth) :
    Counts d (nested counting) reader := by
  intro s
  simp only [Counting.nested, EStateM.run, if_pos room]
  rw [show counting ⟨s, d + 1⟩ = beside (d + 1) (reader s) from h s]
  cases reader s <;> rfl

theorem counts_nested_tooDeep (inner : Counting α) :
    Counts Expr.maxDepth (nested inner) Expr.tooDeep := by
  intro s
  simp only [nested, EStateM.run, if_neg (Nat.lt_irrefl Expr.maxDepth)]
  rfl

section

variable {k : TokenKind}

theorem Counts.optional (h : Counts d counting reader) :
    Counts d (optional k counting) (optional k reader) := by
  refine .behind _ fun given => ?_
  cases given with
  | true => exact h.bind fun a => counts_pure (some a)
  | false => exact counts_pure none

theorem Counts.closed (h : Counts d counting reader) :
    Counts d (closed counting) (closed reader) :=
  h.bind fun a => .behind _ fun _ => counts_pure a

theorem Counts.iterate {step : α → Counting (Option α)} {step' : α → Parse (Option α)}
    (h : ∀ a, Counts d (step a) (step' a)) (a : α) :
    Counts d (iterate step a) (iterate step' a) := by
  have within (bound : List Token) (a : α) :
      Counts d (iterateWithin step bound a) (iterateWithin step' bound a) := by
    induction bound generalizing a with
    | nil => exact counts_pure a
    | cons token bound ih =>
        refine (h a).bind fun answer => ?_
        cases answer with
        | none => exact counts_pure a
        | some b => exact ih b
  exact .behind _ fun s => within s.ahead a

theorem Counts.separated (h : Counts d counting reader) :
    Counts d (separated counting) (separated reader) := by
  refine h.bind fun first => .bind (.iterate (fun read => ?_) [first]) fun _ => counts_pure _
  refine .behind _ fun comma => ?_
  cases comma with
  | true => exact h.bind fun a => counts_pure (some (a :: read))
  | false => exact counts_pure none

end

/-! ### Expressions -/

section

variable {operand : Counting Expr} {operand' : Parse Expr}

theorem Counts.leftAssoc (op? : TokenKind → Option BinaryOp) (h : Counts d operand operand') :
    Counts d (Expr.leftAssoc op? operand) (Expr.leftAssoc op? operand') := by
  refine h.bind fun first => .iterate (fun left => .behind _ fun k => ?_) first
  cases op? k with
  | none => exact counts_pure none
  | some op =>
      exact .behind _ fun _ => h.bind fun right => .behind _ fun e => counts_pure (some e)

theorem Counts.parseOver (h : Counts d operand operand') :
    Counts d (Expr.parseOver operand) (Expr.parseOver operand') := by
  unfold Expr.parseOver
  induction Expr.levels with
  | nil => exact h
  | cons op? ops ih => exact ih.leftAssoc op?

theorem counts_parseOperand {again : Counting Expr} {deeper : Parse Expr}
    (further : Counts d (nested again) deeper)
    (grouped : Counts d (nested (Expr.parseOver again)) (Expr.parseOver deeper)) :
    Counts d (Expr.parseOperand again) (Expr.parseOperand deeper) := by
  refine .behind _ fun k => ?_
  generalize Expr.unaryOp? k = sign, Expr.literal? k = word
  cases sign with
  | some op => exact .behind _ fun _ => further.bind fun _ => counts_lift _
  | none =>
      cases word with
      | some v => exact .behind _ fun _ => counts_pure _
      | none =>
          cases k with
          | identifier name => exact .behind _ fun _ => counts_lift _
          | symbol sign =>
              cases sign with
              | leftParen => exact .behind _ fun _ => grouped.closed
              | _ => exact counts_lift _
          | _ => exact counts_lift _

theorem parseOver_tooDeep : Expr.parseOver Expr.tooDeep = Expr.tooDeep := by
  have level (op? : TokenKind → Option BinaryOp) :
      Expr.leftAssoc op? Expr.tooDeep = Expr.tooDeep := rfl
  simp only [Expr.parseOver, Expr.levels, List.foldr_cons, List.foldr_nil, level]

/-- The count is at its bound where no nesting is left. -/
theorem counts_parseNested {turns nesting : Nat} (full : d + nesting = Expr.maxDepth)
    (enough : nesting ≤ turns) :
    Counts d (Expr.parseNested turns) (Expr.parseNested nesting) := by
  -- Each turn spends one level of nesting, so the turns never run out before the levels do.
  induction nesting generalizing d turns with
  | zero =>
      obtain rfl : d = Expr.maxDepth := full
      have last (again : Counting Expr) :
          Counts Expr.maxDepth (Expr.parseOperand again) (Expr.parseOperand Expr.tooDeep) := by
        refine counts_parseOperand (counts_nested_tooDeep _) ?_
        rw [parseOver_tooDeep]
        exact counts_nested_tooDeep _
      cases turns with
      | zero => exact last _
      | succ turns => exact last _
  | succ nesting ih =>
      cases turns with
      | zero => contradiction
      | succ turns =>
          have room : d < Expr.maxDepth := by omega
          have further : Counts (d + 1) (Expr.parseNested turns) (Expr.parseNested nesting) :=
            ih (by omega) (Nat.le_of_succ_le_succ enough)
          exact counts_parseOperand (further.nested room) (further.parseOver.nested room)

theorem Expr.counts_reader : Counts 0 Expr.reader Expr.parse :=
  (counts_parseNested (Nat.zero_add _) (Nat.le_refl _)).parseOver

end

/-! ### Statements -/

namespace Statement

theorem counts_parseSelectItem : Counts 0 parseSelectItem parseSelectItem := by
  refine .behind _ fun all => ?_
  cases all with
  | true => exact counts_pure _
  | false => exact Expr.counts_reader.bind fun e => .behind _ fun title => counts_pure _

theorem counts_parseSelect : Counts 0 parseSelect parseSelect := by
  refine .behind _ fun _ => counts_parseSelectItem.separated.bind fun items => ?_
  refine .behind _ fun _ => .behind _ fun source => ?_
  refine Expr.counts_reader.optional.bind fun filter => .behind _ fun order => ?_
  exact .behind _ fun limit => counts_pure _

theorem counts_parseTuple : Counts 0 parseTuple parseTuple :=
  .behind _ fun _ => Expr.counts_reader.separated.closed

theorem counts_parseInsert : Counts 0 parseInsert parseInsert := by
  refine .behind _ fun _ => .behind _ fun _ => .behind _ fun table => .behind _ fun columns => ?_
  exact .behind _ fun _ => counts_parseTuple.separated.bind fun tuples => counts_pure _

theorem counts_parseUnterminated : Counts 0 parseUnterminated parseUnterminated := by
  refine .behind _ fun k => ?_
  cases k with
  | keyword word =>
      cases word with
      | select => exact counts_parseSelect.map _
      | insert => exact counts_parseInsert.map _
      | _ => exact counts_lift _
  | _ => exact counts_lift _

theorem counts_reader : Counts 0 Statement.reader Statement.parse := by
  refine counts_parseUnterminated.bind fun statement => .behind _ fun _ => .behind _ fun k => ?_
  split
  · exact counts_pure statement
  · exact counts_lift _

end Statement

/-! ## Calls -/

def Call.counted : Call → Counting Phrase
  | expression => Phrase.expression <$> Expr.reader
  | statement => Phrase.statement <$> Statement.reader

theorem Call.counts (call : Call) : Counts 0 call.counted call.reader := by
  cases call with
  | expression => exact Expr.counts_reader.map _
  | statement => exact Statement.counts_reader.map _

namespace Parser

def ofTokens (tokens : List Token) : Parser :=
  ⟨.ofTokens tokens, 0⟩

def answer (p : Parser) (call : Call) : Except Error Phrase :=
  answerOf call.counted p

def after (p : Parser) (call : Call) : Parser :=
  stateAfter call.counted p

def behind (p : Parser) (calls : List Call) : Parser :=
  calls.foldl after p

variable {s : TokenStream}

theorem answer_eq (call : Call) : answer ⟨s, 0⟩ call = answerOf call.reader s := by
  rw [answer, answerOf, answerOf, call.counts s]
  cases call.reader.run s <;> rfl

theorem after_eq (call : Call) : after ⟨s, 0⟩ call = ⟨stateAfter call.reader s, 0⟩ := by
  rw [after, stateAfter, stateAfter, call.counts s]
  cases call.reader.run s <;> rfl

theorem behind_eq (calls : List Call) : behind ⟨s, 0⟩ calls = ⟨s.behind calls, 0⟩ := by
  induction calls generalizing s with
  | nil => rfl
  | cons call calls ih =>
      rw [TokenStream.behind_cons, ← ih, ← after_eq]
      rfl

end Parser

variable {tokens : List Token} {s : TokenStream}

theorem TokenStream.StandsIn.abreast_drop (h : s.StandsIn tokens) :
    Abreast (tokens.drop s.index) tokens s.index (ofTokens (tokens.drop s.index)) s where
  left := by
    obtain ⟨marker, ended, place, split⟩ := h
    rw [split, ofTokens_append ended]
    exact ⟨marker, ended, rfl, rfl⟩
  right := h
  apart := by rw [index_ofTokens, Nat.zero_add]

theorem Call.answerOf_drop (h : s.StandsIn tokens) (call : Call) :
    answerOf call.reader s =
      (answerOf call.reader (.ofTokens (tokens.drop s.index))).mapError (·.later s.index) :=
  (h.abreast_drop.answer (fun _ _ => by rw [List.getElem?_drop, Nat.add_comm]) call.orderly
    (Nat.le_refl _)).1

theorem TokenStream.StandsIn.index_lt (h : s.StandsIn tokens) : s.index < tokens.length := by
  have length := h.length_eq
  omega

theorem Expr.index_lt_of_parse (h : s.StandsIn tokens) {e : Expr} {t : TokenStream}
    (run : Expr.parse.run s = .ok e t) : s.index < t.index := by
  obtain ⟨kinds, passes, phrase⟩ := Expr.recognizes_parse.sound run
  have some : kinds ≠ [] := by
    rintro rfl
    exact phrase.headD_ne_star [] e (.symbol .star) rfl
  have long := List.length_pos_iff.mpr some
  have passed := passes.length_eq
  have began := h.length_eq
  have ended := (Expr.orderly_parse.standsIn h).length_eq
  rw [(run_eq_ok_iff.mp run).2] at ended
  omega

/--
Whatever a parser has been asked before and whatever came of it, it answers as a new one over the
tokens that are left, but for the numbers of the tokens in its errors.  A reader without a count
answers the same and leaves the same tokens.
-/
theorem parsers_are_reusable (tokens : List Token) (calls : List Call) (call : Call) :
    let whole := TokenStream.whole tokens
    let p := (Parser.ofTokens tokens).behind calls
    let q := p.after call
    let fresh := Parser.ofTokens (whole.drop p.stream.index)
    p.answer call = (fresh.answer call).mapError (·.later p.stream.index) ∧
      (p.nesting = 0 ∧ q.nesting = 0) ∧
      (p.stream.index ≤ q.stream.index ∧ q.stream.index < whole.length) ∧
      (∀ phrase, call = .expression → p.answer call = .ok phrase →
        p.stream.index < q.stream.index) ∧
      call.reader.answer p.stream = (p.answer call, q.stream) := by
  intro whole p q fresh
  generalize here : (TokenStream.ofTokens tokens).behind calls = s
  have stands : s.StandsIn whole := here ▸ (TokenStream.standsIn_ofTokens tokens).behind calls
  have before : p = ⟨s, 0⟩ := here ▸ Parser.behind_eq calls
  have after : q = ⟨stateAfter call.reader s, 0⟩ := by rw [← Parser.after_eq, ← before]
  have answered : p.answer call = answerOf call.reader s := by rw [before, Parser.answer_eq]
  have anew : fresh.answer call =
      answerOf call.reader (TokenStream.ofTokens (whole.drop s.index)) := by
    rw [← Parser.answer_eq]
    simp only [fresh, before]
    rfl
  rw [anew, answered, after, before]
  refine ⟨call.answerOf_drop stands, ⟨rfl, rfl⟩, ⟨call.orderly.index_le s, ?_⟩, ?_, ?_⟩
  · exact (call.orderly.standsIn stands).index_lt
  · rintro phrase rfl read
    obtain ⟨e, run, -⟩ := run_map_eq_ok_iff.mp (run_eq_ok_iff.mpr ⟨read, rfl⟩)
    exact Expr.index_lt_of_parse stands run
  · exact Prod.ext (fst_answer _ _) (snd_answer _ _)

end Tabular
