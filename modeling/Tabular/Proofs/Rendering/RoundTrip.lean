import Tabular.Expr.Eval
import Tabular.Proofs.Reading.Expression
import Tabular.Proofs.Rendering.Tokens

/-!
# Rendered expressions read back

The tokens of a rendered expression are derived for the expression with its negative literals
written out as a minus and a magnitude.  Reading gives that expression, and it has the same meaning.
-/

namespace Tabular.Expr

open Binary64 Grammar Parse TokenStream

/-! ## Negative literals written out -/

def signedLiteral : Value → Expr
  | .integer n =>
      let absolute := literal (.integer (Int64.ofNat n.toInt.natAbs))
      if n.toInt < 0 then unary .minus absolute else absolute
  | .real x =>
      let absolute := literal (.real (ofParts false (magnitude x)))
      if isNegative x then unary .minus absolute else absolute
  | v => literal v

/-- The expression with every negative literal as a minus before its magnitude. -/
def signed : Expr → Expr
  | literal v => signedLiteral v
  | column table name => column table name
  | binary left op right => binary left.signed op right.signed
  | unary op operand => unary op operand.signed

/--
How many parentheses and unary operators stand around the part of the text that is deepest in
them.
-/
def textNesting : Expr → Nat
  | literal v => if (literal v).beginsWithMinus then 1 else 0
  | column _ _ => 0
  | binary left _ right =>
      max (grouped left.isBinary left.textNesting) (grouped right.isBinary right.textNesting)
  | unary .minus e => grouped (e.isBinary || e.beginsWithMinus) e.textNesting + 1
  | unary .not e => grouped e.isBinary e.textNesting + 1
where
  grouped (inParentheses : Bool) (nesting : Nat) : Nat :=
    if inParentheses then nesting + 1 else nesting

/-! ## Meaning -/

theorem absolute_of_nonneg {n : Int64} (h : 0 ≤ n.toInt) : Int64.ofNat n.toInt.natAbs = n := by
  have bound := n.toInt_lt
  apply Int64.toInt_inj.mp
  rw [Int64.toInt_ofNat_of_lt (by omega)]
  omega

theorem minus_absolute {n : Int64} (least : -2 ^ 63 < n.toInt) (negative : n.toInt < 0) :
    UnaryOp.minus.apply (.integer (Int64.ofNat n.toInt.natAbs)) = .ok (.integer n) := by
  have absolute : (Int64.ofNat n.toInt.natAbs).toInt = -n.toInt := by
    rw [Int64.toInt_ofNat_of_lt (by omega)]
    omega
  have back : int64? n.toInt = some n := by
    rw [int64?, if_pos ⟨by omega, n.toInt_lt⟩, Int64.ofInt_toInt]
  simp only [UnaryOp.apply, absolute, Int.neg_neg, back]

theorem minus_magnitude {x : Binary64} (negative : isNegative x = true) :
    UnaryOp.minus.apply (.real (ofParts false (magnitude x))) = .ok (.real x) := by
  have back := ofParts_parts x
  rw [negative] at back
  simp only [UnaryOp.apply, negate_ofParts (magnitude_lt x), Bool.not_false, back]

theorem eval_signedLiteral {v : Value} (h : HasLiteral v) (reading : ColumnReading) :
    (signedLiteral v).eval reading = .ok v := by
  cases v with
  | null | text | boolean => rfl
  | integer n =>
      by_cases negative : n.toInt < 0
      · rw [signedLiteral, if_pos negative]
        exact minus_absolute h negative
      · rw [signedLiteral, if_neg negative, absolute_of_nonneg (by omega)]
        rfl
  | real x =>
      by_cases negative : isNegative x = true
      · rw [signedLiteral, if_pos negative]
        exact minus_magnitude negative
      · have positive : isNegative x = false := by simpa using negative
        have back := ofParts_parts x
        rw [positive] at back
        rw [signedLiteral, if_neg negative, back]
        rfl

theorem eval_signed {e : Expr} (h : e.Readable) (reading : ColumnReading) :
    e.signed.eval reading = e.eval reading := by
  induction e with
  | literal v => exact eval_signedLiteral h reading
  | column table name => rfl
  | binary left op right ihl ihr => simp only [signed, eval, ihl h.1, ihr h.2]
  | unary op operand ih => simp only [signed, eval, ih h]

/-! ## Derivations -/

variable {e : Expr} {nesting : Nat}

theorem derives_tighter {kinds : List TokenKind} (h : Derives .unary kinds e nesting) (l : Level) :
    Derives l.tighter kinds e nesting := by
  cases l with
  | product => exact h
  | _ => exact h.onLevel _

theorem derives_whole {l : Level} {kinds : List TokenKind}
    (h : Derives (.binary l) kinds e nesting) : Derives (.binary .disjunction) kinds e nesting := by
  cases l with
  | disjunction => exact h
  | conjunction => exact .tighter h
  | equality => exact .tighter (.tighter h)
  | inequality => exact .tighter (.tighter (.tighter h))
  | sum => exact .tighter (.tighter (.tighter (.tighter h)))
  | product => exact .tighter (.tighter (.tighter (.tighter (.tighter h))))

theorem binarySign_sign (op : BinaryOp) : ∃ l, BinarySign l op.sign op := by
  rcases op with ⟨⟨⟩⟩ | ⟨⟨⟩⟩ | ⟨⟨⟩⟩ <;> exact ⟨_, by constructor⟩

theorem derives_literal (v : Value) :
    Derives .unary (literalKinds v) (signedLiteral v) (literal v).textNesting := by
  cases v with
  | null => exact .primary (.literal .null)
  | boolean b =>
      cases b with
      | true => exact .primary (.literal .true)
      | false => exact .primary (.literal .false)
  | text s => exact .primary (.literal (.text s))
  | integer n =>
      have absolute := Derives.primary (.literal (.integer (Int64.ofNat n.toInt.natAbs)))
      by_cases negative : n.toInt < 0
      · simp only [literalKinds, signedLiteral, textNesting, beginsWithMinus, negative, if_true,
          decide_true]
        exact .unary .minus absolute
      · simp only [literalKinds, signedLiteral, textNesting, beginsWithMinus, negative, if_false,
          decide_false, Bool.false_eq_true]
        exact absolute
  | real x =>
      have absolute := Derives.primary (.literal (.real (ofParts false (magnitude x))))
      by_cases negative : isNegative x = true
      · simp only [literalKinds, signedLiteral, textNesting, beginsWithMinus, negative, if_true]
        exact .unary .minus absolute
      · simp only [literalKinds, signedLiteral, textNesting, beginsWithMinus, negative,
          if_false, Bool.false_eq_true]
        exact absolute

theorem derives_group {kinds : List TokenKind} {binary : Bool} (grouped : Bool)
    (whole : Derives (.binary .disjunction) kinds e nesting)
    (tight : binary = false → Derives .unary kinds e nesting)
    (enough : grouped = false → binary = false) :
    Derives .unary (groupKinds grouped kinds) e (textNesting.grouped grouped nesting) := by
  cases grouped with
  | true => exact .primary (.parentheses whole)
  | false => exact tight (enough rfl)

/--
The tokens of the text are an expression; they are an operand of any operator if it is no binary
operation.
-/
theorem derives_kinds (e : Expr) :
    Derives (.binary .disjunction) e.kinds e.signed e.textNesting ∧
      (e.isBinary = false → Derives .unary e.kinds e.signed e.textNesting) := by
  induction e with
  | literal v =>
      have tight := derives_literal v
      exact ⟨tight.onLevel _, fun _ => tight⟩
  | column table name =>
      have tight : Derives .unary (column table name).kinds (column table name) 0 := by
        cases table with
        | none => exact .primary (.column name)
        | some q => exact .primary (.qualified q name)
      exact ⟨tight.onLevel _, fun _ => tight⟩
  | binary left op right ihl ihr =>
      obtain ⟨l, sign⟩ := binarySign_sign op
      have first := derives_group left.isBinary ihl.1 ihl.2 id
      have second := derives_group right.isBinary ihr.1 ihr.2 id
      have whole := Derives.binary (first.onLevel l) sign (derives_tighter second l)
      exact ⟨derives_whole whole, nofun⟩
  | unary op operand ih =>
      cases op with
      | not =>
          have inner := derives_group operand.isBinary ih.1 ih.2 id
          have tight := Derives.unary .not inner
          exact ⟨tight.onLevel _, fun _ => tight⟩
      | minus =>
          have inner := derives_group (operand.isBinary || operand.beginsWithMinus) ih.1 ih.2
            fun h => (Bool.or_eq_false_iff.mp h).1
          have tight := Derives.unary .minus inner
          exact ⟨tight.onLevel _, fun _ => tight⟩

/-! ## Reading -/

/--
Within the bounds on depth and nesting, the text of an expression is read as the expression with
its negative literals written out, up to the end marker, and that expression has the same value or
error in every row and without one.
-/
theorem parse_render {e : Expr} (h : e.Readable) (depth : e.signed.depth ≤ maxDepth)
    (nesting : e.textNesting ≤ maxDepth) :
    ∃ tokens behind, tokenize e.render .strict = .ok tokens ∧
      parse.answer (.ofTokens tokens) = (.ok e.signed, behind) ∧
      behind.ahead = [] ∧ behind.index + 1 = tokens.length ∧
      (∀ t row, e.signed.evalRow t row = e.evalRow t row) ∧
      e.signed.evalConstant = e.evalConstant := by
  obtain ⟨tokens, lexed, kinds⟩ := tokenize_of_scans (scans_render_all h)
  obtain ⟨body, last, rfl, inner, ended⟩ := List.map_eq_append_iff.mp kinds
  obtain ⟨marker, rfl, isEnd⟩ := List.map_eq_singleton_iff.mp ended
  have phrase : IsExpr e.kinds e.signed := ⟨e.textNesting, (derives_kinds e).1, nesting, depth⟩
  have passes : TokenStream.Passes ⟨0, body, marker.position⟩ e.kinds _ :=
    (passes_to_end_iff rfl).mpr ⟨inner, rfl⟩
  have read := recognizes_parse.complete passes phrase (follows_endMarker _)
  refine ⟨body ++ [marker], ⟨0 + body.length, [], marker.position⟩, lexed, ?_, rfl, by simp,
    fun t row => ?_, eval_signed h _⟩
  · rw [ofTokens_append isEnd, answer, read]
  · exact eval_signed h _

/-- Two minus signs that do not begin a comment. -/
theorem parse_render_double_minus :
    ∃ tokens behind, tokenize "x * -(-5)" .strict = .ok tokens ∧
      parse.answer (.ofTokens tokens) =
        (.ok (binary (column none "x") (.arithmetic .multiply)
          (unary .minus (unary .minus (literal (.integer 5))))), behind) ∧
      behind.ahead = [] := by
  have readable : (binary (column none "x") (.arithmetic .multiply)
      (unary .minus (literal (.integer (-5))))).Readable :=
    ⟨⟨nofun, rfl, by decide +kernel⟩,
      (by decide : -2 ^ 63 < (-5 : Int64).toInt)⟩
  obtain ⟨tokens, behind, lexed, read, ended, -⟩ := parse_render readable (by decide) (by decide)
  exact ⟨tokens, behind, lexed, read, ended⟩

end Tabular.Expr
