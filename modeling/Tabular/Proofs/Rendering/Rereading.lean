import Mathlib.Logic.Function.Iterate
import Tabular.Proofs.Grammar.Nesting
import Tabular.Proofs.Rendering.RoundTrip
import Tabular.Proofs.Tokens.Placement
import Tabular.Proofs.Tokens.Written

/-!
# Texts of expressions that were read

What an expression was read from has no negative literals and no NaN, so rendering changes at most
two things: a real that was read as infinity becomes a name, and the parentheses of the text nest
deeper than those that were read.  Only these two keep the text from being read as the same
expression.
-/

namespace Tabular.Expr

open Binary64 Grammar Parse TokenStream

/-! ## Expressions that were read -/

def UnsignedValue : Value → Prop
  | .integer n => 0 ≤ n.toInt
  | .real x => IsMagnitude x
  | _ => True

/-- Names are identifiers, and numbers have no sign. -/
def Unsigned : Expr → Prop
  | literal v => UnsignedValue v
  | column table name => (∀ q ∈ table, IsIdentifier q) ∧ IsIdentifier name
  | binary left _ right => left.Unsigned ∧ right.Unsigned
  | unary _ operand => operand.Unsigned

theorem unsigned_of_derives {c : Category} {kinds : List TokenKind} {e : Expr} {n : Nat}
    (h : Derives c kinds e n) (written : ∀ k ∈ kinds, k.Written) : e.Unsigned := by
  induction h with
  | tighter _ ih | primary _ ih => exact ih written
  | binary _ _ _ ihl ihr =>
      obtain ⟨left, right⟩ := List.forall_mem_append.mp written
      exact ⟨ihl left, ihr (List.forall_mem_cons.mp right).2⟩
  | unary _ _ ih => exact ih (List.forall_mem_cons.mp written).2
  | literal sign =>
      have first := written _ (List.mem_cons_self ..)
      cases sign with
      | integer | real => exact first
      | _ => trivial
  | column name => exact ⟨nofun, written _ (List.mem_cons_self ..)⟩
  | qualified table name =>
      refine ⟨?_, written (.identifier name) (by simp)⟩
      rintro _ ⟨⟩
      exact written (.identifier table) (by simp)
  | parentheses _ ih =>
      exact ih fun k member => written k (by simp [member])

theorem exists_of_ofString {source : String} {e : Expr} (read : ofString source = .ok e) :
    ∃ tokens kinds rest, tokenize source .strict = .ok tokens ∧
      tokens.map Token.kind = kinds ++ rest ++ [.endMarker] ∧ IsExpr kinds e := by
  obtain ⟨tokens, lexed, read⟩ := bind_eq_ok_iff.mp read
  have cut := cut_of_tokenizes (tokenize_eq_ok_iff.mp lexed) located_start
  obtain ⟨body, marker, rfl, -, ended, -⟩ := cut.ends
  rw [ofTokens_append ended] at read
  obtain ⟨behind, run⟩ := answer_eq_ok_iff.mp read
  obtain ⟨kinds, passes, phrase⟩ := recognizes_parse.sound run
  refine ⟨_, kinds, behind.ahead.map Token.kind, lexed, ?_, phrase⟩
  rw [← passes.kinds_ahead]
  simp [ended]

theorem unsigned_of_ofString {source : String} {e : Expr} (read : ofString source = .ok e) :
    e.Unsigned := by
  obtain ⟨tokens, kinds, rest, lexed, same, nesting, derived, -⟩ := exists_of_ofString read
  have written := written_of_tokenizes (tokenize_eq_ok_iff.mp lexed)
  refine unsigned_of_derives derived fun k member => ?_
  have inside : k ∈ tokens.map Token.kind := by simp [same, member]
  obtain ⟨t, among, rfl⟩ := List.mem_map.mp inside
  exact written t among

/-! ## What the text stands for -/

/-- The expression that the text of one stands for: infinity is written as a name. -/
def reread : Expr → Expr
  | literal (.real x) => if isFinite x then literal (.real x) else column none "inf"
  | literal v => literal v
  | column table name => column table name
  | binary left op right => binary left.reread op right.reread
  | unary op operand => unary op operand.reread

theorem isIdentifier_inf : IsIdentifier "inf" :=
  ⟨rfl, by decide +kernel⟩

theorem isIdentifier_x : IsIdentifier "x" :=
  ⟨rfl, by decide +kernel⟩

variable {e : Expr} {v : Value}

theorem reread_literal (h : UnsignedValue v) :
    HasLiteral v ∧ (literal v).reread = literal v ∨
      ¬HasLiteral v ∧ (literal v).reread = column none "inf" ∧ literalText v = "inf" := by
  cases v with
  | real x =>
      by_cases finite : isFinite x = true
      · exact .inl ⟨finite, if_pos finite⟩
      · exact .inr ⟨finite, if_neg finite, text_of_isMagnitude h finite⟩
  | integer n =>
      have nonneg : 0 ≤ n.toInt := h
      have literal : HasLiteral (.integer n) := by
        change -2 ^ 63 < n.toInt
        omega
      exact .inl ⟨literal, rfl⟩
  | null | text | boolean => exact .inl ⟨trivial, rfl⟩

theorem beginsWithMinus_literal (h : UnsignedValue v) : (literal v).beginsWithMinus = false := by
  cases v with
  | real x => exact (parts_of_isMagnitude h).1
  | integer n => exact decide_eq_false (Int.not_lt.mpr h)
  | null | text | boolean => rfl

theorem signedLiteral_of_unsigned (h : UnsignedValue v) : signedLiteral v = literal v := by
  cases v with
  | real x =>
      obtain ⟨positive, -⟩ := parts_of_isMagnitude h
      have back := ofParts_parts x
      rw [positive] at back
      rw [signedLiteral, positive, back]
      rfl
  | integer n =>
      have nonneg : 0 ≤ n.toInt := h
      rw [signedLiteral, absolute_of_nonneg nonneg, if_neg (Int.not_lt.mpr nonneg)]
  | null | text | boolean => rfl

/-- Two expressions with the same text, of the same shape. -/
structure Alike (e e' : Expr) : Prop where
  isBinary : e.isBinary = e'.isBinary
  beginsWithMinus : e.beginsWithMinus = e'.beginsWithMinus
  render : e.render = e'.render
  textNesting : e.textNesting = e'.textNesting
  depth : e.depth = e'.depth
  words : words e = words e'

theorem alike_self (e : Expr) : Alike e e :=
  ⟨rfl, rfl, rfl, rfl, rfl, rfl⟩

theorem alike_inf (h : UnsignedValue v) (text : literalText v = "inf") :
    Alike (column none "inf") (literal v) where
  isBinary := rfl
  beginsWithMinus := (beginsWithMinus_literal h).symm
  render := text.symm
  textNesting := by
    rw [textNesting, textNesting, beginsWithMinus_literal h]
    rfl
  depth := rfl
  words := rfl

theorem Alike.binary {left left' right right' : Expr} (h : Alike left left')
    (h' : Alike right right') (op : BinaryOp) :
    Alike (binary left op right) (binary left' op right') where
  isBinary := rfl
  beginsWithMinus := rfl
  render := by simp only [Expr.render, h.isBinary, h.render, h'.isBinary, h'.render]
  textNesting := by
    simp only [Expr.textNesting, h.isBinary, h.textNesting, h'.isBinary, h'.textNesting]
  depth := by simp only [Expr.depth, h.depth, h'.depth]
  words := by simp only [Grammar.words, h.words, h'.words]

theorem Alike.unary {operand operand' : Expr} (h : Alike operand operand') (op : UnaryOp) :
    Alike (unary op operand) (unary op operand') where
  isBinary := rfl
  beginsWithMinus := rfl
  render := by cases op <;> simp only [Expr.render, h.isBinary, h.beginsWithMinus, h.render]
  textNesting := by
    cases op <;> simp only [Expr.textNesting, h.isBinary, h.beginsWithMinus, h.textNesting]
  depth := by simp only [Expr.depth, h.depth]
  words := by simp only [Grammar.words, h.words]

theorem alike_reread (h : e.Unsigned) : Alike e.reread e := by
  induction e with
  | literal v =>
      rcases reread_literal h with ⟨-, same⟩ | ⟨-, same, text⟩
      · rw [same]
        exact alike_self _
      · rw [same]
        exact alike_inf h text
  | column => exact alike_self _
  | binary left op right ihl ihr => exact (ihl h.1).binary (ihr h.2) op
  | unary op operand ih => exact (ih h).unary op

theorem signed_reread (h : e.Unsigned) : e.reread.signed = e.reread := by
  induction e with
  | literal v =>
      rcases reread_literal h with ⟨-, same⟩ | ⟨-, same, -⟩ <;> rw [same]
      · exact signedLiteral_of_unsigned h
      · rfl
  | column => rfl
  | binary left op right ihl ihr => simp only [reread, signed, ihl h.1, ihr h.2]
  | unary op operand ih => simp only [reread, signed, ih h]

theorem readable_reread (h : e.Unsigned) : e.reread.Readable := by
  induction e with
  | literal v =>
      rcases reread_literal h with ⟨literal, same⟩ | ⟨-, same, -⟩ <;> rw [same]
      · exact literal
      · exact ⟨nofun, isIdentifier_inf⟩
  | column => exact h
  | binary left op right ihl ihr => exact ⟨ihl h.1, ihr h.2⟩
  | unary op operand ih => exact ih h

theorem reread_of_readable (h : e.Unsigned) (readable : e.Readable) : e.reread = e := by
  induction e with
  | literal v =>
      rcases reread_literal h with ⟨-, same⟩ | ⟨none, -⟩
      · exact same
      · exact (none readable).elim
  | column => rfl
  | binary left op right ihl ihr => rw [reread, ihl h.1 readable.1, ihr h.2 readable.2]
  | unary op operand ih => rw [reread, ih h readable]

/-! ## Reading again -/

theorem answer_of_isExpr {tokens : List Token} {kinds : List TokenKind}
    (same : tokens.map Token.kind = kinds ++ [.endMarker]) (phrase : IsExpr kinds e) :
    (parse.answer (.ofTokens tokens)).1 = .ok e := by
  obtain ⟨t, passes, ended⟩ := exists_passes_ofTokens same
  have next : Follows (.binary .disjunction) t.kind := ended ▸ follows_endMarker _
  exact answer_eq_ok_iff.mpr ⟨t, recognizes_parse.complete passes phrase next⟩

theorem tokenize_render (h : e.Unsigned) :
    ∃ tokens, tokenize e.render .strict = .ok tokens ∧
      tokens.map Token.kind = e.reread.kinds ++ [.endMarker] := by
  rw [← (alike_reread h).render]
  exact tokenize_of_scans (scans_render_all (readable_reread h))

theorem derives_reread (h : e.Unsigned) :
    Derives (.binary .disjunction) e.reread.kinds e.reread e.textNesting := by
  have derived := (derives_kinds e.reread).1
  rw [signed_reread h, (alike_reread h).textNesting] at derived
  exact derived

theorem ofString_render (h : e.Unsigned) (depth : e.depth ≤ maxDepth)
    (nesting : e.textNesting ≤ maxDepth) : ofString e.render = .ok e.reread := by
  obtain ⟨tokens, lexed, same⟩ := tokenize_render h
  have shallow : e.reread.depth ≤ maxDepth := (alike_reread h).depth ▸ depth
  refine bind_eq_ok_iff.mpr ⟨tokens, lexed, answer_of_isExpr same ?_⟩
  exact ⟨e.textNesting, derives_reread h, nesting, shallow⟩

theorem textNesting_le_of_ofString (h : e.Unsigned) (read : ofString e.render = .ok e) :
    e.textNesting ≤ maxDepth := by
  obtain ⟨tokens, lexed, same⟩ := tokenize_render h
  obtain ⟨tokens', kinds, rest, lexed', same', nesting, derived, within, -⟩ :=
    exists_of_ofString read
  obtain rfl := Except.ok.inj (lexed.symm.trans lexed')
  -- Another expression with the same words can only be the whole of the tokens.
  have parts : e.reread.kinds = kinds ++ rest := List.append_cancel_right (same.symm.trans same')
  have whole := derives_reread h
  rw [parts] at whole
  obtain ⟨-, rfl⟩ := whole.whole derived (alike_reread h).words
  exact within

/--
An expression that was read is read again from its own text if and only if its values have
literals and the text is not nested too deep.
-/
theorem ofString_render_iff {source : String} (read : ofString source = .ok e) :
    ofString e.render = .ok e ↔ e.Readable ∧ e.textNesting ≤ maxDepth := by
  have unsigned := unsigned_of_ofString read
  have depth : e.depth ≤ maxDepth := by
    obtain ⟨_, _, _, _, _, _, _, _, depth⟩ := exists_of_ofString read
    exact depth
  constructor
  · intro again
    have nesting := textNesting_le_of_ofString unsigned again
    rw [ofString_render unsigned depth nesting] at again
    exact ⟨Except.ok.inj again ▸ readable_reread unsigned, nesting⟩
  · rintro ⟨readable, nesting⟩
    rw [ofString_render unsigned depth nesting, reread_of_readable unsigned readable]

/-- The text of two minus signs has one pair of parentheses. -/
theorem ofString_render_minus_minus :
    let e := unary .minus (unary .minus (column none "x"))
    ofString "- - x" = .ok e ∧ ofString e.render = .ok e := by
  intro e
  have read : (ofString "- - x").toOption = some e := by decide +kernel
  have readable : e.Readable := ⟨nofun, isIdentifier_x⟩
  exact ⟨eq_ok_of_toOption read,
    (ofString_render_iff (eq_ok_of_toOption read)).mpr ⟨readable, by decide⟩⟩

/-! ## Texts that are not read again -/

def minusText (n : Nat) : List Char :=
  (List.replicate n ['-', ' ']).flatten ++ ['x']

def minuses (n : Nat) : Expr :=
  (unary .minus)^[n] (column none "x")

theorem minuses_succ (n : Nat) : minuses (n + 1) = unary .minus (minuses n) :=
  Function.iterate_succ_apply' ..

theorem depth_minuses (n : Nat) : (minuses n).depth = n + 1 := by
  induction n with
  | zero => rfl
  | succ n ih => rw [minuses_succ, depth, ih, Nat.add_comm]

theorem scans_minusText (n : Nat) :
    Scans (· = []) (minusText n) (List.replicate n (.symbol .minus) ++ [.identifier "x"]) := by
  induction n with
  | zero =>
      have stop : Stops Lexeme.continuesWord [] := nofun
      exact scans_name isIdentifier_x stop (.done rfl)
  | succ n ih => exact Scans.minus (by simp) ih.space

theorem derives_minuses (n : Nat) :
    Derives .unary (List.replicate n (.symbol .minus) ++ [.identifier "x"]) (minuses n) n := by
  induction n with
  | zero => exact .primary (.column "x")
  | succ n ih =>
      rw [minuses_succ]
      exact .unary .minus ih

theorem ofString_minusText {n : Nat} (h : n < maxDepth) :
    ofString (String.ofList (minusText n)) = .ok (minuses n) := by
  have scanned := scans_minusText n
  rw [← String.toList_ofList (l := minusText n)] at scanned
  obtain ⟨tokens, lexed, same⟩ := tokenize_of_scans scanned
  refine bind_eq_ok_iff.mpr ⟨tokens, lexed, answer_of_isExpr same ?_⟩
  refine ⟨n, (derives_minuses n).onLevel _, Nat.le_of_lt h, ?_⟩
  rw [depth_minuses]
  exact h

theorem textNesting_minuses (n : Nat) : (minuses (n + 1)).textNesting = 2 * n + 1 := by
  induction n with
  | zero => rfl
  | succ n ih =>
      have grouped : (minuses (n + 1)).beginsWithMinus = true := by
        rw [minuses_succ]
        rfl
      rw [minuses_succ, textNesting, grouped, Bool.or_true, textNesting.grouped, if_pos rfl, ih]
      omega

/-- Digits that stand for infinity, with a point behind them. -/
theorem ofString_infinity {digits : List Char} (given : digits ≠ []) (h : Digits digits)
    (large : digitsMagnitude digits [] = infinity) :
    ofString (String.ofList (digits ++ ['.'])) =
      .ok (literal (.real (ofParts false infinity))) := by
  have scanned : Scans (· = []) (digits ++ '.' :: [] ++ [])
      [.real (ofParts false (digitsMagnitude digits []))] :=
    Scans.real given h nofun nofun (.done rfl)
  rw [large, List.append_nil, ← String.toList_ofList (l := digits ++ ['.'])] at scanned
  obtain ⟨tokens, lexed, same⟩ := tokenize_of_scans scanned
  refine bind_eq_ok_iff.mpr ⟨tokens, lexed, answer_of_isExpr same ?_⟩
  have tight := Derives.primary (.literal (.real (ofParts false infinity)))
  exact ⟨0, tight.onLevel _, Nat.zero_le _, depth_literal_le _⟩

/--
Sixty-five minus signs are read, but not the sixty-four pairs of parentheses in their text; and a
literal that is too large for a finite real is read, but its text is a name.
-/
theorem ofString_render_fails :
    (∃ e, ofString (String.ofList (minusText 65)) = .ok e ∧ ofString e.render ≠ .ok e) ∧
    ∃ e, ofString (String.ofList ('1' :: List.replicate 309 '0' ++ ['.'])) = .ok e ∧
      ofString e.render ≠ .ok e := by
  constructor
  · have read := ofString_minusText (n := 65) (by decide)
    refine ⟨_, read, fun again => ?_⟩
    have nesting := textNesting_le_of_ofString (unsigned_of_ofString read) again
    rw [textNesting_minuses] at nesting
    exact absurd nesting (by decide)
  · have digits : Digits ('1' :: List.replicate 309 '0') :=
      digits_append (by simp [Digits] : Digits ['1']) (digits_zeros 309)
    have read := ofString_infinity (List.cons_ne_nil _ _) digits (by decide +kernel)
    refine ⟨_, read, fun again => ?_⟩
    have unsigned := unsigned_of_ofString read
    have nesting := textNesting_le_of_ofString unsigned again
    rw [ofString_render unsigned (depth_literal_le _) nesting] at again
    have readable := readable_reread unsigned
    rw [Except.ok.inj again] at readable
    exact absurd readable (by decide +kernel : ¬isFinite (ofParts false infinity) = true)

end Tabular.Expr
