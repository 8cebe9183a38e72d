import Tabular.Proofs.Binary64.Bits
import Tabular.Proofs.Reading.Scanning

/-!
# The tokens of rendered expressions

The text of an expression scans into tokens that are given by recursion over the expression.  A
negative literal makes two tokens, its minus and its magnitude.
-/

namespace Tabular.Expr

open Binary64

/-! ## Expressions with a text that can be read -/

/-- A word that is no keyword. -/
def IsIdentifier (name : String) : Prop :=
  isWordText name.toList = true ∧ Keyword.ofWord? name.toList = none

/--
Is there a literal for the value?  The least integer and the reals that are not finite have
none.
-/
def HasLiteral : Value → Prop
  | .integer n => -2 ^ 63 < n.toInt
  | .real x => isFinite x = true
  | _ => True

/-- Names are identifiers, and values have literals. -/
def Readable : Expr → Prop
  | literal v => HasLiteral v
  | column table name => (∀ q ∈ table, IsIdentifier q) ∧ IsIdentifier name
  | binary left _ right => left.Readable ∧ right.Readable
  | unary _ operand => operand.Readable

/-! ## Tokens -/

def literalKinds : Value → List TokenKind
  | .null => [.keyword .null]
  | .boolean b => [.keyword (if b then .true else .false)]
  | .integer n =>
      let absolute : TokenKind := .integer (Int64.ofNat n.toInt.natAbs)
      if n.toInt < 0 then [.symbol .minus, absolute] else [absolute]
  | .real x =>
      let absolute : TokenKind := .real (ofParts false (magnitude x))
      if isNegative x then [.symbol .minus, absolute] else [absolute]
  | .text s => [.text s]

def groupKinds (grouped : Bool) (kinds : List TokenKind) : List TokenKind :=
  if grouped then .symbol .leftParen :: kinds ++ [.symbol .rightParen] else kinds

def kinds : Expr → List TokenKind
  | literal v => literalKinds v
  | column (some table) name => [.identifier table, .symbol .dot, .identifier name]
  | column none name => [.identifier name]
  | binary left op right =>
      groupKinds left.isBinary left.kinds ++ op.sign :: groupKinds right.isBinary right.kinds
  | unary .minus e => .symbol .minus :: groupKinds (e.isBinary || e.beginsWithMinus) e.kinds
  | unary .not e => .keyword .not :: groupKinds e.isBinary e.kinds

/-! ## Beginnings and ends -/

/-- What may stand behind an operand in a text. -/
def Ends (rest : List Char) : Prop :=
  ∀ c ∈ rest.head?, c = ' ' ∨ c = ')' ∨ c = ','

variable {final : List Char → Prop} {rest : List Char} {others : List TokenKind}

theorem Ends.stops {p : Char → Bool} (h : Ends rest) (space : p ' ' = false)
    (paren : p ')' = false) (comma : p ',' = false) : Stops p rest := by
  intro c next
  rcases h c next with rfl | rfl | rfl
  · exact space
  · exact paren
  · exact comma

theorem ends_cons {c : Char} (h : c = ' ' ∨ c = ')' ∨ c = ',') : Ends (c :: rest) := by
  rintro _ ⟨⟩
  exact h

theorem Ends.head?_ne_point (h : Ends rest) : rest.head? ≠ some '.' := by
  intro point
  rcases h '.' point with same | same | same <;> contradiction

/-! ## Literals -/

theorem toList_integer_nonneg {n : Int} (h : 0 ≤ n) :
    (toString n).toList = Nat.toDigits 10 n.natAbs := by
  rw [Int.toString_eq_repr, Int.repr_eq_if, if_pos h, Nat.toList_repr]
  congr 1
  omega

theorem toList_integer_neg {n : Int} (h : n < 0) :
    (toString n).toList = '-' :: Nat.toDigits 10 n.natAbs := by
  rw [Int.toString_eq_repr, Int.repr_eq_if, if_neg (by omega), String.toList_append,
    Nat.toList_repr]
  have same : (-n).toNat = n.natAbs := by omega
  rw [same]
  rfl

theorem scans_digits {n : Nat} (bound : n < 2 ^ 63) (ends : Ends rest)
    (behind : Scans final rest others) :
    Scans final (Nat.toDigits 10 n ++ rest) (.integer (Int64.ofNat n) :: others) := by
  have value := digitsValue_toDigits n
  have scanned := Scans.integer Nat.toDigits_ne_nil (digits_toDigits n) (by rw [value]; exact bound)
    (ends.stops rfl rfl rfl) ends.head?_ne_point behind
  rw [value] at scanned
  exact scanned

theorem head?_digits {digits : List Char} (given : digits ≠ []) (h : Digits digits)
    (rest : List Char) : (digits ++ rest).head? ≠ some '-' := by
  obtain ⟨c, cs, rfl⟩ := List.exists_cons_of_ne_nil given
  have digit := h c (List.mem_cons_self ..)
  intro holds
  cases holds
  contradiction

theorem scans_integer {n : Int64} (h : HasLiteral (.integer n)) (ends : Ends rest)
    (behind : Scans final rest others) :
    Scans final ((toString n.toInt).toList ++ rest) (literalKinds (.integer n) ++ others) := by
  have least : -2 ^ 63 < n.toInt := h
  have greatest := n.toInt_lt
  have scanned := scans_digits (n := n.toInt.natAbs) (by omega) ends behind
  by_cases negative : n.toInt < 0
  · rw [toList_integer_neg negative, literalKinds, if_pos negative]
    exact .minus (head?_digits Nat.toDigits_ne_nil (digits_toDigits _) rest) scanned
  · rw [toList_integer_nonneg (by omega), literalKinds, if_neg negative]
    exact scanned

theorem toList_real {x : Binary64} (finite : isFinite x = true) :
    ∃ whole fraction, whole ≠ [] ∧ Digits whole ∧ Digits fraction ∧
      digitsMagnitude whole fraction = magnitude x ∧
      (Layout.positional.text x).toList =
        (if isNegative x then ['-'] else []) ++ (whole ++ '.' :: fraction) := by
  have bound : magnitude x < infinity := by simpa [isFinite] using finite
  have number : isNaN x = false := by
    simp only [isNaN, decide_eq_false_iff_not]
    omega
  obtain ⟨whole, fraction, text, given, digits, digits', value⟩ :=
    decimalText_reads (shortestDecimal (magnitude x))
  rw [nearest_shortestDecimal bound] at value
  refine ⟨whole, fraction, given, digits, digits', value, ?_⟩
  unfold Layout.text
  simp only [number, finite, Bool.false_eq_true, if_false, if_true, String.toList_append,
    String.toList_ofList, text]
  cases isNegative x <;> rfl

theorem scans_real {x : Binary64} (h : HasLiteral (.real x)) (ends : Ends rest)
    (behind : Scans final rest others) :
    Scans final ((Layout.positional.text x).toList ++ rest) (literalKinds (.real x) ++ others) := by
  obtain ⟨whole, fraction, given, digits, digits', value, text⟩ := toList_real h
  have scanned := Scans.real given digits digits' (ends.stops rfl rfl rfl) behind
  rw [value] at scanned
  rw [text, literalKinds]
  by_cases negative : isNegative x = true
  · rw [if_pos negative, if_pos negative]
    refine .minus ?_ scanned
    simpa using head?_digits given digits ('.' :: fraction ++ rest)
  · rw [if_neg negative, if_neg negative]
    exact scanned

theorem scans_literal {v : Value} (h : HasLiteral v) (ends : Ends rest)
    (behind : Scans final rest others) :
    Scans final ((literalText v).toList ++ rest) (literalKinds v ++ others) := by
  have stop : Stops Lexeme.continuesWord rest := ends.stops rfl rfl rfl
  cases v with
  | null => exact Scans.word (rfl : isWordText ['N', 'U', 'L', 'L'] = true) stop behind
  | integer n => exact scans_integer h ends behind
  | real x => exact scans_real h ends behind
  | text s => exact Scans.quoted s behind
  | boolean b =>
      cases b with
      | true => exact Scans.word (rfl : isWordText ['t', 'r', 'u', 'e'] = true) stop behind
      | false => exact Scans.word (rfl : isWordText ['f', 'a', 'l', 's', 'e'] = true) stop behind

/-! ## Names -/

theorem scans_name {name : String} (h : IsIdentifier name) (stop : Stops Lexeme.continuesWord rest)
    (behind : Scans final rest others) :
    Scans final (name.toList ++ rest) (.identifier name :: others) := by
  have scanned := Scans.word h.1 stop behind
  rw [Lexeme.wordKind, h.2] at scanned
  simpa using scanned

theorem scans_column {table : Option String} {name : String}
    (h : (column table name).Readable) (ends : Ends rest) (behind : Scans final rest others) :
    Scans final ((column table name).render.toList ++ rest)
      ((column table name).kinds ++ others) := by
  have scanned := scans_name h.2 (ends.stops rfl rfl rfl) behind
  cases table with
  | none => exact scanned
  | some q =>
      have qualified := scans_name (h.1 q rfl) (stops_cons rfl) scanned.dot
      simpa [render, kinds] using qualified

/-! ## Operands -/

theorem head?_word {word : List Char} (h : isWordText word = true) (rest : List Char) :
    (word ++ rest).head? ≠ some '-' := by
  obtain ⟨c, cs, rfl, first, -⟩ := exists_of_isWordText h
  intro holds
  cases holds
  contradiction

theorem head?_literal {v : Value} (h : HasLiteral v)
    (positive : (literal v).beginsWithMinus = false) (rest : List Char) :
    ((literalText v).toList ++ rest).head? ≠ some '-' := by
  cases v with
  | null => exact head?_word (rfl : isWordText ['N', 'U', 'L', 'L'] = true) rest
  | integer n =>
      have nonneg : 0 ≤ n.toInt := by simpa [beginsWithMinus] using positive
      change ((toString n.toInt).toList ++ rest).head? ≠ _
      rw [toList_integer_nonneg nonneg]
      exact head?_digits Nat.toDigits_ne_nil (digits_toDigits _) rest
  | real x =>
      obtain ⟨whole, fraction, given, digits, -, -, text⟩ := toList_real h
      have nonneg : isNegative x = false := positive
      change ((Layout.positional.text x).toList ++ rest).head? ≠ _
      rw [text, nonneg]
      simpa using head?_digits given digits ('.' :: fraction ++ rest)
  | text s =>
      simp [literalText, quote]
  | boolean b =>
      cases b with
      | true => exact head?_word (rfl : isWordText ['t', 'r', 'u', 'e'] = true) rest
      | false => exact head?_word (rfl : isWordText ['f', 'a', 'l', 's', 'e'] = true) rest

/-- Only what begins with a minus itself must not stand behind one. -/
theorem head?_render {e : Expr} (h : e.Readable) (single : e.isBinary = false)
    (positive : e.beginsWithMinus = false) (rest : List Char) :
    (e.render.toList ++ rest).head? ≠ some '-' := by
  cases e with
  | literal v => exact head?_literal h positive rest
  | column table name =>
      cases table with
      | none => exact head?_word h.2.1 rest
      | some q =>
          have first := head?_word (h.1 q rfl).1 ('.' :: (name.toList ++ rest))
          simpa [render] using first
  | binary => cases single
  | unary op operand =>
      cases op with
      | minus => cases positive
      | not => simp [render]

theorem scans_group {e : Expr} (grouped : Bool)
    (inner : ∀ {rest others}, Ends rest → Scans final rest others →
      Scans final (e.render.toList ++ rest) (e.kinds ++ others))
    (ends : Ends rest) (behind : Scans final rest others) :
    Scans final ((group grouped e.render).toList ++ rest)
      (groupKinds grouped e.kinds ++ others) := by
  cases grouped with
  | false => exact inner ends behind
  | true =>
      have closed := inner (ends_cons (.inr (.inl rfl))) (Scans.rightParen behind)
      simpa [group, groupKinds] using closed.leftParen

theorem head?_group {e : Expr} (h : e.Readable) (rest : List Char) :
    ((group (e.isBinary || e.beginsWithMinus) e.render).toList ++ rest).head? ≠ some '-' := by
  cases grouped : e.isBinary || e.beginsWithMinus with
  | true => simp [group]
  | false =>
      have parts := Bool.or_eq_false_iff.mp grouped
      exact head?_render h parts.1 parts.2 rest

/-- Wherever the text of an expression stands, its tokens are read there. -/
theorem scans_render {e : Expr} (h : e.Readable) (ends : Ends rest)
    (behind : Scans final rest others) :
    Scans final (e.render.toList ++ rest) (e.kinds ++ others) := by
  have space (cs : List Char) : Ends (' ' :: cs) := ends_cons (.inl rfl)
  induction e generalizing rest others with
  | literal v => exact scans_literal h ends behind
  | column table name => exact scans_column h ends behind
  | binary left op right ihl ihr =>
      have second := scans_group right.isBinary (ihr h.2) ends behind
      have sign := Scans.operator op second
      have first := scans_group left.isBinary (ihl h.1) (space _) sign.space
      simpa [render, kinds] using first
  | unary op operand ih =>
      cases op with
      | not =>
          have inner := scans_group operand.isBinary (ih h) ends behind
          have word := inner.keyword (by decide +kernel : Keyword.ofWord? "NOT".toList = some .not)
          simpa [render, kinds] using word
      | minus =>
          have inner := scans_group (operand.isBinary || operand.beginsWithMinus) (ih h) ends behind
          have single := head?_group (e := operand) h rest
          simpa [render, kinds] using Scans.minus single inner

theorem scans_render_all {e : Expr} (h : e.Readable) :
    Scans (· = []) e.render.toList e.kinds := by
  have ends : Ends [] := by
    intro c next
    cases next
  have whole : Scans (· = []) (e.render.toList ++ []) (e.kinds ++ []) :=
    scans_render h ends (.done rfl)
  simpa using whole

end Tabular.Expr
