import Tabular.Proofs.Grammar.Statement
import Tabular.Proofs.Rendering.RoundTrip

/-!
# Rows as SQL text

The text of an insertion of one row, whose values are written as literals, and the text of the query
for all rows of a table.  If every value has a literal, the first one scans into the tokens of that
insertion; the least integer has none, and a lexer stops at it.
-/

namespace Tabular

open Tabular.Expr Tabular.Grammar

/-! ## Texts -/

def valuesText (row : Row) : String :=
  ", ".intercalate (row.map fun v => (literal v).render)

def insertText (table : String) (row : Row) : String :=
  "INSERT INTO " ++ table ++ " VALUES (" ++ valuesText row ++ ")"

def selectText (table : String) : String :=
  "SELECT * FROM " ++ table

theorem valuesText_cons_cons (v w : Value) (row : Row) :
    valuesText (v :: w :: row) = literalText v ++ ", " ++ valuesText (w :: row) := by
  simp only [valuesText, List.map_cons, String.intercalate_cons_cons, render]

theorem valuesText_singleton (v : Value) : valuesText [v] = literalText v := by
  simp only [valuesText, List.map_cons, List.map_nil, String.intercalate_singleton, render]

/-! ## Statements -/

def insertOf (table : String) (row : Row) : Insert :=
  { table, columns := none, tuples := [row.map signedLiteral] }

def selectOf (table : String) : Select :=
  { items := [.all], source := table, filter := none, orderBy := [], direction := .ascending
    limit := none }

/-! ## Tokens -/

def valuesKinds : Row → List TokenKind
  | [] => []
  | [v] => literalKinds v
  | v :: w :: row => literalKinds v ++ .symbol .comma :: valuesKinds (w :: row)

def insertKinds (table : String) (row : Row) : List TokenKind :=
  .keyword .insert :: .keyword .into :: .identifier table :: [] ++
    .keyword .values :: .symbol .leftParen :: (valuesKinds row ++ [.symbol .rightParen])

def selectKinds (table : String) : List TokenKind :=
  .keyword .select :: [.symbol .star] ++ .keyword .«from» :: .identifier table :: ([] ++ ([] ++ []))

theorem depth_signedLiteral_le (v : Value) : (signedLiteral v).depth ≤ maxDepth := by
  have small : 2 ≤ maxDepth := by decide
  cases v with
  | integer n =>
      rw [signedLiteral]
      split <;> simpa [depth] using by omega
  | real x =>
      rw [signedLiteral]
      split <;> simpa [depth] using by omega
  | null | text | boolean => exact depth_literal_le _

theorem isExpr_literal (v : Value) : IsExpr (literalKinds v) (signedLiteral v) := by
  refine ⟨_, (derives_kinds (literal v)).1, ?_, depth_signedLiteral_le v⟩
  rw [textNesting]
  split <;> decide

theorem commaList_values {row : Row} (given : row ≠ []) :
    CommaList IsExpr (valuesKinds row) (row.map signedLiteral) := by
  fun_induction valuesKinds row with
  | case1 => exact (given rfl).elim
  | case2 v => exact .last (isExpr_literal v)
  | case3 v w row ih => exact .more (isExpr_literal v) (ih (List.cons_ne_nil w row))

theorem isSentence_insert (table : String) {row : Row} (given : row ≠ []) :
    IsSentence (insertKinds table row) (.insert (insertOf table row)) := by
  have tuple : InParentheses (CommaList IsExpr)
      (.symbol .leftParen :: (valuesKinds row ++ [.symbol .rightParen])) (row.map signedLiteral) :=
    ⟨_, rfl, _, rfl, commaList_values given⟩
  exact .unterminated (.insert (.mk .none (.last tuple)))

theorem isSentence_select (table : String) :
    IsSentence (selectKinds table) (.select (selectOf table)) :=
  .unterminated (.select (.mk (.last .all) .none .none .none))

/-! ## Scanning -/

variable {final : List Char → Prop} {rest : List Char} {kinds : List TokenKind} {table : String}
  {row : Row}

theorem scans_values (given : row ≠ []) (literals : ∀ v ∈ row, HasLiteral v)
    (ends : Ends rest) (behind : Scans final rest kinds) :
    Scans final ((valuesText row).toList ++ rest) (valuesKinds row ++ kinds) := by
  fun_induction valuesKinds row with
  | case1 => exact (given rfl).elim
  | case2 v =>
      rw [valuesText_singleton]
      exact scans_literal (literals v (List.mem_cons_self ..)) ends behind
  | case3 v w row ih =>
      obtain ⟨first, others⟩ := List.forall_mem_cons.mp literals
      have later := (ih (List.cons_ne_nil w row) others).space.comma
      have whole := scans_literal first (ends_cons (.inr (.inr rfl))) later
      simpa [valuesText_cons_cons] using whole

theorem toList_insertText (table : String) (row : Row) :
    (insertText table row).toList =
      "INSERT INTO ".toList ++ table.toList ++ " VALUES (".toList ++
        ((valuesText row).toList ++ [')']) := by
  change ("INSERT INTO " ++ table ++ " VALUES (" ++ valuesText row ++ ")").toList = _
  simp

theorem scans_insert_front (identifier : IsIdentifier table) (behind : Scans final rest kinds) :
    Scans final ("INSERT INTO ".toList ++ table.toList ++ " VALUES (".toList ++ rest)
      (.keyword .insert :: .keyword .into :: .identifier table :: .keyword .values ::
        .symbol .leftParen :: kinds) := by
  have values := behind.leftParen.keyword
    (by decide +kernel : Keyword.ofWord? "VALUES".toList = some .values)
  have name := scans_name identifier (stops_cons rfl) values.space
  have into := name.keyword (by decide +kernel : Keyword.ofWord? "INTO".toList = some .into)
  have insert := into.keyword (by decide +kernel : Keyword.ofWord? "INSERT".toList = some .insert)
  simpa using insert

theorem scans_insertText (identifier : IsIdentifier table) (given : row ≠ [])
    (literals : ∀ v ∈ row, HasLiteral v) :
    Scans (· = []) (insertText table row).toList (insertKinds table row) := by
  rw [toList_insertText]
  have closed : Scans (· = []) [')'] [.symbol .rightParen] := Scans.rightParen (.done rfl)
  have values := scans_values given literals (ends_cons (.inr (.inl rfl))) closed
  exact scans_insert_front identifier values

theorem scans_selectText (identifier : IsIdentifier table) :
    Scans (· = []) (selectText table).toList (selectKinds table) := by
  have name : Scans (· = []) (table.toList ++ []) [.identifier table] :=
    scans_name identifier (stops_nil _) (.done rfl)
  have source := name.keyword (by decide +kernel : Keyword.ofWord? "FROM".toList = some .«from»)
  have select := source.space.star.keyword
    (by decide +kernel : Keyword.ofWord? "SELECT".toList = some .select)
  simpa [selectText, selectKinds] using select

/-! ## The least integer -/

theorem scans_least (ends : Ends rest) :
    Scans Faulty ((literalText (.integer Int64.minValue)).toList ++ rest) [.symbol .minus] := by
  have large : ¬Binary64.digitsValue (Nat.toDigits 10 (2 ^ 63)) < 2 ^ 63 := by
    rw [Binary64.digitsValue_toDigits]
    decide
  have digits := Binary64.digits_toDigits (2 ^ 63)
  have fault := scans_outOfRange Nat.toDigits_ne_nil digits large (ends.stops rfl rfl rfl)
    ends.head?_ne_point
  have text : (literalText (.integer Int64.minValue)).toList = '-' :: Nat.toDigits 10 (2 ^ 63) :=
    toList_integer_neg (by decide : Int64.minValue.toInt < 0)
  rw [text]
  exact .minus (head?_digits Nat.toDigits_ne_nil digits rest) fault

theorem exists_behind_first (v : Value) (row : Row) (ends : Ends rest) :
    ∃ behind, Ends behind ∧
      (valuesText (v :: row)).toList ++ rest = (literalText v).toList ++ behind := by
  cases row with
  | nil => exact ⟨rest, ends, by rw [valuesText_singleton]⟩
  | cons w row =>
      refine ⟨',' :: ' ' :: ((valuesText (w :: row)).toList ++ rest), ?_, ?_⟩
      · exact ends_cons (.inr (.inr rfl))
      · simp [valuesText_cons_cons]

theorem scans_values_least (literals : ∀ v ∈ row, v = .integer Int64.minValue ∨ HasLiteral v)
    (least : .integer Int64.minValue ∈ row) (ends : Ends rest) :
    ∃ kinds, Scans Faulty ((valuesText row).toList ++ rest) kinds := by
  induction row with
  | nil => cases least
  | cons v row ih =>
      obtain ⟨first, others⟩ := List.forall_mem_cons.mp literals
      by_cases here : v = .integer Int64.minValue
      · obtain ⟨behind, ends, text⟩ := exists_behind_first v row ends
        rw [text, here]
        exact ⟨_, scans_least ends⟩
      · have later := (List.mem_cons.mp least).resolve_left (Ne.symm here)
        obtain ⟨kinds, scanned⟩ := ih others later
        obtain ⟨w, row, rfl⟩ := List.exists_cons_of_ne_nil (List.ne_nil_of_mem later)
        have whole := scans_literal (first.resolve_left here) (ends_cons (.inr (.inr rfl)))
          scanned.space.comma
        exact ⟨_, by simpa [valuesText_cons_cons] using whole⟩

theorem scans_insertText_least (identifier : IsIdentifier table)
    (literals : ∀ v ∈ row, v = .integer Int64.minValue ∨ HasLiteral v)
    (least : .integer Int64.minValue ∈ row) :
    ∃ kinds, Scans Faulty (insertText table row).toList kinds := by
  obtain ⟨kinds, values⟩ := scans_values_least literals least (ends_cons (.inr (.inl rfl)))
  rw [toList_insertText]
  exact ⟨_, scans_insert_front identifier values⟩

end Tabular
