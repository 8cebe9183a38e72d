import Tabular.Proofs.Query.Interpretation
import Tabular.Proofs.Reading.Statement
import Tabular.Proofs.Storage.Integrity
import Tabular.Proofs.Tokens.Iteration
import Tabular.Proofs.Tokens.Placement
import Tabular.Proofs.Tokens.Written

/-!
# Numbers from the text to the rows

A token that is a number has the value of the digits that it is written with.  A limit takes the
64 bits of such a token as they are, and since the lexer writes no sign into a token they count the
same rows with a sign and without.  So a query shows no more rows than its text says.
-/

namespace Tabular

open Binary64 (Digits digitsValue isNegative isNaN)

/-! ## Numbers in tokens -/

def TokenKind.isNumber : TokenKind → Bool
  | integer _ | real _ => true
  | _ => false

/-- A number is the one that the text of its token shows. -/
structure Token.Numeral (t : Token) : Prop where
  integer : ∀ n, t.kind = .integer n → t.text ≠ "" ∧ Digits t.text.toList ∧
    digitsValue t.text.toList < 2 ^ 63 ∧ n.toInt = digitsValue t.text.toList
  real : ∀ x, t.kind = .real x →
    (∃ whole fraction, t.text.toList = whole ++ '.' :: fraction ∧ whole ≠ [] ∧
      Digits whole ∧ Digits fraction) ∧ isNegative x = false ∧ isNaN x = false

section

variable {mode : Mode} {c : Char} {cs : List Char} {k : TokenKind} {place : Position} {t : Token}

theorem numeral_of_other (other : t.kind.isNumber = false) : t.Numeral := by
  constructor
  · intro n same
    rw [same] at other
    cases other
  · intro x same
    rw [same] at other
    cases other

theorem numeral_of_number (digit : c.isDigit = true)
    (meaning : (Lexeme.number (c :: cs)).meaning = .ok k) :
    Token.Numeral ⟨k, String.ofList (Lexeme.number (c :: cs)).text, place⟩ := by
  have written : k.Written := written_of_number meaning
  rcases number_cases digit cs with
    ⟨whole, fraction, rest, split, given, h, h', stop⟩ | ⟨digits, rest, split, given, h, stop, next⟩
  · rw [split, number_decimal given h h' stop] at meaning ⊢
    cases meaning
    obtain ⟨positive, bound⟩ := parts_of_isMagnitude written
    refine ⟨fun n same => (by cases same), fun x same => ?_⟩
    cases same
    have number : isNaN _ = false := decide_eq_false (Nat.not_lt.mpr bound)
    exact ⟨⟨whole, fraction, String.toList_ofList, given, h, h'⟩, positive, number⟩
  · rw [split, number_digits h stop next] at meaning ⊢
    simp only [Lexeme.integerKind] at meaning
    split at meaning <;> cases meaning
    rename_i small
    refine ⟨fun n same => ?_, fun x same => (by cases same)⟩
    cases same
    have value := Int64.toInt_ofNat_of_lt small
    have shown : (String.ofList digits).toList = digits := String.toList_ofList
    have nonempty : String.ofList digits ≠ "" := by
      intro none
      rw [none] at shown
      exact given shown.symm
    exact ⟨nonempty, shown.symm ▸ h, shown.symm ▸ small, shown.symm ▸ value⟩

theorem numeral_of_read (meaning : (Lexeme.read mode c cs).meaning = .ok k) :
    Token.Numeral ⟨k, String.ofList (Lexeme.read mode c cs).text, place⟩ := by
  revert meaning
  refine Lexeme.read_by_first
    (motive := fun r =>
      (r cs).meaning = .ok k → Token.Numeral ⟨k, String.ofList (r cs).text, place⟩)
    mode c ?_ ?_ ?_ ?_
  · intro _ meaning
    simp only [Lexeme.string] at meaning
    split at meaning <;> cases meaning
    exact numeral_of_other rfl
  · exact fun digit meaning => numeral_of_number digit meaning
  · intro _ meaning
    simp only [Lexeme.word, Lexeme.wordKind] at meaning
    split at meaning <;> cases meaning <;> exact numeral_of_other rfl
  · intro quote digit letter meaning
    have kind : (Lexeme.symbolKind c cs.head?).1 = k := Except.ok.inj meaning
    rcases Lexeme.symbolKind_cases quote digit letter with ⟨-, s, sign⟩ | ⟨-, nothing⟩
    · cases sign.symm.trans kind
      exact numeral_of_other rfl
    · cases (congrArg Prod.fst nothing).symm.trans kind
      exact numeral_of_other rfl

theorem numeral_of_next {cursor : Cursor} (read : (cursor.next mode).1 = .ok t) : t.Numeral := by
  simp only [Cursor.next] at read
  split at read
  · cases read
    exact numeral_of_other rfl
  · simp only [Cursor.tokenAt] at read
    split at read <;> cases read
    rename_i meaning
    exact numeral_of_read meaning

theorem numeral_of_tokenizes {cursor : Cursor} {tokens : List Token}
    (h : Tokenizes mode cursor tokens) : ∀ t ∈ tokens, t.Numeral := by
  induction h with
  | last => exact List.forall_mem_singleton.mpr (numeral_of_other rfl)
  | token _ meaning _ _ ih => exact List.forall_mem_cons.mpr ⟨numeral_of_read meaning, ih⟩
  | dropped _ _ _ _ ih => exact ih

end

/-! ## The literal of a limit -/

section

open Grammar

variable {kinds : List TokenKind} {query : Select} {n : UInt64}

/-- The kinds that may follow a limit, the end marker being one of them. -/
def EndsSentence (kinds : List TokenKind) : Prop :=
  kinds = [.endMarker] ∨ kinds = [.symbol .semicolon, .endMarker]

theorem toNat_of_nonneg {k : Int64} (h : 0 ≤ k.toInt) :
    ((UInt64.ofBitVec k.toBitVec).toNat : Int) = k.toInt := by
  have bits : k.toInt = k.toBitVec.toInt := rfl
  have count : (UInt64.ofBitVec k.toBitVec).toNat = k.toBitVec.toNat := rfl
  rw [bits, BitVec.toInt_eq_toNat_cond] at h ⊢
  rw [count]
  split at h <;> omega

theorem Grammar.IsSelect.limit (phrase : IsSelect kinds query) (limited : query.limit = some n) :
    ∃ k, [.keyword .limit, .integer k] <:+ kinds ∧ n = .ofBitVec k.toBitVec := by
  obtain @⟨_, filtered, ordered, _, _, _, _, _, _, _, -, -, -, counted⟩ := phrase
  obtain rfl : _ = some n := limited
  obtain ⟨-⟩ | ⟨⟨k, rfl, rfl⟩⟩ := counted
  have last : [.keyword .limit, .integer k] <:+
      filtered ++ (ordered ++ [.keyword .limit, .integer k]) :=
    List.suffix_append_of_suffix (List.suffix_append _ _)
  refine ⟨k, List.suffix_append_of_suffix ?_, rfl⟩
  exact (last.trans (List.suffix_cons _ _)).trans (List.suffix_cons _ _)

theorem Grammar.IsSentence.limit (phrase : IsSentence kinds (.select query))
    (limited : query.limit = some n) :
    ∃ front k back, kinds ++ [.endMarker] = front ++ .keyword .limit :: .integer k :: back ∧
      EndsSentence back ∧ n = .ofBitVec k.toBitVec := by
  cases phrase with
  | unterminated phrase =>
      obtain ⟨phrase⟩ := phrase
      obtain ⟨k, ⟨front, rfl⟩, count⟩ := phrase.limit limited
      exact ⟨front, k, _, by simp, .inl rfl, count⟩
  | terminated phrase =>
      obtain ⟨phrase⟩ := phrase
      obtain ⟨k, ⟨front, rfl⟩, count⟩ := phrase.limit limited
      exact ⟨front, k, _, by simp, .inr rfl, count⟩

theorem isSentence_of_ofTokens {source : String} {mode : Mode} {tokens : List Token}
    {statement : Statement} (lexed : tokenize source mode = .ok tokens)
    (parsed : Statement.ofTokens tokens = .ok statement) :
    ∃ kinds, tokens.map Token.kind = kinds ++ [.endMarker] ∧ IsSentence kinds statement := by
  have cut := cut_of_tokenizes (tokenize_eq_ok_iff.mp lexed) located_start
  obtain ⟨body, marker, rfl, proper, ended, -⟩ := cut.ends
  obtain ⟨behind, run⟩ := Parse.answer_eq_ok_iff.mp parsed
  rw [TokenStream.ofTokens_append ended] at run
  obtain ⟨kinds, passes, phrase, last⟩ := Statement.run_parse_eq_ok_iff.mp run
  have empty := passes.ahead_eq_nil (fun token member => (proper token member).1) last
  obtain ⟨same, -⟩ := (TokenStream.passes_to_end_iff empty).mp passes
  exact ⟨kinds, by simp [ended, ← same], phrase⟩

/-- The last number of the tokens is the limit: it counts the rows, and its digits show how many. -/
def ShowsLimit (tokens : List Token) (n : UInt64) : Prop :=
  ∃ front word literal back k, tokens = front ++ word :: literal :: back ∧
    word.kind = .keyword .limit ∧ literal.kind = .integer k ∧
    EndsSentence (back.map Token.kind) ∧
    (n.toNat : Int) = k.toInt ∧ n.toNat = digitsValue literal.text.toList

theorem showsLimit_of_isSentence {tokens : List Token} (numerals : ∀ t ∈ tokens, t.Numeral)
    (same : tokens.map Token.kind = kinds ++ [.endMarker])
    (phrase : IsSentence kinds (.select query)) (limited : query.limit = some n) :
    ShowsLimit tokens n := by
  obtain ⟨front, k, back, split, ended, rfl⟩ := phrase.limit limited
  rw [split] at same
  obtain ⟨before, others, rfl, -, same⟩ := List.map_eq_append_iff.mp same
  obtain ⟨word, others, rfl, isWord, same⟩ := List.map_eq_cons_iff.mp same
  obtain ⟨literal, behind, rfl, isLiteral, rfl⟩ := List.map_eq_cons_iff.mp same
  obtain ⟨-, -, -, value⟩ := (numerals literal (by simp)).integer k isLiteral
  have count := toNat_of_nonneg (k := k) (by omega)
  exact ⟨before, word, literal, behind, k, rfl, isWord, isLiteral, ended, count, by omega⟩

end

/-! ## The rows of a limited query -/

theorem length_rows_le {query : Select} {n : UInt64} {db : Database} {result : QueryResult}
    (limited : query.limit = some n) (answer : query.execute none db = .ok result) :
    result.rows.length ≤ n.toNat := by
  cases found : db.table? query.source with
  | none =>
      rw [execute_of_missing found] at answer
      cases answer
  | some t =>
      rw [execute_eq_sorted query found] at answer
      obtain ⟨sorted, -, answer⟩ := bind_eq_ok_iff.mp answer
      obtain ⟨shown, projected, rfl⟩ := map_eq_ok_iff.mp answer
      calc
        shown.length = (query.first sorted).length :=
          (projectRows_eq_ok_iff.mp projected).length_eq.symm
        _ = (sorted.take n.toNat).length := by rw [Select.first, limited]
        _ ≤ n.toNat := List.length_take_le _ _

/--
Whatever has been done with a lexer, and in which mode, the next token has the number that its text
shows, and so have the tokens of a whole text.  A limit that is read from a text counts as many rows
as its digits say, and no more rows are shown.
-/
theorem numbers_keep_their_values (source : String) (mode : Mode) :
    (∀ steps t, ((Lexer.ofString source mode).behind steps).nextToken.1 = .ok t → t.Numeral) ∧
    (∀ tokens, tokenize source mode = .ok tokens → ∀ t ∈ tokens, t.Numeral) ∧
    ∀ query n, tokenize source mode >>= Statement.ofTokens = .ok (.select query) →
      query.limit = some n →
      (∃ tokens, tokenize source mode = .ok tokens ∧ ShowsLimit tokens n) ∧
      ∀ db result, query.execute none db = .ok result → result.rows.length ≤ n.toNat := by
  have numerals (tokens : List Token) (lexed : tokenize source mode = .ok tokens) :
      ∀ t ∈ tokens, t.Numeral := numeral_of_tokenizes (tokenize_eq_ok_iff.mp lexed)
  refine ⟨fun steps t read => numeral_of_next read, numerals, fun query n read limited => ?_⟩
  obtain ⟨tokens, lexed, parsed⟩ := bind_eq_ok_iff.mp read
  obtain ⟨kinds, same, phrase⟩ := isSentence_of_ofTokens lexed parsed
  have shows := showsLimit_of_isSentence (numerals tokens lexed) same phrase limited
  exact ⟨⟨tokens, lexed, shows⟩, fun db result => length_rows_le limited⟩

/-- Zeros in front of a limit do not count. -/
theorem numbers_keep_their_values_zeros :
    let source := "SELECT a FROM t WHERE a < 2.50 LIMIT 002;"
    let query : Select :=
      { items := [.expr (.column none "a") none], source := "t"
        filter := some
          (.binary (.column none "a") (.comparison .less) (.literal (.real (.ofText "2.5"))))
        orderBy := [], direction := .ascending, limit := some 2 }
    let db := Database.empty.behind
      [.createTable "t" [.plain "a" .integer],
        .insertRows "t" [[.integer 5], [.integer 2], [.integer 0], [.integer 1]]]
    let result : QueryResult := ⟨["a"], [[.integer 2], [.integer 0]], 0⟩
    Statement.ofString source = .ok (.select query) ∧
      (∃ tokens, tokenize source .strict = .ok tokens ∧ ShowsLimit tokens 2) ∧
      query.execute none db = .ok result ∧ result.rows.length ≤ 2 := by
  intro source query db result
  have read : (Statement.ofString source).toOption = some (.select query) := by decide +kernel
  have answer : (query.execute none db).toOption = some result := by decide +kernel
  obtain ⟨-, -, limits⟩ := numbers_keep_their_values source .strict
  obtain ⟨shows, bounded⟩ := limits query 2 (eq_ok_of_toOption read) rfl
  have answered := eq_ok_of_toOption answer
  exact ⟨eq_ok_of_toOption read, shows, answered, bounded db result answered⟩

end Tabular
