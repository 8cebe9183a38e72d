import Tabular.Proofs.Rendering.Tokens
import Tabular.Proofs.Tokens.Tokenizing

/-!
# What a lexer writes into tokens

A number has no sign in a token, and a real that is too large has become infinity; a name is an
identifier.
-/

namespace Tabular

open Binary64

/-! ## Reals -/

/-- A real that digits stand for; infinity is one of them. -/
def IsMagnitude (x : Binary64) : Prop :=
  ∃ m ≤ infinity, x = ofParts false m

theorem parts_of_isMagnitude {x : Binary64} (h : IsMagnitude x) :
    isNegative x = false ∧ magnitude x ≤ infinity := by
  obtain ⟨m, bound, rfl⟩ := h
  have small := Nat.lt_of_le_of_lt bound infinity_lt
  rw [isNegative_ofParts small, magnitude_ofParts small]
  exact ⟨rfl, bound⟩

theorem text_of_isMagnitude {x : Binary64} (h : IsMagnitude x) (infinite : ¬isFinite x = true) :
    Layout.positional.text x = "inf" := by
  obtain ⟨positive, bound⟩ := parts_of_isMagnitude h
  have number : isNaN x = false := decide_eq_false (Nat.not_lt.mpr bound)
  simp [Layout.text, number, infinite, positive]

theorem isMagnitude_of_ofDecimal? {cs : List Char} {x : Binary64} (h : ofDecimal? cs = some x) :
    IsMagnitude x := by
  simp only [ofDecimal?] at h
  split at h
  · split at h <;> cases h
    exact ⟨_, nearest_le _ _, rfl⟩
  · cases h

/-! ## Tokens -/

/-- Names are identifiers, and numbers have no sign. -/
def TokenKind.Written : TokenKind → Prop
  | integer n => 0 ≤ n.toInt
  | real x => IsMagnitude x
  | identifier name => Expr.IsIdentifier name
  | _ => True

theorem written_wordKind {word : List Char} (h : isWordText word = true) :
    (Lexeme.wordKind word).Written := by
  unfold Lexeme.wordKind
  cases found : Keyword.ofWord? word with
  | some k => trivial
  | none =>
      have identifier : Expr.IsIdentifier (String.ofList word) := by
        rw [Expr.IsIdentifier, String.toList_ofList]
        exact ⟨h, found⟩
      exact identifier

theorem written_of_string {mode : Mode} {c : Char} {cs : List Char} {k : TokenKind}
    (meaning : (Lexeme.string mode c cs).meaning = .ok k) : k.Written := by
  simp only [Lexeme.string] at meaning
  split at meaning <;> cases meaning
  trivial

theorem written_of_number {cs : List Char} {k : TokenKind}
    (meaning : (Lexeme.number cs).meaning = .ok k) : k.Written := by
  unfold Lexeme.number at meaning
  split at meaning
  · simp only [Lexeme.realKind] at meaning
    split at meaning <;> cases meaning
    exact isMagnitude_of_ofDecimal? ‹_›
  · simp only [Lexeme.integerKind] at meaning
    split at meaning <;> cases meaning
    rename_i small
    have value := Int64.toInt_ofNat_of_lt small
    simp only [TokenKind.Written, value]
    omega

theorem written_of_word {c : Char} {cs : List Char} (first : Lexeme.beginsWord c = true) :
    (Lexeme.wordKind ((c :: cs).takeWhile Lexeme.continuesWord)).Written := by
  apply written_wordKind
  rw [List.takeWhile_cons_of_pos (continuesWord_of_beginsWord first)]
  simp [isWordText, first]

theorem written_of_symbol (c : Char) (next : Option Char) :
    (Lexeme.symbolKind c next).1.Written := by
  unfold Lexeme.symbolKind
  split
  case h_11 =>
    split
    · trivial
    · split <;> trivial
  case h_12 | h_13 => split <;> trivial
  all_goals trivial

theorem written_of_read {mode : Mode} {c : Char} {cs : List Char} {k : TokenKind}
    (meaning : (Lexeme.read mode c cs).meaning = .ok k) : k.Written := by
  unfold Lexeme.read at meaning
  split at meaning
  · exact written_of_string meaning
  · split at meaning
    · exact written_of_number meaning
    · split at meaning
      · rename_i first
        cases meaning
        exact written_of_word first
      · cases meaning
        exact written_of_symbol _ _

theorem written_of_tokenizes {mode : Mode} {cursor : Cursor} {tokens : List Token}
    (h : Tokenizes mode cursor tokens) : ∀ t ∈ tokens, t.kind.Written := by
  induction h with
  | last => exact List.forall_mem_singleton.mpr trivial
  | token _ meaning _ _ ih => exact List.forall_mem_cons.mpr ⟨written_of_read meaning, ih⟩
  | dropped _ _ _ _ ih => exact ih

end Tabular
