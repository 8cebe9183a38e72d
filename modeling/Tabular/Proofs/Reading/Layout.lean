import Tabular.Proofs.Reading.Uniform
import Tabular.Proofs.Tokens.Separation

/-!
# Layout

The tokens of a text written again, with other blanks and comments between them and keywords in
letters of another case.  A strict lexer reads tokens of the same kinds from the new text, so both
texts make the same statement, or none for the same reason.
-/

namespace Tabular

open Lexeme

/-! ## Texts laid out anew -/

/-- A keyword may be written in letters of either case, every other token only as it stands. -/
def Respells (t : Token) (word : List Char) : Prop :=
  match t.kind with
  | .keyword _ => word.map Char.toUpper = t.text.toList.map Char.toUpper
  | _ => word = t.text.toList

/-- The tokens one behind the other, with fillers behind them. -/
inductive Relaid : List Token → List Char → Prop where
  | nil : Relaid [] []
  /-- Something stands between two tokens, and no comment stands right behind one. -/
  | cons {t : Token} {tokens : List Token} {word gap rest : List Char} :
      Respells t word → Filler gap → (∀ c ∈ gap.head?, Text.isBlank c = true) →
      (tokens ≠ [] → gap ≠ []) → Relaid tokens rest → Relaid (t :: tokens) (word ++ gap ++ rest)

def LaidOut (tokens : List Token) (text : List Char) : Prop :=
  ∃ lead body, text = lead ++ body ∧ Filler lead ∧ Relaid tokens body

/-! ## Keywords -/

variable {c : Char} {cs word rest : List Char} {w : Keyword} {k : TokenKind}

theorem ofWord?_of_wordKind (h : wordKind word = .keyword w) : Keyword.ofWord? word = some w := by
  unfold wordKind at h
  split at h
  case h_1 known =>
    cases h
    exact known
  case h_2 => cases h

theorem number_ne_keyword : (Lexeme.number cs).meaning ≠ .ok (.keyword w) := by
  intro meaning
  unfold Lexeme.number at meaning
  split at meaning
  · simp only [realKind] at meaning
    split at meaning <;> cases meaning
  · simp only [integerKind] at meaning
    split at meaning <;> cases meaning

theorem ofWord?_of_read {mode : Mode} (meaning : (read mode c cs).meaning = .ok (.keyword w)) :
    Keyword.ofWord? (read mode c cs).text = some w := by
  revert meaning
  refine read_by_first
    (motive := fun r => (r cs).meaning = .ok (.keyword w) → Keyword.ofWord? (r cs).text = some w)
    mode c ?_ ?_ ?_ ?_
  · intro _ meaning
    simp only [Lexeme.string] at meaning
    split at meaning <;> cases meaning
  · exact fun _ meaning => (number_ne_keyword meaning).elim
  · exact fun _ meaning => ofWord?_of_wordKind (Except.ok.inj meaning)
  · intro quote digit letter meaning
    have kind : (symbolKind c cs.head?).1 = .keyword w := Except.ok.inj meaning
    rcases symbolKind_cases quote digit letter with ⟨-, s, sign⟩ | ⟨-, nothing⟩
    · cases sign.symm.trans kind
    · rw [nothing] at kind
      cases kind

/-! ## Scanning them -/

variable {final : List Char → Prop} {gap : List Char} {kinds : List TokenKind}

theorem Scans.again (visible : splitBlank false (c :: cs) = ([], c :: cs))
    (meaning : (read .strict c cs).meaning = .ok k) (proper : k.Proper)
    (blank : ∀ c ∈ rest.head?, Text.isBlank c = true) (behind : Scans final rest kinds) :
    Scans final ((read .strict c cs).text ++ rest) (k :: kinds) := by
  obtain ⟨tail, text⟩ := exists_read_text .strict c cs
  have apart : Detached (read .strict c cs).rest rest := detached_of_blank blank
  have same := read_detached meaning text apart
  rw [text, List.cons_append]
  refine .more (congrArg Prod.snd (splitBlank_detached visible text apart)) ?_ proper ?_
  · rw [same]
    exact meaning
  · rw [same]
    exact behind

theorem Scans.recased (meaning : (read .strict c cs).meaning = .ok (.keyword w))
    (letters : word.map Char.toUpper = (read .strict c cs).text.map Char.toUpper)
    (blank : ∀ c ∈ rest.head?, Text.isBlank c = true) (behind : Scans final rest kinds) :
    Scans final (word ++ rest) (.keyword w :: kinds) := by
  have known : Keyword.ofWord? word = some w := by
    rw [← ofWord?_of_read meaning]
    simp only [Keyword.ofWord?, letters]
  have stop : Stops continuesWord rest :=
    (stops_nil continuesWord).detached (detached_of_blank blank)
      fun _ => not_isBlank_of_continuesWord
  have scanned := Scans.word (isWordText_of_ofWord? known) stop behind
  rw [wordKind, known] at scanned
  exact scanned

theorem Scans.respelled {cursor : Cursor} (front : cursor.skipBlank.rest = c :: cs)
    (meaning : (read .strict c cs).meaning = .ok k) (proper : k.Proper)
    (respells : Respells (cursor.token (read .strict c cs) k) word)
    (blank : ∀ c ∈ rest.head?, Text.isBlank c = true) (behind : Scans final rest kinds) :
    Scans final (word ++ rest) (k :: kinds) := by
  have text : (cursor.token (read .strict c cs) k).text.toList = (read .strict c cs).text :=
    String.toList_ofList
  unfold Respells at respells
  rw [text] at respells
  split at respells
  case h_1 w kind =>
    obtain rfl : k = .keyword w := kind
    exact Scans.recased meaning respells blank behind
  case h_2 =>
    rw [respells]
    exact Scans.again (splitBlank_of_front front) meaning proper blank behind

theorem Tokenizes.uncons {cursor : Cursor} {t : Token} {tokens : List Token}
    (h : Tokenizes .strict cursor (t :: tokens)) (more : tokens ≠ []) :
    ∃ c cs k, cursor.skipBlank.rest = c :: cs ∧ (read .strict c cs).meaning = .ok k ∧ k.Proper ∧
      t = cursor.token (read .strict c cs) k ∧
      Tokenizes .strict (cursor.past (read .strict c cs)) tokens := by
  cases h with
  | last => exact (more rfl).elim
  | token front meaning proper others => exact ⟨_, _, _, front, meaning, proper, rfl, others⟩
  | dropped permissive => cases permissive

theorem scans_of_relaid {tokens : List Token} {last : Token} {body : List Char}
    (relaid : Relaid tokens body) {cursor : Cursor}
    (h : Tokenizes .strict cursor (tokens ++ [last])) :
    Scans (· = []) body (tokens.map Token.kind) := by
  induction relaid generalizing cursor with
  | nil => exact .done rfl
  | @cons t tokens word gap rest respells filler blank between relaid ih =>
      obtain ⟨c, cs, k, front, meaning, proper, rfl, others⟩ := h.uncons (by simp)
      have behind := (ih others).filler filler
      rw [List.append_assoc]
      refine Scans.respelled front meaning proper respells ?_ behind
      -- Where the gap is empty, the text ends behind the token.
      intro d next
      cases gap with
      | cons => exact blank d next
      | nil =>
          cases relaid with
          | nil => cases next
          | cons => exact (between (List.cons_ne_nil _ _) rfl).elim

/-! ## Reading them -/

theorem exists_tokenize_laidOut {source text : String} {tokens : List Token} {last : Token}
    (read : tokenize source .strict = .ok (tokens ++ [last])) (laid : LaidOut tokens text.toList) :
    ∃ tokens', tokenize text .strict = .ok tokens' ∧
      tokens'.map Token.kind = (tokens ++ [last]).map Token.kind := by
  obtain ⟨lead, body, split, filler, relaid⟩ := laid
  have scanned := (scans_of_relaid relaid (tokenize_eq_ok_iff.mp read)).filler filler
  rw [← split] at scanned
  obtain ⟨tokens', read', kinds⟩ := tokenize_of_scans scanned
  obtain ⟨inner, marker, same, -, ended, -⟩ := (tokenize_places read).ended
  obtain rfl : last = marker := by simpa using (List.append_inj' same rfl).2
  exact ⟨tokens', read', by simp [kinds, ended]⟩

/-- Neither the layout of a text nor the case of its keywords changes what is read from it. -/
theorem layout_and_case_are_free {source text : String} {tokens : List Token} {last : Token}
    (read : tokenize source .strict = .ok (tokens ++ [last])) (laid : LaidOut tokens text.toList) :
    (∃ tokens', tokenize text .strict = .ok tokens' ∧
      tokens'.map Token.kind = (tokens ++ [last]).map Token.kind) ∧
      SameOutcome (Statement.ofString source) (Statement.ofString text) := by
  obtain ⟨tokens', read', kinds⟩ := exists_tokenize_laidOut read laid
  refine ⟨⟨tokens', read', kinds⟩, ?_⟩
  unfold Statement.ofString
  rw [read, read']
  exact Statement.sameOutcome_ofTokens kinds.symm

/-- A quote in a comment, a comment behind a blank, and a blank at the end. -/
theorem layout_and_case_are_free_drop :
    ∃ tokens last, tokenize "DROP TABLE t" .strict = .ok (tokens ++ [last]) ∧
      LaidOut tokens "--'\ndrOp --;\nTable t ".toList ∧
      SameOutcome (Statement.ofString "DROP TABLE t")
        (Statement.ofString "--'\ndrOp --;\nTable t ") := by
  have read : (tokenize "DROP TABLE t" .strict).toOption =
      some ([⟨.keyword .drop, "DROP", ⟨0, 1, 1⟩⟩, ⟨.keyword .table, "TABLE", ⟨5, 1, 6⟩⟩,
        ⟨.identifier "t", "t", ⟨11, 1, 12⟩⟩] ++ [⟨.endMarker, "", ⟨12, 1, 13⟩⟩]) := by
    decide +kernel
  have text : "--'\ndrOp --;\nTable t ".toList =
      ['-', '-', '\'', '\n'] ++ (['d', 'r', 'O', 'p'] ++ [' ', '-', '-', ';', '\n'] ++
        (['T', 'a', 'b', 'l', 'e'] ++ [' '] ++ (['t'] ++ [' '] ++ []))) := by decide +kernel
  have comment : Filler ['-', '-', '\'', '\n'] := @Filler.comment ['\''] [] (by decide) .nil
  have gap : Filler [' ', '-', '-', ';', '\n'] :=
    .blank rfl (@Filler.comment [';'] [] (by decide) .nil)
  have space : Filler [' '] := .blank rfl .nil
  have blank {rest : List Char} : ∀ c ∈ (' ' :: rest).head?, Text.isBlank c = true := by
    rintro _ ⟨⟩
    rfl
  have laid : LaidOut [⟨.keyword .drop, "DROP", ⟨0, 1, 1⟩⟩, ⟨.keyword .table, "TABLE", ⟨5, 1, 6⟩⟩,
      ⟨.identifier "t", "t", ⟨11, 1, 12⟩⟩] "--'\ndrOp --;\nTable t ".toList := by
    refine ⟨_, _, text, comment, ?_⟩
    refine .cons (?_ : List.map _ _ = _) gap blank (by simp) ?_
    · decide +kernel
    refine .cons (?_ : List.map _ _ = _) space blank (by simp) ?_
    · decide +kernel
    refine .cons (?_ : _ = "t".toList) space blank (by simp) .nil
    decide +kernel
  exact ⟨_, _, eq_ok_of_toOption read, laid,
    (layout_and_case_are_free (eq_ok_of_toOption read) laid).2⟩

end Tabular
