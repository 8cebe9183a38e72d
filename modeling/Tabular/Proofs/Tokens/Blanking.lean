import Tabular.Proofs.Tokens.Faults
import Tabular.Proofs.Tokens.Iteration

/-!
# Characters left out

A permissive lexer leaves out the characters that begin no token.  With a space in place of each of
them, a text is one that a strict lexer reads, and it reads the same tokens in the same lines and
columns.
-/

namespace Tabular

open Lexeme

/-! ## Texts with spaces in them -/

/-- The places of the characters among the items that begin no token. -/
def invalidPlaces (items : List (Except Error Token)) : List Position :=
  items.filterMap fun
    | .ok t => if t.isInvalid then some t.position else none
    | .error _ => none

/-- The text behind a place, with a space in place of each character at one of the places. -/
def blankAt (places : List Position) : Position → List Char → List Char
  | _, [] => []
  | p, c :: cs => (if p ∈ places then ' ' else c) :: blankAt places (p.advance c) cs

/-- The text with a space in place of each character that a permissive lexer leaves out. -/
def blanked (source : String) : String :=
  let items := (Lexer.ofString source .permissive).remaining.1
  String.ofList (blankAt (invalidPlaces items) .start source.toList)

/-- The token ends with the quote that it begins with. -/
def EndsInQuote (t : Token) : Prop :=
  ∃ quote body, t.text.toList = quote :: body ++ [quote] ∧ Inside quote body

/-- The places differ in nothing but the bytes before them. -/
structure SamePlace (p q : Position) : Prop where
  line : q.line = p.line
  column : q.column = p.column

structure SameToken (t u : Token) : Prop where
  kind : u.kind = t.kind
  text : u.text = t.text
  place : SamePlace t.position u.position

/-! ### Places -/

variable {p q : Position} {places : List Position} {c : Char} {cs ds : List Char}

theorem offset_lt_advance (p : Position) (c : Char) : p.offset < (p.advance c).offset := by
  have size := c.utf8Size_pos
  unfold Position.advance
  split <;> simp <;> omega

theorem offset_le_after (p : Position) (cs : List Char) : p.offset ≤ (p.after cs).offset := by
  induction cs generalizing p with
  | nil => exact Nat.le_refl _
  | cons c cs ih => exact Nat.le_trans (Nat.le_of_lt (offset_lt_advance p c)) (ih _)

theorem blankAt_append
    (clear : ∀ q ∈ places, q.offset < p.offset ∨ (p.after cs).offset ≤ q.offset) :
    blankAt places p (cs ++ ds) = cs ++ blankAt places (p.after cs) ds := by
  induction cs generalizing p with
  | nil => rfl
  | cons c cs ih =>
      have more := offset_lt_advance p c
      have later := offset_le_after (p.advance c) cs
      have other : p ∉ places := by
        intro member
        have := clear p member
        simp only [Position.after_cons] at this
        omega
      have rest := @ih (p.advance c) fun q member => by
        have := clear q member
        simp only [Position.after_cons] at this
        omega
      rw [List.cons_append, blankAt, if_neg other, rest]
      rfl

theorem SamePlace.advance (h : SamePlace p q) (c : Char) :
    SamePlace (p.advance c) (q.advance c) := by
  unfold Position.advance
  split
  · exact ⟨congrArg (· + 1) h.line, rfl⟩
  · exact ⟨h.line, congrArg (· + 1) h.column⟩

theorem SamePlace.after (h : SamePlace p q) (cs : List Char) :
    SamePlace (p.after cs) (q.after cs) := by
  induction cs generalizing p q with
  | nil => exact h
  | cons c cs ih => exact ih (h.advance c)

theorem SamePlace.advance_space (h : SamePlace p q) (noFeed : c ≠ '\n') :
    SamePlace (p.advance c) (q.advance ' ') := by
  rw [Position.advance, if_neg noFeed]
  exact ⟨h.line, congrArg (· + 1) h.column⟩

/-! ## What a permissive lexer leaves out -/

/--
Behind the cursor a permissive lexer reads these tokens, and what stands there is the second text
with other characters in place of some of its spaces.
-/
inductive Blanks : Cursor → List Token → List Char → Prop where
  | last {cursor : Cursor} : cursor.skipBlank.rest = [] →
      Blanks cursor [⟨.endMarker, "", cursor.skipBlank.position⟩] cursor.rest
  | token {cursor : Cursor} {c : Char} {cs text : List Char} {k : TokenKind}
      {tokens : List Token} :
      cursor.skipBlank.rest = c :: cs → (read .permissive c cs).meaning = .ok k → k.Proper →
      Blanks (cursor.past (read .permissive c cs)) tokens text →
      Blanks cursor (cursor.token (read .permissive c cs) k :: tokens)
        ((splitBlank false cursor.rest).1 ++ ((read .permissive c cs).text ++ text))
  | dropped {cursor : Cursor} {c : Char} {cs text : List Char} {tokens : List Token} :
      cursor.skipBlank.rest = c :: cs → ¬BeginsToken c cs.head? →
      Blanks (cursor.past (unrecognized c cs)) tokens text →
      Blanks cursor tokens ((splitBlank false cursor.rest).1 ++ ' ' :: text)

variable {cursor : Cursor} {tokens : List Token} {text : List Char} {k : TokenKind} {l : Lexer}

/-! ### The items of the iteration -/

theorem invalidPlaces_of_end (running : l.finished = false)
    (ended : l.cursor.skipBlank.rest = []) : invalidPlaces l.remaining.1 = [] := by
  rw [Lexer.remaining_of_next (Lexer.next_of_end running ended), Lexer.remaining_of_finished rfl]
  rfl

theorem invalidPlaces_of_token (running : l.finished = false) (permissive : l.mode = .permissive)
    (front : l.cursor.skipBlank.rest = c :: cs) (meaning : (read .permissive c cs).meaning = .ok k)
    (proper : k.Proper) :
    invalidPlaces l.remaining.1 = invalidPlaces (l.past (read .permissive c cs)).remaining.1 := by
  rw [← permissive] at meaning ⊢
  have valid : (l.cursor.token (read l.mode c cs) k).isInvalid = false := by
    rw [← Bool.not_eq_true, Token.isInvalid_iff]
    exact fun invalid => proper.2 _ invalid.choose_spec
  rw [Lexer.remaining_of_next (Lexer.next_of_token running front meaning proper.1)]
  simp [invalidPlaces, valid]

theorem invalidPlaces_of_nothing (running : l.finished = false)
    (front : l.cursor.skipBlank.rest = c :: cs) (nothing : ¬BeginsToken c cs.head?) :
    invalidPlaces l.remaining.1 =
      l.cursor.skipBlank.position ::
        invalidPlaces (l.past (unrecognized c cs)).remaining.1 := by
  have taken := read_of_nothing l.mode nothing
  have meaning : (read l.mode c cs).meaning = .ok (.invalid c) := congrArg Lexeme.meaning taken
  rw [Lexer.remaining_of_next (Lexer.next_of_token running front meaning (by simp)), taken]
  rfl

theorem le_of_mem_invalidPlaces (h : Tokenizes .permissive cursor tokens)
    (running : l.finished = false) (permissive : l.mode = .permissive) (here : l.cursor = cursor) :
    ∀ q ∈ invalidPlaces l.remaining.1, cursor.position.offset ≤ q.offset := by
  induction h generalizing l with
  | last ended =>
      subst here
      rw [invalidPlaces_of_end running ended]
      exact nofun
  | token front meaning proper _ ih =>
      subst here
      rw [invalidPlaces_of_token running permissive front meaning proper]
      intro q member
      have later := ih (l := l.past _) running permissive rfl q member
      rw [(spans_past .permissive (settled_nil _) front).position] at later
      exact Nat.le_trans (offset_le_after _ _) later
  | @dropped cursor c cs tokens _ front nothing _ ih =>
      subst here
      rw [invalidPlaces_of_nothing running front nothing]
      refine List.forall_mem_cons.mpr ⟨offset_le_after _ _, fun q member => ?_⟩
      have later := ih (l := l.past _) running permissive rfl q member
      have moved : l.cursor.skipBlank.position.offset < _ := offset_lt_advance _ c
      exact Nat.le_trans (offset_le_after _ _) (Nat.le_trans (Nat.le_of_lt moved) later)

/-- From `p` on, the places are those of the characters left out. -/
structure Marks (places : List Position) (p : Position) (items : List (Except Error Token)) :
    Prop where
  all : ∀ q ∈ invalidPlaces items, q ∈ places
  only : ∀ q ∈ places, q.offset < p.offset ∨ q ∈ invalidPlaces items

namespace Marks

theorem of_end (marks : Marks places l.cursor.position l.remaining.1)
    (running : l.finished = false) (ended : l.cursor.skipBlank.rest = []) :
    ∀ q ∈ places, q.offset < l.cursor.position.offset := by
  obtain ⟨-, only⟩ := marks
  rw [invalidPlaces_of_end running ended] at only
  exact fun q member => (only q member).resolve_right nofun

/-- Behind a token the places are marked as before, and none of them lies in the token. -/
theorem of_token (marks : Marks places l.cursor.position l.remaining.1)
    (running : l.finished = false) (permissive : l.mode = .permissive)
    (front : l.cursor.skipBlank.rest = c :: cs) (meaning : (read .permissive c cs).meaning = .ok k)
    (proper : k.Proper)
    (others : Tokenizes .permissive (l.cursor.past (read .permissive c cs)) tokens) :
    let behind := l.past (read .permissive c cs)
    Marks places behind.cursor.position behind.remaining.1 ∧
      ∀ q ∈ places, q.offset < l.cursor.position.offset ∨
        behind.cursor.position.offset ≤ q.offset := by
  intro behind
  have spans := spans_past .permissive (settled_nil l.cursor.rest) front
  have onward : l.cursor.position.offset ≤ behind.cursor.position.offset := by
    rw [show behind.cursor.position = _ from spans.position]
    exact offset_le_after _ _
  have later := le_of_mem_invalidPlaces others (l := behind) running permissive rfl
  obtain ⟨all, only⟩ := marks
  rw [invalidPlaces_of_token running permissive front meaning proper] at all only
  refine ⟨⟨all, fun q member => ?_⟩, fun q member => (only q member).imp_right (later q)⟩
  exact (only q member).imp_left fun before => Nat.lt_of_lt_of_le before onward

/--
A character left out is at one of the places, the only one up to the text behind it, and behind it
the places are marked as before.
-/
theorem of_dropped (marks : Marks places l.cursor.position l.remaining.1)
    (running : l.finished = false) (permissive : l.mode = .permissive)
    (front : l.cursor.skipBlank.rest = c :: cs) (nothing : ¬BeginsToken c cs.head?)
    (others : Tokenizes .permissive (l.cursor.past (unrecognized c cs)) tokens) :
    let behind := l.past (unrecognized c cs)
    Marks places behind.cursor.position behind.remaining.1 ∧
      l.cursor.skipBlank.position ∈ places ∧
      ∀ q ∈ places, q.offset < l.cursor.position.offset ∨
        l.cursor.skipBlank.position.offset ≤ q.offset := by
  intro behind
  have skipped : l.cursor.position.offset ≤ l.cursor.skipBlank.position.offset :=
    offset_le_after _ _
  have moved : l.cursor.skipBlank.position.offset < behind.cursor.position.offset :=
    offset_lt_advance _ c
  have later := le_of_mem_invalidPlaces others (l := behind) running permissive rfl
  obtain ⟨all, only⟩ := marks
  rw [invalidPlaces_of_nothing running front nothing] at all only
  obtain ⟨member, all⟩ := List.forall_mem_cons.mp all
  refine ⟨⟨all, fun q among => ?_⟩, member, fun q among => ?_⟩
  · rcases only q among with before | here
    · exact .inl (Nat.lt_of_lt_of_le before (Nat.le_trans skipped (Nat.le_of_lt moved)))
    · rcases List.mem_cons.mp here with rfl | behind
      · exact .inl moved
      · exact .inr behind
  · refine (only q among).imp_right fun here => ?_
    rcases List.mem_cons.mp here with rfl | behind
    · exact Nat.le_refl _
    · exact Nat.le_trans (Nat.le_of_lt moved) (later q behind)

end Marks

theorem blanks_of_tokenizes (h : Tokenizes .permissive cursor tokens)
    (running : l.finished = false) (permissive : l.mode = .permissive) (here : l.cursor = cursor)
    (marks : Marks places cursor.position l.remaining.1) :
    Blanks cursor tokens (blankAt places cursor.position cursor.rest) := by
  induction h generalizing l with
  | @last cursor ended =>
      subst here
      have before := marks.of_end running ended
      have same := @blankAt_append l.cursor.position places l.cursor.rest [] fun q member =>
        .inl (before q member)
      rw [blankAt, List.append_nil] at same
      rw [same]
      exact .last ended
  | @token cursor c cs k tokens front meaning proper others ih =>
      subst here
      have spans := spans_past .permissive (settled_nil l.cursor.rest) front
      obtain ⟨behind, clear⟩ := marks.of_token running permissive front meaning proper others
      have taken := Blanks.token front meaning proper
        (ih (l := l.past _) running permissive rfl behind)
      rw [spans.position] at taken
      rw [spans.rest, blankAt_append (spans.position ▸ clear), List.append_assoc]
      exact taken
  | @dropped cursor c cs tokens _ front nothing others ih =>
      subst here
      have split : l.cursor.rest = (splitBlank false l.cursor.rest).1 ++ c :: cs := by
        rw [← front]
        exact (splitBlank_append false l.cursor.rest).symm
      obtain ⟨behind, member, clear⟩ :=
        marks.of_dropped running permissive front nothing others
      have place : l.cursor.position.after (splitBlank false l.cursor.rest).1 ∈ places := member
      rw [split, blankAt_append clear, blankAt, if_pos place]
      exact .dropped front nothing (ih (l := l.past _) running permissive rfl behind)

/-! ## What a strict lexer reads then -/

theorem read_strict_of_closed (meaning : (read .permissive c cs).meaning = .ok k)
    (closed : ∀ s, k = .text s → EndsInQuote (cursor.token (read .permissive c cs) k)) :
    read .strict c cs = read .permissive c cs := by
  unfold Lexeme.read at *
  split
  · rename_i isQuote
    rw [if_pos isQuote] at meaning closed
    have text : k = .text (String.ofList (Quoted.read c cs).contents) := by
      simpa [Lexeme.string] using meaning.symm
    obtain ⟨quote, body, written, inside⟩ := closed _ text
    have parts : c :: (Quoted.read c cs).text = quote :: (body ++ [quote]) := by
      simpa [Cursor.token, Lexeme.string] using written
    obtain ⟨rfl, taken⟩ := List.cons.inj parts
    have whole := Quoted.read_append c cs
    rw [taken, List.append_assoc] at whole
    have ends := (closed_iff (quote_ne_backslash isQuote)).mpr ⟨body, _, whole.symm, inside⟩
    simp [Lexeme.string, ends]
  · rfl

/-- The new text begins as the old one, or with a space. -/
theorem Blanks.detached (h : Blanks cursor tokens text) : Detached cursor.rest text := by
  intro d next
  cases h with
  | last => exact .inr next
  | @token _ c cs text k tokens front =>
      have rest := (spans_past .permissive (settled_nil cursor.rest) front).rest
      have given : (splitBlank false cursor.rest).1 ++ (read .permissive c cs).text ≠ [] :=
        List.append_ne_nil_of_right_ne_nil _ (read_text_ne_nil .permissive c cs)
      rw [← List.append_assoc, List.head?_append_of_ne_nil _ given] at next
      rw [rest, List.head?_append_of_ne_nil _ given]
      exact .inr next
  | dropped =>
      have rest := splitBlank_append false cursor.rest
      cases gap : (splitBlank false cursor.rest).1 with
      | nil =>
          rw [gap] at next
          cases next
          exact .inl rfl
      | cons b gap' =>
          rw [gap] at next rest
          rw [← rest]
          exact .inr next

theorem Tokenizes.of_skipBlank {mode : Mode} {cursor' : Cursor}
    (h : Tokenizes mode cursor tokens) (same : cursor'.skipBlank = cursor.skipBlank) :
    Tokenizes mode cursor' tokens := by
  cases h with
  | last ended =>
      rw [← same] at ended ⊢
      exact .last ended
  | @token _ c cs k tokens front meaning proper others =>
      have token : cursor.token (read mode c cs) k = cursor'.token (read mode c cs) k := by
        rw [Cursor.token, Cursor.token, same]
      rw [token]
      refine .token (same ▸ front) meaning proper ?_
      rw [Cursor.past, same]
      exact others
  | dropped permissive front nothing others =>
      refine .dropped permissive (same ▸ front) nothing ?_
      rw [Cursor.past, same]
      exact others

theorem skipBlank_space {gap : List Char} (filler : Filler gap) (text : List Char) (p : Position) :
    (⟨gap ++ ' ' :: text, p⟩ : Cursor).skipBlank =
      (⟨text, (p.after gap).advance ' '⟩ : Cursor).skipBlank := by
  have blank := (Filler.blank (c := ' ') rfl .nil).splitBlank text
  rw [List.singleton_append] at blank
  simp only [Cursor.skipBlank, filler.splitBlank, blank, Position.after_append]
  rfl

theorem Blanks.tokenizes (h : Blanks cursor tokens text)
    (closed : ∀ t ∈ tokens, ∀ s, t.kind = .text s → EndsInQuote t)
    (same : SamePlace cursor.position p) :
    ∃ tokens', Tokenizes .strict ⟨text, p⟩ tokens' ∧ List.Forall₂ SameToken tokens tokens' := by
  induction h generalizing p with
  | @last cursor ended =>
      exact ⟨_, .last ended, .cons ⟨rfl, rfl, same.after _⟩ .nil⟩
  | @token cursor c cs text k tokens front meaning proper others ih =>
      obtain ⟨here, later⟩ := List.forall_mem_cons.mp closed
      have strict := read_strict_of_closed meaning here
      have behind : (read .strict c cs).rest = (cursor.past (read .permissive c cs)).rest := by
        rw [strict]
        rfl
      have apart : Detached (read .strict c cs).rest text := behind ▸ others.detached
      have place := same.after (splitBlank false cursor.rest).1
      rw [← strict] at ih meaning ⊢
      obtain ⟨tokens', others, alike⟩ := ih later (place.after _)
      exact ⟨_, .again (filler_of_splitBlank front) (splitBlank_of_front front) meaning proper apart
        others, .cons ⟨rfl, rfl, place⟩ alike⟩
  | @dropped cursor c cs text tokens front nothing others ih =>
      have noFeed : c ≠ '\n' := by
        rintro rfl
        cases isBlank_of_splitBlank front
      obtain ⟨tokens', read, alike⟩ := ih closed ((same.after _).advance_space noFeed)
      have skipped := skipBlank_space (filler_of_splitBlank front) text p
      exact ⟨tokens', read.of_skipBlank skipped, alike⟩

/--
A space in place of each character that a permissive lexer leaves out makes a text that a strict
lexer reads as the same tokens, in the same lines and columns.
-/
theorem blanked_reads_alike {source : String} {tokens : List Token}
    (read : tokenize source .permissive = .ok tokens)
    (closed : ∀ t ∈ tokens, ∀ s, t.kind = .text s → EndsInQuote t) :
    ∃ tokens', tokenize (blanked source) .strict = .ok tokens' ∧
      List.Forall₂ SameToken tokens tokens' := by
  have marks : Marks (invalidPlaces (Lexer.ofString source .permissive).remaining.1)
      Position.start (Lexer.ofString source .permissive).remaining.1 :=
    ⟨fun _ => id, fun _ => .inr⟩
  have blanks := blanks_of_tokenizes (l := .ofString source .permissive)
    (tokenize_eq_ok_iff.mp read) rfl rfl rfl marks
  obtain ⟨tokens', read', alike⟩ := blanks.tokenizes closed ⟨rfl, rfl⟩
  refine ⟨tokens', tokenize_eq_ok_iff.mpr ?_, alike⟩
  rw [blanked, String.toList_ofList]
  exact read'

/-- Between the minus signs, in front of a longer sign, and harmless in a string. -/
theorem blanked_reads_alike_signs :
    ∃ tokens tokens', tokenize "a#é'#'\n-§-!!=" .permissive = .ok tokens ∧
      (∀ t ∈ tokens, ∀ s, t.kind = .text s → EndsInQuote t) ∧
      tokenize (blanked "a#é'#'\n-§-!!=") .strict = .ok tokens' ∧
      List.Forall₂ SameToken tokens tokens' := by
  have read : (tokenize "a#é'#'\n-§-!!=" .permissive).toOption =
      some [⟨.identifier "a", "a", ⟨0, 1, 1⟩⟩, ⟨.text "#", "'#'", ⟨4, 1, 4⟩⟩,
        ⟨.symbol .minus, "-", ⟨8, 2, 1⟩⟩, ⟨.symbol .minus, "-", ⟨11, 2, 3⟩⟩,
        ⟨.symbol .notEqual, "!=", ⟨13, 2, 5⟩⟩, ⟨.endMarker, "", ⟨15, 2, 7⟩⟩] := by
    decide +kernel
  have closed : EndsInQuote ⟨.text "#", "'#'", ⟨4, 1, 4⟩⟩ :=
    ⟨'\'', ['#'], by decide +kernel, .plain (by decide) (by decide) .nil⟩
  obtain ⟨tokens', alike⟩ := blanked_reads_alike (eq_ok_of_toOption read) (by simpa using closed)
  exact ⟨_, tokens', eq_ok_of_toOption read, by simpa using closed, alike⟩

example : blanked "a#é'#'\n-§-!!=" = "a  '#'\n- - !=" := by decide +kernel

end Tabular
