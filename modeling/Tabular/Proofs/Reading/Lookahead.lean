import Tabular.Proofs.Reading.SideBySide

/-!
# Lookahead

What a reader reports depends on the tokens up to the one that it names, and on nothing behind it.
A reader that begins in the middle of the tokens sees what a new one over the others sees.
-/

namespace Tabular

open Parse

/-! ## Streams among their tokens -/

/-- The tokens of a stream, with an end marker behind them where they have none. -/
def TokenStream.whole (tokens : List Token) : List Token :=
  match tokens.getLast? with
  | none => [⟨.endMarker, "", ⟨0, 0, 0⟩⟩]
  | some last => if last.isEnd then tokens else tokens ++ [⟨.endMarker, "", last.position⟩]

/-- The stream stands at one of the tokens, the last of which is an end marker. -/
def TokenStream.StandsIn (s : TokenStream) (tokens : List Token) : Prop :=
  ∃ marker : Token, marker.kind = .endMarker ∧ marker.position = s.stop ∧
    tokens.drop s.index = s.ahead ++ [marker]

/-- Readers and messages see no difference between the tokens. -/
structure Token.Resembles (t u : Token) : Prop where
  kind : t.kind = u.kind
  describe : t.describe = u.describe
  position : t.position = u.position

variable {tokens tokens' : List Token} {s t : TokenStream}

theorem describe_of_endMarker {t : Token} (ended : t.kind = .endMarker) :
    t.describe = TokenKind.endMarker.describe :=
  if_pos (by simp [Token.isEnd, ended])

namespace TokenStream

@[simp] theorem index_ofTokens (tokens : List Token) : (ofTokens tokens).index = 0 := by
  unfold ofTokens
  split <;> rfl

theorem standsIn_ofTokens (tokens : List Token) : (ofTokens tokens).StandsIn (whole tokens) := by
  cases last : tokens.getLast? with
  | none => exact ⟨⟨.endMarker, "", ⟨0, 0, 0⟩⟩, rfl, by simp [ofTokens, last], by
      simp [ofTokens, whole, last]⟩
  | some marker =>
      obtain ⟨body, rfl⟩ := List.getLast?_eq_some_iff.mp last
      cases isEnd : marker.isEnd with
      | true =>
          have ended : marker.kind = .endMarker := by simpa [Token.isEnd] using isEnd
          exact ⟨marker, ended, by simp [ofTokens], by simp [ofTokens, whole, isEnd]⟩
      | false =>
          exact ⟨⟨.endMarker, "", marker.position⟩, rfl, by simp [ofTokens], by
            simp [ofTokens, whole, isEnd]⟩

theorem StandsIn.advance (h : s.StandsIn tokens) : s.advance.StandsIn tokens := by
  obtain ⟨marker, ended, place, split⟩ := h
  cases ahead : s.ahead with
  | nil =>
      have stays : s.advance = s := by rw [TokenStream.advance, ahead]
      rw [stays]
      exact ⟨marker, ended, place, split⟩
  | cons token rest =>
      have moved : s.advance = ⟨s.index + 1, rest, s.stop⟩ := by rw [TokenStream.advance, ahead]
      rw [moved]
      refine ⟨marker, ended, place, ?_⟩
      rw [← List.drop_drop, split, ahead]
      rfl

theorem index_advance (more : s.ahead ≠ []) : s.advance.index = s.index + 1 := by
  unfold advance
  split
  · contradiction
  · rfl

theorem StandsIn.length_eq (h : s.StandsIn tokens) :
    tokens.length = s.index + s.ahead.length + 1 := by
  obtain ⟨marker, -, -, split⟩ := h
  have lengths := congrArg List.length split
  simp only [List.length_drop, List.length_append, List.length_singleton] at lengths
  omega

theorem StandsIn.current (h : s.StandsIn tokens) :
    ∃ u, tokens[s.index]? = some u ∧ s.current.Resembles u := by
  obtain ⟨marker, ended, place, split⟩ := h
  have here : tokens[s.index]? = (s.ahead ++ [marker]).head? := by
    rw [← split, List.head?_drop]
  cases ahead : s.ahead with
  | nil =>
      have current : s.current = ⟨.endMarker, "", s.stop⟩ := by
        rw [TokenStream.current, ahead]
        rfl
      rw [ahead] at here
      have same := (describe_of_endMarker ended).symm
      refine ⟨marker, here, ?_⟩
      rw [current]
      exact ⟨ended.symm, (describe_of_endMarker rfl).trans same, place.symm⟩
  | cons token rest =>
      have current : s.current = token := by
        rw [TokenStream.current, ahead]
        rfl
      rw [ahead] at here
      refine ⟨token, here, ?_⟩
      rw [current]
      exact ⟨rfl, rfl, rfl⟩

theorem whole_of_ended {last : Token} (final : tokens.getLast? = some last)
    (ended : last.kind = .endMarker) : whole tokens = tokens := by
  simp [whole, final, Token.isEnd, ended]

end TokenStream

/-! ## Tokens seen from two streams -/

/-- The error with the number of its token counted from `n` tokens before. -/
def Error.later (n : Nat) : Error → Error
  | .unexpectedToken expected found index position =>
      .unexpectedToken expected found (index + n) position
  | e => e

variable {k n : Nat}

/-- The streams stand in their tokens, the second one `n` tokens further on. -/
structure Abreast (tokens tokens' : List Token) (n : Nat) (s t : TokenStream) : Prop where
  left : s.StandsIn tokens
  right : t.StandsIn tokens'
  apart : t.index = s.index + n

theorem Abreast.current (h : Abreast tokens tokens' n s t)
    (same : tokens'[s.index + n]? = tokens[s.index]?) : s.current.Resembles t.current := by
  obtain ⟨u, here, left⟩ := h.left.current
  obtain ⟨v, there, right⟩ := h.right.current
  rw [h.apart, same, here] at there
  obtain rfl := Option.some.inj there
  exact ⟨left.kind.trans right.kind.symm, left.describe.trans right.describe.symm,
    left.position.trans right.position.symm⟩

/-- Up to the token of number `k`, nothing but its tokens tells a reader where it is. -/
theorem coupled_abreast (agree : ∀ i ≤ k, tokens'[i + n]? = tokens[i]?) :
    Coupled (Abreast tokens tokens' n) (fun e e' => e' = e.later n) (·.index ≤ k) where
  kind abreast inside := (abreast.current (agree _ inside)).kind
  advance {s t} abreast inside inner := by
    have inner' : t.kind ≠ .endMarker :=
      fun ended => inner ((abreast.current (agree _ inside)).kind.trans ended)
    have moved := TokenStream.index_advance (TokenStream.ahead_ne_nil rfl inner)
    have moved' := TokenStream.index_advance (TokenStream.ahead_ne_nil rfl inner')
    exact ⟨abreast.left.advance, abreast.right.advance, by rw [moved, moved', abreast.apart]; omega⟩
  refuse {s t} expected abreast inside := by
    have same := abreast.current (agree _ inside)
    rw [TokenStream.unexpected, TokenStream.unexpected, ← same.describe, ← same.position,
      abreast.apart]
    rfl
  back more inside := by
    have moved := TokenStream.index_advance more
    omega

theorem Error.later_zero (e : Error) : e.later 0 = e := by
  cases e <;> rfl

/-! ## Calls -/

inductive Phrase where
  | expression (e : Expr)
  | statement (s : Statement)

/-- What can be asked of a stream, one call behind the other. -/
inductive Call where
  | expression
  | statement

def Call.reader : Call → Parse Phrase
  | expression => Phrase.expression <$> Expr.parse
  | statement => Phrase.statement <$> Statement.parse

theorem Call.orderly (call : Call) : Orderly none call.reader := by
  cases call with
  | expression => exact Expr.orderly_parse.map _
  | statement => exact Statement.orderly_parse.map _

def TokenStream.behind (s : TokenStream) (calls : List Call) : TokenStream :=
  calls.foldl (fun s call => (call.reader.answer s).2) s

variable {α : Type} {reader : Parse α}

theorem fst_answer (reader : Parse α) (s : TokenStream) :
    (reader.answer s).1 = answerOf reader s := by
  unfold Parse.answer answerOf
  cases reader.run s <;> rfl

theorem snd_answer (reader : Parse α) (s : TokenStream) :
    (reader.answer s).2 = stateAfter reader s := by
  unfold Parse.answer stateAfter
  cases reader.run s <;> rfl

theorem TokenStream.behind_cons (s : TokenStream) (call : Call) (calls : List Call) :
    s.behind (call :: calls) = (stateAfter call.reader s).behind calls := by
  rw [← snd_answer]
  rfl

theorem Orderly.index_le (h : Orderly none reader) (s : TokenStream) :
    s.index ≤ (stateAfter reader s).index := by
  refine h.steps (R := fun s t => s.index ≤ t.index) (fun _ => Nat.le_refl _) Nat.le_trans
    (fun s more => ?_) s (shows_none s)
  rw [TokenStream.index_advance more]
  exact Nat.le_succ _

theorem Orderly.standsIn (h : Orderly none reader) (stands : s.StandsIn tokens) :
    (stateAfter reader s).StandsIn tokens :=
  h.steps (R := fun s t => s.StandsIn tokens → t.StandsIn tokens) (fun _ => id)
    (fun f g inside => g (f inside)) (fun _ _ => TokenStream.StandsIn.advance) s (shows_none s)
    stands

theorem TokenStream.index_le_behind (s : TokenStream) (calls : List Call) :
    s.index ≤ (s.behind calls).index := by
  induction calls generalizing s with
  | nil => exact Nat.le_refl _
  | cons call calls ih =>
      rw [behind_cons]
      exact Nat.le_trans (call.orderly.index_le s) (ih _)

theorem TokenStream.StandsIn.behind (h : s.StandsIn tokens) (calls : List Call) :
    (s.behind calls).StandsIn tokens := by
  induction calls generalizing s with
  | nil => exact h
  | cons call calls ih =>
      rw [behind_cons]
      exact ih (call.orderly.standsIn h)

theorem Abreast.answer (h : Abreast tokens tokens' n s t)
    (agree : ∀ i ≤ k, tokens'[i + n]? = tokens[i]?) (orderly : Orderly none reader)
    (inside : (stateAfter reader s).index ≤ k) :
    answerOf reader t = (answerOf reader s).mapError (·.later n) ∧
      Abreast tokens tokens' n (stateAfter reader s) (stateAfter reader t) := by
  have ended := orderly.sideBySide (coupled_abreast agree) (shows_none s) h inside
  unfold answerOf stateAfter
  generalize reader.run s = r, reader.run t = r' at ended ⊢
  cases ended with
  | ok abreast => exact ⟨rfl, abreast⟩
  | error later abreast =>
      subst later
      exact ⟨rfl, abreast⟩

theorem Abreast.behind (h : Abreast tokens tokens' n s t)
    (agree : ∀ i ≤ k, tokens'[i + n]? = tokens[i]?) (calls : List Call)
    (inside : (s.behind calls).index ≤ k) :
    Abreast tokens tokens' n (s.behind calls) (t.behind calls) := by
  induction calls generalizing s t with
  | nil => exact h
  | cons call calls ih =>
      rw [TokenStream.behind_cons] at inside ⊢
      rw [TokenStream.behind_cons]
      have first := Nat.le_trans (TokenStream.index_le_behind _ calls) inside
      exact ih (h.answer agree call.orderly first).2 inside

/-! ## Errors -/

/--
A call that fails misses something at one of the tokens and tells its number, its text and its
place.  Whatever stands behind that token, the call fails in the same way.
-/
theorem syntax_errors_are_local (tokens : List Token) (earlier : List Call) (call : Call)
    {e : Error}
    (failed : (call.reader.answer ((TokenStream.ofTokens tokens).behind earlier)).1 = .error e) :
    ∃ expected k token, (TokenStream.whole tokens)[k]? = some token ∧
      e = .unexpectedToken expected token.describe k token.position ∧
      ∀ other last, other.getLast? = some last → last.kind = .endMarker →
        (∀ i ≤ k, other[i]? = (TokenStream.whole tokens)[i]?) →
        (call.reader.answer ((TokenStream.ofTokens other).behind earlier)).1 = .error e := by
  have begins := TokenStream.standsIn_ofTokens tokens
  rw [fst_answer] at failed
  generalize stands : (TokenStream.ofTokens tokens).behind earlier = s at failed
  obtain ⟨expected, rfl⟩ := call.orderly.unexpected (run_eq_error_iff.mpr ⟨failed, rfl⟩)
  obtain ⟨token, here, same⟩ :=
    (call.orderly.standsIn (stands ▸ begins.behind earlier)).current
  refine ⟨expected, _, token, here, ?_, fun other last final ended agree => ?_⟩
  · rw [← same.describe, ← same.position]
    rfl
  · have others := TokenStream.standsIn_ofTokens other
    rw [TokenStream.whole_of_ended final ended] at others
    have abreast := Abreast.behind (n := 0) ⟨begins, others, by simp⟩ agree earlier
      (stands ▸ call.orderly.index_le s)
    rw [stands] at abreast
    have answer := (abreast.answer agree call.orderly (Nat.le_refl _)).1
    rw [fst_answer, answer, failed]
    exact congrArg Except.error (Error.later_zero _)

/-- A semicolon in place of a name, behind an expression that is none. -/
theorem syntax_errors_are_local_semicolon :
    ∃ tokens e, tokens =
        [⟨.keyword .drop, "DROP", ⟨0, 1, 1⟩⟩, ⟨.keyword .table, "TABLE", ⟨5, 1, 6⟩⟩,
          ⟨.symbol .semicolon, ";", ⟨10, 1, 11⟩⟩] ∧
      (Call.statement.reader.answer ((TokenStream.ofTokens tokens).behind [.expression])).1 =
        .error e ∧
      ∃ expected k token, (TokenStream.whole tokens)[k]? = some token ∧
        e = .unexpectedToken expected token.describe k token.position ∧
        ∀ other last, other.getLast? = some last → last.kind = .endMarker →
          (∀ i ≤ k, other[i]? = (TokenStream.whole tokens)[i]?) →
          (Call.statement.reader.answer ((TokenStream.ofTokens other).behind [.expression])).1 =
            .error e := by
  obtain ⟨e, failed⟩ := exists_error (x := (Call.statement.reader.answer
    ((TokenStream.ofTokens [⟨.keyword .drop, "DROP", ⟨0, 1, 1⟩⟩,
      ⟨.keyword .table, "TABLE", ⟨5, 1, 6⟩⟩,
      ⟨.symbol .semicolon, ";", ⟨10, 1, 11⟩⟩]).behind [.expression])).1) rfl
  exact ⟨_, e, rfl, failed, syntax_errors_are_local _ _ _ failed⟩

end Tabular
