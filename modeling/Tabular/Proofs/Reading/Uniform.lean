import Tabular.Proofs.Reading.SideBySide

/-!
# Readers look at kinds

Two streams with the same kinds of tokens ahead may differ in the texts and the places of the
tokens.  A reader does the same on both: it gives the same answer and leaves them alike, or it
misses the same thing at the same token.
-/

namespace Tabular

open Parse

variable {α : Type} {reader : Parse α}

/-! ## Runs side by side -/

/-- The streams stand at the same token, and the same kinds follow. -/
structure TokenStream.Agrees (s t : TokenStream) : Prop where
  index : s.index = t.index
  kinds : s.ahead.map Token.kind = t.ahead.map Token.kind

/-- The same is missing at the same token; what stands there instead may be written differently. -/
inductive SameRefusal : Error → Error → Prop where
  | mk (expected found found' : String) (index : Nat) (position position' : Position) :
      SameRefusal (.unexpectedToken expected found index position)
        (.unexpectedToken expected found' index position')

namespace TokenStream.Agrees

variable {s t : TokenStream}

theorem length_eq (h : s.Agrees t) : s.ahead.length = t.ahead.length := by
  simpa using congrArg List.length h.kinds

theorem kind_eq (h : s.Agrees t) : s.kind = t.kind := by
  have first := congrArg List.head? h.kinds
  unfold kind current
  cases ahead : s.ahead <;> cases ahead' : t.ahead <;> simp_all

theorem advance (h : s.Agrees t) : s.advance.Agrees t.advance := by
  have tails := congrArg List.tail h.kinds
  unfold TokenStream.advance
  cases ahead : s.ahead with
  | nil =>
      have nil : t.ahead = [] := List.length_eq_zero_iff.mp (by simp [← h.length_eq, ahead])
      simpa [nil] using h
  | cons token rest =>
      obtain ⟨token', rest', cons⟩ : ∃ token' rest', t.ahead = token' :: rest' := by
        have length := h.length_eq
        cases ahead' : t.ahead <;> simp_all
      rw [ahead, cons] at tails
      simp only [cons]
      exact ⟨congrArg (· + 1) h.index, tails⟩

end TokenStream.Agrees

/-- Readers see nothing of a token but its kind. -/
theorem coupled_agrees : Coupled TokenStream.Agrees SameRefusal fun _ => True where
  kind agree _ := agree.kind_eq
  advance agree _ _ := agree.advance
  refuse {s t} expected agree _ := by
    rw [TokenStream.unexpected, TokenStream.unexpected, agree.index]
    exact .mk ..
  back _ _ := trivial

/-! ## Whole statements -/

/-- The same answer, or the same thing missing at the same token. -/
inductive SameOutcome : Except Error α → Except Error α → Prop where
  | ok (a : α) : SameOutcome (.ok a) (.ok a)
  | error {e e' : Error} : SameRefusal e e' → SameOutcome (.error e) (.error e')

theorem Orderly.sameOutcome (h : Orderly none reader) {s t : TokenStream} (agree : s.Agrees t) :
    SameOutcome (reader.answer s).1 (reader.answer t).1 := by
  have ended := h.sideBySide coupled_agrees (shows_none s) agree trivial
  unfold Parse.answer
  generalize reader.run s = r, reader.run t = r' at ended ⊢
  cases ended with
  | ok => exact .ok _
  | error refused => exact .error refused

theorem agrees_ofTokens {tokens tokens' : List Token}
    (same : tokens.map Token.kind = tokens'.map Token.kind) :
    (TokenStream.ofTokens tokens).Agrees (TokenStream.ofTokens tokens') := by
  have lasts := congrArg List.getLast? same
  have fronts := congrArg List.dropLast same
  simp only [List.getLast?_map, ← List.map_dropLast] at lasts fronts
  unfold TokenStream.ofTokens
  cases last : tokens.getLast? with
  | none =>
      have none : tokens'.getLast? = none := by
        rw [last] at lasts
        exact Option.map_eq_none_iff.mp lasts.symm
      rw [none]
      exact ⟨rfl, rfl⟩
  | some marker =>
      obtain ⟨marker', some, kind⟩ : ∃ t, tokens'.getLast? = some t ∧ t.kind = marker.kind := by
        simpa [last] using lasts.symm
      have isEnd : marker'.isEnd = marker.isEnd := by rw [Token.isEnd, kind, Token.isEnd]
      rw [some]
      simp only [isEnd]
      refine ⟨rfl, ?_⟩
      split
      · exact fronts
      · exact same

theorem Statement.sameOutcome_ofTokens {tokens tokens' : List Token}
    (same : tokens.map Token.kind = tokens'.map Token.kind) :
    SameOutcome (ofTokens tokens) (ofTokens tokens') :=
  orderly_parse.sameOutcome (agrees_ofTokens same)

end Tabular
