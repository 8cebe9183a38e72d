import Tabular.Proofs.Reading.Scanning
import Tabular.Proofs.Tokens.Placement

/-!
# Tokens that stand apart

What fills the space between tokens, and what may stand behind a token without changing it.  A token
is read the same in front of a blank, in front of the end of the text, and in front of whatever
begins as the text behind it did.
-/

namespace Tabular

open Lexeme

variable {c : Char} {cs gap rest rest' : List Char} {k : TokenKind}

/-! ## Fillers -/

theorem Gap.filler (h : Gap .strict gap rest) (more : rest ≠ []) (noFeed : rest.head? ≠ some '\n') :
    Filler gap := by
  induction h with
  | none => exact .nil
  | blank blank _ ih => exact .blank blank (ih more noFeed)
  | @comment body gap rest inside ended _ ih =>
      -- The comment has ended, and only a line feed ends one.
      cases ih more noFeed with
      | nil =>
          obtain ⟨c, rest, rfl⟩ := List.exists_cons_of_ne_nil more
          obtain rfl := ended c rfl
          exact (noFeed rfl).elim
      | blank blank filler =>
          obtain rfl := ended _ rfl
          exact .comment inside filler
      | comment => cases ended '-' rfl
  | unrecognized permissive => cases permissive

theorem filler_of_splitBlank (front : (splitBlank false cs).2 = c :: rest) :
    Filler (splitBlank false cs).1 := by
  obtain ⟨_, gap, split, taken, rfl⟩ := gap_splitBlank .strict false cs
  rw [front] at taken
  rw [split]
  refine taken.filler (List.cons_ne_nil c rest) ?_
  rintro ⟨⟩
  cases isBlank_of_splitBlank front

theorem splitBlank_of_front {inComment : Bool} (front : (splitBlank inComment cs).2 = c :: rest) :
    splitBlank false (c :: rest) = ([], c :: rest) := by
  fun_induction splitBlank inComment cs with
  | case5 => simp_all [splitBlank]
  | _ => simp_all

/-! ## Tokens behind which other text stands -/

/-- In place of `rest` may stand the end of the text, a blank, or what begins in the same way. -/
def Detached (rest rest' : List Char) : Prop :=
  ∀ c ∈ rest'.head?, Text.isBlank c = true ∨ rest.head? = some c

theorem detached_of_blank (h : ∀ c ∈ rest'.head?, Text.isBlank c = true) : Detached rest rest' :=
  fun c next => .inl (h c next)

theorem Stops.detached {p : Char → Bool} (stop : Stops p rest) (apart : Detached rest rest')
    (noBlank : ∀ c, p c = true → Text.isBlank c = false) : Stops p rest' := by
  intro c next
  rcases apart c next with blank | same
  · cases inside : p c with
    | false => rfl
    | true => cases (noBlank c inside).symm.trans blank
  · exact stop c same

theorem Detached.head?_ne (apart : Detached rest rest') {d : Char}
    (visible : Text.isBlank d = false) (other : rest.head? ≠ some d) : rest'.head? ≠ some d := by
  intro next
  rcases apart d next with blank | same
  · cases visible.symm.trans blank
  · exact other same

theorem not_isBlank_of_isDigit (h : c.isDigit = true) : Text.isBlank c = false := by
  have range := toNat_of_isDigit h
  exact isBlank_of_printable (by omega) (by omega)

theorem not_isBlank_of_continuesWord (h : continuesWord c = true) : Text.isBlank c = false := by
  simp only [continuesWord, Char.isAlphanum, Bool.or_eq_true] at h
  rcases h with (letter | digit) | score
  · have range := toNat_of_beginsWord (c := c) (by simp [beginsWord, letter])
    exact isBlank_of_printable (by omega) (by omega)
  · exact not_isBlank_of_isDigit digit
  · have range := toNat_of_beginsWord (c := c) (by simp [beginsWord, score])
    exact isBlank_of_printable (by omega) (by omega)

/-! ### Strings -/

theorem Quoted.read_detached {quote : Char} (closed : (Quoted.read quote cs).closed = true)
    (rest' : List Char) :
    Quoted.read quote ((Quoted.read quote cs).text ++ rest') =
      { Quoted.read quote cs with rest := rest' } := by
  fun_induction Quoted.read quote cs with
  | case1 => cases closed
  | case2 => exact read_quote rest'
  | case3 => cases closed
  | case4 => exact read_quote rest'
  | case5 d rest tail other ih =>
      change Quoted.read quote ('\\' :: d :: (tail.text ++ rest')) = _
      rw [read_escaped other, ih closed]
  | case6 c d rest other escape tail ih =>
      change Quoted.read quote (c :: (tail.text ++ rest')) = _
      rw [read_plain other escape, ih closed]

/-! ### All tokens -/

variable {tail : List Char}

theorem string_detached {quote : Char} (meaning : (Lexeme.string .strict quote cs).meaning = .ok k)
    (first : (Lexeme.string .strict quote cs).text = quote :: tail) (rest' : List Char) :
    Lexeme.string .strict quote (tail ++ rest') =
      { Lexeme.string .strict quote cs with rest := rest' } := by
  have closed : (Quoted.read quote cs).closed = true := by
    cases closed : (Quoted.read quote cs).closed with
    | true => rfl
    | false => simp [Lexeme.string, closed] at meaning
  obtain rfl : (Quoted.read quote cs).text = tail := (List.cons.inj first).2
  simp only [Lexeme.string, Quoted.read_detached closed]

theorem number_detached (digit : c.isDigit = true)
    (first : (Lexeme.number (c :: cs)).text = c :: tail)
    (apart : Detached (Lexeme.number (c :: cs)).rest rest') :
    Lexeme.number (c :: (tail ++ rest')) = { Lexeme.number (c :: cs) with rest := rest' } := by
  rw [← List.cons_append, ← first]
  rcases number_cases digit cs with ⟨whole, fraction, rest, split, given, h, h', stop⟩ |
    ⟨digits, rest, split, given, h, stop, noPoint⟩
  · rw [split, number_decimal given h h' stop] at apart ⊢
    exact number_decimal given h h' (stop.detached apart fun _ => not_isBlank_of_isDigit)
  · rw [split, number_digits h stop noPoint] at apart ⊢
    exact number_digits h (stop.detached apart fun _ => not_isBlank_of_isDigit)
      (apart.head?_ne (by decide) noPoint)

theorem word_detached (first : (Lexeme.word (c :: cs)).text = c :: tail)
    (apart : Detached (Lexeme.word (c :: cs)).rest rest') :
    Lexeme.word (c :: (tail ++ rest')) = { Lexeme.word (c :: cs) with rest := rest' } := by
  have inside : ∀ d ∈ (c :: cs).takeWhile continuesWord, continuesWord d = true :=
    List.all_eq_true.mp List.all_takeWhile
  have stop : Stops continuesWord rest' :=
    (stops_dropWhile continuesWord (c :: cs)).detached apart fun _ => not_isBlank_of_continuesWord
  rw [← List.cons_append, ← first]
  unfold Lexeme.word
  rw [takeWhile_run inside stop, dropWhile_run inside stop]

/-- Only the equals sign and the greater-than sign make a sign longer. -/
theorem symbolKind_of_other {next : Option Char} (equal : next ≠ some '=')
    (greater : next ≠ some '>') : symbolKind c next = symbolKind c none := by
  simp only [symbolKind, equal, greater, reduceCtorEq, if_false]

theorem symbolKind_none : (symbolKind c none).2 = false := by
  unfold symbolKind
  split <;> rfl

theorem symbolKind_of_single {next : Option Char} (single : (symbolKind c next).2 = false) :
    symbolKind c next = symbolKind c none := by
  by_cases equal : next = some '='
  · subst equal
    unfold symbolKind at *
    split at single <;> simp_all
  · by_cases greater : next = some '>'
    · subst greater
      unfold symbolKind at *
      split at single <;> simp_all
    · exact symbolKind_of_other equal greater

theorem symbolKind_detached (single : (symbolKind c rest.head?).2 = false)
    (apart : Detached rest rest') : symbolKind c rest'.head? = symbolKind c rest.head? := by
  rw [symbolKind_of_single single]
  cases next : rest'.head? with
  | none => rfl
  | some d =>
      rcases apart d next with blank | same
      · refine symbolKind_of_other ?_ ?_
        · rintro ⟨⟩
          cases blank
        · rintro ⟨⟩
          cases blank
      · rw [← same]
        exact symbolKind_of_single single

theorem symbol_detached (first : (Lexeme.symbol c cs).text = c :: tail)
    (apart : Detached (Lexeme.symbol c cs).rest rest') :
    Lexeme.symbol c (tail ++ rest') = { Lexeme.symbol c cs with rest := rest' } := by
  obtain rfl : cs.take (if (symbolKind c cs.head?).2 then 1 else 0) = tail :=
    (List.cons.inj first).2
  cases double : (symbolKind c cs.head?).2 with
  | false =>
      have same : symbolKind c rest'.head? = symbolKind c cs.head? := by
        refine symbolKind_detached double ?_
        simpa [Lexeme.symbol, double] using apart
      simp [Lexeme.symbol, same, double]
  | true =>
      cases cs with
      | nil => cases symbolKind_none.symm.trans double
      | cons d cs =>
          rw [List.head?_cons] at double
          simp [Lexeme.symbol, double]

theorem exists_read_text (mode : Mode) (c : Char) (cs : List Char) :
    ∃ tail, (read mode c cs).text = c :: tail := by
  have whole := read_append mode c cs
  obtain ⟨d, tail, text⟩ := List.exists_cons_of_ne_nil (read_text_ne_nil mode c cs)
  rw [text, List.cons_append] at whole
  obtain rfl := (List.cons.inj whole).1
  exact ⟨tail, text⟩

/-- A token is read from its own text as well, if what stands behind it is detached. -/
theorem read_detached (meaning : (read .strict c cs).meaning = .ok k)
    (first : (read .strict c cs).text = c :: tail)
    (apart : Detached (read .strict c cs).rest rest') :
    read .strict c (tail ++ rest') = { read .strict c cs with rest := rest' } := by
  revert meaning first apart
  refine read_by_first
    (motive := fun r => (r cs).meaning = .ok k → (r cs).text = c :: tail →
      Detached (r cs).rest rest' → r (tail ++ rest') = { r cs with rest := rest' })
    .strict c ?_ ?_ ?_ ?_
  · exact fun _ meaning first _ => string_detached meaning first rest'
  · exact fun digit _ => number_detached digit
  · exact fun _ _ => word_detached
  · exact fun _ _ _ _ => symbol_detached

theorem splitBlank_eq_self_iff :
    splitBlank false (c :: cs) = ([], c :: cs) ↔
      Text.isBlank c = false ∧ ¬(c = '-' ∧ cs.head? = some '-') := by
  rw [splitBlank]
  split
  · simp_all
  · split <;> simp_all

theorem splitBlank_detached (visible : splitBlank false (c :: cs) = ([], c :: cs))
    (first : (read .strict c cs).text = c :: tail)
    (apart : Detached (read .strict c cs).rest rest') :
    splitBlank false (c :: (tail ++ rest')) = ([], c :: (tail ++ rest')) := by
  rw [splitBlank_eq_self_iff] at visible ⊢
  refine ⟨visible.1, ?_⟩
  rintro ⟨rfl, comment⟩
  have sign : read .strict '-' cs = ⟨['-'], cs, .ok (.symbol .minus)⟩ := rfl
  rw [sign] at first apart
  obtain rfl : [] = tail := (List.cons.inj first).2
  exact apart.head?_ne (by decide) (fun next => visible.2 ⟨rfl, next⟩) comment

end Tabular
