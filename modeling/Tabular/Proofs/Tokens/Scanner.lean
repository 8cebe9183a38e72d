import Tabular.Proofs.Reading.Scanning
import Tabular.Proofs.Tokens.Iteration
import Tabular.Proofs.Tokens.Placement

/-!
# Lexers that count

A scanner is a lexer that keeps an index into its text, and the character there beside it.  A move
adds one to the index even where no character stands, and without a slice of the text there is no
token.  Still no scanner leaves its text: every move is made in front of a character, so that every
slice is in range, and the token is the one that the lexer finds in what is left of the text.
-/

namespace Tabular

open Lexeme

/-! ## Scanners -/

structure Scanner where
  text : List Char
  /-- How many moves have been made. -/
  index : Nat
  /-- The character at the index, if there is one. -/
  current : Option Char
  place : Position
  mode : Mode
  finished : Bool

namespace Scanner

def ofString (source : String) (mode : Mode) : Scanner :=
  ⟨source.toList, 0, source.toList[0]?, .start, mode, false⟩

def reset (s : Scanner) : Scanner :=
  { s with index := 0, current := s.text[0]?, place := .start, finished := false }

def setMode (s : Scanner) (mode : Mode) : Scanner :=
  { s with mode }

/-- Moves on, also at the end of the text. -/
def advance (s : Scanner) : Scanner :=
  { s with
    index := s.index + 1
    current := s.text[s.index + 1]?
    place :=
      match s.current with
      | some c => s.place.advance c
      | none => s.place }

def peek (s : Scanner) : Option Char :=
  s.text[s.index + 1]?

/-- The characters from `start` up to the index, if that is a range of the text. -/
def slice? (s : Scanner) (start : Nat) : Option (List Char) :=
  if start ≤ s.index ∧ s.index ≤ s.text.length then some (s.text.extract start s.index) else none

/--
A bound on the moves that a loop still makes, wherever the index is: a loop goes on in front of a
character only, and each move looks into the text for the next one.
-/
def pending (s : Scanner) : Nat :=
  match s.current with
  | some _ => s.text.length - s.index + 1
  | none => 0

section

variable {s : Scanner} {c : Char}

theorem pending_advance_lt (front : s.current = some c) : s.advance.pending < s.pending := by
  simp only [pending, front, advance]
  split
  · rename_i next
    have inside := (List.getElem?_eq_some_iff.mp next).choose
    omega
  · exact Nat.succ_pos _

/-! ### Loops -/

def readWhile (p : Char → Bool) (seen : List Char) (s : Scanner) : List Char × Scanner :=
  match front : s.current with
  | some c =>
      have := pending_advance_lt front
      if p c then readWhile p (seen ++ [c]) s.advance else (seen, s)
  | none => (seen, s)
termination_by s.pending

theorem pending_readWhile_le (p : Char → Bool) (seen : List Char) (s : Scanner) :
    (s.readWhile p seen).2.pending ≤ s.pending := by
  fun_induction readWhile p seen s with
  | case1 seen s c front less taken ih => omega
  | case2 | case3 => exact Nat.le_refl _

theorem pending_readWhile_lt {p : Char → Bool} (front : s.current = some c) (taken : p c = true)
    (seen : List Char) : (s.readWhile p seen).2.pending < s.pending := by
  have first : s.readWhile p seen = s.advance.readWhile p (seen ++ [c]) := by
    rw [readWhile]
    split <;> simp_all
  rw [first]
  exact Nat.lt_of_le_of_lt (pending_readWhile_le p _ _) (pending_advance_lt front)

/-- A comment goes on to the end of its line. -/
def continuesComment (c : Char) : Bool :=
  c != '\n'

theorem continuesComment_minus : continuesComment '-' = true :=
  rfl

def skipBlank (s : Scanner) : Scanner :=
  match front : s.current with
  | some c =>
      have := pending_advance_lt front
      if Text.isBlank c then skipBlank s.advance
      else if comment : c = '-' ∧ s.peek = some '-' then
        have := pending_readWhile_lt front (comment.1 ▸ continuesComment_minus) []
        skipBlank (s.readWhile continuesComment []).2
      else s
  | none => s
termination_by s.pending

theorem pending_skipBlank_le (s : Scanner) : s.skipBlank.pending ≤ s.pending := by
  fun_induction skipBlank s with
  | case1 s c front less blank ih | case2 s c front _ visible comment less ih => omega
  | case3 | case4 => exact Nat.le_refl _

/-- Reads digits, and a point unless there has been one. -/
def readDigits (literal : List Char) (point : Bool) (s : Scanner) : (List Char × Bool) × Scanner :=
  match front : s.current with
  | some c =>
      have := pending_advance_lt front
      if c.isDigit then readDigits (literal ++ [c]) point s.advance
      else if c = '.' ∧ point = false then readDigits (literal ++ [c]) true s.advance
      else ((literal, point), s)
  | none => ((literal, point), s)
termination_by s.pending

theorem pending_readDigits_le (literal : List Char) (point : Bool) (s : Scanner) :
    (s.readDigits literal point).2.pending ≤ s.pending := by
  fun_induction readDigits literal point s with
  | case1 | case2 => omega
  | case3 | case4 => exact Nat.le_refl _

/-- Reads up to the quote and over it.  A backslash in front of a character takes two moves. -/
def readQuoted (quote : Char) (contents : List Char) (s : Scanner) :
    Except Fault (List Char) × Scanner :=
  match front : s.current with
  | none => if s.mode = .strict then (.error .unterminatedString, s) else (.ok contents, s)
  | some c =>
      have := pending_advance_lt front
      if c = quote then (.ok contents, s.advance)
      else if c = '\\' ∧ s.peek.isSome then
        match front' : s.advance.current with
        | some escaped =>
            have := pending_advance_lt front'
            readQuoted quote (contents ++ [unescape escaped]) s.advance.advance
        | none => readQuoted quote contents s.advance
      else readQuoted quote (contents ++ [c]) s.advance
termination_by s.pending

theorem pending_readQuoted_le (quote : Char) (contents : List Char) (s : Scanner) :
    (s.readQuoted quote contents).2.pending ≤ s.pending := by
  fun_induction readQuoted quote contents s with
  | case1 | case2 => exact Nat.le_refl _
  | case3 contents s front less => exact Nat.le_of_lt less
  | case4 | case5 | case6 => omega

/-! ### Tokens -/

def readSymbol (c : Char) (s : Scanner) : TokenKind × Scanner :=
  let (kind, double) := symbolKind c s.advance.current
  (kind, if double then s.advance.advance else s.advance)

def read (c : Char) (s : Scanner) : Except Fault TokenKind × Scanner :=
  if c = '\'' ∨ c = '"' then
    (s.advance.readQuoted c []).map (·.map fun contents => .text (String.ofList contents)) id
  else if c.isDigit then
    (s.readDigits [] false).map
      (fun (literal, point) => if point then realKind literal else integerKind literal) id
  else if beginsWord c then (s.readWhile continuesWord []).map (fun word => .ok (wordKind word)) id
  else (s.readSymbol c).map .ok id

theorem exists_of_double {next : Option Char} (double : (symbolKind c next).2 = true) :
    ∃ d, next = some d := by
  cases next with
  | some d => exact ⟨d, rfl⟩
  | none =>
      unfold symbolKind at double
      split at double <;> simp at double

theorem pending_read_lt (front : s.current = some c) : (s.read c).2.pending < s.pending := by
  have less := pending_advance_lt front
  unfold read
  split
  · exact Nat.lt_of_le_of_lt (pending_readQuoted_le c [] s.advance) less
  · split
    · rename_i digit
      have first : s.readDigits [] false = s.advance.readDigits [c] false := by
        rw [readDigits]
        split <;> simp_all
      rw [first]
      exact Nat.lt_of_le_of_lt (pending_readDigits_le [c] false s.advance) less
    · split
      · rename_i first
        exact pending_readWhile_lt front (continuesWord_of_beginsWord first) []
      · simp only [readSymbol]
        split
        · rename_i double
          obtain ⟨d, front'⟩ := exists_of_double double
          exact Nat.lt_trans (pending_advance_lt front') less
        · exact less

/--
The token whose text begins at `start` and ends in front of the scanner.  Without a token the slice
is out of range.
-/
def token (start : Nat) (place : Position) (meaning : Except Fault TokenKind) (s : Scanner) :
    Option (Except Error Token × Scanner) :=
  match meaning with
  | .ok kind => do return (.ok ⟨kind, String.ofList (← s.slice? start), place⟩, s)
  | .error fault => some (.error (fault.toError place), s)

def nextToken (s : Scanner) : Option (Except Error Token × Scanner) :=
  let front := s.skipBlank
  match front.current with
  | none => front.token front.index front.place (.ok .endMarker)
  | some c =>
      let (meaning, behind) := front.read c
      behind.token front.index front.place meaning

end

/-! ## The text and the index -/

def rest (s : Scanner) : List Char :=
  s.text.drop s.index

/-- The index lies in the text, and what is kept beside it is what the text says there. -/
structure Coherent (s : Scanner) : Prop where
  bound : s.index ≤ s.text.length
  current : s.current = s.text[s.index]?
  located : Located (s.text.take s.index) s.place

/-- From `s` moves over these characters lead to `s'`, each of them made in front of a character. -/
inductive Passes : Scanner → List Char → Scanner → Prop where
  | done {s : Scanner} : Passes s [] s
  | move {s s' : Scanner} {c : Char} {cs : List Char} :
      s.current = some c → Passes s.advance cs s' → Passes s (c :: cs) s'

variable {s s' s'' : Scanner} {c : Char} {cs ds : List Char}

@[simp] theorem mode_advance (s : Scanner) : s.advance.mode = s.mode :=
  rfl

theorem peek_eq (s : Scanner) : s.peek = s.advance.rest.head? :=
  List.head?_drop.symm

theorem coherent_reset (s : Scanner) : s.reset.Coherent :=
  ⟨Nat.zero_le _, rfl, located_start⟩

theorem place_advance (front : s.current = some c) : s.advance.place = s.place.advance c := by
  simp only [advance, front]

theorem Coherent.current_eq (h : s.Coherent) : s.current = s.rest.head? :=
  h.current.trans List.head?_drop.symm

theorem Coherent.advance (h : s.Coherent) (front : s.current = some c) : s.advance.Coherent where
  bound := by
    rw [h.current] at front
    exact (List.getElem?_eq_some_iff.mp front).choose
  current := rfl
  located := by
    have passed : s.text.take (s.index + 1) = s.text.take s.index ++ [c] := by
      rw [List.take_add_one, ← h.current, front]
      rfl
    rw [place_advance front]
    exact passed ▸ h.located.advance c

theorem Coherent.rest_eq (h : s.Coherent) (front : s.current = some c) :
    s.rest = c :: s.advance.rest := by
  rw [h.current] at front
  obtain ⟨inside, rfl⟩ := List.getElem?_eq_some_iff.mp front
  exact List.drop_eq_getElem_cons inside

theorem Coherent.rest_nil (h : s.Coherent) (ended : s.current = none) : s.rest = [] := by
  rw [h.current_eq] at ended
  exact List.head?_eq_none_iff.mp ended

namespace Passes

theorem coherent (passes : s.Passes cs s') (h : s.Coherent) : s'.Coherent := by
  induction passes with
  | done => exact h
  | move front _ ih => exact ih (h.advance front)

theorem trans (passes : s.Passes cs s') (passes' : s'.Passes ds s'') :
    s.Passes (cs ++ ds) s'' := by
  induction passes with
  | done => exact passes'
  | move front _ ih => exact .move front (ih passes')

theorem eq (passes : s.Passes cs s') :
    s' = { s with
      index := s.index + cs.length, current := s'.current, place := s.place.after cs } := by
  induction passes with
  | done => rfl
  | @move s s' c cs front _ ih =>
      have index : s.advance.index + cs.length = s.index + (c :: cs).length :=
        Nat.add_right_comm s.index 1 cs.length
      rw [ih, place_advance front, index]
      rfl

theorem index_eq (passes : s.Passes cs s') : s'.index = s.index + cs.length := by
  rw [passes.eq]

theorem text_eq (passes : s.Passes cs s') : s'.text = s.text := by
  rw [passes.eq]

theorem rest_eq (passes : s.Passes cs s') (h : s.Coherent) : s.rest = cs ++ s'.rest := by
  induction passes with
  | done => rfl
  | move front _ ih => rw [h.rest_eq front, ih (h.advance front), List.cons_append]

theorem rest_of_split (passes : s.Passes cs s') (h : s.Coherent) (split : cs ++ ds = s.rest) :
    s'.rest = ds := by
  rw [passes.rest_eq h] at split
  exact (List.append_cancel_left split).symm

theorem slice?_eq (passes : s.Passes cs s') (h : s.Coherent) : s'.slice? s.index = some cs := by
  have range : s.index ≤ s'.index ∧ s'.index ≤ s'.text.length :=
    ⟨passes.index_eq ▸ Nat.le_add_right _ _, (passes.coherent h).bound⟩
  have text : s.text.drop s.index = cs ++ s'.rest := passes.rest_eq h
  rw [slice?, if_pos range, List.extract_eq_take_drop, passes.text_eq, text, passes.index_eq,
    Nat.add_sub_cancel_left, List.take_left]

end Passes

/-! ## Loops -/

/-- The run answers `a` and moves from `s` over this text. -/
def Reads {α : Type} (s : Scanner) (run : α × Scanner) (a : α) (text : List Char) : Prop :=
  run.1 = a ∧ s.Passes text run.2

theorem Reads.move {α : Type} {run : α × Scanner} {a : α} (h : s.advance.Reads run a cs)
    (front : s.current = some c) : s.Reads run a (c :: cs) :=
  ⟨h.1, .move front h.2⟩

theorem Reads.map {α β : Type} {run : α × Scanner} {a : α} (h : s.Reads run a cs) (f : α → β) :
    s.Reads (run.map f id) (f a) cs :=
  ⟨congrArg f h.1, h.2⟩

theorem reads_readWhile (h : s.Coherent) (p : Char → Bool) (seen : List Char) :
    s.Reads (s.readWhile p seen) (seen ++ s.rest.takeWhile p) (s.rest.takeWhile p) := by
  fun_induction readWhile p seen s with
  | case1 seen s c front _ taken ih =>
      have others := ih (h.advance front)
      rw [List.append_assoc] at others
      rw [h.rest_eq front, List.takeWhile_cons_of_pos taken]
      exact others.move front
  | case2 seen s c front _ other =>
      rw [h.rest_eq front, List.takeWhile_cons_of_neg other]
      exact ⟨(List.append_nil seen).symm, .done⟩
  | case3 seen s front =>
      rw [h.rest_nil front]
      exact ⟨(List.append_nil seen).symm, .done⟩

/-! ### Blanks -/

theorem splitBlank_true (cs : List Char) :
    splitBlank true cs =
      (cs.takeWhile continuesComment ++ (splitBlank false (cs.dropWhile continuesComment)).1,
        (splitBlank false (cs.dropWhile continuesComment)).2) := by
  induction cs with
  | nil => rfl
  | cons c cs ih =>
      by_cases feed : c = '\n'
      · subst feed
        rfl
      · have inside : continuesComment c = true := bne_iff_ne.mpr feed
        rw [List.takeWhile_cons_of_pos inside, List.dropWhile_cons_of_pos inside]
        simp [splitBlank, bne_iff_ne.mpr feed, ih]

theorem passes_skipBlank (h : s.Coherent) : s.Passes (splitBlank false s.rest).1 s.skipBlank := by
  fun_induction skipBlank s with
  | case1 s c front _ blank ih =>
      have others := ih (h.advance front)
      rw [h.rest_eq front, splitBlank, if_pos blank]
      exact .move front others
  | case2 s c front _ visible comment _ ih =>
      obtain ⟨rfl, next⟩ := comment
      have line := (reads_readWhile h continuesComment []).2
      have others := ih (line.coherent h)
      have rest := h.rest_eq front
      rw [rest, List.takeWhile_cons_of_pos continuesComment_minus] at line
      have ended : (s.readWhile continuesComment []).2.rest =
          s.advance.rest.dropWhile continuesComment := line.rest_of_split h (by simp [rest])
      rw [ended] at others
      rw [peek_eq] at next
      rw [rest, splitBlank, if_neg visible, if_pos ⟨rfl, next⟩, splitBlank_true]
      exact line.trans others
  | case3 s c front _ visible other =>
      rw [peek_eq] at other
      rw [h.rest_eq front, splitBlank, if_neg visible, if_neg other]
      exact .done
  | case4 s front =>
      rw [h.rest_nil front]
      exact .done

/-! ### Numbers -/

/-- Does a point follow the digits? -/
def pointed (cs : List Char) : Bool :=
  (cs.dropWhile Char.isDigit).head? == some '.'

/-- What is left of a number in front, behind its point or not. -/
def numeral : Bool → List Char → List Char
  | true, cs => cs.takeWhile Char.isDigit
  | false, cs => (number cs).text

theorem number_meaning (cs : List Char) :
    (number cs).meaning =
      if pointed cs then realKind (number cs).text else integerKind (number cs).text := by
  unfold number pointed
  split
  · simp_all
  · rename_i other
    rw [if_neg]
    intro point
    obtain ⟨rest, split⟩ := List.head?_eq_some_iff.mp (beq_iff_eq.mp point)
    exact other rest split

theorem numeral_cons_of_digit (digit : c.isDigit = true) (point : Bool) (cs : List Char) :
    numeral point (c :: cs) = c :: numeral point cs ∧ pointed (c :: cs) = pointed cs := by
  refine ⟨?_, by simp [pointed, digit]⟩
  cases point with
  | true => exact List.takeWhile_cons_of_pos digit
  | false =>
      simp only [numeral, number]
      rw [List.takeWhile_cons_of_pos digit, List.dropWhile_cons_of_pos digit]
      split <;> rfl

theorem numeral_cons_of_other (other : ¬c.isDigit = true) {point : Bool}
    (single : ¬(c = '.' ∧ point = false)) (cs : List Char) :
    numeral point (c :: cs) = [] ∧ (point || pointed (c :: cs)) = point := by
  cases point with
  | true => exact ⟨List.takeWhile_cons_of_neg other, rfl⟩
  | false =>
      have noPoint : c ≠ '.' := fun same => single ⟨same, rfl⟩
      simp [numeral, number, pointed, other, noPoint]

theorem reads_readDigits (h : s.Coherent) (literal : List Char) (point : Bool) :
    s.Reads (s.readDigits literal point)
      (literal ++ numeral point s.rest, point || pointed s.rest) (numeral point s.rest) := by
  fun_induction readDigits literal point s with
  | case1 literal point s c front _ digit ih =>
      have others := ih (h.advance front)
      obtain ⟨more, same⟩ := numeral_cons_of_digit digit point s.advance.rest
      rw [List.append_assoc] at others
      rw [h.rest_eq front, more, same]
      exact others.move front
  | case2 literal point s c front _ other isPoint ih =>
      obtain ⟨rfl, rfl⟩ := isPoint
      have others := ih (h.advance front)
      rw [List.append_assoc] at others
      rw [h.rest_eq front]
      exact others.move front
  | case3 literal point s c front _ other single =>
      obtain ⟨nothing, same⟩ := numeral_cons_of_other other single s.advance.rest
      rw [h.rest_eq front, nothing, same, List.append_nil]
      exact ⟨rfl, .done⟩
  | case4 literal point s front =>
      rw [h.rest_nil front]
      cases point <;> exact ⟨by simp [numeral, number, pointed], .done⟩

/-! ### Texts between quotes -/

/-- What a literal stands for; without an end it is at fault, unless the lexer is permissive. -/
def outcome (mode : Mode) (body : Quoted) : Except Fault (List Char) :=
  if body.closed || mode == .permissive then .ok body.contents else .error .unterminatedString

theorem outcome_push (tail : Quoted) (c : Char) (text contents : List Char) (mode : Mode) :
    (outcome mode { tail with contents := c :: tail.contents, text }).map (contents ++ ·) =
      (outcome mode tail).map (contents ++ [c] ++ ·) := by
  simp only [outcome]
  split <;> simp [Except.map]

theorem string_meaning (mode : Mode) (quote : Char) (cs : List Char) :
    (Lexeme.string mode quote cs).meaning =
      (outcome mode (Quoted.read quote cs)).map fun contents => .text (String.ofList contents) := by
  simp only [Lexeme.string, outcome]
  split <;> rfl

theorem read_itself {quote : Char} (other : c ≠ quote) (last : c = '\\' → cs = []) :
    Quoted.read quote (c :: cs) =
      { Quoted.read quote cs with
        contents := c :: (Quoted.read quote cs).contents
        text := c :: (Quoted.read quote cs).text } := by
  by_cases escape : c = '\\'
  · rw [last escape]
    simp [Quoted.read, other]
  · exact read_plain other escape cs

theorem reads_readQuoted (h : s.Coherent) (quote : Char) (contents : List Char) :
    s.Reads (s.readQuoted quote contents)
      ((outcome s.mode (Quoted.read quote s.rest)).map (contents ++ ·))
      (Quoted.read quote s.rest).text := by
  fun_induction readQuoted quote contents s with
  | case1 contents s front strict =>
      rw [h.rest_nil front, strict]
      exact ⟨rfl, .done⟩
  | case2 contents s front other =>
      rw [h.rest_nil front, mode_eq_permissive other]
      exact ⟨congrArg Except.ok (List.append_nil contents).symm, .done⟩
  | case3 contents s front =>
      rw [h.rest_eq front, read_quote]
      exact ⟨congrArg Except.ok (List.append_nil contents).symm, .move front .done⟩
  -- The lookahead has seen the escaped character, so the second move stays in the text too.
  | case4 contents s c front _ other escape d front' _ ih =>
      obtain ⟨rfl, -⟩ := escape
      have others := ih ((h.advance front).advance front')
      rw [h.rest_eq front, (h.advance front).rest_eq front', read_escaped other, outcome_push]
      exact (others.move front').move front
  | case5 contents s c front _ other escape front' ih =>
      have more : s.advance.current.isSome = true := escape.2
      simp [front'] at more
  | case6 contents s c front _ other plain ih =>
      have others := ih (h.advance front)
      have last : c = '\\' → s.advance.rest = [] := by
        intro escape
        refine (h.advance front).rest_nil ?_
        have ended : ¬s.peek.isSome = true := fun more => plain ⟨escape, more⟩
        exact Option.not_isSome_iff_eq_none.mp ended
      rw [h.rest_eq front, read_itself other last, outcome_push]
      exact others.move front

/-! ## Tokens -/

theorem reads_readSymbol (h : s.Coherent) (front : s.current = some c) :
    s.Reads (s.readSymbol c) (symbolKind c s.advance.rest.head?).1
      (Lexeme.symbol c s.advance.rest).text := by
  have second : s.advance.current = s.advance.rest.head? := (h.advance front).current_eq
  simp only [readSymbol, second, Lexeme.symbol]
  cases double : (symbolKind c s.advance.rest.head?).2 with
  | false => exact ⟨rfl, .move front .done⟩
  | true =>
      obtain ⟨d, front'⟩ := exists_of_double (second ▸ double)
      rw [(h.advance front).rest_eq front']
      exact ⟨rfl, .move front (.move front' .done)⟩

theorem reads_read (h : s.Coherent) (front : s.current = some c) :
    s.Reads (s.read c) (Lexeme.read s.mode c s.advance.rest).meaning
      (Lexeme.read s.mode c s.advance.rest).text := by
  have rest := h.rest_eq front
  unfold Scanner.read Lexeme.read
  split
  · have body := (reads_readQuoted (h.advance front) c []).move front
    have whole (answer : Except Fault (List Char)) : answer.map ([] ++ ·) = answer := by
      cases answer <;> rfl
    rw [whole] at body
    rw [string_meaning]
    exact body.map _
  · split
    · rw [number_meaning, ← rest]
      exact (reads_readDigits h [] false).map _
    · split
      · rw [← rest]
        exact (reads_readWhile h continuesWord []).map _
      · exact (reads_readSymbol h front).map _

/-- The lexer that stands where the scanner does. -/
def lexer (s : Scanner) : Lexer :=
  ⟨s.text, s.mode, ⟨s.rest, s.place⟩, s.finished⟩

theorem Passes.lexer_eq (passes : s.Passes cs s') (h : s.Coherent) (split : cs ++ ds = s.rest) :
    s'.lexer = { s.lexer with cursor := ⟨ds, s.place.after cs⟩ } := by
  have left := passes.rest_of_split h split
  rw [lexer, left, passes.eq]
  rfl

theorem token_eq {front : Scanner} {lexeme : Lexeme} (h : front.Coherent)
    (passes : front.Passes lexeme.text s) :
    s.token front.index front.place lexeme.meaning =
      some (Cursor.tokenAt front.place lexeme, s) := by
  unfold token Cursor.tokenAt
  cases lexeme.meaning with
  | error fault => rfl
  | ok kind => simp [passes.slice?_eq h]

theorem text_of_tokenAt {place : Position} {lexeme : Lexeme} {t : Token}
    (made : Cursor.tokenAt place lexeme = .ok t) : t.text.toList = lexeme.text := by
  unfold Cursor.tokenAt at made
  split at made <;> cases made
  exact String.toList_ofList

theorem coherent_skipBlank (h : s.Coherent) : s.skipBlank.Coherent :=
  (passes_skipBlank h).coherent h

theorem lexer_skipBlank (h : s.Coherent) :
    s.skipBlank.lexer = { s.lexer with cursor := s.lexer.cursor.skipBlank } :=
  (passes_skipBlank h).lexer_eq h (splitBlank_append false s.rest)

theorem lexer_nextToken_of_none (h : s.Coherent) (ended : s.skipBlank.current = none) :
    s.lexer.nextToken = (.ok ⟨.endMarker, "", s.skipBlank.place⟩, s.skipBlank.lexer) := by
  have cursor : s.lexer.cursor.skipBlank = ⟨s.skipBlank.rest, s.skipBlank.place⟩ :=
    (congrArg Lexer.cursor (lexer_skipBlank h)).symm
  rw [lexer_skipBlank h]
  simp only [Lexer.nextToken, Cursor.next, cursor, (coherent_skipBlank h).rest_nil ended]

theorem lexer_nextToken_of_some (h : s.Coherent) (front : s.skipBlank.current = some c) :
    s.lexer.nextToken =
      (Cursor.tokenAt s.skipBlank.place
          (Lexeme.read s.skipBlank.mode c s.skipBlank.advance.rest),
        (s.skipBlank.read c).2.lexer) := by
  have here := coherent_skipBlank h
  have rest := here.rest_eq front
  have mode : s.lexer.mode = s.skipBlank.mode := (congrArg Lexer.mode (lexer_skipBlank h)).symm
  have cursor : s.lexer.cursor.skipBlank = ⟨s.skipBlank.rest, s.skipBlank.place⟩ :=
    (congrArg Lexer.cursor (lexer_skipBlank h)).symm
  have behind := (reads_read here front).2.lexer_eq here
    ((read_append s.skipBlank.mode c s.skipBlank.advance.rest).trans rest.symm)
  rw [behind, lexer_skipBlank h]
  simp only [Lexer.nextToken, Cursor.next, cursor, rest, mode]

/-- The scanner gives the token that the lexer gives, and only the end marker takes no move. -/
theorem exists_nextToken (h : s.Coherent) :
    ∃ text s', s.nextToken = some (s.lexer.nextToken.1, s') ∧ s'.lexer = s.lexer.nextToken.2 ∧
      s.Passes text s' ∧
      (∀ t, s.lexer.nextToken.1 = .ok t → ∃ start, s.index ≤ start ∧
        s'.slice? start = some t.text.toList) ∧
      (text = [] → ∃ t, s.lexer.nextToken.1 = .ok t ∧ t.isEnd = true) := by
  have blank := passes_skipBlank h
  have here := coherent_skipBlank h
  have onward : s.index ≤ s.skipBlank.index := blank.index_eq ▸ Nat.le_add_right _ _
  unfold nextToken
  cases front : s.skipBlank.current with
  | none =>
      have empty := Passes.done.slice?_eq here
      rw [lexer_nextToken_of_none h front]
      refine ⟨_, s.skipBlank, ?_, rfl, blank, ?_, fun _ => ⟨_, rfl, rfl⟩⟩
      · simp [front, token, empty]
      · rintro t ⟨⟩
        exact ⟨_, onward, empty⟩
  | some c =>
      obtain ⟨meaning, passes⟩ := reads_read here front
      rw [lexer_nextToken_of_some h front]
      refine ⟨_, (s.skipBlank.read c).2, ?_, rfl, blank.trans passes, fun t made => ?_,
        fun none => ?_⟩
      · rw [← token_eq here passes, ← meaning]
        simp only [front]
      · rw [text_of_tokenAt made]
        exact ⟨_, onward, passes.slice?_eq here⟩
      · exact absurd (List.append_eq_nil_iff.mp none).2 (read_text_ne_nil _ c _)

end Scanner

end Tabular
