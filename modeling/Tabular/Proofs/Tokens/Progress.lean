import Tabular.Proofs.Tokens.Scanner

/-!
# The way of a scanner through its text

Whatever is done with a scanner, it stands in its text where the lexer stands, and keeps the
character and the place that belong there.  Every token but the end marker takes a move, and so does
every fault.  So an iteration takes at most one item more than the text has characters.
-/

namespace Tabular

namespace Scanner

/-! ## Iteration -/

def next (s : Scanner) : Option (Option (Except Error Token) × Scanner) :=
  if s.finished then some (none, s)
  else do
    let (answer, behind) ← s.nextToken
    return (some answer, { behind with finished := behind.finished || Cursor.isLast answer })

section

variable {s s' : Scanner} {start : Nat} {place : Position} {meaning : Except Fault TokenKind}
  {answer : Except Error Token} {item : Option (Except Error Token)}

theorem eq_of_token (made : s.token start place meaning = some (answer, s')) : s' = s := by
  unfold token at made
  cases meaning with
  | error fault =>
      cases made
      rfl
  | ok kind =>
      obtain ⟨text, -, made⟩ := Option.bind_eq_some_iff.mp made
      cases made
      rfl

theorem pending_nextToken_lt (read : s.nextToken = some (answer, s'))
    (more : Cursor.isLast answer = false) : s'.pending < s.pending := by
  have skipped := pending_skipBlank_le s
  unfold nextToken at read
  cases front : s.skipBlank.current with
  | none =>
      simp only [front, token] at read
      obtain ⟨text, -, made⟩ := Option.bind_eq_some_iff.mp read
      cases made
      cases more
  | some c =>
      simp only [front] at read
      rw [eq_of_token read]
      exact Nat.lt_of_lt_of_le (pending_read_lt front) skipped

/-- A bound on the items that the iteration still yields. -/
def waiting (s : Scanner) : Nat :=
  if s.finished then 0 else s.pending + 1

theorem waiting_next_lt (taken : s.next = some (some answer, s')) : s'.waiting < s.waiting := by
  unfold next at taken
  split at taken
  · cases taken
  · rename_i running
    obtain ⟨⟨answer, behind⟩, read, taken⟩ := Option.bind_eq_some_iff.mp taken
    cases taken
    cases last : Cursor.isLast answer with
    | true => simp [waiting, running]
    | false =>
        have less := pending_nextToken_lt read last
        simp only [waiting, running, Bool.or_false, Bool.false_eq_true, if_false]
        split
        · exact Nat.succ_pos _
        · exact Nat.succ_lt_succ less

end

def remaining (s : Scanner) : Option (List (Except Error Token) × Scanner) :=
  match taken : s.next with
  | none => none
  | some (none, behind) => some ([], behind)
  | some (some item, behind) =>
      have := waiting_next_lt taken
      behind.remaining.map fun (items, last) => (item :: items, last)
termination_by s.waiting

/-- What the loop over an iteration comes to. -/
structure Taken where
  answer : Except Error (List Token)
  /-- How many items the loop has taken from the iteration, dropped ones and a fault among them. -/
  items : Nat

def validTokens (tokens : List Token) (items : Nat) (s : Scanner) : Option (Taken × Scanner) :=
  match taken : s.next with
  | none => none
  | some (none, behind) => some (⟨.ok tokens, items⟩, behind)
  | some (some (.error e), behind) => some (⟨.error e, items + 1⟩, behind)
  | some (some (.ok t), behind) =>
      have := waiting_next_lt taken
      match t.kind, s.mode with
      | .invalid c, .strict =>
          some (⟨.error ((Fault.unrecognizedCharacter c).toError t.position), items + 1⟩, behind)
      | .invalid _, .permissive => behind.validTokens tokens (items + 1)
      | _, _ => behind.validTokens (tokens ++ [t]) (items + 1)
termination_by s.waiting

def tokenize (s : Scanner) : Option (Taken × Scanner) :=
  s.reset.validTokens [] 0

def after (s : Scanner) : Lexer.Step → Option Scanner
  | .next => s.next.map Prod.snd
  | .nextToken => s.nextToken.map Prod.snd
  | .remaining => s.remaining.map Prod.snd
  | .setMode mode => some (s.setMode mode)
  | .reset => some s.reset
  | .tokenize => s.tokenize.map Prod.snd

def behind (s : Scanner) (steps : List Lexer.Step) : Option Scanner :=
  steps.foldlM after s

variable {s s' : Scanner} {l : Lexer}

/-- The scanner stands in its text where the lexer stands. -/
structure StandsAt (s : Scanner) (l : Lexer) : Prop where
  coherent : s.Coherent
  same : s.lexer = l

theorem standsAt_reset (h : s.StandsAt l) : s.reset.StandsAt l.reset :=
  ⟨coherent_reset s, congrArg Lexer.reset h.same⟩

theorem standsAt_setMode (h : s.StandsAt l) (mode : Mode) :
    (s.setMode mode).StandsAt (l.setMode mode) :=
  ⟨⟨h.coherent.bound, h.coherent.current, h.coherent.located⟩, congrArg (·.setMode mode) h.same⟩

theorem standsAt_ofString (source : String) (mode : Mode) :
    (ofString source mode).StandsAt (Lexer.ofString source mode) :=
  ⟨coherent_reset (ofString source mode), rfl⟩

namespace StandsAt

theorem mode_eq (h : s.StandsAt l) : s.mode = l.mode :=
  congrArg Lexer.mode h.same

theorem nextToken (h : s.StandsAt l) :
    ∃ s', s.nextToken = some (l.nextToken.1, s') ∧ s'.StandsAt l.nextToken.2 := by
  obtain ⟨coherent, rfl⟩ := h
  obtain ⟨text, s', read, same, passes, -, -⟩ := exists_nextToken coherent
  exact ⟨s', read, passes.coherent coherent, same⟩

theorem next (h : s.StandsAt l) :
    ∃ s', s.next = some (l.next.1, s') ∧ s'.StandsAt l.next.2 := by
  have same : s.finished = l.finished := congrArg Lexer.finished h.same
  rw [Scanner.next, Lexer.next, same]
  cases finished : l.finished with
  | true => exact ⟨s, rfl, h⟩
  | false =>
      obtain ⟨s', read, ⟨bound, current, located⟩, rest⟩ := h.nextToken
      have running : s'.finished = false := (congrArg Lexer.finished rest).trans finished
      refine ⟨{ s' with finished := s'.finished || Cursor.isLast l.nextToken.1 }, ?_,
        ⟨bound, current, located⟩, ?_⟩
      · simp [read]
      · rw [running, Bool.false_or]
        exact congrArg (fun l' : Lexer => { l' with finished := Cursor.isLast l.nextToken.1 }) rest

theorem of_next {item : Option (Except Error Token)} (h : s.StandsAt l)
    (taken : s.next = some (item, s')) : ∃ moved, l.next = (item, moved) ∧ s'.StandsAt moved := by
  obtain ⟨s'', read, stands⟩ := h.next
  cases taken.symm.trans read
  exact ⟨l.next.2, rfl, stands⟩

theorem next_ne_none (h : s.StandsAt l) : s.next ≠ none := by
  obtain ⟨s', read, -⟩ := h.next
  simp [read]

theorem remaining (h : s.StandsAt l) :
    ∃ s', s.remaining = some (l.remaining.1, s') ∧ s'.StandsAt l.remaining.2 := by
  fun_induction Scanner.remaining s generalizing l with
  | case1 s taken => exact absurd taken h.next_ne_none
  | case2 s behind taken =>
      obtain ⟨moved, next, stands⟩ := h.of_next taken
      rw [Lexer.remaining_of_end next]
      exact ⟨behind, rfl, stands⟩
  | case3 s item behind taken _ ih =>
      obtain ⟨moved, next, stands⟩ := h.of_next taken
      obtain ⟨last, others, stands'⟩ := ih stands
      rw [Lexer.remaining_of_next next, others]
      exact ⟨last, rfl, stands'⟩

/-- The loop takes no more items than the iteration yields, and no fewer than it gives tokens. -/
theorem validTokens (h : s.StandsAt l) (tokens : List Token) (items : Nat) :
    ∃ total s', s.validTokens tokens items = some (⟨l.validTokens.1.map (tokens ++ ·), total⟩, s') ∧
      s'.StandsAt l.validTokens.2 ∧ total ≤ items + l.pending ∧
      ∀ found, l.validTokens.1 = .ok found → items + found.length ≤ total := by
  -- Along the loop of the scanner; what is pending for the lexer pays for each item taken.
  fun_induction Scanner.validTokens tokens items s generalizing l with
  | case1 tokens items s taken => exact absurd taken h.next_ne_none
  | case2 tokens items s behind taken =>
      obtain ⟨moved, next, stands⟩ := h.of_next taken
      rw [Lexer.validTokens_of_end next]
      refine ⟨items, behind, by simp [Except.map], stands, Nat.le_add_right _ _, ?_⟩
      rintro found ⟨⟩
      exact Nat.le_refl _
  | case3 tokens items s e behind taken =>
      obtain ⟨moved, next, stands⟩ := h.of_next taken
      have less := Lexer.pending_next_lt next
      rw [Lexer.validTokens_of_fault next]
      exact ⟨items + 1, behind, rfl, stands, by omega, nofun⟩
  | case4 tokens items s t behind taken _ c strict kind =>
      obtain ⟨moved, next, stands⟩ := h.of_next taken
      have less := Lexer.pending_next_lt next
      rw [Lexer.validTokens_of_refused next kind (h.mode_eq ▸ strict)]
      exact ⟨items + 1, behind, rfl, stands, by omega, nofun⟩
  | case5 tokens items s t behind taken _ c permissive kind ih =>
      obtain ⟨moved, next, stands⟩ := h.of_next taken
      have less := Lexer.pending_next_lt next
      obtain ⟨total, last, others, stands', bound, count⟩ := ih stands
      rw [Lexer.validTokens_of_dropped next kind (h.mode_eq ▸ permissive)]
      refine ⟨total, last, others, stands', by omega, fun found valid => ?_⟩
      have := count found valid
      omega
  | case6 tokens items s t behind taken _ noRefusal noDrop ih =>
      obtain ⟨moved, next, stands⟩ := h.of_next taken
      have less := Lexer.pending_next_lt next
      obtain ⟨total, last, others, stands', bound, count⟩ := ih stands
      have valid (c : Char) : t.kind ≠ .invalid c := by
        intro kind
        cases mode : s.mode with
        | strict => exact noRefusal c kind mode
        | permissive => exact noDrop c kind mode
      rw [Lexer.validTokens_of_valid next valid]
      refine ⟨total, last, ?_, stands', by omega, fun found read => ?_⟩
      · rw [others]
        cases moved.validTokens.1 <;> simp [Except.map]
      · obtain ⟨behind, rest, rfl⟩ := map_eq_ok_iff.mp read
        have := count behind rest
        simp only [List.length_cons]
        omega

end StandsAt

theorem StandsAt.tokenize (h : s.StandsAt l) :
    ∃ total s', s.tokenize = some (⟨l.tokenize.1, total⟩, s') ∧ s'.StandsAt l.tokenize.2 ∧
      total ≤ l.source.length + 1 ∧
      ∀ tokens, l.tokenize.1 = .ok tokens → tokens.length ≤ total := by
  obtain ⟨total, s', read, stands, bound, count⟩ := (standsAt_reset h).validTokens [] 0
  refine ⟨total, s', ?_, stands, ?_, fun tokens valid => ?_⟩
  · rw [Scanner.tokenize, read, Lexer.tokenize]
    cases l.reset.validTokens.1 <;> rfl
  · rwa [Nat.zero_add] at bound
  · simpa using count tokens valid

/-! ## Steps -/

theorem StandsAt.after (h : s.StandsAt l) (step : Lexer.Step) :
    ∃ s', s.after step = some s' ∧ s'.StandsAt (step.run l).2 := by
  cases step with
  | next =>
      obtain ⟨s', read, stands⟩ := h.next
      exact ⟨s', congrArg (Option.map Prod.snd) read, stands⟩
  | nextToken =>
      obtain ⟨s', read, stands⟩ := h.nextToken
      exact ⟨s', congrArg (Option.map Prod.snd) read, stands⟩
  | remaining =>
      obtain ⟨s', read, stands⟩ := h.remaining
      exact ⟨s', congrArg (Option.map Prod.snd) read, stands⟩
  | setMode mode => exact ⟨_, rfl, standsAt_setMode h mode⟩
  | reset => exact ⟨_, rfl, standsAt_reset h⟩
  | tokenize =>
      obtain ⟨total, s', read, stands, -⟩ := h.tokenize
      exact ⟨s', congrArg (Option.map Prod.snd) read, stands⟩

theorem StandsAt.behind (h : s.StandsAt l) (steps : List Lexer.Step) :
    ∃ s', s.behind steps = some s' ∧ s'.StandsAt (l.behind steps) := by
  induction steps generalizing s l with
  | nil => exact ⟨s, rfl, h⟩
  | cons step steps ih =>
      obtain ⟨s', first, stands⟩ := h.after step
      obtain ⟨s'', others, stands'⟩ := ih stands
      refine ⟨s'', ?_, stands'⟩
      rw [Scanner.behind, List.foldlM_cons, first]
      exact others

end Scanner

/--
Whatever has been done with a scanner, no slice has been out of range.  It stands in its text, and
keeps the character at its index and the place of that character.  It finds the token that the lexer
finds, or the same fault; every move over it is made in front of a character, the text of a token is
a slice, and all but the end marker take a move.  So reading the whole text takes at most one item
more than it has characters.
-/
theorem scanner_stays_in_text (source : String) (mode : Mode) (steps : List Lexer.Step) :
    let l := (Lexer.ofString source mode).behind steps
    ∃ s, (Scanner.ofString source mode).behind steps = some s ∧
      s.Coherent ∧ s.text = source.toList ∧ s.lexer = l ∧
      (∃ passed s', s.nextToken = some (l.nextToken.1, s') ∧ s.Passes passed s' ∧ s'.Coherent ∧
        (∀ t, l.nextToken.1 = .ok t → ∃ start, s.index ≤ start ∧
          s'.slice? start = some t.text.toList) ∧
        ((∃ t, l.nextToken.1 = .ok t ∧ t.isEnd = true) ∨ s.index < s'.index)) ∧
      ∃ total s', s.tokenize = some (⟨l.tokenize.1, total⟩, s') ∧ s'.Coherent ∧
        total ≤ source.length + 1 ∧
        ∀ tokens, l.tokenize.1 = .ok tokens → tokens.length ≤ total := by
  intro l
  obtain ⟨s, moved, stands⟩ := (Scanner.standsAt_ofString source mode).behind steps
  have text : l.source = source.toList :=
    congrArg Lexer.source (Lexer.reset_behind steps (Lexer.ofString source mode))
  obtain ⟨total, last, whole, stands', bound, count⟩ := stands.tokenize
  obtain ⟨coherent, same⟩ := stands
  obtain ⟨passed, s', read, -, passes, slices, none⟩ := Scanner.exists_nextToken coherent
  rw [same] at read slices none
  refine ⟨s, moved, coherent, (congrArg Lexer.source same).trans text, same, ?_, ?_⟩
  · refine ⟨passed, s', read, passes, passes.coherent coherent, slices, ?_⟩
    cases passed with
    | nil => exact .inl (none rfl)
    | cons c cs =>
        rw [passes.index_eq]
        exact .inr (Nat.lt_add_of_pos_right (Nat.succ_pos _))
  · rw [text, String.length_toList] at bound
    exact ⟨total, last, whole, stands'.coherent, bound, count⟩

end Tabular
