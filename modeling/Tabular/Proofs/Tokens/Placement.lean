import Tabular.Proofs.Tokens.Tokenizing

/-!
# The places of tokens

The tokens of a text and the gaps between them make up the text.  A gap holds blanks and comments,
and for a permissive lexer the characters that begin no token.  Every token knows the bytes, the
lines and the characters before it.
-/

namespace Tabular

open Lexeme

/-! ## Places -/

/-- The place behind a text, by its bytes, its lines, and the characters of its last line. -/
structure Located (before : List Char) (p : Position) : Prop where
  offset : p.offset = (String.ofList before).utf8ByteSize
  line : p.line = 1 + before.count '\n'
  column : p.column = 1 + (before.reverse.takeWhile (· ≠ '\n')).length

variable {before gap rest : List Char} {p : Position}

theorem located_start : Located [] Position.start :=
  ⟨rfl, rfl, rfl⟩

theorem utf8ByteSize_snoc (before : List Char) (c : Char) :
    (String.ofList (before ++ [c])).utf8ByteSize =
      (String.ofList before).utf8ByteSize + c.utf8Size := by
  rw [String.ofList_append, String.utf8ByteSize_append, ← String.singleton_eq_ofList,
    String.utf8ByteSize_singleton]

theorem Located.advance (h : Located before p) (c : Char) :
    Located (before ++ [c]) (p.advance c) := by
  by_cases feed : c = '\n'
  · subst feed
    constructor
    · rw [utf8ByteSize_snoc, ← h.offset]
      rfl
    · simp [Position.advance, h.line, Nat.add_assoc]
    · simp [Position.advance]
  · constructor
    · rw [utf8ByteSize_snoc, ← h.offset]
      simp [Position.advance, feed]
    · simp [Position.advance, feed, h.line]
    · simp [Position.advance, feed, h.column, Nat.add_assoc]

theorem Located.after (h : Located before p) (cs : List Char) :
    Located (before ++ cs) (p.after cs) := by
  induction cs generalizing before p with
  | nil => simpa using h
  | cons c cs ih => simpa using ih (h.advance c)

/-! ## Gaps -/

/-- Between tokens, or behind the last of them, stands `gap`, and behind it `rest`. -/
inductive Gap (mode : Mode) : List Char → List Char → Prop where
  | none {rest : List Char} : Gap mode [] rest
  | blank {c : Char} {gap rest : List Char} :
      Text.isBlank c = true → Gap mode gap rest → Gap mode (c :: gap) rest
  /-- A comment reaches to the end of its line. -/
  | comment {body gap rest : List Char} :
      '\n' ∉ body → (∀ c ∈ (gap ++ rest).head?, c = '\n') → Gap mode gap rest →
      Gap mode ('-' :: '-' :: body ++ gap) rest
  /-- Only a permissive lexer passes over what it does not know. -/
  | unrecognized {c : Char} {gap rest : List Char} :
      mode = .permissive → Text.isBlank c = false → ¬BeginsToken c (gap ++ rest).head? →
      Gap mode gap rest → Gap mode (c :: gap) rest

variable {mode : Mode}

theorem Gap.append {gap' whole : List Char} (h : Gap mode gap whole) (same : whole = gap' ++ rest)
    (h' : Gap mode gap' rest) : Gap mode (gap ++ gap') rest := by
  induction h with
  | none => exact h'
  | blank blank _ ih => exact .blank blank (ih same)
  | comment inside ended _ ih =>
      subst same
      rw [List.append_assoc]
      exact .comment inside (by simpa using ended) (ih rfl)
  | unrecognized permissive visible nothing _ ih =>
      subst same
      exact .unrecognized permissive visible (by simpa using nothing) (ih rfl)

theorem gap_splitBlank (mode : Mode) (inComment : Bool) (cs : List Char) :
    ∃ body gap, (splitBlank inComment cs).1 = body ++ gap ∧
      Gap mode gap (splitBlank inComment cs).2 ∧
      if inComment then '\n' ∉ body ∧ ∀ c ∈ (gap ++ (splitBlank inComment cs).2).head?, c = '\n'
      else body = [] := by
  fun_induction splitBlank inComment cs with
  | case1 inComment =>
      refine ⟨[], [], rfl, .none, ?_⟩
      cases inComment <;> simp
  | case2 c rest blank other split ih =>
      rw [split] at ih
      obtain ⟨body, gap, rfl, taken, behind⟩ := ih
      by_cases feed : c = '\n'
      -- The line feed ends the comment, and it is the first of the blanks behind it.
      · subst feed
        obtain rfl := by simpa using behind
        exact ⟨[], '\n' :: gap, rfl, .blank rfl taken, by simp⟩
      · obtain ⟨inside, ended⟩ := by simpa [feed] using behind
        refine ⟨c :: body, gap, rfl, taken, ?_, by simpa using ended⟩
        simpa [Ne.symm feed] using inside
  | case3 c rest visible blank other split ih =>
      rw [split] at ih
      obtain ⟨body, gap, rfl, taken, behind⟩ := ih
      obtain rfl := by simpa using behind
      exact ⟨[], c :: gap, rfl, .blank visible taken, rfl⟩
  | case4 c rest visible comment blank other split ih =>
      rw [split] at ih
      obtain ⟨body, gap, rfl, taken, behind⟩ := ih
      obtain ⟨inside, ended⟩ : '\n' ∉ body ∧ ∀ c ∈ (gap ++ other).head?, c = '\n' := behind
      have whole : body ++ (gap ++ other) = rest := by
        rw [← splitBlank_append true rest, split, List.append_assoc]
      -- The second minus sign is the first character that the comment holds.
      obtain ⟨rfl, next⟩ := comment
      rw [← whole] at next
      cases body with
      | nil => cases ended '-' next
      | cons d body =>
          obtain rfl : d = '-' := by simpa using next
          have later : '\n' ∉ body := fun member => inside (List.mem_cons_of_mem _ member)
          exact ⟨[], '-' :: '-' :: body ++ gap, rfl, .comment later ended taken, rfl⟩
  | case5 =>
      exact ⟨[], [], rfl, .none, rfl⟩

theorem isBlank_of_splitBlank {inComment : Bool} {cs : List Char} {c : Char}
    (front : (splitBlank inComment cs).2 = c :: rest) : Text.isBlank c = false := by
  fun_induction splitBlank inComment cs <;> simp_all

theorem exists_gap (mode : Mode) (cursor : Cursor) (located : Located before cursor.position) :
    ∃ gap, cursor.rest = gap ++ cursor.skipBlank.rest ∧ Gap mode gap cursor.skipBlank.rest ∧
      Located (before ++ gap) cursor.skipBlank.position := by
  obtain ⟨_, gap, split, taken, rfl⟩ := gap_splitBlank mode false cursor.rest
  refine ⟨gap, ?_, taken, ?_⟩
  · calc
      cursor.rest = (splitBlank false cursor.rest).1 ++ (splitBlank false cursor.rest).2 :=
        (splitBlank_append false cursor.rest).symm
      _ = gap ++ cursor.skipBlank.rest := congrArg (· ++ cursor.skipBlank.rest) split
  · have behind := located.after (splitBlank false cursor.rest).1
    rw [show cursor.skipBlank.position = cursor.position.after _ from rfl]
    rwa [split] at behind ⊢

/-! ## Texts in parts -/

/--
Behind `before` stands a text that is made of these tokens, with gaps between them and around
them, and the tokens know their places.
-/
inductive Cut (mode : Mode) : List Char → List Char → List Token → Prop where
  | last {before gap : List Char} {t : Token} :
      Gap mode gap [] → t.kind = .endMarker → t.text = "" → Located (before ++ gap) t.position →
      Cut mode before gap [t]
  | token {before gap rest : List Char} {t : Token} {tokens : List Token} :
      Gap mode gap (t.text.toList ++ rest) → t.kind.Proper → t.text ≠ "" →
      Located (before ++ gap) t.position → Cut mode (before ++ gap ++ t.text.toList) rest tokens →
      Cut mode before (gap ++ t.text.toList ++ rest) (t :: tokens)

theorem Cut.behind_gap {tokens : List Token} (front : Gap mode gap rest)
    (h : Cut mode (before ++ gap) rest tokens) : Cut mode before (gap ++ rest) tokens := by
  cases h with
  | last between ended empty located =>
      rw [List.append_assoc] at located
      exact .last (front.append (List.append_nil _).symm between) ended empty located
  | @token _ gap' rest t tokens between proper given located h =>
      rw [List.append_assoc before] at located h
      rw [← List.append_assoc, ← List.append_assoc]
      exact .token (front.append (List.append_assoc ..) between) proper given located h

theorem cut_of_tokenizes {cursor : Cursor} {tokens : List Token} (h : Tokenizes mode cursor tokens)
    (located : Located before cursor.position) : Cut mode before cursor.rest tokens := by
  induction h generalizing before with
  | @last cursor ended =>
      obtain ⟨gap, text, blank, place⟩ := exists_gap mode cursor located
      rw [ended] at text blank
      rw [text, List.append_nil]
      exact .last blank rfl rfl place
  | @token cursor c cs k tokens front meaning proper h ih =>
      obtain ⟨gap, text, blank, place⟩ := exists_gap mode cursor located
      rw [front, ← read_append mode c cs] at text blank
      have made : (cursor.token (read mode c cs) k).text.toList = (read mode c cs).text :=
        String.toList_ofList
      have given : (cursor.token (read mode c cs) k).text ≠ "" := by
        intro empty
        rw [empty] at made
        exact read_text_ne_nil mode c cs made.symm
      have others := ih (place.after (read mode c cs).text)
      rw [text, ← List.append_assoc]
      rw [← made] at blank others ⊢
      exact .token blank proper given place others
  | @dropped cursor c cs tokens permissive front nothing h ih =>
      obtain ⟨gap, text, blank, place⟩ := exists_gap mode cursor located
      rw [front] at text blank
      have others := ih (place.after [c])
      have unknown : Gap mode [c] cs :=
        .unrecognized permissive (isBlank_of_splitBlank front) nothing .none
      rw [text]
      exact .behind_gap blank (.behind_gap unknown others)

/-! ## What the parts tell -/

variable {tokens : List Token}

theorem Cut.ends (h : Cut mode before rest tokens) :
    ∃ inner last, tokens = inner ++ [last] ∧ (∀ t ∈ inner, t.kind.Proper) ∧
      last.kind = .endMarker ∧ Located (before ++ rest) last.position := by
  induction h with
  | @last before gap t between ended empty located =>
      exact ⟨[], t, rfl, nofun, ended, located⟩
  | @token before gap rest t tokens between proper given located h ih =>
      obtain ⟨inner, last, rfl, others, ended, place⟩ := ih
      refine ⟨t :: inner, last, rfl, List.forall_mem_cons.mpr ⟨proper, others⟩, ended, ?_⟩
      simpa using place

theorem Cut.slices (h : Cut mode before rest tokens) :
    ∀ t ∈ tokens, ∃ front behind, rest = front ++ t.text.toList ++ behind ∧
      Located (before ++ front) t.position := by
  induction h with
  | @last before gap t between ended empty located =>
      refine List.forall_mem_singleton.mpr ⟨gap, [], ?_, located⟩
      simp [empty]
  | @token before gap rest t tokens between proper given located h ih =>
      refine List.forall_mem_cons.mpr ⟨⟨gap, rest, rfl, located⟩, fun u member => ?_⟩
      obtain ⟨front, behind, rfl, place⟩ := ih u member
      exact ⟨gap ++ t.text.toList ++ front, behind, by simp, by simpa using place⟩

theorem Cut.ordered (h : Cut mode before rest tokens) :
    tokens.Pairwise fun t u => t.position.offset < u.position.offset ∧
      t.position.offset + t.text.utf8ByteSize ≤ u.position.offset := by
  induction h with
  | last => exact List.pairwise_singleton _ _
  | @token before gap rest t tokens between proper given located h ih =>
      refine List.pairwise_cons.mpr ⟨fun u member => ?_, ih⟩
      obtain ⟨front, -, -, place⟩ := h.slices u member
      have start := located.offset
      have later := place.offset
      have size : t.text.utf8ByteSize ≠ 0 := by simpa using given
      simp only [String.ofList_append, String.utf8ByteSize_append, String.ofList_toList]
        at start later
      omega

/-! ## Texts -/

/-- What is known of the tokens of a text. -/
structure Placed (mode : Mode) (source : String) (tokens : List Token) : Prop where
  ended : ∃ inner last, tokens = inner ++ [last] ∧ (∀ t ∈ inner, t.kind ≠ .endMarker) ∧
    last.kind = .endMarker ∧ last.position.offset = source.utf8ByteSize
  valid : ∀ t ∈ tokens, ∀ c, t.kind ≠ .invalid c
  sliced : ∀ t ∈ tokens, ∃ before behind, source.toList = before ++ t.text.toList ++ behind ∧
    Located before t.position
  ordered : tokens.Pairwise fun t u => t.position.offset < u.position.offset ∧
    t.position.offset + t.text.utf8ByteSize ≤ u.position.offset
  whole : Cut mode [] source.toList tokens

/-- Reading a text loses nothing of it, and every token knows where it stands. -/
theorem tokenize_places {source : String} {mode : Mode} {tokens : List Token}
    (read : tokenize source mode = .ok tokens) : Placed mode source tokens := by
  have whole : Cut mode [] source.toList tokens :=
    cut_of_tokenizes (tokenize_eq_ok_iff.mp read) located_start
  obtain ⟨inner, last, rfl, proper, ended, place⟩ := whole.ends
  refine ⟨⟨inner, last, rfl, fun t member => (proper t member).1, ended, ?_⟩, ?_, whole.slices,
    whole.ordered, whole⟩
  · simpa using place.offset
  · intro t member
    rcases List.mem_append.mp member with among | final
    · exact (proper t among).2
    · obtain rfl := List.mem_singleton.mp final
      simp [ended]

/-- A line feed in a literal, a comment, and a character that begins no token. -/
theorem tokenize_places_permissive :
    ∃ tokens, tokenize "'a\n' -- ü\n§ b" .permissive = .ok tokens ∧
      Placed .permissive "'a\n' -- ü\n§ b" tokens := by
  have read : (tokenize "'a\n' -- ü\n§ b" .permissive).toOption =
      some [⟨.text "a\n", "'a\n'", ⟨0, 1, 1⟩⟩, ⟨.identifier "b", "b", ⟨14, 3, 3⟩⟩,
        ⟨.endMarker, "", ⟨15, 3, 4⟩⟩] := by decide +kernel
  exact ⟨_, eq_ok_of_toOption read, tokenize_places (eq_ok_of_toOption read)⟩

end Tabular
