import Tabular.Proofs.Grammar.Statement
import Tabular.Proofs.Reading.Stream

/-!
# Recognition of languages

A reader recognizes a language when it succeeds exactly on its phrases: what it passes over is a
phrase of the value it gives, and every phrase with a proper token behind it is read.  Readers look
one token ahead, so each comes with the tokens that may follow its phrases.
-/

namespace Tabular.Parse

open TokenStream

variable {α β : Type}

/-! ## Elementary readers -/

@[simp] theorem run_kind (s : TokenStream) : kind.run s = .ok s.kind s := rfl

@[simp] theorem run_advance (s : TokenStream) : advance.run s = .ok () s.advance := rfl

@[simp] theorem run_refuse (expected : String) (s : TokenStream) :
    (refuse expected : Parse α).run s = .error (s.unexpected expected) s := rfl

theorem run_accept (k : TokenKind) (s : TokenStream) :
    (accept k).run s = if s.kind = k then .ok true s.advance else .ok false s := by
  simp only [accept, EStateM.run_bind, run_kind]
  split <;> rfl

theorem run_expect (k : TokenKind) (s : TokenStream) :
    (expect k).run s =
      if s.kind = k then .ok () s.advance else .error (s.unexpected k.describe) s := by
  simp only [expect, EStateM.run_bind, run_kind]
  split <;> rfl

theorem run_identifier_eq_ok_iff {what name : String} {s t : TokenStream} :
    (identifier what).run s = .ok name t ↔ s.kind = .identifier name ∧ t = s.advance := by
  simp only [identifier, EStateM.run_bind, run_kind]
  split
  · rename_i found kind
    simp only [EStateM.run_bind, run_advance, EStateM.run_pure, kind]
    grind
  · rename_i other
    simp only [run_refuse, reduceCtorEq, false_iff]
    exact fun h => other name h.1

theorem answer_eq_ok_iff {reader : Parse α} {s : TokenStream} {a : α} :
    (reader.answer s).1 = .ok a ↔ ∃ t, reader.run s = .ok a t := by
  rw [answer]
  cases reader.run s <;> simp

/-! ## Recognition -/

structure Recognizes (reader : Parse α) (language : List TokenKind → α → Prop)
    (follow : TokenKind → Prop) : Prop where
  sound {s t : TokenStream} {a : α} :
    reader.run s = .ok a t → ∃ kinds, s.Passes kinds t ∧ language kinds a
  complete {s t : TokenStream} {kinds : List TokenKind} {a : α} :
    s.Passes kinds t → language kinds a → follow t.kind → reader.run s = .ok a t

theorem Recognizes.congr {reader : Parse α} {language language' : List TokenKind → α → Prop}
    {follow follow' : TokenKind → Prop} (h : Recognizes reader language follow)
    (same : ∀ kinds a, language kinds a ↔ language' kinds a) (fewer : ∀ k, follow' k → follow k) :
    Recognizes reader language' follow' where
  sound run := by
    obtain ⟨kinds, passes, phrase⟩ := h.sound run
    exact ⟨kinds, passes, (same kinds _).mp phrase⟩
  complete passes phrase next := h.complete passes ((same _ _).mpr phrase) (fewer _ next)

theorem recognizes_identifier (what : String) :
    Recognizes (identifier what) Grammar.IsName fun _ => True where
  sound run := by
    obtain ⟨kind, rfl⟩ := run_identifier_eq_ok_iff.mp run
    exact ⟨_, passes_one kind (by simp), rfl⟩
  complete passes phrase _ := by
    subst phrase
    exact run_identifier_eq_ok_iff.mpr ⟨passes.2.1, passes.2.2.symm⟩

theorem run_expect_eq_ok_iff {k : TokenKind} {s t : TokenStream} (hk : k ≠ .endMarker) :
    (expect k).run s = .ok () t ↔ s.Passes [k] t := by
  rw [run_expect, passes_one_iff hk]
  by_cases next : s.kind = k <;> simp [next, eq_comm]

theorem run_accept_eq_true_iff {k : TokenKind} {s t : TokenStream} (hk : k ≠ .endMarker) :
    (accept k).run s = .ok true t ↔ s.Passes [k] t := by
  rw [run_accept, passes_one_iff hk]
  by_cases next : s.kind = k <;> simp [next, eq_comm]

theorem run_accept_eq_false_iff {k : TokenKind} {s t : TokenStream} :
    (accept k).run s = .ok false t ↔ s.kind ≠ k ∧ t = s := by
  rw [run_accept]
  split <;> grind

/-! ## Composition -/

def Behind (k : TokenKind) (language : List TokenKind → α → Prop) (kinds : List TokenKind)
    (a : α) : Prop :=
  ∃ back, kinds = k :: back ∧ language back a

def Nothing (a : α) (kinds : List TokenKind) (b : α) : Prop :=
  kinds = [] ∧ b = a

/-- A phrase of one language and behind it a phrase of another, which depends on the value. -/
def Then (first : List TokenKind → α → Prop) (second : α → List TokenKind → β → Prop)
    (kinds : List TokenKind) (b : β) : Prop :=
  ∃ a front back, kinds = front ++ back ∧ first front a ∧ second a back b

/-- A phrase, or what is behind an empty one, begins with such a token. -/
def Begins (language : List TokenKind → α → Prop) (start follow : TokenKind → Prop) : Prop :=
  ∀ kinds a next, language kinds a → follow next → start (kinds.headD next)

theorem begins_behind {k : TokenKind} {language : List TokenKind → α → Prop}
    {start follow : TokenKind → Prop} (h : start k) : Begins (Behind k language) start follow := by
  intro kinds a next phrase _
  rcases phrase with ⟨back, rfl, -⟩
  exact h

theorem begins_nothing {a : α} {start follow : TokenKind → Prop} (h : ∀ k, follow k → start k) :
    Begins (Nothing a) start follow := by
  rintro _ _ next ⟨rfl, rfl⟩ behind
  exact h next behind

theorem begins_optional {k : TokenKind} {clause : List TokenKind → α → Prop}
    {start follow : TokenKind → Prop} (hk : start k) (h : ∀ k, follow k → start k) :
    Begins (Grammar.Optional k clause) start follow := by
  intro _ _ next phrase behind
  cases phrase with
  | none => exact h next behind
  | some => exact hk

theorem Begins.before {first : List TokenKind → α → Prop} {second : α → List TokenKind → β → Prop}
    {start middle follow : TokenKind → Prop} (h : Begins first start middle)
    (h' : ∀ a, Begins (second a) middle follow) : Begins (Then first second) start follow := by
  rintro _ b next ⟨a, front, back, rfl, phrase, phrase'⟩ behind
  have begun := h front a _ phrase (h' a back b next phrase' behind)
  cases front <;> exact begun

theorem begins_then {first : List TokenKind → α → Prop} {second : α → List TokenKind → β → Prop}
    {start follow : TokenKind → Prop}
    (h : ∀ kinds a next, first kinds a → start (kinds.headD next)) :
    Begins (Then first second) start follow := by
  rintro _ b next ⟨a, front, back, rfl, phrase, -⟩ _
  have begun := h front a (back.headD next) phrase
  cases front <;> exact begun

theorem then_isName_iff {second : String → List TokenKind → β → Prop} {kinds : List TokenKind}
    {b : β} :
    Then Grammar.IsName second kinds b ↔
      ∃ name back, kinds = .identifier name :: back ∧ second name back b := by
  constructor
  · intro holds
    rcases holds with ⟨name, _, back, rfl, rfl, phrase⟩
    exact ⟨name, back, rfl, phrase⟩
  · intro holds
    rcases holds with ⟨name, back, rfl, phrase⟩
    exact ⟨name, [_], back, rfl, rfl, phrase⟩

theorem then_nothing_iff {first : List TokenKind → α → Prop} {f : α → β} {kinds : List TokenKind}
    {b : β} : Then first (fun a => Nothing (f a)) kinds b ↔ ∃ a, first kinds a ∧ b = f a := by
  constructor
  · intro holds
    rcases holds with ⟨a, front, _, rfl, phrase, rfl, rfl⟩
    exact ⟨a, by simpa using phrase, rfl⟩
  · intro holds
    rcases holds with ⟨a, phrase, rfl⟩
    exact ⟨a, kinds, [], (List.append_nil kinds).symm, phrase, rfl, rfl⟩

theorem Recognizes.behind {k : TokenKind} {reader : Parse α}
    {language : List TokenKind → α → Prop} {follow : TokenKind → Prop}
    (h : Recognizes reader language follow) (hk : k ≠ .endMarker) :
    Recognizes (do expect k; reader) (Behind k language) follow where
  sound run := by
    obtain ⟨_, u, first, rest⟩ := run_bind_eq_ok_iff.mp run
    have passed := (run_expect_eq_ok_iff hk).mp first
    obtain ⟨back, passes, phrase⟩ := h.sound rest
    exact ⟨k :: back, passed.trans passes, back, rfl, phrase⟩
  complete passes phrase next := by
    rcases phrase with ⟨back, rfl, phrase⟩
    rcases passes with ⟨-, kind, passes⟩
    have first := (run_expect_eq_ok_iff hk).mpr (passes_one kind hk)
    have rest := h.complete passes phrase next
    exact run_bind_eq_ok_iff.mpr ⟨(), _, first, rest⟩

theorem recognizes_pure (a : α) (follow : TokenKind → Prop) :
    Recognizes (pure a) (Nothing a) follow where
  sound run := by
    cases run
    exact ⟨[], rfl, rfl, rfl⟩
  complete passes phrase _ := by
    rcases phrase with ⟨rfl, rfl⟩
    obtain rfl := passes_nil.mp passes
    rfl

section

variable {first : Parse α} {rest : α → Parse β} {language : List TokenKind → α → Prop}
  {language' : α → List TokenKind → β → Prop} {follow follow' : TokenKind → Prop}

theorem Recognizes.bind (h : Recognizes first language follow)
    (h' : ∀ a, Recognizes (rest a) (language' a) follow')
    (meet : ∀ a, Begins (language' a) follow follow') :
    Recognizes (first >>= rest) (Then language language') follow' where
  sound run := by
    obtain ⟨a, u, begun, ended⟩ := run_bind_eq_ok_iff.mp run
    obtain ⟨front, passes, phrase⟩ := h.sound begun
    obtain ⟨back, passes', phrase'⟩ := (h' a).sound ended
    exact ⟨front ++ back, passes.trans passes', a, front, back, rfl, phrase, phrase'⟩
  complete passes phrase next := by
    rcases phrase with ⟨a, front, back, rfl, phrase, phrase'⟩
    obtain ⟨u, passes, passes'⟩ := passes_append.mp passes
    have begun := h.complete passes phrase (passes'.kind_eq ▸ meet a back _ _ phrase' next)
    have ended := (h' a).complete passes' phrase' next
    exact run_bind_eq_ok_iff.mpr ⟨a, u, begun, ended⟩

theorem Recognizes.bind_always (h : Recognizes first language fun _ => True)
    (h' : ∀ a, Recognizes (rest a) (language' a) follow') :
    Recognizes (first >>= rest) (Then language language') follow' :=
  h.bind h' fun _ _ _ _ _ _ => trivial

theorem Recognizes.branch {k : TokenKind} {yes no : Parse α} {language' : List TokenKind → α → Prop}
    (hk : k ≠ .endMarker) (h : Recognizes yes language follow) (h' : Recognizes no language' follow)
    (differ : Begins language' (· ≠ k) follow) :
    Recognizes (do if ← accept k then yes else no)
      (fun kinds a => Behind k language kinds a ∨ language' kinds a) follow where
  sound run := by
    obtain ⟨found, u, decided, ended⟩ := run_bind_eq_ok_iff.mp run
    cases found with
    | true =>
        have passed := (run_accept_eq_true_iff hk).mp decided
        obtain ⟨back, passes, phrase⟩ := h.sound ended
        exact ⟨k :: back, passed.trans passes, .inl ⟨back, rfl, phrase⟩⟩
    | false =>
        obtain ⟨-, rfl⟩ := run_accept_eq_false_iff.mp decided
        obtain ⟨kinds, passes, phrase⟩ := h'.sound ended
        exact ⟨kinds, passes, .inr phrase⟩
  complete {s t kinds a} passes phrase next := by
    rcases phrase with ⟨back, rfl, phrase⟩ | phrase
    · rcases passes with ⟨-, kind, passes⟩
      have decided := (run_accept_eq_true_iff hk).mpr (passes_one kind hk)
      have ended := h.complete passes phrase next
      exact run_bind_eq_ok_iff.mpr ⟨true, _, decided, ended⟩
    · have other : s.kind ≠ k := passes.kind_eq ▸ differ kinds a _ phrase next
      have decided := run_accept_eq_false_iff.mpr ⟨other, rfl⟩
      have ended := h'.complete passes phrase next
      exact run_bind_eq_ok_iff.mpr ⟨false, _, decided, ended⟩

end

section

variable {inner : Parse α} {language : List TokenKind → α → Prop} {follow : TokenKind → Prop}

theorem recognizes_closed (h : Recognizes inner language follow)
    (closing : follow (.symbol .rightParen)) :
    Recognizes (closed inner) (Grammar.Closed language) fun _ => True := by
  have answer (a : α) := (recognizes_pure a fun _ => True).behind (k := .symbol .rightParen)
    (by simp)
  refine (h.bind answer fun _ => begins_behind closing).congr ?_ fun _ => id
  intro kinds a
  constructor
  · intro holds
    rcases holds with ⟨a, front, _, rfl, phrase, _, rfl, rfl, rfl⟩
    exact ⟨front, rfl, phrase⟩
  · intro holds
    rcases holds with ⟨front, rfl, phrase⟩
    exact ⟨a, front, _, rfl, phrase, [], rfl, rfl, rfl⟩

theorem recognizes_parenthesized (h : Recognizes inner language follow)
    (closing : follow (.symbol .rightParen)) :
    Recognizes (parenthesized inner) (Grammar.InParentheses language) fun _ => True :=
  (recognizes_closed h closing).behind (by simp)

theorem recognizes_optional {k : TokenKind} (hk : k ≠ .endMarker)
    (h : Recognizes inner language follow) :
    Recognizes (optional k inner) (Grammar.Optional k language) fun next =>
      follow next ∧ next ≠ k := by
  have given := h.bind (fun a => recognizes_pure (some a) follow) fun _ =>
    begins_nothing fun _ => id
  have missing := recognizes_pure (none : Option α) fun next => follow next ∧ next ≠ k
  have either := (given.congr (fun _ _ => then_nothing_iff) fun _ next => And.left next).branch hk
    missing (begins_nothing fun _ => And.right)
  refine either.congr ?_ fun _ => id
  intro kinds a
  constructor
  · intro holds
    rcases holds with ⟨back, rfl, a, phrase, rfl⟩ | ⟨rfl, rfl⟩
    · exact .some phrase
    · exact .none
  · intro holds
    cases holds
    · exact .inr ⟨rfl, rfl⟩
    · exact .inl ⟨_, rfl, _, ‹_›, rfl⟩

end

/-! ## Repetition -/

/-- What repeated steps pass over. -/
inductive Steps (step : α → List TokenKind → α → Prop) : α → List TokenKind → α → Prop where
  | done (a : α) : Steps step a [] a
  | more {a b c : α} {kinds kinds' : List TokenKind} :
      step a kinds b → Steps step b kinds' c → Steps step a (kinds ++ kinds') c

theorem Steps.snoc {step : α → List TokenKind → α → Prop} {a b c : α}
    {kinds kinds' : List TokenKind} (steps : Steps step a kinds b) (last : step b kinds' c) :
    Steps step a (kinds ++ kinds') c := by
  induction steps with
  | done a => simpa using Steps.more last (.done c)
  | more taken steps ih =>
      rw [List.append_assoc]
      exact .more taken (ih last)

/-- A step of a repetition reads at least one token, or gives no answer and leaves the stream. -/
structure RecognizesStep (reader : α → Parse (Option α)) (step : α → List TokenKind → α → Prop)
    (follow stop : TokenKind → Prop) : Prop where
  sound {s t : TokenStream} {a b : α} :
    (reader a).run s = .ok (some b) t → ∃ kinds, s.Passes kinds t ∧ step a kinds b
  left {s t : TokenStream} {a : α} : (reader a).run s = .ok none t → s = t
  complete {s t : TokenStream} {kinds : List TokenKind} {a b : α} :
    s.Passes kinds t → step a kinds b → follow t.kind → (reader a).run s = .ok (some b) t
  stops {s : TokenStream} {a : α} : stop s.kind → (reader a).run s = .ok none s
  begins {a b : α} {kinds : List TokenKind} :
    step a kinds b → ∃ k kinds', kinds = k :: kinds' ∧ follow k

variable {reader : α → Parse (Option α)} {step : α → List TokenKind → α → Prop}
  {follow stop : TokenKind → Prop}

theorem iterateWithin_sound (h : RecognizesStep reader step follow stop) {bound : List Token}
    {s t : TokenStream} {a b : α} (run : (iterateWithin reader bound a).run s = .ok b t) :
    ∃ kinds, s.Passes kinds t ∧ Steps step a kinds b := by
  induction bound generalizing s a with
  | nil =>
      cases run
      exact ⟨[], rfl, .done _⟩
  | cons token bound ih =>
      obtain ⟨answer, u, first, rest⟩ := run_bind_eq_ok_iff.mp run
      cases answer with
      | none =>
          cases rest
          exact ⟨[], h.left first, .done _⟩
      | some c =>
          obtain ⟨kinds, passes, taken⟩ := h.sound first
          obtain ⟨kinds', passes', steps⟩ := ih rest
          exact ⟨kinds ++ kinds', passes.trans passes', .more taken steps⟩

theorem Steps.follow_headD (h : RecognizesStep reader step follow stop) {a b : α}
    {kinds : List TokenKind} (steps : Steps step a kinds b) {k : TokenKind} (next : follow k) :
    follow (kinds.headD k) := by
  cases steps with
  | done => exact next
  | more taken rest =>
      obtain ⟨first, others, rfl, starts⟩ := h.begins taken
      exact starts

theorem iterateWithin_complete (h : RecognizesStep reader step follow stop) {a b : α}
    {kinds : List TokenKind} (steps : Steps step a kinds b) {s t : TokenStream}
    (passes : s.Passes kinds t) (next : follow t.kind) (last : stop t.kind) {bound : List Token}
    (enough : kinds.length ≤ bound.length) :
    (iterateWithin reader bound a).run s = .ok b t := by
  induction steps generalizing s bound with
  | done a =>
      obtain rfl := passes_nil.mp passes
      cases bound with
      | nil => rfl
      | cons token bound => simp [iterateWithin, h.stops last]
  | @more a b c kinds others taken steps ih =>
      obtain ⟨u, first, rest⟩ := passes_append.mp passes
      have turn := h.complete first taken (rest.kind_eq ▸ steps.follow_headD h next)
      obtain ⟨k, inner, rfl, -⟩ := h.begins taken
      cases bound with
      | nil => simp at enough
      | cons token bound =>
          have shorter : others.length ≤ bound.length := by
            simp only [List.cons_append, List.length_cons, List.length_append] at enough
            omega
          simp [iterateWithin, turn, ih rest shorter]

theorem recognizes_iterate (h : RecognizesStep reader step follow stop) (a : α) :
    Recognizes (iterate reader a) (Steps step a) fun k => follow k ∧ stop k where
  sound run := iterateWithin_sound h run
  complete passes steps next := by
    have length := passes.length_eq
    exact iterateWithin_complete h steps passes next.1 next.2 (by omega)

/-! ## Lists with commas -/

def CommaStep (language : List TokenKind → α → Prop) (read : List α) (kinds : List TokenKind)
    (longer : List α) : Prop :=
  ∃ inner a, kinds = .symbol .comma :: inner ∧ language inner a ∧ longer = a :: read

variable {item : Parse α} {language : List TokenKind → α → Prop}

theorem recognizesStep_nextItem (h : Recognizes item language follow)
    (comma : follow (.symbol .comma)) :
    RecognizesStep (nextItem item) (CommaStep language) follow (· ≠ .symbol .comma) where
  sound run := by
    obtain ⟨found, u, first, rest⟩ := run_bind_eq_ok_iff.mp run
    cases found with
    | false => cases rest
    | true =>
        obtain ⟨a, v, read, result⟩ := run_bind_eq_ok_iff.mp rest
        cases result
        obtain ⟨inner, passes, phrase⟩ := h.sound read
        have passed := (run_accept_eq_true_iff (by simp)).mp first
        exact ⟨_, passed.trans passes, inner, a, rfl, phrase, rfl⟩
  left run := by
    obtain ⟨found, u, first, rest⟩ := run_bind_eq_ok_iff.mp run
    cases found with
    | false =>
        cases rest
        exact (run_accept_eq_false_iff.mp first).2.symm
    | true =>
        obtain ⟨a, v, read, result⟩ := run_bind_eq_ok_iff.mp rest
        cases result
  complete passes taken next := by
    rcases taken with ⟨inner, a, rfl, phrase, rfl⟩
    rcases passes with ⟨ahead, kind, rest⟩
    have accepted := (run_accept_eq_true_iff (by simp)).mpr (passes_one kind (by simp))
    simp [nextItem, accepted, h.complete rest phrase next]
  stops last := by
    have refused := run_accept_eq_false_iff.mpr ⟨last, rfl⟩
    simp [nextItem, refused]
  begins taken := by
    rcases taken with ⟨inner, a, rfl, -, -⟩
    exact ⟨_, inner, rfl, comma⟩

theorem steps_comma_iff {read longer : List α} {kinds : List TokenKind} :
    Steps (CommaStep language) read kinds longer ↔
      (kinds = [] ∧ longer = read) ∨
      ∃ inner as, kinds = .symbol .comma :: inner ∧ Grammar.CommaList language inner as ∧
        longer = as.reverse ++ read := by
  constructor
  · intro steps
    induction steps with
    | done read => exact .inl ⟨rfl, rfl⟩
    | more taken steps ih =>
        rcases taken with ⟨inner, a, rfl, phrase, rfl⟩
        right
        rcases ih with ⟨rfl, rfl⟩ | ⟨inner', as, rfl, list, rfl⟩
        · exact ⟨inner, [a], by simp, .last phrase, by simp⟩
        · exact ⟨_, a :: as, rfl, .more phrase list, by simp⟩
  · intro holds
    rcases holds with ⟨rfl, rfl⟩ | ⟨inner, as, rfl, list, rfl⟩
    · exact .done _
    · induction list generalizing read with
      | last phrase =>
          have step : CommaStep language read _ _ := ⟨_, _, rfl, phrase, rfl⟩
          simpa using Steps.more step (.done _)
      | @more kinds kinds' a as phrase list ih =>
          have step : CommaStep language read _ _ := ⟨_, _, rfl, phrase, rfl⟩
          simpa using Steps.more step (@ih (a :: read))

theorem recognizes_separated (h : Recognizes item language follow)
    (comma : follow (.symbol .comma)) :
    Recognizes (separated item) (Grammar.CommaList language)
      fun k => follow k ∧ k ≠ .symbol .comma where
  sound run := by
    have loop := recognizes_iterate (recognizesStep_nextItem h comma)
    obtain ⟨first, u, begun, rest⟩ := run_bind_eq_ok_iff.mp run
    obtain ⟨reversed, v, repeated, result⟩ := run_bind_eq_ok_iff.mp rest
    cases result
    obtain ⟨kinds, passes, phrase⟩ := h.sound begun
    obtain ⟨kinds', passes', steps⟩ := (loop [first]).sound repeated
    refine ⟨kinds ++ kinds', passes.trans passes', ?_⟩
    rcases steps_comma_iff.mp steps with ⟨rfl, rfl⟩ | ⟨inner, as, rfl, list, rfl⟩
    · simpa using Grammar.CommaList.last phrase
    · simpa using Grammar.CommaList.more phrase list
  complete passes list next := by
    have loop := recognizes_iterate (recognizesStep_nextItem h comma)
    cases list with
    | @last kinds a phrase =>
        have begun := h.complete passes phrase next.1
        have repeated := (loop [a]).complete (passes_nil.mpr rfl) (.done _) next
        simp [separated, begun, repeated]
    | @more kinds kinds' a as phrase list =>
        obtain ⟨u, first, rest⟩ := passes_append.mp passes
        have begun := h.complete first phrase (rest.2.1 ▸ comma)
        have steps : Steps (CommaStep language) [a] _ (as.reverse ++ [a]) :=
          steps_comma_iff.mpr (.inr ⟨kinds', as, rfl, list, rfl⟩)
        have repeated := (loop [a]).complete rest steps next
        simp [separated, begun, repeated]

end Tabular.Parse
