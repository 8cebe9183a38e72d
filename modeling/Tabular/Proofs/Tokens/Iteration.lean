import Tabular.Proofs.Tokens.Tokenizing

/-!
# Iteration over tokens

A lexer can be asked for its tokens one by one, be taken back to the beginning, be given another
mode, and be asked for all tokens at once, in any order.  What it has done leaves no trace behind a
new beginning, and its iteration ends with the end marker or with the first fault.
-/

namespace Tabular

open Lexeme

/-- Does the token stand for a character that begins no other token? -/
def Token.isInvalid (t : Token) : Bool :=
  match t.kind with
  | .invalid _ => true
  | _ => false

theorem Token.isInvalid_iff {t : Token} : t.isInvalid = true ↔ ∃ c, t.kind = .invalid c := by
  unfold isInvalid
  split <;> simp_all

def isValid : Except Error Token → Bool
  | .ok t => !t.isInvalid
  | .error _ => true

namespace Lexer

/-- What can be done with a lexer. -/
inductive Step where
  | next
  | nextToken
  /-- Takes the items that are left, to list them or to count them. -/
  | remaining
  | setMode (mode : Mode)
  | reset
  | tokenize

namespace Step

def run (l : Lexer) : Step → List (Except Error Token) × Lexer
  | next => (l.next.1.toList, l.next.2)
  | nextToken => ([], l.nextToken.2)
  | remaining => l.remaining
  | setMode mode => ([], l.setMode mode)
  | reset => ([], l.reset)
  | tokenize => ([], l.tokenize.2)

def mode (before : Mode) : Step → Mode
  | setMode mode => mode
  | _ => before

def Restarts (step : Step) : Prop :=
  step = reset ∨ step = tokenize

end Step

def behind (l : Lexer) (steps : List Step) : Lexer :=
  steps.foldl (fun l step => (step.run l).2) l

/-- The items that the iteration yields in all the steps. -/
def yields (l : Lexer) : List Step → List (Except Error Token)
  | [] => []
  | step :: steps => (step.run l).1 ++ (step.run l).2.yields steps

variable {l moved : Lexer} {item : Except Error Token} {t : Token} {tokens : List Token}

/-! ## The items that are left -/

theorem remaining_of_end (next : l.next = (none, moved)) : l.remaining = ([], moved) := by
  rw [remaining]
  split <;> simp_all

theorem remaining_of_finished (finished : l.finished = true) : l.remaining = ([], l) :=
  remaining_of_end (next_of_finished finished)

theorem remaining_of_next (next : l.next = (some item, moved)) :
    l.remaining = (item :: moved.remaining.1, moved.remaining.2) := by
  rw [remaining]
  split <;> simp_all

theorem next_cases (l : Lexer) :
    l.finished = true ∧ l.next = (none, l) ∨
      ∃ item moved, l.next = (some item, moved) ∧ moved.finished = Cursor.isLast item ∧
        moved.reset = l.reset := by
  cases finished : l.finished with
  | true => exact .inl ⟨rfl, if_pos finished⟩
  | false =>
      have running : ¬l.finished = true := by simp [finished]
      exact .inr ⟨_, { l.nextToken.2 with finished := _ }, if_neg running, rfl, rfl⟩

/-- An iteration that has been taken to its end yields one last item, and no other like it. -/
theorem remaining_ends (l : Lexer) :
    l.remaining.2.finished = true ∧
      ∀ item ∈ l.remaining.1.dropLast, Cursor.isLast item = false := by
  induction left : l.pending using Nat.strongRecOn generalizing l with
  | ind n ih =>
  rcases next_cases l with ⟨finished, -⟩ | ⟨item, moved, next, last, -⟩
  · rw [remaining_of_finished finished]
    exact ⟨finished, nofun⟩
  · have others := ih _ (left ▸ pending_next_lt next) moved rfl
    rw [remaining_of_next next]
    refine ⟨others.1, ?_⟩
    cases rest : moved.remaining.1 with
    | nil => exact nofun
    | cons other items =>
        -- Something follows, so the iteration had not ended.
        have running : moved.finished = false := by
          cases finished : moved.finished with
          | false => rfl
          | true => simp [remaining_of_finished finished] at rest
        rw [rest] at others
        exact List.forall_mem_cons.mpr ⟨last ▸ running, others.2⟩

/-! ## New beginnings -/

theorem mode_of_reset (same : moved.reset = l.reset) : moved.mode = l.mode :=
  (congrArg Lexer.mode same :)

theorem reset_remaining (l : Lexer) : l.remaining.2.reset = l.reset := by
  induction left : l.pending using Nat.strongRecOn generalizing l with
  | ind n ih =>
  rcases next_cases l with ⟨finished, -⟩ | ⟨item, moved, next, -, same⟩
  · rw [remaining_of_finished finished]
  · rw [remaining_of_next next, ← same]
    exact ih _ (left ▸ pending_next_lt next) moved rfl

theorem reset_validTokens (l : Lexer) : l.validTokens.2.reset = l.reset := by
  induction left : l.pending using Nat.strongRecOn generalizing l with
  | ind n ih =>
  rcases next_cases l with ⟨-, next⟩ | ⟨item, moved, next, -, same⟩
  · rw [validTokens]
    split <;> simp_all
  · have others := ih _ (left ▸ pending_next_lt next) moved rfl
    rw [validTokens]
    split
    case h_3 => split <;> simp_all
    all_goals simp_all

theorem reset_run (step : Step) (l : Lexer) :
    (step.run l).2.reset = l.reset.setMode (step.mode l.mode) := by
  cases step with
  | next =>
      rcases next_cases l with ⟨-, next⟩ | ⟨item, moved, next, -, same⟩
      · exact congrArg (fun r => r.2.reset) next
      · exact (congrArg (fun r => r.2.reset) next).trans same
  | remaining => exact reset_remaining l
  | tokenize => exact reset_validTokens l.reset
  | nextToken | setMode | reset => rfl

/-- Back at the beginning, only the mode that was set last is left of all that was done. -/
theorem reset_behind (steps : List Step) (l : Lexer) :
    (l.behind steps).reset = l.reset.setMode (steps.foldl Step.mode l.mode) := by
  induction steps generalizing l with
  | nil => rfl
  | cons step steps ih =>
      have first := reset_run step l
      have same : (step.run l).2.mode = step.mode l.mode :=
        (congrArg Lexer.mode first :)
      have others := ih (step.run l).2
      rw [first, same] at others
      exact others

/-! ## The end of the iteration -/

variable {step : Step} {steps : List Step}

theorem run_of_finished (finished : l.finished = true) (onward : ¬step.Restarts) :
    (step.run l).1 = [] ∧ (step.run l).2.finished = true := by
  cases step with
  | next => simp [Step.run, Lexer.next, finished]
  | remaining => simp [Step.run, remaining_of_finished finished, finished]
  | nextToken | setMode => exact ⟨rfl, finished⟩
  | reset | tokenize => simp [Step.Restarts] at onward

theorem yields_of_finished (finished : l.finished = true)
    (onward : ∀ step ∈ steps, ¬step.Restarts) : l.yields steps = [] := by
  induction steps generalizing l with
  | nil => rfl
  | cons step steps ih =>
      obtain ⟨here, later⟩ := List.forall_mem_cons.mp onward
      obtain ⟨nothing, ended⟩ := run_of_finished finished here
      rw [yields, nothing, ih ended later]
      rfl

theorem run_ends (l : Lexer) (onward : ¬step.Restarts) :
    (∀ item ∈ (step.run l).1, Cursor.isLast item = false) ∨
      (step.run l).2.finished = true ∧
        ∀ item ∈ (step.run l).1.dropLast, Cursor.isLast item = false := by
  cases step with
  | next =>
      rcases next_cases l with ⟨-, next⟩ | ⟨item, moved, next, last, -⟩
      · exact .inl (by simp [Step.run, next])
      · cases ended : Cursor.isLast item with
        | false => exact .inl (by simp [Step.run, next, ended])
        | true => exact .inr (by simp [Step.run, next, last, ended])
  | remaining => exact .inr (remaining_ends l)
  | nextToken | setMode => exact .inl nofun
  | reset | tokenize => simp [Step.Restarts] at onward

theorem yields_ends (l : Lexer) (onward : ∀ step ∈ steps, ¬step.Restarts) :
    ∀ item ∈ (l.yields steps).dropLast, Cursor.isLast item = false := by
  induction steps generalizing l with
  | nil => exact nofun
  | cons step steps ih =>
      obtain ⟨here, later⟩ := List.forall_mem_cons.mp onward
      rw [yields]
      rcases run_ends l here with inner | ⟨ended, inner⟩
      · rw [List.dropLast_append]
        split
        · exact fun item member => inner item (List.dropLast_subset _ member)
        · exact List.forall_mem_append.mpr ⟨inner, ih _ later⟩
      · rw [yields_of_finished ended later, List.append_nil]
        exact inner

/-! ## Items and tokens -/

theorem validTokens_eq_ok_iff_remaining (permissive : l.mode = .permissive) :
    l.validTokens.1 = .ok tokens ↔ l.remaining.1.filter isValid = tokens.map .ok := by
  induction left : l.pending using Nat.strongRecOn generalizing l tokens with
  | ind n ih =>
  rcases next_cases l with ⟨finished, -⟩ | ⟨item, moved, next, -, same⟩
  · rw [validTokens_of_finished finished, remaining_of_finished finished]
    simp [eq_comm]
  · have others {tokens : List Token} := @ih _ (left ▸ pending_next_lt next) moved tokens
      ((mode_of_reset same).trans permissive) rfl
    rw [remaining_of_next next]
    cases item with
    | error e =>
        rw [validTokens_of_error next, List.filter_cons_of_pos rfl]
        cases tokens <;> simp
    | ok t =>
        cases invalid : t.isInvalid with
        | true =>
            obtain ⟨c, kind⟩ := Token.isInvalid_iff.mp invalid
            rw [validTokens_of_invalid next kind, if_neg (by simp [permissive]), others,
              List.filter_cons_of_neg (by simp [isValid, invalid])]
        | false =>
            have valid : ∀ c, t.kind ≠ .invalid c := by
              simpa [invalid] using Token.isInvalid_iff (t := t)
            rw [validTokens_of_next next valid, map_eq_ok_iff,
              List.filter_cons_of_pos (by simp [isValid, invalid])]
            cases tokens with
            | nil => simp
            | cons u tokens => simp [others, and_assoc, and_comm]

theorem next_permissive (next : l.next = (some (.ok t), moved)) :
    (l.setMode .permissive).next = (some (.ok t), moved.setMode .permissive) := by
  have running : l.finished = false := by
    cases finished : l.finished with
    | false => rfl
    | true => simp [Lexer.next, finished] at next
  have running' : (l.setMode .permissive).finished = false := running
  cases front : l.cursor.skipBlank.rest with
  | nil =>
      rw [next_of_end running front] at next
      rw [next_of_end running' front]
      cases next
      rfl
  | cons c cs =>
      have taken : ∃ k, (read l.mode c cs).meaning = .ok k ∧ k ≠ .endMarker := by
        rcases read_cases l.mode c cs with ⟨fault, meaning⟩ | ⟨k, meaning, proper⟩ | ⟨-, taken⟩
        · rw [next_of_fault running front meaning] at next
          cases next
        · exact ⟨k, meaning, proper.1⟩
        · exact ⟨.invalid c, by rw [taken]; rfl, by simp⟩
      obtain ⟨k, meaning, inner⟩ := taken
      have same : read .permissive c cs = read l.mode c cs := by
        cases mode : l.mode with
        | permissive => rfl
        | strict => exact read_permissive (mode ▸ meaning)
      rw [next_of_token running front meaning inner] at next
      rw [next_of_token running' front (same ▸ meaning) inner]
      cases next
      rw [show (l.setMode .permissive).mode = .permissive from rfl, same]
      rfl

theorem remaining_permissive (faultless : ∀ item ∈ l.remaining.1, ∃ t, item = .ok t) :
    (l.setMode .permissive).remaining.1 = l.remaining.1 := by
  induction left : l.pending using Nat.strongRecOn generalizing l with
  | ind n ih =>
  rcases next_cases l with ⟨finished, -⟩ | ⟨item, moved, next, -, -⟩
  · rw [remaining_of_finished finished, remaining_of_finished (l := l.setMode .permissive) finished]
  · rw [remaining_of_next next] at faultless ⊢
    obtain ⟨⟨t, rfl⟩, others⟩ := List.forall_mem_cons.mp faultless
    rw [remaining_of_next (next_permissive next), ih _ (left ▸ pending_next_lt next) others rfl]

end Lexer

/--
Whatever has been done with a lexer, it reads the whole text as a new one of its mode does, and so
does its iteration from a new beginning.  Until then the iteration yields nothing behind the end
marker or a fault.  Without its invalid tokens, what it yields from the beginning are the tokens of
the text.
-/
theorem lexer_restarts (source : String) (mode : Mode) (steps : List Lexer.Step) :
    let l := (Lexer.ofString source mode).behind steps
    let now := steps.foldl Lexer.Step.mode mode
    l.tokenize = (Lexer.ofString source now).tokenize ∧
      (∀ more, l.reset.yields more = (Lexer.ofString source now).yields more) ∧
      (∀ more front item back, (∀ step ∈ more, ¬step.Restarts) →
        l.yields more = front ++ item :: back → Cursor.isLast item = true → back = []) ∧
      (∀ tokens, tokenize source .permissive = .ok tokens ↔
        (Lexer.ofString source .permissive).remaining.1.filter isValid = tokens.map .ok) ∧
      ((∀ item ∈ (Lexer.ofString source .strict).remaining.1, ∃ t, item = .ok t) →
        (Lexer.ofString source .permissive).remaining.1 =
          (Lexer.ofString source .strict).remaining.1) := by
  intro l now
  have reset : l.reset = Lexer.ofString source now := Lexer.reset_behind steps _
  refine ⟨?_, fun more => by rw [reset], ?_, fun tokens => ?_, ?_⟩
  · rw [Lexer.tokenize, reset]
    rfl
  · intro more front item back onward split last
    have inner := Lexer.yields_ends l onward
    rw [split] at inner
    cases back with
    | nil => rfl
    | cons other back =>
        have running := inner item (by simp)
        cases running.symm.trans last
  · exact Lexer.validTokens_eq_ok_iff_remaining rfl
  · exact Lexer.remaining_permissive (l := .ofString source .strict)

end Tabular
