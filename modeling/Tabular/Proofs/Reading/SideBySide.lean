import Tabular.Proofs.Reading.Orderly

/-!
# Runs side by side

Streams that differ in ways that readers do not see.  A reader does the same on both, as far as they
do not differ: it gives the same answer, or misses the same thing at the corresponding token.
-/

namespace Tabular

open Parse

variable {α β : Type} {next : Option TokenKind} {reader : Parse α} {s t : TokenStream}

/-! ## Streams that readers cannot tell apart -/

variable {Rel : TokenStream → TokenStream → Prop} {Err : Error → Error → Prop}
  {Within : TokenStream → Prop}

/--
A relation between streams that readers cannot tell apart, as long as they stay within some of the
tokens; what they refuse is related, too.
-/
structure Coupled (Rel : TokenStream → TokenStream → Prop) (Err : Error → Error → Prop)
    (Within : TokenStream → Prop) : Prop where
  kind {s t : TokenStream} : Rel s t → Within s → s.kind = t.kind
  advance {s t : TokenStream} :
    Rel s t → Within s → s.kind ≠ .endMarker → Rel s.advance t.advance
  refuse {s t : TokenStream} (expected : String) :
    Rel s t → Within s → Err (s.unexpected expected) (t.unexpected expected)
  back {s : TokenStream} : s.ahead ≠ [] → Within s.advance → Within s

/-- The same answer or related errors, and streams that are still related. -/
inductive SameResult (Rel : TokenStream → TokenStream → Prop) (Err : Error → Error → Prop) :
    EStateM.Result Error TokenStream α → EStateM.Result Error TokenStream α → Prop where
  | ok {a : α} {s t : TokenStream} : Rel s t → SameResult Rel Err (.ok a s) (.ok a t)
  | error {e e' : Error} {s t : TokenStream} :
      Err e e' → Rel s t → SameResult Rel Err (.error e s) (.error e' t)

theorem sameResult_bind {x : Parse α} {f f' : α → Parse β}
    (first : SameResult Rel Err (x.run s) (x.run t))
    (rest : ∀ a u v, x.run s = .ok a u → x.run t = .ok a v → Rel u v →
      SameResult Rel Err ((f a).run u) ((f' a).run v)) :
    SameResult Rel Err ((x >>= f).run s) ((x >>= f').run t) := by
  rw [EStateM.run_bind, EStateM.run_bind]
  generalize run : x.run s = r, run' : x.run t = r' at first ⊢
  cases first with
  | ok behind => exact rest _ _ _ run run' behind
  | error failed behind => exact .error failed behind

theorem within_first {x : Parse α} {f : α → Parse β}
    (ended : Within (stateAfter (x >>= f) s))
    (back : ∀ a t, Within (stateAfter (f a) t) → Within t) : Within (stateAfter x s) := by
  cases answer : answerOf x s with
  | error e => rwa [stateAfter_bind_of_error answer] at ended
  | ok a =>
      rw [stateAfter_bind_of_ok answer] at ended
      exact back a _ ended

theorem within_rest {x : Parse α} {f : α → Parse β} {a : α} {u : TokenStream}
    (ended : Within (stateAfter (x >>= f) s)) (run : x.run s = .ok a u) :
    Within (stateAfter (f a) u) := by
  obtain ⟨answer, rfl⟩ := run_eq_ok_iff.mp run
  rwa [stateAfter_bind_of_ok answer] at ended

theorem kind_of_bound_nil (enough : s.ahead.length ≤ ([] : List Token).length) :
    s.kind = .endMarker := by
  have nothing : s.ahead = [] := List.length_eq_zero_iff.mp (Nat.le_zero.mp enough)
  rw [TokenStream.kind, TokenStream.current, nothing]
  rfl

theorem run_iterateWithin_of_ended {step : α → Parse (Option α)} {a : α} (turn : Turn (step a))
    (last : s.kind = .endMarker) (bound : List Token) :
    (iterateWithin step bound a).run s = .ok a s := by
  cases bound with
  | nil => rfl
  | cons token bound =>
      rw [iterateWithin, EStateM.run_bind, turn.stops last]
      rfl

namespace Coupled

theorem within_before (c : Coupled Rel Err Within) (h : Orderly next reader)
    (shown : s.Shows next) (ended : Within (stateAfter reader s)) : Within s :=
  h.steps (R := fun s t => Within t → Within s) (fun _ => id) (fun f g inside => f (g inside))
    (fun _ more => c.back more) s shown ended

variable {step : α → Parse (Option α)}

theorem within_before_iterateWithin (c : Coupled Rel Err Within)
    (orderly : ∀ a, Orderly none (step a)) {bound : List Token} {a : α}
    (ended : Within (stateAfter (iterateWithin step bound a) s)) : Within s :=
  steps_iterateWithin (R := fun s t => Within t → Within s) (fun _ => id)
    (fun f g inside => f (g inside)) (fun a s => c.within_before (orderly a) (shows_none s))
    bound a s ended

theorem sameResult_iterateWithin (c : Coupled Rel Err Within)
    (orderly : ∀ a, Orderly none (step a)) (turn : ∀ a, Turn (step a))
    (h : ∀ a s t, Rel s t → Within (stateAfter (step a) s) →
      SameResult Rel Err ((step a).run s) ((step a).run t))
    {bound bound' : List Token} {a : α} (enough : s.ahead.length ≤ bound.length)
    (enough' : t.ahead.length ≤ bound'.length) (related : Rel s t)
    (ended : Within (stateAfter (iterateWithin step bound a) s)) :
    SameResult Rel Err ((iterateWithin step bound a).run s)
      ((iterateWithin step bound' a).run t) := by
  induction bound generalizing bound' a s t with
  | nil =>
      have last := kind_of_bound_nil enough
      have last' := (c.kind related ended).symm.trans last
      rw [run_iterateWithin_of_ended (turn a) last, run_iterateWithin_of_ended (turn a) last']
      exact .ok related
  | cons token bound ih =>
      have began := c.within_before_iterateWithin orderly ended
      cases bound' with
      | nil =>
          have last' := kind_of_bound_nil enough'
          have last := (c.kind related began).trans last'
          rw [run_iterateWithin_of_ended (turn a) last, run_iterateWithin_of_ended (turn a) last']
          exact .ok related
      | cons token' bound' =>
          rw [iterateWithin] at ended ⊢
          rw [iterateWithin]
          have first := within_first ended fun answer u inside => by
            cases answer with
            | none => exact inside
            | some b => exact c.within_before_iterateWithin orderly inside
          refine sameResult_bind (h a s t related first) fun answer u v run run' behind => ?_
          have rest := within_rest ended run
          cases answer with
          | none => exact .ok behind
          | some b =>
              have fewer := (turn a).moves run
              have fewer' := (turn a).moves run'
              simp only [List.length_cons] at enough enough'
              exact ih (by omega) (by omega) behind rest

end Coupled

/-- Readers do the same on streams that they cannot tell apart. -/
theorem Orderly.sideBySide (h : Orderly next reader) (c : Coupled Rel Err Within)
    (shown : s.Shows next) (related : Rel s t) (ended : Within (stateAfter reader s)) :
    SameResult Rel Err (reader.run s) (reader.run t) := by
  induction h generalizing s t with
  | pure a => exact .ok related
  | refuse expected => exact .error (c.refuse expected related ended) related
  | @look _ f orderly ih =>
      have began := c.within_before (.look orderly) shown ended
      change SameResult Rel Err ((f s.kind).run s) ((f t.kind).run t)
      rw [← c.kind related began]
      exact ih s.kind (shows_some s) related ended
  | advance inner =>
      have here := shown _ rfl
      have began := c.within_before (.advance inner) shown ended
      exact .ok (c.advance related began (here ▸ inner))
  | bind _ orderly ih ih' =>
      have first := within_first ended fun a u => c.within_before (orderly a) (shows_none u)
      exact sameResult_bind (ih shown related first) fun a u v run _ behind =>
        ih' a (shows_none u) behind (within_rest ended run)
  | forget _ ih => exact ih (shows_none s) related ended
  | iterate a orderly turn ih =>
      exact c.sameResult_iterateWithin orderly turn
        (fun a s t related inside => ih a (shows_none s) related inside) (Nat.le_refl _)
        (Nat.le_refl _) related ended

end Tabular
