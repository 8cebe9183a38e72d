import Tabular.Proofs.Reading.Recognition
import Tabular.Statement.Parse

/-!
# Orderly readers

Readers look at the next token, go past it or refuse it, and never go past the end marker.  Every
reader of expressions and statements is put together in this way, so what holds of this way of
reading holds of all of them.
-/

namespace Tabular

open Parse

variable {α β : Type}

/-! ## Orderly readers -/

/--
A step of a repetition gives no answer at the end marker, and leaves fewer tokens ahead where it
gives one.
-/
structure Turn (step : Parse (Option α)) : Prop where
  stops {s : TokenStream} : s.kind = .endMarker → step.run s = .ok none s
  moves {s t : TokenStream} {a : α} :
    step.run s = .ok (some a) t → t.ahead.length < s.ahead.length

/-- The reader is orderly where the kind of the next token is known to be this one. -/
inductive Orderly : Option TokenKind → {α : Type} → Parse α → Prop where
  | pure {α : Type} (a : α) : Orderly none (pure a)
  | refuse {α : Type} (expected : String) : Orderly none (refuse expected : Parse α)
  | look {α : Type} {f : TokenKind → Parse α} :
      (∀ k, Orderly (some k) (f k)) → Orderly none (kind >>= f)
  | advance {k : TokenKind} : k ≠ .endMarker → Orderly (some k) advance
  | bind {α β : Type} {next : Option TokenKind} {x : Parse α} {f : α → Parse β} :
      Orderly next x → (∀ a, Orderly none (f a)) → Orderly next (x >>= f)
  | forget {α : Type} {k : TokenKind} {x : Parse α} : Orderly none x → Orderly (some k) x
  | iterate {α : Type} {step : α → Parse (Option α)} (a : α) :
      (∀ a, Orderly none (step a)) → (∀ a, Turn (step a)) → Orderly none (iterate step a)

def TokenStream.Shows (s : TokenStream) (next : Option TokenKind) : Prop :=
  ∀ k ∈ next, s.kind = k

theorem shows_none (s : TokenStream) : s.Shows none :=
  nofun

theorem shows_some (s : TokenStream) : s.Shows (some s.kind) := by
  rintro _ ⟨⟩
  rfl

/-! ## Where readers go -/

variable {next : Option TokenKind} {reader : Parse α} {s t : TokenStream}

section

variable {R : TokenStream → TokenStream → Prop} {step : α → Parse (Option α)}

theorem steps_bind {x : Parse α} {f : α → Parse β} (trans : ∀ {s t u}, R s t → R t u → R s u)
    (first : R s (stateAfter x s)) (rest : ∀ a t, R t (stateAfter (f a) t)) :
    R s (stateAfter (x >>= f) s) := by
  cases answer : answerOf x s with
  | error e => rwa [stateAfter_bind_of_error answer]
  | ok a =>
      rw [stateAfter_bind_of_ok answer]
      exact trans first (rest a _)

theorem steps_iterateWithin (refl : ∀ s, R s s) (trans : ∀ {s t u}, R s t → R t u → R s u)
    (h : ∀ a s, R s (stateAfter (step a) s)) (bound : List Token) (a : α) (s : TokenStream) :
    R s (stateAfter (iterateWithin step bound a) s) := by
  induction bound generalizing a s with
  | nil => exact refl s
  | cons token bound ih =>
      refine steps_bind trans (h a s) fun answer t => ?_
      cases answer with
      | none => exact refl t
      | some b => exact ih b t

/-- What going past one token does to the stream, a reader does to it. -/
theorem Orderly.steps (h : Orderly next reader) (refl : ∀ s, R s s)
    (trans : ∀ {s t u}, R s t → R t u → R s u) (past : ∀ s, s.ahead ≠ [] → R s s.advance)
    (s : TokenStream) (shown : s.Shows next) : R s (stateAfter reader s) := by
  induction h generalizing s with
  | pure a => exact refl s
  | refuse expected => exact refl s
  | look _ ih => exact ih s.kind s (shows_some s)
  | advance inner => exact past s (TokenStream.ahead_ne_nil (shown _ rfl) inner)
  | bind _ _ ih ih' => exact steps_bind trans (ih s shown) fun a t => ih' a t (shows_none t)
  | forget _ ih => exact ih s (shows_none s)
  | iterate a _ _ ih =>
      exact steps_iterateWithin refl trans (fun a t => ih a t (shows_none t)) s.ahead a s

end

theorem Orderly.length_le (h : Orderly none reader) (s : TokenStream) :
    (stateAfter reader s).ahead.length ≤ s.ahead.length := by
  refine h.steps (R := fun s t => t.ahead.length ≤ s.ahead.length) (fun _ => Nat.le_refl _)
    (fun first rest => Nat.le_trans rest first) (fun s more => ?_) s (shows_none s)
  have fewer := TokenStream.length_advance more
  omega

theorem Orderly.unexpected (h : Orderly next reader) {e : Error}
    (failed : reader.run s = .error e t) : ∃ expected, e = t.unexpected expected := by
  induction h generalizing s t with
  | pure a => cases failed
  | refuse expected =>
      cases failed
      exact ⟨expected, rfl⟩
  | look _ ih => exact ih s.kind failed
  | advance => cases failed
  | bind _ _ ih ih' =>
      rcases run_bind_eq_error_iff.mp failed with first | ⟨a, u, -, rest⟩
      · exact ih first
      · exact ih' a rest
  | forget _ ih => exact ih failed
  | @iterate _ step a _ _ ih =>
      have within (bound : List Token) {a} {s : TokenStream}
          (failed : (iterateWithin step bound a).run s = .error e t) :
          ∃ expected, e = t.unexpected expected := by
        induction bound generalizing a s with
        | nil => cases failed
        | cons token bound ih' =>
            rcases run_bind_eq_error_iff.mp failed with first | ⟨answer, u, -, rest⟩
            · exact ih a first
            · cases answer with
              | none => cases rest
              | some b => exact ih' rest
      exact within s.ahead failed

/-! ## The elementary readers -/

section

variable {clause : Parse α} {k : TokenKind}

theorem Orderly.map (h : Orderly next reader) (f : α → β) : Orderly next (f <$> reader) :=
  h.bind fun a => .pure (f a)

theorem orderly_accept (inner : k ≠ .endMarker) : Orderly none (accept k) := by
  refine .look fun next => ?_
  split
  · rename_i same
    exact .bind (.advance (same ▸ inner)) fun _ => .pure true
  · exact .forget (.pure false)

theorem orderly_expect (inner : k ≠ .endMarker) : Orderly none (expect k) := by
  refine .look fun next => ?_
  split
  · rename_i same
    exact .advance (same ▸ inner)
  · exact .forget (.refuse _)

theorem orderly_identifier (what : String) : Orderly none (identifier what) := by
  refine .look fun next => ?_
  split
  · exact .bind (.advance (by simp)) fun _ => .pure _
  · exact .forget (.refuse what)

theorem orderly_optional (inner : k ≠ .endMarker) (h : Orderly none clause) :
    Orderly none (optional k clause) := by
  refine (orderly_accept inner).bind fun given => ?_
  split
  · exact h.bind fun _ => .pure _
  · exact .pure none

theorem orderly_closed (h : Orderly none clause) : Orderly none (closed clause) :=
  h.bind fun a => (orderly_expect (by simp)).bind fun _ => .pure a

theorem orderly_parenthesized (h : Orderly none clause) : Orderly none (parenthesized clause) :=
  (orderly_expect (by simp)).bind fun _ => orderly_closed h

/-- A step of a repetition may go past the next token, and gives no answer where it does not. -/
theorem orderly_iterate {f : α → TokenKind → Parse (Option α)} (a : α)
    (h : ∀ a k, f a k = pure none ∨
      k ≠ .endMarker ∧ ∃ rest, f a k = (advance >>= fun _ => rest) ∧ Orderly none rest) :
    Orderly none (iterate (fun a => kind >>= f a) a) := by
  refine .iterate a (fun a => .look fun k => ?_) fun a =>
    ⟨fun {s} last => ?_, fun {s t b} run => ?_⟩
  · rcases h a k with nothing | ⟨inner, rest, moved, orderly⟩
    · rw [nothing]
      exact .forget (.pure none)
    · rw [moved]
      exact .bind (.advance inner) fun _ => orderly
  · have nothing : f a .endMarker = pure none := (h a .endMarker).resolve_right (by simp)
    change (f a s.kind).run s = _
    rw [last, nothing]
    rfl
  · change (f a s.kind).run s = _ at run
    rcases h a s.kind with nothing | ⟨inner, rest, moved, orderly⟩
    · rw [nothing] at run
      cases run
    · rw [moved] at run
      change rest.run s.advance = _ at run
      have fewer := orderly.length_le s.advance
      rw [(run_eq_ok_iff.mp run).2] at fewer
      have first := TokenStream.length_advance (TokenStream.ahead_ne_nil rfl inner)
      omega

theorem nextItem_eq (item : Parse α) (read : List α) :
    nextItem item read = kind >>= fun k =>
      if k = .symbol .comma then advance >>= fun _ => do return some ((← item) :: read)
      else return none := by
  unfold nextItem accept
  simp only [monadLift_self, bind_assoc]
  congr 1
  funext k
  split <;> simp

theorem orderly_separated (h : Orderly none clause) : Orderly none (separated clause) := by
  have step := funext (nextItem_eq clause)
  refine h.bind fun first => .bind ?_ fun _ => .pure _
  rw [step]
  refine orderly_iterate [first] fun read k => ?_
  split
  · rename_i comma
    exact .inr ⟨by simp [comma], _, rfl, h.bind fun _ => .pure _⟩
  · exact .inl rfl

end

/-! ## Expressions -/

namespace Expr

theorem orderly_bounded (e : Expr) : Orderly none (bounded e) := by
  unfold bounded
  split
  · exact .pure e
  · exact .refuse _

variable {operand : Parse Expr}

theorem orderly_leftAssoc {op? : TokenKind → Option BinaryOp} (inner : op? .endMarker = none)
    (h : Orderly none operand) : Orderly none (leftAssoc op? operand) := by
  refine h.bind fun first => orderly_iterate first fun left k => ?_
  cases sign : op? k with
  | none => exact .inl rfl
  | some op =>
      refine .inr ⟨?_, _, rfl, h.bind fun _ => (orderly_bounded _).bind fun _ => .pure _⟩
      rintro rfl
      cases inner.symm.trans sign

theorem orderly_parseOver (h : Orderly none operand) : Orderly none (parseOver operand) := by
  have onLevels (ops : List (TokenKind → Option BinaryOp))
      (inner : ∀ op? ∈ ops, op? .endMarker = none) :
      Orderly none (ops.foldr leftAssoc operand) := by
    induction ops with
    | nil => exact h
    | cons op? ops ih =>
        obtain ⟨here, later⟩ := List.forall_mem_cons.mp inner
        exact orderly_leftAssoc here (ih later)
  refine onLevels levels ?_
  simp only [levels, List.forall_mem_cons]
  exact ⟨rfl, rfl, rfl, rfl, rfl, rfl, nofun⟩

theorem orderly_parseColumn (name : String) : Orderly none (parseColumn name) := by
  refine (orderly_accept (by simp)).bind fun qualified => ?_
  split
  · exact (orderly_identifier _).bind fun _ => .pure _
  · exact .pure _

theorem orderly_parseOperand (h : Orderly none operand) : Orderly none (parseOperand operand) := by
  refine .look fun k => ?_
  split
  · rename_i op sign
    refine .bind (.advance ?_) fun _ => h.bind fun _ => orderly_bounded _
    rintro rfl
    cases sign
  · rename_i word _
    refine .bind (.advance ?_) fun _ => .pure _
    rintro rfl
    cases word
  · exact .bind (.advance (by simp)) fun _ => orderly_parseColumn _
  · exact .bind (.advance (by simp)) fun _ => orderly_closed (orderly_parseOver h)
  · exact .forget (.refuse _)

theorem orderly_parseNested (nesting : Nat) : Orderly none (parseNested nesting) := by
  induction nesting with
  | zero => exact orderly_parseOperand (.refuse _)
  | succ nesting ih => exact orderly_parseOperand ih

theorem orderly_parse : Orderly none Expr.parse :=
  orderly_parseOver (orderly_parseNested maxDepth)

end Expr

/-! ## Statements -/

namespace Statement

theorem orderly_parseSelectItem : Orderly none parseSelectItem := by
  refine (orderly_accept (by simp)).bind fun all => ?_
  split
  · exact .pure _
  · exact Expr.orderly_parse.bind fun _ =>
      (orderly_optional (by simp) (orderly_identifier _)).bind fun _ => .pure _

theorem orderly_parseDirection : Orderly none parseDirection := by
  refine (orderly_accept (by simp)).bind fun descending => ?_
  split
  · exact .pure _
  · exact (orderly_accept (by simp)).bind fun _ => .pure _

theorem orderly_parseOrder : Orderly none parseOrder := by
  have names := orderly_separated (orderly_identifier "column name in ORDER BY")
  refine (orderly_accept (by simp)).bind fun ordered => ?_
  split
  · exact (orderly_expect (by simp)).bind fun _ => names.bind fun _ =>
      orderly_parseDirection.bind fun _ => .pure _
  · exact .pure _

theorem orderly_parseCount : Orderly none parseCount := by
  refine .look fun k => ?_
  split
  · exact .bind (.advance (by simp)) fun _ => .pure _
  · exact .forget (.refuse _)

theorem orderly_parseSelect : Orderly none parseSelect := by
  have items := orderly_separated orderly_parseSelectItem
  refine (orderly_expect (by simp)).bind fun _ => items.bind fun items => ?_
  refine (orderly_expect (by simp)).bind fun _ => (orderly_identifier _).bind fun source => ?_
  refine (orderly_optional (by simp) Expr.orderly_parse).bind fun filter => ?_
  refine orderly_parseOrder.bind fun order => ?_
  exact (orderly_optional (by simp) orderly_parseCount).bind fun limit => .pure _

theorem orderly_parseInsert : Orderly none parseInsert := by
  have names := orderly_closed (orderly_separated (orderly_identifier "column name"))
  have tuples := orderly_separated (orderly_parenthesized (orderly_separated Expr.orderly_parse))
  refine (orderly_expect (by simp)).bind fun _ => (orderly_expect (by simp)).bind fun _ => ?_
  refine (orderly_identifier _).bind fun table => ?_
  refine (orderly_optional (by simp) names).bind fun columns => ?_
  exact (orderly_expect (by simp)).bind fun _ => tuples.bind fun tuples => .pure _

theorem orderly_parseDataType : Orderly none parseDataType := by
  refine .look fun k => ?_
  split
  · rename_i t word
    refine .bind (.advance ?_) fun _ => .pure _
    rintro rfl
    cases word
  · exact .forget (.refuse _)

theorem orderly_parseColumn : Orderly none parseColumn := by
  refine (orderly_identifier _).bind fun name => orderly_parseDataType.bind fun dataType => ?_
  refine orderly_iterate _ fun c k => ?_
  split
  · exact .inr ⟨by simp, _, rfl, (orderly_expect (by simp)).bind fun _ => .pure _⟩
  · refine .inr ⟨by simp, _, rfl, ?_⟩
    split
    · refine .look fun key => ?_
      split
      · split
        · exact .bind (.advance (by simp)) fun _ => .pure _
        · exact .forget (.refuse _)
      · exact .forget (.refuse _)
    · exact .pure _
  · exact .inl rfl

theorem orderly_parseCreateTable : Orderly none parseCreateTable := by
  have columns := orderly_parenthesized (orderly_separated orderly_parseColumn)
  refine (orderly_expect (by simp)).bind fun _ => (orderly_expect (by simp)).bind fun _ => ?_
  exact (orderly_identifier _).bind fun name => columns.bind fun columns => .pure _

theorem orderly_parseDropTable : Orderly none parseDropTable := by
  refine (orderly_expect (by simp)).bind fun _ => (orderly_expect (by simp)).bind fun _ => ?_
  exact (orderly_identifier _).bind fun name => .pure _

theorem orderly_parseUnterminated : Orderly none parseUnterminated := by
  refine .look fun k => ?_
  split
  · exact .forget (orderly_parseSelect.map _)
  · exact .forget (orderly_parseInsert.map _)
  · exact .forget orderly_parseCreateTable
  · exact .forget orderly_parseDropTable
  · exact .forget (.refuse _)

theorem orderly_parse : Orderly none Statement.parse := by
  refine orderly_parseUnterminated.bind fun statement => (orderly_accept (by simp)).bind fun _ =>
    .look fun k => ?_
  split
  · exact .forget (.pure statement)
  · exact .forget (.refuse _)

end Statement

end Tabular
