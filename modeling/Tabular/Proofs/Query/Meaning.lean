import Mathlib.Data.List.Forall2
import Tabular.Statement.Execute
import Tabular.Proofs.Action
import Tabular.Proofs.Query.Sorting

/-!
# The meaning of a query

What a query answers, said without its plan: which rows it keeps, how it sorts them, how many of
them it shows and as what, and which of several errors it gives.
-/

namespace Tabular

/-! ## First failures -/

/-- `e` is the failure of the first element that fails. -/
inductive FirstFailure {α ε : Type} (Fails : α → ε → Prop) : List α → ε → Prop where
  | here {a : α} {l : List α} {e : ε} : Fails a e → FirstFailure Fails (a :: l) e
  | later {a : α} {l : List α} {e : ε} :
      (∀ e', ¬ Fails a e') → FirstFailure Fails l e → FirstFailure Fails (a :: l) e

/-! ## Rows -/

/-- The value that a column has in a row of the table. -/
def Table.cell (t : Table) (row : Row) (name : String) : Value :=
  match t.value row none name with
  | .ok v => v
  | .error _ => .null

def isTrue : Except Error Value → Bool
  | .ok v => v = .boolean true
  | .error _ => false

namespace Select

/-- On the row, the condition of the query has no value. -/
def FilterFails (query : Select) (t : Table) (row : Row) (e : Error) : Prop :=
  ∃ condition, query.filter = some condition ∧ condition.evalRow t row = .error e

/-- Is there no condition, or is it true on the row? -/
def keeps (query : Select) (t : Table) (row : Row) : Bool :=
  match query.filter with
  | none => true
  | some condition => isTrue (condition.evalRow t row)

def kept (query : Select) (t : Table) : List Row :=
  t.rows.filter (query.keeps t)

/-- The table has no such column to sort by. -/
def SortFails (t : Table) (name : String) (e : Error) : Prop :=
  name ∉ t.schema.columnNames ∧ e = .columnNotFound name

def keys (query : Select) (t : Table) (row : Row) : List Value :=
  query.orderBy.map (t.cell row)

def first (query : Select) (rows : List Row) : List Row :=
  match query.limit with
  | none => rows
  | some count => rows.take count.toNat

/-- The rows of a query: neither its condition nor a name fails, and there is one way to sort. -/
structure Picks (query : Select) (t : Table) (rows : List Row) : Prop where
  filtered : ∀ row ∈ t.rows, ∀ e, ¬ query.FilterFails t row e
  known : ∀ name ∈ query.orderBy, ∀ e, ¬ SortFails t name e
  sorted : ∃ sorted, Sorts (query.keys t) query.direction (query.kept t) sorted ∧
    (∀ other, Sorts (query.keys t) query.direction (query.kept t) other → other = sorted) ∧
    rows = query.first sorted

end Select

/-! ## Columns -/

namespace SelectItem

inductive Shows (t : Table) (row : Row) : SelectItem → List Value → Prop where
  | all : Shows t row .all row
  | expr {e : Expr} {title : Option String} {v : Value} :
      e.evalRow t row = .ok v → Shows t row (.expr e title) [v]

inductive Fails (t : Table) : Row × SelectItem → Error → Prop where
  | expr {row : Row} {e : Expr} {title : Option String} {error : Error} :
      e.evalRow t row = .error error → Fails t (row, .expr e title) error

inductive Heads (t : Table) : SelectItem → List String → Prop where
  | all : Heads t .all (t.schema.columns.map Column.name)
  | titled {e : Expr} {title : String} : Heads t (.expr e (some title)) [title]
  | column {qualifier : Option String} {name : String} :
      Heads t (.expr (.column qualifier name) none) [name]
  | rendered {e : Expr} :
      (∀ qualifier name, e ≠ .column qualifier name) → Heads t (.expr e none) [e.render]

end SelectItem

/-- What the entries give, one behind the other. -/
def Joins {α β : Type} (gives : α → List β → Prop) (items : List α) (whole : List β) : Prop :=
  ∃ parts, List.Forall₂ gives items parts ∧ whole = parts.flatten

/-- The places of an output, row by row and in each row entry by entry. -/
def places (rows : List Row) (items : List SelectItem) : List (Row × SelectItem) :=
  rows.flatMap fun row => items.map fun item => (row, item)

/-- The answer of a query over a database. -/
inductive Select.Means (query : Select) (db : Database) : Except Error QueryResult → Prop where
  | noTable : db.table? query.source = none → Means query db (.error (.tableNotFound query.source))
  | filterFails {t : Table} {e : Error} : db.table? query.source = some t →
      FirstFailure (query.FilterFails t) t.rows e → Means query db (.error e)
  | sortFails {t : Table} {e : Error} : db.table? query.source = some t →
      (∀ row ∈ t.rows, ∀ e, ¬ query.FilterFails t row e) →
      FirstFailure (SortFails t) query.orderBy e → Means query db (.error e)
  | itemFails {t : Table} {rows : List Row} {e : Error} : db.table? query.source = some t →
      query.Picks t rows → FirstFailure (SelectItem.Fails t) (places rows query.items) e →
      Means query db (.error e)
  | result {t : Table} {rows shown : List Row} {columns : List String} :
      db.table? query.source = some t → query.Picks t rows →
      List.Forall₂ (fun row => Joins (SelectItem.Shows t row) query.items) rows shown →
      Joins (SelectItem.Heads t) query.items columns →
      Means query db (.ok ⟨columns, shown, 0⟩)

/-! ## First failures in lists -/

section Failures

variable {α β γ ε : Type} {Fails : α → ε → Prop}

theorem firstFailure_cons_iff {a : α} {l : List α} {e : ε} :
    FirstFailure Fails (a :: l) e ↔ Fails a e ∨ (∀ e', ¬ Fails a e') ∧ FirstFailure Fails l e := by
  constructor
  · intro failure
    cases failure with
    | here fails => exact .inl fails
    | later passes rest => exact .inr ⟨passes, rest⟩
  · rintro (fails | ⟨passes, rest⟩)
    · exact .here fails
    · exact .later passes rest

theorem not_firstFailure_nil {e : ε} : ¬ FirstFailure Fails [] e :=
  nofun

theorem forall_not_firstFailure_iff {l : List α} :
    (∀ e, ¬ FirstFailure Fails l e) ↔ ∀ a ∈ l, ∀ e, ¬ Fails a e := by
  induction l with
  | nil => simp [not_firstFailure_nil]
  | cons a l ih =>
      simp only [firstFailure_cons_iff, List.forall_mem_cons, ← ih]
      constructor
      · intro none
        have passes : ∀ e, ¬ Fails a e := fun e fails => none e (.inl fails)
        exact ⟨passes, fun e rest => none e (.inr ⟨passes, rest⟩)⟩
      · rintro ⟨passes, rest⟩ e (fails | ⟨-, failure⟩)
        · exact passes e fails
        · exact rest e failure

theorem firstFailure_append_iff {l l' : List α} {e : ε} :
    FirstFailure Fails (l ++ l') e ↔
      FirstFailure Fails l e ∨ (∀ e', ¬ FirstFailure Fails l e') ∧ FirstFailure Fails l' e := by
  induction l with
  | nil => simp [not_firstFailure_nil]
  | cons a l ih =>
      simp only [List.cons_append, firstFailure_cons_iff, ih]
      grind

theorem firstFailure_map_iff {f : β → α} {l : List β} {e : ε} :
    FirstFailure Fails (l.map f) e ↔ FirstFailure (fun b => Fails (f b)) l e := by
  induction l with
  | nil => simp [not_firstFailure_nil]
  | cons b l ih => simp only [List.map_cons, firstFailure_cons_iff, ih]

theorem firstFailure_flatMap_iff {f : β → List α} {l : List β} {e : ε} :
    FirstFailure Fails (l.flatMap f) e ↔
      FirstFailure (fun b => FirstFailure Fails (f b)) l e := by
  induction l with
  | nil => simp [not_firstFailure_nil]
  | cons b l ih =>
      rw [List.flatMap_cons, firstFailure_append_iff, firstFailure_cons_iff, ih]

theorem firstFailure_congr {Fails' : α → ε → Prop} {l : List α} {e : ε}
    (same : ∀ a ∈ l, ∀ e, Fails a e ↔ Fails' a e) :
    FirstFailure Fails l e ↔ FirstFailure Fails' l e := by
  induction l with
  | nil => simp [not_firstFailure_nil]
  | cons a l ih =>
      obtain ⟨first, rest⟩ := List.forall_mem_cons.mp same
      simp only [firstFailure_cons_iff, first, ih rest]

/-- What goes through a list from its beginning fails where the first element does. -/
theorem traversal_eq_error_iff {f : α → Except ε β} (go : List α → Except ε γ) {none : γ}
    {join : α → β → γ → γ} (nil : go [] = .ok none)
    (cons : ∀ a l, go (a :: l) = do
      let b ← f a
      let c ← go l
      return join a b c) {l : List α} {e : ε} :
    go l = .error e ↔ FirstFailure (fun a e => f a = .error e) l e := by
  induction l with
  | nil => simp [nil, not_firstFailure_nil]
  | cons a l ih =>
      rw [cons, bind_eq_error_iff, firstFailure_cons_iff, ← ih, forall_ne_error_iff]
      simp only [bind_eq_error_iff]
      simp [pure, Except.pure]

theorem traversal_append {f : α → Except ε β} (go : List α → Except ε (List γ))
    {join : α → β → List γ → List γ} (nil : go [] = .ok [])
    (cons : ∀ a l, go (a :: l) = do
      let b ← f a
      let c ← go l
      return join a b c)
    (assoc : ∀ a b c c', join a b (c ++ c') = join a b c ++ c') (l l' : List α) :
    go (l ++ l') = do
      let c ← go l
      let c' ← go l'
      return c ++ c' := by
  induction l with
  | nil =>
      rw [List.nil_append, nil]
      cases go l' <;> rfl
  | cons a l ih =>
      rw [List.cons_append, cons, cons, ih]
      simp only [bind_assoc, pure_bind, assoc]

end Failures

/-! ## Outputs in parts -/

theorem joins_nil_iff {α β : Type} {gives : α → List β → Prop} {whole : List β} :
    Joins gives [] whole ↔ whole = [] := by
  simp [Joins]

theorem joins_cons_iff {α β : Type} {gives : α → List β → Prop} {a : α} {items : List α}
    {whole : List β} :
    Joins gives (a :: items) whole ↔
      ∃ part rest, gives a part ∧ Joins gives items rest ∧ whole = part ++ rest := by
  constructor
  · rintro ⟨_, parts, rfl⟩
    cases parts with
    | cons first others => exact ⟨_, _, first, ⟨_, others, rfl⟩, rfl⟩
  · rintro ⟨part, rest, first, ⟨parts, others, rfl⟩, rfl⟩
    exact ⟨part :: parts, .cons first others, rfl⟩

end Tabular
