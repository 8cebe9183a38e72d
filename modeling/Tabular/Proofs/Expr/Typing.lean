import Tabular.Proofs.Storage.Integrity

/-!
# Types of expressions

Over a table an expression has a type if every operator in it fits its operands.  On a row that fits
the table such an expression has a value of its type or `NULL`, and arithmetic is the only thing
that can fail in it: by a division by zero, or by a result that has no integer.
-/

namespace Tabular

/-! ## Values and operators -/

/-- The value has the type, or it is `NULL`, which is a value of every type. -/
def Value.Fits (ty : DataType) (v : Value) : Prop :=
  v = .null ∨ v.dataType? = some ty

theorem Value.fits_null (ty : DataType) : Value.null.Fits ty :=
  .inl rfl

theorem Column.Admits.fits {c : Column} {v : Value} (h : c.Admits v) : v.Fits c.dataType := by
  unfold Column.Admits at h
  split at h
  · exact .inl (Value.dataType?_eq_none_iff.mp ‹_›)
  · exact .inr (h ▸ ‹_›)

theorem Schema.Admits.cell {s : Schema} {row : Row} (h : s.Admits row) {i : Nat} {c : Column}
    (column : s.columns[i]? = some c) :
    row[i]? = some (row.getD i .null) ∧ (row.getD i .null).Fits c.dataType := by
  have inside : i < row.length := by
    rw [h.1]
    exact (List.getElem?_eq_some_iff.mp column).1
  have here : row[i]? = some (row.getD i .null) := by
    rw [List.getD_eq_getElem?_getD, List.getElem?_eq_getElem inside]
    rfl
  exact ⟨here, (h.2 i c _ column here).fits⟩

theorem Table.value_of_named {t : Table} {row : Row} {i : Nat} {name : String} {v : Value}
    {qualifier : Option String} (named : t.schema.columnNames[i]? = some name)
    (here : row[i]? = some v) (own : ∀ q, qualifier = some q → q = t.name) :
    t.value row qualifier name = .ok v := by
  have unqualified : Table.value.unqualified t row name = .ok v := by
    simp only [Table.value.unqualified, Schema.index_eq_ok_iff.mpr named, bind, Except.bind, here]
  cases qualifier with
  | none => exact unqualified
  | some q => rw [Table.value, if_pos (own q rfl), unqualified]

namespace DataType

def isNumeric : DataType → Bool
  | integer | real => true
  | text | boolean => false

def common : DataType → DataType → DataType
  | integer, integer => integer
  | _, _ => real

end DataType

/-- A value of the type; or, where there is `arithmetic`, one of its two errors. -/
inductive Yields (arithmetic : Prop) (ty : DataType) : Except Error Value → Prop where
  | value {v : Value} : v.Fits ty → Yields arithmetic ty (.ok v)
  | divisionByZero : arithmetic → Yields arithmetic ty (.error .divisionByZero)
  | overflow (operation : String) :
      arithmetic → Yields arithmetic ty (.error (.integerOverflow operation))

variable {ty ty' : DataType} {v w : Value} {p q : Prop}

theorem Yields.bind {x : Except Error Value} {f : Value → Except Error Value} (h : Yields p ty x)
    (inside : p → q) (h' : ∀ v, v.Fits ty → Yields q ty' (f v)) : Yields q ty' (x >>= f) := by
  cases h with
  | value fits => exact h' _ fits
  | divisionByZero arithmetic => exact .divisionByZero (inside arithmetic)
  | overflow operation arithmetic => exact .overflow operation (inside arithmetic)

theorem Yields.weaken {x : Except Error Value} (h : Yields p ty x) (inside : p → q) :
    Yields q ty x := by
  cases h with
  | value fits => exact .value fits
  | divisionByZero arithmetic => exact .divisionByZero (inside arithmetic)
  | overflow operation arithmetic => exact .overflow operation (inside arithmetic)

namespace Arithmetic

theorem yields_onIntegers (op : Arithmetic) (m n : Int64) :
    Yields True .integer (op.onIntegers m n) := by
  unfold onIntegers
  split
  · exact .divisionByZero trivial
  · split
    · exact .value (.inr rfl)
    · exact .overflow _ trivial

theorem yields_onReals (op : Arithmetic) (x y : Binary64) : Yields True .real (op.onReals x y) := by
  unfold onReals
  split
  · exact .divisionByZero trivial
  · exact .value (.inr rfl)

theorem yields_apply (op : Arithmetic) (hv : v.Fits ty) (hw : w.Fits ty')
    (number : ty.isNumeric = true) (number' : ty'.isNumeric = true) :
    Yields True (ty.common ty') (op.apply v w) := by
  rcases hv with rfl | hv
  · exact .value (Value.fits_null _)
  rcases hw with rfl | hw
  · cases v <;> exact .value (Value.fits_null _)
  cases v <;> cases hv <;> cases w <;> cases hw
  case integer.refl.integer.refl m n => exact op.yields_onIntegers m n
  case integer.refl.real.refl m y => exact op.yields_onReals _ y
  case real.refl.integer.refl x n => exact op.yields_onReals x _
  case real.refl.real.refl x y => exact op.yields_onReals x y
  all_goals contradiction

end Arithmetic

theorem Comparison.fits_apply (op : Comparison) (v w : Value) : (op.apply v w).Fits .boolean := by
  unfold Comparison.apply
  split
  · exact .inr rfl
  · exact Value.fits_null _

theorem Value.exists_truth (h : v.Fits .boolean) : ∃ p, v.truth? = some p := by
  rcases h with rfl | h
  · exact ⟨none, rfl⟩
  · cases v <;> cases h
    exact ⟨_, rfl⟩

theorem Value.fits_ofTruth (p : Option Bool) : (Value.ofTruth p).Fits .boolean := by
  cases p with
  | none => exact fits_null _
  | some b => exact .inr rfl

theorem Connective.yields_apply (op : Connective) (hv : v.Fits .boolean) (hw : w.Fits .boolean) :
    Yields p .boolean (op.apply v w) := by
  obtain ⟨left, known⟩ := Value.exists_truth hv
  obtain ⟨right, known'⟩ := Value.exists_truth hw
  rw [Connective.apply, known, known']
  exact .value (Value.fits_ofTruth _)

namespace UnaryOp

theorem yields_apply_not (hv : v.Fits .boolean) : Yields p .boolean (not.apply v) := by
  rcases hv with rfl | hv
  · exact .value (Value.fits_null _)
  · cases v <;> cases hv
    exact .value (.inr rfl)

theorem yields_apply_minus (hv : v.Fits ty) (number : ty.isNumeric = true) :
    Yields True ty (minus.apply v) := by
  rcases hv with rfl | hv
  · exact .value (Value.fits_null _)
  cases v <;> cases hv
  case integer.refl n =>
    simp only [UnaryOp.apply]
    split
    · exact .value (.inr rfl)
    · exact .overflow _ trivial
  case real.refl x => exact .value (.inr rfl)
  all_goals contradiction

end UnaryOp

/-! ## Expressions -/

namespace Expr

/-- The type of an expression over a table.  A bare `NULL` has every type. -/
inductive HasType (t : Table) : Expr → DataType → Prop where
  | literal {v : Value} {ty : DataType} : v.dataType? = some ty → HasType t (.literal v) ty
  | null {ty : DataType} : HasType t (.literal .null) ty
  | column {c : Column} {qualifier : Option String} :
      c ∈ t.schema.columns → (∀ q, qualifier = some q → q = t.name) →
      HasType t (.column qualifier c.name) c.dataType
  | arithmetic {op : Arithmetic} {left right : Expr} {ty ty' : DataType} :
      HasType t left ty → HasType t right ty' → ty.isNumeric = true → ty'.isNumeric = true →
      HasType t (.binary left (.arithmetic op) right) (ty.common ty')
  | minus {e : Expr} {ty : DataType} :
      HasType t e ty → ty.isNumeric = true → HasType t (.unary .minus e) ty
  | comparison {op : Comparison} {left right : Expr} {ty ty' : DataType} :
      HasType t left ty → HasType t right ty' →
      HasType t (.binary left (.comparison op) right) .boolean
  | connective {op : Connective} {left right : Expr} :
      HasType t left .boolean → HasType t right .boolean →
      HasType t (.binary left (.connective op) right) .boolean
  | not {e : Expr} : HasType t e .boolean → HasType t (.unary .not e) .boolean

def hasArithmetic : Expr → Bool
  | literal _ | column _ _ => false
  | binary left op right =>
      (op matches .arithmetic _) || left.hasArithmetic || right.hasArithmetic
  | unary op operand => op == .minus || operand.hasArithmetic

variable {t : Table} {row : Row} {e : Expr}

theorem exists_value (fits : t.schema.Admits row) {c : Column} (member : c ∈ t.schema.columns)
    {qualifier : Option String} (own : ∀ q, qualifier = some q → q = t.name) :
    ∃ v, t.value row qualifier c.name = .ok v ∧ v.Fits c.dataType := by
  obtain ⟨i, column⟩ := List.mem_iff_getElem?.mp member
  obtain ⟨cell, isType⟩ := fits.cell column
  have named : t.schema.columnNames[i]? = some c.name := by
    rw [Schema.columnNames, List.getElem?_map, column]
    rfl
  exact ⟨row.getD i .null, Table.value_of_named named cell own, isType⟩

theorem HasType.yields (typed : HasType t e ty) (fits : t.schema.Admits row) :
    Yields (e.hasArithmetic = true) ty (e.evalRow t row) := by
  induction typed with
  | literal isType => exact .value (.inr isType)
  | null => exact .value (Value.fits_null _)
  | column member own =>
      obtain ⟨v, value, isType⟩ := exists_value fits member own
      rw [evalRow, eval, value]
      exact .value isType
  | arithmetic _ _ number number' ih ih' =>
      refine ih.bind (fun _ => rfl) fun v hv => ih'.bind (fun _ => rfl) fun w hw => ?_
      exact (Arithmetic.yields_apply _ hv hw number number').weaken fun _ => rfl
  | minus _ number ih =>
      refine ih.bind (fun _ => rfl) fun v hv => ?_
      exact (UnaryOp.yields_apply_minus hv number).weaken fun _ => rfl
  | comparison _ _ ih ih' =>
      refine ih.bind (by simp +contextual [hasArithmetic]) fun v _ => ?_
      refine ih'.bind (by simp +contextual [hasArithmetic]) fun w _ => ?_
      exact .value (Comparison.fits_apply _ v w)
  | connective _ _ ih ih' =>
      refine ih.bind (by simp +contextual [hasArithmetic]) fun v hv => ?_
      refine ih'.bind (by simp +contextual [hasArithmetic]) fun w hw => ?_
      exact Connective.yields_apply _ hv hw
  | not _ ih =>
      refine ih.bind (by simp +contextual [hasArithmetic]) fun v hv => ?_
      exact UnaryOp.yields_apply_not hv

end Expr

/--
On a stored row of a reachable table, an expression with a type has a value of it or `NULL`, or
divides by zero, or overflows; and without arithmetic it has a value.
-/
theorem well_typed_evaluates {db : Database} {name : String} {t : Table} {row : Row} {e : Expr}
    {ty : DataType} (reachable : db.Reachable) (found : db.table? name = some t)
    (stored : row ∈ t.rows) (typed : e.HasType t ty) :
    (∀ v, e.evalRow t row = .ok v → v = .null ∨ v.dataType? = some ty) ∧
      (∀ error, e.evalRow t row = .error error →
        error = .divisionByZero ∨ ∃ operation, error = .integerOverflow operation) ∧
      (e.hasArithmetic = false → ∃ v, e.evalRow t row = .ok v) := by
  have fits := (reachable.wellFormed name t found).2.fitting row stored
  have yields := typed.yields fits
  generalize e.evalRow t row = outcome at yields
  cases yields with
  | value isType =>
      refine ⟨?_, nofun, fun _ => ⟨_, rfl⟩⟩
      rintro _ ⟨⟩
      exact isType
  | divisionByZero arithmetic =>
      refine ⟨nofun, ?_, fun plain => ?_⟩
      · rintro _ ⟨⟩
        exact .inl rfl
      · rw [plain] at arithmetic
        cases arithmetic
  | overflow operation arithmetic =>
      refine ⟨nofun, ?_, fun plain => ?_⟩
      · rintro _ ⟨⟩
        exact .inr ⟨operation, rfl⟩
      · rw [plain] at arithmetic
        cases arithmetic

open Tabular.Expr in
/-- Numbers of both types, `NULL`, a qualified column, a comparison and both kinds of logic. -/
theorem well_typed_evaluates_mixed :
    let s := (Session.new .strict).behind
      [.execute "CREATE TABLE t (a INTEGER NOT NULL, b REAL, c BOOLEAN)",
        .execute "INSERT INTO t VALUES (7, NULL, TRUE)"]
    let half := binary (column (some "t") "a") (.arithmetic .divide) (literal (.integer 2))
    let sum := binary half (.arithmetic .add) (column none "b")
    let e := binary (binary sum (.comparison .less) (literal (.integer 5))) (.connective .and)
      (unary .not (column none "c"))
    ∃ t row, s.database.table? "t" = some t ∧ row ∈ t.rows ∧ e.HasType t .boolean ∧
      ∀ v, e.evalRow t row = .ok v → v = .null ∨ v.dataType? = some .boolean := by
  intro s half sum e
  have table : (s.database.table? "t").map (fun t => (t.name, t.schema.columns, t.rows)) =
      some ("t", [⟨"a", .integer, false, false⟩, ⟨"b", .real, true, false⟩,
        ⟨"c", .boolean, true, false⟩], [[.integer 7, .null, .boolean true]]) := by
    decide +kernel
  obtain ⟨t, found, same⟩ := Option.map_eq_some_iff.mp table
  obtain ⟨name, columns, rows⟩ : t.name = _ ∧ t.schema.columns = _ ∧ t.rows = _ := by
    simpa only [Prod.mk.injEq] using same
  have typed : e.HasType t .boolean := by
    have a : (column (some "t") "a").HasType t .integer :=
      .column (c := ⟨"a", .integer, false, false⟩) (by simp [columns]) (by simp [name])
    have b : (column none "b").HasType t .real :=
      .column (c := ⟨"b", .real, true, false⟩) (by simp [columns]) nofun
    have c : (column none "c").HasType t .boolean :=
      .column (c := ⟨"c", .boolean, true, false⟩) (by simp [columns]) nofun
    have two : (literal (.integer 2)).HasType t .integer := .literal rfl
    have quotient : half.HasType t .integer := .arithmetic a two rfl rfl
    have total : sum.HasType t .real := .arithmetic quotient b rfl rfl
    exact .connective (.comparison total (.literal rfl)) (.not c)
  have stored : [.integer 7, .null, .boolean true] ∈ t.rows := by simp [rows]
  exact ⟨t, _, found, stored, typed,
    (well_typed_evaluates (.requests .strict _) found stored typed).1⟩

end Tabular
