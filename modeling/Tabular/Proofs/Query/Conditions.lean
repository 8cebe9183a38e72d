import Tabular.Proofs.Expr.Typing
import Tabular.Proofs.Query.SortLaws

/-!
# Conditions

A condition has one of three truth values on a row, and a query keeps the rows on which it is true.
The connectives compute with truth values and look at both operands, so they fail where an operand
fails or has no truth value, and nowhere else.  With `NULL` as the third value they obey the laws of
De Morgan, and every row is kept by a condition, or by its negation, or unknown to both.
-/

namespace Tabular

/-! ## Three truth values -/

theorem Value.truth?_eq_some_iff {v : Value} {a : Option Bool} :
    v.truth? = some a ↔ v = .ofTruth a := by
  cases v <;> rcases a with _ | a <;> simp [truth?, ofTruth]

theorem Value.truth?_eq_none_iff {v : Value} : v.truth? = none ↔ ¬ v.Fits .boolean := by
  cases v <;> simp [truth?, Fits, dataType?]

namespace Connective

def dual : Connective → Connective
  | and => or
  | or => and

theorem combine_dual (op : Connective) (a b : Option Bool) :
    op.dual.combine (a.map (!·)) (b.map (!·)) = (op.combine a b).map (!·) := by
  cases op <;> rcases a with _ | _ | _ <;> rcases b with _ | _ | _ <;> rfl

theorem combine_and_eq_true_iff {a b : Option Bool} :
    and.combine a b = some true ↔ a = some true ∧ b = some true := by
  rcases a with _ | _ | _ <;> rcases b with _ | _ | _ <;> decide

theorem combine_or_eq_true_iff {a b : Option Bool} :
    or.combine a b = some true ↔ a = some true ∨ b = some true := by
  rcases a with _ | _ | _ <;> rcases b with _ | _ | _ <;> decide

end Connective

theorem perm_of_truths {α : Type} (truth : α → Option Bool) (l : List α) :
    ((l.filter fun a => truth a = some true) ++ ((l.filter fun a => truth a = some false) ++
      l.filter fun a => truth a = none)).Perm l := by
  induction l with
  | nil => exact .refl _
  | cons a l ih =>
      simp only [List.filter_cons]
      rcases here : truth a with _ | _ | _ <;> simp only [reduceCtorEq, decide_true, decide_false,
        Option.some.injEq, Bool.false_eq_true, Bool.true_eq_false, if_true, if_false]
      case none => exact ((List.perm_middle.append_left _).trans List.perm_middle).trans (ih.cons a)
      case some.false => exact List.perm_middle.trans (ih.cons a)
      case some.true => exact ih.cons a

/-! ## Truth values of expressions -/

namespace Expr

/-- The truth value of an expression, if it has a value and that is one. -/
def truth? (reading : ColumnReading) (e : Expr) : Option (Option Bool) :=
  (e.eval reading).toOption.bind Value.truth?

variable {reading : ColumnReading} {p q : Expr}

theorem truth?_eq_none_iff :
    p.truth? reading = none ↔
      (∃ e, p.eval reading = .error e) ∨ ∃ v, p.eval reading = .ok v ∧ ¬ v.Fits .boolean := by
  unfold truth?
  cases p.eval reading with
  | error e => simp [Except.toOption]
  | ok v => simp [Except.toOption, Value.truth?_eq_none_iff]

theorem truth?_eq_some_iff {a : Option Bool} :
    p.truth? reading = some a ↔ p.eval reading = .ok (.ofTruth a) := by
  unfold truth?
  cases p.eval reading with
  | error e => simp [Except.toOption]
  | ok v => simp [Except.toOption, Value.truth?_eq_some_iff]

theorem toOption_connective (op : Connective) (p q : Expr) :
    ((binary p (.connective op) q).eval reading).toOption = do
      let a ← p.truth? reading
      let b ← q.truth? reading
      return .ofTruth (op.combine a b) := by
  rw [eval]
  unfold truth?
  cases p.eval reading with
  | error e => rfl
  | ok v =>
      cases q.eval reading with
      | error e => cases here : v.truth? <;> simp [here, Except.toOption, bind, Except.bind]
      | ok w =>
          change (op.apply v w).toOption = _
          unfold Connective.apply
          cases here : v.truth? <;> cases there : w.truth? <;>
            simp [here, there, Except.toOption]

theorem toOption_not (p : Expr) :
    ((unary .not p).eval reading).toOption =
      (p.truth? reading).map fun a => .ofTruth (a.map (!·)) := by
  rw [eval]
  unfold truth?
  cases p.eval reading with
  | error e => rfl
  | ok v => cases v <;> rfl

theorem truth?_connective (op : Connective) (p q : Expr) :
    (binary p (.connective op) q).truth? reading = do
      let a ← p.truth? reading
      let b ← q.truth? reading
      return op.combine a b := by
  rw [truth?, toOption_connective]
  cases p.truth? reading with
  | none => rfl
  | some a =>
      cases q.truth? reading with
      | none => rfl
      | some b => exact Value.truth?_eq_some_iff.mpr rfl

theorem truth?_not (p : Expr) :
    (unary .not p).truth? reading = (p.truth? reading).map fun a => a.map (!·) := by
  rw [truth?, toOption_not]
  cases p.truth? reading with
  | none => rfl
  | some a => exact Value.truth?_eq_some_iff.mpr rfl

/-- A negated connective is the dual one of the negations: both fail, or both have one value. -/
theorem toOption_not_connective (op : Connective) (p q : Expr) :
    ((unary .not (binary p (.connective op) q)).eval reading).toOption =
      ((binary (unary .not p) (.connective op.dual) (unary .not q)).eval reading).toOption := by
  rw [toOption_not, toOption_connective, truth?_connective, truth?_not, truth?_not]
  cases p.truth? reading with
  | none => rfl
  | some a =>
      cases q.truth? reading with
      | none => rfl
      | some b => exact congrArg (fun c => some (Value.ofTruth c)) (op.combine_dual a b).symm

theorem connective_fails_iff {op : Connective} :
    (∃ e, (binary p (.connective op) q).eval reading = .error e) ↔
      p.truth? reading = none ∨ q.truth? reading = none := by
  rw [← toOption_eq_none_iff, toOption_connective]
  cases p.truth? reading <;> cases q.truth? reading <;> simp

end Expr

/-! ## Rows that a condition keeps -/

variable {t : Table} {condition p q : Expr} {row : Row}

/-- On every row of the table the expression is true, false or `NULL`. -/
def Expr.IsCondition (t : Table) (e : Expr) : Prop :=
  ∀ row ∈ t.rows, ∃ v, e.evalRow t row = .ok v ∧ v.Fits .boolean

theorem Expr.IsCondition.exists_truth (h : p.IsCondition t) (stored : row ∈ t.rows) :
    ∃ a, p.truth? (t.value row) = some a := by
  obtain ⟨v, value, fits⟩ := h row stored
  obtain ⟨a, truth⟩ := Value.exists_truth fits
  rw [Value.truth?_eq_some_iff] at truth
  exact ⟨a, truth?_eq_some_iff.mpr (truth ▸ value)⟩

theorem Expr.isCondition_of_truths (h : ∀ row ∈ t.rows, ∃ a, p.truth? (t.value row) = some a) :
    p.IsCondition t := by
  intro row stored
  obtain ⟨a, truth⟩ := h row stored
  exact ⟨_, truth?_eq_some_iff.mp truth, Value.fits_ofTruth a⟩

theorem isTrue_evalRow_iff :
    isTrue (p.evalRow t row) = true ↔ p.truth? (t.value row) = some (some true) := by
  rw [Expr.truth?_eq_some_iff, Expr.evalRow]
  cases p.eval (t.value row) <;> simp [isTrue, Value.ofTruth]

theorem isTrue_evalRow_not_iff :
    isTrue ((Expr.unary .not p).evalRow t row) = true ↔
      p.truth? (t.value row) = some (some false) := by
  rw [isTrue_evalRow_iff, Expr.truth?_not]
  rcases p.truth? (t.value row) with _ | _ | _ | _ <;> simp

/-- The rows on which a condition is true, in the order of the table. -/
def Table.keptBy (t : Table) (condition : Expr) : List Row :=
  t.rows.filter fun row => isTrue (condition.evalRow t row)

theorem mem_keptBy_iff :
    row ∈ t.keptBy p ↔ row ∈ t.rows ∧ p.truth? (t.value row) = some (some true) := by
  rw [Table.keptBy, List.mem_filter, isTrue_evalRow_iff]

theorem isCondition_connective {op : Connective} (hp : p.IsCondition t) (hq : q.IsCondition t) :
    (Expr.binary p (.connective op) q).IsCondition t := by
  refine Expr.isCondition_of_truths fun row stored => ?_
  obtain ⟨a, first⟩ := hp.exists_truth stored
  obtain ⟨b, second⟩ := hq.exists_truth stored
  exact ⟨op.combine a b, by rw [Expr.truth?_connective, first, second]; rfl⟩

theorem isCondition_not (hp : p.IsCondition t) : (Expr.unary .not p).IsCondition t := by
  refine Expr.isCondition_of_truths fun row stored => ?_
  obtain ⟨a, truth⟩ := hp.exists_truth stored
  exact ⟨a.map (!·), by rw [Expr.truth?_not, truth]; rfl⟩

theorem keptBy_connective {op : Connective} {test : Row → Bool} (hp : p.IsCondition t)
    (hq : q.IsCondition t)
    (tests : ∀ row ∈ t.rows, ∀ a b, p.truth? (t.value row) = some a →
      q.truth? (t.value row) = some b → (op.combine a b = some true ↔ test row = true)) :
    t.keptBy (.binary p (.connective op) q) = t.rows.filter test := by
  refine List.filter_congr fun row stored => ?_
  obtain ⟨a, first⟩ := hp.exists_truth stored
  obtain ⟨b, second⟩ := hq.exists_truth stored
  rw [Bool.eq_iff_iff, isTrue_evalRow_iff, Expr.truth?_connective, first, second,
    ← tests row stored a b first second]
  exact Option.some_inj

theorem keptBy_and (hp : p.IsCondition t) (hq : q.IsCondition t) :
    t.keptBy (.binary p (.connective .and) q) =
      t.rows.filter fun row => row ∈ t.keptBy p ∧ row ∈ t.keptBy q := by
  refine keptBy_connective hp hq fun row stored a b first second => ?_
  rw [decide_eq_true_iff, mem_keptBy_iff, mem_keptBy_iff, first, second]
  simpa [stored] using Connective.combine_and_eq_true_iff

theorem keptBy_or (hp : p.IsCondition t) (hq : q.IsCondition t) :
    t.keptBy (.binary p (.connective .or) q) =
      t.rows.filter fun row => row ∈ t.keptBy p ∨ row ∈ t.keptBy q := by
  refine keptBy_connective hp hq fun row stored a b first second => ?_
  rw [decide_eq_true_iff, mem_keptBy_iff, mem_keptBy_iff, first, second]
  simpa [stored] using Connective.combine_or_eq_true_iff

theorem mem_keptBy_not_iff :
    row ∈ t.keptBy (.unary .not p) ↔ row ∈ t.rows ∧ p.truth? (t.value row) = some (some false) := by
  rw [Table.keptBy, List.mem_filter, isTrue_evalRow_not_iff]

theorem disjoint_keptBy_not (t : Table) (p : Expr) :
    (t.keptBy p).Disjoint (t.keptBy (.unary .not p)) := by
  intro row kept rejected
  have both := (mem_keptBy_iff.mp kept).2.symm.trans (mem_keptBy_not_iff.mp rejected).2
  cases both

theorem not_mem_keptBy_iff (hp : p.IsCondition t) (stored : row ∈ t.rows) :
    row ∉ t.keptBy p ∧ row ∉ t.keptBy (.unary .not p) ↔ p.evalRow t row = .ok .null := by
  obtain ⟨a, truth⟩ := hp.exists_truth stored
  have value := Expr.truth?_eq_some_iff.mp truth
  rw [mem_keptBy_iff, mem_keptBy_not_iff, truth, Expr.evalRow, value]
  rcases a with _ | _ | _ <;> simp [stored, Value.ofTruth]

theorem filter_eq_of_truth {test : Row → Bool} {a : Option Bool} (hp : p.IsCondition t)
    (tests : ∀ row, test row = true ↔ p.truth? (t.value row) = some a) :
    t.rows.filter test = t.rows.filter fun row => (p.truth? (t.value row)).join = a := by
  refine List.filter_congr fun row stored => ?_
  obtain ⟨b, truth⟩ := hp.exists_truth stored
  rw [Bool.eq_iff_iff, tests, decide_eq_true_iff, truth]
  exact Option.some_inj

theorem perm_keptBy (hp : p.IsCondition t) :
    (t.keptBy p ++ (t.keptBy (.unary .not p) ++
      t.rows.filter fun row => p.evalRow t row = .ok .null)).Perm t.rows := by
  have unknown (row : Row) : decide (p.evalRow t row = .ok .null) = true ↔
      p.truth? (t.value row) = some none :=
    decide_eq_true_iff.trans (Expr.truth?_eq_some_iff (a := none)).symm
  rw [Table.keptBy, Table.keptBy, filter_eq_of_truth hp fun _ => isTrue_evalRow_iff,
    filter_eq_of_truth hp fun _ => isTrue_evalRow_not_iff, filter_eq_of_truth hp unknown]
  exact perm_of_truths _ t.rows

/-! ## Queries with a condition -/

theorem execute_of_condition {db : Database} {source : String}
    (found : db.table? source = some t) (holds : condition.IsCondition t) :
    (Select.mk [.all] source (some condition) [] .ascending none).execute none db =
      .ok ⟨t.schema.columnNames, t.keptBy condition, 0⟩ := by
  have scanned : t.scan (some condition) = .ok (t.keptBy condition) := by
    refine keepTrue_eq_ok_iff.mpr ⟨fun row stored => ?_, rfl⟩
    obtain ⟨v, value, -⟩ := holds row stored
    exact ⟨v, value⟩
  have sorted : Select.sorted ⟨[.all], source, some condition, [], .ascending, none⟩ t =
      .ok (t.keptBy condition) := by
    refine bind_eq_ok_iff.mpr ⟨_, scanned, ?_⟩
    exact congrArg Except.ok (sortRows_nil .ascending _)
  rw [execute_of_found found, interpret_of_all rfl rfl, sorted]
  rfl

/--
Conditions that are true, false or `NULL` on every row of a table: a conjunction keeps the rows that
both keep, a disjunction those that one keeps, and a condition and its negation share no row and
leave out exactly the rows on which the condition is `NULL`.  Any expressions on any row: a negated
connective and the dual one of the negations both fail, or have the same value, and a conjunction
fails exactly where an operand fails or is neither true, false nor `NULL`.
-/
theorem conditions_obey_three_valued_logic {db : Database} {source : String} {t : Table}
    (found : db.table? source = some t) :
    let and (p q : Expr) := Expr.binary p (.connective .and) q
    let or (p q : Expr) := Expr.binary p (.connective .or) q
    let not (p : Expr) := Expr.unary .not p
    let answer (condition : Expr) : Except Error QueryResult :=
      (Select.mk [.all] source (some condition) [] .ascending none).execute none db
    let shown (rows : List Row) : Except Error QueryResult := .ok ⟨t.schema.columnNames, rows, 0⟩
    (∀ p q : Expr, p.IsCondition t → q.IsCondition t → ∃ kept kept' rejected,
      answer p = shown kept ∧ answer q = shown kept' ∧ answer (not p) = shown rejected ∧
      answer (and p q) = shown (t.rows.filter fun row => row ∈ kept ∧ row ∈ kept') ∧
      answer (or p q) = shown (t.rows.filter fun row => row ∈ kept ∨ row ∈ kept') ∧
      kept.Disjoint rejected ∧
      (∀ row ∈ t.rows, row ∉ kept ∧ row ∉ rejected ↔ p.evalRow t row = .ok .null) ∧
      (kept ++ (rejected ++ t.rows.filter fun row => p.evalRow t row = .ok .null)).Perm t.rows) ∧
    ∀ (p q : Expr) (row : Row),
      ((not (and p q)).evalRow t row).toOption = ((or (not p) (not q)).evalRow t row).toOption ∧
      ((not (or p q)).evalRow t row).toOption = ((and (not p) (not q)).evalRow t row).toOption ∧
      ((∃ e, (and p q).evalRow t row = .error e) ↔
        (∃ e, p.evalRow t row = .error e) ∨ (∃ e, q.evalRow t row = .error e) ∨
          ∃ v, (p.evalRow t row = .ok v ∨ q.evalRow t row = .ok v) ∧ ¬ v.Fits .boolean) := by
  intro and or not answer shown
  constructor
  · intro p q hp hq
    refine ⟨t.keptBy p, t.keptBy q, t.keptBy (not p), execute_of_condition found hp,
      execute_of_condition found hq, execute_of_condition found (isCondition_not hp), ?_, ?_,
      disjoint_keptBy_not t p, fun row stored => not_mem_keptBy_iff hp stored, perm_keptBy hp⟩
    · rw [← keptBy_and hp hq]
      exact execute_of_condition found (isCondition_connective hp hq)
    · rw [← keptBy_or hp hq]
      exact execute_of_condition found (isCondition_connective hp hq)
  · intro p q row
    refine ⟨Expr.toOption_not_connective .and p q, Expr.toOption_not_connective .or p q, ?_⟩
    refine Expr.connective_fails_iff.trans ?_
    rw [Expr.truth?_eq_none_iff, Expr.truth?_eq_none_iff]
    simp only [Expr.evalRow, or_and_right, exists_or]
    rw [or_or_or_comm, or_assoc]

/-- All truth values on both sides, two equal rows, and a number behind `FALSE AND`. -/
theorem conditions_obey_three_valued_logic_mixed :
    let db := Database.empty.behind
      [.createTable "t" [.plain "a" .boolean, .plain "b" .boolean],
        .insertRows "t" [[.boolean true, .boolean true], [.boolean true, .null],
          [.null, .boolean true], [.boolean false, .null], [.boolean true, .boolean true]]]
    let p := Expr.column none "a"
    let q := Expr.column (some "t") "b"
    let and (p q : Expr) := Expr.binary p (.connective .and) q
    let answer (condition : Expr) : Except Error QueryResult :=
      (Select.mk [.all] "t" (some condition) [] .ascending none).execute none db
    ∃ t, db.table? "t" = some t ∧ p.IsCondition t ∧ q.IsCondition t ∧
      (∃ kept kept', answer p = .ok ⟨["a", "b"], kept, 0⟩ ∧ answer q = .ok ⟨["a", "b"], kept', 0⟩ ∧
        answer (and p q) =
          .ok ⟨["a", "b"], t.rows.filter fun row => row ∈ kept ∧ row ∈ kept', 0⟩) ∧
      ∃ e, (and (.literal (.boolean false)) (.literal (.integer 1))).evalRow t [] = .error e := by
  intro db p q and answer
  have computed : ((db.table? "t").map fun t => (t.schema.columnNames,
      t.rows.all fun row => (p.truth? (t.value row)).isSome && (q.truth? (t.value row)).isSome)) =
      some (["a", "b"], true) := by
    decide +kernel
  obtain ⟨t, found, same⟩ := Option.map_eq_some_iff.mp computed
  obtain ⟨names, all⟩ := Prod.mk.inj same
  simp only [List.all_eq_true, Bool.and_eq_true, Option.isSome_iff_exists] at all
  have hp : p.IsCondition t := Expr.isCondition_of_truths fun row stored => (all row stored).1
  have hq : q.IsCondition t := Expr.isCondition_of_truths fun row stored => (all row stored).2
  obtain ⟨divided, laws⟩ := conditions_obey_three_valued_logic found
  obtain ⟨kept, kept', -, first, second, -, both, -⟩ := divided p q hp hq
  obtain ⟨-, -, fails⟩ := laws (.literal (.boolean false)) (.literal (.integer 1)) []
  have number : ¬ (Value.integer 1).Fits .boolean := by simp [Value.Fits, Value.dataType?]
  rw [names] at first second both
  exact ⟨t, found, hp, hq, ⟨kept, kept', first, second, both⟩,
    fails.mpr (.inr (.inr ⟨_, .inr rfl, number⟩))⟩

end Tabular
