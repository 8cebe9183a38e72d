import Mathlib.Data.List.Forall2
import Tabular.Proofs.Query.Interpretation
import Tabular.Proofs.Storage.Integrity

/-!
# Limits

A limit comes between the sort and the projection.  What is found and how it is sorted does not
depend on it, errors included, and the projection goes through the rows in turn.  So the rows of a
limited query are the first ones of the query without a limit, and so are the places where it can
fail.
-/

namespace Tabular

variable {query : Select} {t : Table} {items : List SelectItem} {rows rows' shown : List Row}

/-! ## Projections of the first rows -/

theorem projectRows_append (t : Table) (items : List SelectItem) (rows rows' : List Row) :
    projectRows t items (rows ++ rows') = do
      let shown ← projectRows t items rows
      let shown' ← projectRows t items rows'
      return shown ++ shown' :=
  traversal_append (projectRows t items) rfl (fun _ _ => rfl) (fun _ _ _ _ => rfl) rows rows'

theorem projectRows_take (projected : projectRows t items rows = .ok shown) (n : Nat) :
    projectRows t items (rows.take n) = .ok (shown.take n) :=
  projectRows_eq_ok_iff.mpr (List.forall₂_take n (projectRows_eq_ok_iff.mp projected))

theorem projectRows_eq_error_of_front {e : Error} (front : rows <+: rows')
    (fails : projectRows t items rows = .error e) : projectRows t items rows' = .error e := by
  obtain ⟨rest, rfl⟩ := front
  rw [projectRows_append, fails]
  rfl

/-! ## The rows before a limit -/

theorem Select.sorted_with_limit (query : Select) (limit : Option UInt64) (t : Table) :
    Select.sorted { query with limit } t = query.sorted t :=
  rfl

/-- Under every limit a query fails alike, or it shows the first ones of the same rows. -/
theorem execute_with_limit (query : Select) (db : Database) :
    (∃ e, ∀ limit, Select.execute { query with limit } none db = .error e) ∨
    ∃ t rows, db.table? query.source = some t ∧ rows.Subperm t.rows ∧
      ∀ limit, Select.execute { query with limit } none db =
        (projectRows t query.items (Select.first { query with limit } rows)).map fun shown =>
          ⟨query.items.flatMap (·.names t.schema), shown, 0⟩ := by
  cases found : db.table? query.source with
  | none =>
      refine .inl ⟨.tableNotFound query.source, fun limit => execute_of_missing ?_⟩
      exact found
  | some t =>
      cases sorted : query.sorted t with
      | error e =>
          refine .inl ⟨e, fun limit => ?_⟩
          rw [execute_eq_sorted { query with limit } found, Select.sorted_with_limit, sorted]
          rfl
      | ok rows =>
          refine .inr ⟨t, rows, rfl, Select.sorted_subperm sorted, fun limit => ?_⟩
          rw [execute_eq_sorted { query with limit } found, Select.sorted_with_limit, sorted]
          rfl

/--
A limit shows the first rows of those that the query shows without it.  What fails under a limit
fails alike under every greater one, and without any.  A limit that is no less than the number of
rows in the table makes no difference.
-/
theorem limit_takes_first_rows (query : Select) (db : Database) :
    let unlimited := Select.execute { query with limit := none } none db
    let limited (n : UInt64) := Select.execute { query with limit := some n } none db
    (∀ result, unlimited = .ok result →
      ∀ n, limited n = .ok { result with rows := result.rows.take n.toNat }) ∧
    (∀ n e, limited n = .error e → (∀ m, n ≤ m → limited m = .error e) ∧ unlimited = .error e) ∧
    ∀ n, (∀ t, db.table? query.source = some t → t.rows.length ≤ n.toNat) →
      limited n = unlimited := by
  intro unlimited limited
  rcases execute_with_limit query db with ⟨e, fails⟩ | ⟨t, rows, found, stored, run⟩
  · have without : unlimited = .error e := fails none
    have under (n : UInt64) : limited n = .error e := fails (some n)
    refine ⟨fun result answer => ?_, fun n e' answer => ?_, fun n _ => (under n).trans without.symm⟩
    · cases without.symm.trans answer
    · cases (under n).symm.trans answer
      exact ⟨fun m _ => under m, without⟩
  · have without : unlimited = (projectRows t query.items rows).map _ := run none
    have under (n : UInt64) : limited n = (projectRows t query.items (rows.take n.toNat)).map _ :=
      run (some n)
    refine ⟨fun result answer n => ?_, fun n e answer => ⟨fun m more => ?_, ?_⟩, fun n all => ?_⟩
    · obtain ⟨shown, projected, rfl⟩ := map_eq_ok_iff.mp (without.symm.trans answer)
      exact (under n).trans (congrArg _ (projectRows_take projected n.toNat))
    · have front : rows.take n.toNat <+: rows.take m.toNat :=
        List.take_prefix_take_left (UInt64.le_iff_toNat_le.mp more)
      have fails := map_eq_error_iff.mp ((under n).symm.trans answer)
      exact (under m).trans (map_eq_error_iff.mpr (projectRows_eq_error_of_front front fails))
    · have front : rows.take n.toNat <+: rows := List.take_prefix n.toNat rows
      have fails := map_eq_error_iff.mp ((under n).symm.trans answer)
      exact without.trans (map_eq_error_iff.mpr (projectRows_eq_error_of_front front fails))
    · have every : rows.take n.toNat = rows :=
        List.take_of_length_le (Nat.le_trans stored.length_le (all t found))
      rw [under, every, without]

/-- The division fails on the last of three rows, and only where the limit lets it in. -/
theorem limit_takes_first_rows_division :
    let db := Database.empty.behind
      [.createTable "t" [.plain "a" .integer],
        .insertRows "t" [[.integer 5], [.integer 0], [.integer 2]]]
    let quotient := Expr.binary (.literal (.integer 10)) (.arithmetic .divide) (.column none "a")
    let run (items : List SelectItem) (limit : Option UInt64) : Except Error QueryResult :=
      (Select.mk items "t" none ["a"] .descending limit).execute none db
    run [.expr quotient none] (some 2) = .ok ⟨["10 / a"], [[.integer 2], [.integer 5]], 0⟩ ∧
      run [.expr quotient none] (some 3) = .error .divisionByZero ∧
      run [.expr quotient none] (some 7) = .error .divisionByZero ∧
      run [.expr quotient none] none = .error .divisionByZero ∧
      run [.all] (some 2) = .ok ⟨["a"], [[.integer 5], [.integer 2]], 0⟩ := by
  intro db quotient run
  have two : run [.expr quotient none] (some 2) =
      .ok ⟨["10 / a"], [[.integer 2], [.integer 5]], 0⟩ := by
    simp only [run]
    cbv
  have three : run [.expr quotient none] (some 3) = .error .divisionByZero := by
    simp only [run]
    cbv
  have all : run [.all] none = .ok ⟨["a"], [[.integer 5], [.integer 2], [.integer 0]], 0⟩ := by
    simp only [run]
    cbv
  obtain ⟨-, fails, -⟩ := limit_takes_first_rows
    ⟨[.expr quotient none], "t", none, ["a"], .descending, none⟩ db
  obtain ⟨more, without⟩ := fails 3 _ three
  obtain ⟨shows, -, -⟩ := limit_takes_first_rows ⟨[.all], "t", none, ["a"], .descending, none⟩ db
  exact ⟨two, three, more 7 (by decide), without, shows _ all 2⟩

end Tabular
