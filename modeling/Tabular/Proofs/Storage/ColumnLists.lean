import Mathlib.Data.Fin.VecNotation
import Mathlib.Data.List.FinRange
import Mathlib.Data.List.Forall2
import Tabular.Proofs.Storage.Insertion

/-!
# Column lists

A column list names positions, and does nothing else.  What stands under a name in a row is the
value that goes with the name in the list, or `NULL` if the list does not have the name.  So it
does not matter in which order the names are listed, nor whether `NULL` is given or left out, and
the list of all columns in the order of the schema may be left out itself.
-/

namespace Tabular

/-! ## Lists -/

theorem mapM_eq_ok_iff {α β ε : Type} {f : α → Except ε β} {l : List α} {bs : List β} :
    l.mapM f = .ok bs ↔ List.Forall₂ (fun a b => f a = .ok b) l bs := by
  induction l generalizing bs with
  | nil =>
      rw [List.mapM_nil, List.forall₂_nil_left_iff]
      exact ok_eq_ok_iff
  | cons a l ih =>
      rw [List.mapM_cons, bind_eq_ok_iff, List.forall₂_cons_left_iff]
      refine exists_congr fun b => ?_
      rw [bind_eq_ok_iff]
      constructor
      · rintro ⟨first, others, rest, ⟨⟩⟩
        exact ⟨others, first, ih.mp rest, rfl⟩
      · rintro ⟨others, first, rest, rfl⟩
        exact ⟨first, others, ih.mpr rest, rfl⟩

/-- Each element of the first list has a partner in the second. -/
theorem exists_of_forall₂ {α β : Type} {R : α → β → Prop} {l : List α} {bs : List β} {a : α}
    (all : List.Forall₂ R l bs) (member : a ∈ l) : ∃ b ∈ bs, R a b := by
  induction all with
  | nil => cases member
  | @cons _ b _ _ first _ ih =>
      rcases List.mem_cons.mp member with rfl | later
      · exact ⟨b, List.mem_cons_self, first⟩
      · obtain ⟨b', inside, related⟩ := ih later
        exact ⟨b', List.mem_cons_of_mem b inside, related⟩

theorem forall₂_ofFn_left_iff {α β : Type} {R : α → β → Prop} {k : Nat} {f : Fin k → α}
    {bs : List β} :
    List.Forall₂ R (List.ofFn f) bs ↔ ∃ g : Fin k → β, bs = List.ofFn g ∧ ∀ j, R (f j) (g j) := by
  rw [List.forall₂_iff_get]
  constructor
  · rintro ⟨length, related⟩
    rw [List.length_ofFn] at length
    subst length
    refine ⟨bs.get, (List.ofFn_get bs).symm, fun j => ?_⟩
    have here := related j (by simp) j.isLt
    rwa [List.get_ofFn] at here
  · rintro ⟨g, rfl, related⟩
    refine ⟨by simp, fun i _ _ => ?_⟩
    rw [List.get_ofFn, List.get_ofFn]
    exact related _

/-! ## Positions of names -/

namespace Schema

variable {s : Schema} {names : List String}

theorem positionsOf_eq_ok_iff {seen : List String} {positions : List Nat} :
    s.positionsOf seen names = .ok positions ↔
      names.Nodup ∧ (∀ name ∈ names, name ∉ seen) ∧
        List.Forall₂ (fun name i => s.index name = .ok i) names positions := by
  -- Every name is seen by those behind it, which makes the names distinct.
  induction names generalizing seen positions with
  | nil =>
      rw [positionsOf, List.forall₂_nil_left_iff]
      simp [eq_comm]
  | cons name names ih =>
      rw [List.nodup_cons, List.forall_mem_cons, List.forall₂_cons_left_iff]
      by_cases again : name ∈ seen
      · simp [positionsOf, again, throw, throwThe, MonadExceptOf.throw, bind, Except.bind]
      · simp only [positionsOf, if_neg again, bind_eq_ok_iff, ih]
        constructor
        · rintro ⟨i, first, others, ⟨distinct, new, rest⟩, ⟨⟩⟩
          refine ⟨⟨fun later => ?_, distinct⟩, ⟨again, fun name' later => ?_⟩,
            i, others, first, rest, rfl⟩
          · exact new name later List.mem_cons_self
          · exact fun before => new name' later (List.mem_cons_of_mem _ before)
        · rintro ⟨⟨once, distinct⟩, ⟨-, new⟩, i, others, first, rest, rfl⟩
          refine ⟨i, first, others, ⟨distinct, fun name' later => ?_, rest⟩, rfl⟩
          rw [List.mem_cons, not_or]
          exact ⟨fun same => once (same ▸ later), new name' later⟩

theorem mapM_positionsOf_eq_ok_iff {positions : Option (List Nat)} :
    (some names).mapM (s.positionsOf []) = .ok positions ↔
      ∃ ps, names.Nodup ∧ List.Forall₂ (fun name i => s.index name = .ok i) names ps ∧
        positions = some ps := by
  rw [Option.mapM_some, map_eq_pure_bind, bind_eq_ok_iff]
  refine exists_congr fun ps => ?_
  rw [positionsOf_eq_ok_iff]
  constructor
  · rintro ⟨⟨distinct, -, indexed⟩, ⟨⟩⟩
    exact ⟨distinct, indexed, rfl⟩
  · rintro ⟨distinct, indexed, rfl⟩
    exact ⟨⟨distinct, by simp, indexed⟩, rfl⟩

end Schema

/-! ## Rows by names -/

namespace Insert

variable {k : Nat} {s : Schema} {columns : Fin k → String} {values : Fin k → Value}
  {tuple : Fin k → Expr} {row : Row}

/-- The value goes with the name in the list, or it is `NULL` and the list lacks the name. -/
def Gives (columns : Fin k → String) (values : Fin k → Value) (name : String) (v : Value) : Prop :=
  (∃ j, columns j = name ∧ v = values j) ∨ (∀ j, columns j ≠ name) ∧ v = .null

def HasValues (tuple : Fin k → Expr) (values : Fin k → Value) : Prop :=
  ∀ j, (tuple j).evalConstant = .ok (values j)

/-- In the row stands under each name what the tuple gives to the name. -/
def Fills (s : Schema) (columns : Fin k → String) (tuple : Fin k → Expr) (row : Row) : Prop :=
  ∃ values, HasValues tuple values ∧ List.Forall₂ (Gives columns values) s.columnNames row

theorem mapM_evalConstant_eq_ok_iff {l : List Value} :
    (List.ofFn tuple).mapM Expr.evalConstant = .ok l ↔
      ∃ values, l = List.ofFn values ∧ HasValues tuple values := by
  rw [mapM_eq_ok_iff, forall₂_ofFn_left_iff]
  rfl

theorem gives_unique (distinct : columns.Injective) :
    Relator.RightUnique (Gives columns values) := by
  rintro name v v' (⟨j, here, rfl⟩ | ⟨missing, rfl⟩) (⟨j', here', rfl⟩ | ⟨missing', rfl⟩)
  · rw [distinct (here.trans here'.symm)]
  · exact absurd here (missing' j)
  · exact absurd here' (missing j')
  · rfl

theorem gives_spreadRow {positions : Fin k → Nat}
    (found : ∀ j, s.index (columns j) = .ok (positions j)) :
    List.Forall₂ (Gives columns values) s.columnNames
      (spreadRow s.width (List.ofFn positions) (List.ofFn values)) := by
  rw [List.forall₂_iff_get]
  refine ⟨by simp [spreadRow, Schema.columnNames, Schema.width], fun i inside inside' => ?_⟩
  -- No two columns share a name, so a name is found at the place where it stands and nowhere else.
  have here (j : Fin k) : columns j = s.columnNames[i] ↔ positions j = i := by
    constructor
    · intro same
      have index := Schema.index_eq_ok_iff.mpr (List.getElem?_eq_some_iff.mpr ⟨inside, same.symm⟩)
      exact Except.ok.inj ((found j).symm.trans index)
    · rintro rfl
      obtain ⟨_, same⟩ := List.getElem?_eq_some_iff.mp (Schema.index_eq_ok_iff.mp (found j))
      exact same.symm
  simp only [List.get_eq_getElem, spreadRow, List.getElem_map, List.getElem_range]
  cases listed : (List.ofFn positions).idxOf? i with
  | none =>
      refine .inr ⟨fun j same => ?_, rfl⟩
      exact List.idxOf?_eq_none_iff.mp listed (List.mem_ofFn.mpr ⟨j, (here j).mp same⟩)
  | some m =>
      obtain ⟨less, same, -⟩ := List.idxOf?_eq_some_iff.mp listed
      rw [List.length_ofFn] at less
      rw [List.getElem_ofFn] at same
      refine .inl ⟨⟨m, less⟩, (here _).mpr same, ?_⟩
      simp [List.getD_eq_getElem?_getD, less]

theorem makes_iff_fills {positions : Fin k → Nat} (distinct : columns.Injective)
    (found : ∀ j, s.index (columns j) = .ok (positions j)) :
    Makes s (some (List.ofFn positions)) (List.ofFn tuple) row ↔ Fills s columns tuple row := by
  simp only [Makes, Spreads, mapM_evalConstant_eq_ok_iff]
  constructor
  · rintro ⟨_, ⟨values, rfl, constant⟩, -, rfl⟩
    exact ⟨values, constant, gives_spreadRow found⟩
  · rintro ⟨values, constant, filled⟩
    refine ⟨List.ofFn values, ⟨values, rfl, constant⟩, by simp, ?_⟩
    -- The spread row is filled too, and under distinct names a tuple fills one row only.
    exact List.right_unique_forall₂' (gives_unique distinct) filled (gives_spreadRow found)

theorem makes_none_iff :
    Makes s none (List.ofFn tuple) row ↔
      ∃ values, HasValues tuple values ∧ row = List.ofFn values := by
  simp only [Makes, Spreads, mapM_evalConstant_eq_ok_iff]
  constructor
  · rintro ⟨_, ⟨values, rfl, constant⟩, rfl⟩
    exact ⟨values, constant, rfl⟩
  · rintro ⟨values, constant, rfl⟩
    exact ⟨_, ⟨values, rfl, constant⟩, rfl⟩

/-! ## Insertions with and without names -/

def named (table : String) (columns : Fin k → String) (tuples : List (Fin k → Expr)) : Insert :=
  ⟨table, some (List.ofFn columns), tuples.map List.ofFn⟩

def unnamed (table : String) (tuples : List (Fin k → Expr)) : Insert :=
  ⟨table, none, tuples.map List.ofFn⟩

variable {table : String} {tuples : List (Fin k → Expr)} {added : List Row}

theorem adds_named_iff :
    (named table columns tuples).Adds s added ↔
      columns.Injective ∧ (∀ j, columns j ∈ s.columnNames) ∧
        List.Forall₂ (Fills s columns) tuples added ∧ ∀ row ∈ added, s.Admits row := by
  constructor
  · rintro ⟨⟨_, resolved, made⟩, valid⟩
    obtain ⟨_, nodup, indexed, rfl⟩ := Schema.mapM_positionsOf_eq_ok_iff.mp resolved
    obtain ⟨positions, rfl, found⟩ := forall₂_ofFn_left_iff.mp indexed
    have distinct := List.nodup_ofFn.mp nodup
    refine ⟨distinct, fun j => Schema.exists_index_iff.mp ⟨_, found j⟩, ?_, valid⟩
    exact (List.forall₂_map_left_iff.mp made).imp fun _ _ => (makes_iff_fills distinct found).mp
  · rintro ⟨distinct, listed, filled, valid⟩
    choose positions found using fun j => Schema.exists_index_iff.mpr (listed j)
    have indexed : List.Forall₂ (fun name i => s.index name = .ok i) _ (List.ofFn positions) :=
      forall₂_ofFn_left_iff.mpr ⟨positions, rfl, found⟩
    have resolved := Schema.mapM_positionsOf_eq_ok_iff.mpr
      ⟨_, List.nodup_ofFn.mpr distinct, indexed, rfl⟩
    have made := filled.imp fun _ _ => (makes_iff_fills distinct found).mpr
    exact ⟨⟨_, resolved, List.forall₂_map_left_iff.mpr made⟩, valid⟩

theorem adds_unnamed_iff :
    (unnamed table tuples).Adds s added ↔
      List.Forall₂ (fun tuple row => ∃ values, HasValues tuple values ∧ row = List.ofFn values)
        tuples added ∧ ∀ row ∈ added, s.Admits row := by
  simp only [Adds, unnamed, Option.mapM_none, List.forall₂_map_left_iff]
  constructor
  · rintro ⟨⟨_, ⟨⟩, made⟩, valid⟩
    exact ⟨made.imp fun _ _ => makes_none_iff.mp, valid⟩
  · rintro ⟨made, valid⟩
    exact ⟨⟨none, rfl, made.imp fun _ _ => makes_none_iff.mpr⟩, valid⟩

/-! ### The order of the names -/

theorem gives_comp (σ : Equiv.Perm (Fin k)) :
    Gives (columns ∘ σ) (values ∘ σ) = Gives columns values := by
  funext name v
  have given : (∃ j, columns (σ j) = name ∧ v = values (σ j)) ↔
      ∃ j, columns j = name ∧ v = values j := σ.exists_congr fun _ => Iff.rfl
  have missing : (∀ j, columns (σ j) ≠ name) ↔ ∀ j, columns j ≠ name :=
    σ.forall_congr fun _ => Iff.rfl
  exact propext (or_congr given (and_congr_left' missing))

theorem Fills.comp (σ : Equiv.Perm (Fin k)) (filled : Fills s columns tuple row) :
    Fills s (columns ∘ σ) (tuple ∘ σ) row := by
  obtain ⟨values, constant, given⟩ := filled
  refine ⟨values ∘ σ, fun j => constant (σ j), ?_⟩
  rw [gives_comp]
  exact given

theorem adds_comp_iff (σ : Equiv.Perm (Fin k)) :
    (named table (columns ∘ σ) (tuples.map (· ∘ σ))).Adds s added ↔
      (named table columns tuples).Adds s added := by
  have fills_iff {tuple : Fin k → Expr} {row : Row} :
      Fills s (columns ∘ σ) (tuple ∘ σ) row ↔ Fills s columns tuple row := by
    refine ⟨fun filled => ?_, Fills.comp σ⟩
    have back := filled.comp σ.symm
    rwa [Function.comp_assoc, Function.comp_assoc, σ.self_comp_symm, Function.comp_id,
      Function.comp_id] at back
  rw [adds_named_iff, adds_named_iff, List.forall₂_map_left_iff, σ.injective_comp]
  simp only [fills_iff]
  exact and_congr_right' (and_congr_left' (σ.forall_congr fun _ => Iff.rfl))

/-! ### Names with `NULL` -/

section Null

variable {i : Fin (k + 1)} {name : String}

/-- A further name, given `NULL`. -/
abbrev withName (i : Fin (k + 1)) (name : String) (columns : Fin k → String) :
    Fin (k + 1) → String :=
  i.insertNth name columns

abbrev withNull (i : Fin (k + 1)) (tuple : Fin k → Expr) : Fin (k + 1) → Expr :=
  i.insertNth (.literal .null) tuple

theorem gives_insertNth (new : ∀ j, columns j ≠ name) :
    Gives (withName i name columns) (i.insertNth (α := fun _ => Value) .null values) =
      Gives columns values := by
  funext other v
  rw [Gives, Gives, Fin.exists_iff_succAbove i, Fin.forall_iff_succAbove i]
  simp only [withName, Fin.insertNth_apply_same, Fin.insertNth_apply_succAbove]
  by_cases here : name = other
  · subst here
    simp [new]
  · simp [here]

theorem hasValues_withNull_iff {values : Fin (k + 1) → Value} :
    HasValues (withNull i tuple) values ↔
      ∃ others, HasValues tuple others ∧
        values = i.insertNth (α := fun _ => Value) .null others := by
  rw [HasValues, Fin.forall_iff_succAbove i]
  simp only [withNull, Fin.insertNth_apply_same, Fin.insertNth_apply_succAbove,
    Fin.eq_insertNth_iff]
  constructor
  · rintro ⟨first, others⟩
    exact ⟨_, others, (Except.ok.inj first).symm, rfl⟩
  · rintro ⟨others, constant, same, rfl⟩
    exact ⟨congrArg Except.ok same.symm, constant⟩

theorem fills_insertNth_iff (new : ∀ j, columns j ≠ name) :
    Fills s (withName i name columns) (withNull i tuple) row ↔ Fills s columns tuple row := by
  simp only [Fills, hasValues_withNull_iff]
  constructor
  · rintro ⟨_, ⟨values, constant, rfl⟩, given⟩
    rw [gives_insertNth new] at given
    exact ⟨values, constant, given⟩
  · rintro ⟨values, constant, given⟩
    rw [← gives_insertNth (i := i) new] at given
    exact ⟨_, ⟨values, constant, rfl⟩, given⟩

theorem adds_insertNth_iff (new : ∀ j, columns j ≠ name) (listed : name ∈ s.columnNames) :
    (named table (withName i name columns) (tuples.map (withNull i))).Adds s added ↔
      (named table columns tuples).Adds s added := by
  rw [adds_named_iff, adds_named_iff, List.forall₂_map_left_iff]
  simp only [fills_insertNth_iff new]
  have distinct : (withName i name columns).Injective ↔ columns.Injective := by
    simp [Function.Injective, Fin.forall_iff_succAbove i, new, fun j => (new j).symm]
  have all : (∀ j, withName i name columns j ∈ s.columnNames) ↔ ∀ j, columns j ∈ s.columnNames := by
    simp [Fin.forall_iff_succAbove i, listed]
  rw [distinct, all]

end Null

/-! ### All names -/

theorem fills_iff_of_all (distinct : columns.Injective) (all : List.ofFn columns = s.columnNames) :
    Fills s columns tuple row ↔ ∃ values, HasValues tuple values ∧ row = List.ofFn values := by
  refine exists_congr fun values => and_congr_right fun _ => ?_
  rw [← all, forall₂_ofFn_left_iff]
  constructor
  · rintro ⟨given, rfl, gives⟩
    have same (j : Fin k) : given j = values j :=
      gives_unique distinct (gives j) (.inl ⟨j, rfl, rfl⟩)
    rw [funext same]
  · rintro rfl
    exact ⟨values, rfl, fun j => .inl ⟨j, rfl, rfl⟩⟩

theorem adds_unnamed_iff_named (all : List.ofFn columns = s.columnNames) :
    (unnamed table tuples).Adds s added ↔ (named table columns tuples).Adds s added := by
  have distinct : columns.Injective := List.nodup_ofFn.mp (all ▸ s.nodup_columnNames)
  have listed (j : Fin k) : columns j ∈ s.columnNames := all ▸ List.mem_ofFn.mpr ⟨j, rfl⟩
  have fills : Fills s columns = fun tuple row =>
      ∃ values, HasValues tuple values ∧ row = List.ofFn values :=
    funext₂ fun tuple row => propext (fills_iff_of_all distinct all)
  rw [adds_unnamed_iff, adds_named_iff, fills]
  exact ⟨fun adds => ⟨distinct, listed, adds⟩, fun adds => adds.2.2⟩

/-! ### Lists that name no positions -/

theorem not_adds {names : List String} {tuples : List (List Expr)}
    (bad : ¬ names.Nodup ∨ ∃ name ∈ names, name ∉ s.columnNames) :
    ¬ (mk table (some names) tuples).Adds s added := by
  rintro ⟨⟨_, resolved, -⟩, -⟩
  obtain ⟨positions, distinct, indexed, -⟩ := Schema.mapM_positionsOf_eq_ok_iff.mp resolved
  rcases bad with repeated | ⟨name, member, unknown⟩
  · exact repeated distinct
  · obtain ⟨i, rfl⟩ := List.mem_iff_get.mp member
    have inside : i.1 < positions.length := indexed.length_eq ▸ i.isLt
    exact unknown (Schema.exists_index_iff.mp ⟨_, indexed.get i.isLt inside⟩)

/-! ## Insertions by names -/

theorem sameEffect_of_adds_iff {columns columns' : Option (List String)}
    {tuples tuples' : List (List Expr)} {db : Database} {t : Table}
    (found : db.table? table = some t)
    (same : ∀ added, (mk table columns tuples).Adds t.schema added ↔
      (mk table columns' tuples').Adds t.schema added) :
    SameEffect (mk table columns tuples).execute (mk table columns' tuples').execute db := by
  refine sameEffect_of_atomic (atomic_execute _) (atomic_execute _) fun result after => ?_
  rw [run_execute_eq_ok_iff_adds, run_execute_eq_ok_iff_adds]
  refine exists_congr fun t' => exists_congr fun added => ?_
  constructor
  · rintro ⟨found', adds, rest⟩
    obtain rfl := Option.some.inj (found.symm.trans found')
    exact ⟨found', (same added).mp adds, rest⟩
  · rintro ⟨found', adds, rest⟩
    obtain rfl := Option.some.inj (found.symm.trans found')
    exact ⟨found', (same added).mpr adds, rest⟩

end Insert

/--
What a column list does is to name positions.  An insertion has the same effect if the list and all
tuples are permuted alike, if a column that the list leaves out is named and given `NULL`, and,
where the list has all columns in the order of the schema, if there is no list.  With a name twice,
or one that is not of a column, no insertion succeeds.
-/
theorem column_list_names_positions (settings : ExecutionSettings) (backend : Option Backend)
    {db : Database} {table : String} {t : Table} (found : db.table? table = some t) :
    let run (insertion : Insert) : Database.Change QueryResult :=
      (Statement.insert insertion).execute settings backend
    (∀ (k : Nat) (columns : Fin k → String) (tuples : List (Fin k → Expr)),
      let plain := run (.named table columns tuples)
      (∀ σ : Equiv.Perm (Fin k),
        SameEffect (run (.named table (columns ∘ σ) (tuples.map (· ∘ σ)))) plain db) ∧
      (∀ (i : Fin (k + 1)) (name : String), name ∈ t.schema.columnNames →
        (∀ j, columns j ≠ name) →
        SameEffect (run (.named table (i.insertNth name columns)
          (tuples.map (i.insertNth (.literal .null))))) plain db) ∧
      (List.ofFn columns = t.schema.columnNames →
        SameEffect (run (.unnamed table tuples)) plain db)) ∧
    ∀ (names : List String) (tuples : List (List Expr)),
      (¬ names.Nodup ∨ ∃ name ∈ names, name ∉ t.schema.columnNames) →
      ∃ e, (run ⟨table, some names, tuples⟩).run db = .error e db := by
  intro run
  refine ⟨fun k columns tuples => ⟨fun σ => ?_, fun i name listed new => ?_, fun all => ?_⟩, ?_⟩
  · exact Insert.sameEffect_of_adds_iff found fun added => Insert.adds_comp_iff σ
  · exact Insert.sameEffect_of_adds_iff found fun added => Insert.adds_insertNth_iff new listed
  · exact Insert.sameEffect_of_adds_iff found fun added => Insert.adds_unnamed_iff_named all
  · intro names tuples bad
    refine (Insert.atomic_execute _).exists_error fun result after succeeded => ?_
    obtain ⟨t', added, found', adds, -⟩ := Insert.run_execute_eq_ok_iff_adds.mp succeeded
    obtain rfl := Option.some.inj (found.symm.trans found')
    exact Insert.not_adds bad adds

/-- Two columns in both orders and with no list, one of them with and without `NULL`, and twice. -/
theorem column_list_names_positions_pair :
    let db :=
      ((Session.new .strict).behind [.execute "CREATE TABLE t (a INTEGER, b TEXT)"]).database
    let run (columns : Option (List String)) (tuple : List Expr) : Database.Change QueryResult :=
      (Statement.insert ⟨"t", columns, [tuple]⟩).execute Settings.strict.execution none
    let one := Expr.literal (.integer 1)
    let word := Expr.literal (.text "x")
    SameEffect (run (some ["b", "a"]) [word, one]) (run (some ["a", "b"]) [one, word]) db ∧
      SameEffect (run none [one, word]) (run (some ["a", "b"]) [one, word]) db ∧
      SameEffect (run (some ["a", "b"]) [one, .literal .null]) (run (some ["a"]) [one]) db ∧
      ∃ e, (run (some ["a", "a"]) [one, one]).run db = .error e db := by
  intro db run one word
  obtain ⟨t, found⟩ := Option.isSome_iff_exists.mp
    (by decide +kernel : (db.table? "t").isSome = true)
  have names : t.schema.columnNames = ["a", "b"] := by
    have known : (db.table? "t").map (·.schema.columnNames) = some ["a", "b"] := by decide +kernel
    rw [found] at known
    exact Option.some.inj known
  obtain ⟨lists, fails⟩ :=
    column_list_names_positions Settings.strict.execution none found
  obtain ⟨permuted, -, unlisted⟩ := lists 2 !["a", "b"] [![one, word]]
  obtain ⟨-, given, -⟩ := lists 1 !["a"] [![one]]
  refine ⟨permuted (Equiv.swap 0 1), unlisted names.symm, given 1 "b" ?_ ?_, ?_⟩
  · simp [names]
  · decide
  · exact fails ["a", "a"] _ (.inl (by decide))

end Tabular
