import Tabular.Proofs.Query.Bounds

/-!
# Results as JSON

A row of a result is written as an object, its values under the names of their columns.  An object
has one field for each name, so of several columns with one name only the last is left.  All columns
are there exactly if their names are distinct.
-/

namespace Tabular

/-! ## Fields -/

namespace Json

variable {fields : List (String × Json)} {f : String × Json} {name : String} {value : Json}

def InOrder (fields : List (String × Json)) : Prop :=
  fields.Pairwise fun f g => f.1 < g.1

theorem mem_insertField (ordered : InOrder fields) :
    f ∈ insertField name value fields ↔ f = (name, value) ∨ f ∈ fields ∧ f.1 ≠ name := by
  induction fields with
  | nil => simp [insertField]
  | cons g rest ih =>
      obtain ⟨first, others⟩ := List.pairwise_cons.mp ordered
      obtain ⟨other, old⟩ := g
      -- Whatever stands behind a field is above it, and so is not of its name.
      have above (behind : f ∈ rest) : other < f.1 := first f behind
      rw [insertField]
      split
      · grind
      · split
        · grind
        · rw [List.mem_cons, ih others]
          grind

theorem inOrder_insertField (ordered : InOrder fields) :
    InOrder (insertField name value fields) := by
  induction fields with
  | nil => exact List.pairwise_singleton _ _
  | cons g rest ih =>
      obtain ⟨first, others⟩ := List.pairwise_cons.mp ordered
      obtain ⟨other, old⟩ := g
      rw [insertField]
      split
      · rename_i less
        refine List.pairwise_cons.mpr ⟨fun f member => ?_, ordered⟩
        rcases List.mem_cons.mp member with rfl | behind
        · exact less
        · exact String.lt_trans less (first f behind)
      · rename_i notLess
        split
        · rename_i same
          subst same
          exact List.pairwise_cons.mpr ⟨first, others⟩
        · refine List.pairwise_cons.mpr ⟨fun f member => ?_, ih others⟩
          rcases (mem_insertField others).mp member with rfl | ⟨behind, -⟩
          · change other < name
            grind
          · exact first f behind

def IsLast (fields : List (String × Json)) (f : String × Json) : Prop :=
  ∃ i : Nat, fields[i]? = some f ∧ ∀ k : Nat, i < k → (fields.map Prod.fst)[k]? ≠ some f.1

theorem isLast_snoc_iff (fields : List (String × Json)) (g f : String × Json) :
    IsLast (fields ++ [g]) f ↔ f = g ∨ IsLast fields f ∧ f.1 ≠ g.1 := by
  unfold IsLast
  constructor
  · rintro ⟨i, here, last⟩
    rcases Nat.lt_trichotomy i fields.length with inside | rfl | outside
    · refine .inr ⟨⟨i, by grind, fun k behind there => last k behind (by grind)⟩, fun same => ?_⟩
      exact last fields.length inside (by simp [same])
    · exact .inl (by simpa using here.symm)
    · have none : (fields ++ [g])[i]? = none := by simp; omega
      cases none.symm.trans here
  · rintro (rfl | ⟨⟨i, here, last⟩, other⟩)
    · exact ⟨fields.length, by simp, fun k behind => by grind⟩
    · exact ⟨i, by grind, fun k behind there => by grind⟩

theorem exists_isLast {fields : List (String × Json)} {name : String}
    (named : name ∈ fields.map Prod.fst) : ∃ value, IsLast fields (name, value) := by
  induction fields using List.reverseRecOn with
  | nil => cases named
  | append_singleton fields g ih =>
      simp only [isLast_snoc_iff]
      by_cases same : name = g.1
      · exact ⟨g.2, .inl (by rw [same])⟩
      · obtain ⟨value, last⟩ := ih (by simpa [same] using named)
        exact ⟨value, .inr ⟨last, same⟩⟩

theorem IsLast.named (last : IsLast fields f) : f.1 ∈ fields.map Prod.fst := by
  obtain ⟨i, here, -⟩ := last
  exact List.mem_map_of_mem (List.mem_of_getElem? here)

theorem ofFields_eq (fields : List (String × Json)) :
    ∃ kept, ofFields fields = object kept ∧ InOrder kept ∧ ∀ f, f ∈ kept ↔ IsLast fields f := by
  induction fields using List.reverseRecOn with
  | nil => exact ⟨[], rfl, .nil, by simp [IsLast]⟩
  | append_singleton fields g ih =>
      obtain ⟨kept, built, ordered, last⟩ := ih
      refine ⟨insertField g.1 g.2 kept, ?_, inOrder_insertField ordered, fun f => ?_⟩
      · rw [ofFields, List.foldl_append, object.inj built]
        rfl
      · rw [mem_insertField ordered, isLast_snoc_iff, last]

theorem length_of_isLast {kept : List (String × Json)} (ordered : InOrder kept)
    (last : ∀ f, f ∈ kept ↔ IsLast fields f) :
    kept.length = (fields.map Prod.fst).dedup.length := by
  have distinct : (kept.map Prod.fst).Nodup := by
    refine List.pairwise_map.mpr (ordered.imp ?_)
    intro f g less same
    exact String.lt_irrefl g.1 (same ▸ less)
  have names : (kept.map Prod.fst).Perm (fields.map Prod.fst).dedup := by
    refine (List.perm_ext_iff_of_nodup distinct (List.nodup_dedup _)).mpr fun name => ?_
    rw [List.mem_dedup]
    constructor
    · intro member
      obtain ⟨f, inside, rfl⟩ := List.mem_map.mp member
      exact ((last f).mp inside).named
    · intro member
      obtain ⟨value, here⟩ := exists_isLast member
      exact List.mem_map_of_mem ((last _).mpr here)
  simpa using names.length_eq

end Json

/-! ## Rows as objects -/

/-- How a value is written: a real only if it is finite, as JSON has no others. -/
inductive Value.WrittenAs : Value → Json → Prop where
  | null : WrittenAs .null .null
  | integer {n : Int64} : WrittenAs (.integer n) (.integer n.toInt)
  | finite {x : Binary64} : Binary64.isFinite x = true → WrittenAs (.real x) (.real x)
  | nonFinite {x : Binary64} : Binary64.isFinite x = false → WrittenAs (.real x) .null
  | text {s : String} : WrittenAs (.text s) (.text s)
  | boolean {b : Bool} : WrittenAs (.boolean b) (.boolean b)

theorem Value.writtenAs_iff {v : Value} {j : Json} : v.WrittenAs j ↔ j = v.toJson := by
  constructor
  · intro written
    cases written with
    | finite finite => simp [Value.toJson, Json.ofReal, finite]
    | nonFinite infinite => simp [Value.toJson, Json.ofReal, infinite]
    | _ => rfl
  · rintro rfl
    cases v with
    | null => exact .null
    | integer n => exact .integer
    | real x =>
        cases finite : Binary64.isFinite x with
        | false => simpa [Value.toJson, Json.ofReal, finite] using WrittenAs.nonFinite finite
        | true => simpa [Value.toJson, Json.ofReal, finite] using WrittenAs.finite finite
    | text s => exact .text
    | boolean b => exact .boolean

/--
The fields write a row under the names of its columns: one for each name, with the value in the last
column of that name that the row has a value for.
-/
structure Writes (columns : List String) (row : Row) (fields : List (String × Json)) : Prop where
  ordered : Json.InOrder fields
  mem_iff : ∀ name j, (name, j) ∈ fields ↔
    ∃ (i : Nat) (v : Value), columns[i]? = some name ∧ row[i]? = some v ∧ v.WrittenAs j ∧
      ∀ k : Nat, i < k → k < row.length → columns[k]? ≠ some name
  named : row.length = columns.length → ∀ name, (∃ j, (name, j) ∈ fields) ↔ name ∈ columns
  /-- No column is lost only where no two have one name. -/
  whole : row.length = columns.length → (fields.length = columns.length ↔ columns.Nodup)
  paired : columns.Nodup → ∀ (i : Nat) name v, columns[i]? = some name → row[i]? = some v →
    ∃ j, v.WrittenAs j ∧ (name, j) ∈ fields

variable {columns : List String} {row : Row}

theorem isLast_zip_iff {name : String} {j : Json} :
    Json.IsLast (columns.zip (row.map Value.toJson)) (name, j) ↔
      ∃ (i : Nat) (v : Value), columns[i]? = some name ∧ row[i]? = some v ∧ v.WrittenAs j ∧
        ∀ k : Nat, i < k → k < row.length → columns[k]? ≠ some name := by
  constructor
  · rintro ⟨i, here, last⟩
    obtain ⟨column, shown⟩ := List.getElem?_zip_eq_some.mp here
    obtain ⟨v, value, rfl⟩ := by simpa using shown
    refine ⟨i, v, column, value, Value.writtenAs_iff.mpr rfl, fun k behind inside same => ?_⟩
    exact last k behind (by grind)
  · rintro ⟨i, v, column, value, written, last⟩
    obtain rfl := Value.writtenAs_iff.mp written
    refine ⟨i, List.getElem?_zip_eq_some.mpr ⟨column, by simp [value]⟩, fun k behind same => ?_⟩
    exact last k behind (by grind) (by grind)

theorem exists_writes (columns : List String) (row : Row) :
    ∃ fields, Json.ofFields (columns.zip (row.map Value.toJson)) = .object fields ∧
      Writes columns row fields := by
  obtain ⟨fields, built, ordered, last⟩ := Json.ofFields_eq (columns.zip (row.map Value.toJson))
  have names (width : row.length = columns.length) :
      (columns.zip (row.map Value.toJson)).map Prod.fst = columns :=
    List.map_fst_zip (by simp [width])
  refine ⟨fields, built, ordered, fun name j => (last _).trans isLast_zip_iff, ?_, ?_, ?_⟩
  · intro width name
    constructor
    · rintro ⟨j, member⟩
      exact names width ▸ ((last _).mp member).named
    · intro member
      obtain ⟨j, here⟩ := Json.exists_isLast ((names width).symm ▸ member)
      exact ⟨j, (last _).mpr here⟩
  · intro width
    rw [Json.length_of_isLast ordered last, names width]
    constructor
    · intro same
      exact (List.dedup_sublist columns).eq_of_length same ▸ List.nodup_dedup columns
    · intro distinct
      rw [distinct.dedup]
  · intro distinct i name v column value
    refine ⟨v.toJson, Value.writtenAs_iff.mpr rfl, (last _).mpr (isLast_zip_iff.mpr ?_)⟩
    refine ⟨i, v, column, value, Value.writtenAs_iff.mpr rfl, fun k behind _ same => ?_⟩
    have inside : i < columns.length := (List.getElem?_eq_some_iff.mp column).1
    exact behind.ne ((List.getElem?_inj inside distinct).mp (column.trans same.symm))

theorem QueryResult.exists_objects (result : QueryResult) :
    ∃ objects, result.toJson = .array (objects.map Json.object) ∧
      List.Forall₂ (Writes result.columns) result.rows objects := by
  unfold QueryResult.toJson
  induction result.rows with
  | nil => exact ⟨[], rfl, .nil⟩
  | cons row rows ih =>
      obtain ⟨fields, built, writes⟩ := exists_writes result.columns row
      obtain ⟨objects, others, rest⟩ := ih
      refine ⟨fields :: objects, ?_, .cons writes rest⟩
      rw [List.map_cons, List.map_cons, built, Json.array.inj others]

/-! ## Results of queries -/

/--
The result of a query is written with one object for each row, in order.  An object has one field
for each name among the columns, with the value in the last column of that name.  It has as many
fields as there are columns only where no two of them have one name, and then all their values.
-/
theorem objects_keep_last_columns {db : Database} (reachable : db.Reachable) (query : Select)
    (backend : Option Backend) {result : QueryResult}
    (answer : query.execute backend db = .ok result) :
    (backend = none → ∀ row ∈ result.rows, row.length = result.columns.length) ∧
    ∃ objects, result.toJson = .array (objects.map Json.object) ∧
      List.Forall₂ (Writes result.columns) result.rows objects := by
  refine ⟨?_, result.exists_objects⟩
  rintro rfl
  exact length_of_execute reachable answer

/-- Of two columns with one name the last is written, and an infinite real as `null`. -/
theorem objects_keep_last_columns_infinite :
    let db := Database.empty.behind
      [.createTable "t" [.plain "a" .real, .plain "b" .text],
        .insertRows "t" [[.real (Binary64.ofParts true Binary64.infinity), .text "x"]]]
    let query : Select :=
      ⟨[.expr (.column none "b") (some "c"), .all, .expr (.literal (.integer 1)) (some "c")], "t",
        none, [], .ascending, none⟩
    ∃ result fields, query.execute none db = .ok result ∧ result.columns = ["c", "a", "b", "c"] ∧
      result.toJson = .array [.object fields] ∧ fields.length ≠ 4 ∧ ("a", .null) ∈ fields ∧
      ("b", .text "x") ∈ fields ∧ ("c", .integer 1) ∈ fields ∧ ("c", .text "x") ∉ fields := by
  intro db query
  let infinite := Binary64.ofParts true Binary64.infinity
  have answered : (query.execute none db).toOption = some ⟨["c", "a", "b", "c"],
      [[.text "x", .real infinite, .text "x", .integer 1]], 0⟩ := by
    cbv
  have answer := eq_ok_of_toOption answered
  obtain ⟨-, objects, written, writes⟩ := objects_keep_last_columns (.calls _) query none answer
  obtain ⟨fields, others, row, none, rfl⟩ := List.forall₂_cons_left_iff.mp writes
  obtain rfl := List.forall₂_nil_left_iff.mp none
  refine ⟨_, fields, answer, rfl, written, fun all => ?_, ?_, ?_, ?_, fun first => ?_⟩
  · exact absurd ((row.whole rfl).mp all) (by decide)
  · exact (row.mem_iff _ _).mpr ⟨1, _, rfl, rfl, .nonFinite (by decide +kernel), by grind⟩
  · exact (row.mem_iff _ _).mpr ⟨2, _, rfl, rfl, .text, by grind⟩
  · exact (row.mem_iff _ _).mpr ⟨3, _, rfl, rfl, .integer, by grind⟩
  · obtain ⟨i, v, column, value, text, last⟩ := (row.mem_iff _ _).mp first
    cases text
    have inside : i < 4 := (List.getElem?_eq_some_iff.mp column).1
    rcases Nat.lt_or_ge i 3 with before | after
    · exact last 3 before (by decide) rfl
    · obtain rfl : i = 3 := by omega
      cases value

/-- Of two columns with one name the first is lost, together with its value. -/
theorem objects_lose_columns :
    let db := Database.empty.behind
      [.createTable "t" [.plain "a" .integer, .plain "b" .integer],
        .insertRows "t" [[.integer 1, .integer 2]]]
    let query : Select :=
      ⟨[.expr (.column none "a") none, .expr (.column none "b") (some "a")], "t", none, [],
        .ascending, none⟩
    let result : QueryResult := ⟨["a", "a"], [[.integer 1, .integer 2]], 0⟩
    query.execute none db = .ok result ∧ result.toJson = .array [.object [("a", .integer 2)]] ∧
      ¬ ∃ objects : List (List (String × Json)), result.toJson = .array (objects.map Json.object) ∧
        ∀ fields ∈ objects, fields.length = result.columns.length := by
  intro db query result
  have answered : (query.execute none db).toOption = some result := by
    cbv
  have written : result.toJson = .array [.object [("a", .integer 2)]] := by
    cbv
  refine ⟨eq_ok_of_toOption answered, written, ?_⟩
  rintro ⟨objects, same, all⟩
  rw [written] at same
  obtain ⟨fields, rest, rfl, one, -⟩ := List.map_eq_cons_iff.mp (Json.array.inj same).symm
  have lost := all fields List.mem_cons_self
  rw [Json.object.inj one] at lost
  cases lost

end Tabular
