import Tabular.Proofs.Reading.Expression
import Tabular.Statement.Parse

/-!
# Reading statements

Clause by clause, the reader of statements recognizes their grammar.  Which tokens may follow a
clause depends on the clauses that can stand behind it, and is given with each.
-/

namespace Tabular.Statement

open Grammar Parse TokenStream

variable {α : Type}

/-! ## Lists -/

theorem recognizes_names (what : String) :
    Recognizes (separated (identifier what)) (CommaList IsName) (· ≠ .symbol .comma) :=
  (recognizes_separated (recognizes_identifier what) trivial).congr (fun _ _ => Iff.rfl)
    fun _ next => ⟨trivial, next⟩

/-! ## Select lists -/

theorem recognizes_parseTitle :
    Recognizes parseTitle (Optional (.keyword .as) IsName) (· ≠ .keyword .as) :=
  (recognizes_optional (by simp) (recognizes_identifier _)).congr (fun _ _ => Iff.rfl)
    fun _ other => ⟨trivial, other⟩

def FollowsItem (k : TokenKind) : Prop :=
  Expr.Follows (.binary .disjunction) k ∧ k ≠ .keyword .as

theorem recognizes_parseSelectItem : Recognizes parseSelectItem IsSelectItem FollowsItem := by
  have all := recognizes_pure SelectItem.all FollowsItem
  have titled (e : Expr) := recognizes_parseTitle.bind
    (fun title => recognizes_pure (SelectItem.expr e title) FollowsItem)
    fun _ => begins_nothing fun _ => And.right
  have expr := Expr.recognizes_parse.bind titled fun e =>
    (begins_optional (Expr.follows_keyword _ (by simp) (by simp)) fun _ => And.left).before
      fun _ => begins_nothing fun _ => id
  have either := all.branch (by simp) expr (begins_then IsExpr.headD_ne_star)
  refine either.congr ?_ fun _ => id
  intro kinds item
  constructor
  · intro holds
    rcases holds with ⟨_, rfl, rfl, rfl⟩ | ⟨e, front, _, rfl, phrase, rest⟩
    · exact .all
    · obtain ⟨title, phrase', rfl⟩ := then_nothing_iff.mp rest
      exact .expr phrase phrase'
  · intro holds
    cases holds
    · exact .inl ⟨[], rfl, rfl, rfl⟩
    · exact .inr ⟨_, _, _, rfl, ‹_›, then_nothing_iff.mpr ⟨_, ‹_›, rfl⟩⟩

theorem recognizes_items :
    Recognizes (separated parseSelectItem) (CommaList IsSelectItem) fun k =>
      FollowsItem k ∧ k ≠ .symbol .comma :=
  recognizes_separated recognizes_parseSelectItem ⟨Expr.follows_comma _, by simp⟩

/-! ## Clauses of SELECT -/

theorem recognizes_parseFilter :
    Recognizes parseFilter (Optional (.keyword .«where») IsExpr) fun k =>
      Expr.Follows (.binary .disjunction) k ∧ k ≠ .keyword .«where» :=
  recognizes_optional (by simp) Expr.recognizes_parse

theorem recognizes_parseDirection :
    Recognizes parseDirection IsDirection fun k => k ≠ .keyword .asc ∧ k ≠ .keyword .desc where
  sound {s t direction} run := by
    obtain ⟨found, u, decided, rest⟩ := run_bind_eq_ok_iff.mp run
    cases found with
    | true =>
        cases rest
        exact ⟨_, (run_accept_eq_true_iff (by simp)).mp decided, .descending⟩
    | false =>
        obtain ⟨-, rfl⟩ := run_accept_eq_false_iff.mp decided
        obtain ⟨ascending, v, decided', result⟩ := run_bind_eq_ok_iff.mp rest
        cases result
        cases ascending with
        | true => exact ⟨_, (run_accept_eq_true_iff (by simp)).mp decided', .ascending⟩
        | false =>
            obtain ⟨-, rfl⟩ := run_accept_eq_false_iff.mp decided'
            exact ⟨[], rfl, .none⟩
  complete passes phrase next := by
    cases phrase with
    | none =>
        obtain rfl := passes_nil.mp passes
        simp [parseDirection, run_accept, next.1, next.2]
    | ascending =>
        rcases passes with ⟨-, kind, rfl⟩
        simp [parseDirection, run_accept, kind]
    | descending =>
        rcases passes with ⟨-, kind, rfl⟩
        simp [parseDirection, run_accept, kind]

theorem recognizes_parseCount : Recognizes parseCount IsCount fun _ => True where
  sound {s t count} run := by
    obtain ⟨k, u, first, rest⟩ := run_bind_eq_ok_iff.mp run
    cases first
    split at rest
    · rename_i n kind
      cases rest
      exact ⟨_, passes_one kind (by simp), n, rfl, rfl⟩
    · cases rest
  complete passes phrase _ := by
    rcases phrase with ⟨n, rfl, rfl⟩
    rcases passes with ⟨-, kind, rfl⟩
    simp [parseCount, kind]

theorem recognizes_parseLimit :
    Recognizes parseLimit (Optional (.keyword .limit) IsCount) (· ≠ .keyword .limit) :=
  (recognizes_optional (by simp) recognizes_parseCount).congr (fun _ _ => Iff.rfl)
    fun _ other => ⟨trivial, other⟩

def FollowsOrder (k : TokenKind) : Prop :=
  k ∉ [.keyword .order, .keyword .asc, .keyword .desc, .symbol .comma]

theorem begins_isDirection : Begins IsDirection (· ≠ .symbol .comma) FollowsOrder := by
  intro kinds direction next phrase behind
  cases phrase with
  | none =>
      intro comma
      exact behind (by simp_all)
  | ascending | descending => simp

theorem recognizes_parseOrder : Recognizes parseOrder IsOrder FollowsOrder := by
  have direction (names : List String) := recognizes_parseDirection.bind
    (fun direction => recognizes_pure (names, direction) FollowsOrder)
    fun _ => begins_nothing fun k behind => by simp_all [FollowsOrder]
  have names := (recognizes_names "column name in ORDER BY").bind direction fun names =>
    begins_isDirection.before fun _ => begins_nothing fun _ => id
  have order := names.behind (k := .keyword .«by») (by simp)
  have missing := recognizes_pure (([], .ascending) : List String × Direction) FollowsOrder
  have either := order.branch (k := .keyword .order) (by simp) missing
    (begins_nothing fun k behind order => behind (by simp [order]))
  refine either.congr ?_ fun _ => id
  intro kinds a
  constructor
  · intro holds
    rcases holds with ⟨back, rfl, phrase⟩ | ⟨rfl, rfl⟩
    · rcases phrase with ⟨_, rfl, names, front, back, rfl, listed, rest⟩
      obtain ⟨direction, marked, rfl⟩ := then_nothing_iff.mp rest
      exact .names listed marked
    · exact .none
  · intro holds
    cases holds
    · exact .inr ⟨rfl, rfl⟩
    · exact .inl ⟨_, rfl, _, rfl, _, _, _, rfl, ‹_›, then_nothing_iff.mpr ⟨_, ‹_›, rfl⟩⟩

theorem begins_isOrder {follow start : TokenKind → Prop} (hk : start (.keyword .order))
    (h : ∀ k, follow k → start k) : Begins IsOrder start follow := by
  intro kinds a next phrase behind
  cases phrase with
  | none => exact h next behind
  | names => exact hk

/-! ## SELECT -/

def Ends (k : TokenKind) : Prop :=
  k = .symbol .semicolon ∨ k = .endMarker

theorem Ends.not_mem {kinds : List TokenKind} {k : TokenKind} (h : Ends k)
    (semicolon : .symbol .semicolon ∉ kinds) (endMarker : .endMarker ∉ kinds) : k ∉ kinds := by
  rcases h with rfl | rfl
  · exact semicolon
  · exact endMarker

theorem Ends.follows {k : TokenKind} (h : Ends k) (c : Category) : Expr.Follows c k := by
  rcases h with rfl | rfl
  · exact Expr.follows_semicolon c
  · exact Expr.follows_endMarker c

theorem Ends.ne {k k' : TokenKind} (h : Ends k) (semicolon : k' ≠ .symbol .semicolon)
    (endMarker : k' ≠ .endMarker) : k ≠ k' := by
  rcases h with rfl | rfl
  · exact semicolon.symm
  · exact endMarker.symm

theorem recognizes_tail (items : List SelectItem) (source : String) (filter : Option Expr) :
    Recognizes
      (do
        let (orderBy, direction) ← parseOrder
        let limit ← parseLimit
        return Select.mk items source filter orderBy direction limit)
      (Then IsOrder fun order => Then (Optional (.keyword .limit) IsCount) fun limit =>
        Nothing (Select.mk items source filter order.1 order.2 limit)) Ends := by
  have limit (order : List String × Direction) := recognizes_parseLimit.bind
    (fun limit => recognizes_pure (Select.mk items source filter order.1 order.2 limit) Ends)
    fun _ => begins_nothing fun k behind => behind.ne (by simp) (by simp)
  refine recognizes_parseOrder.bind limit fun order => ?_
  refine (begins_optional (by simp [FollowsOrder]) ?_).before fun _ => begins_nothing fun _ => id
  exact fun k behind => behind.not_mem (by simp) (by simp)

theorem begins_tail {items : List SelectItem} {source : String} {filter : Option Expr} :
    Begins
      (Then IsOrder fun order => Then (Optional (.keyword .limit) IsCount) fun limit =>
        Nothing (Select.mk items source filter order.1 order.2 limit))
      (fun k => Expr.Follows (.binary .disjunction) k ∧ k ≠ .keyword .«where») Ends := by
  have limit (order : List String × Direction) :
      Begins
        (Then (Optional (.keyword .limit) IsCount) fun limit =>
          Nothing (Select.mk items source filter order.1 order.2 limit))
        (fun k => k = .keyword .limit ∨ Ends k) Ends :=
    (begins_optional (.inl rfl) fun _ => .inr).before fun _ => begins_nothing fun _ => id
  refine (begins_isOrder ⟨Expr.follows_keyword _ (by simp) (by simp), by simp⟩ ?_).before limit
  rintro k (rfl | behind)
  · exact ⟨Expr.follows_keyword _ (by simp) (by simp), by simp⟩
  · exact ⟨behind.follows _, behind.ne (by simp) (by simp)⟩

theorem recognizes_parseSelect : Recognizes parseSelect IsSelect Ends := by
  have filter (items : List SelectItem) (source : String) :=
    recognizes_parseFilter.bind (recognizes_tail items source) fun _ => begins_tail
  have source (items : List SelectItem) :=
    (recognizes_identifier "table name").bind_always (filter items)
  have «from» (items : List SelectItem) := (source items).behind (k := .keyword .«from») (by simp)
  have items := recognizes_items.bind «from» fun _ =>
    begins_behind ⟨⟨Expr.follows_keyword _ (by simp) (by simp), by simp⟩, by simp⟩
  have whole := items.behind (k := .keyword .select) (by simp)
  refine whole.congr ?_ fun _ => id
  intro kinds query
  constructor
  · intro phrase
    rcases phrase with ⟨_, rfl, items, inner, _, rfl, listed, _, rfl, behindFrom⟩
    obtain ⟨source, _, rfl, behindSource⟩ := then_isName_iff.mp behindFrom
    rcases behindSource with ⟨filter, filters, _, rfl, filtered, behindFilter⟩
    rcases behindFilter with ⟨order, orders, limits, rfl, ordered, behindOrder⟩
    obtain ⟨limit, limited, rfl⟩ := then_nothing_iff.mp behindOrder
    exact .mk listed filtered ordered limited
  · intro holds
    rcases holds with ⟨listed, filtered, ordered, limited⟩
    refine ⟨_, rfl, _, _, _, rfl, listed, _, rfl, then_isName_iff.mpr ⟨_, _, rfl, ?_⟩⟩
    exact ⟨_, _, _, rfl, filtered, _, _, _, rfl, ordered, then_nothing_iff.mpr ⟨_, limited, rfl⟩⟩

/-! ## INSERT -/

theorem recognizes_parseColumnList :
    Recognizes parseColumnList (Optional (.symbol .leftParen) (Closed (CommaList IsName)))
      (· ≠ .symbol .leftParen) := by
  have names := recognizes_closed (recognizes_names "column name") (by simp)
  exact (recognizes_optional (by simp) names).congr (fun _ _ => Iff.rfl) fun _ other =>
    ⟨trivial, other⟩

theorem recognizes_parseTuple :
    Recognizes parseTuple (InParentheses (CommaList IsExpr)) fun _ => True := by
  have values := recognizes_separated Expr.recognizes_parse (Expr.follows_comma _)
  exact recognizes_parenthesized values ⟨Expr.follows_rightParen _, by simp⟩

theorem recognizes_parseInsert : Recognizes parseInsert IsInsert (· ≠ .symbol .comma) := by
  have tuples (table : String) (columns : Option (List String)) :=
    (recognizes_separated recognizes_parseTuple trivial).bind
      (fun tuples => recognizes_pure (Insert.mk table columns tuples) (· ≠ .symbol .comma))
      fun _ => begins_nothing fun _ other => ⟨trivial, other⟩
  have values (table : String) (columns : Option (List String)) :=
    (tuples table columns).behind (k := .keyword .values) (by simp)
  have columns (table : String) := recognizes_parseColumnList.bind (values table) fun _ =>
    begins_behind (by simp)
  have table := (recognizes_identifier "table name").bind_always columns
  have into := table.behind (k := .keyword .into) (by simp)
  have whole := into.behind (k := .keyword .insert) (by simp)
  refine whole.congr ?_ fun _ => id
  intro kinds insertion
  constructor
  · intro phrase
    rcases phrase with ⟨_, rfl, _, rfl, behindInto⟩
    obtain ⟨table, _, rfl, behindTable⟩ := then_isName_iff.mp behindInto
    rcases behindTable with ⟨columns, listed, _, rfl, named, tuples, rfl, behindValues⟩
    obtain ⟨values, given, rfl⟩ := then_nothing_iff.mp behindValues
    exact .mk named given
  · intro holds
    rcases holds with ⟨named, given⟩
    refine ⟨_, rfl, _, rfl, then_isName_iff.mpr ⟨_, _, rfl, _, _, _, rfl, named, ?_⟩⟩
    exact ⟨_, rfl, then_nothing_iff.mpr ⟨_, given, rfl⟩⟩

/-! ## CREATE TABLE -/

theorem dataType?_eq_some_iff {k : TokenKind} {dataType : DataType} :
    dataType? k = some dataType ↔ TypeSign k dataType := by
  constructor
  · intro h
    unfold dataType? at h
    split at h <;> cases h <;> constructor
  · rintro ⟨⟩ <;> rfl

theorem isWord_iff {word name : String} : isWord word name = true ↔ SameWord word name := by
  rw [isWord, SameWord, beq_iff_eq]

theorem run_parseDataType_eq_ok_iff {s t : TokenStream} {dataType : DataType} :
    parseDataType.run s = .ok dataType t ↔ ∃ k, s.Passes [k] t ∧ TypeSign k dataType := by
  constructor
  · intro run
    obtain ⟨k, u, first, rest⟩ := run_bind_eq_ok_iff.mp run
    cases first
    split at rest
    · rename_i dataType found
      cases rest
      have sign := dataType?_eq_some_iff.mp found
      have inner : s.kind ≠ .endMarker := by
        intro ended
        rw [TokenStream.kind] at ended
        rw [ended] at sign
        cases sign
      exact ⟨_, passes_one rfl inner, sign⟩
    · cases rest
  · intro holds
    rcases holds with ⟨k, ⟨-, kind, rfl⟩, sign⟩
    simp [parseDataType, kind, dataType?_eq_some_iff.mpr sign]

def addConstraint (c : Column) : Constraint → Column
  | .notNull => { c with nullable := false }
  | .primaryKey => { c with primaryKey := true }
  | .other _ => c

def ConstraintStep (c : Column) (kinds : List TokenKind) (c' : Column) : Prop :=
  ∃ constraint, IsConstraint kinds constraint ∧ c' = addConstraint c constraint

def FollowsColumn (k : TokenKind) : Prop :=
  k ≠ .keyword .not ∧ ∀ word, k ≠ .identifier word

theorem parseConstraint_sound {s t : TokenStream} {c c' : Column}
    (run : (parseConstraint c).run s = .ok (some c') t) :
    ∃ kinds, s.Passes kinds t ∧ ConstraintStep c kinds c' := by
  obtain ⟨k, u, first, rest⟩ := run_bind_eq_ok_iff.mp run
  cases first
  split at rest
  · rename_i kind
    obtain ⟨_, v, advanced, rest⟩ := run_bind_eq_ok_iff.mp rest
    obtain ⟨_, w, null, result⟩ := run_bind_eq_ok_iff.mp rest
    cases advanced
    cases result
    have passed := passes_one kind (by simp)
    have passed' := (run_expect_eq_ok_iff (by simp)).mp null
    exact ⟨_, passed.trans passed', .notNull, .notNull, rfl⟩
  · rename_i word kind
    obtain ⟨_, v, advanced, rest⟩ := run_bind_eq_ok_iff.mp rest
    cases advanced
    have passed := passes_one kind (by simp)
    split at rest
    · rename_i primary
      obtain ⟨k, v, second, rest⟩ := run_bind_eq_ok_iff.mp rest
      cases second
      split at rest
      · rename_i key kind'
        split at rest
        · rename_i isKey
          cases rest
          have phrase := IsConstraint.primaryKey (isWord_iff.mp primary) (isWord_iff.mp isKey)
          exact ⟨_, passed.trans (passes_one kind' (by simp)), .primaryKey, phrase, rfl⟩
        · cases rest
      · cases rest
    · rename_i other
      cases rest
      exact ⟨_, passed, .other word, .other fun same => other (isWord_iff.mpr same), rfl⟩
  · cases rest

theorem parseConstraint_left {s t : TokenStream} {c : Column}
    (run : (parseConstraint c).run s = .ok none t) : s = t := by
  obtain ⟨k, u, first, rest⟩ := run_bind_eq_ok_iff.mp run
  cases first
  split at rest
  · obtain ⟨_, v, advanced, rest⟩ := run_bind_eq_ok_iff.mp rest
    obtain ⟨_, w, null, result⟩ := run_bind_eq_ok_iff.mp rest
    cases result
  · obtain ⟨_, v, advanced, rest⟩ := run_bind_eq_ok_iff.mp rest
    split at rest
    · obtain ⟨k, v, second, rest⟩ := run_bind_eq_ok_iff.mp rest
      split at rest
      · split at rest <;> cases rest
      · cases rest
    · cases rest
  · cases rest
    rfl

theorem parseConstraint_complete {s t : TokenStream} {kinds : List TokenKind} {c c' : Column}
    (passes : s.Passes kinds t) (taken : ConstraintStep c kinds c') :
    (parseConstraint c).run s = .ok (some c') t := by
  rcases taken with ⟨constraint, phrase, rfl⟩
  cases phrase with
  | notNull =>
      rcases passes with ⟨-, kind, -, kind', rfl⟩
      simp [parseConstraint, kind, run_expect, kind', addConstraint]
  | primaryKey primary key =>
      rcases passes with ⟨-, kind, -, kind', rfl⟩
      simp [parseConstraint, kind, kind', isWord_iff.mpr primary, isWord_iff.mpr key, addConstraint]
  | @other word other =>
      rcases passes with ⟨-, kind, rfl⟩
      have differs : ¬ isWord "PRIMARY" word := fun same => other (isWord_iff.mp same)
      simp [parseConstraint, kind, differs, addConstraint]

theorem recognizesStep_parseConstraint :
    RecognizesStep parseConstraint ConstraintStep (fun _ => True) FollowsColumn where
  sound := parseConstraint_sound
  left := parseConstraint_left
  complete passes taken _ := parseConstraint_complete passes taken
  stops {s c} last := by
    rcases last with ⟨noNot, noWord⟩
    simp [parseConstraint]
  begins taken := by
    rcases taken with ⟨constraint, phrase, -⟩
    cases phrase <;> exact ⟨_, _, rfl, trivial⟩

theorem steps_constraint_iff {c c' : Column} {kinds : List TokenKind} :
    Steps ConstraintStep c kinds c' ↔
      ∃ constraints, Sequence IsConstraint kinds constraints ∧
        c' = constraints.foldl addConstraint c := by
  constructor
  · intro steps
    induction steps with
    | done => exact ⟨[], .none, rfl⟩
    | more taken steps ih =>
        rcases taken with ⟨constraint, phrase, rfl⟩
        rcases ih with ⟨constraints, phrases, rfl⟩
        exact ⟨constraint :: constraints, .more phrase phrases, rfl⟩
  · intro holds
    rcases holds with ⟨constraints, phrases, rfl⟩
    induction phrases generalizing c with
    | none => exact .done c
    | more phrase phrases ih => exact .more ⟨_, phrase, rfl⟩ ih

theorem foldl_addConstraint (c : Column) (constraints : List Constraint) :
    constraints.foldl addConstraint c =
      { c with
        nullable := c.nullable && decide (.notNull ∉ constraints)
        primaryKey := c.primaryKey || decide (.primaryKey ∈ constraints) } := by
  induction constraints generalizing c with
  | nil => simp
  | cons constraint constraints ih =>
      rw [List.foldl_cons, ih]
      cases constraint <;> simp [addConstraint]

theorem foldl_addConstraint_plain (name : String) (dataType : DataType)
    (constraints : List Constraint) :
    constraints.foldl addConstraint (.plain name dataType) =
      constrained name dataType constraints := by
  rw [foldl_addConstraint]
  simp [Column.plain, constrained]

theorem recognizes_parseColumn : Recognizes parseColumn IsColumn FollowsColumn where
  sound run := by
    obtain ⟨name, u, named, rest⟩ := run_bind_eq_ok_iff.mp run
    obtain ⟨dataType, v, typed, repeated⟩ := run_bind_eq_ok_iff.mp rest
    obtain ⟨_, passes, rfl⟩ := (recognizes_identifier _).sound named
    obtain ⟨k, passes', sign⟩ := run_parseDataType_eq_ok_iff.mp typed
    obtain ⟨kinds, passes'', steps⟩ :=
      (recognizes_iterate recognizesStep_parseConstraint _).sound repeated
    obtain ⟨constraints, phrases, rfl⟩ := steps_constraint_iff.mp steps
    rw [foldl_addConstraint_plain]
    exact ⟨_, passes.trans (passes'.trans passes''), .mk sign phrases⟩
  complete {s t kinds c} passes phrase next := by
    obtain @⟨name, k, dataType, kinds, constraints, sign, phrases⟩ := phrase
    rcases passes with ⟨ahead, kind, ahead', kind', rest⟩
    have named := (recognizes_identifier "column name").complete (passes_one kind (by simp)) rfl
      trivial
    have typed := run_parseDataType_eq_ok_iff.mpr ⟨_, ⟨ahead', kind', rfl⟩, sign⟩
    have steps : Steps ConstraintStep (.plain name dataType) kinds _ :=
      steps_constraint_iff.mpr ⟨constraints, phrases, rfl⟩
    have repeated := (recognizes_iterate recognizesStep_parseConstraint _).complete rest steps
      ⟨trivial, next⟩
    rw [foldl_addConstraint_plain] at repeated
    simp [parseColumn, named, typed, repeated]

theorem recognizes_columns :
    Recognizes (parenthesized (separated parseColumn)) (InParentheses (CommaList IsColumn))
      fun _ => True :=
  recognizes_parenthesized (recognizes_separated recognizes_parseColumn (by simp [FollowsColumn]))
    (by simp [FollowsColumn])

theorem recognizes_parseCreateTable :
    Recognizes parseCreateTable
      (fun kinds statement => ∃ name columns inner, statement = .createTable name columns ∧
        kinds = .keyword .create :: .keyword .table :: .identifier name :: inner ∧
        InParentheses (CommaList IsColumn) inner columns) fun _ => True := by
  have columns (name : String) := recognizes_columns.bind_always fun columns =>
    recognizes_pure (Statement.createTable name columns) fun _ => True
  have name := (recognizes_identifier "table name").bind_always columns
  have table := name.behind (k := .keyword .table) (by simp)
  have whole := table.behind (k := .keyword .create) (by simp)
  refine whole.congr ?_ fun _ => id
  intro kinds statement
  constructor
  · intro phrase
    rcases phrase with ⟨_, rfl, _, rfl, behindTable⟩
    obtain ⟨name, inner, rfl, behindName⟩ := then_isName_iff.mp behindTable
    obtain ⟨columns, listed, rfl⟩ := then_nothing_iff.mp behindName
    exact ⟨name, columns, inner, rfl, rfl, listed⟩
  · intro holds
    rcases holds with ⟨name, columns, inner, rfl, rfl, listed⟩
    refine ⟨_, rfl, _, rfl, then_isName_iff.mpr ⟨name, inner, rfl, ?_⟩⟩
    exact then_nothing_iff.mpr ⟨_, listed, rfl⟩

theorem recognizes_parseDropTable :
    Recognizes parseDropTable
      (fun kinds statement => ∃ name, statement = .dropTable name ∧
        kinds = [.keyword .drop, .keyword .table, .identifier name]) fun _ => True := by
  have name := (recognizes_identifier "table name").bind_always fun name =>
    recognizes_pure (Statement.dropTable name) fun _ => True
  have table := name.behind (k := .keyword .table) (by simp)
  have whole := table.behind (k := .keyword .drop) (by simp)
  refine whole.congr ?_ fun _ => id
  intro kinds statement
  constructor
  · intro phrase
    rcases phrase with ⟨_, rfl, _, rfl, behindTable⟩
    obtain ⟨name, _, rfl, rfl, rfl⟩ := then_isName_iff.mp behindTable
    exact ⟨name, rfl, rfl⟩
  · intro holds
    rcases holds with ⟨name, rfl, rfl⟩
    exact ⟨_, rfl, _, rfl, then_isName_iff.mpr ⟨name, [], rfl, rfl, rfl⟩⟩

/-! ## Statements -/

theorem parseUnterminated_sound {s t : TokenStream} {statement : Statement}
    (run : (parseUnterminated : Parse Statement).run s = .ok statement t) :
    ∃ kinds, s.Passes kinds t ∧ IsStatement kinds statement := by
  obtain ⟨k, u, first, rest⟩ := run_bind_eq_ok_iff.mp run
  cases first
  split at rest
  · obtain ⟨query, read, rfl⟩ := run_map_eq_ok_iff.mp rest
    obtain ⟨kinds, passes, phrase⟩ := recognizes_parseSelect.sound read
    exact ⟨kinds, passes, .select phrase⟩
  · obtain ⟨insertion, read, rfl⟩ := run_map_eq_ok_iff.mp rest
    obtain ⟨kinds, passes, phrase⟩ := recognizes_parseInsert.sound read
    exact ⟨kinds, passes, .insert phrase⟩
  · obtain ⟨_, passes, name, columns, inner, rfl, rfl, phrase⟩ :=
      recognizes_parseCreateTable.sound rest
    exact ⟨_, passes, .createTable phrase⟩
  · obtain ⟨_, passes, name, rfl, rfl⟩ := recognizes_parseDropTable.sound rest
    exact ⟨_, passes, .dropTable name⟩
  · cases rest

theorem parseUnterminated_complete {s t : TokenStream} {kinds : List TokenKind}
    {statement : Statement} (passes : s.Passes kinds t) (phrase : IsStatement kinds statement)
    (next : Ends t.kind) : (parseUnterminated : Parse Statement).run s = .ok statement t := by
  cases phrase with
  | select phrase =>
      have read := recognizes_parseSelect.complete passes phrase next
      cases phrase
      simp [parseUnterminated, passes.2.1, read]
  | insert phrase =>
      have read := recognizes_parseInsert.complete passes phrase (next.ne (by simp) (by simp))
      cases phrase
      simp [parseUnterminated, passes.2.1, read]
  | createTable phrase =>
      have read := recognizes_parseCreateTable.complete passes ⟨_, _, _, rfl, rfl, phrase⟩ trivial
      simp [parseUnterminated, passes.2.1, read]
  | dropTable name =>
      have read := recognizes_parseDropTable.complete passes ⟨name, rfl, rfl⟩ trivial
      simp [parseUnterminated, passes.2.1, read]

theorem run_parse_eq_ok_iff {s t : TokenStream} {statement : Statement} :
    parse.run s = .ok statement t ↔
      ∃ kinds, s.Passes kinds t ∧ IsSentence kinds statement ∧ t.kind = .endMarker := by
  constructor
  · intro run
    obtain ⟨_, u, read, rest⟩ := run_bind_eq_ok_iff.mp run
    obtain ⟨semicolon, v, accepted, rest⟩ := run_bind_eq_ok_iff.mp rest
    obtain ⟨k, w, last, rest⟩ := run_bind_eq_ok_iff.mp rest
    cases last
    split at rest
    · rename_i ended
      cases rest
      obtain ⟨kinds, passes, phrase⟩ := parseUnterminated_sound read
      cases semicolon with
      | true =>
          have passed := (run_accept_eq_true_iff (by simp)).mp accepted
          exact ⟨_, passes.trans passed, .terminated phrase, ended⟩
      | false =>
          obtain ⟨-, rfl⟩ := run_accept_eq_false_iff.mp accepted
          exact ⟨kinds, passes, .unterminated phrase, ended⟩
    · cases rest
  · intro holds
    rcases holds with ⟨kinds, passes, phrase, ended⟩
    cases phrase with
    | unterminated phrase =>
        have read := parseUnterminated_complete passes phrase (.inr ended)
        simp [reader, read, run_accept, ended]
    | terminated phrase =>
        obtain ⟨u, passes, passed⟩ := passes_append.mp passes
        have read := parseUnterminated_complete passes phrase (.inl passed.2.1)
        have accepted := (run_accept_eq_true_iff (by simp)).mpr passed
        simp [reader, read, accepted, ended]

theorem ofTokens_of_isSentence {tokens : List Token} {kinds : List TokenKind}
    {statement : Statement} (same : tokens.map Token.kind = kinds ++ [.endMarker])
    (phrase : IsSentence kinds statement) : ofTokens tokens = .ok statement := by
  obtain ⟨t, passes, ended⟩ := TokenStream.exists_passes_ofTokens same
  exact answer_eq_ok_iff.mpr ⟨t, run_parse_eq_ok_iff.mpr ⟨kinds, passes, phrase, ended⟩⟩

/--
A list of tokens with its only end marker behind it makes the statement that the grammar gives for
the kinds of the others, and no statement if the grammar gives none.
-/
theorem ofTokens_eq_ok_iff {body : List Token} {marker : Token} {statement : Statement}
    (inner : ∀ token ∈ body, token.kind ≠ .endMarker) (last : marker.kind = .endMarker) :
    ofTokens (body ++ [marker]) = .ok statement ↔ IsSentence (body.map Token.kind) statement := by
  rw [ofTokens, ofTokens_append last, answer_eq_ok_iff]
  constructor
  · intro holds
    rcases holds with ⟨t, run⟩
    obtain ⟨kinds, passes, phrase, ended⟩ := run_parse_eq_ok_iff.mp run
    have empty := passes.ahead_eq_nil inner ended
    obtain ⟨rfl, -⟩ := (passes_to_end_iff empty).mp passes
    exact phrase
  · intro phrase
    have passes : TokenStream.Passes ⟨0, body, marker.position⟩ _ _ :=
      (passes_to_end_iff rfl).mpr ⟨rfl, rfl⟩
    exact ⟨_, run_parse_eq_ok_iff.mpr ⟨_, passes, phrase, rfl⟩⟩

/-- `SELECT a - b - 1 FROM t WHERE NOT b LIMIT 3`, where the first minus is read first. -/
theorem ofTokens_select :
    ofTokens
        ([⟨.keyword .select, "SELECT", ⟨0, 1, 1⟩⟩, ⟨.identifier "a", "a", ⟨7, 1, 8⟩⟩,
            ⟨.symbol .minus, "-", ⟨9, 1, 10⟩⟩, ⟨.identifier "b", "b", ⟨11, 1, 12⟩⟩,
            ⟨.symbol .minus, "-", ⟨13, 1, 14⟩⟩, ⟨.integer 1, "1", ⟨15, 1, 16⟩⟩,
            ⟨.keyword .«from», "FROM", ⟨17, 1, 18⟩⟩, ⟨.identifier "t", "t", ⟨22, 1, 23⟩⟩,
            ⟨.keyword .«where», "WHERE", ⟨24, 1, 25⟩⟩, ⟨.keyword .not, "NOT", ⟨30, 1, 31⟩⟩,
            ⟨.identifier "b", "b", ⟨34, 1, 35⟩⟩, ⟨.keyword .limit, "LIMIT", ⟨36, 1, 37⟩⟩,
            ⟨.integer 3, "3", ⟨42, 1, 43⟩⟩] ++ [⟨.endMarker, "", ⟨43, 1, 44⟩⟩]) =
      .ok (.select
        { items :=
            [.expr (.binary (.binary (.column none "a") (.arithmetic .subtract) (.column none "b"))
              (.arithmetic .subtract) (.literal (.integer 1))) none]
          source := "t", filter := some (.unary .not (.column none "b")), orderBy := []
          direction := .ascending, limit := some 3 }) := by
  have a : Derives .unary [.identifier "a"] (.column none "a") 0 := .primary (.column "a")
  have b : Derives .unary [.identifier "b"] (.column none "b") 0 := .primary (.column "b")
  have one : Derives .unary [.integer 1] (.literal (.integer 1)) 0 :=
    .primary (.literal (.integer 1))
  have first := (a.onLevel .sum).binary .minus (.tighter b)
  have both := first.binary .minus (.tighter one)
  have item : IsExpr _ _ :=
    ⟨_, .tighter (.tighter (.tighter (.tighter both))), by decide, by decide⟩
  have condition : IsExpr _ _ :=
    ⟨_, (Derives.unary .not b).onLevel .disjunction, by decide, by decide⟩
  have limit : Optional (.keyword .limit) IsCount _ _ := .some ⟨3, rfl, rfl⟩
  exact (ofTokens_eq_ok_iff (by simp) rfl).mpr
    (.unterminated (.select (.mk (.last (.expr item .none)) (.some condition) .none limit)))

end Tabular.Statement
