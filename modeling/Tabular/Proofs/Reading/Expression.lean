import Tabular.Expr.Parse
import Tabular.Proofs.Reading.Recognition

/-!
# Reading expressions

The reader of expressions recognizes their grammar: it reads a chain of operators of one level by
steps that extend the left operand, and the levels and the parentheses one inside the other.
-/

namespace Tabular.Expr

open Grammar Parse TokenStream

/-! ## Signs -/

def operator? : Level → TokenKind → Option BinaryOp
  | .disjunction => disjunction?
  | .conjunction => conjunction?
  | .equality => equality?
  | .inequality => inequality?
  | .sum => sum?
  | .product => product?

theorem operator?_eq_some_iff {l : Level} {k : TokenKind} {op : BinaryOp} :
    operator? l k = some op ↔ BinarySign l k op := by
  constructor
  · intro h
    cases l <;>
      simp only [operator?, disjunction?, conjunction?, equality?, inequality?, sum?, product?]
        at h <;>
      split at h <;> cases h <;> constructor
  · rintro ⟨⟩ <;> rfl

theorem unaryOp?_eq_some_iff {k : TokenKind} {op : UnaryOp} :
    unaryOp? k = some op ↔ UnarySign k op := by
  constructor
  · intro h
    unfold unaryOp? at h
    split at h <;> cases h <;> constructor
  · rintro ⟨⟩ <;> rfl

theorem literal?_eq_some_iff {k : TokenKind} {v : Value} :
    literal? k = some v ↔ LiteralSign k v := by
  constructor
  · intro h
    unfold literal? at h
    split at h <;> cases h <;> constructor
  · rintro ⟨⟩ <;> rfl

theorem sign_ne_endMarker {l : Level} {k : TokenKind} {op : BinaryOp} (h : BinarySign l k op) :
    k ≠ .endMarker := by
  cases h <;> simp

theorem unarySign_ne_endMarker {k : TokenKind} {op : UnaryOp} (h : UnarySign k op) :
    k ≠ .endMarker := by
  cases h <;> simp

theorem literalSign_ne_endMarker {k : TokenKind} {v : Value} (h : LiteralSign k v) :
    k ≠ .endMarker := by
  cases h <;> simp

/-! ## What may follow -/

/-- The levels whose operators stand inside an operand of a category. -/
def levelsIn : Category → List Level
  | .binary .disjunction => [.disjunction, .conjunction, .equality, .inequality, .sum, .product]
  | .binary .conjunction => [.conjunction, .equality, .inequality, .sum, .product]
  | .binary .equality => [.equality, .inequality, .sum, .product]
  | .binary .inequality => [.inequality, .sum, .product]
  | .binary .sum => [.sum, .product]
  | .binary .product => [.product]
  | .unary | .primary => []

theorem levelsIn_binary (l : Level) : levelsIn (.binary l) = l :: levelsIn l.tighter := by
  cases l <;> rfl

/--
The token does not continue an operand: it is no point, which would continue a name, and no
operator that stands inside such operands.
-/
def Follows (c : Category) (k : TokenKind) : Prop :=
  k ≠ .symbol .dot ∧ ∀ l ∈ levelsIn c, ∀ op, ¬ BinarySign l k op

theorem follows_binary_iff {l : Level} {k : TokenKind} :
    Follows (.binary l) k ↔ Follows l.tighter k ∧ ∀ op, ¬ BinarySign l k op := by
  simp only [Follows, levelsIn_binary, List.forall_mem_cons]
  grind

theorem level_eq_of_signs {l l' : Level} {k : TokenKind} {op op' : BinaryOp}
    (h : BinarySign l k op) (h' : BinarySign l' k op') : l = l' := by
  cases h <;> cases h' <;> rfl

theorem follows_of_sign {l : Level} {k : TokenKind} {op : BinaryOp} (h : BinarySign l k op) :
    Follows l.tighter k := by
  constructor
  · cases h <;> simp
  · intro l' inside op' h'
    obtain rfl := level_eq_of_signs h h'
    cases l <;> simp [Level.tighter, levelsIn] at inside

theorem follows_keyword (c : Category) {w : Keyword} (hor : w ≠ .or) (hand : w ≠ .and) :
    Follows c (.keyword w) := by
  refine ⟨by simp, fun _ _ _ sign => ?_⟩
  cases sign with
  | or => exact hor rfl
  | and => exact hand rfl

theorem follows_comma (c : Category) : Follows c (.symbol .comma) :=
  ⟨by simp, fun _ _ _ sign => by cases sign⟩

theorem follows_semicolon (c : Category) : Follows c (.symbol .semicolon) :=
  ⟨by simp, fun _ _ _ sign => by cases sign⟩

theorem follows_rightParen (c : Category) : Follows c (.symbol .rightParen) :=
  ⟨by simp, fun _ _ _ sign => by cases sign⟩

theorem follows_endMarker (c : Category) : Follows c .endMarker :=
  ⟨by simp, fun _ _ _ sign => by cases sign⟩

/-! ## Chains of operators -/

/--
The expressions of a category with fewer than `bound` parentheses and unary operators around any
part.
-/
def Below (bound : Nat) (c : Category) (kinds : List TokenKind) (e : Expr) : Prop :=
  ∃ nesting, Derives c kinds e nesting ∧ nesting < bound ∧ e.depth ≤ maxDepth

theorem run_bounded_eq_ok_iff {e e' : Expr} {s t : TokenStream} :
    (bounded e).run s = .ok e' t ↔ e.depth ≤ maxDepth ∧ e = e' ∧ s = t := by
  unfold bounded
  split
  · rename_i within
    simp [within]
  · rename_i beyond
    simp [tooDeep, beyond]

def OperatorStep (bound : Nat) (l : Level) (left : Expr) (kinds : List TokenKind) (e : Expr) :
    Prop :=
  ∃ k op inner right, kinds = k :: inner ∧ BinarySign l k op ∧ Below bound l.tighter inner right ∧
    e = binary left op right ∧ e.depth ≤ maxDepth

variable {bound : Nat} {l : Level} {operand : Parse Expr}

theorem recognizesStep_extend
    (h : Recognizes operand (Below bound l.tighter) (Follows l.tighter)) :
    RecognizesStep (extend (operator? l) operand) (OperatorStep bound l) (Follows l.tighter)
      fun k => ∀ op, ¬ BinarySign l k op where
  sound run := by
    obtain ⟨k, u, first, rest⟩ := run_bind_eq_ok_iff.mp run
    cases first
    split at rest
    · rename_i op found
      obtain ⟨_, v, advanced, rest⟩ := run_bind_eq_ok_iff.mp rest
      cases advanced
      obtain ⟨right, w, read, rest⟩ := run_bind_eq_ok_iff.mp rest
      obtain ⟨e, x, kept, result⟩ := run_bind_eq_ok_iff.mp rest
      cases result
      obtain ⟨depth, rfl, rfl⟩ := run_bounded_eq_ok_iff.mp kept
      have sign := operator?_eq_some_iff.mp found
      obtain ⟨inner, passes, phrase⟩ := h.sound read
      have passed := passes_one rfl (sign_ne_endMarker sign)
      exact ⟨_, passed.trans passes, _, op, inner, right, rfl, sign, phrase, rfl, depth⟩
    · cases rest
  left run := by
    obtain ⟨k, u, first, rest⟩ := run_bind_eq_ok_iff.mp run
    cases first
    split at rest
    · obtain ⟨_, v, advanced, rest⟩ := run_bind_eq_ok_iff.mp rest
      obtain ⟨right, w, read, rest⟩ := run_bind_eq_ok_iff.mp rest
      obtain ⟨e, x, kept, result⟩ := run_bind_eq_ok_iff.mp rest
      cases result
    · cases rest
      rfl
  complete {s t kinds left e} passes taken next := by
    rcases taken with ⟨k, op, inner, right, rfl, sign, phrase, rfl, depth⟩
    rcases passes with ⟨_, kind, rest⟩
    have found : operator? l s.kind = some op := kind ▸ operator?_eq_some_iff.mpr sign
    have read := h.complete rest phrase next
    have kept : (bounded (binary left op right)).run t = .ok _ t :=
      run_bounded_eq_ok_iff.mpr ⟨depth, rfl, rfl⟩
    simp [extend, found, read, kept]
  stops {s left} last := by
    have missing : operator? l s.kind = none := by
      cases found : operator? l s.kind with
      | none => rfl
      | some op => exact (last op (operator?_eq_some_iff.mp found)).elim
    simp [extend, missing]
  begins taken := by
    rcases taken with ⟨k, op, inner, right, rfl, sign, -⟩
    exact ⟨k, inner, rfl, follows_of_sign sign⟩

theorem depth_left_le {left right : Expr} {op : BinaryOp} {n : Nat}
    (h : (binary left op right).depth ≤ n) :
    left.depth ≤ n := by
  simp only [depth] at h
  omega

theorem depth_right_le {left right : Expr} {op : BinaryOp} {n : Nat}
    (h : (binary left op right).depth ≤ n) : right.depth ≤ n := by
  simp only [depth] at h
  omega

theorem depth_literal_le (v : Value) : (literal v).depth ≤ maxDepth := by
  simp [depth, maxDepth]

theorem depth_column_le (table : Option String) (name : String) :
    (column table name).depth ≤ maxDepth := by
  simp [depth, maxDepth]

theorem chain_of_derives {c : Category} {kinds : List TokenKind} {e : Expr} {nesting : Nat}
    (h : Derives c kinds e nesting) (level : c = .binary l) (shallow : nesting < bound)
    (depth : e.depth ≤ maxDepth) :
    ∃ first others left, kinds = first ++ others ∧ Below bound l.tighter first left ∧
      Steps (OperatorStep bound l) left others e := by
  induction h with
  | tighter inner =>
      cases level
      exact ⟨_, [], _, (List.append_nil _).symm, ⟨_, inner, shallow, depth⟩, .done _⟩
  | binary _ sign right ih =>
      cases level
      have within := Nat.max_lt.mp shallow
      obtain ⟨first, others, operand, rfl, begun, steps⟩ := ih rfl within.1 (depth_left_le depth)
      have phrase : Below bound l.tighter _ _ := ⟨_, right, within.2, depth_right_le depth⟩
      have last : OperatorStep bound l _ _ _ :=
        ⟨_, _, _, _, rfl, sign, phrase, rfl, depth⟩
      exact ⟨first, _, operand, by simp, begun, steps.snoc last⟩
  | primary | unary | literal | column | qualified | parentheses => cases level

theorem below_of_steps {left e : Expr} {first others : List TokenKind}
    (begun : Below bound (.binary l) first left)
    (steps : Steps (OperatorStep bound l) left others e) :
    Below bound (.binary l) (first ++ others) e := by
  induction steps generalizing first with
  | done => simpa using begun
  | more taken steps ih =>
      rcases taken with ⟨k, op, inner, right, rfl, sign, tight, rfl, depth⟩
      rcases tight with ⟨nesting', derived', shallow', -⟩
      rcases begun with ⟨nesting, derived, shallow, -⟩
      have joined : Below bound (.binary l) (first ++ k :: inner) _ :=
        ⟨_, derived.binary sign derived', Nat.max_lt.mpr ⟨shallow, shallow'⟩, depth⟩
      simpa using ih joined

theorem below_binary_iff {kinds : List TokenKind} {e : Expr} :
    Below bound (.binary l) kinds e ↔
      ∃ first others left, kinds = first ++ others ∧ Below bound l.tighter first left ∧
        Steps (OperatorStep bound l) left others e := by
  constructor
  · intro holds
    rcases holds with ⟨nesting, derived, shallow, depth⟩
    exact chain_of_derives derived rfl shallow depth
  · intro holds
    rcases holds with ⟨first, others, left, rfl, ⟨nesting, derived, shallow, depth⟩, steps⟩
    exact below_of_steps ⟨nesting, .tighter derived, shallow, depth⟩ steps

theorem recognizes_leftAssoc
    (h : Recognizes operand (Below bound l.tighter) (Follows l.tighter)) :
    Recognizes (leftAssoc (operator? l) operand) (Below bound (.binary l))
      (Follows (.binary l)) where
  sound run := by
    obtain ⟨left, u, begun, repeated⟩ := run_bind_eq_ok_iff.mp run
    obtain ⟨first, passes, phrase⟩ := h.sound begun
    obtain ⟨others, passes', steps⟩ :=
      (recognizes_iterate (recognizesStep_extend h) left).sound repeated
    have whole := below_binary_iff.mpr ⟨first, others, left, rfl, phrase, steps⟩
    exact ⟨first ++ others, passes.trans passes', whole⟩
  complete passes phrase next := by
    obtain ⟨first, others, left, rfl, phrase, steps⟩ := below_binary_iff.mp phrase
    obtain ⟨u, passes, passes'⟩ := passes_append.mp passes
    have next' := follows_binary_iff.mp next
    have behind : Follows l.tighter u.kind :=
      passes'.kind_eq ▸ steps.follow_headD (recognizesStep_extend h) next'.1
    have begun := h.complete passes phrase behind
    have loop := recognizes_iterate (recognizesStep_extend h) left
    have repeated := loop.complete passes' steps next'
    simp [leftAssoc, begun, repeated]

theorem recognizes_parseOver (h : Recognizes operand (Below bound .unary) (Follows .unary)) :
    Recognizes (parseOver operand) (Below bound (.binary .disjunction))
      (Follows (.binary .disjunction)) := by
  have product := recognizes_leftAssoc (l := .product) h
  have sum := recognizes_leftAssoc (l := .sum) product
  have inequality := recognizes_leftAssoc (l := .inequality) sum
  have equality := recognizes_leftAssoc (l := .equality) inequality
  have conjunction := recognizes_leftAssoc (l := .conjunction) equality
  exact recognizes_leftAssoc (l := .disjunction) conjunction

/-! ## Operands -/

theorem run_parseColumn_eq_ok_iff {name : String} {s t : TokenStream} {e : Expr} :
    (parseColumn name).run s = .ok e t ↔
      (s.kind ≠ .symbol .dot ∧ e = column none name ∧ s = t) ∨
      ∃ inner, s.Passes [.symbol .dot, .identifier inner] t ∧ e = column (some name) inner := by
  constructor
  · intro run
    obtain ⟨found, u, first, rest⟩ := run_bind_eq_ok_iff.mp run
    cases found with
    | false =>
        obtain ⟨other, rfl⟩ := run_accept_eq_false_iff.mp first
        cases rest
        exact .inl ⟨other, rfl, rfl⟩
    | true =>
        obtain ⟨inner, v, read, result⟩ := run_bind_eq_ok_iff.mp rest
        cases result
        have dot := (run_accept_eq_true_iff (by simp)).mp first
        obtain ⟨_, passes, rfl⟩ := (recognizes_identifier _).sound read
        exact .inr ⟨inner, dot.trans passes, rfl⟩
  · intro holds
    rcases holds with ⟨other, rfl, rfl⟩ | ⟨inner, passes, rfl⟩
    · have refused := run_accept_eq_false_iff.mpr ⟨other, rfl⟩
      simp [parseColumn, refused]
    · rcases passes with ⟨ahead, kind, rest⟩
      have accepted := (run_accept_eq_true_iff (by simp)).mpr (passes_one kind (by simp))
      have read := (recognizes_identifier "column name after '.'").complete rest rfl trivial
      simp [parseColumn, accepted, read]

variable {deeper : Parse Expr}

theorem recognizes_group (h : Recognizes deeper (Below bound .unary) (Follows .unary)) :
    Recognizes (closed (parseOver deeper)) (Closed (Below bound (.binary .disjunction)))
      fun _ => True :=
  recognizes_closed (recognizes_parseOver h) (follows_rightParen _)

theorem parseOperand_sound (h : Recognizes deeper (Below bound .unary) (Follows .unary))
    {s t : TokenStream} {e : Expr} (run : (parseOperand deeper).run s = .ok e t) :
    ∃ kinds, s.Passes kinds t ∧ Below (bound + 1) .unary kinds e := by
  obtain ⟨k, u, first, rest⟩ := run_bind_eq_ok_iff.mp run
  cases first
  split at rest
  · rename_i op found
    obtain ⟨_, v, advanced, rest⟩ := run_bind_eq_ok_iff.mp rest
    cases advanced
    obtain ⟨operand, w, read, kept⟩ := run_bind_eq_ok_iff.mp rest
    obtain ⟨depth, rfl, rfl⟩ := run_bounded_eq_ok_iff.mp kept
    obtain ⟨inner, passes, nesting, derived, shallow, -⟩ := h.sound read
    have sign := unaryOp?_eq_some_iff.mp found
    have passed := passes_one rfl (unarySign_ne_endMarker sign)
    exact ⟨_, passed.trans passes, _, .unary sign derived, Nat.succ_lt_succ shallow, depth⟩
  · rename_i v found _
    cases rest
    have sign := literal?_eq_some_iff.mp found
    have passed := passes_one rfl (literalSign_ne_endMarker sign)
    exact ⟨_, passed, _, .primary (.literal sign), Nat.succ_pos bound, depth_literal_le v⟩
  · rename_i name kind _ _
    obtain ⟨_, v, advanced, rest⟩ := run_bind_eq_ok_iff.mp rest
    cases advanced
    have passed := passes_one kind (by simp)
    rcases run_parseColumn_eq_ok_iff.mp rest with ⟨-, rfl, rfl⟩ | ⟨inner, passes, rfl⟩
    · exact ⟨_, passed, _, .primary (.column name), Nat.succ_pos bound,
        depth_column_le none name⟩
    · exact ⟨_, passed.trans passes, _, .primary (.qualified name inner), Nat.succ_pos bound,
        depth_column_le (some name) inner⟩
  · rename_i kind _ _
    obtain ⟨_, v, advanced, rest⟩ := run_bind_eq_ok_iff.mp rest
    cases advanced
    have opened := passes_one kind (by simp)
    obtain ⟨_, passes, inner, rfl, nesting, derived, shallow, depth⟩ :=
      (recognizes_group h).sound rest
    exact ⟨_, opened.trans passes, _, .primary (.parentheses derived), Nat.succ_lt_succ shallow,
      depth⟩
  · cases rest

theorem parseOperand_complete (h : Recognizes deeper (Below bound .unary) (Follows .unary))
    {s t : TokenStream} {kinds : List TokenKind} {e : Expr} (passes : s.Passes kinds t)
    (phrase : Below (bound + 1) .unary kinds e) (next : Follows .unary t.kind) :
    (parseOperand deeper).run s = .ok e t := by
  rcases phrase with ⟨nesting, derived, shallow, depth⟩
  cases derived with
  | unary sign derived =>
      rcases passes with ⟨-, kind, rest⟩
      have found : unaryOp? s.kind = some _ := kind ▸ unaryOp?_eq_some_iff.mpr sign
      have within : Below bound .unary _ _ :=
        ⟨_, derived, Nat.lt_of_succ_lt_succ shallow, by simp only [Expr.depth] at depth; omega⟩
      have read := h.complete rest within next
      have kept : (bounded _).run t = .ok _ t := run_bounded_eq_ok_iff.mpr ⟨depth, rfl, rfl⟩
      simp [parseOperand, found, read, kept]
  | primary derived =>
      cases derived with
      | literal sign =>
          rcases passes with ⟨-, kind, rfl⟩
          cases sign <;> simp [parseOperand, kind, unaryOp?, literal?]
      | column name =>
          rcases passes with ⟨-, kind, rfl⟩
          have read : (parseColumn name).run s.advance = .ok _ _ :=
            run_parseColumn_eq_ok_iff.mpr (.inl ⟨next.1, rfl, rfl⟩)
          simp [parseOperand, kind, unaryOp?, literal?, read]
      | qualified table name =>
          rcases passes with ⟨-, kind, rest⟩
          have read : (parseColumn table).run s.advance = .ok _ t :=
            run_parseColumn_eq_ok_iff.mpr (.inr ⟨name, rest, rfl⟩)
          simp [parseOperand, kind, unaryOp?, literal?, read]
      | parentheses derived =>
          rcases passes with ⟨-, kind, rest⟩
          have within : Below bound (.binary .disjunction) _ _ :=
            ⟨_, derived, Nat.lt_of_succ_lt_succ shallow, depth⟩
          have read := (recognizes_group h).complete rest ⟨_, rfl, within⟩ trivial
          simp [parseOperand, kind, unaryOp?, literal?, read]

theorem recognizes_parseOperand (h : Recognizes deeper (Below bound .unary) (Follows .unary)) :
    Recognizes (parseOperand deeper) (Below (bound + 1) .unary) (Follows .unary) where
  sound run := parseOperand_sound h run
  complete passes phrase next := parseOperand_complete h passes phrase next

/-! ## Nesting -/

theorem recognizes_tooDeep : Recognizes tooDeep (Below 0 .unary) (Follows .unary) where
  sound run := by cases run
  complete _ phrase _ := by
    rcases phrase with ⟨nesting, -, shallow, -⟩
    exact (Nat.not_lt_zero nesting shallow).elim

theorem recognizes_parseNested (nesting : Nat) :
    Recognizes (parseNested nesting) (Below (nesting + 1) .unary) (Follows .unary) := by
  induction nesting with
  | zero => exact recognizes_parseOperand recognizes_tooDeep
  | succ nesting ih => exact recognizes_parseOperand ih

theorem recognizes_parse : Recognizes parse IsExpr (Follows (.binary .disjunction)) := by
  refine (recognizes_parseOver (recognizes_parseNested maxDepth)).congr ?_ fun _ => id
  intro kinds e
  simp only [Below, IsExpr, Nat.lt_succ_iff]

end Tabular.Expr
