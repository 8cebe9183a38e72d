import Tabular.Proofs.Grammar.Expression

/-!
# Nesting told from tokens

A walk over the tokens of an expression tells how deep parentheses and unary operators are nested in
them, whatever derivation they have.  So the nesting is a property of the text, and no expression
goes on behind its end in parentheses alone.
-/

namespace Tabular.Grammar

/-! ## Walks -/

structure Walk where
  /-- The nestings around the parentheses that are open, the innermost first. -/
  outer : List Nat
  /-- The nesting inside the innermost of them. -/
  base : Nat
  /-- The nesting around the next operand. -/
  here : Nat
  /-- The greatest nesting around an operand so far. -/
  deepest : Nat
  /-- Is an operand next, and not an operator? -/
  ready : Bool

namespace Walk

def beginning : Walk :=
  ⟨[], 0, 0, 0, true⟩

def step (w : Walk) (k : TokenKind) : Option Walk :=
  match w.ready, k with
  | true, .symbol .leftParen =>
      some { w with outer := w.base :: w.outer, base := w.here + 1, here := w.here + 1 }
  | true, .symbol .rightParen => none
  | true, .symbol .minus | true, .keyword .not => some { w with here := w.here + 1 }
  | true, _ =>
      some { w with here := w.base, deepest := max w.deepest w.here, ready := false }
  | false, .symbol .rightParen =>
      match w.outer with
      | [] => none
      | base :: outer => some { w with outer, base, here := base }
  | false, .symbol .leftParen => none
  | false, _ => some { w with ready := true }

variable {outer : List Nat} {base here deepest : Nat} {k : TokenKind}

theorem step_binarySign {l : Level} {op : BinaryOp} (h : BinarySign l k op) :
    step ⟨outer, base, here, deepest, false⟩ k = some ⟨outer, base, here, deepest, true⟩ := by
  cases h <;> rfl

theorem step_unarySign {op : UnaryOp} (h : UnarySign k op) :
    step ⟨outer, base, here, deepest, true⟩ k = some ⟨outer, base, here + 1, deepest, true⟩ := by
  cases h <;> rfl

theorem step_literalSign {v : Value} (h : LiteralSign k v) :
    step ⟨outer, base, here, deepest, true⟩ k =
      some ⟨outer, base, base, max deepest here, false⟩ := by
  cases h <;> rfl

end Walk

variable {l l' : Level} {c : Category} {kinds rest : List TokenKind} {e e' : Expr} {n n' : Nat}

/-- Over an operand, a walk goes back to where it began, and keeps the nesting. -/
theorem Derives.walk (h : Derives c kinds e n) {outer : List Nat} {base here deepest : Nat}
    (inside : base ≤ here) (flat : ∀ l, c = .binary l → here = base) :
    kinds.foldlM Walk.step ⟨outer, base, here, deepest, true⟩ =
      some ⟨outer, base, base, max deepest (here + n), false⟩ := by
  induction h generalizing outer base here deepest with
  | tighter _ ih => exact ih inside fun _ _ => flat _ rfl
  | @binary l kinds kinds' k op left right n n' _ sign _ ihl ihr =>
      -- Chains of operators stand at the base, so the right operand begins where the left one did.
      obtain rfl := flat _ rfl
      have joined : max (max deepest (here + n)) (here + n') = max deepest (here + max n n') := by
        omega
      simp only [List.foldlM_append, List.foldlM_cons, ihl inside fun _ _ => rfl,
        Walk.step_binarySign sign, ihr inside fun _ _ => rfl, joined, Option.bind_eq_bind,
        Option.bind_some]
  | primary _ ih => exact ih inside nofun
  | @unary kinds k op e n sign _ ih =>
      have deeper : base ≤ here + 1 := by omega
      have joined : here + 1 + n = here + (n + 1) := by omega
      simp only [List.foldlM_cons, Walk.step_unarySign sign, ih deeper nofun, joined,
        Option.bind_eq_bind, Option.bind_some]
  | literal sign =>
      simp only [List.foldlM_cons, Walk.step_literalSign sign]
      rfl
  | column name => rfl
  | qualified table name =>
      have joined : max (max deepest here) base = max deepest here := by omega
      change some (Walk.mk outer base base (max (max deepest here) base) false) = _
      rw [joined]
      rfl
  | @parentheses kinds e n _ ih =>
      have joined : here + 1 + n = here + (n + 1) := by omega
      have opened : Walk.step ⟨outer, base, here, deepest, true⟩ (.symbol .leftParen) =
          some ⟨base :: outer, here + 1, here + 1, deepest, true⟩ := rfl
      have closed (deepest : Nat) :
          Walk.step ⟨base :: outer, here + 1, here + 1, deepest, false⟩ (.symbol .rightParen) =
            some ⟨outer, base, base, deepest, false⟩ := rfl
      simp only [List.cons_append, List.foldlM_cons, List.foldlM_append, List.foldlM_nil, opened,
        closed, ih (Nat.le_refl _) fun _ _ => rfl, joined, Option.bind_eq_bind, Option.bind_some]
      rfl

theorem Derives.walk_beginning (h : Derives (.binary l) kinds e n) :
    kinds.foldlM Walk.step .beginning = some ⟨[], 0, 0, n, false⟩ := by
  have walk : kinds.foldlM Walk.step .beginning = some ⟨[], 0, 0, max 0 (0 + n), false⟩ :=
    h.walk (Nat.le_refl 0) fun _ _ => rfl
  simpa using walk

/-! ## Words -/

/-- The tokens of an expression but for its parentheses. -/
def words : Expr → Nat
  | .literal _ => 1
  | .column none _ => 1
  | .column (some _) _ => 3
  | .binary left _ right => words left + 1 + words right
  | .unary _ e => words e + 1

def isWord (k : TokenKind) : Bool :=
  k ≠ .symbol .leftParen ∧ k ≠ .symbol .rightParen

theorem isWord_of_binarySign {k : TokenKind} {op : BinaryOp} (h : BinarySign l k op) :
    isWord k = true := by
  cases h <;> rfl

theorem isWord_of_unarySign {k : TokenKind} {op : UnaryOp} (h : UnarySign k op) :
    isWord k = true := by
  cases h <;> rfl

theorem isWord_of_literalSign {k : TokenKind} {v : Value} (h : LiteralSign k v) :
    isWord k = true := by
  cases h <;> rfl

theorem Derives.countP_isWord (h : Derives c kinds e n) : kinds.countP isWord = words e := by
  induction h with
  | tighter _ ih | primary _ ih => exact ih
  | binary _ sign _ ihl ihr =>
      rw [List.countP_append, List.countP_cons_of_pos (isWord_of_binarySign sign), ihl, ihr, words]
      omega
  | unary sign _ ih => rw [List.countP_cons_of_pos (isWord_of_unarySign sign), ih, words]
  | literal sign =>
      rw [List.countP_cons_of_pos (isWord_of_literalSign sign), List.countP_nil, words]
  | column name => rfl
  | qualified table name => rfl
  | parentheses _ ih =>
      rw [List.cons_append, List.countP_cons_of_neg (by decide), List.countP_append, ih]
      rfl

theorem eq_nil_of_walk {w : Walk} (parens : ∀ k ∈ rest, isWord k = false)
    (walk : rest.foldlM Walk.step ⟨[], 0, 0, n, false⟩ = some w) : rest = [] := by
  cases rest with
  | nil => rfl
  | cons k rest =>
      have paren := parens k (List.mem_cons_self ..)
      by_cases opens : k = .symbol .leftParen
      · subst opens
        cases walk
      · obtain rfl : k = .symbol .rightParen := by simpa [isWord, opens] using paren
        cases walk

/--
Of two expressions with as many words, one is not the beginning of the other, and the tokens tell
how deep they are nested.
-/
theorem Derives.whole (h : Derives (.binary l) (kinds ++ rest) e n)
    (h' : Derives (.binary l') kinds e' n') (same : words e = words e') : rest = [] ∧ n = n' := by
  have all := h.walk_beginning
  rw [List.foldlM_append, h'.walk_beginning] at all
  have count := h.countP_isWord
  rw [List.countP_append, h'.countP_isWord] at count
  have none : rest.countP isWord = 0 := by omega
  have parens : ∀ k ∈ rest, isWord k = false := by simpa using List.countP_eq_zero.mp none
  obtain rfl := eq_nil_of_walk parens all
  cases all
  exact ⟨rfl, rfl⟩

end Tabular.Grammar
