import Tabular.Table

/-!
# Runs of actions

How an action that keeps its state through failures runs: sequences split into the runs of their
parts, both where they succeed and where they fail.
-/

namespace Tabular

variable {ε σ α β : Type}

theorem ok_eq_ok_iff {a b : α} : (.ok a : Except ε α) = .ok b ↔ b = a := by
  rw [Except.ok.injEq, eq_comm]

theorem bind_eq_ok_iff {x : Except ε α} {f : α → Except ε β} {b : β} :
    x >>= f = .ok b ↔ ∃ a, x = .ok a ∧ f a = .ok b := by
  cases x <;> simp [bind, Except.bind]

theorem bind_eq_error_iff {x : Except ε α} {f : α → Except ε β} {e : ε} :
    x >>= f = .error e ↔ x = .error e ∨ ∃ a, x = .ok a ∧ f a = .error e := by
  cases x <;> simp [bind, Except.bind]

theorem forall_ne_error_iff {x : Except ε α} : (∀ e, x ≠ .error e) ↔ ∃ a, x = .ok a := by
  cases x <;> simp

theorem map_eq_ok_iff {x : Except ε α} {f : α → β} {b : β} :
    x.map f = .ok b ↔ ∃ a, x = .ok a ∧ f a = b := by
  cases x <;> simp [Except.map]

theorem map_eq_error_iff {x : Except ε α} {f : α → β} {e : ε} :
    x.map f = .error e ↔ x = .error e := by
  cases x <;> simp [Except.map]

theorem exists_ok {x : Except ε α} (h : x.isOk = true) : ∃ a, x = .ok a := by
  cases x with
  | ok a => exact ⟨a, rfl⟩
  | error e => cases h

theorem exists_error {x : Except ε α} (h : x.isOk = false) : ∃ e, x = .error e := by
  cases x with
  | ok a => cases h
  | error e => exact ⟨e, rfl⟩

theorem eq_ok_of_toOption {x : Except ε α} {a : α} (h : x.toOption = some a) : x = .ok a := by
  cases x with
  | ok b => exact congrArg Except.ok (Option.some.inj h)
  | error e => cases h

theorem toOption_eq_none_iff {x : Except ε α} : x.toOption = none ↔ ∃ e, x = .error e := by
  cases x <;> simp [Except.toOption]

theorem run_ofExcept (x : Except ε α) (s : σ) :
    (ofExcept x : EStateM ε σ α).run s =
      match x with
      | .ok a => .ok a s
      | .error e => .error e s := by
  cases x <;> rfl

theorem run_ofExcept_eq_ok_iff {x : Except ε α} {s t : σ} {a : α} :
    (ofExcept x : EStateM ε σ α).run s = .ok a t ↔ x = .ok a ∧ s = t := by
  rw [run_ofExcept]
  cases x <;> simp

@[simp] theorem run_map (f : α → β) (x : EStateM ε σ α) (s : σ) :
    (f <$> x).run s =
      match x.run s with
      | .ok a t => .ok (f a) t
      | .error e t => .error e t := rfl

theorem run_bind_eq_ok_iff {x : EStateM ε σ α} {f : α → EStateM ε σ β} {s t : σ} {b : β} :
    (x >>= f).run s = .ok b t ↔ ∃ a u, x.run s = .ok a u ∧ (f a).run u = .ok b t := by
  rw [EStateM.run_bind]
  cases x.run s <;> simp [and_assoc]

theorem run_bind_eq_error_iff {x : EStateM ε σ α} {f : α → EStateM ε σ β} {s t : σ} {e : ε} :
    (x >>= f).run s = .error e t ↔
      x.run s = .error e t ∨ ∃ a u, x.run s = .ok a u ∧ (f a).run u = .error e t := by
  rw [EStateM.run_bind]
  cases x.run s <;> simp [and_assoc]

theorem run_map_eq_ok_iff {f : α → β} {x : EStateM ε σ α} {s t : σ} {b : β} :
    (f <$> x).run s = .ok b t ↔ ∃ a, x.run s = .ok a t ∧ b = f a := by
  rw [run_map]
  cases x.run s <;> grind

/-! ## Answers and states -/

def answerOf (action : EStateM ε σ α) (s : σ) : Except ε α :=
  match action.run s with
  | .ok a _ => .ok a
  | .error e _ => .error e

def stateAfter (action : EStateM ε σ α) (s : σ) : σ :=
  match action.run s with
  | .ok _ t => t
  | .error _ t => t

theorem run_eq_ok_iff {action : EStateM ε σ α} {s t : σ} {a : α} :
    action.run s = .ok a t ↔ answerOf action s = .ok a ∧ stateAfter action s = t := by
  unfold answerOf stateAfter
  cases action.run s <;> simp

theorem run_eq_error_iff {action : EStateM ε σ α} {s t : σ} {e : ε} :
    action.run s = .error e t ↔ answerOf action s = .error e ∧ stateAfter action s = t := by
  unfold answerOf stateAfter
  cases action.run s <;> simp

@[simp] theorem answerOf_ofExcept (x : Except ε α) (s : σ) :
    answerOf (ofExcept x : EStateM ε σ α) s = x := by
  cases x <;> rfl

theorem answerOf_bind (x : EStateM ε σ α) (f : α → EStateM ε σ β) (s : σ) :
    answerOf (x >>= f) s = answerOf x s >>= fun a => answerOf (f a) (stateAfter x s) := by
  unfold answerOf stateAfter
  rw [EStateM.run_bind]
  cases x.run s <;> rfl

theorem stateAfter_bind_of_ok {x : EStateM ε σ α} {f : α → EStateM ε σ β} {s : σ} {a : α}
    (h : answerOf x s = .ok a) :
    stateAfter (x >>= f) s = stateAfter (f a) (stateAfter x s) := by
  have run := run_eq_ok_iff.mpr ⟨h, rfl⟩
  rw [stateAfter, EStateM.run_bind, run]
  rfl

theorem stateAfter_bind_of_error {x : EStateM ε σ α} {f : α → EStateM ε σ β} {s : σ} {e : ε}
    (h : answerOf x s = .error e) : stateAfter (x >>= f) s = stateAfter x s := by
  have run := run_eq_error_iff.mpr ⟨h, rfl⟩
  rw [stateAfter, EStateM.run_bind, run]

/-! ## Invariants -/

def Keeps (P : σ → Prop) (action : EStateM ε σ α) : Prop :=
  ∀ s, P s → P (stateAfter action s)

variable {P : σ → Prop}

theorem keeps_pure (a : α) : Keeps P (pure a : EStateM ε σ α) :=
  fun _ => id

theorem keeps_get : Keeps P (get : EStateM ε σ σ) :=
  fun _ => id

theorem keeps_throw (e : ε) : Keeps P (throw e : EStateM ε σ α) :=
  fun _ => id

theorem keeps_ofExcept (x : Except ε α) : Keeps P (ofExcept x : EStateM ε σ α) := by
  intro s h
  cases x <;> exact h

theorem Keeps.bind {x : EStateM ε σ α} {f : α → EStateM ε σ β} (h : Keeps P x)
    (h' : ∀ a, Keeps P (f a)) : Keeps P (x >>= f) := by
  intro s before
  have between := h s before
  unfold stateAfter at *
  rw [EStateM.run_bind]
  cases first : x.run s with
  | ok a t =>
      rw [first] at between
      exact h' a t between
  | error e t =>
      rw [first] at between
      exact between

theorem Keeps.ofExcept_bind {x : Except ε α} {f : α → EStateM ε σ β}
    (h : ∀ a, x = .ok a → Keeps P (f a)) : Keeps P (ofExcept x >>= f) := by
  cases x with
  | ok a => exact h a rfl
  | error e => exact keeps_throw e

/-! ## Failures that change nothing -/

def Atomic (action : EStateM ε σ α) : Prop :=
  ∀ s e t, action.run s = .error e t → t = s

def Reads (action : EStateM ε σ α) : Prop :=
  ∀ s, stateAfter action s = s

theorem Reads.atomic {action : EStateM ε σ α} (h : Reads action) : Atomic action := by
  intro s e t run
  have same := h s
  rw [stateAfter, run] at same
  exact same

theorem reads_get : Reads (get : EStateM ε σ σ) :=
  fun _ => rfl

theorem reads_ofExcept (x : Except ε α) : Reads (ofExcept x : EStateM ε σ α) := by
  intro s
  cases x <;> rfl

theorem Reads.bind {x : EStateM ε σ α} {f : α → EStateM ε σ β} (h : Reads x)
    (h' : ∀ a, Atomic (f a)) : Atomic (x >>= f) := by
  intro s e t run
  rcases run_bind_eq_error_iff.mp run with failed | ⟨a, u, read, failed⟩
  · exact h.atomic s e t failed
  · have same := h s
    rw [stateAfter, read] at same
    rw [← same]
    exact h' a u e t failed

theorem Atomic.bind_pure {x : EStateM ε σ α} (h : Atomic x) (f : α → β) :
    Atomic (do return f (← x)) := by
  intro s e t run
  rcases run_bind_eq_error_iff.mp run with failed | ⟨a, u, read, failed⟩
  · exact h s e t failed
  · cases failed

theorem Atomic.exists_error {x : EStateM ε σ α} {s : σ} (h : Atomic x)
    (never : ∀ a t, x.run s ≠ .ok a t) : ∃ e, x.run s = .error e s := by
  cases run : x.run s with
  | ok a t => exact absurd run (never a t)
  | error e t => exact ⟨e, by rw [h s e t run]⟩

/-! ## Actions of one effect -/

/-- The actions succeed on the same terms, with the same answer, and they leave the same state. -/
def SameEffect (x y : EStateM ε σ α) (s : σ) : Prop :=
  (answerOf x s).toOption = (answerOf y s).toOption ∧ stateAfter x s = stateAfter y s

/-- Where failures change nothing, only the successes are to be compared. -/
theorem sameEffect_of_atomic {x y : EStateM ε σ α} {s : σ} (hx : Atomic x)
    (hy : Atomic y) (same : ∀ a t, x.run s = .ok a t ↔ y.run s = .ok a t) : SameEffect x y s := by
  unfold SameEffect answerOf stateAfter
  cases first : x.run s with
  | ok a t =>
      rw [(same a t).mp first]
      exact ⟨rfl, rfl⟩
  | error e t =>
      cases second : y.run s with
      | ok a t' =>
          rw [(same a t').mpr second] at first
          cases first
      | error e' t' => exact ⟨rfl, (hx s e t first).trans (hy s e' t' second).symm⟩

end Tabular
