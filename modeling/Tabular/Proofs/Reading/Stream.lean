import Tabular.Proofs.Action
import Tabular.Token.Stream

/-!
# Moves along a stream of tokens

A reader that succeeds passes over tokens of some kinds.  What the elementary readers pass over is
stated here once; everything else is composed of them.
-/

namespace Tabular

namespace TokenStream

def kind (s : TokenStream) : TokenKind :=
  s.current.kind

/-- From `s`, tokens of these kinds lead to `t`. -/
def Passes : TokenStream → List TokenKind → TokenStream → Prop
  | s, [], t => s = t
  | s, k :: kinds, t => s.ahead ≠ [] ∧ s.kind = k ∧ Passes s.advance kinds t

@[simp] theorem passes_nil {s t : TokenStream} : s.Passes [] t ↔ s = t := Iff.rfl

theorem passes_cons {s t : TokenStream} {k : TokenKind} {kinds : List TokenKind} :
    s.Passes (k :: kinds) t ↔ s.ahead ≠ [] ∧ s.kind = k ∧ s.advance.Passes kinds t := Iff.rfl

theorem passes_append {s t : TokenStream} {kinds kinds' : List TokenKind} :
    s.Passes (kinds ++ kinds') t ↔ ∃ u, s.Passes kinds u ∧ u.Passes kinds' t := by
  induction kinds generalizing s with
  | nil => simp
  | cons k kinds ih => simp only [List.cons_append, passes_cons, ih]; grind

theorem Passes.trans {s t u : TokenStream} {kinds kinds' : List TokenKind}
    (h : s.Passes kinds t) (h' : t.Passes kinds' u) : s.Passes (kinds ++ kinds') u :=
  passes_append.mpr ⟨t, h, h'⟩

theorem ahead_ne_nil {s : TokenStream} {k : TokenKind} (h : s.kind = k) (hk : k ≠ .endMarker) :
    s.ahead ≠ [] := by
  intro nil
  rw [kind, current, nil] at h
  exact hk h.symm

theorem passes_one {s : TokenStream} {k : TokenKind} (h : s.kind = k) (hk : k ≠ .endMarker) :
    s.Passes [k] s.advance :=
  ⟨ahead_ne_nil h hk, h, rfl⟩

theorem passes_one_iff {s t : TokenStream} {k : TokenKind} (hk : k ≠ .endMarker) :
    s.Passes [k] t ↔ s.kind = k ∧ t = s.advance := by
  constructor
  · intro passes
    exact ⟨passes.2.1, passes.2.2.symm⟩
  · intro moved
    rw [moved.2]
    exact passes_one moved.1 hk

theorem ofTokens_append {body : List Token} {marker : Token} (last : marker.kind = .endMarker) :
    ofTokens (body ++ [marker]) = ⟨0, body, marker.position⟩ := by
  simp [ofTokens, Token.isEnd, last]

theorem Passes.kind_eq {s t : TokenStream} {kinds : List TokenKind} (h : s.Passes kinds t) :
    s.kind = kinds.headD t.kind := by
  cases kinds with
  | nil => rw [passes_nil.mp h]; rfl
  | cons k kinds => exact h.2.1

theorem length_advance {s : TokenStream} (h : s.ahead ≠ []) :
    s.advance.ahead.length + 1 = s.ahead.length := by
  unfold advance
  cases ahead : s.ahead with
  | nil => exact (h ahead).elim
  | cons token rest => simp

theorem Passes.length_eq {s t : TokenStream} {kinds : List TokenKind} (h : s.Passes kinds t) :
    t.ahead.length + kinds.length = s.ahead.length := by
  induction kinds generalizing s with
  | nil => rw [passes_nil.mp h]; rfl
  | cons k kinds ih =>
      have rest := ih h.2.2
      have first := length_advance h.1
      simp only [List.length_cons]
      omega

theorem Passes.suffix {s t : TokenStream} {kinds : List TokenKind} (h : s.Passes kinds t) :
    t.ahead <:+ s.ahead := by
  induction kinds generalizing s with
  | nil =>
      have same := passes_nil.mp h
      subst same
      exact List.suffix_refl _
  | cons k kinds ih =>
      refine (ih h.2.2).trans ?_
      unfold advance
      split
      · exact List.suffix_refl _
      · rename_i ahead
        rw [ahead]
        exact List.suffix_cons _ _

theorem Passes.kinds_ahead {s t : TokenStream} {kinds : List TokenKind} (h : s.Passes kinds t) :
    s.ahead.map Token.kind = kinds ++ t.ahead.map Token.kind := by
  induction kinds generalizing s with
  | nil => rw [passes_nil.mp h, List.nil_append]
  | cons k kinds ih =>
      obtain ⟨more, first, rest⟩ := h
      have behind := ih rest
      cases ahead : s.ahead with
      | nil => exact (more ahead).elim
      | cons token others =>
          simp only [kind, current, advance, ahead, List.headD_cons] at first behind
          rw [List.map_cons, first, behind, List.cons_append]

/-- The end marker is reached only behind all tokens where none of them is one. -/
theorem Passes.ahead_eq_nil {s t : TokenStream} {kinds : List TokenKind} (h : s.Passes kinds t)
    (inner : ∀ token ∈ s.ahead, token.kind ≠ .endMarker) (ended : t.kind = .endMarker) :
    t.ahead = [] := by
  cases ahead : t.ahead with
  | nil => rfl
  | cons token rest =>
      have member : token ∈ s.ahead := h.suffix.subset (by simp [ahead])
      rw [kind, current, ahead] at ended
      exact (inner token member ended).elim

theorem passes_to_end_iff {s t : TokenStream} {kinds : List TokenKind} (ended : t.ahead = []) :
    s.Passes kinds t ↔ s.ahead.map Token.kind = kinds ∧
      t = ⟨s.index + s.ahead.length, [], s.stop⟩ := by
  induction kinds generalizing s with
  | nil =>
      rcases s with ⟨index, ahead, stop⟩
      rcases t with ⟨index', ahead', stop'⟩
      cases ended
      cases ahead <;> simp
      grind
  | cons k kinds ih =>
      rcases s with ⟨index, ahead, stop⟩
      cases ahead with
      | nil => simp [passes_cons]
      | cons token rest =>
          simp only [passes_cons, ih, advance, kind, current]
          grind

theorem exists_passes_ofTokens {tokens : List Token} {kinds : List TokenKind}
    (same : tokens.map Token.kind = kinds ++ [.endMarker]) :
    ∃ t, (ofTokens tokens).Passes kinds t ∧ t.kind = .endMarker := by
  obtain ⟨body, last, rfl, inner, ended⟩ := List.map_eq_append_iff.mp same
  obtain ⟨marker, rfl, isEnd⟩ := List.map_eq_singleton_iff.mp ended
  rw [ofTokens_append isEnd]
  exact ⟨_, (passes_to_end_iff rfl).mpr ⟨inner, rfl⟩, rfl⟩

end TokenStream

end Tabular
