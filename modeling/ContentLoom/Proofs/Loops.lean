/-!
# Loops

A loop goes from state to state by turns, each of which leads on or ends it with
a result.  From a state it ends after one number of turns only, and with one
result.
-/

namespace ContentLoom.Loop

variable {σ ρ : Type} {turn : σ → σ ⊕ ρ}

/-- From a state the loop ends after a number of turns with a result. -/
inductive Ends (turn : σ → σ ⊕ ρ) : σ → Nat → ρ → Prop
  | stop {s r} (h : turn s = .inr r) : Ends turn s 1 r
  | go {s next turns r} (h : turn s = .inl next) (rest : Ends turn next turns r) :
    Ends turn s (turns + 1) r

theorem Ends.unique {s : σ} {n n' : Nat} {r r' : ρ} (h : Ends turn s n r)
    (h' : Ends turn s n' r') : n' = n ∧ r' = r := by
  induction h generalizing n' with
  | stop h =>
    cases h' with
    | stop h' => exact ⟨rfl, Sum.inr.inj (h'.symm.trans h)⟩
    | go h' => cases h'.symm.trans h
  | go h rest ih =>
    cases h' with
    | stop h' => cases h'.symm.trans h
    | go h' rest' =>
      cases Sum.inl.inj (h'.symm.trans h)
      obtain ⟨rfl, hresult⟩ := ih rest'
      exact ⟨rfl, hresult⟩

theorem Ends.iff {s : σ} {turns : Nat} {r : ρ} (h : Ends turn s turns r) (n : Nat) (r' : ρ) :
    Ends turn s n r' ↔ n = turns ∧ r' = r := by
  constructor
  · exact h.unique
  · rintro ⟨rfl, rfl⟩
    exact h

end ContentLoom.Loop
