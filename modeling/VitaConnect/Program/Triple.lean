import VitaConnect.Program.Effect

/-! # Triples

`Triple E P x Q`: from a state with `P` the program `x` returns in a state with `Q`, or stops in a
state with `E`. The rules follow the constructs of `do`; `triple_of_respects` takes the final state from a
relation that the program respects, and `runAll_ends` is the rule for rounds that keep an invariant
as long as each of them meets a condition.
-/
namespace VitaConnect.Program
set_option autoImplicit false

universe u
variable {ε σ α β ι : Type u} {E P P' : σ → Prop} {Q Q' : α → σ → Prop}

def Ends (E : σ → Prop) (Q : α → σ → Prop) : EStateM.Result ε σ α → Prop
  | .ok a t => Q a t
  | .error _ t => E t

instance [DecidablePred E] [∀ a, DecidablePred (Q a)] : (r : EStateM.Result ε σ α) → Decidable (Ends E Q r)
  | .ok a t => inferInstanceAs (Decidable (Q a t))
  | .error _ t => inferInstanceAs (Decidable (E t))

def Triple (E P : σ → Prop) (x : EStateM ε σ α) (Q : α → σ → Prop) : Prop :=
  ∀ s, P s → Ends E Q (x s)

theorem Triple.ok {x : EStateM ε σ α} (h : Triple E P x Q) {s t : σ} {a : α} (hs : P s)
    (hx : x s = .ok a t) : Q a t := by
  have hends := h s hs
  rw [hx] at hends
  exact hends

theorem Ends.finalState {r : EStateM.Result ε σ α} (h : Ends E Q r) (hQ : ∀ a s, Q a s → E s) :
    E (finalState r) := by
  cases r with
  | ok a t => exact hQ a t h
  | error e t => exact h

/-! ## The constructs of `do` -/

theorem triple_pure {a : α} (h : ∀ s, P s → Q a s) : Triple E P (pure a : EStateM ε σ α) Q := h

theorem triple_throw {e : ε} (h : ∀ s, P s → E s) : Triple E P (throw e : EStateM ε σ α) Q := h

theorem triple_bind {x : EStateM ε σ α} {f : α → EStateM ε σ β} {R : β → σ → Prop}
    (hx : Triple E P x Q) (hf : ∀ a, Triple E (Q a) (f a) R) : Triple E P (x >>= f) R := by
  intro s hs
  have hends := hx s hs
  rw [bind_apply]
  cases h : x s with
  | ok a t =>
    rw [h] at hends
    exact hf a t hends
  | error e t =>
    rw [h] at hends
    exact hends

theorem triple_ite {c : Prop} [Decidable c] {x y : EStateM ε σ α} (hx : c → Triple E P x Q)
    (hy : ¬ c → Triple E P y Q) : Triple E P (if c then x else y) Q := by
  split
  · next h => exact hx h
  · next h => exact hy h

theorem triple_conseq {x : EStateM ε σ α} (h : Triple E P x Q) (hP : ∀ s, P' s → P s)
    (hQ : ∀ a s, Q a s → Q' a s) : Triple E P' x Q' := by
  intro s hs
  have hends := h s (hP s hs)
  cases hx : x s with
  | ok a t =>
    rw [hx] at hends
    exact hQ a t hends
  | error e t =>
    rw [hx] at hends
    exact hends

theorem triple_of_respects {R : σ → σ → Prop} {x : EStateM ε σ α} (h : Respects R x)
    (hQ : ∀ s t a, P s → R s t → Q a t) (hE : ∀ s t, P s → R s t → E t) : Triple E P x Q := by
  intro s hs
  have hR := h s
  cases hx : x s with
  | ok a t =>
    rw [hx] at hR
    exact hQ s t a hs hR
  | error e t =>
    rw [hx] at hR
    exact hE s t hs hR

/-! ## From one state -/

theorem ends_of_ok {x : EStateM ε σ α} {f : α → EStateM ε σ β} {Q : β → σ → Prop} {s t : σ} {a : α}
    (hx : x s = .ok a t) (hf : Ends E Q (f a t)) : Ends E Q ((x >>= f) s) := by
  rw [bind_of_ok hx]
  exact hf

theorem ends_bind {x : EStateM ε σ α} {f : α → EStateM ε σ β} {R : β → σ → Prop} {s : σ}
    (hx : Ends E Q (x s)) (hf : ∀ a t, Q a t → Ends E R (f a t)) : Ends E R ((x >>= f) s) := by
  rw [bind_apply]
  cases h : x s with
  | ok a t =>
    rw [h] at hx
    exact hf a t hx
  | error e t =>
    rw [h] at hx
    exact hx

theorem ends_ite {c : Prop} [Decidable c] {x y : EStateM ε σ α} {s : σ} (hx : c → Ends E Q (x s))
    (hy : ¬ c → Ends E Q (y s)) : Ends E Q ((if c then x else y) s) := by
  split
  · next h => exact hx h
  · next h => exact hy h

theorem Ends.exists_ok {r : EStateM.Result ε σ α} (h : Ends (fun _ => False) Q r) :
    ∃ a t, r = .ok a t ∧ Q a t := by
  cases r with
  | ok a t => exact ⟨a, t, rfl, h⟩
  | error e t => exact h.elim

theorem ends_mono {r : EStateM.Result ε σ α} (h : Ends E Q r) (hQ : ∀ a s, Q a s → Q' a s) :
    Ends E Q' r := by
  cases r with
  | ok a t => exact hQ a t h
  | error e t => exact h

theorem Ends.and {r : EStateM.Result ε σ α} (h : Ends E Q r) (h' : Ends E Q' r) :
    Ends E (fun a s => Q a s ∧ Q' a s) r := by
  cases r with
  | ok a t => exact ⟨h, h'⟩
  | error e t => exact h

/-! ## Rounds -/

theorem runAll_ends {I : σ → Prop} {C : σ → ι → Prop} {f : ι → EStateM ε σ PUnit}
    (h : ∀ i, Triple E (fun s => I s ∧ C s i) (f i) fun _ => I) {is : List ι} {s : σ} (hs : I s)
    (hall : Along C f s is) : Ends E (fun _ => I) (runAll f is s) := by
  induction is generalizing s with
  | nil => exact hs
  | cons i is ih =>
    have hends := h i s ⟨hs, hall.1⟩
    rw [runAll_cons]
    cases hi : f i s with
    | ok a t =>
      rw [hi] at hends
      exact ih hends (hall.2 t hi)
    | error e t =>
      rw [hi] at hends
      exact hends

end VitaConnect.Program
