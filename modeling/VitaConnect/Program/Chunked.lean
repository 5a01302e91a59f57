import Mathlib.Data.List.Basic
import Mathlib.Tactic

/-! # Data handed over in chunks

A producer hands over the chunks `cs` one by one to a consumer that answers the `i`-th of them by
`ret i`: the number of items it has taken, or a negative error. Items that are not taken are lost,
so the consumer has the whole data exactly when it took every chunk whole.
-/
namespace VitaConnect.Program
set_option autoImplicit false

universe u
variable {α : Type u}

def taken (chunk : List α) (ret : ℤ) : List α := chunk.take ret.toNat

/-- What a consumer gets of the chunks, the first of which is number `i`. -/
def takenOf (ret : ℕ → ℤ) : ℕ → List (List α) → List α
  | _, [] => []
  | i, c :: cs => taken c (ret i) ++ takenOf ret (i + 1) cs

theorem taken_length_le (chunk : List α) (ret : ℤ) : (taken chunk ret).length ≤ chunk.length := by
  simp [taken]

theorem taken_eq_self {chunk : List α} {ret : ℤ} (h : chunk.length ≤ ret.toNat) :
    taken chunk ret = chunk := List.take_of_length_le h

theorem taken_length_lt {chunk : List α} {ret : ℤ} (h : ¬ chunk.length ≤ ret.toNat) :
    (taken chunk ret).length < chunk.length := by
  simp only [taken, List.length_take]
  omega

theorem takenOf_length_le (ret : ℕ → ℤ) (i : ℕ) (cs : List (List α)) :
    (takenOf ret i cs).length ≤ cs.flatten.length := by
  induction cs generalizing i with
  | nil => simp [takenOf]
  | cons c cs ih =>
    have h1 := taken_length_le c (ret i)
    have h2 := ih (i + 1)
    simp only [takenOf, List.flatten_cons, List.length_append]
    omega

theorem forall_getElem?_cons {P : ℕ → α → Prop} (a : α) (l : List α) :
    (∀ j x, (a :: l)[j]? = some x → P j x) ↔ P 0 a ∧ ∀ j x, l[j]? = some x → P (j + 1) x := by
  constructor
  · intro h
    exact ⟨h 0 a rfl, fun j x hx => h (j + 1) x hx⟩
  · rintro ⟨h0, h⟩ j x hx
    cases j with
    | zero =>
      obtain rfl : a = x := by simpa using hx
      exact h0
    | succ j => exact h j x hx

theorem takenOf_eq_flatten_iff (ret : ℕ → ℤ) (i : ℕ) (cs : List (List α)) :
    takenOf ret i cs = cs.flatten ↔ ∀ j c, cs[j]? = some c → c.length ≤ (ret (i + j)).toNat := by
  induction cs generalizing i with
  | nil => simp [takenOf]
  | cons c cs ih =>
    rw [forall_getElem?_cons, takenOf, List.flatten_cons]
    by_cases hc : c.length ≤ (ret i).toNat
    · rw [taken_eq_self hc, List.append_cancel_left_eq, ih]
      simp only [add_zero, hc, true_and, ← Nat.add_assoc, Nat.add_right_comm i 1]
    · refine ⟨fun h => ?_, fun h => absurd h.1 hc⟩
      have hlen := congrArg List.length h
      have h1 := taken_length_lt hc
      have h2 := takenOf_length_le ret (i + 1) cs
      simp only [List.length_append] at hlen
      omega

end VitaConnect.Program
