import VitaConnect.Program.Ledger

/-! # Steps with a return at the first failure

`untilFailure failed es` are the steps of `es` that are taken when each failed step ends them. A
resource that the first step acquires and only the last one releases is given back when the first
step fails or none does, and otherwise it is kept.
-/
namespace VitaConnect.Program
set_option autoImplicit false

universe u
variable {τ : Type u} {failed : τ → Bool}

def untilFailure (failed : τ → Bool) : List τ → List τ
  | [] => []
  | e :: es => if failed e then [e] else e :: untilFailure failed es

theorem untilFailure_cons_of_failed {e : τ} (h : failed e = true) (es : List τ) :
    untilFailure failed (e :: es) = [e] := by
  rw [untilFailure, if_pos h]

theorem untilFailure_cons_of_ok {e : τ} (h : failed e = false) (es : List τ) :
    untilFailure failed (e :: es) = e :: untilFailure failed es := by
  rw [untilFailure, if_neg (by simp [h])]

theorem untilFailure_of_ok {es : List τ} (h : ∀ e ∈ es, failed e = false) :
    untilFailure failed es = es := by
  induction es with
  | nil => rfl
  | cons e es ih =>
    obtain ⟨he, hes⟩ := List.forall_mem_cons.mp h
    rw [untilFailure_cons_of_ok he, ih hes]

namespace Ledger
variable {τ κ : Type} [DecidableEq κ] {L : Ledger τ κ} {failed : τ → Bool} {k : κ}

theorem net_untilFailure_release {mid : List τ} {last : τ} (hmid : ∀ e ∈ mid, L.change k e = 0)
    (hlast : L.change k last = if failed last then 0 else -1) :
    L.net k (untilFailure failed (mid ++ [last])) =
      if ∀ e ∈ mid ++ [last], failed e = false then -1 else 0 := by
  induction mid with
  | nil =>
    cases hf : failed last <;> simp [untilFailure, hf, net_cons, hlast]
  | cons e mid ih =>
    obtain ⟨he, hrest⟩ := List.forall_mem_cons.mp hmid
    cases hf : failed e with
    | true =>
      rw [List.cons_append, untilFailure_cons_of_failed hf, net_cons, he, net_nil, if_neg]
      · rfl
      · intro h
        exact absurd (h e List.mem_cons_self) (by simp [hf])
    | false =>
      rw [List.cons_append, untilFailure_cons_of_ok hf, net_cons, he, ih hrest, zero_add]
      simp only [List.forall_mem_cons, hf, true_and]

theorem net_untilFailure_bracket {first last : τ} {mid : List τ}
    (hfirst : L.change k first = if failed first then 0 else 1)
    (hmid : ∀ e ∈ mid, L.change k e = 0)
    (hlast : L.change k last = if failed last then 0 else -1) :
    L.net k (untilFailure failed (first :: (mid ++ [last]))) = 0 ↔
      failed first = true ∨ ∀ e ∈ first :: (mid ++ [last]), failed e = false := by
  cases hf : failed first with
  | true =>
    rw [untilFailure_cons_of_failed hf, net_cons, hfirst, hf]
    simp
  | false =>
    rw [untilFailure_cons_of_ok hf, net_cons, hfirst, hf, net_untilFailure_release hmid hlast,
      List.forall_mem_cons, hf]
    by_cases hall : ∀ e ∈ mid ++ [last], failed e = false
    · rw [if_pos hall]
      exact iff_of_true rfl (Or.inr ⟨rfl, hall⟩)
    · rw [if_neg hall]
      exact iff_of_false (by simp) fun h => h.elim (by simp) fun h => hall h.2

end Ledger

end VitaConnect.Program
