import VitaConnect.Program.Triple

/-! # Rounds until one refuses

`untilRefused f is` runs one round of `f` for every item of a list and stops at the first one that does not
answer a positive number. Its rule has an invariant of the items done, and what holds when a round refuses.
-/
namespace VitaConnect.Program
set_option autoImplicit false

variable {ε σ ι : Type} {E : σ → Prop}

def untilRefused (f : ι → EStateM ε σ ℤ) : List ι → EStateM ε σ ℤ
  | [] => pure 1
  | i :: is => do
    let ret ← f i
    if ret ≤ 0 then pure ret else untilRefused f is

/-- `P` when the rounds go on, and `Q` when they are over. -/
def Continues (P : σ → Prop) (Q : ℤ → σ → Prop) (ret : ℤ) (s : σ) : Prop :=
  if 0 < ret then P s else Q ret s

theorem continues_of_pos {P : σ → Prop} {Q : ℤ → σ → Prop} {ret : ℤ} {s : σ} (hret : 0 < ret) :
    Continues P Q ret s ↔ P s := by
  rw [Continues, if_pos hret]

theorem continues_of_not_pos {P : σ → Prop} {Q : ℤ → σ → Prop} {ret : ℤ} {s : σ} (hret : ¬ 0 < ret) :
    Continues P Q ret s ↔ Q ret s := by
  rw [Continues, if_neg hret]

theorem continues_self {P : σ → Prop} {ret : ℤ} {s : σ} : Continues P (fun _ => P) ret s ↔ P s := by
  rw [Continues, ite_self]

theorem triple_untilRefused_from {f : ι → EStateM ε σ ℤ} {is : List ι} {P : List ι → σ → Prop}
    {Q : ℤ → σ → Prop}
    (h : ∀ done i rest, is = done ++ i :: rest →
      Triple E (P done) (f i) (Continues (P (done ++ [i])) Q)) :
    ∀ done rest, is = done ++ rest → Triple E (P done) (untilRefused f rest)
      fun ret s => Continues (P is) Q ret s ∧ (0 < ret → ret = 1) := by
  intro done rest
  induction rest generalizing done with
  | nil =>
    intro his
    rw [List.append_nil] at his
    subst his
    exact triple_pure fun s hs => ⟨(continues_of_pos one_pos).mpr hs, fun _ => rfl⟩
  | cons i rest ih =>
    intro his
    refine triple_bind (h done i rest his) fun ret => triple_ite (fun hret => ?_) fun hret => ?_
    · have hnot : ¬ 0 < ret := not_lt.mpr hret
      refine triple_pure fun s hs => ⟨?_, fun hpos => absurd hpos hnot⟩
      rw [continues_of_not_pos hnot] at hs ⊢
      exact hs
    · refine triple_conseq (ih (done ++ [i]) (by rw [his, List.append_assoc]; rfl)) (fun s hs => ?_)
        fun _ _ hs => hs
      exact (continues_of_pos (not_le.mp hret)).mp hs

/-- The rule of the rounds: `P` is kept from each item to the next. -/
theorem triple_untilRefused {f : ι → EStateM ε σ ℤ} {is : List ι} {P : List ι → σ → Prop}
    {Q : ℤ → σ → Prop}
    (h : ∀ done i rest, is = done ++ i :: rest →
      Triple E (P done) (f i) (Continues (P (done ++ [i])) Q)) :
    Triple E (P []) (untilRefused f is) fun ret s => Continues (P is) Q ret s ∧ (0 < ret → ret = 1) :=
  triple_untilRefused_from h [] is rfl

/-- The item of a round among items with different keys. -/
theorem round_item {κ : Type} {key : ι → κ} {is done rest : List ι} {i : ι} (hnodup : (is.map key).Nodup)
    (his : is = done ++ i :: rest) : i ∈ is ∧ key i ∉ done.map key := by
  rw [his, List.map_append, List.map_cons] at hnodup
  refine ⟨by rw [his]; exact List.mem_append_right done List.mem_cons_self, fun hin => ?_⟩
  exact (List.nodup_append.mp hnodup).2.2 _ hin _ List.mem_cons_self rfl

/-- Rounds that all keep `P`, also one that refuses. -/
theorem ends_untilRefused {f : ι → EStateM ε σ ℤ} {is : List ι} {P : σ → Prop}
    (h : ∀ i ∈ is, ∀ s, P s → Ends E (fun _ => P) (f i s)) {s : σ} (hs : P s) :
    Ends E (fun _ => P) (untilRefused f is s) := by
  have hrule : Triple E P (untilRefused f is)
      fun ret s => Continues P (fun _ => P) ret s ∧ (0 < ret → ret = 1) := by
    refine triple_untilRefused (P := fun _ => P) fun done i rest his s hs => ?_
    exact ends_mono (h i (by rw [his]; simp) s hs) fun _ _ h => continues_self.mpr h
  exact ends_mono (hrule s hs) fun _ _ h => continues_self.mp h.1

end VitaConnect.Program
