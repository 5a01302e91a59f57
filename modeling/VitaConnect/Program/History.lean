import Mathlib.Tactic

/-! # Worlds that a list of steps leads through

`replay f w es` is the world that the steps `es` lead to from `w`; a property holds at every point
of the way when it holds behind each initial part of `es`. `EachStep C` says that every step of `es` meets
the condition `C` in the world it is taken in; an invariant of such steps holds at every point.
-/
namespace VitaConnect.Program
set_option autoImplicit false

universe u v
variable {ω : Type u} {τ : Type v} {P : ω → Prop} {f : ω → τ → ω} {w : ω}

def replay (f : ω → τ → ω) (w : ω) (es : List τ) : ω := es.foldl f w

theorem replay_nil : replay f w [] = w := rfl

theorem replay_snoc (es : List τ) (e : τ) : replay f w (es ++ [e]) = f (replay f w es) e := by
  rw [replay, List.foldl_append]
  rfl

theorem replay_append (es es' : List τ) :
    replay f w (es ++ es') = replay f (replay f w es) es' :=
  List.foldl_append

theorem replay_cons (e : τ) (es : List τ) : replay f w (e :: es) = replay f (f w e) es := rfl

def AtEveryPoint (P : ω → Prop) (f : ω → τ → ω) (w : ω) (es : List τ) : Prop :=
  ∀ k, P (replay f w (es.take k))

theorem atEveryPoint_nil (h : P w) : AtEveryPoint P f w [] := by
  intro k
  rw [List.take_nil]
  exact h

theorem AtEveryPoint.snoc {es : List τ} {e : τ} (h : AtEveryPoint P f w es)
    (he : P (replay f w (es ++ [e]))) : AtEveryPoint P f w (es ++ [e]) := by
  intro k
  by_cases hk : k ≤ es.length
  · rw [List.take_append_of_le_length hk]
    exact h k
  · rw [List.take_of_length_le]
    · exact he
    · rw [List.length_append, List.length_singleton]
      omega

theorem AtEveryPoint.mono {Q : ω → Prop} {es : List τ} (h : AtEveryPoint P f w es)
    (himp : ∀ w, P w → Q w) : AtEveryPoint Q f w es :=
  fun k => himp _ (h k)

/-! ## Steps that meet a condition -/

variable {C : ω → τ → Prop} {I : ω → Prop}

def EachStep (C : ω → τ → Prop) (f : ω → τ → ω) (w : ω) (es : List τ) : Prop :=
  ∀ p e, p ++ [e] <+: es → C (replay f w p) e

theorem EachStep.left {es es' : List τ} (h : EachStep C f w es) (hes : es' <+: es) :
    EachStep C f w es' :=
  fun p e hp => h p e (hp.trans hes)

theorem eachStep_nil : EachStep C f w [] :=
  fun _ _ hp => absurd (List.prefix_nil.mp hp) (by simp)

theorem eachStep_cons {e : τ} {es : List τ} (he : C w e) (h : EachStep C f (f w e) es) :
    EachStep C f w (e :: es) := by
  intro p e' hp
  cases p with
  | nil =>
    obtain ⟨rfl, -⟩ := List.cons_prefix_cons.mp hp
    exact he
  | cons d p =>
    obtain ⟨rfl, hrest⟩ := List.cons_prefix_cons.mp hp
    exact h p e' hrest

theorem replay_invariant {es : List τ} (hstep : ∀ w e, I w → C w e → I (f w e)) (hw : I w)
    (hes : EachStep C f w es) : I (replay f w es) := by
  induction es using List.reverseRecOn with
  | nil => exact hw
  | append_singleton es e ih =>
    rw [replay_snoc]
    apply hstep
    · exact ih (hes.left (List.prefix_append es [e]))
    · exact hes es e (List.prefix_refl _)

theorem atEveryPoint_of_invariant {es : List τ} (hstep : ∀ w e, I w → C w e → I (f w e)) (hw : I w)
    (hes : EachStep C f w es) : AtEveryPoint I f w es :=
  fun k => replay_invariant hstep hw (hes.left (List.take_prefix k es))

theorem AtEveryPoint.behind {es p : List τ} (h : AtEveryPoint P f w es) (hp : p <+: es) : P (replay f w p) := by
  rw [List.prefix_iff_eq_take.mp hp]
  exact h p.length

/-- Among ways whose steps meet the assumption `A`: where the steps that meet the condition keep an invariant, and from
a world that meets it exactly these lead to a world with the property, the property holds at every point of exactly
the ways of such steps. -/
theorem atEveryPoint_iff_eachStep_within {A : ω → τ → Prop} {es : List τ}
    (hstep : ∀ w e, I w → A w e → (P (f w e) ↔ C w e)) (hkeep : ∀ w e, I w → A w e → C w e → I (f w e))
    (hI : ∀ w, I w → P w) (hw : I w) (hes : EachStep A f w es) :
    AtEveryPoint P f w es ↔ EachStep C f w es := by
  constructor
  · intro h
    have hinv : ∀ p, p <+: es → I (replay f w p) := by
      intro p
      induction p using List.reverseRecOn with
      | nil => exact fun _ => hw
      | append_singleton p e ih =>
        intro hp
        have hbefore := ih ((List.prefix_append p [e]).trans hp)
        have hbehind := h.behind hp
        rw [replay_snoc] at hbehind ⊢
        exact hkeep _ e hbefore (hes p e hp) ((hstep _ e hbefore (hes p e hp)).mp hbehind)
    intro p e hp
    have hbehind := h.behind hp
    rw [replay_snoc] at hbehind
    exact (hstep _ e (hinv p ((List.prefix_append p [e]).trans hp)) (hes p e hp)).mp hbehind
  · intro h
    have hboth : EachStep (fun w e => A w e ∧ C w e) f w es := fun p e hp => ⟨hes p e hp, h p e hp⟩
    exact (atEveryPoint_of_invariant (fun w e hI hC => hkeep w e hI hC.1 hC.2) hw hboth).mono hI

/-- Among ways whose steps meet the assumption `A`, an invariant that is kept by exactly the steps that meet the
condition holds at every point of exactly the ways of such steps. -/
theorem atEveryPoint_iff_eachStep_of {A : ω → τ → Prop} {es : List τ}
    (hstep : ∀ w e, I w → A w e → (I (f w e) ↔ C w e)) (hw : I w) (hes : EachStep A f w es) :
    AtEveryPoint I f w es ↔ EachStep C f w es :=
  atEveryPoint_iff_eachStep_within hstep (fun w e hI hA hC => (hstep w e hI hA).mpr hC) (fun _ hI => hI) hw hes

/-- Where an invariant is kept by exactly the steps that meet the condition, it holds at every point of exactly the
ways of such steps. -/
theorem atEveryPoint_iff_eachStep {es : List τ} (hstep : ∀ w e, I w → (I (f w e) ↔ C w e)) (hw : I w) :
    AtEveryPoint I f w es ↔ EachStep C f w es :=
  atEveryPoint_iff_eachStep_of (A := fun _ _ => True) (fun w e hI _ => hstep w e hI) hw fun _ _ _ => trivial

end VitaConnect.Program
