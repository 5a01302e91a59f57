import Mathlib.Order.Defs.Unbundled
import Mathlib.Tactic

/-! # Imperative programs with a state and an abnormal end

A program is an `EStateM ε σ α`: it changes a state `σ` and either returns or stops with an `ε`,
keeping the state it had reached. Two kinds of reasoning are set up here.

* `Respects R x`: the final state of `x`, however it ends, is related to the initial one by `R`.
  For a preorder `R` this composes along `>>=`, so a frame condition ("this field is unchanged")
  and an invariant (`R s t := I s → I t`) are proved one statement at a time.
* `Keeps g x`: the special case in which `g` of the state does not change.
* `runAll f` runs one round of `f` for every item of a list; `Along P f s is` says that `P` holds
  of every round of that run, at the state in which the round starts.
-/
namespace VitaConnect.Program
set_option autoImplicit false

universe u
variable {ε σ α β ι : Type u}

/-! ## Running the constructs of `do` -/

theorem bind_apply (x : EStateM ε σ α) (f : α → EStateM ε σ β) (s : σ) :
    (x >>= f) s = match x s with
      | .ok a t => f a t
      | .error e t => .error e t := rfl

theorem pure_apply (a : α) (s : σ) : (pure a : EStateM ε σ α) s = .ok a s := rfl

theorem throw_apply (e : ε) (s : σ) : (throw e : EStateM ε σ α) s = .error e s := rfl

theorem get_apply (s : σ) : (get : EStateM ε σ σ) s = .ok s s := rfl

theorem modify_apply (f : σ → σ) (s : σ) : (modify f : EStateM ε σ PUnit) s = .ok ⟨⟩ (f s) := rfl

theorem ite_run (c : Prop) [Decidable c] (x y : EStateM ε σ α) (s : σ) :
    (if c then x else y) s = if c then x s else y s := by
  split <;> rfl

theorem bind_ok {x : EStateM ε σ α} {f : α → EStateM ε σ β} {s t : σ} {b : β}
    (h : (x >>= f) s = .ok b t) : ∃ a m, x s = .ok a m ∧ f a m = .ok b t := by
  rw [bind_apply] at h
  cases hx : x s with
  | ok a m =>
    rw [hx] at h
    exact ⟨a, m, rfl, h⟩
  | error e m =>
    rw [hx] at h
    cases h

theorem bind_of_ok {x : EStateM ε σ α} {f : α → EStateM ε σ β} {s t : σ} {a : α}
    (h : x s = .ok a t) : (x >>= f) s = f a t := by
  rw [bind_apply, h]

/-! ## Relating the final state to the initial one -/

def finalState : EStateM.Result ε σ α → σ
  | .ok _ s => s
  | .error _ s => s

@[simp] theorem finalState_ok (a : α) (s : σ) :
    finalState (.ok a s : EStateM.Result ε σ α) = s := rfl

@[simp] theorem finalState_error (e : ε) (s : σ) :
    finalState (.error e s : EStateM.Result ε σ α) = s := rfl

def returned : EStateM.Result ε σ α → Bool
  | .ok .. => true
  | .error .. => false

theorem eq_ok_of_returned {r : EStateM.Result ε σ PUnit} (h : returned r) :
    r = .ok ⟨⟩ (finalState r) := by
  cases r with
  | ok a s => rfl
  | error e s => cases h

def failure : EStateM.Result ε σ α → Option ε
  | .ok .. => none
  | .error e _ => some e

theorem eq_error_of_failure {r : EStateM.Result ε σ α} {e : ε} (h : failure r = some e) :
    r = .error e (finalState r) := by
  cases r with
  | ok a s => cases h
  | error e' s =>
    obtain rfl : e' = e := Option.some.inj h
    rfl

def Respects (R : σ → σ → Prop) (x : EStateM ε σ α) : Prop := ∀ s, R s (finalState (x s))

theorem Respects.ok {R : σ → σ → Prop} {x : EStateM ε σ α} (h : Respects R x) {s t : σ} {a : α}
    (hx : x s = .ok a t) : R s t := by
  simpa [hx] using h s

section Rules
variable {R : σ → σ → Prop}

theorem respects_pure [Std.Refl R] (a : α) : Respects R (pure a : EStateM ε σ α) :=
  fun s => refl_of R s

theorem respects_throw [Std.Refl R] (e : ε) : Respects R (throw e : EStateM ε σ α) :=
  fun s => refl_of R s

theorem respects_get [Std.Refl R] : Respects R (get : EStateM ε σ σ) := fun s => refl_of R s

theorem respects_bind [IsTrans σ R] {x : EStateM ε σ α} {f : α → EStateM ε σ β}
    (hx : Respects R x) (hf : ∀ a, Respects R (f a)) : Respects R (x >>= f) := by
  intro s
  have hs := hx s
  rw [bind_apply]
  cases h : x s with
  | ok a t =>
    rw [h] at hs
    exact trans_of R hs (hf a t)
  | error e t =>
    rw [h] at hs
    exact hs

theorem respects_ite {c : Prop} [Decidable c] {x y : EStateM ε σ α} (hx : Respects R x)
    (hy : Respects R y) : Respects R (if c then x else y) := by
  split
  · exact hx
  · exact hy

end Rules

/-! ## Frame conditions -/

section Frame
variable {γ : Type u} {g : σ → γ}

/-- `x` leaves `g` of the state alone, however it ends. -/
def Keeps (g : σ → γ) (x : EStateM ε σ α) : Prop := Respects (fun s t => g t = g s) x

instance refl_sameView : Std.Refl (fun s t : σ => g t = g s) := ⟨fun _ => rfl⟩

instance isTrans_sameView : IsTrans σ (fun s t : σ => g t = g s) := ⟨fun _ _ _ h h' => h'.trans h⟩

theorem Keeps.ok {x : EStateM ε σ α} (h : Keeps g x) {s t : σ} {a : α} (hx : x s = .ok a t) :
    g t = g s := Respects.ok h hx

theorem keeps_pure (a : α) : Keeps g (pure a : EStateM ε σ α) := respects_pure a

theorem keeps_throw (e : ε) : Keeps g (throw e : EStateM ε σ α) := respects_throw e

theorem keeps_get : Keeps g (get : EStateM ε σ σ) := respects_get

theorem keeps_modify {f : σ → σ} (h : ∀ s, g (f s) = g s) :
    Keeps g (modify f : EStateM ε σ PUnit) := h

theorem keeps_bind {x : EStateM ε σ α} {f : α → EStateM ε σ β} (hx : Keeps g x)
    (hf : ∀ a, Keeps g (f a)) : Keeps g (x >>= f) := respects_bind hx hf

theorem keeps_ite {c : Prop} [Decidable c] {x y : EStateM ε σ α} (hx : Keeps g x)
    (hy : Keeps g y) : Keeps g (if c then x else y) := respects_ite hx hy

end Frame

/-! ## Which abnormal ends can come -/

section Errors
variable {E : ε → Prop}

/-- Started in `s`, `x` ends abnormally only with an error that satisfies `E`. -/
def ErrsIn (E : ε → Prop) (x : EStateM ε σ α) (s : σ) : Prop := ∀ e t, x s = .error e t → E e

theorem errsIn_of_ok {x : EStateM ε σ α} {s t : σ} {a : α} (h : x s = .ok a t) : ErrsIn E x s := by
  intro e u hx
  rw [h] at hx
  cases hx

theorem errsIn_pure (a : α) (s : σ) : ErrsIn E (pure a : EStateM ε σ α) s := errsIn_of_ok rfl

theorem errsIn_throw {e : ε} (h : E e) (s : σ) : ErrsIn E (throw e : EStateM ε σ α) s := by
  intro e' t hx
  cases hx
  exact h

theorem errsIn_bind {x : EStateM ε σ α} {f : α → EStateM ε σ β} {s : σ} (hx : ErrsIn E x s)
    (hf : ∀ a t, x s = .ok a t → ErrsIn E (f a) t) : ErrsIn E (x >>= f) s := by
  intro e u h
  rw [bind_apply] at h
  cases hr : x s with
  | ok a t =>
    rw [hr] at h
    exact hf a t hr e u h
  | error e' t =>
    rw [hr] at h
    cases h
    exact hx _ _ hr

theorem errsIn_bind_iff {x : EStateM ε σ α} {f : α → EStateM ε σ β} {s : σ}
    (hf : ∀ a t, x s = .ok a t → ErrsIn E (f a) t) : ErrsIn E (x >>= f) s ↔ ErrsIn E x s := by
  refine ⟨fun h e t hx => ?_, fun hx => errsIn_bind hx hf⟩
  exact h e t (by rw [bind_apply, hx])

theorem errsIn_seq {x : EStateM ε σ α} {f : α → EStateM ε σ β} (hx : ∀ s, ErrsIn E x s)
    (hf : ∀ a s, ErrsIn E (f a) s) (s : σ) : ErrsIn E (x >>= f) s :=
  errsIn_bind (hx s) fun a t _ => hf a t

theorem errsIn_ite {c : Prop} [Decidable c] {x y : EStateM ε σ α} {s : σ} (hx : ErrsIn E x s)
    (hy : ErrsIn E y s) : ErrsIn E (if c then x else y) s := by
  split
  · exact hx
  · exact hy

end Errors

/-! ## Rounds -/

def runAll (f : ι → EStateM ε σ PUnit) : List ι → EStateM ε σ PUnit
  | [] => pure ⟨⟩
  | i :: is => do f i; runAll f is

theorem runAll_nil (f : ι → EStateM ε σ PUnit) (s : σ) : runAll f [] s = .ok ⟨⟩ s := rfl

theorem runAll_cons (f : ι → EStateM ε σ PUnit) (i : ι) (is : List ι) (s : σ) :
    runAll f (i :: is) s = match f i s with
      | .ok _ t => runAll f is t
      | .error e t => .error e t := by
  rw [runAll, bind_apply]
  cases f i s <;> rfl

theorem runAll_append (f : ι → EStateM ε σ PUnit) (is js : List ι) :
    runAll f (is ++ js) = (do runAll f is; runAll f js) := by
  funext s
  induction is generalizing s with
  | nil => rfl
  | cons i is ih =>
    rw [List.cons_append, runAll_cons, bind_apply, runAll_cons]
    cases f i s with
    | ok _ t => exact ih t
    | error e t => rfl

theorem runAll_snoc_ok {f : ι → EStateM ε σ PUnit} {is : List ι} {i : ι} {s t : σ}
    (h : runAll f (is ++ [i]) s = .ok ⟨⟩ t) : ∃ u, runAll f is s = .ok ⟨⟩ u ∧ f i u = .ok ⟨⟩ t := by
  rw [runAll_append] at h
  obtain ⟨_, u, hu, h⟩ := bind_ok h
  obtain ⟨_, v, hv, h⟩ := bind_ok h
  obtain rfl : v = t := by simpa [runAll_nil] using h
  exact ⟨u, hu, hv⟩

theorem respects_runAll {R : σ → σ → Prop} [Std.Refl R] [IsTrans σ R] {f : ι → EStateM ε σ PUnit}
    (h : ∀ i, Respects R (f i)) : ∀ is, Respects R (runAll f is)
  | [] => respects_pure _
  | i :: is => respects_bind (h i) fun _ => respects_runAll h is

/-- An invariant of the rounds holds in every state a run reaches. -/
theorem runAll_invariant {I : σ → Prop} {f : ι → EStateM ε σ PUnit}
    (h : ∀ i s t, I s → f i s = .ok ⟨⟩ t → I t) :
    ∀ {is : List ι} {s t : σ}, I s → runAll f is s = .ok ⟨⟩ t → I t
  | [], s, t, hs, ht => by
    obtain rfl : s = t := by simpa [runAll_nil] using ht
    exact hs
  | i :: is, s, t, hs, ht => by
    obtain ⟨_, m, hm, ht'⟩ := bind_ok ht
    exact runAll_invariant h (h i s m hs hm) ht'

theorem runAll_ok {I : σ → Prop} {P : ι → Prop} {f : ι → EStateM ε σ PUnit}
    (h : ∀ i s, P i → I s → ∃ t, f i s = .ok ⟨⟩ t ∧ I t) :
    ∀ {is : List ι} {s : σ}, (∀ i ∈ is, P i) → I s → ∃ t, runAll f is s = .ok ⟨⟩ t ∧ I t
  | [], s, _, hs => ⟨s, rfl, hs⟩
  | i :: is, s, hP, hs => by
    obtain ⟨m, hm, hIm⟩ := h i s (hP i List.mem_cons_self) hs
    obtain ⟨t, ht, hIt⟩ := runAll_ok h (fun j hj => hP j (List.mem_cons_of_mem i hj)) hIm
    refine ⟨t, ?_, hIt⟩
    rw [runAll_cons, hm]
    exact ht

/-- Where a round keeps an invariant exactly when it is not `B`, the invariant holds behind every initial
part of a run exactly when no round of the part is `B`. -/
theorem runAll_prefixes_iff {I : σ → Prop} {B : ι → Prop} {f : ι → EStateM ε σ PUnit} {is : List ι} {s : σ}
    (h : ∀ i s t, I s → f i s = .ok ⟨⟩ t → (I t ↔ ¬ B i)) (hs : I s) :
    (∀ p t, p <+: is → runAll f p s = .ok ⟨⟩ t → I t) ↔
      ∀ p t, p <+: is → runAll f p s = .ok ⟨⟩ t → ∀ i ∈ p, ¬ B i := by
  constructor
  · intro hI p t hp hrun i hi
    obtain ⟨q, r, rfl⟩ := List.append_of_mem hi
    rw [runAll_append] at hrun
    obtain ⟨_, u, hu, hrun⟩ := bind_ok hrun
    obtain ⟨_, v, hv, -⟩ := bind_ok hrun
    have hqi : runAll f (q ++ [i]) s = .ok ⟨⟩ v := by
      rw [runAll_append, bind_of_ok hu, runAll_cons, hv]
      rfl
    have hprefix : q ++ [i] <+: is := List.IsPrefix.trans ⟨r, by simp⟩ hp
    have hIu := hI q u ((List.prefix_append q [i]).trans hprefix) hu
    exact (h i u v hIu hv).mp (hI (q ++ [i]) v hprefix hqi)
  · intro hB p
    induction p using List.reverseRecOn with
    | nil =>
      intro t _ hrun
      obtain rfl : s = t := by simpa [runAll_nil] using hrun
      exact hs
    | append_singleton q i ih =>
      intro t hp hrun
      obtain ⟨u, hu, hi⟩ := runAll_snoc_ok hrun
      have hIu := ih u ((List.prefix_append q [i]).trans hp) hu
      exact (h i u t hIu hi).mpr (hB (q ++ [i]) t hp hrun i (by simp))

/-- `P` holds of every round of the run over `is` from `s`, in the state the round starts in. -/
def Along (P : σ → ι → Prop) (f : ι → EStateM ε σ PUnit) : σ → List ι → Prop
  | _, [] => True
  | s, i :: is => P s i ∧ ∀ t, f i s = .ok ⟨⟩ t → Along P f t is

theorem along_of_forall {P : σ → ι → Prop} {f : ι → EStateM ε σ PUnit} :
    ∀ {is : List ι} {s : σ}, (∀ i ∈ is, ∀ s, P s i) → Along P f s is
  | [], _, _ => trivial
  | i :: _, s, h => ⟨h i List.mem_cons_self s, fun _ _ =>
      along_of_forall fun j hj => h j (List.mem_cons_of_mem i hj)⟩

theorem along_cons {P : σ → ι → Prop} {f : ι → EStateM ε σ PUnit} {i : ι} {is : List ι} {s : σ}
    (hi : P s i) (hrest : Along P f (finalState (f i s)) is) :
    Along P f s (i :: is) := by
  refine ⟨hi, fun t ht => ?_⟩
  rw [ht] at hrest
  exact hrest

theorem Along.imp {I : σ → Prop} {P Q : σ → ι → Prop} {f : ι → EStateM ε σ PUnit}
    (hPQ : ∀ s i, I s → P s i → Q s i)
    (hI : ∀ s i t, I s → P s i → f i s = .ok ⟨⟩ t → I t) :
    ∀ {is : List ι} {s : σ}, I s → Along P f s is → Along Q f s is
  | [], _, _, _ => trivial
  | i :: _, s, hs, ⟨hp, hrest⟩ =>
    ⟨hPQ s i hs hp, fun t ht => Along.imp hPQ hI (hI s i t hs hp ht) (hrest t ht)⟩

theorem Along.and {P Q : σ → ι → Prop} {f : ι → EStateM ε σ PUnit} :
    ∀ {is : List ι} {s : σ}, Along P f s is → Along Q f s is →
      Along (fun s i => P s i ∧ Q s i) f s is
  | [], _, _, _ => trivial
  | _ :: _, _, hP, hQ => ⟨⟨hP.1, hQ.1⟩, fun t ht => (hP.2 t ht).and (hQ.2 t ht)⟩

/-- A run errs only within `E` exactly when each of its rounds does. -/
theorem errsIn_runAll_iff {E : ε → Prop} {I : σ → Prop} {P : σ → ι → Prop}
    {f : ι → EStateM ε σ PUnit} (hround : ∀ i s, I s → (ErrsIn E (f i) s ↔ P s i))
    (hI : ∀ i s t, I s → f i s = .ok ⟨⟩ t → I t) :
    ∀ {is : List ι} {s : σ}, I s → (ErrsIn E (runAll f is) s ↔ Along P f s is)
  | [], s, _ => iff_of_true (errsIn_pure _ s) trivial
  | i :: is, s, hs => by
    constructor
    · intro h
      refine ⟨(hround i s hs).mp fun e t he => h e t ?_, fun t ht => ?_⟩
      · rw [runAll_cons, he]
      · refine (errsIn_runAll_iff hround hI (hI i s t hs ht)).mp fun e u he => h e u ?_
        rw [runAll_cons, ht]
        exact he
    · rintro ⟨hp, hrest⟩
      exact errsIn_bind ((hround i s hs).mpr hp) fun _ t ht =>
        (errsIn_runAll_iff hround hI (hI i s t hs ht)).mpr (hrest t ht)

end VitaConnect.Program
