import Mathlib.Algebra.BigOperators.Group.List.Basic
import Mathlib.Data.Int.Order.Basic
import Mathlib.Tactic

/-! # Resources along a trace

A `Ledger` says which resource an event of a trace acquires, releases or uses. `net k t` is the number
of acquisitions of `k` in `t` minus the number of releases. A trace is `Sound` when everywhere on its
way each resource is held at most once, released only while it is held, and used only while it is
held. In a sound trace that holds nothing at its end, each acquisition meets exactly one release.
-/
namespace VitaConnect.Program
set_option autoImplicit false

structure Ledger (τ κ : Type) where
  acquires : τ → Option κ
  releases : τ → Option κ
  uses : τ → Option κ
  apart : ∀ e k, acquires e = some k → releases e ≠ some k

namespace Ledger
variable {τ κ : Type} [DecidableEq κ] {L : Ledger τ κ} {k : κ} {t u es : List τ} {e : τ}

def change (L : Ledger τ κ) (k : κ) (e : τ) : ℤ :=
  (if L.acquires e = some k then 1 else 0) - (if L.releases e = some k then 1 else 0)

def net (L : Ledger τ κ) (k : κ) (t : List τ) : ℤ := (t.map (L.change k)).sum

@[simp] theorem net_nil : L.net k [] = 0 := rfl

theorem net_cons (e : τ) (t : List τ) : L.net k (e :: t) = L.change k e + L.net k t := by
  rw [net, List.map_cons, List.sum_cons, net]

theorem net_append (t u : List τ) : L.net k (t ++ u) = L.net k t + L.net k u := by
  rw [net, List.map_append, List.sum_append, net, net]

theorem net_snoc (t : List τ) (e : τ) : L.net k (t ++ [e]) = L.net k t + L.change k e := by
  rw [net_append, net_cons, net_nil, add_zero]

theorem net_eq_count (t : List τ) :
    L.net k t = t.countP (L.acquires · = some k) - t.countP (L.releases · = some k) := by
  induction t with
  | nil => rfl
  | cons e t ih =>
    rw [net_cons, ih, change, List.countP_cons, List.countP_cons]
    by_cases ha : L.acquires e = some k <;> by_cases hr : L.releases e = some k <;>
      simp only [ha, hr, decide_true, decide_false, if_true, if_false, Bool.false_eq_true] <;> omega

/-- A resource is free between the parts of a trace when each part gives back what it takes. -/
theorem net_flatMap_prefix_iff {ι : Type} (f : ι → List τ) (parts : List ι) :
    (∀ p, p <+: parts → L.net k (p.flatMap f) = 0) ↔ ∀ c ∈ parts, L.net k (f c) = 0 := by
  constructor
  · intro h c hc
    obtain ⟨p, q, rfl⟩ := List.append_of_mem hc
    have hp := h p (List.prefix_append p _)
    have hpc := h (p ++ [c]) ⟨q, by simp⟩
    rw [List.flatMap_append, net_append, hp, List.flatMap_singleton, zero_add] at hpc
    exact hpc
  · intro h p hp
    have hparts : ∀ c ∈ p, L.net k (f c) = 0 := fun c hc => h c (hp.subset hc)
    clear hp
    induction p with
    | nil => rfl
    | cons c p ih =>
      obtain ⟨hc, hrest⟩ := List.forall_mem_cons.mp hparts
      rw [List.flatMap_cons, net_append, hc, ih hrest, zero_add]

/-! ## Sound traces -/

structure Sound (L : Ledger τ κ) (t : List τ) : Prop where
  held : ∀ k p, p <+: t → 0 ≤ L.net k p ∧ L.net k p ≤ 1
  used : ∀ k p e, p ++ [e] <+: t → L.uses e = some k → L.net k p = 1

/-- The event may come behind the trace. -/
structure Proper (L : Ledger τ κ) (t : List τ) (e : τ) : Prop where
  acquires : ∀ k, L.acquires e = some k → L.net k t = 0
  releases : ∀ k, L.releases e = some k → L.net k t = 1
  uses : ∀ k, L.uses e = some k → L.net k t = 1

theorem sound_nil : L.Sound [] := by
  constructor
  · intro k p hp
    rw [List.prefix_nil.mp hp]
    simp
  · intro k p e hp
    exact absurd (List.prefix_nil.mp hp) (List.append_ne_nil_of_right_ne_nil _ (by simp))

theorem Sound.left (h : L.Sound (t ++ u)) : L.Sound t :=
  ⟨fun k p hp => h.held k p (hp.trans (List.prefix_append t u)),
    fun k p e hp => h.used k p e (hp.trans (List.prefix_append t u))⟩

theorem Sound.snoc (h : L.Sound t) (he : L.Proper t e) : L.Sound (t ++ [e]) := by
  constructor
  · intro k p hp
    rcases List.prefix_concat_iff.mp hp with rfl | hp
    · have ht := h.held k t (List.prefix_refl t)
      have hacq := he.acquires k
      have hrel := he.releases k
      rw [net_snoc, change]
      by_cases ha : L.acquires e = some k
      · have hnet := hacq ha
        rw [if_pos ha, if_neg (L.apart e k ha)]
        omega
      · by_cases hr : L.releases e = some k
        · have hnet := hrel hr
          rw [if_neg ha, if_pos hr]
          omega
        · rw [if_neg ha, if_neg hr]
          omega
    · exact h.held k p hp
  · intro k p e' hp huse
    rcases List.prefix_concat_iff.mp hp with heq | hp
    · obtain ⟨rfl, he'⟩ := List.append_inj' heq rfl
      obtain rfl : e' = e := by simpa using he'
      exact he.uses k huse
    · exact h.used k p e' hp huse

theorem Sound.proper {p : List τ} (h : L.Sound t) (hp : p ++ [e] <+: t) : L.Proper p e := by
  have hbefore := fun k => h.held k p ((List.prefix_append p [e]).trans hp)
  have hbehind := fun k => h.held k (p ++ [e]) hp
  refine ⟨fun k hk => ?_, fun k hk => ?_, fun k hk => h.used k p e hp hk⟩
  · have hp0 := hbefore k
    have hp1 := hbehind k
    rw [net_snoc, change, if_pos hk, if_neg (L.apart e k hk)] at hp1
    omega
  · have hp0 := hbefore k
    have hp1 := hbehind k
    have hacq : L.acquires e ≠ some k := fun hacq => L.apart e k hacq hk
    rw [net_snoc, change, if_neg hacq, if_pos hk] at hp1
    omega

/-! ## Taking and giving back -/

theorem Sound.neutral (h : L.Sound t) (ha : L.acquires e = none) (hr : L.releases e = none)
    (hu : L.uses e = none) : L.Sound (t ++ [e]) :=
  h.snoc ⟨by simp [ha], by simp [hr], by simp [hu]⟩

theorem Sound.acquire (h : L.Sound t) (ha : L.acquires e = some k) (hr : L.releases e = none)
    (hu : L.uses e = none) (hk : L.net k t = 0) : L.Sound (t ++ [e]) :=
  h.snoc ⟨by simp [ha, hk], by simp [hr], by simp [hu]⟩

theorem Sound.release (h : L.Sound t) (ha : L.acquires e = none) (hr : L.releases e = some k)
    (hu : L.uses e = none) (hk : L.net k t = 1) : L.Sound (t ++ [e]) :=
  h.snoc ⟨by simp [ha], by simp [hr, hk], by simp [hu]⟩

/-- `give k` releases `k` and does nothing else. -/
structure Gives (L : Ledger τ κ) (give : κ → τ) : Prop where
  acquires : ∀ k, L.acquires (give k) = none
  releases : ∀ k, L.releases (give k) = some k
  uses : ∀ k, L.uses (give k) = none

theorem Gives.net {give : κ → τ} (hgive : L.Gives give) (k : κ) (ks : List κ) :
    L.net k (ks.map give) = -(ks.count k : ℤ) := by
  induction ks with
  | nil => rfl
  | cons j ks ih =>
    rw [List.map_cons, net_cons, ih, change, hgive.acquires, hgive.releases, List.count_cons]
    by_cases hj : j = k
    · subst hj
      simp
    · simp [hj]

/-- What is held can be given back. -/
theorem Sound.releaseAll {give : κ → τ} (hgive : L.Gives give) {ks : List κ} (h : L.Sound t)
    (hheld : ∀ k, (ks.count k : ℤ) ≤ L.net k t) : L.Sound (t ++ ks.map give) := by
  induction ks generalizing t with
  | nil => simpa using h
  | cons j ks ih =>
    have hj : L.net j t = 1 := by
      have hle := hheld j
      have hone := (h.held j t (List.prefix_refl t)).2
      rw [List.count_cons_self] at hle
      omega
    rw [List.map_cons, ← List.singleton_append, ← List.append_assoc]
    apply ih
    · exact h.release (hgive.acquires j) (hgive.releases j) (hgive.uses j) hj
    · intro k
      have hle := hheld k
      have hnet := hgive.net k [j]
      rw [List.map_singleton] at hnet
      rw [List.count_cons] at hle
      rw [net_append, hnet, List.count_singleton]
      split_ifs at hle ⊢ <;> omega

/-! ## Nothing is held at the end -/

theorem Sound.next_release (h : L.Sound (t ++ es)) (ht : L.net k t = 1)
    (hend : L.net k (t ++ es) = 0) :
    ∃ mid e rest, es = mid ++ e :: rest ∧ L.releases e = some k ∧
      ∀ x ∈ mid, L.acquires x ≠ some k ∧ L.releases x ≠ some k := by
  induction es generalizing t with
  | nil =>
    rw [List.append_nil] at hend
    omega
  | cons x es ih =>
    by_cases hr : L.releases x = some k
    · exact ⟨[], x, es, rfl, hr, List.forall_mem_nil _⟩
    · rw [← List.singleton_append, ← List.append_assoc] at h hend
      have hx := h.left.held k (t ++ [x]) (List.prefix_refl _)
      rw [net_snoc, change, if_neg hr] at hx
      have ha : L.acquires x ≠ some k := by
        intro ha
        rw [if_pos ha] at hx
        omega
      have hnet : L.net k (t ++ [x]) = 1 := by
        rw [net_snoc, change, if_neg ha, if_neg hr, ht]
        rfl
      obtain ⟨mid, e, rest, rfl, he, hmid⟩ := ih h hnet hend
      exact ⟨x :: mid, e, rest, rfl, he, List.forall_mem_cons.mpr ⟨⟨ha, hr⟩, hmid⟩⟩

/-- Behind an acquisition comes a release before anything else is done to the resource. -/
theorem Sound.released (h : L.Sound (t ++ e :: es)) (he : L.acquires e = some k)
    (hend : L.net k (t ++ e :: es) = 0) :
    ∃ mid e' rest, es = mid ++ e' :: rest ∧ L.releases e' = some k ∧
      ∀ x ∈ mid, L.acquires x ≠ some k ∧ L.releases x ≠ some k := by
  rw [← List.singleton_append, ← List.append_assoc] at h hend
  refine h.next_release ?_ hend
  have ht := h.left.left.held k t (List.prefix_refl t)
  have hte := h.left.held k (t ++ [e]) (List.prefix_refl _)
  rw [net_snoc, change, if_pos he, if_neg (L.apart e k he)] at hte ⊢
  omega

end Ledger

end VitaConnect.Program
