import Mathlib.Data.List.Basic
import Mathlib.Tactic

/-! # A fold over blocks

`overBlocks f n s xs` folds `f` over the whole blocks of `n` items of `xs`. An `Absorber` reads its items one
by one, folds `f` over each block as soon as it is complete and keeps the items behind the last complete
block. However the items are handed over, it holds what has been read: what is read is a whole number of
blocks, which is in the state, and fewer than `n` items.
-/
namespace VitaConnect.Program
set_option autoImplicit false

universe u v w
variable {σ : Type u} {α : Type v}

/-! ## Blocks -/

def blockAt (n : ℕ) (xs : List α) (i : ℕ) : List α := (xs.drop (n * i)).take n

def overBlocks (f : σ → List α → σ) (n : ℕ) (s : σ) (xs : List α) : σ :=
  (List.range (xs.length / n)).foldl (fun s i => f s (blockAt n xs i)) s

section Blocks
variable {f : σ → List α → σ} {n : ℕ}

theorem blockAt_append_left {xs : List α} {i : ℕ} (ys : List α) (h : n * (i + 1) ≤ xs.length) :
    blockAt n (xs ++ ys) i = blockAt n xs i := by
  have hi : n * i + n ≤ xs.length := by rwa [Nat.mul_succ] at h
  rw [blockAt, blockAt, List.drop_append_of_le_length (by omega), List.take_append_of_le_length]
  rw [List.length_drop]
  omega

theorem blockAt_append_right {xs : List α} {k : ℕ} (ys : List α) (i : ℕ) (h : xs.length = n * k) :
    blockAt n (xs ++ ys) (k + i) = blockAt n ys i := by
  rw [blockAt, blockAt, Nat.mul_add, ← h, ← List.drop_drop, List.drop_left]

theorem foldl_range_congr {g h : σ → ℕ → σ} {k : ℕ} (s : σ) (hgh : ∀ i < k, ∀ s, g s i = h s i) :
    (List.range k).foldl g s = (List.range k).foldl h s :=
  List.foldl_ext _ _ _ fun s i hi => hgh i (List.mem_range.mp hi) s

theorem overBlocks_append (hn : 0 < n) (s : σ) {xs : List α} (ys : List α) (h : n ∣ xs.length) :
    overBlocks f n s (xs ++ ys) = overBlocks f n (overBlocks f n s xs) ys := by
  obtain ⟨k, hk⟩ := h
  have hxs : xs.length / n = k := by rw [hk, Nat.mul_div_cancel_left k hn]
  have hall : (xs ++ ys).length / n = k + ys.length / n := by
    rw [List.length_append, hk, Nat.mul_add_div hn]
  rw [overBlocks, hall, List.range_add, List.foldl_append, List.foldl_map]
  have hleft : (List.range k).foldl (fun s i => f s (blockAt n (xs ++ ys) i)) s
      = overBlocks f n s xs := by
    rw [overBlocks, hxs]
    refine foldl_range_congr s fun i hi s => ?_
    rw [blockAt_append_left ys (by rw [hk]; exact Nat.mul_le_mul_left n hi)]
  rw [hleft, overBlocks]
  exact foldl_range_congr _ fun i _ s => by rw [blockAt_append_right ys i hk]

theorem overBlocks_of_short (s : σ) {xs : List α} (h : xs.length < n) : overBlocks f n s xs = s := by
  rw [overBlocks, Nat.div_eq_of_lt h]
  rfl

theorem overBlocks_block (s : σ) {xs : List α} (hn : 0 < n) (h : xs.length = n) :
    overBlocks f n s xs = f s xs := by
  rw [overBlocks, h, Nat.div_self hn]
  show f s (blockAt n xs 0) = f s xs
  rw [blockAt, Nat.mul_zero, List.drop_zero, List.take_of_length_le h.le]

theorem blockAt_length {xs : List α} {i : ℕ} (h : i < xs.length / n) : (blockAt n xs i).length = n := by
  have hle : n * (i + 1) ≤ xs.length := (Nat.mul_le_mul_left n h).trans (Nat.mul_div_le xs.length n)
  rw [Nat.mul_succ] at hle
  rw [blockAt, List.length_take_of_le]
  rw [List.length_drop]
  omega

/-- `f` does to what stands for a state what `g` does to the state. -/
theorem overBlocks_map {τ : Type w} {r : τ → σ} {g : τ → List α → τ}
    (h : ∀ s block, block.length = n → f (r s) block = r (g s block)) (s : τ) (xs : List α) :
    overBlocks f n (r s) xs = r (overBlocks g n s xs) := by
  have hlen : ∀ i ∈ List.range (xs.length / n), (blockAt n xs i).length = n := fun i hi =>
    blockAt_length (List.mem_range.mp hi)
  rw [overBlocks, overBlocks]
  generalize List.range (xs.length / n) = is at hlen
  induction is generalizing s with
  | nil => rfl
  | cons i is ih =>
    rw [List.foldl_cons, List.foldl_cons, h s _ (hlen i List.mem_cons_self)]
    exact ih (g s _) fun j hj => hlen j (List.mem_cons_of_mem i hj)

end Blocks

/-! ## Reading item by item -/

structure Absorber (σ : Type u) (α : Type v) where
  state : σ
  pending : List α

def Absorber.push (f : σ → List α → σ) (n : ℕ) (b : Absorber σ α) (x : α) : Absorber σ α :=
  if (b.pending ++ [x]).length < n then ⟨b.state, b.pending ++ [x]⟩ else ⟨f b.state (b.pending ++ [x]), []⟩

/-- What has been read is `whole`, which the state has, and what is pending. -/
structure Absorber.Holds (f : σ → List α → σ) (n : ℕ) (s : σ) (b : Absorber σ α) (whole msg : List α) :
    Prop where
  msg_eq : msg = whole ++ b.pending
  blocks : n ∣ whole.length
  short : b.pending.length < n
  state_eq : b.state = overBlocks f n s whole

section Reading
variable {f : σ → List α → σ} {n : ℕ} {s : σ} {b : Absorber σ α} {whole msg : List α}

theorem Absorber.holds_nil (hn : 0 < n) (s : σ) : Holds f n s ⟨s, []⟩ [] [] where
  msg_eq := rfl
  blocks := dvd_zero n
  short := hn
  state_eq := (overBlocks_of_short s hn).symm

/-- One item: it is pending, or it completes a block. -/
theorem Absorber.Holds.push (hn : 0 < n) (h : Holds f n s b whole msg) (x : α) :
    Holds f n s (b.push f n x)
      (if (b.pending ++ [x]).length < n then whole else whole ++ (b.pending ++ [x])) (msg ++ [x]) := by
  have hmsg : msg ++ [x] = whole ++ (b.pending ++ [x]) := by rw [h.msg_eq, List.append_assoc]
  unfold Absorber.push
  split_ifs with hlt
  · exact ⟨hmsg, h.blocks, hlt, h.state_eq⟩
  · have hlen : (b.pending ++ [x]).length = n := by
      have := h.short
      rw [List.length_append, List.length_singleton] at hlt ⊢
      omega
    refine ⟨by rw [hmsg, List.append_nil], ?_, hn, ?_⟩
    · rw [List.length_append, hlen]
      exact dvd_add h.blocks dvd_rfl
    · show f b.state (b.pending ++ [x]) = _
      rw [overBlocks_append hn s _ h.blocks, ← h.state_eq, overBlocks_block _ hn hlen]

/-- What is read behind the message is folded behind what is pending. -/
theorem Absorber.Holds.finish (hn : 0 < n) (h : Holds f n s b whole msg) (rest : List α) :
    overBlocks f n s (msg ++ rest) = overBlocks f n b.state (b.pending ++ rest) := by
  rw [h.msg_eq, List.append_assoc, overBlocks_append hn s _ h.blocks, ← h.state_eq]

theorem Absorber.Holds.length_eq (h : Holds f n s b whole msg) :
    msg.length = whole.length + b.pending.length := by
  rw [h.msg_eq, List.length_append]

theorem Absorber.Holds.pending_length (h : Holds f n s b whole msg) :
    b.pending.length = msg.length % n := by
  obtain ⟨k, hk⟩ := h.blocks
  rw [h.length_eq, hk, Nat.mul_add_mod, Nat.mod_eq_of_lt h.short]

end Reading

/-! ## Filling an array in order

Each entry is computed from the entries before it.
-/

def fillFrom (next : List α → ℕ → α) (i k : ℕ) (m : List α) : List α :=
  (List.range' i k).foldl (fun m t => m.set t (next m t)) m

/-- `m` has the first `i` entries of `w`. -/
def FilledTo (w : ℕ → α) (i : ℕ) (m : List α) : Prop := ∀ t < i, m[t]? = some (w t)

theorem FilledTo.getD {w : ℕ → α} {i t : ℕ} {m : List α} (h : FilledTo w i m) (ht : t < i) (a : α) :
    m.getD t a = w t := by
  rw [List.getD_eq_getElem?_getD, h t ht]
  rfl

theorem FilledTo.set {w : ℕ → α} {i : ℕ} {m : List α} (h : FilledTo w i m) (hi : i < m.length) :
    FilledTo w (i + 1) (m.set i (w i)) := by
  intro t ht
  rcases Nat.lt_succ_iff_lt_or_eq.mp ht with hlt | rfl
  · rw [List.getElem?_set_ne hlt.ne', h t hlt]
  · rw [List.getElem?_set_self hi]

theorem fillFrom_filled {next : List α → ℕ → α} {w : ℕ → α} {i k : ℕ} {m : List α}
    (hlen : i + k ≤ m.length) (h : FilledTo w i m)
    (hnext : ∀ m t, i ≤ t → t < i + k → FilledTo w t m → next m t = w t) :
    FilledTo w (i + k) (fillFrom next i k m) ∧ (fillFrom next i k m).length = m.length := by
  induction k generalizing i m with
  | zero => exact ⟨h, rfl⟩
  | succ k ih =>
    have hhere : next m i = w i := hnext m i le_rfl (by omega) h
    have hstep := ih (i := i + 1) (m := m.set i (next m i)) (by rw [List.length_set]; omega)
      (by rw [hhere]; exact h.set (by omega)) fun m' t hi ht => hnext m' t (by omega) (by omega)
    rw [List.length_set, Nat.add_right_comm] at hstep
    exact hstep

/-! ## Stores at several places -/

/-- Stores that agree with `w` leave `w` at their places, and all else as it was. -/
theorem getElem?_foldl_set {ι : Type} {f : ι → ℕ} {g : ι → α} {w : ℕ → α} {is : List ι} {m : List α}
    (hg : ∀ i ∈ is, g i = w (f i)) (hf : ∀ i ∈ is, f i < m.length) (p : ℕ) :
    (is.foldl (fun m i => m.set (f i) (g i)) m)[p]?
      = if p ∈ is.map f then some (w p) else m[p]? := by
  induction is generalizing m with
  | nil => rfl
  | cons i is ih =>
    have hrest := ih (m := m.set (f i) (g i)) (fun j hj => hg j (List.mem_cons_of_mem i hj))
      fun j hj => by
        rw [List.length_set]
        exact hf j (List.mem_cons_of_mem i hj)
    rw [List.foldl_cons, hrest, List.map_cons]
    by_cases htail : p ∈ is.map f
    · rw [if_pos htail, if_pos (List.mem_cons_of_mem _ htail)]
    · rw [if_neg htail]
      by_cases hp : p = f i
      · subst hp
        rw [if_pos List.mem_cons_self, List.getElem?_set_self (hf i List.mem_cons_self),
          hg i List.mem_cons_self]
      · rw [if_neg (fun h => (List.mem_cons.mp h).elim hp htail), List.getElem?_set_ne (Ne.symm hp)]

end VitaConnect.Program
