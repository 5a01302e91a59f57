import Mathlib.Data.List.Count
import Mathlib.Tactic

/-! # Terminated frames in a stream

A frame of the terminator `z` ends in `z` and has no other `z`. A stream of frames may be cut into
pieces anywhere; when each of the first pieces ends in a terminator, as many of them as there are
frames, the pieces are the frames.
-/
namespace VitaConnect.Program
set_option autoImplicit false

variable {α : Type} {z : α} {piece frame : List α} {pieces frames : List (List α)}

def IsFrame (z : α) (frame : List α) : Prop := ∃ body, frame = body ++ [z] ∧ z ∉ body

/-- A piece that ends in a terminator holds the whole of the frame that it starts with. -/
theorem IsFrame.isPrefix (h : IsFrame z frame) {rest : List α} (hpiece : piece <+: frame ++ rest)
    (hend : piece.getLast? = some z) : frame <+: piece := by
  rcases List.prefix_or_prefix_of_prefix hpiece (List.prefix_append frame rest) with hshort | hlong
  · obtain ⟨body, rfl, hbody⟩ := h
    rcases List.prefix_concat_iff.mp hshort with rfl | hinside
    · exact List.prefix_refl _
    · exact absurd (hinside.subset (List.mem_of_getLast? hend)) hbody
  · exact hlong

variable [DecidableEq α]

theorem IsFrame.count (h : IsFrame z frame) : frame.count z = 1 := by
  obtain ⟨body, rfl, hbody⟩ := h
  rw [List.count_append, List.count_eq_zero.mpr hbody, List.count_singleton_self]

theorem count_flatten_frames (h : ∀ frame ∈ frames, IsFrame z frame) :
    frames.flatten.count z = frames.length := by
  induction frames with
  | nil => rfl
  | cons frame frames ih =>
    rw [List.forall_mem_cons] at h
    rw [List.flatten_cons, List.count_append, h.1.count, ih h.2, List.length_cons, Nat.add_comm]

theorem le_count_flatten_pieces {n : ℕ} (hn : n ≤ pieces.length)
    (h : ∀ piece ∈ pieces.take n, piece.getLast? = some z) : n ≤ pieces.flatten.count z := by
  induction pieces generalizing n with
  | nil => exact hn
  | cons piece pieces ih =>
    cases n with
    | zero => exact Nat.zero_le _
    | succ n =>
      rw [List.take_succ_cons, List.forall_mem_cons] at h
      have hpiece : 0 < piece.count z := List.count_pos_iff.mpr (List.mem_of_getLast? h.1)
      have hrest := ih (Nat.le_of_succ_le_succ hn) h.2
      rw [List.flatten_cons, List.count_append]
      omega

theorem pieces_eq_frames (hframes : ∀ frame ∈ frames, IsFrame z frame)
    (hne : ∀ piece ∈ pieces, piece ≠ []) (hcut : pieces.flatten = frames.flatten)
    (hlen : frames.length ≤ pieces.length)
    (hend : ∀ piece ∈ pieces.take frames.length, piece.getLast? = some z) : pieces = frames := by
  induction frames generalizing pieces with
  | nil =>
    apply List.eq_nil_iff_forall_not_mem.mpr
    intro piece hpiece
    exact hne piece hpiece (List.flatten_eq_nil_iff.mp hcut piece hpiece)
  | cons frame frames ih =>
    cases pieces with
    | nil => cases hlen
    | cons piece pieces =>
      rw [List.forall_mem_cons] at hframes hne
      rw [List.length_cons, List.take_succ_cons, List.forall_mem_cons] at hend
      rw [List.flatten_cons, List.flatten_cons] at hcut
      have hlen' : frames.length ≤ pieces.length := Nat.le_of_succ_le_succ hlen
      have hprefix : piece <+: frame ++ frames.flatten := ⟨pieces.flatten, hcut⟩
      obtain ⟨more, rfl⟩ := hframes.1.isPrefix hprefix hend.1
      rw [List.append_assoc] at hcut
      have hrest := List.append_cancel_left hcut
      -- what the piece holds behind its first frame would be one terminator too many
      have hmore : more = [] := by
        by_contra hmore
        have hlast : more.getLast? = some z := by
          rw [← List.getLast?_append_of_ne_nil frame hmore]
          exact hend.1
        have hpos : 0 < more.count z := List.count_pos_iff.mpr (List.mem_of_getLast? hlast)
        have hmin := le_count_flatten_pieces hlen' hend.2
        have hcount := congrArg (List.count z) hrest
        rw [List.count_append, count_flatten_frames hframes.2] at hcount
        omega
      subst hmore
      rw [List.append_nil, ih hframes.2 hne.2 hrest hlen' hend.2]

end VitaConnect.Program
