import Mathlib.Data.List.Perm.Basic
import Mathlib.Data.List.ReduceOption
import Mathlib.Tactic

/-! # A mailbox of one slot

A sender fills the slot, whatever is in it. A reader copies what it finds there and delivers its copy later;
it clears the slot when it does, whatever is in it by then. A copy can also be dropped on its way.

Each message is in one place, and none in two, as long as a sender finds no message that nobody has read, a
reader finds one that nobody has read, or none, and a delivery clears none that nobody has read.
-/
namespace VitaConnect.Program
set_option autoImplicit false

universe u

structure Mailbox (ι : Type u) where
  slot : Option ι
  /-- Nobody has read the slot since it was filled. -/
  unread : Bool
  /-- What the readers hold that have not delivered. -/
  held : List (Option ι)
  delivered : List ι
  posted : List ι

namespace Mailbox
variable {ι : Type u} {m : Mailbox ι}

def empty : Mailbox ι := ⟨none, false, [], [], []⟩

def post (o : Option ι) (m : Mailbox ι) : Mailbox ι :=
  { m with slot := o, unread := true, posted := m.posted ++ o.toList }

def read (m : Mailbox ι) : Mailbox ι :=
  { m with unread := false, held := m.held ++ [m.slot] }

/-- The reader `k` is done, and its copy has been dropped or delivered. -/
def finish (k : ℕ) (dropped : Bool) (m : Mailbox ι) : Mailbox ι :=
  { m with
    slot := none
    held := m.held.eraseIdx k
    delivered := m.delivered ++ if dropped then [] else m.held[k]?.join.toList }

/-- The message that nobody has read. -/
def waiting (m : Mailbox ι) : List ι := if m.unread then m.slot.toList else []

/-- Every message that was posted is in the slot, in the hands of one reader or delivered, and no message is
in two of these places or in one of them twice. -/
def Conserved (m : Mailbox ι) : Prop :=
  m.posted.Perm (m.waiting ++ (m.held.reduceOption ++ m.delivered))

theorem empty_conserved : (empty : Mailbox ι).Conserved := List.Perm.refl _

theorem Conserved.length_eq (h : m.Conserved) :
    m.posted.length = m.waiting.length + (m.held.reduceOption.length + m.delivered.length) := by
  rw [List.Perm.length_eq h, List.length_append, List.length_append]

/-! ## What is in a place after an operation -/

@[simp] theorem waiting_post (o : Option ι) : (m.post o).waiting = o.toList := rfl

@[simp] theorem waiting_read : m.read.waiting = [] := rfl

@[simp] theorem waiting_finish (k : ℕ) (dropped : Bool) : (m.finish k dropped).waiting = [] := by
  cases h : m.unread <;> simp [waiting, finish, h]

theorem held_read : m.read.held.reduceOption = m.held.reduceOption ++ m.slot.toList := by
  rw [read, List.reduceOption_append, List.reduceOption_singleton]

theorem held_finish {k : ℕ} {o : Option ι} (hk : m.held[k]? = some o) (dropped : Bool) :
    m.held.reduceOption.Perm (o.toList ++ (m.finish k dropped).held.reduceOption) := by
  obtain ⟨hlt, rfl⟩ := List.getElem?_eq_some_iff.mp hk
  have hperm := (List.getElem_cons_eraseIdx_perm hlt).symm.filterMap id
  refine hperm.trans (List.Perm.of_eq ?_)
  cases m.held[k] <;> rfl

/-! ## When an operation keeps the messages together -/

/-- A message is put into the slot: the one that was there has been read. -/
theorem post_conserved_iff (h : m.Conserved) (o : Option ι) : (m.post o).Conserved ↔ m.waiting = [] := by
  constructor
  · intro h'
    have hbehind := h'.length_eq
    have hbefore := h.length_eq
    rw [waiting_post] at hbehind
    simp only [post, List.length_append] at hbehind
    apply List.eq_nil_of_length_eq_zero
    omega
  · intro hwaiting
    have hperm : m.posted.Perm (m.held.reduceOption ++ m.delivered) := by simpa [Conserved, hwaiting] using h
    exact (hperm.append_right o.toList).trans List.perm_append_comm

theorem read_conserved_iff (h : m.Conserved) : m.read.Conserved ↔ m.slot = none ∨ m.unread = true := by
  constructor
  · intro h'
    have hbehind := h'.length_eq
    have hbefore := h.length_eq
    simp only [waiting_read, held_read, List.length_append, List.length_nil] at hbehind
    have hlength : m.slot.toList.length = m.waiting.length := by
      have hposted : m.read.posted = m.posted := rfl
      have hdelivered : m.read.delivered = m.delivered := rfl
      rw [hposted, hdelivered] at hbehind
      omega
    by_cases hunread : m.unread = true
    · exact Or.inr hunread
    · left
      simpa [waiting, hunread] using hlength
  · intro hslot
    have hwaiting : m.waiting = m.slot.toList := by
      rcases hslot with hnone | hunread
      · simp [waiting, hnone]
      · simp [waiting, hunread]
    rw [Conserved, hwaiting] at h
    rw [Conserved, waiting_read, held_read, List.nil_append]
    refine h.trans ?_
    rw [← List.append_assoc]
    exact List.perm_append_comm.append_right _

theorem finish_conserved_iff (h : m.Conserved) {k : ℕ} {o : Option ι} (hk : m.held[k]? = some o)
    (dropped : Bool) :
    (m.finish k dropped).Conserved ↔ m.waiting = [] ∧ (dropped = true → o = none) := by
  have hheld := held_finish hk dropped
  have hdelivered : (m.finish k dropped).delivered = m.delivered ++ if dropped then [] else o.toList := by
    simp [finish, hk]
  constructor
  · intro h'
    have hbehind := h'.length_eq
    have hbefore := h.length_eq
    have hposted : (m.finish k dropped).posted = m.posted := rfl
    rw [waiting_finish, hposted, hdelivered, List.length_append, List.length_nil] at hbehind
    rw [hheld.length_eq, List.length_append] at hbefore
    have hnone : m.waiting.length = 0 ∧ (dropped = true → o.toList.length = 0) := by
      cases dropped
      · simp only [Bool.false_eq_true, if_false] at hbehind
        exact ⟨by omega, by simp⟩
      · simp only [if_true, List.length_nil] at hbehind
        exact ⟨by omega, fun _ => by omega⟩
    refine ⟨List.eq_nil_of_length_eq_zero hnone.1, fun hdropped => ?_⟩
    simpa using hnone.2 hdropped
  · rintro ⟨hwaiting, hdropped⟩
    have hthere : (if dropped = true then [] else o.toList) = o.toList := by
      split_ifs with hd
      · rw [hdropped hd]
        rfl
      · rfl
    have hperm : m.posted.Perm (m.held.reduceOption ++ m.delivered) := by simpa [Conserved, hwaiting] using h
    rw [Conserved, waiting_finish, hdelivered, hthere, List.nil_append]
    refine hperm.trans ((hheld.append_right _).trans ?_)
    rw [List.append_assoc]
    refine List.perm_append_comm.trans ?_
    rw [List.append_assoc]

end Mailbox

end VitaConnect.Program
