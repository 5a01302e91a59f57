import VitaConnect.Program.History
import VitaConnect.Storage.DoublyLinked

/-! # The client list (`client_list_add`, `client_list_delete`)

The clients stand in memory as nodes with the pointers `next` and `prev`, and `client_list` points to
the newest one. Each of the two functions runs under `client_list_mtx`, so that a history of the list
is a sequence of calls. `listed` is what the list is for: the clients added and not yet deleted, the
newest first.
-/
namespace VitaConnect.Ftp
open Program Storage
set_option autoImplicit false

variable {Ptr : Type} [DecidableEq Ptr]

/-- The fields of `ftpvita_client_info_t` that the list works on. -/
structure Node (Ptr : Type) where
  next : Option Ptr
  prev : Option Ptr
  restorePoint : BitVec 32

structure ClientList (Ptr : Type) where
  heap : Ptr → Node Ptr
  clientList : Option Ptr
  numberClients : ℤ

namespace ClientList

def next (s : ClientList Ptr) (p : Ptr) : Option Ptr := (s.heap p).next

def prev (s : ClientList Ptr) (p : Ptr) : Option Ptr := (s.heap p).prev

def setNext (s : ClientList Ptr) (p : Ptr) (q : Option Ptr) : ClientList Ptr :=
  { s with heap := Function.update s.heap p { s.heap p with next := q } }

def setPrev (s : ClientList Ptr) (p : Ptr) (q : Option Ptr) : ClientList Ptr :=
  { s with heap := Function.update s.heap p { s.heap p with prev := q } }

def setRestorePoint (s : ClientList Ptr) (p : Ptr) (n : BitVec 32) : ClientList Ptr :=
  { s with heap := Function.update s.heap p { s.heap p with restorePoint := n } }

def setClientList (s : ClientList Ptr) (p : Option Ptr) : ClientList Ptr := { s with clientList := p }

def addClients (s : ClientList Ptr) (n : ℤ) : ClientList Ptr :=
  { s with numberClients := s.numberClients + n }

end ClientList

def clientListAdd (client : Ptr) (s : ClientList Ptr) : ClientList Ptr :=
  let s :=
    match s.clientList with
    | none => ((s.setClientList (some client)).setPrev client none).setNext client none
    | some first =>
      (((s.setNext client (some first)).setPrev first (some client)).setPrev client none).setClientList
        (some client)
  (s.setRestorePoint client 0).addClients 1

/-- `if (client->prev) client->prev->next = client->next;` -/
def unlinkPrev (client : Ptr) (s : ClientList Ptr) : ClientList Ptr :=
  match s.prev client with
  | none => s
  | some p => s.setNext p (s.next client)

/-- `if (client->next) client->next->prev = client->prev;` -/
def unlinkNext (client : Ptr) (s : ClientList Ptr) : ClientList Ptr :=
  match s.next client with
  | none => s
  | some n => s.setPrev n (s.prev client)

/-- `if (client == client_list) client_list = client->next;` -/
def unlinkHead (client : Ptr) (s : ClientList Ptr) : ClientList Ptr :=
  if s.clientList = some client then s.setClientList (s.next client) else s

def clientListDelete (client : Ptr) (s : ClientList Ptr) : ClientList Ptr :=
  (unlinkHead client (unlinkNext client (unlinkPrev client s))).addClients (-1)

inductive ListCall (Ptr : Type)
  | add (client : Ptr)
  | delete (client : Ptr)

def ClientList.call (s : ClientList Ptr) : ListCall Ptr → ClientList Ptr
  | .add client => clientListAdd client s
  | .delete client => clientListDelete client s

def ClientList.empty (heap : Ptr → Node Ptr) : ClientList Ptr where
  heap := heap
  clientList := none
  numberClients := 0

/-! ## The list that the calls stand for -/

def listed (l : List Ptr) : ListCall Ptr → List Ptr
  | .add client => client :: l
  | .delete client => l.erase client

/-- A client is added when it is not in the list, and deleted when it is. -/
def ListCall.Allowed (l : List Ptr) : ListCall Ptr → Prop
  | .add client => client ∉ l
  | .delete client => client ∈ l

/-! ## What the pointers are behind a call -/

namespace ClientList
variable (s : ClientList Ptr) (p : Ptr) (q : Option Ptr) (n : BitVec 32) (k : ℤ)

@[simp] theorem setNext_next : (s.setNext p q).next = Function.update s.next p q := by
  funext r
  by_cases hr : r = p
  · subst hr
    simp [setNext, next]
  · simp [setNext, next, hr]

@[simp] theorem setNext_prev : (s.setNext p q).prev = s.prev := by
  funext r
  by_cases hr : r = p
  · subst hr
    simp [setNext, prev]
  · simp [setNext, prev, hr]

@[simp] theorem setPrev_next : (s.setPrev p q).next = s.next := by
  funext r
  by_cases hr : r = p
  · subst hr
    simp [setPrev, next]
  · simp [setPrev, next, hr]

@[simp] theorem setPrev_prev : (s.setPrev p q).prev = Function.update s.prev p q := by
  funext r
  by_cases hr : r = p
  · subst hr
    simp [setPrev, prev]
  · simp [setPrev, prev, hr]

@[simp] theorem setRestorePoint_next : (s.setRestorePoint p n).next = s.next := by
  funext r
  by_cases hr : r = p
  · subst hr
    simp [setRestorePoint, next]
  · simp [setRestorePoint, next, hr]

@[simp] theorem setRestorePoint_prev : (s.setRestorePoint p n).prev = s.prev := by
  funext r
  by_cases hr : r = p
  · subst hr
    simp [setRestorePoint, prev]
  · simp [setRestorePoint, prev, hr]

@[simp] theorem setNext_clientList : (s.setNext p q).clientList = s.clientList := rfl
@[simp] theorem setPrev_clientList : (s.setPrev p q).clientList = s.clientList := rfl
@[simp] theorem setRestorePoint_clientList :
    (s.setRestorePoint p n).clientList = s.clientList := rfl
@[simp] theorem setNext_numberClients : (s.setNext p q).numberClients = s.numberClients := rfl
@[simp] theorem setPrev_numberClients : (s.setPrev p q).numberClients = s.numberClients := rfl
@[simp] theorem setRestorePoint_numberClients :
    (s.setRestorePoint p n).numberClients = s.numberClients := rfl

omit [DecidableEq Ptr] in
@[simp] theorem setClientList_next : (s.setClientList q).next = s.next := rfl

omit [DecidableEq Ptr] in
@[simp] theorem setClientList_prev : (s.setClientList q).prev = s.prev := rfl

omit [DecidableEq Ptr] in
@[simp] theorem setClientList_clientList : (s.setClientList q).clientList = q := rfl

omit [DecidableEq Ptr] in
@[simp] theorem setClientList_numberClients :
    (s.setClientList q).numberClients = s.numberClients := rfl

omit [DecidableEq Ptr] in
@[simp] theorem addClients_next : (s.addClients k).next = s.next := rfl

omit [DecidableEq Ptr] in
@[simp] theorem addClients_prev : (s.addClients k).prev = s.prev := rfl

omit [DecidableEq Ptr] in
@[simp] theorem addClients_clientList : (s.addClients k).clientList = s.clientList := rfl

omit [DecidableEq Ptr] in
@[simp] theorem addClients_numberClients :
    (s.addClients k).numberClients = s.numberClients + k := rfl

end ClientList

/-! ## The calls keep the list linked -/

/-- The pointers of `s` hold the list `l`. -/
structure ClientList.Holds (s : ClientList Ptr) (l : List Ptr) : Prop where
  linked : DoublyLinked s.next s.prev s.clientList l
  count : s.numberClients = l.length

section Calls
variable {client : Ptr} {s : ClientList Ptr} {l : List Ptr}

theorem ClientList.Holds.add (h : s.Holds l) (hc : client ∉ l) :
    (clientListAdd client s).Holds (client :: l) := by
  have hpush := h.linked.push hc
  have hcount := h.count
  unfold clientListAdd
  cases hlist : s.clientList with
  | none =>
    rw [hlist] at hpush
    constructor
    · simpa using hpush
    · simp [hcount]
  | some first =>
    rw [hlist] at hpush
    constructor
    · simpa using hpush
    · simp [hcount]

theorem unlinkPrev_fields (client : Ptr) (s : ClientList Ptr) :
    (unlinkPrev client s).next = relink s.next (s.prev client) (s.next client) ∧
      (unlinkPrev client s).prev = s.prev ∧ (unlinkPrev client s).clientList = s.clientList ∧
      (unlinkPrev client s).numberClients = s.numberClients := by
  unfold unlinkPrev
  cases s.prev client <;> simp

theorem unlinkNext_fields (client : Ptr) (s : ClientList Ptr) :
    (unlinkNext client s).next = s.next ∧
      (unlinkNext client s).prev = relink s.prev (s.next client) (s.prev client) ∧
      (unlinkNext client s).clientList = s.clientList ∧
      (unlinkNext client s).numberClients = s.numberClients := by
  unfold unlinkNext
  cases s.next client <;> simp

theorem unlinkHead_fields (client : Ptr) (s : ClientList Ptr) :
    (unlinkHead client s).next = s.next ∧ (unlinkHead client s).prev = s.prev ∧
      (unlinkHead client s).clientList
        = (if s.clientList = some client then s.next client else s.clientList) ∧
      (unlinkHead client s).numberClients = s.numberClients := by
  unfold unlinkHead
  split <;> simp

theorem ClientList.Holds.delete (h : s.Holds l) (hc : client ∈ l) :
    (clientListDelete client s).Holds (l.erase client) := by
  obtain ⟨xs, ys, rfl⟩ := List.append_of_mem hc
  have hxs : client ∉ xs := fun hmem =>
    (List.nodup_append.mp h.linked.nodup).2.2 client hmem client List.mem_cons_self rfl
  have hlinked := h.linked.unlink
  have hcount := h.count
  obtain ⟨hnext₁, hprev₁, hlist₁, hnumber₁⟩ := unlinkPrev_fields client s
  obtain ⟨hnext₂, hprev₂, hlist₂, hnumber₂⟩ := unlinkNext_fields client (unlinkPrev client s)
  obtain ⟨hnext₃, hprev₃, hlist₃, hnumber₃⟩ :=
    unlinkHead_fields client (unlinkNext client (unlinkPrev client s))
  rw [List.erase_append_right _ hxs, List.erase_cons_head, clientListDelete]
  constructor
  · rw [addClients_next, addClients_prev, addClients_clientList, hnext₃, hprev₃, hlist₃, hnext₂,
      hprev₂, hlist₂, hnext₁, hprev₁, hlist₁, relink_self]
    exact hlinked
  · rw [addClients_numberClients, hnumber₃, hnumber₂, hnumber₁, hcount]
    simp only [List.length_append, List.length_cons]
    omega

theorem ClientList.Holds.call (h : s.Holds l) {call : ListCall Ptr} (hcall : call.Allowed l) :
    (s.call call).Holds (listed l call) := by
  cases call with
  | add client => exact h.add hcall
  | delete client => exact h.delete hcall

end Calls

/-! ## Histories -/

/-- Each call of the history is allowed at the list that the calls before it have left. -/
def AllowedHistory : List Ptr → List (ListCall Ptr) → Prop
  | _, [] => True
  | l, call :: calls => call.Allowed l ∧ AllowedHistory (listed l call) calls

theorem ClientList.Holds.replay {s : ClientList Ptr} {l : List Ptr} (h : s.Holds l)
    (calls : List (ListCall Ptr)) (hcalls : AllowedHistory l calls) :
    (replay ClientList.call s calls).Holds (Program.replay listed l calls) := by
  induction calls generalizing s l with
  | nil => exact h
  | cons call calls ih => exact ih (h.call hcalls.1) hcalls.2

/-- **What the client list holds**: behind every history that starts with the empty list, `next` leads
from `client_list` through the clients added and not deleted since, the newest first, to NULL; `prev`
leads back; and `number_clients` counts them. -/
theorem clientList_holds (heap : Ptr → Node Ptr) (calls : List (ListCall Ptr))
    (hcalls : AllowedHistory [] calls) :
    let s := replay ClientList.call (ClientList.empty heap) calls
    let clients := replay listed [] calls
    clients.Nodup ∧ Walk s.next s.clientList clients none ∧
      (∀ c ∈ clients, ∀ d ∈ clients, s.next c = some d ↔ s.prev d = some c) ∧
      (∀ c, s.clientList = some c → s.prev c = none) ∧ s.numberClients = clients.length := by
  have hempty : (ClientList.empty heap).Holds [] := ⟨DoublyLinked.nil, rfl⟩
  have hend := hempty.replay calls hcalls
  exact ⟨hend.linked.nodup, hend.linked.forward, fun c hc d hd => hend.linked.next_iff_prev hc hd,
    fun c hc => hend.linked.prev_head hc, hend.count⟩

theorem clientList_holds_middle :
    let s := replay ClientList.call (ClientList.empty fun _ : ℕ => ⟨some 7, some 7, 5⟩)
      [.add 1, .add 2, .add 3, .delete 2]
    Walk s.next s.clientList [3, 1] none ∧ s.numberClients = 2 := by
  have hcalls : AllowedHistory [] [.add 1, .add 2, .add 3, .delete 2] := by
    refine ⟨?_, ?_, ?_, ?_, trivial⟩ <;> simp [ListCall.Allowed, listed]
  obtain ⟨-, hwalk, -, -, hcount⟩ := clientList_holds (fun _ : ℕ => ⟨some 7, some 7, 5⟩) _ hcalls
  exact ⟨hwalk, hcount⟩

end VitaConnect.Ftp
