import Mathlib.Data.List.Basic
import Mathlib.Logic.Function.Basic
import Mathlib.Tactic

/-! # Stores that are written by appending

The values of a store are sequences. An action replaces the value of a key, extends it, drops it,
writes into it from a position on, or gives every key the value that another one had. What a key holds
behind a list of actions is decided by the last one that replaced its value and the extensions since.
-/
namespace VitaConnect.Storage
set_option autoImplicit false

universe u v
variable {κ : Type u} {α : Type v}

abbrev Values (κ : Type u) (α : Type v) := κ → Option (List α)

inductive Action (κ : Type u) (α : Type v)
  | nothing
  | replace (key : κ) (data : List α)
  | extend (key : κ) (data : List α)
  | overwrite (key : κ) (offset : ℕ) (data : List α)
  | drop (key : κ)
  | remap (source : κ → Option κ)

/-- `data` written at a position, behind `fill` where the value is too short. -/
def overwritten (fill : α) (value : List α) (offset : ℕ) (data : List α) : List α :=
  if data = [] then value
  else value.take offset ++ List.replicate (offset - value.length) fill ++ data
    ++ value.drop (offset + data.length)

section Actions
variable [DecidableEq κ] (fill : α)

def Action.apply (values : Values κ α) : Action κ α → Values κ α
  | nothing => values
  | replace key data => Function.update values key (some data)
  | extend key data => Function.update values key (some ((values key).getD [] ++ data))
  | overwrite key offset data =>
    Function.update values key (some (overwritten fill ((values key).getD []) offset data))
  | drop key => Function.update values key none
  | remap source => fun key => (source key).bind values

def applyAll (values : Values κ α) (actions : List (Action κ α)) : Values κ α :=
  actions.foldl (Action.apply fill) values

theorem applyAll_append (values : Values κ α) (p q : List (Action κ α)) :
    applyAll fill values (p ++ q) = applyAll fill (applyAll fill values p) q := List.foldl_append

/-! ## What a key holds -/

/-- The action does no more to the value of the key than extend it. -/
def Action.Extends (key : κ) : Action κ α → Prop
  | nothing | extend .. => True
  | replace other _ | overwrite other _ _ | drop other => other ≠ key
  | remap source => source key = some key

def Action.added (key : κ) : Action κ α → List α
  | extend other data => if other = key then data else []
  | _ => []

variable {fill} {key : κ}

theorem apply_extends {action : Action κ α} (h : action.Extends key) {values : Values κ α}
    {value : List α} (hvalue : values key = some value) :
    action.apply fill values key = some (value ++ action.added key) := by
  cases action with
  | nothing => simpa [Action.apply, Action.added] using hvalue
  | replace other data | overwrite other offset data | drop other =>
    simpa [Action.apply, Action.added, Function.update_of_ne (Ne.symm h)] using hvalue
  | extend other data =>
    by_cases hkey : other = key
    · subst hkey
      simp [Action.apply, Action.added, hvalue]
    · simpa [Action.apply, Action.added, hkey, Function.update_of_ne (Ne.symm hkey)] using hvalue
  | remap source =>
    have hsource : source key = some key := h
    simpa [Action.apply, Action.added, hsource] using hvalue

theorem applyAll_extends {actions : List (Action κ α)} (h : ∀ action ∈ actions, action.Extends key)
    {values : Values κ α} {value : List α} (hvalue : values key = some value) :
    applyAll fill values actions key = some (value ++ (actions.map (·.added key)).flatten) := by
  induction actions generalizing values value with
  | nil => simpa [applyAll] using hvalue
  | cons action actions ih =>
    obtain ⟨haction, hactions⟩ := List.forall_mem_cons.mp h
    have hstep : action.apply fill values key = some (value ++ action.added key) :=
      apply_extends haction hvalue
    have hrest := ih hactions hstep
    rw [List.map_cons, List.flatten_cons, ← List.append_assoc]
    exact hrest

/-- **The value of a key.** The last action that replaced it and the extensions since decide it. -/
theorem applyAll_since_replace (values : Values κ α) (before : List (Action κ α)) (data : List α)
    {after : List (Action κ α)} (h : ∀ action ∈ after, action.Extends key) :
    applyAll fill values (before ++ .replace key data :: after) key
      = some (data ++ (after.map (·.added key)).flatten) := by
  rw [applyAll_append]
  exact applyAll_extends h (Function.update_self ..)

end Actions

/-! ## Writing at a position and appending -/

theorem overwritten_length (fill : α) (value data : List α) (offset : ℕ) (h : data ≠ []) :
    (overwritten fill value offset data).length = max value.length (offset + data.length) := by
  rw [overwritten, if_neg h]
  simp only [List.length_append, List.length_take, List.length_replicate, List.length_drop]
  omega

theorem overwritten_eq_append_iff (fill : α) (value data : List α) (offset : ℕ) :
    overwritten fill value offset data = value ++ data ↔ data = [] ∨ offset = value.length := by
  by_cases hdata : data = []
  · simp [overwritten, hdata]
  · have hpos : 0 < data.length := List.length_pos_iff.mpr hdata
    constructor
    · intro h
      have hlen := congrArg List.length h
      rw [overwritten_length _ _ _ _ hdata, List.length_append] at hlen
      exact Or.inr (by omega)
    · rintro (h | rfl)
      · exact absurd h hdata
      · simp [overwritten, hdata]

end VitaConnect.Storage
