import VitaConnect.CString.Memory
import VitaConnect.Files.Location

/-! # Directory and name of a path (`getBaseDirectory`, `getFilename`)

Each function answers a new block of `MAX_PATH_LENGTH` bytes or `NULL`. What `malloc` answers is a parameter:
no block, or a block with any bytes in it.
-/
namespace VitaConnect.Files
open CString
set_option autoImplicit false

/-! ## The code -/

/-- The block that `malloc(MAX_PATH_LENGTH)` answers. -/
def block (mem : ℕ → Byte) : List Byte := (List.range maxPathLength).map mem

def IsSeparator (b : Byte) : Prop := b = slash ∨ b = colon

instance (b : Byte) : Decidable (IsSeparator b) := inferInstanceAs (Decidable (_ ∨ _))

/-- `sep_ind` behind the loop that goes down from `i - 1`. -/
def sepInd (path : CStr) : ℕ → Option ℕ
  | 0 => none
  | i + 1 => if path[i]?.any (IsSeparator ·) then some i else sepInd path i

/-- `strncpy(res, src, n)` -/
def strncpyInto (res : List Byte) (src : CStr) (n : ℕ) : Option (List Byte) :=
  (strncpy n (src ++ [0])).map fun written => written ++ res.drop n

def getBaseDirectory (malloc : Option (ℕ → Byte)) (path : CStr) : Option (List Byte) :=
  let len := path.length
  if maxPathLength - 1 < len ∨ len ≤ 0 then none
  else
    match sepInd path len with
    | none => none
    | some sepInd =>
      match malloc with
      | none => none
      | some mem => (strncpyInto (block mem) path maxPathLength).map fun res => res.set (sepInd + 1) 0

def getFilename (malloc : Option (ℕ → Byte)) (path : CStr) : Option (List Byte) :=
  let len := path.length
  if maxPathLength < len ∨ len ≤ 0 then none
  else if path[len - 1]?.any (IsSeparator ·) then none
  else
    match sepInd path len with
    | none => none
    | some sepInd =>
      match malloc with
      | none => none
      | some mem =>
        let newLen := len - (sepInd + 1)
        (strncpyInto (block mem) (path.drop (sepInd + 1)) newLen).map fun res =>
          if newLen + 1 < maxPathLength then res.set newLen 0 else res.set (maxPathLength - 1) 0

/-! ## The loop -/

theorem sepInd_of_clear {path : CStr} {i j : ℕ} (hij : i ≤ j)
    (hclear : ∀ k, i ≤ k → k < j → path[k]?.any (IsSeparator ·) = false) :
    sepInd path j = sepInd path i := by
  induction j, hij using Nat.le_induction with
  | base => rfl
  | succ j hij ih =>
    rw [sepInd, hclear j hij (Nat.lt_succ_self j), if_neg Bool.false_ne_true]
    exact ih fun k hik hkj => hclear k hik (hkj.trans (Nat.lt_succ_self j))

theorem any_isSeparator_eq_false {path : CStr} {k : ℕ} (h : ∀ c, path[k]? = some c → ¬ IsSeparator c) :
    path[k]?.any (IsSeparator ·) = false := by
  cases hk : path[k]? with
  | none => rfl
  | some c =>
    rw [Option.any_some]
    exact decide_eq_false (h c hk)

theorem sepInd_eq_none {path : CStr} (h : ∀ c ∈ path, ¬ IsSeparator c) (j : ℕ) : sepInd path j = none :=
  sepInd_of_clear (Nat.zero_le j) fun _ _ _ =>
    any_isSeparator_eq_false fun c hc => h c (List.mem_of_getElem? hc)

/-- The loop finds the last separator. -/
theorem sepInd_last {base name : CStr} {b : Byte} (hb : IsSeparator b)
    (hname : ∀ c ∈ name, ¬ IsSeparator c) :
    sepInd (base ++ b :: name) (base ++ b :: name).length = some base.length := by
  have hlen : base.length + 1 ≤ (base ++ b :: name).length := by
    rw [List.length_append, List.length_cons]
    omega
  rw [sepInd_of_clear hlen, sepInd, List.getElem?_append_right (le_refl _), Nat.sub_self,
    List.getElem?_cons_zero, Option.any_some, if_pos (decide_eq_true hb)]
  intro k hk _
  refine any_isSeparator_eq_false fun c hc => hname c ?_
  rw [List.append_cons, List.getElem?_append_right (by rw [List.length_append]; exact hk)] at hc
  exact List.mem_of_getElem? hc

theorem exists_last_separator {path : CStr} (h : ∃ b ∈ path, IsSeparator b) :
    ∃ base b name, path = base ++ b :: name ∧ IsSeparator b ∧ ∀ c ∈ name, ¬ IsSeparator c := by
  induction path with
  | nil => simp at h
  | cons c path ih =>
    by_cases hrest : ∃ b ∈ path, IsSeparator b
    · obtain ⟨base, b, name, rfl, hb, hname⟩ := ih hrest
      exact ⟨c :: base, b, name, rfl, hb, hname⟩
    · obtain ⟨b, hmem, hb⟩ := h
      rcases List.mem_cons.mp hmem with rfl | hmem
      · exact ⟨[], b, path, rfl, hb, fun c hc hsep => hrest ⟨c, hc, hsep⟩⟩
      · exact absurd ⟨b, hmem, hb⟩ hrest

/-! ## The blocks -/

theorem ofBuffer_terminated {s : CStr} (hs : 0 ∉ s) (rest : List Byte) :
    ofBuffer (s ++ 0 :: rest) = some s := by
  have hne : ∀ b ∈ s, (b != 0) = true := fun b hb => bne_iff_ne.mpr fun hzero => hs (hzero ▸ hb)
  rw [ofBuffer, if_pos (by simp), List.takeWhile_append_of_pos hne, List.takeWhile_cons_of_neg (by simp),
    List.append_nil]

/-- A NUL behind the first bytes of an array cuts it to a string. -/
theorem ofBuffer_set {s : CStr} (hs : 0 ∉ s) {rest : List Byte} (hrest : rest ≠ []) :
    ofBuffer ((s ++ rest).set s.length 0) = some s := by
  cases rest with
  | nil => exact absurd rfl hrest
  | cons c rest =>
    rw [List.set_append_right _ _ (le_refl _), Nat.sub_self, List.set_cons_zero]
    exact ofBuffer_terminated hs rest

theorem block_length (mem : ℕ → Byte) : (block mem).length = maxPathLength := by
  rw [block, List.length_map, List.length_range]

section Split
variable {base name : CStr} {b : Byte} (hb : IsSeparator b) (hname : ∀ c ∈ name, ¬ IsSeparator c)
  (hstring : 0 ∉ base ++ b :: name) (hlen : (base ++ b :: name).length < maxPathLength)
  (mem : ℕ → Byte)
include hb hname hstring hlen

theorem getBaseDirectory_split :
    (getBaseDirectory (some mem) (base ++ b :: name)).bind ofBuffer = some (base ++ [b]) := by
  have hbase : 0 ∉ base ++ [b] := fun h => hstring (by
    rw [List.append_cons]
    exact List.mem_append_left name h)
  have hpos : 0 < (base ++ b :: name).length := by rw [List.length_append, List.length_cons]; omega
  have hpath : (base ++ b :: name).take maxPathLength = (base ++ [b]) ++ name := by
    rw [List.take_of_length_le hlen.le, List.append_cons]
  have hrest : name ++ List.replicate (maxPathLength - (base ++ b :: name).length) 0 ≠ [] := by
    have hzeros : maxPathLength - (base ++ b :: name).length ≠ 0 := by omega
    refine List.append_ne_nil_of_right_ne_nil _ fun h => hzeros ?_
    rwa [List.replicate_eq_nil_iff] at h
  rw [getBaseDirectory]
  dsimp only
  rw [if_neg (by omega), sepInd_last hb hname]
  dsimp only
  rw [strncpyInto, strncpy_string hstring, Option.map_some, Option.map_some, Option.bind_some, hpath,
    List.drop_of_length_le (block_length mem).le, List.append_nil, List.append_assoc,
    show base.length + 1 = (base ++ [b]).length by simp]
  exact ofBuffer_set hbase hrest

theorem getFilename_split (hne : name ≠ []) :
    (getFilename (some mem) (base ++ b :: name)).bind ofBuffer = some name := by
  have hname_string : 0 ∉ name := fun h => hstring (by simp [h])
  have hlength : (base ++ b :: name).length = base.length + 1 + name.length := by
    rw [List.length_append, List.length_cons]
    omega
  have hlast : (base ++ b :: name)[(base ++ b :: name).length - 1]?.any (IsSeparator ·) = false := by
    refine any_isSeparator_eq_false fun c hc => hname c ?_
    rw [← List.getLast?_eq_getElem?, List.getLast?_append_cons] at hc
    obtain ⟨d, rest, rfl⟩ := List.exists_cons_of_ne_nil hne
    rw [List.getLast?_cons_cons] at hc
    exact List.mem_of_getLast? hc
  have hdrop : (base ++ b :: name).drop (base.length + 1) = name := by
    rw [List.append_cons]
    exact List.drop_left' (by simp)
  have hrest : (block mem).drop name.length ≠ [] := by
    rw [← List.length_pos_iff, List.length_drop, block_length]
    omega
  rw [getFilename]
  dsimp only
  rw [if_neg (by omega), hlast, if_neg Bool.false_ne_true, sepInd_last hb hname]
  dsimp only
  rw [hdrop, hlength, Nat.add_sub_cancel_left, strncpyInto, strncpy_string hname_string, Option.map_some,
    Option.map_some, Option.bind_some, if_pos (by omega), List.take_length, Nat.sub_self,
    List.replicate_zero, List.append_nil]
  exact ofBuffer_set hname_string hrest

end Split

theorem getFilename_separator {base : CStr} {b : Byte} (hb : IsSeparator b) (malloc : Option (ℕ → Byte)) :
    getFilename malloc (base ++ [b]) = none := by
  rw [getFilename]
  dsimp only
  rw [← List.getLast?_eq_getElem?, List.getLast?_concat, Option.any_some, if_pos (decide_eq_true hb)]
  split <;> rfl

theorem split_none {path : CStr} (h : ∀ c ∈ path, ¬ IsSeparator c) (malloc : Option (ℕ → Byte)) :
    getBaseDirectory malloc path = none ∧ getFilename malloc path = none := by
  rw [getBaseDirectory, getFilename]
  dsimp only
  rw [sepInd_eq_none h]
  dsimp only
  simp only [ite_self, and_self]

/-- **The split.** The two functions cut a path behind its last separator. -/
theorem getBaseDirectory_getFilename (path : CStr) (mem mem' : ℕ → Byte) (hstring : 0 ∉ path)
    (hpos : 1 ≤ path.length) (hlen : path.length ≤ maxPathLength - 1) :
    ((∃ b ∈ path, IsSeparator b) → ¬ path.getLast?.any (IsSeparator ·) → ∃ base name,
      (getBaseDirectory (some mem) path).bind ofBuffer = some base ∧
      (getFilename (some mem') path).bind ofBuffer = some name ∧
      base.getLast?.any (IsSeparator ·) ∧ (∀ b ∈ name, ¬ IsSeparator b) ∧ base ++ name = path) ∧
    (path.getLast?.any (IsSeparator ·) →
      (getBaseDirectory (some mem) path).bind ofBuffer = some path ∧ getFilename (some mem') path = none) ∧
    ((∀ b ∈ path, ¬ IsSeparator b) →
      getBaseDirectory (some mem) path = none ∧ getFilename (some mem') path = none) := by
  have hlt : path.length < maxPathLength := by omega
  refine ⟨fun hsep hlast => ?_, fun hlast => ?_, fun hclear => ?_⟩
  · obtain ⟨base, b, name, rfl, hb, hname⟩ := exists_last_separator hsep
    have hne : name ≠ [] := by
      rintro rfl
      rw [List.getLast?_concat, Option.any_some] at hlast
      exact hlast (decide_eq_true hb)
    refine ⟨base ++ [b], name, getBaseDirectory_split hb hname hstring hlt mem,
      getFilename_split hb hname hstring hlt mem' hne, ?_, hname, (List.append_cons base b name).symm⟩
    rw [List.getLast?_concat, Option.any_some]
    exact decide_eq_true hb
  · obtain ⟨b, hb, hsep⟩ := (Option.any_eq_true _ _).mp hlast
    obtain ⟨base, rfl⟩ := List.getLast?_eq_some_iff.mp hb
    have hb' : IsSeparator b := of_decide_eq_true hsep
    have hname : ∀ c ∈ ([] : CStr), ¬ IsSeparator c := fun c hc => absurd hc List.not_mem_nil
    exact ⟨getBaseDirectory_split hb' hname hstring hlt mem, getFilename_separator hb' _⟩
  · exact ⟨(split_none hclear _).1, (split_none hclear _).2⟩

theorem getBaseDirectory_getFilename_file : ∃ base name,
    (getBaseDirectory (some fun _ => 1) (bytes "ux0:app/b")).bind ofBuffer = some base ∧
    (getFilename (some fun _ => 1) (bytes "ux0:app/b")).bind ofBuffer = some name ∧
    base.getLast?.any (IsSeparator ·) ∧ (∀ b ∈ name, ¬ IsSeparator b) ∧
      base ++ name = bytes "ux0:app/b" :=
  (getBaseDirectory_getFilename (bytes "ux0:app/b") (fun _ => 1) (fun _ => 1) (by decide) (by decide)
    (by decide)).1 ⟨slash, by decide, by decide⟩ (by decide)

end VitaConnect.Files
