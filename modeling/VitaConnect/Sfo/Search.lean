import VitaConnect.Sfo.Buffer

/-! # The search of a param.sfo

`Keyed` is a buffer whose keys can be read: what is there is found, what is not is not.
`search_inside_iff` says for any buffer when the search, and what is done with the entry it finds, stay
inside.
-/
namespace VitaConnect.Sfo
open CString
set_option autoImplicit false

variable {buffer : List Byte} {name : CStr}

theorem search_succ (left i : ℕ) :
    search buffer name (left + 1) i = match sameName buffer name i with
      | none => none
      | some true => some (some i)
      | some false => search buffer name left (i + 1) := by
  rw [search]
  cases sameName buffer name i with
  | none => rfl
  | some same => cases same <;> rfl

theorem search_eq_find? {same : ℕ → Bool} {left i : ℕ}
    (h : ∀ k, i ≤ k → k < i + left → sameName buffer name k = some (same k)) :
    search buffer name left i = some ((List.range' i left).find? same) := by
  induction left generalizing i with
  | zero => rfl
  | succ left ih =>
    rw [search_succ, h i le_rfl (by omega), List.range'_succ, List.find?_cons]
    cases same i with
    | true => rfl
    | false => exact ih fun k hk hlt => h k (by omega) (by omega)

/-! ## Keys -/

/-- The keys of the buffer are `names`. -/
structure Keyed (names : List CStr) (buffer : List Byte) : Prop where
  count : count? buffer = some names.length
  same : ∀ i key, names[i]? = some key → ∀ name, 0 ∉ name → sameName buffer name i = some (decide (key = name))

section Keyed
variable {names : List CStr} {i : ℕ}

theorem Keyed.search (h : Keyed names buffer) (hname : 0 ∉ name) :
    search buffer name names.length 0
      = some ((List.range' 0 names.length).find? fun k =>
          (names[k]?.map fun key => decide (key = name)).getD false) := by
  refine search_eq_find? fun k _ hk => ?_
  have hkey : names[k]? = some names[k] := List.getElem?_eq_getElem (by omega)
  rw [h.same k _ hkey name hname, hkey]
  rfl

theorem Keyed.search_present (h : Keyed names buffer) (hnames : names.Nodup) (hname : 0 ∉ name)
    (hi : names[i]? = some name) : Sfo.search buffer name names.length 0 = some (some i) := by
  obtain ⟨hlt, hget⟩ := List.getElem?_eq_some_iff.mp hi
  rw [h.search hname]
  refine congrArg some (List.find?_range'_eq_some.mpr ⟨by simp [hi], by simpa using hlt, fun j _ hj => ?_⟩)
  have hj' : j < names.length := by omega
  have hne : names[j] ≠ name := by
    have hpair := List.pairwise_iff_getElem.mp hnames j i hj' hlt hj
    simpa [hget] using hpair
  simp [List.getElem?_eq_getElem hj', hne]

theorem Keyed.search_absent (h : Keyed names buffer) (hname : 0 ∉ name) (habsent : name ∉ names) :
    Sfo.search buffer name names.length 0 = some none := by
  rw [h.search hname]
  refine congrArg some (List.find?_eq_none.mpr fun k hk => ?_)
  have hk' : k < names.length := by simpa using hk
  have hne : names[k] ≠ name := fun heq => habsent (heq ▸ List.getElem_mem hk')
  simp [List.getElem?_eq_getElem hk', hne]

variable {α : Type} {out : α} {found : ℕ → Option α}

/-- A key that is there is found. -/
theorem Keyed.getSfo_present (h : Keyed names buffer) (hmagic : magic? buffer = some sfoMagic)
    (hnames : names.Nodup) (hname : 0 ∉ name) (hi : names[i]? = some name) :
    getSfo buffer name out found = (found i).map fun out => (0, out) := by
  simp only [getSfo, hmagic, h.count, h.search_present hnames hname hi, Option.bind_eq_bind, Option.bind_some,
    ne_eq, not_true_eq_false, if_false]
  cases found i <;> rfl

theorem Keyed.getSfo_absent (h : Keyed names buffer) (hmagic : magic? buffer = some sfoMagic)
    (hname : 0 ∉ name) (habsent : name ∉ names) : getSfo buffer name out found = some (notFound, out) := by
  simp [getSfo, hmagic, h.count, h.search_absent hname habsent]

end Keyed

/-! ## Staying inside the buffer -/

/-- The comparison with the `i`-th key reads nothing behind the end. -/
def EntryInside (buffer : List Byte) (name : CStr) (i : ℕ) : Prop :=
  ∃ keyofs nameofs, keyofs? buffer = some keyofs ∧ nameofs? buffer i = some nameofs ∧
    ¬ behind buffer keyofs nameofs <+: name

/-- The `i`-th key is `name`. -/
def Matches (buffer : List Byte) (name : CStr) (i : ℕ) : Prop :=
  ∃ keyofs nameofs, keyofs? buffer = some keyofs ∧ nameofs? buffer i = some nameofs ∧
    name ++ [0] <+: behind buffer keyofs nameofs

theorem sameName_eq_none_iff (i : ℕ) : sameName buffer name i = none ↔ ¬ EntryInside buffer name i := by
  unfold sameName EntryInside
  cases keyofs? buffer with
  | none => simp
  | some keyofs =>
    cases nameofs? buffer i with
    | none => simp
    | some nameofs => simp [strcmp_eq_none_iff]

theorem sameName_eq_true_iff (i : ℕ) : sameName buffer name i = some true ↔ Matches buffer name i := by
  unfold sameName Matches
  cases keyofs? buffer with
  | none => simp
  | some keyofs =>
    cases nameofs? buffer i with
    | none => simp
    | some nameofs => simp [strcmp_eq_true_iff]

theorem search_found {left i k : ℕ} (h : search buffer name left i = some (some k)) :
    k < i + left ∧ Matches buffer name k := by
  induction left generalizing i with
  | zero => cases h
  | succ left ih =>
    rw [search_succ] at h
    cases hsame : sameName buffer name i with
    | none =>
      rw [hsame] at h
      cases h
    | some same =>
      rw [hsame] at h
      cases same with
      | true =>
        obtain rfl : i = k := Option.some.inj (Option.some.inj h)
        exact ⟨by omega, (sameName_eq_true_iff i).mp hsame⟩
      | false =>
        obtain ⟨hlt, hmatches⟩ := ih h
        exact ⟨by omega, hmatches⟩

/-- The buffer has the magic of a param.sfo and an entry with the name. -/
def HasEntry (buffer : List Byte) (name : CStr) : Prop :=
  magic? buffer = some sfoMagic ∧ ∃ count i, count? buffer = some count ∧ i < count ∧ Matches buffer name i

/-- Without an entry with the name the output is as it was before the call. -/
theorem getSfo_unset {α : Type} {out out' : α} {found : ℕ → Option α} {res : ℤ}
    (hentry : ¬ HasEntry buffer name) (h : getSfo buffer name out found = some (res, out')) : out' = out := by
  unfold getSfo at h
  cases hmagic : magic? buffer with
  | none =>
    rw [hmagic] at h
    cases h
  | some magic =>
    rw [hmagic] at h
    dsimp only [Option.bind_eq_bind, Option.bind_some] at h
    by_cases hsfo : magic = sfoMagic
    · rw [if_neg (not_not.mpr hsfo)] at h
      cases hcount : count? buffer with
      | none =>
        rw [hcount] at h
        cases h
      | some count =>
        rw [hcount, Option.bind_some] at h
        cases hsearch : search buffer name count 0 with
        | none =>
          rw [hsearch] at h
          cases h
        | some entry =>
          rw [hsearch, Option.bind_some] at h
          cases entry with
          | none => exact (Prod.mk.inj (Option.some.inj h)).2.symm
          | some i =>
            obtain ⟨hlt, hmatches⟩ := search_found hsearch
            rw [hsfo] at hmagic
            exact absurd ⟨hmagic, count, i, hcount, by omega, hmatches⟩ hentry
    · rw [if_pos hsfo] at h
      exact (Prod.mk.inj (Option.some.inj h)).2.symm

/-- The search is done only with entries that are inside, and finds only one that is `Good`. -/
theorem search_inside_iff (buffer : List Byte) (name : CStr) (Good : ℕ → Prop) (left i : ℕ) :
    (∃ r, search buffer name left i = some r ∧ ∀ k ∈ r, Good k) ↔
      ∀ k, i ≤ k → k < i + left → (∀ j, i ≤ j → j < k → ¬ Matches buffer name j) →
        EntryInside buffer name k ∧ (Matches buffer name k → Good k) := by
  induction left generalizing i with
  | zero => exact iff_of_true ⟨none, rfl, nofun⟩ fun k hk hlt => absurd hlt (by omega)
  | succ left ih =>
    rw [search_succ]
    cases hsame : sameName buffer name i with
    | none =>
      have houtside := (sameName_eq_none_iff i).mp hsame
      refine iff_of_false nofun fun h => houtside (h i le_rfl (by omega) fun j hj hlt => ?_).1
      omega
    | some same =>
      have hinside : EntryInside buffer name i := by
        by_contra houtside
        rw [(sameName_eq_none_iff i).mpr houtside] at hsame
        cases hsame
      cases same with
      | true =>
        have hmatches := (sameName_eq_true_iff i).mp hsame
        constructor
        · rintro ⟨r, hr, hgood⟩ k hk hlt hbefore
          obtain rfl := Option.some.inj hr
          obtain rfl : k = i := by
            by_contra hne
            exact hbefore i le_rfl (by omega) hmatches
          exact ⟨hinside, fun _ => hgood k rfl⟩
        · intro h
          refine ⟨some i, rfl, fun k hk => ?_⟩
          obtain rfl : i = k := Option.some.inj hk
          exact (h i le_rfl (by omega) fun j hj hlt => by omega).2 hmatches
      | false =>
        have hdiffers : ¬ Matches buffer name i := by
          rw [← sameName_eq_true_iff, hsame]
          simp
        rw [ih]
        constructor
        · intro h k hk hlt hbefore
          rcases hk.eq_or_lt with rfl | hk
          · exact ⟨hinside, fun hmatches => absurd hmatches hdiffers⟩
          · exact h k hk (by omega) fun j hj hlt' => hbefore j (by omega) hlt'
        · intro h k hk hlt hbefore
          refine h k (by omega) (by omega) fun j hj hlt' => ?_
          rcases hj.eq_or_lt with rfl | hj
          · exact hdiffers
          · exact hbefore j hj hlt'

end VitaConnect.Sfo
