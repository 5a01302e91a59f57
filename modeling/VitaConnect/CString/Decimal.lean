import VitaConnect.CString.Scan
import VitaConnect.CString.Format

/-! # Decimal numbers that are printed and read back

`%d` reads what `%u` printed, as far as the digits go, and a list of numbers with commas between
them is read number by number.
-/
namespace VitaConnect.CString
set_option autoImplicit false

/-- The numbers with `sep` between them. -/
def joined (sep : Byte) (ns : List ℕ) : CStr := [sep].intercalate (ns.map natDec)

theorem joined_singleton (sep : Byte) (n : ℕ) : joined sep [n] = natDec n := by
  simp [joined, List.intercalate]

theorem joined_cons_cons (sep : Byte) (n m : ℕ) (ns : List ℕ) :
    joined sep (n :: m :: ns) = natDec n ++ sep :: joined sep (m :: ns) := by
  simp [joined, List.intercalate]

theorem mem_joined {sep b : Byte} {ns : List ℕ} (h : b ∈ joined sep ns) :
    b = sep ∨ (48 ≤ b ∧ b ≤ 57) := by
  induction ns with
  | nil => simp [joined, List.intercalate] at h
  | cons n ns ih =>
    cases ns with
    | nil =>
      rw [joined_singleton] at h
      exact Or.inr (mem_natDec h)
    | cons m ns =>
      rw [joined_cons_cons, List.mem_append, List.mem_cons] at h
      rcases h with h | rfl | h
      · exact Or.inr (mem_natDec h)
      · exact Or.inl rfl
      · exact ih h

theorem joined_length_lt (sep : Byte) {ns : List ℕ} (hne : ns ≠ []) (h : ∀ n ∈ ns, n < 1000) :
    (joined sep ns).length < 4 * ns.length := by
  induction ns with
  | nil => exact absurd rfl hne
  | cons n ns ih =>
    have hn : (natDec n).length ≤ 3 := natDec_length_le (by decide) (h n List.mem_cons_self)
    cases ns with
    | nil =>
      rw [joined_singleton, List.length_singleton]
      omega
    | cons m ns =>
      have hns := ih (List.cons_ne_nil m ns) fun k hk => h k (List.mem_cons_of_mem n hk)
      rw [joined_cons_cons]
      simp only [List.length_append, List.length_cons] at hns ⊢
      omega

/-! ## One number -/

theorem isDigit_of_mem_natDec {n : ℕ} {b : Byte} (h : b ∈ natDec n) : isDigit b := by
  simpa [isDigit] using mem_natDec h

theorem natDec_ne_nil (n : ℕ) : natDec n ≠ [] := by
  unfold natDec
  split
  · simp
  · next hn => simpa using Nat.digits_ne_nil_iff_ne_zero.mpr hn

theorem decValue_digits (ds : List ℕ) (h : ∀ d ∈ ds, d < 10) :
    decValue (ds.reverse.map fun d => UInt8.ofNat (48 + d)) = Nat.ofDigits 10 ds := by
  rw [decValue, List.foldl_map, List.foldl_reverse]
  induction ds with
  | nil => rfl
  | cons d ds ih =>
    have hd : d < 10 := h d List.mem_cons_self
    have hbyte : (UInt8.ofNat (48 + d)).toNat - 48 = d := by
      rw [UInt8.toNat_ofNat_of_lt' (by simp only [UInt8.size]; omega)]
      omega
    rw [List.foldr_cons, ih fun e he => h e (List.mem_cons_of_mem d he), hbyte, Nat.ofDigits_cons]
    exact Nat.add_comm _ _

theorem decValue_natDec (n : ℕ) : decValue (natDec n) = n := by
  unfold natDec
  split
  · next hn => rw [hn]; rfl
  · rw [decValue_digits _ fun d hd => Nat.digits_lt_base (by norm_num) hd, Nat.ofDigits_digits]

/-- A tail that does not continue a number. -/
def EndsNumber (tail : CStr) : Prop := ∀ b ∈ tail.head?, isDigit b = false

/-- A number as it is read: digits, with zeros in front as the writer likes. -/
structure IsNumber (ds : CStr) : Prop where
  ne_nil : ds ≠ []
  digits : ∀ b ∈ ds, isDigit b

theorem isNumber_iff (ds : CStr) : (!ds.isEmpty && ds.all isDigit) = true ↔ IsNumber ds := by
  rw [Bool.and_eq_true, Bool.not_eq_true', List.isEmpty_eq_false_iff, List.all_eq_true]
  exact ⟨fun h => ⟨h.1, h.2⟩, fun h => ⟨h.ne_nil, h.digits⟩⟩

instance (ds : CStr) : Decidable (IsNumber ds) := decidable_of_iff _ (isNumber_iff ds)

theorem isNumber_natDec (n : ℕ) : IsNumber (natDec n) :=
  ⟨natDec_ne_nil n, fun _ hb => isDigit_of_mem_natDec hb⟩

theorem takeWhile_number_append {ds tail : CStr} (hds : IsNumber ds) (h : EndsNumber tail) :
    (ds ++ tail).takeWhile isDigit = ds := by
  rw [List.takeWhile_append_of_pos hds.digits]
  cases tail with
  | nil => simp
  | cons b t => simp [h b rfl]

theorem dropWhile_number_append {ds tail : CStr} (hds : IsNumber ds) (h : EndsNumber tail) :
    (ds ++ tail).dropWhile isDigit = tail := by
  rw [List.dropWhile_append_of_pos hds.digits]
  cases tail with
  | nil => rfl
  | cons b t => simp [h b rfl]

theorem scanInt_number_append {ds tail : CStr} (hds : IsNumber ds) (h : EndsNumber tail)
    (hval : decValue ds < 2147483648) : scanInt (ds ++ tail) = some ((decValue ds : ℤ), tail) := by
  obtain ⟨b, t, hb⟩ := List.exists_cons_of_ne_nil hds.ne_nil
  have hdigit : 48 ≤ b ∧ b ≤ 57 := by
    have := hds.digits b (by rw [hb]; exact List.mem_cons_self)
    simpa [isDigit] using this
  have hspace : (ds ++ tail).dropWhile isSpace = ds ++ tail := by
    rw [hb, List.cons_append, List.dropWhile_cons_of_neg]
    simp only [isSpace]
    grind
  have hsign : scanSign (ds ++ tail) = (false, ds ++ tail) := by
    rw [hb, List.cons_append, scanSign, if_neg, if_neg]
    · rintro rfl
      exact absurd hdigit.1 (by decide)
    · rintro rfl
      exact absurd hdigit.1 (by decide)
  rw [scanInt, hspace, hsign]
  simp only [takeWhile_number_append hds h, dropWhile_number_append hds h, hds.ne_nil, saturate,
    if_false, Bool.false_eq_true]
  congr 2
  omega

/-! ## A list of numbers -/

theorem scanInts_numbers {tail : CStr} (h : EndsNumber tail) (fs : List CStr)
    (hfs : ∀ f ∈ fs, IsNumber f ∧ decValue f < 2147483648) :
    scanInts fs.length ([44].intercalate fs ++ tail) = fs.map fun f => (decValue f : ℤ) := by
  induction fs with
  | nil => rfl
  | cons f fs ih =>
    obtain ⟨hf, hval⟩ := hfs f List.mem_cons_self
    cases fs with
    | nil =>
      rw [List.length_singleton, scanInts, List.intercalate_singleton,
        scanInt_number_append hf h hval]
      cases tail with
      | nil => rfl
      | cons b t =>
        simp only [scanInts]
        split <;> rfl
    | cons g fs =>
      have hsep : EndsNumber (44 :: ([44].intercalate (g :: fs) ++ tail)) := by
        rintro b ⟨⟩
        rfl
      have hsplit : [44].intercalate (f :: g :: fs) ++ tail =
          f ++ 44 :: ([44].intercalate (g :: fs) ++ tail) := by
        simp [List.intercalate]
      rw [hsplit, List.length_cons, scanInts, scanInt_number_append hf hsep hval]
      simp only [if_true]
      rw [ih fun k hk => hfs k (List.mem_cons_of_mem f hk)]
      rfl

theorem scanInts_joined {tail : CStr} (h : EndsNumber tail) (ns : List ℕ)
    (hns : ∀ n ∈ ns, n < 2147483648) :
    scanInts ns.length (joined 44 ns ++ tail) = ns.map Int.ofNat := by
  have hfs : ∀ f ∈ ns.map natDec, IsNumber f ∧ decValue f < 2147483648 := by
    intro f hf
    obtain ⟨n, hn, rfl⟩ := List.mem_map.mp hf
    exact ⟨isNumber_natDec n, (decValue_natDec n).symm ▸ hns n hn⟩
  have hscan := scanInts_numbers h (ns.map natDec) hfs
  rw [List.length_map, List.map_map] at hscan
  rw [joined, hscan]
  apply List.map_congr_left
  intro n _
  exact congrArg Int.ofNat (decValue_natDec n)

end VitaConnect.CString
