import VitaConnect.CString.Memory
import VitaConnect.Ftp.Notification

/-! # UTF-8 texts in notifications (`utf8_to_utf16`)

The converter goes by the lead byte alone: it takes two or three bytes without looking for the NUL
among them. On the encoding of characters below U+10000 it is the decoder; a text whose last sequence is
cut leads it past the NUL. So a notification shows its text when `sendNotification` keeps its bytes and
they encode such characters.
-/
namespace VitaConnect.Ftp
open CString
set_option autoImplicit false

/-- The units that `utf8_to_utf16` stores, with the 0 behind them. -/
def storedUnits (src : List Byte) : Option (List UInt16) := (utf8ToUtf16 src).map (· ++ [0])

/-! ## Sequences -/

/-- A byte, or a lead byte with the bytes that the converter takes with it. -/
def IsSequence : List Byte → Prop
  | [b] => b < 0xC0
  | [b, _] => 0xC0 ≤ b ∧ b < 0xE0
  | [b, _, _] => 0xE0 ≤ b
  | _ => False

/-- A text of whole sequences. -/
inductive WholeSequences : List Byte → Prop
  | nil : WholeSequences []
  | cons {q s : List Byte} : IsSequence q → WholeSequences s → WholeSequences (q ++ s)

/-- The unit of a sequence. -/
def unitOf : List Byte → UInt16
  | [b] => b.toUInt16
  | [b, c] => (b &&& 0x1F).toUInt16 <<< 6 ||| (c &&& 0x3F).toUInt16
  | [b, c, d] =>
    (b &&& 0x0F).toUInt16 <<< 12 ||| (c &&& 0x3F).toUInt16 <<< 6 ||| (d &&& 0x3F).toUInt16
  | _ => 0

theorem lead_iff {mask : Byte} (hmask : mask ∈ ([0xC0, 0xE0] : List Byte)) (b : Byte) :
    b &&& mask = mask ↔ mask ≤ b := by
  have hall : ∀ n < 256, ∀ mask ∈ ([0xC0, 0xE0] : List Byte),
      UInt8.ofNat n &&& mask = mask ↔ mask ≤ UInt8.ofNat n := by decide +kernel
  have hb := hall b.toNat b.toNat_lt mask hmask
  rwa [UInt8.ofNat_toNat] at hb

theorem lead_three_iff (b : Byte) : b &&& 0xE0 = 0xE0 ↔ 0xE0 ≤ b := lead_iff (by decide) b

theorem lead_two_iff (b : Byte) : b &&& 0xC0 = 0xC0 ↔ 0xC0 ≤ b := lead_iff (by decide) b

theorem utf8ToUtf16_zero (src : List Byte) : utf8ToUtf16 (0 :: src) = some [] := by
  rw [utf8ToUtf16.eq_def]
  exact if_pos rfl

theorem utf8ToUtf16_one {b : Byte} (hb : b ≠ 0) (hlead : b < 0xC0) (src : List Byte) :
    utf8ToUtf16 (b :: src) = (utf8ToUtf16 src).map (unitOf [b] :: ·) := by
  have hthree : ¬ b &&& 0xE0 = 0xE0 := by
    rw [lead_three_iff, UInt8.not_le]
    exact UInt8.lt_trans hlead (by decide)
  have htwo : ¬ b &&& 0xC0 = 0xC0 := by
    rw [lead_two_iff, UInt8.not_le]
    exact hlead
  rw [utf8ToUtf16.eq_def]
  simp only [hb, hthree, htwo, if_false, unitOf]

theorem ne_zero_of_lead {b : Byte} (hlead : 0xC0 ≤ b) : b ≠ 0 := by
  rintro rfl
  exact absurd hlead (by decide)

theorem utf8ToUtf16_two {b : Byte} (hlead : 0xC0 ≤ b) (hlt : b < 0xE0) (c : Byte) (src : List Byte) :
    utf8ToUtf16 (b :: c :: src) = (utf8ToUtf16 src).map (unitOf [b, c] :: ·) := by
  have hthree : ¬ b &&& 0xE0 = 0xE0 := by
    rw [lead_three_iff, UInt8.not_le]
    exact hlt
  rw [utf8ToUtf16.eq_def]
  simp only [ne_zero_of_lead hlead, hthree, (lead_two_iff b).mpr hlead, if_false, if_true, unitOf]

theorem utf8ToUtf16_three {b : Byte} (hlead : 0xE0 ≤ b) (c d : Byte) (src : List Byte) :
    utf8ToUtf16 (b :: c :: d :: src) = (utf8ToUtf16 src).map (unitOf [b, c, d] :: ·) := by
  have hb : b ≠ 0 := ne_zero_of_lead (UInt8.le_trans (by decide) hlead)
  rw [utf8ToUtf16.eq_def]
  simp only [hb, (lead_three_iff b).mpr hlead, if_false, if_true, unitOf]

theorem utf8ToUtf16_three_cut {b : Byte} (hlead : 0xE0 ≤ b) (c : Byte) : utf8ToUtf16 [b, c] = none := by
  have hb : b ≠ 0 := ne_zero_of_lead (UInt8.le_trans (by decide) hlead)
  rw [utf8ToUtf16.eq_def]
  simp only [hb, (lead_three_iff b).mpr hlead, if_false, if_true]

/-- A whole sequence gives its unit, and the rest is converted behind it. -/
theorem utf8ToUtf16_sequence {q : List Byte} (h : IsSequence q) (hzero : 0 ∉ q) (src : List Byte) :
    utf8ToUtf16 (q ++ src) = (utf8ToUtf16 src).map (unitOf q :: ·) := by
  match q, h with
  | [b], h => exact utf8ToUtf16_one (fun hb => hzero (by simp [hb])) h src
  | [b, c], h => exact utf8ToUtf16_two h.1 h.2 c src
  | [b, c, d], h => exact utf8ToUtf16_three h c d src

/-! ## Encoded texts -/

theorem single_byte {v : ℕ} (hpos : 1 ≤ v) (hv : v ≤ 0x7F) :
    (0 : Byte) ≠ UInt8.ofNat v ∧ UInt8.ofNat v < 0xC0 ∧ (UInt8.ofNat v).toUInt16.toNat = v := by
  have hall : ∀ v < 0x80, 1 ≤ v → (0 : Byte) ≠ UInt8.ofNat v ∧ UInt8.ofNat v < 0xC0 ∧
      (UInt8.ofNat v).toUInt16.toNat = v := by decide +kernel
  exact hall v (Nat.lt_succ_of_le hv) hpos

theorem lead_two_byte {k : ℕ} (hk : k < 32) :
    0xC0 ≤ UInt8.ofNat (k + 0xC0) ∧ UInt8.ofNat (k + 0xC0) < 0xE0 ∧
      (UInt8.ofNat (k + 0xC0) &&& 0x1F).toUInt16 = UInt16.ofNat k := by
  revert k
  decide

theorem lead_three_byte {k : ℕ} (hk : k < 16) :
    0xE0 ≤ UInt8.ofNat (k + 0xE0) ∧
      (UInt8.ofNat (k + 0xE0) &&& 0x0F).toUInt16 = UInt16.ofNat k := by
  revert k
  decide

theorem tail_byte {k : ℕ} (hk : k < 64) :
    (0 : Byte) ≠ UInt8.ofNat (k + 0x80) ∧
      (UInt8.ofNat (k + 0x80) &&& 0x3F).toUInt16 = UInt16.ofNat k := by
  revert k
  decide

theorem toNat_shiftLeft_of_fits {x shift : UInt16} {i : ℕ} (hshift : shift.toNat = i) (hi : i < 16)
    (hx : x.toNat * 2 ^ i < 65536) : (x <<< shift).toNat = x.toNat * 2 ^ i := by
  rw [UInt16.toNat_shiftLeft, hshift, Nat.mod_eq_of_lt hi, Nat.shiftLeft_eq, Nat.mod_eq_of_lt hx]

theorem toNat_or_of_low {x y : UInt16} {k i : ℕ} (hx : x.toNat = k * 2 ^ i) (hy : y.toNat < 2 ^ i) :
    (x ||| y).toNat = x.toNat + y.toNat := by
  rw [UInt16.toNat_or, hx, ← Nat.shiftLeft_eq, ← Nat.shiftLeft_add_eq_or_of_lt hy]

theorem ofNat_toNat {v : ℕ} (hv : v ≤ 0xFFFF) : (UInt16.ofNat v).toNat = v :=
  UInt16.toNat_ofNat_of_lt' (by simp only [UInt16.size]; omega)

theorem toNat_two {h l : ℕ} (hh : h < 32) (hl : l < 64) :
    (UInt16.ofNat h <<< (6 : UInt16) ||| UInt16.ofNat l).toNat = h * 64 + l := by
  have hx := ofNat_toNat (by omega : h ≤ 0xFFFF)
  have hy := ofNat_toNat (by omega : l ≤ 0xFFFF)
  have hshift := toNat_shiftLeft_of_fits (i := 6) (rfl : (6 : UInt16).toNat = 6) (by decide)
    (by rw [hx]; omega)
  rw [toNat_or_of_low hshift (by rw [hy]; omega), hshift, hx, hy]
  rfl

theorem toNat_three {h m l : ℕ} (hh : h < 16) (hm : m < 64) (hl : l < 64) :
    (UInt16.ofNat h <<< (12 : UInt16) ||| UInt16.ofNat m <<< (6 : UInt16) ||| UInt16.ofNat l).toNat =
      h * 4096 + m * 64 + l := by
  have hx := ofNat_toNat (by omega : h ≤ 0xFFFF)
  have hy := ofNat_toNat (by omega : m ≤ 0xFFFF)
  have hz := ofNat_toNat (by omega : l ≤ 0xFFFF)
  have hhigh := toNat_shiftLeft_of_fits (i := 12) (rfl : (12 : UInt16).toNat = 12) (by decide)
    (by rw [hx]; omega)
  have hmid := toNat_shiftLeft_of_fits (i := 6) (rfl : (6 : UInt16).toNat = 6) (by decide)
    (by rw [hy]; omega)
  have hupper := toNat_or_of_low hhigh (by rw [hmid, hy]; omega)
  have hfactor : (UInt16.ofNat h <<< (12 : UInt16) ||| UInt16.ofNat m <<< (6 : UInt16)).toNat =
      (h * 64 + m) * 2 ^ 6 := by
    rw [hupper, hhigh, hmid, hx, hy]
    omega
  rw [toNat_or_of_low hfactor (by rw [hz]; omega), hfactor, hz]
  omega

/-- The encoding of one character is a whole sequence, and its unit is the character. -/
theorem encoded_sequence {c : Char} (hpos : 1 ≤ c.toNat) (hmax : c.toNat ≤ 0xFFFF) :
    IsSequence (String.utf8EncodeChar c) ∧ 0 ∉ String.utf8EncodeChar c ∧
      (unitOf (String.utf8EncodeChar c)).toNat = c.toNat := by
  have hdef : c.val.toNat = c.toNat := rfl
  unfold String.utf8EncodeChar
  rw [hdef]
  dsimp only
  generalize c.toNat = v at hpos hmax
  split_ifs with hone htwo
  · obtain ⟨hzero, hlt, hunit⟩ := single_byte hpos hone
    exact ⟨hlt, List.not_mem_cons_of_ne_of_not_mem hzero List.not_mem_nil, hunit⟩
  · obtain ⟨hle, hlt, hx⟩ := lead_two_byte (Nat.mod_lt (v / 64) (by decide))
    obtain ⟨hzero, hy⟩ := tail_byte (Nat.mod_lt v (by decide))
    have hlead := (ne_zero_of_lead hle).symm
    refine ⟨⟨hle, hlt⟩, List.not_mem_cons_of_ne_of_not_mem hlead
      (List.not_mem_cons_of_ne_of_not_mem hzero List.not_mem_nil), ?_⟩
    rw [unitOf, hx, hy]
    exact (toNat_two (Nat.mod_lt _ (by decide)) (Nat.mod_lt _ (by decide))).trans (by omega)
  · obtain ⟨hle, hx⟩ := lead_three_byte (Nat.mod_lt (v / 4096) (by decide))
    obtain ⟨hzero, hy⟩ := tail_byte (Nat.mod_lt (v / 64) (by decide))
    obtain ⟨hzero', hz⟩ := tail_byte (Nat.mod_lt v (by decide))
    have hlead := (ne_zero_of_lead (UInt8.le_trans (by decide) hle)).symm
    refine ⟨hle, List.not_mem_cons_of_ne_of_not_mem hlead (List.not_mem_cons_of_ne_of_not_mem hzero
      (List.not_mem_cons_of_ne_of_not_mem hzero' List.not_mem_nil)), ?_⟩
    rw [unitOf, hx, hy, hz]
    exact (toNat_three (Nat.mod_lt _ (by decide)) (Nat.mod_lt _ (by decide))
      (Nat.mod_lt _ (by decide))).trans (by omega)

theorem utf8ToUtf16_encoded (cs : List Char) (hcs : ∀ c ∈ cs, 1 ≤ c.toNat ∧ c.toNat ≤ 0xFFFF)
    (rest : List Byte) :
    ∃ units, utf8ToUtf16 (cs.flatMap String.utf8EncodeChar ++ 0 :: rest) = some units ∧
      units.map UInt16.toNat = cs.map Char.toNat := by
  induction cs with
  | nil => exact ⟨[], utf8ToUtf16_zero rest, rfl⟩
  | cons c cs ih =>
    obtain ⟨units, hunits, hvalues⟩ := ih fun d hd => hcs d (List.mem_cons_of_mem c hd)
    obtain ⟨hpos, hmax⟩ := hcs c List.mem_cons_self
    obtain ⟨hsequence, hzero, hunit⟩ := encoded_sequence hpos hmax
    refine ⟨unitOf (String.utf8EncodeChar c) :: units, ?_, ?_⟩
    · rw [List.flatMap_cons, List.append_assoc, utf8ToUtf16_sequence hsequence hzero, hunits]
      rfl
    · rw [List.map_cons, hunit, hvalues, List.map_cons]

/-- **The converter decodes what it is made for.** The encoding of characters below U+10000 is stored as
these characters and a 0; the array may end with the NUL. -/
theorem storedUnits_encoded (cs : List Char) (hcs : ∀ c ∈ cs, 1 ≤ c.toNat ∧ c.toNat ≤ 0xFFFF) :
    ∃ units, storedUnits (cs.flatMap String.utf8EncodeChar ++ [0]) = some units ∧
      units.map UInt16.toNat = cs.map Char.toNat ++ [0] ∧
      ∀ rest, storedUnits (cs.flatMap String.utf8EncodeChar ++ 0 :: rest) = some units := by
  obtain ⟨units, hunits, hvalues⟩ := utf8ToUtf16_encoded cs hcs []
  refine ⟨units ++ [0], ?_, ?_, fun rest => ?_⟩
  · rw [storedUnits, hunits]
    rfl
  · rw [List.map_append, hvalues]
    rfl
  · obtain ⟨units', hunits', hvalues'⟩ := utf8ToUtf16_encoded cs hcs rest
    obtain rfl : units' = units :=
      List.map_injective_iff.mpr (fun _ _ h => UInt16.toNat_inj.mp h) (hvalues'.trans hvalues.symm)
    rw [storedUnits, hunits']
    rfl

theorem storedUnits_encoded_euro :
    (∀ c ∈ ['A', 'é', '€'], 1 ≤ c.toNat ∧ c.toNat ≤ 0xFFFF) ∧
      ∃ units, storedUnits ([0x41, 0xC3, 0xA9, 0xE2, 0x82, 0xAC] ++ [0]) = some units ∧
        units.map UInt16.toNat = [0x41, 0xE9, 0x20AC, 0] := by
  have hcs : ∀ c ∈ ['A', 'é', '€'], 1 ≤ c.toNat ∧ c.toNat ≤ 0xFFFF := by simp
  obtain ⟨units, hunits, hvalues, -⟩ := storedUnits_encoded ['A', 'é', '€'] hcs
  exact ⟨hcs, units, hunits, hvalues⟩

/-! ## What is shown -/

/-- The UTF-16 units of a character: a pair of surrogates above U+FFFF. -/
def utf16Units (c : Char) : List ℕ :=
  if c.toNat ≤ 0xFFFF then [c.toNat]
  else [0xD800 + (c.toNat - 0x10000) / 0x400, 0xDC00 + (c.toNat - 0x10000) % 0x400]

/-- The callback shows `text`, whatever it finds in place of arguments and behind the NUL: the bytes
are copied, and the units are those of the characters that the bytes encode. -/
def ShowsExactly (textMax : ℕ) (text : CStr) : Prop :=
  ∃ cs : List Char, text = cs.flatMap String.utf8EncodeChar ∧
    ∀ supply rest, ∃ units, sendNotification textMax supply rest text =
        { buf := text, notificationText := some units } ∧
      units.map UInt16.toNat = cs.flatMap utf16Units

/-- The encoding of characters U+0001 to U+FFFF. -/
def EncodesPlain (text : CStr) : Prop :=
  ∃ cs : List Char, text = cs.flatMap String.utf8EncodeChar ∧
    ∀ c ∈ cs, 1 ≤ c.toNat ∧ c.toNat ≤ 0xFFFF

theorem utf16Units_of_le {c : Char} (h : c.toNat ≤ 0xFFFF) : utf16Units c = [c.toNat] := if_pos h

theorem flatMap_utf16Units {cs : List Char} (h : ∀ c ∈ cs, 1 ≤ c.toNat ∧ c.toNat ≤ 0xFFFF) :
    cs.flatMap utf16Units = cs.map Char.toNat := by
  induction cs with
  | nil => rfl
  | cons c cs ih =>
    rw [List.flatMap_cons, utf16Units_of_le (h c List.mem_cons_self).2,
      ih fun d hd => h d (List.mem_cons_of_mem c hd)]
    rfl

theorem utf8EncodeChar_zero {c : Char} (h : c.toNat = 0) : String.utf8EncodeChar c = [0] := by
  have hval : c.val.toNat = 0 := h
  simp [String.utf8EncodeChar, hval]

theorem toNat_lt (c : Char) : c.toNat < 0x110000 := by
  have hvalid := c.valid
  rcases hvalid with hlow | hhigh
  · exact hlow.trans (by decide)
  · exact hhigh.2

theorem lead_four_byte {k : ℕ} (hk : k < 5) :
    0xE0 ≤ UInt8.ofNat (k + 0xF0) ∧
      (UInt8.ofNat (k + 0xF0) &&& 0x0F).toUInt16 = UInt16.ofNat k := by
  revert k
  decide

/-- The converter makes two units of a sequence of four bytes, and the first is no surrogate. -/
theorem utf8ToUtf16_four {c : Char} (h : 0xFFFF < c.toNat) (src : List Byte) (units : List UInt16)
    (hunits : utf8ToUtf16 (String.utf8EncodeChar c ++ src) = some units) :
    ∃ u us, units = u :: us ∧ u.toNat < 0x5000 := by
  have hdef : c.val.toNat = c.toNat := rfl
  have hmax := toNat_lt c
  unfold String.utf8EncodeChar at hunits
  rw [hdef] at hunits
  dsimp only at hunits
  generalize c.toNat = v at h hmax hunits
  rw [if_neg (by omega), if_neg (by omega), if_neg (by omega)] at hunits
  have hk : v / 262144 % 8 < 5 := by omega
  obtain ⟨hle, hx⟩ := lead_four_byte hk
  obtain ⟨-, hy⟩ := tail_byte (Nat.mod_lt (v / 4096) (by decide : 0 < 64))
  obtain ⟨-, hz⟩ := tail_byte (Nat.mod_lt (v / 64) (by decide : 0 < 64))
  simp only [List.cons_append] at hunits
  rw [utf8ToUtf16_three hle] at hunits
  obtain ⟨us, -, rfl⟩ := Option.map_eq_some_iff.mp hunits
  refine ⟨_, us, rfl, ?_⟩
  rw [unitOf, hx, hy, hz, toNat_three (by omega) (Nat.mod_lt _ (by decide)) (Nat.mod_lt _ (by decide))]
  omega

/-- Only plain characters come out as themselves. -/
theorem plain_of_units {cs : List Char} {units : List UInt16}
    (h : utf8ToUtf16 (cs.flatMap String.utf8EncodeChar ++ [0]) = some units)
    (hunits : units.map UInt16.toNat = cs.flatMap utf16Units) :
    ∀ c ∈ cs, 1 ≤ c.toNat ∧ c.toNat ≤ 0xFFFF := by
  induction cs generalizing units with
  | nil => simp
  | cons c cs ih =>
    rw [List.flatMap_cons, List.append_assoc] at h
    rw [List.flatMap_cons] at hunits
    have hpos : 1 ≤ c.toNat := by
      by_contra hzero
      have hc : c.toNat = 0 := by omega
      rw [utf8EncodeChar_zero hc, List.singleton_append, utf8ToUtf16_zero] at h
      rw [← Option.some.inj h, utf16Units_of_le (by omega)] at hunits
      simp at hunits
    have hmax : c.toNat ≤ 0xFFFF := by
      by_contra hlarge
      obtain ⟨u, us, rfl, hu⟩ := utf8ToUtf16_four (by omega) _ units h
      rw [utf16Units, if_neg hlarge, List.map_cons] at hunits
      have hhead := (List.cons.inj hunits).1
      omega
    obtain ⟨hsequence, hzero, -⟩ := encoded_sequence hpos hmax
    rw [utf8ToUtf16_sequence hsequence hzero] at h
    obtain ⟨us, hus, rfl⟩ := Option.map_eq_some_iff.mp h
    rw [List.map_cons, utf16Units_of_le hmax] at hunits
    exact List.forall_mem_cons.mpr ⟨⟨hpos, hmax⟩, ih hus (List.cons.inj hunits).2⟩

theorem showsExactly_iff (textMax : ℕ) (text : CStr) :
    ShowsExactly textMax text ↔
      37 ∉ text ∧ text.length ≤ textMax * 2 - 1 ∧ EncodesPlain text := by
  rw [← and_assoc, ← vsnprintf_verbatim_iff]
  constructor
  · rintro ⟨cs, hcs, hshown⟩
    have hbuf : ∀ supply, vsnprintf (textMax * 2) supply text = text := by
      intro supply
      obtain ⟨units, hsent, -⟩ := hshown supply []
      exact congrArg Shown.buf hsent
    refine ⟨hbuf, cs, hcs, ?_⟩
    obtain ⟨units, hsent, hunits⟩ := hshown (fun _ _ => []) []
    have hconverted := congrArg Shown.notificationText hsent
    simp only [sendNotification, hbuf] at hconverted
    rw [hcs] at hconverted
    exact plain_of_units hconverted hunits
  · rintro ⟨hbuf, cs, hcs, hplain⟩
    refine ⟨cs, hcs, fun supply rest => ?_⟩
    obtain ⟨units, hconverted, hunits⟩ := utf8ToUtf16_encoded cs hplain rest
    rw [← hcs] at hconverted
    refine ⟨units, ?_, hunits.trans (flatMap_utf16Units hplain).symm⟩
    rw [sendNotification, hbuf supply, hconverted]

/-- `utf8_to_utf16` reads no byte behind the first NUL of the array: what it stores depends on none. -/
def StopsAtNul (array : List Byte) : Prop :=
  ∃ units, ∀ behind, storedUnits (stringOf array ++ 0 :: behind) = some units

theorem storedUnits_of_whole {s : CStr} (h : WholeSequences s) (hzero : 0 ∉ s) :
    ∃ units, ∀ behind, utf8ToUtf16 (s ++ 0 :: behind) = some units := by
  induction h with
  | nil => exact ⟨[], utf8ToUtf16_zero⟩
  | @cons q s hq _ ih =>
    rw [List.mem_append, not_or] at hzero
    obtain ⟨units, hunits⟩ := ih hzero.2
    refine ⟨unitOf q :: units, fun behind => ?_⟩
    rw [List.append_assoc, utf8ToUtf16_sequence hq hzero.1, hunits behind]
    rfl

/-- A text starts with a whole sequence, or its conversion leads past the NUL. -/
theorem head_sequence_or_cut (b : Byte) (t : CStr) :
    (∃ q r, b :: t = q ++ r ∧ q ≠ [] ∧ IsSequence q) ∨ utf8ToUtf16 (b :: t ++ [0]) = none := by
  have hnil : utf8ToUtf16 [] = none := by rw [utf8ToUtf16.eq_def]
  by_cases hthree : 0xE0 ≤ b
  · rcases t with - | ⟨c, - | ⟨d, r⟩⟩
    · exact Or.inr (utf8ToUtf16_three_cut hthree 0)
    · right
      show utf8ToUtf16 (b :: c :: 0 :: []) = none
      rw [utf8ToUtf16_three hthree, hnil]
      rfl
    · exact Or.inl ⟨[b, c, d], r, rfl, by simp, hthree⟩
  have hlt := UInt8.not_le.mp hthree
  by_cases htwo : 0xC0 ≤ b
  · rcases t with - | ⟨c, r⟩
    · right
      show utf8ToUtf16 (b :: 0 :: []) = none
      rw [utf8ToUtf16_two htwo hlt, hnil]
      rfl
    · exact Or.inl ⟨[b, c], r, rfl, by simp, htwo, hlt⟩
  · exact Or.inl ⟨[b], t, rfl, by simp, UInt8.not_le.mp htwo⟩

theorem whole_of_converted {n : ℕ} {s : CStr} (hlen : s.length ≤ n) (hzero : 0 ∉ s)
    (h : utf8ToUtf16 (s ++ [0]) ≠ none) : WholeSequences s := by
  induction n generalizing s with
  | zero =>
    obtain rfl := List.eq_nil_of_length_eq_zero (Nat.le_zero.mp hlen)
    exact .nil
  | succ n ih =>
    cases s with
    | nil => exact .nil
    | cons b t =>
      obtain ⟨q, r, hqr, hne, hq⟩ := (head_sequence_or_cut b t).resolve_right h
      rw [hqr] at hlen hzero h ⊢
      rw [List.mem_append, not_or] at hzero
      rw [List.append_assoc, utf8ToUtf16_sequence hq hzero.1] at h
      have hpos := List.length_pos_iff.mpr hne
      rw [List.length_append] at hlen
      have hconverted : utf8ToUtf16 (r ++ [0]) ≠ none := by
        intro hnone
        rw [hnone] at h
        exact h rfl
      exact .cons hq (ih (by omega) hzero.2 hconverted)

theorem stopsAtNul_iff (array : List Byte) : StopsAtNul array ↔ WholeSequences (stringOf array) := by
  constructor
  · rintro ⟨units, hunits⟩
    apply whole_of_converted le_rfl (zero_notMem_stringOf array)
    intro hnone
    have hstored := hunits []
    rw [storedUnits, hnone] at hstored
    cases hstored
  · intro h
    obtain ⟨units, hunits⟩ := storedUnits_of_whole h (zero_notMem_stringOf array)
    exact ⟨units ++ [0], fun behind => by rw [storedUnits, hunits behind]; rfl⟩

/-- **When a notification stays inside its text.** The text that the two cuts and the format leave is a
sequence of whole sequences; without a `%` it is what the shorter of the two arrays holds. -/
theorem sendNotification_stops_iff (textMax : ℕ) (supply : ℕ → CStr → CStr) (rest : List Byte)
    (msg : CStr) :
    (StopsAtNul (sendNotification textMax supply rest (snprintf 256 msg)).buf ↔
      WholeSequences (stringOf (vsnprintf (textMax * 2) supply (snprintf 256 msg)))) ∧
    (0 ∉ msg → 37 ∉ msg.take 255 →
      (StopsAtNul (sendNotification textMax supply rest (snprintf 256 msg)).buf ↔
        WholeSequences (msg.take (min (textMax * 2 - 1) 255)))) := by
  have hiff := stopsAtNul_iff (sendNotification textMax supply rest (snprintf 256 msg)).buf
  refine ⟨hiff, fun hzero hpercent => hiff.trans ?_⟩
  have hbuf : (sendNotification textMax supply rest (snprintf 256 msg)).buf =
      msg.take (min (textMax * 2 - 1) 255) := by
    show snprintf (textMax * 2) (printed supply 0 (pieces (msg.take 255))) = _
    rw [pieces_of_no_percent hpercent, printed_literals, snprintf, List.take_take]
  rw [hbuf, stringOf_of_zero_notMem fun hmem => hzero (List.mem_of_mem_take hmem)]

/-- The cut parts the two bytes of the last character of the name. -/
theorem sendNotification_parted :
    ¬ ∀ (textMax : ℕ) (supply : ℕ → CStr → CStr) (rest : List Byte) (msg : CStr),
      StopsAtNul (sendNotification textMax supply rest (snprintf 256 msg)).buf := by
  intro h
  let msg := (Notice.single .received (List.replicate 244 97 ++ [0xC3, 0xA9])).formatted
  let buf := (sendNotification 128 (fun _ _ => []) [] (snprintf 256 msg)).buf
  obtain ⟨units, hunits⟩ := h 128 (fun _ _ => []) [] msg
  have hnone : storedUnits (stringOf buf ++ [0]) = none := by decide +kernel
  have hsome : storedUnits (stringOf buf ++ [0]) = some units := hunits []
  rw [hnone] at hsome
  cases hsome

end VitaConnect.Ftp
