import VitaConnect.CString.Separators
import VitaConnect.Ftp.Endpoint
import VitaConnect.Ftp.Invariant
import VitaConnect.Modes.Handlers

/-! # The path of a file command (`gen_ftp_fullpath`)

An argument with a registered device in front is recognised by the place of its colon, which fits
the names of three letters and no other; a path that does not fit `PATH_MAX` is cut.
-/
namespace VitaConnect.Ftp
open CString Program
set_option autoImplicit false

/-- The argument as far as `%[^\r\n\t]` reads it. -/
def argText (args : CStr) : CStr := args.takeWhile (· ∉ argStops)

/-- A name such as `uma0:/foo`, with one of the registered devices. -/
def NamesDevice (name : CStr) : Prop := ∃ dev ∈ Modes.netDevices, dev ++ [slash] <+: name

instance (name : CStr) : Decidable (NamesDevice name) :=
  inferInstanceAs (Decidable (∃ dev ∈ Modes.netDevices, dev ++ [slash] <+: name))

/-- `path` is the whole path that `name` means in `curPath`, and no shorter one. -/
structure WholePath (curPath name path : CStr) : Prop where
  absolute : name.head? = some slash → path = name
  device : NamesDevice name → path = slash :: name
  relative : name.head? ≠ some slash → ¬ NamesDevice name →
    collapse slash path = collapse slash (curPath ++ slash :: name)
  uncut : name.head? ≠ some slash → ¬ NamesDevice name → path <+: curPath ++ slash :: name →
    path = curPath ++ slash :: name

/-- When `gen_ftp_fullpath` finds it. -/
def ResolvesWhole (curPath name : CStr) : Prop :=
  if name.head? = some slash then True
  else if NamesDevice name then isDevicePath name = true
  else if isDevicePath name = true then ∀ b ∈ curPath, b = slash
  else name ≠ [] ∧ curPath.length + 1 + name.length < pathMax

/-! ## The argument -/

theorem argText_length_le (args : CStr) : (argText args).length ≤ args.length :=
  (List.takeWhile_prefix _).length_le

theorem scanSet_argText {args : CStr} (h : argText args ≠ []) :
    scanSet argStops args = some (argText args) := scanSet_eq_some_iff.mpr ⟨h, rfl⟩

theorem ftpName_argText {args : CStr} (h : argText args ≠ []) (env : Env) :
    ftpName env args = argText args := by
  rw [ftpName, scanSet_argText h, Option.getD_some]

theorem ftpName_empty {args : CStr} (h : argText args = []) (env : Env) :
    ftpName env args = env.stackPath := by
  have hscan : scanSet argStops args = none := by
    rw [scanSet, show args.takeWhile (· ∉ argStops) = [] from h]
  rw [ftpName, hscan, Option.getD_none]

theorem not_namesDevice_nil : ¬ NamesDevice [] := by
  rintro ⟨dev, -, hdev⟩
  simp at hdev

theorem not_namesDevice_absolute {name : CStr} (h : name.head? = some slash) :
    ¬ NamesDevice name := by
  rintro ⟨dev, hmem, q, rfl⟩
  have hhead : ∀ dev ∈ Modes.netDevices, (dev ++ [slash]).head? ≠ some slash := by decide
  apply hhead dev hmem
  rw [← h]
  cases dev <;> rfl

/-! ## The three branches -/

theorem fullPath_absolute {name : CStr} (curPath : CStr) (h : name.head? = some slash) :
    fullPath curPath name = name := if_pos h

theorem fullPath_device {name : CStr} (curPath : CStr) (h : name.head? ≠ some slash)
    (hdevice : isDevicePath name = true) (hname : name.length ≤ 511) :
    fullPath curPath name = slash :: name := by
  rw [fullPath, if_neg h, if_pos hdevice]
  apply snprintf_of_fits
  simp only [List.length_cons, pathMax]
  omega

theorem fullPath_joined {name : CStr} (curPath : CStr) (h : name.head? ≠ some slash)
    (hdevice : isDevicePath name = false) :
    fullPath curPath name = snprintf pathMax (curPath ++ slash :: name) := by
  rw [fullPath, if_neg h, hdevice]
  rfl

theorem collapse_append_of_slashes {p : CStr} (h : ∀ b ∈ p, b = slash) (q : CStr) :
    collapse slash (p ++ slash :: q) = collapse slash (slash :: q) := by
  induction p with
  | nil => rfl
  | cons b p ih =>
    have hb : b = slash := h b List.mem_cons_self
    have hp : ∀ b ∈ p, b = slash := fun b hb => h b (List.mem_cons_of_mem _ hb)
    have hhead : (p ++ slash :: q).head? = some slash := by
      cases p with
      | nil => rfl
      | cons a p => exact congrArg some (hp a List.mem_cons_self)
    rw [List.cons_append, collapse, if_pos ⟨hb, hhead⟩, ih hp]

theorem slashes_of_collapse_eq {p q : CStr}
    (h : collapse slash (slash :: q) = collapse slash (p ++ slash :: q)) : ∀ b ∈ p, b = slash := by
  have hcontent := congrArg (content slash) h
  rw [content_collapse, content_collapse, content_append] at hcontent
  have hzero : content slash p = 0 := by omega
  intro b hb
  simpa using List.countP_eq_zero.mp hzero b hb

/-- A device of another length is joined to the current path. -/
theorem fullPath_ne_of_long_device {curPath name : CStr} (hcur : CurPathInv curPath)
    (h : name.head? ≠ some slash) (hdevice : isDevicePath name = false)
    (hname : name.length ≤ 511) : fullPath curPath name ≠ slash :: name := by
  intro heq
  obtain ⟨p, rfl⟩ : ∃ p, curPath = slash :: p := by
    cases curPath with
    | nil => exact absurd hcur.absolute (by simp)
    | cons a p => exact ⟨p, by simpa using hcur.absolute⟩
  have hlen := congrArg List.length heq
  rw [fullPath_joined _ h hdevice, snprintf, List.length_take] at hlen
  simp only [List.cons_append, List.length_cons, List.length_append, pathMax] at hlen
  omega

theorem wholePath_of_slashes {curPath name : CStr} (h : name.head? ≠ some slash)
    (hdevice : ¬ NamesDevice name) (hcur : CurPathInv curPath) (hall : ∀ b ∈ curPath, b = slash)
    (hne : name ≠ []) : WholePath curPath name (slash :: name) := by
  refine ⟨fun habs => absurd habs h, fun _ => rfl,
    fun _ _ => (collapse_append_of_slashes hall name).symm, fun _ _ hcut => ?_⟩
  -- behind its first slash the joined path has another one, and the name does not start with one
  obtain ⟨a, name, rfl⟩ := List.exists_cons_of_ne_nil hne
  obtain ⟨q, hq⟩ := hcut
  exfalso
  apply h
  cases curPath with
  | nil => exact absurd hcur.absolute (by simp)
  | cons b p =>
    cases p with
    | nil =>
      have htail := (List.cons.inj hq).2
      exact congrArg some (List.cons.inj htail).1
    | cons c p =>
      have htail := (List.cons.inj hq).2
      rw [List.head?_cons, (List.cons.inj htail).1, hall c (by simp)]

theorem wholePath_fullPath_iff {curPath name : CStr} (hcur : CurPathInv curPath) (hne : name ≠ [])
    (hname : name.length ≤ 511) :
    WholePath curPath name (fullPath curPath name) ↔ ResolvesWhole curPath name := by
  unfold ResolvesWhole
  split_ifs with habs hdevice hshort
  · refine iff_of_true ⟨fun _ => fullPath_absolute curPath habs, ?_, ?_, ?_⟩ trivial
    · exact fun hdevice => absurd hdevice (not_namesDevice_absolute habs)
    · exact fun hrel => absurd habs hrel
    · exact fun hrel => absurd habs hrel
  · cases hshort : isDevicePath name with
    | true =>
      refine iff_of_true ⟨fun h => absurd h habs, ?_, ?_, ?_⟩ rfl
      · exact fun _ => fullPath_device curPath habs hshort hname
      · exact fun _ hnot => absurd hdevice hnot
      · exact fun _ hnot => absurd hdevice hnot
    | false =>
      refine iff_of_false (fun h => ?_) (by decide)
      exact fullPath_ne_of_long_device hcur habs hshort hname (h.device hdevice)
  · rw [fullPath_device curPath habs hshort hname]
    constructor
    · intro h
      exact slashes_of_collapse_eq (h.relative habs hdevice)
    · intro hall
      exact wholePath_of_slashes habs hdevice hcur hall hne
  · have hfalse : isDevicePath name = false := by simpa using hshort
    have hlen : (curPath ++ slash :: name).length = curPath.length + 1 + name.length := by
      rw [List.length_append, List.length_cons]
      omega
    rw [fullPath_joined curPath habs hfalse]
    constructor
    · intro h
      have heq := h.uncut habs hdevice (List.take_prefix _ _)
      have hcut := snprintf_length_le pathMax (curPath ++ slash :: name)
      rw [heq, hlen] at hcut
      simp only [pathMax] at hcut ⊢
      exact ⟨hne, by omega⟩
    · rintro ⟨-, hfits⟩
      rw [snprintf_of_fits (hlen ▸ hfits)]
      exact ⟨fun h => absurd h habs, fun h => absurd h hdevice, fun _ _ => rfl, fun _ _ _ => rfl⟩

/-! ## The whole path of a reachable session -/

/-- **When a file command acts on the path its argument names.** The argument is absolute; or it
names a registered device of three letters; or it has no such shape and the joined path fits. An
argument that only looks like a device path is taken for one, which changes nothing at the root. The
argument ends at CR, LF or TAB (`argText`). -/
theorem genFtpFullpath_whole_iff {rounds : List Round} {t : Session} (h : Reaches rounds t)
    {args : CStr} (hargs : args.length ≤ 511) :
    (∀ env, ∃ path, genFtpFullpath env (t.withArgs args) = .ok path (t.withArgs args) ∧
        WholePath t.client.curPath (argText args) path) ↔
      ResolvesWhole t.client.curPath (argText args) := by
  have hcur := reaches_curPathInv h
  have hname : (argText args).length ≤ 511 := (argText_length_le args).trans hargs
  have hrun : ∀ env, (fullPath t.client.curPath (ftpName env args)).length < pathMax →
      genFtpFullpath env (t.withArgs args) =
        .ok (fullPath t.client.curPath (ftpName env args)) (t.withArgs args) := fun env hlen =>
    (genFtpFullpath_apply env hargs).trans (if_pos hlen)
  by_cases hne : argText args = []
  · -- nothing is scanned, and the path is what the array held before
    have hnot : ¬ ResolvesWhole t.client.curPath (argText args) := by
      rw [hne]
      simp [ResolvesWhole, not_namesDevice_nil, isDevicePath]
    refine iff_of_false (fun hall => ?_) hnot
    have hstale : ∀ name : CStr, name.head? = some slash → name.length < pathMax →
        WholePath t.client.curPath [] name := by
      intro name habs hlen
      have hpath := hrun { calmEnv with stackPath := name }
      rw [ftpName_empty hne, fullPath_absolute _ habs] at hpath
      obtain ⟨path, hok, hwhole⟩ := hall { calmEnv with stackPath := name }
      obtain ⟨rfl, -⟩ := EStateM.Result.ok.inj ((hpath hlen).symm.trans hok)
      rwa [hne] at hwhole
    have h1 := (hstale [slash] rfl (by decide)).relative (by simp) not_namesDevice_nil
    have h2 := (hstale [slash, 120] rfl (by decide)).relative (by simp) not_namesDevice_nil
    exact absurd (h1.trans h2.symm) (by decide)
  · have hfits : (fullPath t.client.curPath (argText args)).length < pathMax :=
      fullPath_length_lt (hname.trans_lt (by decide))
    have hpath : ∀ env, genFtpFullpath env (t.withArgs args) =
        .ok (fullPath t.client.curPath (argText args)) (t.withArgs args) := by
      intro env
      rw [hrun env, ftpName_argText hne]
      rwa [ftpName_argText hne]
    rw [← wholePath_fullPath_iff hcur hne hname]
    constructor
    · intro hall
      obtain ⟨path, hok, hwhole⟩ := hall calmEnv
      obtain ⟨rfl, -⟩ := EStateM.Result.ok.inj ((hpath calmEnv).symm.trans hok)
      exact hwhole
    · exact fun hwhole env => ⟨_, hpath env, hwhole⟩

theorem genFtpFullpath_whole_registered :
    Reaches [(bytes "CWD ux0:\r\n", calmEnv)] onMemoryCard ∧ (bytes "ur0:/a\r\n").length ≤ 511 ∧
      ∀ env, ∃ path, genFtpFullpath env (onMemoryCard.withArgs (bytes "ur0:/a\r\n")) =
          .ok path (onMemoryCard.withArgs (bytes "ur0:/a\r\n")) ∧
        WholePath onMemoryCard.client.curPath (argText (bytes "ur0:/a\r\n")) path := by
  have hlen : (bytes "ur0:/a\r\n").length ≤ 511 := by decide
  refine ⟨reaches_onMemoryCard, hlen, (genFtpFullpath_whole_iff reaches_onMemoryCard hlen).mpr ?_⟩
  rw [onMemoryCard_curPath]
  unfold ResolvesWhole
  decide

/-- `DELE uma0:/a` in `/ux0:/` deletes `/ux0://uma0:/a`. -/
theorem genFtpFullpath_long_device :
    Reaches [(bytes "CWD ux0:\r\n", calmEnv)] onMemoryCard ∧
      NamesDevice (argText (bytes "uma0:/a\r\n")) ∧
      (∃ u, genFtpFullpath calmEnv (onMemoryCard.withArgs (bytes "uma0:/a\r\n")) =
        .ok (bytes "/ux0://uma0:/a") u) ∧
      ¬ ∀ rounds t, Reaches rounds t → ∀ args : CStr, args.length ≤ 511 → ∀ env,
        ∃ path, genFtpFullpath env (t.withArgs args) = .ok path (t.withArgs args) ∧
          WholePath t.client.curPath (argText args) path := by
  have hlen : (bytes "uma0:/a\r\n").length ≤ 511 := by decide
  have hdevice : NamesDevice (argText (bytes "uma0:/a\r\n")) := by decide
  have hpath : fullPath onMemoryCard.client.curPath (ftpName calmEnv (bytes "uma0:/a\r\n")) =
      bytes "/ux0://uma0:/a" := by
    rw [onMemoryCard_curPath]
    decide
  have hrun : genFtpFullpath calmEnv (onMemoryCard.withArgs (bytes "uma0:/a\r\n")) =
      .ok (bytes "/ux0://uma0:/a") (onMemoryCard.withArgs (bytes "uma0:/a\r\n")) := by
    rw [genFtpFullpath_apply calmEnv hlen]
    simp only [Session.withArgs, hpath]
    exact if_pos (by decide)
  refine ⟨reaches_onMemoryCard, hdevice, ⟨_, hrun⟩, fun hall => ?_⟩
  obtain ⟨path, hok, hwhole⟩ := hall _ _ reaches_onMemoryCard _ hlen calmEnv
  obtain ⟨rfl, -⟩ := EStateM.Result.ok.inj (hrun.symm.trans hok)
  exact absurd (hwhole.device hdevice) (by decide)

end VitaConnect.Ftp
