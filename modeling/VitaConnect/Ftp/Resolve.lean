import VitaConnect.CString.Separators
import VitaConnect.Ftp.Invariant

/-! # The three ways to resolve a path

LIST looks its argument up as it stands, CWD joins it to the current path, and `gen_ftp_fullpath`
joins it too unless it starts with a device name. They agree on arguments that start with a slash, but for
`/` itself, which LIST takes for the current path.
-/
namespace VitaConnect.Ftp
open CString Program
set_option autoImplicit false

/-- The same Vita path up to repeated slashes and a slash at the end. -/
def SameLocation (p q : Option CStr) : Prop := p.map (normal slash) = q.map (normal slash)

/-- The location that RETR, STOR, DELE, RMD, MKD, RNFR, RNTO and SIZE act on. -/
def fileLocation (env : Env) (curPath args : CStr) : Option CStr :=
  getVitaPath (fullPath curPath (ftpName env args))

/-- The root of the server is always there; any other location is when the file system has it. -/
def LocationExists (env : Env) (location : Option CStr) : Prop :=
  location = none ∨ fileExists env location

/-- LIST, when what its argument names exists, and CWD, when it moves, go where the others act. -/
structure LocationsAgree (env : Env) (curPath args : CStr) : Prop where
  list : LocationExists env (fileLocation env curPath args) →
    SameLocation (getVitaPath (listPath env curPath args)) (fileLocation env curPath args)
  cwd : ∀ path, cwdTarget env curPath args = some path →
    SameLocation (getVitaPath path) (fileLocation env curPath args)

theorem fileLocation_eq {args name : CStr} (h : scanSet argStops args = some name) (env : Env)
    (curPath : CStr) : fileLocation env curPath args = getVitaPath (fullPath curPath name) := by
  rw [fileLocation, ftpName, h, Option.getD_some]

theorem listPath_eq {args name : CStr} (h : scanSet argStops args = some name) {env : Env}
    (hex : fileExists env (getVitaPath name)) (curPath : CStr) : listPath env curPath args = name := by
  rw [listPath, h]
  exact if_pos hex

/-- An argument of one byte is no path to `get_vita_path`, and LIST falls back to `cur_path`. -/
theorem listPath_single {args : CStr} {a : Byte} (h : scanSet argStops args = some [a]) {env : Env}
    (hnull : env.sceIoGetstat none = none) (curPath : CStr) : listPath env curPath args = curPath := by
  rw [listPath, h]
  apply if_neg
  rw [getVitaPath_singleton, fileExists, hnull]
  simp

theorem curPath_eq_cons {curPath : CStr} (h : CurPathInv curPath) :
    ∃ p, curPath = slash :: p := by
  cases curPath with
  | nil => exact absurd h.absolute (by simp)
  | cons a p =>
    obtain rfl : a = slash := by simpa using h.absolute
    exact ⟨p, rfl⟩

/-! ## Arguments that start with a slash -/

theorem addSlash_sameLocation {p : CStr} (hp : p ≠ [slash]) :
    SameLocation (getVitaPath (addSlash p)) (getVitaPath p) := by
  unfold addSlash
  split
  · next h =>
    obtain ⟨hhead, hcount⟩ := (strrchr_eq_zero_iff p slash).mp h
    cases p with
    | nil => simp at hhead
    | cons a p =>
      cases p with
      | nil =>
        obtain rfl : a = slash := by simpa using hhead
        exact absurd rfl hp
      | cons b p =>
        rw [List.cons_append, List.cons_append, getVitaPath_cons_cons, getVitaPath_cons_cons,
          ← List.cons_append]
        exact congrArg some (normal_append_singleton (b :: p))
  · rfl

theorem locationExists_root (env : Env) : LocationExists env none := Or.inl rfl

theorem eq_cons_cons_of_absolute {name : CStr} (habs : name.head? = some slash)
    (hroot : name ≠ [slash]) : ∃ b q, name = slash :: b :: q := by
  cases name with
  | nil => simp at habs
  | cons a q =>
    obtain rfl : a = slash := by simpa using habs
    cases q with
    | nil => exact absurd rfl hroot
    | cons b q => exact ⟨b, q, rfl⟩

theorem list_of_absolute {args name : CStr} (h : scanSet argStops args = some name)
    (habs : name.head? = some slash) (hroot : name ≠ [slash]) {env : Env} {curPath : CStr}
    (hex : LocationExists env (fileLocation env curPath args)) :
    SameLocation (getVitaPath (listPath env curPath args)) (fileLocation env curPath args) := by
  have hfull : fullPath curPath name = name := if_pos habs
  rw [fileLocation_eq h, hfull] at hex ⊢
  obtain ⟨b, q, rfl⟩ := eq_cons_cons_of_absolute habs hroot
  have hthere : fileExists env (getVitaPath (slash :: b :: q)) := by
    apply hex.resolve_left
    rw [getVitaPath_cons_cons]
    simp
  rw [listPath_eq h hthere]
  exact rfl

theorem cwd_of_absolute {args name path : CStr} (h : scanSet argStops args = some name)
    (habs : name.head? = some slash) {env : Env} {curPath : CStr}
    (hpath : cwdTarget env curPath args = some path) :
    SameLocation (getVitaPath path) (fileLocation env curPath args) := by
  have hfull : fullPath curPath name = name := if_pos habs
  have hjoin : cwdJoin curPath name = name := if_pos habs
  have hdot : name ≠ dotDot := by
    rintro rfl
    exact absurd habs (by decide)
  rw [fileLocation_eq h, hfull]
  simp only [cwdTarget, h, hjoin, hdot, if_false] at hpath
  split_ifs at hpath with hroot
  · obtain rfl := Option.some.inj hpath
    rw [hroot]
    exact rfl
  · obtain rfl := Option.some.inj hpath
    exact addSlash_sameLocation hroot

theorem locationsAgree_of_absolute {args name : CStr} (h : scanSet argStops args = some name)
    (habs : name.head? = some slash) (hroot : name ≠ [slash]) (env : Env) (curPath : CStr) :
    LocationsAgree env curPath args :=
  ⟨list_of_absolute h habs hroot, fun _ => cwd_of_absolute h habs⟩

/-! ## The argument `/` -/

theorem fileLocation_root {args : CStr} (h : scanSet argStops args = some [slash]) (env : Env)
    (curPath : CStr) : fileLocation env curPath args = none := by
  have hfull : fullPath curPath [slash] = [slash] := if_pos rfl
  rw [fileLocation_eq h, hfull]
  exact getVitaPath_singleton slash

/-- LIST of the root lists `cur_path`, so it agrees with CWD and the others only there. -/
theorem locationsAgree_root_iff {args curPath : CStr} (h : scanSet argStops args = some [slash])
    (hcur : CurPathInv curPath) {env : Env} (hnull : env.sceIoGetstat none = none) :
    LocationsAgree env curPath args ↔ curPath = [slash] := by
  constructor
  · intro hagree
    have hlocation := fileLocation_root h env curPath
    have hsame : SameLocation (getVitaPath curPath) none := by
      rw [← listPath_single h hnull curPath, ← hlocation]
      apply hagree.list
      rw [hlocation]
      exact locationExists_root env
    obtain ⟨q, rfl⟩ := curPath_eq_cons hcur
    cases q with
    | nil => rfl
    | cons b q =>
      rw [getVitaPath_cons_cons] at hsame
      exact absurd hsame (by simp [SameLocation])
  · rintro rfl
    refine ⟨fun _ => ?_, fun _ => cwd_of_absolute h rfl⟩
    rw [listPath_single h hnull, fileLocation_root h]
    exact congrArg _ (getVitaPath_singleton slash)

/-! ## Relative arguments -/

def everything : Env :=
  { calmEnv with sceIoGetstat := fun p => p.map fun _ => ⟨0, ⟨2024, 1, 1, 0, 0⟩⟩ }

theorem locationExists_everything (location : Option CStr) : LocationExists everything location := by
  cases location with
  | none => exact locationExists_root everything
  | some p => exact Or.inr rfl

theorem content_eq_of_sameLocation {p q : CStr} (h : SameLocation (some p) (some q)) :
    content slash p = content slash q := by
  rw [← content_normal p, ← content_normal q]
  exact congrArg (content slash) (Option.some.inj h)

theorem content_cons_of_ne {b : Byte} {p : CStr} (h : b ≠ slash) :
    content slash (b :: p) = content slash p + 1 := List.countP_cons_of_pos (by simpa using h)

theorem getVitaPath_cons {a : Byte} {p : CStr} (h : p ≠ []) : getVitaPath (a :: p) = some p := by
  obtain ⟨b, q, rfl⟩ := List.exists_cons_of_ne_nil h
  exact getVitaPath_cons_cons a b q

theorem fullPath_relative {curPath name : CStr} (hcur : CurPathInv curPath)
    (hrel : name.head? ≠ some slash) (hfits : curPath.length + 1 + name.length < pathMax) :
    ∃ p, fullPath curPath name = slash :: p ∧ name <:+ p := by
  obtain ⟨q, rfl⟩ := curPath_eq_cons hcur
  rw [List.length_cons] at hfits
  rw [fullPath, if_neg hrel]
  split
  · refine ⟨name, snprintf_of_fits ?_, List.suffix_refl name⟩
    rw [List.length_cons]
    omega
  · refine ⟨q ++ slash :: name, snprintf_of_fits ?_, ?_⟩
    · simp only [List.cons_append, List.length_cons, List.length_append]
      omega
    · exact (List.suffix_cons slash name).trans (List.suffix_append q _)

/-- LIST loses the first byte of a relative name, and no other command does. -/
theorem not_locationsAgree_of_relative {args curPath : CStr} {a b : Byte} {name : CStr}
    (h : scanSet argStops args = some (a :: b :: name)) (hrel : a ≠ slash)
    (hcur : CurPathInv curPath) (hfits : curPath.length + 1 + (a :: b :: name).length < pathMax) :
    ¬ LocationsAgree everything curPath args := by
  intro hagree
  have hlist : getVitaPath (a :: b :: name) = some (b :: name) := getVitaPath_cons_cons a b name
  have hex : fileExists everything (getVitaPath (a :: b :: name)) := by
    rw [hlist]
    rfl
  have hhead : (a :: b :: name).head? ≠ some slash := by simpa using hrel
  obtain ⟨p, hfull, q, rfl⟩ := fullPath_relative hcur hhead hfits
  have hsame := hagree.list (locationExists_everything _)
  rw [listPath_eq h hex, hlist, fileLocation_eq h, hfull, getVitaPath_cons (by simp)] at hsame
  have hcontent := content_eq_of_sameLocation hsame
  rw [content_append, content_cons_of_ne hrel] at hcontent
  omega

/-- LIST of a relative name of one byte lists `cur_path`, and the other commands go below it. -/
theorem not_locationsAgree_of_single {args curPath : CStr} {a : Byte}
    (h : scanSet argStops args = some [a]) (hrel : a ≠ slash) (hcur : CurPathInv curPath)
    (hfits : curPath.length + 2 < pathMax) : ¬ LocationsAgree everything curPath args := by
  intro hagree
  have hhead : ([a] : CStr).head? ≠ some slash := by simpa using hrel
  have hdevice : isDevicePath [a] = false := rfl
  have hfull : fullPath curPath [a] = curPath ++ [slash, a] := by
    rw [fullPath, if_neg hhead, hdevice]
    exact snprintf_of_fits (by simpa using hfits)
  have hsame := hagree.list (locationExists_everything _)
  rw [listPath_single h rfl, fileLocation_eq h, hfull] at hsame
  obtain ⟨q, rfl⟩ := curPath_eq_cons hcur
  have hbelow : getVitaPath (slash :: q ++ [slash, a]) = some (q ++ [slash, a]) :=
    getVitaPath_cons (by simp)
  rw [hbelow] at hsame
  cases q with
  | nil =>
    rw [getVitaPath_singleton] at hsame
    exact absurd hsame (by simp [SameLocation])
  | cons b q =>
    rw [getVitaPath_cons_cons] at hsame
    have hcontent := content_eq_of_sameLocation hsame
    have hlast : content slash [slash, a] = 1 := by simp [content, hrel]
    rw [content_append, hlast] at hcontent
    omega

/-! ## Agreement -/

theorem locationsAgree_iff {args name curPath : CStr} (h : scanSet argStops args = some name)
    (hcur : CurPathInv curPath) (hfits : curPath.length + 1 + name.length < pathMax) :
    (∀ env, env.sceIoGetstat none = none → LocationsAgree env curPath args) ↔
      name.head? = some slash ∧ (name = [slash] → curPath = [slash]) := by
  by_cases habs : name.head? = some slash
  · by_cases hroot : name = [slash]
    · subst hroot
      constructor
      · exact fun hall => ⟨rfl, fun _ => (locationsAgree_root_iff h hcur rfl).mp (hall everything rfl)⟩
      · exact fun hc env hnull => (locationsAgree_root_iff h hcur hnull).mpr (hc.2 rfl)
    · refine iff_of_true (fun env _ => ?_) ⟨habs, fun hc => absurd hc hroot⟩
      exact locationsAgree_of_absolute h habs hroot env curPath
  · refine iff_of_false (fun hall => ?_) (fun hc => habs hc.1)
    have hagree := hall everything rfl
    rcases name with - | ⟨a, - | ⟨b, name⟩⟩
    · exact scanSet_ne_nil h rfl
    · have hrel : a ≠ slash := by simpa using habs
      exact not_locationsAgree_of_single h hrel hcur hfits hagree
    · have hrel : a ≠ slash := by simpa using habs
      exact not_locationsAgree_of_relative h hrel hcur hfits hagree

theorem reaches_root : Reaches [] { newSession with trace := [.ctrlSend greeting] } :=
  ⟨newSession, fresh_newSession, rfl⟩

/-- **When the three resolvers agree.** Over all sessions they agree on the arguments that start with
a slash and are not `/`; in one session, as long as the join fits, also on `/` at the root. -/
theorem resolvers_agree_iff (args name : CStr) (h : scanSet argStops args = some name)
    (hargs : args.length ≤ 511) :
    ((∀ rounds s, Reaches rounds s → ∀ env, env.sceIoGetstat none = none →
        LocationsAgree env s.client.curPath args) ↔ name.head? = some slash ∧ name ≠ [slash]) ∧
      ∀ rounds s, Reaches rounds s → s.client.curPath.length + 1 + name.length < pathMax →
        ((∀ env, env.sceIoGetstat none = none → LocationsAgree env s.client.curPath args) ↔
          name.head? = some slash ∧ (name = [slash] → s.client.curPath = [slash])) := by
  have hname : name.length ≤ 511 := (scanSet_length_le h).trans hargs
  refine ⟨⟨fun hall => ?_, fun hc rounds s _ env _ =>
    locationsAgree_of_absolute h hc.1 hc.2 env _⟩, fun rounds s hs hfits =>
    locationsAgree_iff h (reaches_curPathInv hs) hfits⟩
  -- the session behind a CWD stands in `/ux0:/`, where the join fits
  have hcur := reaches_curPathInv reaches_onMemoryCard
  have haway := hall _ _ reaches_onMemoryCard
  rw [onMemoryCard_curPath] at hcur haway
  have hfits : (bytes "/ux0:/").length + 1 + name.length < pathMax := by
    have hlen : (bytes "/ux0:/").length = 6 := rfl
    simp only [hlen, pathMax]
    omega
  obtain ⟨habs, hroot⟩ := (locationsAgree_iff h hcur hfits).mp haway
  refine ⟨habs, fun hc => ?_⟩
  exact absurd (hroot hc) (by decide)

theorem resolvers_agree_iff_device :
    scanSet argStops (bytes "/ux0:/a\r\n") = some (bytes "/ux0:/a") ∧
      (bytes "/ux0:/a\r\n").length ≤ 511 ∧
      ∀ rounds s, Reaches rounds s → ∀ env, env.sceIoGetstat none = none →
        LocationsAgree env s.client.curPath (bytes "/ux0:/a\r\n") := by
  have hscan : scanSet argStops (bytes "/ux0:/a\r\n") = some (bytes "/ux0:/a") := by decide
  have hlen : (bytes "/ux0:/a\r\n").length ≤ 511 := by decide
  exact ⟨hscan, hlen, (resolvers_agree_iff _ _ hscan hlen).1.mpr (by decide)⟩

/-- From the root, LIST ab lists `b`, CWD ab enters `ab/` and RETR ab reads `/ab`. Behind CWD ux0: LIST
of the root lists `ux0:/` in every file system. -/
theorem resolvers_disagree_root :
    (Reaches [] { newSession with trace := [.ctrlSend greeting] } ∧
      getVitaPath (listPath everything [slash] (bytes "ab\r\n")) = some (bytes "b") ∧
      cwdTarget everything [slash] (bytes "ab\r\n") = some (bytes "/ab/") ∧
      fileLocation everything [slash] (bytes "ab\r\n") = some (bytes "/ab") ∧
      ¬ LocationsAgree everything [slash] (bytes "ab\r\n")) ∧
    Reaches [(bytes "CWD ux0:\r\n", calmEnv)] onMemoryCard ∧
      ∀ env, env.sceIoGetstat none = none →
        getVitaPath (listPath env onMemoryCard.client.curPath (bytes "/\r\n")) = some (bytes "ux0:/") ∧
        cwdTarget env onMemoryCard.client.curPath (bytes "/\r\n") = some [slash] ∧
        ¬ LocationsAgree env onMemoryCard.client.curPath (bytes "/\r\n") := by
  have hscan : scanSet argStops (bytes "/\r\n") = some [slash] := by decide
  have hcur := reaches_curPathInv reaches_onMemoryCard
  refine ⟨⟨reaches_root, by decide, by decide, by decide, fun hagree => ?_⟩, reaches_onMemoryCard,
    fun env hnull => ?_⟩
  · have hsame := hagree.list (locationExists_everything _)
    exact absurd hsame (by unfold SameLocation; decide)
  · rw [listPath_single hscan hnull, locationsAgree_root_iff hscan hcur hnull, onMemoryCard_curPath]
    refine ⟨by decide, ?_, by decide⟩
    rw [cwdTarget, hscan]
    exact if_pos rfl

end VitaConnect.Ftp
