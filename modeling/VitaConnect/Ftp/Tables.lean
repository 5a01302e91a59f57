import VitaConnect.Ftp.Dispatch
import VitaConnect.Ftp.Server
import VitaConnect.Program.History
import VitaConnect.Storage.SlotTable

/-! # The devices and the custom commands (`ftpvita_add_device`, `ftpvita_del_device`,
`ftpvita_ext_add_custom_command`, `ftpvita_ext_del_custom_command`)

Both tables are used as bags of at most 16 names. The searches of the two delete functions do not look
at the flag that says whether a slot is in use.
-/
namespace VitaConnect.Ftp
open CString Program Storage
set_option autoImplicit false

def ftpvitaDelDevice (devname : CStr) (s : Server) : ℤ × Server :=
  match (List.finRange maxDevices).find? fun i => (s.deviceList i).name == devname with
  | some i =>
    (1, { s with deviceList := Function.update s.deviceList i { s.deviceList i with valid := false } })
  | none => (0, s)

def ftpvitaExtAddCustomCommand (cmd : CStr) (func : ℕ) (s : Server) : ℤ × Server :=
  match (List.finRange maxCustomCommands).find? fun i => !(s.customCommandDispatchers i).valid with
  | some i => (1, { s with
      customCommandDispatchers := Function.update s.customCommandDispatchers i ⟨some cmd, func, true⟩ })
  | none => (0, s)

/-- `none` when `strcmp` is given NULL: the loop ends at the first slot with the name or without one. -/
def ftpvitaExtDelCustomCommand (cmd : CStr) (s : Server) : Option (ℤ × Server) :=
  match (List.finRange maxCustomCommands).find? fun i =>
      (s.customCommandDispatchers i).cmd.all (· == cmd) with
  | some i =>
    match (s.customCommandDispatchers i).cmd with
    | none => none
    | some _ => some (1, { s with
        customCommandDispatchers := Function.update s.customCommandDispatchers i
          { s.customCommandDispatchers i with valid := false } })
  | none => some (0, s)

/-- What `get_dispatch_func` compares a command with. -/
def Server.customNames (s : Server) : List (Option CStr) :=
  List.ofFn fun i =>
    if (s.customCommandDispatchers i).valid then (s.customCommandDispatchers i).cmd else none

inductive TableCall
  | addDevice (devname : CStr)
  | delDevice (devname : CStr)
  | addCommand (cmd : CStr) (func : ℕ)
  | delCommand (cmd : CStr)

/-- `none` when the call leaves its arrays: `strcpy` writes past `name`, or `strcmp` is given NULL. -/
def tableStep (s : Server) : TableCall → Option (ℤ × Server)
  | .addDevice devname =>
    if devname.length < pathMax ∨ (ftpvitaAddDevice devname s).1 = 0 then
      some (ftpvitaAddDevice devname s)
    else none
  | .delDevice devname => some (ftpvitaDelDevice devname s)
  | .addCommand cmd func => some (ftpvitaExtAddCustomCommand cmd func s)
  | .delCommand cmd => ftpvitaExtDelCustomCommand cmd s

/-! ## Two bags -/

structure Bags where
  devices : Multiset CStr
  commands : Multiset CStr

def bagStep (b : Bags) : TableCall → ℤ × Bags
  | .addDevice devname =>
    ((Bag.add maxDevices devname b.devices).1, { b with devices := (Bag.add maxDevices devname b.devices).2 })
  | .delDevice devname =>
    ((Bag.remove devname b.devices).1, { b with devices := (Bag.remove devname b.devices).2 })
  | .addCommand cmd _ =>
    ((Bag.add maxCustomCommands cmd b.commands).1,
      { b with commands := (Bag.add maxCustomCommands cmd b.commands).2 })
  | .delCommand cmd =>
    ((Bag.remove cmd b.commands).1, { b with commands := (Bag.remove cmd b.commands).2 })

def DeviceSlot.slot (d : DeviceSlot) : Slot CStr := if d.valid then .live d.name else .stale d.name

def CommandSlot.slot (c : CommandSlot) : Slot CStr :=
  match c.cmd with
  | none => .unset
  | some cmd => if c.valid then .live cmd else .stale cmd

def Server.devices (s : Server) : SlotTable CStr maxDevices := fun i => (s.deviceList i).slot

def Server.commands (s : Server) : SlotTable CStr maxCustomCommands :=
  fun i => (s.customCommandDispatchers i).slot

def Server.bags (s : Server) : Bags := ⟨s.devices.bag, s.commands.bag⟩

/-- A slot in use has a name. -/
def Server.Named (s : Server) : Prop :=
  ∀ i, (s.customCommandDispatchers i).valid = true → (s.customCommandDispatchers i).cmd ≠ none

/-! ## The functions on the tables of slots -/

theorem DeviceSlot.isLive_slot (d : DeviceSlot) : d.slot.isLive = d.valid := by
  unfold DeviceSlot.slot
  cases d.valid <;> rfl

theorem decide_name_eq (name s : CStr) : decide (name = s) = (name == s) := by
  rw [Bool.eq_iff_iff]
  simp

theorem DeviceSlot.stops_slot (d : DeviceSlot) (devname : CStr) :
    d.slot.stops devname = (d.name == devname) := by
  rw [← decide_name_eq, DeviceSlot.slot]
  cases d.valid <;> rfl

theorem CommandSlot.isLive_slot {c : CommandSlot} (h : c.valid = true → c.cmd ≠ none) :
    c.slot.isLive = c.valid := by
  unfold CommandSlot.slot
  cases hcmd : c.cmd with
  | none =>
    cases hvalid : c.valid with
    | false => rfl
    | true => exact absurd hcmd (h hvalid)
  | some cmd => cases c.valid <;> rfl

theorem CommandSlot.stops_slot (c : CommandSlot) (cmd : CStr) :
    c.slot.stops cmd = c.cmd.all (· == cmd) := by
  unfold CommandSlot.slot
  cases c.cmd with
  | none => rfl
  | some name =>
    rw [Option.all_some, ← decide_name_eq]
    cases c.valid <;> rfl

theorem ftpvitaAddDevice_devices (devname : CStr) (s : Server) :
    s.devices.add devname = ((ftpvitaAddDevice devname s).1, (ftpvitaAddDevice devname s).2.devices) := by
  have hfree : (fun i => !(s.devices i).isLive) = fun i => !(s.deviceList i).valid := by
    funext i
    exact congrArg not (s.deviceList i).isLive_slot
  unfold SlotTable.add ftpvitaAddDevice
  rw [hfree]
  cases (List.finRange maxDevices).find? fun i => !(s.deviceList i).valid with
  | none => rfl
  | some i =>
    exact congrArg (Prod.mk 1)
      (Function.comp_update DeviceSlot.slot s.deviceList i ⟨devname, true⟩).symm

theorem ftpvitaDelDevice_devices (devname : CStr) (s : Server) :
    s.devices.remove devname =
      some ((ftpvitaDelDevice devname s).1, (ftpvitaDelDevice devname s).2.devices) := by
  have hstops : (fun i => (s.devices i).stops devname) = fun i => (s.deviceList i).name == devname := by
    funext i
    exact (s.deviceList i).stops_slot devname
  cases hfind : (List.finRange maxDevices).find? fun i => (s.deviceList i).name == devname with
  | none =>
    rw [SlotTable.remove, hstops, ftpvitaDelDevice, hfind]
  | some i =>
    have hname : (s.deviceList i).name = devname := by
      simpa using (find_finRange_eq_some_iff.mp hfind).1
    have hset : s.devices i ≠ .unset := by
      show (s.deviceList i).slot ≠ .unset
      unfold DeviceSlot.slot
      cases (s.deviceList i).valid <;> simp
    have hslot : ({ s.deviceList i with valid := false } : DeviceSlot).slot = .stale devname :=
      congrArg Slot.stale hname
    rw [remove_of_find (hstops ▸ hfind), if_neg hset, ftpvitaDelDevice, hfind, ← hslot]
    exact congrArg (fun t => some (1, t))
      (Function.comp_update DeviceSlot.slot s.deviceList i { s.deviceList i with valid := false }).symm

theorem ftpvitaExtAddCustomCommand_commands {s : Server} (h : s.Named) (cmd : CStr) (func : ℕ) :
    s.commands.add cmd = ((ftpvitaExtAddCustomCommand cmd func s).1,
      (ftpvitaExtAddCustomCommand cmd func s).2.commands) := by
  have hfree : (fun i => !(s.commands i).isLive) =
      fun i => !(s.customCommandDispatchers i).valid := by
    funext i
    exact congrArg not (CommandSlot.isLive_slot (h i))
  unfold SlotTable.add ftpvitaExtAddCustomCommand
  rw [hfree]
  cases (List.finRange maxCustomCommands).find? fun i => !(s.customCommandDispatchers i).valid with
  | none => rfl
  | some i =>
    exact congrArg (Prod.mk 1) (Function.comp_update CommandSlot.slot s.customCommandDispatchers i
      ⟨some cmd, func, true⟩).symm

theorem ftpvitaExtDelCustomCommand_commands (cmd : CStr) (s : Server) :
    s.commands.remove cmd =
      (ftpvitaExtDelCustomCommand cmd s).map fun r => (r.1, r.2.commands) := by
  have hstops : (fun i => (s.commands i).stops cmd) =
      fun i => (s.customCommandDispatchers i).cmd.all (· == cmd) := by
    funext i
    exact (s.customCommandDispatchers i).stops_slot cmd
  cases hfind : (List.finRange maxCustomCommands).find? fun i =>
      (s.customCommandDispatchers i).cmd.all (· == cmd) with
  | none =>
    rw [SlotTable.remove, hstops, ftpvitaExtDelCustomCommand, hfind]
    rfl
  | some i =>
    have hall := (find_finRange_eq_some_iff.mp hfind).1
    rw [remove_of_find (hstops ▸ hfind)]
    simp only [ftpvitaExtDelCustomCommand, hfind]
    cases hcmd : (s.customCommandDispatchers i).cmd with
    | none =>
      have hunset : s.commands i = .unset := by
        show (s.customCommandDispatchers i).slot = .unset
        rw [CommandSlot.slot, hcmd]
      rw [if_pos hunset]
      rfl
    | some name =>
      obtain rfl : name = cmd := by simpa [hcmd] using hall
      have hset : s.commands i ≠ .unset := by
        show (s.customCommandDispatchers i).slot ≠ .unset
        rw [CommandSlot.slot, hcmd]
        cases (s.customCommandDispatchers i).valid <;> simp
      have hslot : CommandSlot.slot ⟨some name, (s.customCommandDispatchers i).func, false⟩ =
          .stale name := rfl
      rw [if_neg hset, ← hslot]
      exact congrArg (fun t => some (1, t)) (Function.comp_update CommandSlot.slot
        s.customCommandDispatchers i ⟨some name, (s.customCommandDispatchers i).func, false⟩).symm

/-! ## Runs -/

/-- One call, and what the calls so far have returned. -/
def tableRound (r : Option (List ℤ × Server)) (c : TableCall) : Option (List ℤ × Server) :=
  r.bind fun r => (tableStep r.2 c).map fun t => (r.1 ++ [t.1], t.2)

def bagRound (r : List ℤ × Bags) (c : TableCall) : List ℤ × Bags :=
  (r.1 ++ [(bagStep r.2 c).1], (bagStep r.2 c).2)

def runTables (s : Server) (cs : List TableCall) : Option (List ℤ × Server) :=
  replay tableRound (some ([], s)) cs

def runBags (b : Bags) (cs : List TableCall) : List ℤ × Bags := replay bagRound ([], b) cs

def FindsCustom (s : Server) (cmd : CStr) : Prop :=
  ∃ slot, getDispatchFunc s.customNames cmd = some (.custom slot)

/-- The calls return what the calls on two bags return, and the tables hold what the bags hold. -/
def BagLike (s : Server) (cs : List TableCall) : Prop :=
  ∃ rets u, runTables s cs = some (rets, u) ∧ runBags s.bags cs = (rets, u.bags) ∧
    u.bags.devices.card ≤ maxDevices ∧ u.bags.commands.card ≤ maxCustomCommands ∧
    ∀ cmd, FindsCustom u cmd ↔ cmd ∈ u.bags.commands ∧ lookup cmd = none

/-- The device's name fits its array or is not stored; and the first slot at which a search for the
name ends, in use or not, is one in use. -/
def TableCall.Meets (s : Server) : TableCall → Prop
  | .addDevice devname => devname.length < pathMax ∨ s.devices.bag.card = maxDevices
  | .delDevice devname => s.devices.FirstLive devname
  | .addCommand _ _ => True
  | .delCommand cmd => s.commands.FirstLive cmd

def StepsAsBags (s : Server) (c : TableCall) : Prop :=
  ∃ ret u, tableStep s c = some (ret, u) ∧ bagStep s.bags c = (ret, u.bags)

/-! ## One call -/

theorem ftpvitaAddDevice_commands (devname : CStr) (s : Server) :
    (ftpvitaAddDevice devname s).2.commands = s.commands := by
  unfold ftpvitaAddDevice
  split <;> rfl

theorem ftpvitaDelDevice_commands (devname : CStr) (s : Server) :
    (ftpvitaDelDevice devname s).2.commands = s.commands := by
  unfold ftpvitaDelDevice
  split <;> rfl

theorem ftpvitaExtAddCustomCommand_devices (cmd : CStr) (func : ℕ) (s : Server) :
    (ftpvitaExtAddCustomCommand cmd func s).2.devices = s.devices := by
  unfold ftpvitaExtAddCustomCommand
  split <;> rfl

theorem ftpvitaExtDelCustomCommand_devices {cmd : CStr} {s u : Server} {ret : ℤ}
    (h : ftpvitaExtDelCustomCommand cmd s = some (ret, u)) : u.devices = s.devices := by
  unfold ftpvitaExtDelCustomCommand at h
  split at h
  · split at h
    · cases h
    · obtain ⟨-, rfl⟩ := Prod.mk.inj (Option.some.inj h)
      rfl
  · obtain ⟨-, rfl⟩ := Prod.mk.inj (Option.some.inj h)
    rfl

theorem bags_devices_iff {s u : Server} (h : u.commands = s.commands) (r : ℤ × Multiset CStr) (ret : ℤ) :
    (r.1, { s.bags with devices := r.2 }) = (ret, u.bags) ↔ r = (ret, u.devices.bag) := by
  simp [Server.bags, h, Prod.ext_iff]

theorem bags_commands_iff {s u : Server} (h : u.devices = s.devices) (r : ℤ × Multiset CStr) (ret : ℤ) :
    (r.1, { s.bags with commands := r.2 }) = (ret, u.bags) ↔ r = (ret, u.commands.bag) := by
  simp [Server.bags, h, Prod.ext_iff]

theorem ftpvitaAddDevice_bag (devname : CStr) (s : Server) :
    Bag.add maxDevices devname s.devices.bag =
      ((ftpvitaAddDevice devname s).1, (ftpvitaAddDevice devname s).2.devices.bag) := by
  rw [← add_bag, ftpvitaAddDevice_devices]

theorem ftpvitaAddDevice_full_iff (devname : CStr) (s : Server) :
    (ftpvitaAddDevice devname s).1 = 0 ↔ s.devices.bag.card = maxDevices := by
  have hret := congrArg Prod.fst (ftpvitaAddDevice_bag devname s)
  have hle := card_bag_le s.devices
  rw [← hret, Bag.add]
  split
  · next h => exact iff_of_false one_ne_zero h.ne
  · next h => exact iff_of_true rfl (by omega)

theorem stepsAsBags_addDevice_iff (devname : CStr) (s : Server) :
    StepsAsBags s (.addDevice devname) ↔ (TableCall.addDevice devname).Meets s := by
  have hbag := (bags_devices_iff (ftpvitaAddDevice_commands devname s) _ _).mpr
    (ftpvitaAddDevice_bag devname s)
  have hmeets : (TableCall.addDevice devname).Meets s ↔
      devname.length < pathMax ∨ (ftpvitaAddDevice devname s).1 = 0 :=
    or_congr_right (ftpvitaAddDevice_full_iff devname s).symm
  rw [hmeets]
  by_cases hfit : devname.length < pathMax ∨ (ftpvitaAddDevice devname s).1 = 0
  · exact iff_of_true ⟨_, _, if_pos hfit, hbag⟩ hfit
  · refine iff_of_false ?_ hfit
    rintro ⟨ret, u, hstep, -⟩
    rw [tableStep, if_neg hfit] at hstep
    cases hstep

theorem stepsAsBags_delDevice_iff (devname : CStr) (s : Server) :
    StepsAsBags s (.delDevice devname) ↔ (TableCall.delDevice devname).Meets s := by
  have hbag := bags_devices_iff (ftpvitaDelDevice_commands devname s)
    (Bag.remove devname s.devices.bag) (ftpvitaDelDevice devname s).1
  refine Iff.trans ?_ (remove_bag_iff devname s.devices)
  rw [ftpvitaDelDevice_devices]
  constructor
  · rintro ⟨ret, u, hstep, hbags⟩
    obtain ⟨rfl, rfl⟩ := Prod.ext_iff.mp (Option.some.inj hstep)
    exact ⟨_, _, rfl, hbag.mp hbags⟩
  · rintro ⟨ret, t, hret, hbags⟩
    obtain ⟨rfl, rfl⟩ := Prod.mk.inj (Option.some.inj hret)
    exact ⟨_, _, rfl, hbag.mpr hbags⟩

theorem stepsAsBags_addCommand {s : Server} (h : s.Named) (cmd : CStr) (func : ℕ) :
    StepsAsBags s (.addCommand cmd func) := by
  have hbag : Bag.add maxCustomCommands cmd s.commands.bag =
      ((ftpvitaExtAddCustomCommand cmd func s).1,
        (ftpvitaExtAddCustomCommand cmd func s).2.commands.bag) := by
    rw [← add_bag, ftpvitaExtAddCustomCommand_commands h cmd func]
  exact ⟨_, _, rfl,
    (bags_commands_iff (ftpvitaExtAddCustomCommand_devices cmd func s) _ _).mpr hbag⟩

theorem stepsAsBags_delCommand_iff (cmd : CStr) (s : Server) :
    StepsAsBags s (.delCommand cmd) ↔ (TableCall.delCommand cmd).Meets s := by
  refine Iff.trans ?_ (remove_bag_iff cmd s.commands)
  rw [ftpvitaExtDelCustomCommand_commands]
  constructor
  · rintro ⟨ret, u, hstep, hbags⟩
    have hdevices := ftpvitaExtDelCustomCommand_devices hstep
    refine ⟨ret, u.commands, ?_, (bags_commands_iff hdevices _ _).mp hbags⟩
    rw [show ftpvitaExtDelCustomCommand cmd s = some (ret, u) from hstep]
    rfl
  · rintro ⟨ret, t, hret, hbags⟩
    obtain ⟨⟨ret', u⟩, hstep, heq⟩ := Option.map_eq_some_iff.mp hret
    obtain ⟨rfl, rfl⟩ := Prod.mk.inj heq
    exact ⟨_, u, hstep,
      (bags_commands_iff (ftpvitaExtDelCustomCommand_devices hstep) _ _).mpr hbags⟩

theorem stepsAsBags_iff {s : Server} (h : s.Named) (c : TableCall) : StepsAsBags s c ↔ c.Meets s := by
  cases c with
  | addDevice devname => exact stepsAsBags_addDevice_iff devname s
  | delDevice devname => exact stepsAsBags_delDevice_iff devname s
  | addCommand cmd func => exact iff_of_true (stepsAsBags_addCommand h cmd func) trivial
  | delCommand cmd => exact stepsAsBags_delCommand_iff cmd s

/-! ## Sequences of calls -/

theorem Server.Named.update {s : Server} (h : s.Named) (i : Fin maxCustomCommands) {c : CommandSlot}
    (hc : c.valid = true → c.cmd ≠ none) :
    Server.Named { s with customCommandDispatchers := Function.update s.customCommandDispatchers i c } := by
  intro j
  show (Function.update s.customCommandDispatchers i c j).valid = true → _
  by_cases hj : j = i
  · subst hj
    rw [Function.update_self]
    intro hvalid hnone
    exact hc hvalid (by simpa using hnone)
  · rw [Function.update_of_ne hj]
    intro hvalid hnone
    exact h j hvalid (by simpa [Function.update_of_ne hj] using hnone)

theorem tableStep_named {s u : Server} {c : TableCall} {ret : ℤ} (h : s.Named)
    (hstep : tableStep s c = some (ret, u)) : u.Named := by
  cases c with
  | addDevice devname =>
    rw [tableStep] at hstep
    split at hstep
    · obtain ⟨-, rfl⟩ := Prod.ext_iff.mp (Option.some.inj hstep)
      unfold ftpvitaAddDevice
      split <;> exact h
    · cases hstep
  | delDevice devname =>
    obtain ⟨-, rfl⟩ := Prod.ext_iff.mp (Option.some.inj hstep)
    unfold ftpvitaDelDevice
    split <;> exact h
  | addCommand cmd func =>
    obtain ⟨-, rfl⟩ := Prod.ext_iff.mp (Option.some.inj hstep)
    unfold ftpvitaExtAddCustomCommand
    split
    · exact h.update _ fun _ => by simp
    · exact h
  | delCommand cmd =>
    rw [tableStep, ftpvitaExtDelCustomCommand] at hstep
    split at hstep
    · split at hstep
      · cases hstep
      · obtain ⟨-, rfl⟩ := Prod.ext_iff.mp (Option.some.inj hstep)
        exact h.update _ (by simp)
    · obtain ⟨-, rfl⟩ := Prod.ext_iff.mp (Option.some.inj hstep)
      exact h

theorem runTables_snoc (s : Server) (cs : List TableCall) (c : TableCall) :
    runTables s (cs ++ [c]) = tableRound (runTables s cs) c := replay_snoc cs c

theorem runBags_snoc (b : Bags) (cs : List TableCall) (c : TableCall) :
    runBags b (cs ++ [c]) = bagRound (runBags b cs) c := replay_snoc cs c

theorem tableRound_eq_some {r : Option (List ℤ × Server)} {c : TableCall} {rets : List ℤ} {v : Server}
    (h : tableRound r c = some (rets, v)) : ∃ rets' u ret, r = some (rets', u) ∧
      tableStep u c = some (ret, v) ∧ rets = rets' ++ [ret] := by
  obtain ⟨⟨rets', u⟩, hr, hstep⟩ := Option.bind_eq_some_iff.mp h
  obtain ⟨⟨ret, w⟩, hret, heq⟩ := Option.map_eq_some_iff.mp hstep
  obtain ⟨rfl, rfl⟩ := Prod.mk.inj heq
  exact ⟨rets', u, ret, hr, hret, rfl⟩

theorem runTables_named {s u : Server} {cs : List TableCall} {rets : List ℤ} (h : s.Named)
    (hrun : runTables s cs = some (rets, u)) : u.Named := by
  induction cs using List.reverseRecOn generalizing rets u with
  | nil =>
    obtain ⟨-, rfl⟩ := Prod.mk.inj (Option.some.inj hrun)
    exact h
  | append_singleton cs c ih =>
    rw [runTables_snoc] at hrun
    obtain ⟨rets', v, ret, hv, hstep, -⟩ := tableRound_eq_some hrun
    exact tableStep_named (ih hv) hstep

theorem findsCustom_iff {s : Server} (h : s.Named) (cmd : CStr) :
    FindsCustom s cmd ↔ cmd ∈ s.bags.commands ∧ lookup cmd = none := by
  have hmem : cmd ∈ s.bags.commands ↔ some cmd ∈ s.customNames := by
    rw [Server.customNames, List.mem_ofFn, show s.bags.commands = s.commands.bag from rfl, mem_bag_iff]
    apply exists_congr
    intro i
    have hset := h i
    show (s.customCommandDispatchers i).slot = _ ↔ _
    unfold CommandSlot.slot
    cases hcmd : (s.customCommandDispatchers i).cmd <;>
      cases hvalid : (s.customCommandDispatchers i).valid <;> simp
  unfold FindsCustom getDispatchFunc lookup
  rw [hmem]
  cases cmdDispatchTable.find? (·.1 == cmd) with
  | some entry => simp
  | none =>
    simp only [Option.map_none, and_true]
    constructor
    · rintro ⟨slot, hslot⟩
      obtain ⟨i, hi, -⟩ := Option.map_eq_some_iff.mp hslot
      obtain ⟨hlt, heq, -⟩ := List.findIdx?_eq_some_iff_getElem.mp hi
      rw [beq_iff_eq] at heq
      exact heq ▸ List.getElem_mem hlt
    · intro hin
      have hsome : (s.customNames.findIdx? (· == some cmd)).isSome := by
        rw [List.findIdx?_isSome, List.any_eq_true]
        exact ⟨_, hin, beq_self_eq_true _⟩
      obtain ⟨i, hi⟩ := Option.isSome_iff_exists.mp hsome
      exact ⟨i, by rw [hi, Option.map_some]⟩

theorem bagLike_nil {s : Server} (h : s.Named) : BagLike s [] :=
  ⟨[], s, rfl, rfl, card_bag_le s.devices, card_bag_le s.commands, findsCustom_iff h⟩

theorem bagLike_snoc_iff {s u : Server} {cs : List TableCall} {rets : List ℤ} (h : s.Named)
    (hrun : runTables s cs = some (rets, u)) (hbags : runBags s.bags cs = (rets, u.bags))
    (c : TableCall) : BagLike s (cs ++ [c]) ↔ c.Meets u := by
  have hnamed := runTables_named h hrun
  rw [← stepsAsBags_iff hnamed]
  unfold BagLike
  rw [runTables_snoc, runBags_snoc, hrun, hbags]
  constructor
  · rintro ⟨rets', v, hround, hbag, -⟩
    obtain ⟨rets'', u', ret, heq, hstep, rfl⟩ := tableRound_eq_some hround
    obtain ⟨rfl, rfl⟩ := Prod.mk.inj (Option.some.inj heq)
    obtain ⟨hret, hv⟩ := Prod.mk.inj hbag
    have hlast := List.append_cancel_left hret
    exact ⟨ret, v, hstep, Prod.ext (List.cons.inj hlast).1 hv⟩
  · rintro ⟨ret, v, hstep, hbag⟩
    refine ⟨rets ++ [ret], v, ?_, ?_, card_bag_le v.devices, card_bag_le v.commands,
      findsCustom_iff (tableStep_named hnamed hstep)⟩
    · rw [tableRound, Option.bind_some, hstep]
      rfl
    · rw [bagRound, hbag]

/-- After `ftpvita_init` no slot is in use. -/
theorem ftpvitaInit_cleared {s : Server} {a : InitAnswers} (h : (ftpvitaInit a s).1 = 0) :
    (∀ i, ((ftpvitaInit a s).2.deviceList i).valid = false) ∧
      ∀ i, ((ftpvitaInit a s).2.customCommandDispatchers i).valid = false := by
  have hnetctl : ∀ t : Server, (initNetCtl a t).1 = 0 →
      (∀ i, ((initNetCtl a t).2.deviceList i).valid = false) ∧
        ∀ i, ((initNetCtl a t).2.customCommandDispatchers i).valid = false := by
    intro t ht
    unfold initNetCtl at ht ⊢
    dsimp only at ht ⊢
    split_ifs at ht ⊢ with hfail hinfo
    · exact absurd ht (ne_of_lt hfail.1)
    · exact absurd ht (ne_of_lt hinfo)
    · exact ⟨fun _ => rfl, fun _ => rfl⟩
  unfold ftpvitaInit at h ⊢
  split_ifs at h ⊢ with hrun hstat hnotinit hneg
  · exact absurd h (neg_ne_zero.mpr one_ne_zero)
  · exact hnetctl _ h
  · exact absurd h (ne_of_lt hneg)
  · exact hnetctl _ h
  · exact absurd h hstat

/-- **When the tables behave as bags.** Every sequence of calls after `ftpvita_init` does what it does on
two bags of at most 16 names, as far as each call meets its condition in the tables it finds. -/
theorem tables_bagLike_iff {s : Server} {a : InitAnswers} (hinit : (ftpvitaInit a s).1 = 0)
    (cs : List TableCall) :
    (∀ p, p <+: cs → BagLike (ftpvitaInit a s).2 p) ↔
      ∀ p c, p ++ [c] <+: cs → ∀ rets u, runTables (ftpvitaInit a s).2 p = some (rets, u) →
        c.Meets u := by
  have hnamed : (ftpvitaInit a s).2.Named := by
    intro i hvalid
    exact absurd (((ftpvitaInit_cleared hinit).2 i).symm.trans hvalid) Bool.false_ne_true
  constructor
  · intro hall p c hp rets u hrun
    obtain ⟨rets', u', hrun', hbags, -⟩ := hall p ((List.prefix_append p [c]).trans hp)
    obtain ⟨rfl, rfl⟩ := Prod.mk.inj (Option.some.inj (hrun.symm.trans hrun'))
    exact (bagLike_snoc_iff hnamed hrun hbags c).mp (hall _ hp)
  · intro hall p
    induction p using List.reverseRecOn with
    | nil => exact fun _ => bagLike_nil hnamed
    | append_singleton p c ih =>
      intro hp
      obtain ⟨rets, u, hrun, hbags, -⟩ := ih ((List.prefix_append p [c]).trans hp)
      exact (bagLike_snoc_iff hnamed hrun hbags c).mpr (hall p c hp rets u hrun)

theorem status_ok : (0 : ℤ) ≤ 0 := le_rfl

/-- The network is up when the server is started. -/
def networkUp : InitAnswers where
  sceNetShowNetstat := ⟨0, status_ok⟩
  malloc := none
  sceNetInit := ⟨0, status_ok⟩
  sceNetCtlInit := ⟨0, status_ok⟩
  sceNetCtlInetGetInfo := ⟨0, status_ok⟩
  ipAddress := bytes "192.168.1.2"

theorem tables_bagLike_added :
    (ftpvitaInit networkUp Server.start).1 = 0 ∧
      ∀ p, p <+: [.addDevice (bytes "ux0:"), .addCommand (bytes "SITE") 1] →
        BagLike (ftpvitaInit networkUp Server.start).2 p := by
  have hinit : (ftpvitaInit networkUp Server.start).1 = 0 := by decide
  refine ⟨hinit, (tables_bagLike_iff hinit _).mpr ?_⟩
  intro p c hp rets u _
  have hmem : c ∈ [.addDevice (bytes "ux0:"), .addCommand (bytes "SITE") 1] :=
    hp.subset (by simp)
  rcases List.mem_pair.mp hmem with rfl | rfl
  · exact Or.inl (by decide)
  · trivial

/-- The second deletion of a device succeeds, and the first one of a command compares NULL. -/
theorem tables_not_bagLike :
    ((runTables (ftpvitaInit networkUp Server.start).2 [.addDevice (bytes "ux0:"),
      .delDevice (bytes "ux0:"), .delDevice (bytes "ux0:")]).map Prod.fst = some [1, 1, 1]) ∧
    ((runTables (ftpvitaInit networkUp Server.start).2 [.delCommand (bytes "SITE")]).map Prod.fst =
      none) ∧
    ¬ ∀ (s : Server) (a : InitAnswers) (cs : List TableCall), (ftpvitaInit a s).1 = 0 →
      BagLike (ftpvitaInit a s).2 cs := by
  have hnull : (runTables (ftpvitaInit networkUp Server.start).2 [.delCommand (bytes "SITE")]).map
      Prod.fst = none := by decide +kernel
  refine ⟨by decide +kernel, hnull, fun hall => ?_⟩
  obtain ⟨rets, u, hrun, -⟩ := hall Server.start networkUp [.delCommand (bytes "SITE")] (by decide)
  rw [hrun] at hnull
  cases hnull

end VitaConnect.Ftp
