import Mathlib
import NodeTelemetry.Counter

namespace NodeTelemetry

def bitsAt (w : UInt64) (place count : Nat) : Nat := w.toNat / 2 ^ place % 2 ^ count

theorem toNat_shiftRight_and (w shift mask : UInt64) (count : Nat) (hshift : shift.toNat < 64)
    (hmask : mask.toNat = 2 ^ count - 1) :
    ((w >>> shift) &&& mask).toNat = bitsAt w shift.toNat count := by
  rw [UInt64.toNat_and, UInt64.toNat_shiftRight, hmask, Nat.and_two_pow_sub_one_eq_mod,
    Nat.mod_eq_of_lt hshift, Nat.shiftRight_eq_div_pow, bitsAt]

namespace Temperature

def tjmax (target : UInt64) : Nat := bitsAt target 16 8

def tmax (target : UInt64) : Nat := tjmax target - bitsAt target 8 8

def tpkg (status target : UInt64) : Nat := tjmax target - bitsAt status 16 7

variable (status target : UInt64)

theorem tjmax_lt : tjmax target < 2 ^ 8 := Nat.mod_lt _ (by decide)

theorem tmax_le : tmax target ≤ tjmax target := Nat.sub_le _ _

theorem tpkg_le : tpkg status target ≤ tjmax target := Nat.sub_le _ _

theorem toNat_pack {a b c : UInt64} (ha : a.toNat < 2 ^ 8) (hb : b.toNat < 2 ^ 8)
    (hc : c.toNat < 2 ^ 8) :
    ((a <<< 24) ||| (b <<< 16) ||| c).toNat = 2 ^ 24 * a.toNat + (2 ^ 16 * b.toNat + c.toNat) := by
  have hfirst : (a <<< 24).toNat = 2 ^ 24 * a.toNat := by
    rw [UInt64.toNat_shiftLeft]
    change a.toNat <<< 24 % 2 ^ 64 = _
    rw [Nat.shiftLeft_eq]
    omega
  have hsecond : (b <<< 16).toNat = 2 ^ 16 * b.toNat := by
    rw [UInt64.toNat_shiftLeft]
    change b.toNat <<< 16 % 2 ^ 64 = _
    rw [Nat.shiftLeft_eq]
    omega
  rw [UInt64.toNat_or, UInt64.toNat_or, hfirst, hsecond, Nat.or_assoc,
    ← Nat.two_pow_add_eq_or_of_lt (by omega : c.toNat < 2 ^ 16),
    ← Nat.two_pow_add_eq_or_of_lt (by omega : 2 ^ 16 * b.toNat + c.toNat < 2 ^ 24)]

theorem toNat_packTemperature : (packTemperature status target).toNat =
    2 ^ 24 * tjmax target + (2 ^ 16 * tmax target + tpkg status target) := by
  have hlimit : ((target >>> 16) &&& 0xff).toNat = tjmax target :=
    toNat_shiftRight_and target 16 0xff 8 (by decide) rfl
  have hoffset : ((target >>> 8) &&& 0xff).toNat = bitsAt target 8 8 :=
    toNat_shiftRight_and target 8 0xff 8 (by decide) rfl
  have hreadout : ((status >>> 16) &&& 0x7f).toNat = bitsAt status 16 7 :=
    toNat_shiftRight_and status 16 0x7f 7 (by decide) rfl
  have hthrottling : (satSub ((target >>> 16) &&& 0xff) ((target >>> 8) &&& 0xff)).toNat =
      tmax target := by
    rw [toNat_satSub, hlimit, hoffset, tmax]
  have hpackage : (satSub ((target >>> 16) &&& 0xff) ((status >>> 16) &&& 0x7f)).toNat =
      tpkg status target := by
    rw [toNat_satSub, hlimit, hreadout, tpkg]
  have hlt := tjmax_lt target
  have hmax := tmax_le target
  have hpkg := tpkg_le status target
  unfold packTemperature
  rw [toNat_pack (by omega) (by omega) (by omega), hlimit, hthrottling, hpackage]

theorem packTemperature_lt : (packTemperature status target).toNat < 2 ^ 32 := by
  have hlt := tjmax_lt target
  have hmax := tmax_le target
  have hpkg := tpkg_le status target
  rw [toNat_packTemperature]
  omega

theorem temperatureFields_packTemperature (detail : Bool) :
    temperatureFields detail (packTemperature status target) =
      (if detail then
        [⟨"tjmax", toString (tjmax target)⟩, ⟨"tmax", toString (tmax target)⟩] else []) ++
      [⟨"tpkg", toString (tpkg status target)⟩] := by
  have hlt := tjmax_lt target
  have hmax := tmax_le target
  have hpkg := tpkg_le status target
  have hword := toNat_packTemperature status target
  generalize packTemperature status target = word at hword
  have hfirst : ((word >>> 24) &&& 0xff).toNat = tjmax target := by
    rw [toNat_shiftRight_and word 24 0xff 8 (by decide) rfl, bitsAt, hword]
    change _ / 2 ^ 24 % 2 ^ 8 = _
    omega
  have hsecond : ((word >>> 16) &&& 0xff).toNat = tmax target := by
    rw [toNat_shiftRight_and word 16 0xff 8 (by decide) rfl, bitsAt, hword]
    change _ / 2 ^ 16 % 2 ^ 8 = _
    omega
  have hlast : (word &&& 0xff).toNat = tpkg status target := by
    rw [UInt64.toNat_and, hword]
    change _ &&& 2 ^ 8 - 1 = _
    rw [Nat.and_two_pow_sub_one_eq_mod]
    omega
  simp only [temperatureFields, Field.number, hfirst, hsecond, hlast]

end Temperature

namespace Hardware

def registerScript (h : Hardware) (cpu : Nat) (address : UInt64) : List (Option UInt64) :=
  (((h.registers.find? cpu).getD []).find? address).getD []

variable {cpu cpu' : Nat} {address address' : UInt64}

theorem readRegister_cases (h : Hardware) (cpu : Nat) (address : UInt64) :
    (h.registerScript cpu address = [] ∧ h.readRegister cpu address = (none, h)) ∨
      ∃ file v rest, h.registers.find? cpu = some file ∧ file.find? address = some (v :: rest) ∧
        h.readRegister cpu address =
          (v, { h with registers := h.registers.put cpu (file.put address rest) }) := by
  unfold registerScript readRegister
  rcases hcpu : h.registers.find? cpu with _ | file
  · exact .inl ⟨rfl, rfl⟩
  · rcases hfile : file.find? address with _ | _ | ⟨v, rest⟩
    · exact .inl ⟨by simp [hfile], by simp [hfile]⟩
    · exact .inl ⟨by simp [hfile], by simp [hfile]⟩
    · exact .inr ⟨file, v, rest, rfl, hfile, by simp [hfile]⟩

theorem readRegister_fst (h : Hardware) (cpu : Nat) (address : UInt64) :
    (h.readRegister cpu address).1 = (h.registerScript cpu address).head?.join := by
  rcases h.readRegister_cases cpu address with ⟨hempty, hread⟩ | ⟨file, v, rest, hcpu, hfile, hread⟩
  · rw [hread, hempty]
    rfl
  · rw [hread, registerScript, hcpu, Option.getD_some, hfile]
    rfl

theorem registerScript_readRegister_self (h : Hardware) (cpu : Nat) (address : UInt64) :
    (h.readRegister cpu address).2.registerScript cpu address =
      (h.registerScript cpu address).tail := by
  rcases h.readRegister_cases cpu address with ⟨hempty, hread⟩ | ⟨file, v, rest, hcpu, hfile, hread⟩
  · rw [hread, hempty]
    rfl
  · simp [hread, registerScript, hcpu, hfile]

theorem registerScript_readRegister_of_ne (h : Hardware) (hne : (cpu, address) ≠ (cpu', address')) :
    (h.readRegister cpu address).2.registerScript cpu' address' =
      h.registerScript cpu' address' := by
  rcases h.readRegister_cases cpu address with ⟨-, hread⟩ | ⟨file, v, rest, hcpu, hfile, hread⟩
  · rw [hread]
  · by_cases hc : cpu = cpu'
    · subst hc
      have ha : address ≠ address' := fun ha => hne (congrArg _ ha)
      simp [hread, registerScript, hcpu, Keyed.find?_put_of_ne _ _ ha]
    · simp [hread, registerScript, Keyed.find?_put_of_ne _ _ hc]

def readTemperature (h : Hardware) (cpu : Nat) : Option UInt64 × Hardware :=
  let status := h.readRegister cpu Register.thermalStatus
  match status.1 with
  | none => (none, status.2)
  | some v =>
    let target := status.2.readRegister cpu Register.temperatureTarget
    (target.1.map (packTemperature v), target.2)

def statusScript (h : Hardware) (cpu : Nat) : List (Option UInt64) :=
  h.registerScript cpu Register.thermalStatus

def targetScript (h : Hardware) (cpu : Nat) : List (Option UInt64) :=
  h.registerScript cpu Register.temperatureTarget

theorem registers_ne : (cpu, Register.thermalStatus) ≠ (cpu', Register.temperatureTarget) := by
  simp [Register.thermalStatus, Register.temperatureTarget]

theorem targetScript_readStatus (h : Hardware) (cpu : Nat) :
    (h.readRegister cpu Register.thermalStatus).2.targetScript cpu = h.targetScript cpu :=
  registerScript_readRegister_of_ne h registers_ne

theorem readTemperature_of_none {h : Hardware} (hs : (h.statusScript cpu).head?.join = none) :
    h.readTemperature cpu = (none, (h.readRegister cpu Register.thermalStatus).2) := by
  rw [statusScript, ← readRegister_fst] at hs
  simp only [readTemperature, hs]

theorem readTemperature_of_some {h : Hardware} {v : UInt64}
    (hs : (h.statusScript cpu).head?.join = some v) :
    h.readTemperature cpu =
      ((h.targetScript cpu).head?.join.map (packTemperature v),
        ((h.readRegister cpu Register.thermalStatus).2.readRegister cpu
          Register.temperatureTarget).2) := by
  rw [statusScript, ← readRegister_fst] at hs
  rw [← targetScript_readStatus, targetScript, ← readRegister_fst]
  simp only [readTemperature, hs]

theorem readTemperature_fst (h : Hardware) (cpu : Nat) :
    (h.readTemperature cpu).1 = (h.statusScript cpu).head?.join.bind fun status =>
      (h.targetScript cpu).head?.join.map (packTemperature status) := by
  cases hs : (h.statusScript cpu).head?.join with
  | none =>
    rw [readTemperature_of_none hs]
    rfl
  | some v =>
    rw [readTemperature_of_some hs]
    rfl

theorem statusScript_readTemperature (h : Hardware) (cpu : Nat) :
    (h.readTemperature cpu).2.statusScript cpu = (h.statusScript cpu).tail := by
  cases hs : (h.statusScript cpu).head?.join with
  | none =>
    rw [readTemperature_of_none hs]
    exact registerScript_readRegister_self h cpu _
  | some v =>
    rw [readTemperature_of_some hs, statusScript,
      registerScript_readRegister_of_ne _ registers_ne.symm]
    exact registerScript_readRegister_self h cpu _

theorem targetScript_readTemperature (h : Hardware) (cpu : Nat) :
    (h.readTemperature cpu).2.targetScript cpu =
      if (h.statusScript cpu).head?.join.isSome then (h.targetScript cpu).tail
      else h.targetScript cpu := by
  cases hs : (h.statusScript cpu).head?.join with
  | none =>
    rw [readTemperature_of_none hs]
    exact targetScript_readStatus h cpu
  | some v =>
    rw [readTemperature_of_some hs, targetScript, registerScript_readRegister_self]
    exact congrArg List.tail (targetScript_readStatus h cpu)

theorem registerScript_readTemperature_of_ne (h : Hardware)
    (hstatus : (cpu, Register.thermalStatus) ≠ (cpu', address'))
    (htarget : (cpu, Register.temperatureTarget) ≠ (cpu', address')) :
    (h.readTemperature cpu).2.registerScript cpu' address' = h.registerScript cpu' address' := by
  cases hs : (h.statusScript cpu).head?.join with
  | none =>
    rw [readTemperature_of_none hs]
    exact registerScript_readRegister_of_ne h hstatus
  | some v =>
    rw [readTemperature_of_some hs, registerScript_readRegister_of_ne _ htarget]
    exact registerScript_readRegister_of_ne h hstatus

end Hardware

namespace RegisterCounter

variable {c : RegisterCounter}

theorem read_temperature (hc : c.register = .temperature) (site : Site) :
    c.read site = let found := site.hardware.readTemperature c.cpu
      (found.1, { site with hardware := found.2 }) := by
  have onHardware {α : Type} (use : Hardware → α × Hardware) (site : Site) :
      Site.onHardware use site =
        ((use site.hardware).1, { site with hardware := (use site.hardware).2 }) := rfl
  simp only [read, hc, bind, StateT.bind, onHardware, Hardware.readTemperature]
  rcases site.hardware.readRegister c.cpu Register.thermalStatus with ⟨_ | status, h⟩
  · rfl
  · simp only [bind, StateT.bind, onHardware]
    rcases h.readRegister c.cpu Register.temperatureTarget with ⟨_ | target, h'⟩ <;> rfl

def failed (m : Metrics) : Metrics := { m with rawReadFailures := m.rawReadFailures + 1 }

theorem restart_temperature (hc : c.register = .temperature) (ho : c.opened = true) (site : Site) :
    c.restart site = let found := site.hardware.readTemperature c.cpu
      (found.1.getD 0,
        { site with
          hardware := found.2
          metrics := if found.1.isSome then site.metrics else failed site.metrics }) := by
  have hread := read_temperature hc site
  rcases hfound : site.hardware.readTemperature c.cpu with ⟨_ | v, h⟩
  all_goals
    rw [hfound] at hread
    rw [restart, if_neg (by simp [ho])]
    simp only [bind, StateT.bind, hread]
    rfl

def temperatureAt (status target : List (Option UInt64)) (i : Nat) : Option UInt64 :=
  status[i]?.join.bind fun s =>
    target[(status.take i).countP Option.isSome]?.join.map (packTemperature s)

theorem temperatureAt_zero (status target : List (Option UInt64)) :
    temperatureAt status target 0 =
      status.head?.join.bind fun s => target.head?.join.map (packTemperature s) := by
  simp [temperatureAt, List.head?_eq_getElem?]

theorem temperatureAt_succ (status target : List (Option UInt64)) (i : Nat) :
    temperatureAt status target (i + 1) =
      temperatureAt status.tail (if status.head?.join.isSome then target.tail else target) i := by
  cases status with
  | nil => rfl
  | cons first status =>
    cases first with
    | none => simp [temperatureAt]
    | some s => simp [temperatureAt, Nat.add_comm, List.getElem?_tail]

theorem restart_fst (hc : c.register = .temperature) (ho : c.opened = true) (site : Site) :
    (c.restart site).1 = (temperatureAt (site.hardware.statusScript c.cpu)
      (site.hardware.targetScript c.cpu) 0).getD 0 := by
  rw [restart_temperature hc ho, temperatureAt_zero, ← Hardware.readTemperature_fst]

theorem metrics_restart (hc : c.register = .temperature) (ho : c.opened = true) (site : Site) :
    (c.restart site).2.metrics =
      if (temperatureAt (site.hardware.statusScript c.cpu) (site.hardware.targetScript c.cpu)
        0).isSome then site.metrics else failed site.metrics := by
  rw [restart_temperature hc ho, temperatureAt_zero, ← Hardware.readTemperature_fst]

theorem restart_of_answers (hc : c.register = .temperature) (ho : c.opened = true) {site : Site}
    {s t : UInt64} (hs : (site.hardware.statusScript c.cpu).head?.join = some s)
    (ht : (site.hardware.targetScript c.cpu).head?.join = some t) :
    (c.restart site).1 = packTemperature s t ∧ (c.restart site).2.metrics = site.metrics := by
  rw [restart_fst hc ho, metrics_restart hc ho, temperatureAt_zero, hs, ht]
  exact ⟨rfl, rfl⟩

theorem restart_of_failure (hc : c.register = .temperature) (ho : c.opened = true) {site : Site}
    (hfails : (site.hardware.statusScript c.cpu).head?.join = none ∨
      (site.hardware.targetScript c.cpu).head?.join = none) :
    (c.restart site).1 = 0 ∧ (c.restart site).2.metrics = failed site.metrics := by
  have hnone : temperatureAt (site.hardware.statusScript c.cpu)
      (site.hardware.targetScript c.cpu) 0 = none := by
    rw [temperatureAt_zero]
    rcases hfails with hs | ht
    · rw [hs, Option.bind_none]
    · simp only [ht, Option.map_none, Option.bind_fun_none]
  rw [restart_fst hc ho, metrics_restart hc ho, hnone]
  exact ⟨rfl, rfl⟩

theorem statusScript_restart (hc : c.register = .temperature) (ho : c.opened = true) (site : Site) :
    (c.restart site).2.hardware.statusScript c.cpu = (site.hardware.statusScript c.cpu).tail := by
  rw [restart_temperature hc ho]
  exact Hardware.statusScript_readTemperature _ _

theorem targetScript_restart (hc : c.register = .temperature) (ho : c.opened = true) (site : Site) :
    (c.restart site).2.hardware.targetScript c.cpu =
      if (site.hardware.statusScript c.cpu).head?.join.isSome then
        (site.hardware.targetScript c.cpu).tail
      else site.hardware.targetScript c.cpu := by
  rw [restart_temperature hc ho]
  exact Hardware.targetScript_readTemperature _ _

theorem registerScript_restart_of_ne (hc : c.register = .temperature) (ho : c.opened = true)
    (site : Site) (cpu : Nat) (address : UInt64)
    (hstatus : (c.cpu, Register.thermalStatus) ≠ (cpu, address))
    (htarget : (c.cpu, Register.temperatureTarget) ≠ (cpu, address)) :
    (c.restart site).2.hardware.registerScript cpu address =
      site.hardware.registerScript cpu address := by
  rw [restart_temperature hc ho]
  exact Hardware.registerScript_readTemperature_of_ne _ hstatus htarget

theorem restarts_eq (hc : c.register = .temperature) (ho : c.opened = true) (n : Nat)
    (site : Site) :
    let status := site.hardware.statusScript c.cpu
    let target := site.hardware.targetScript c.cpu
    let run := (List.replicate n c).mapM restart site
    run.1 = (List.range n).map (fun i => (temperatureAt status target i).getD 0) ∧
      run.2.metrics.rawReadFailures = site.metrics.rawReadFailures +
        (List.range n).countP (fun i => (temperatureAt status target i).isNone) ∧
      run.2.hardware.statusScript c.cpu = status.drop n ∧
      run.2.hardware.targetScript c.cpu =
        target.drop ((status.take n).countP Option.isSome) := by
  -- The first restart leaves scripts that begin one later, the target's only if a status was told.
  induction n generalizing site with
  | zero => exact ⟨rfl, rfl, rfl, rfl⟩
  | succ n ih =>
    intro status target
    have hrun : (List.replicate (n + 1) c).mapM restart site =
        let first := c.restart site
        let rest := (List.replicate n c).mapM restart first.2
        (first.1 :: rest.1, rest.2) := by
      rw [List.replicate_succ, List.mapM_cons]
      rfl
    obtain ⟨hvalues, hfailures, hstatus, htarget⟩ := ih (c.restart site).2
    simp only [statusScript_restart hc ho, targetScript_restart hc ho,
      ← temperatureAt_succ] at hvalues hfailures hstatus htarget
    rw [hrun]
    refine ⟨?_, ?_, ?_, ?_⟩
    · simp only [hvalues, restart_fst hc ho, List.range_succ_eq_map, List.map_cons, List.map_map]
      rfl
    · simp only [hfailures, metrics_restart hc ho, List.range_succ_eq_map, List.countP_cons,
        List.countP_map]
      change _ + _ = _ + (List.countP (fun i => (temperatureAt status target (i + 1)).isNone) _ + _)
      cases temperatureAt status target 0 with
      | none => simp [status, target, failed, Nat.add_assoc, Nat.add_comm]
      | some v => simp [status, target]
    · simp only [hstatus, List.drop_tail]
      rfl
    · simp only [htarget]
      cases hs : site.hardware.statusScript c.cpu with
      | nil => simp [status, target, hs]
      | cons first rest => cases first <;> simp [status, target, hs, List.drop_tail]

theorem opened_of_init {before : Site} (h : (c.init before).1.1 = none) :
    (c.init before).1.2 = { c with opened := true } := by
  simp only [init, bind, StateT.bind, get, getThe, MonadStateOf.get, StateT.get, pure] at h ⊢
  split_ifs at h ⊢
  · rfl
  · cases h

end RegisterCounter

open Temperature RegisterCounter in
/-- A packed temperature is shown as what it has been packed from, the fields in bytes of their own.
Each restart of a counter that has been taken on packs the next answers of both registers, the
target register being asked once the status has been told; if either fails it yields zero and counts
one failure. -/
theorem temperatures_are_packed (status target : UInt64) {c : RegisterCounter}
    (hc : c.register = .temperature) {before : Site} (hinit : (c.init before).1.1 = none)
    (site : Site) (n : Nat) :
    let word := packTemperature status target
    let taken := (c.init before).1.2
    let statuses := site.hardware.statusScript c.cpu
    let targets := site.hardware.targetScript c.cpu
    let done := taken.restart site
    let run := (List.replicate n taken).mapM restart site
    (word.toNat < 2 ^ 32 ∧
      word.toNat = 2 ^ 24 * tjmax target + (2 ^ 16 * tmax target + tpkg status target) ∧
      tjmax target < 2 ^ 8 ∧ tmax target ≤ tjmax target ∧ tpkg status target ≤ tjmax target ∧
      Format.fields (.temperature true) word = [⟨"tjmax", toString (tjmax target)⟩,
        ⟨"tmax", toString (tmax target)⟩, ⟨"tpkg", toString (tpkg status target)⟩] ∧
      Format.fields (.temperature false) word = [⟨"tpkg", toString (tpkg status target)⟩]) ∧
    ((∀ s t, statuses.head?.join = some s → targets.head?.join = some t →
        done.1 = packTemperature s t ∧ done.2.metrics = site.metrics) ∧
      (statuses.head?.join = none ∨ targets.head?.join = none →
        done.1 = 0 ∧ done.2.metrics =
          { site.metrics with rawReadFailures := site.metrics.rawReadFailures + 1 }) ∧
      done.2.hardware.statusScript c.cpu = statuses.tail ∧
      done.2.hardware.targetScript c.cpu =
        (if statuses.head?.join.isSome then targets.tail else targets) ∧
      ∀ cpu address, (c.cpu, Register.thermalStatus) ≠ (cpu, address) →
        (c.cpu, Register.temperatureTarget) ≠ (cpu, address) →
        done.2.hardware.registerScript cpu address = site.hardware.registerScript cpu address) ∧
    run.1 = (List.range n).map (fun i => (temperatureAt statuses targets i).getD 0) ∧
      run.2.metrics.rawReadFailures = site.metrics.rawReadFailures +
        (List.range n).countP (fun i => (temperatureAt statuses targets i).isNone) ∧
      run.2.hardware.statusScript c.cpu = statuses.drop n ∧
      run.2.hardware.targetScript c.cpu =
        targets.drop ((statuses.take n).countP Option.isSome) := by
  intro word taken statuses targets done run
  have htaken : taken = { c with opened := true } := opened_of_init hinit
  have hregister : taken.register = .temperature := by rw [htaken, hc]
  have hopened : taken.opened = true := by rw [htaken]
  have hcpu : c.cpu = taken.cpu := by rw [htaken]
  simp only [statuses, targets, hcpu]
  refine ⟨⟨packTemperature_lt status target, toNat_packTemperature status target, tjmax_lt target,
    tmax_le target, tpkg_le status target, temperatureFields_packTemperature status target true,
    temperatureFields_packTemperature status target false⟩, ⟨?_, ?_, ?_, ?_, ?_⟩, ?_⟩
  · exact fun s t hs ht => restart_of_answers hregister hopened hs ht
  · exact fun hfails => restart_of_failure hregister hopened hfails
  · exact statusScript_restart hregister hopened site
  · exact targetScript_restart hregister hopened site
  · exact registerScript_restart_of_ne hregister hopened site
  · exact restarts_eq hregister hopened n site

theorem three_restarts_of_a_temperature :
    let c : RegisterCounter := { register := .temperature, cpu := 0, detail := true }
    let before : Site := { hardware := { registers := [(0, [])] } }
    let file : RegisterFile := [(Register.thermalStatus, [some 0x280000, none, some 0x2d0000]),
      (Register.temperatureTarget, [some 0x640a00])]
    let site : Site := { hardware := { registers := [(0, file)] } }
    let run := (List.replicate 3 (c.init before).1.2).mapM RegisterCounter.restart site
    (c.init before).1.1 = none ∧
      Format.fields (.temperature true) (packTemperature 0x280000 0x640a00) =
        [⟨"tjmax", "100"⟩, ⟨"tmax", "90"⟩, ⟨"tpkg", "60"⟩] ∧
      run.1 = [0x645a003c, 0, 0] ∧ run.2.metrics.rawReadFailures = 2 := by
  intro c before file site run
  have hinit : (c.init before).1.1 = none := rfl
  obtain ⟨⟨-, -, -, -, -, hfields, -⟩, -, hvalues, hfailures, -⟩ :=
    temperatures_are_packed 0x280000 0x640a00 (rfl : c.register = .temperature) hinit site 3
  refine ⟨hinit, hfields.trans (by decide), hvalues.trans (by decide), hfailures.trans (by decide)⟩

end NodeTelemetry
