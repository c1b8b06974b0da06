import Mathlib
import NodeTelemetry.Proofs.EventReadings

namespace NodeTelemetry

def Reading.latest (answers : List (Option Reading)) : Reading :=
  (answers.filterMap id).getLastD Reading.zero

theorem Reading.latest_append (answers more : List (Option Reading)) :
    latest (answers ++ more) = (more.filterMap id).getLastD (latest answers) := by
  simp only [latest, List.filterMap_append, List.getLastD_eq_getLast?, List.getLast?_append,
    Option.getD_or]

theorem Reading.latest_take_succ (script : List (Option Reading)) (k : Nat) :
    latest (script.take (k + 1)) = script[k]?.join.getD (latest (script.take k)) := by
  rw [List.take_add_one, latest_append]
  rcases script[k]? with _ | _ | now <;> rfl

namespace EventCounter

inductive Call
  | reset
  | restart
  deriving DecidableEq

def perform : Call → EventCounter → StateM Site EventCounter
  | .reset, c => c.reset
  | .restart, c => do pure (← c.restart).2

def performAll : List Call → EventCounter → StateM Site EventCounter
  | [], c => pure c
  | call :: calls, c => do performAll calls (← perform call c)

def changeAt (script : List (Option Reading)) (k : Nat) : Option Scaled :=
  script[k]?.join.map (scale (Reading.latest (script.take k)))

def slotAfter (config : UInt64) (h : Hardware) (k cpu : Nat) : EventSlot :=
  ⟨cpu, h.hasEvent config cpu, Reading.latest ((h.script config cpu).take k)⟩

structure Called (c₀ : EventCounter) (h₀ : Hardware) (k : Nat) (c : EventCounter) (h : Hardware) :
    Prop where
  config : c.config = c₀.config
  slots : c.slots = c₀.cpus.map (slotAfter c₀.config h₀ k)
  script : ∀ cpu ∈ c₀.cpus, h.script c₀.config cpu = (h₀.script c₀.config cpu).drop k

variable {c c₀ : EventCounter} {h h₀ : Hardware} {k : Nat} {site : Site}

theorem init_eq (c : EventCounter) (site : Site) :
    c.init site =
      if c.cpus.any (site.hardware.hasEvent c.config) then
        ((none, { c with slots := c.cpus.map (EventSlot.openOn c.config site.hardware) }), site)
      else if c.cpus.isEmpty then ((some .noProcessors, c), site)
      else ((some (.noEvents c.name c.cpus.length), { c with slots := [] }), site) := by
  have hany : (c.cpus.map (EventSlot.openOn c.config site.hardware)).any (·.present) =
      c.cpus.any (site.hardware.hasEvent c.config) := List.any_map
  unfold init
  cases hcpus : c.cpus with
  | nil => rfl
  | cons cpu cpus =>
    rw [hcpus] at hany
    simp only [List.isEmpty_cons, Bool.false_eq_true, if_false, bind, StateT.bind, get, getThe,
      MonadStateOf.get, StateT.get, Pure.pure]
    rw [hany]
    split <;> rfl

theorem init_eq_none_iff :
    (c.init site).1.1 = none ↔ c.cpus.any (site.hardware.hasEvent c.config) := by
  rw [init_eq]
  split
  case isTrue hany => simp only [hany]
  case isFalse hno => split <;> simp [hno]

theorem init_of_none (hinit : (c.init site).1.1 = none) :
    c.init site =
      ((none, { c with slots := c.cpus.map (EventSlot.openOn c.config site.hardware) }), site) := by
  rw [init_eq, if_pos (init_eq_none_iff.mp hinit)]

theorem called_init (hinit : (c.init site).1.1 = none) :
    Called c site.hardware 0 (c.init site).1.2 (c.init site).2.hardware := by
  rw [init_of_none hinit]
  exact ⟨rfl, rfl, fun _ _ => rfl⟩

namespace Called

theorem nodup (hc : Called c₀ h₀ k c h) (hcpus : c₀.cpus.Nodup) :
    (c.slots.map EventSlot.cpu).Nodup := by
  rw [hc.slots, List.map_map]
  exact (List.map_id c₀.cpus).symm ▸ hcpus

theorem answer (hc : Called c₀ h₀ k c h) {cpu : Nat} (hcpu : cpu ∈ c₀.cpus) :
    (slotAfter c₀.config h₀ k cpu).answer c.config h = (h₀.script c₀.config cpu)[k]?.join := by
  rw [EventSlot.answer, hc.config]
  change (if h₀.hasEvent c₀.config cpu then (h.script c₀.config cpu)[0]?.join else none) = _
  split
  case isTrue => rw [hc.script cpu hcpu, List.getElem?_drop, Nat.add_zero]
  case isFalse hno =>
    rw [Hardware.script_of_no_event (Bool.eq_false_iff.mpr hno)]
    rfl

theorem hear (hc : Called c₀ h₀ k c h) {cpu : Nat} (hcpu : cpu ∈ c₀.cpus) :
    (slotAfter c₀.config h₀ k cpu).hear ((slotAfter c₀.config h₀ k cpu).answer c.config h) =
      slotAfter c₀.config h₀ (k + 1) cpu := by
  rw [hc.answer hcpu, EventSlot.hear, slotAfter, slotAfter, Reading.latest_take_succ]

theorem next (hc : Called c₀ h₀ k c h) (hcpus : c₀.cpus.Nodup) :
    Called c₀ h₀ (k + 1)
      { c with slots := c.slots.map fun slot => slot.hear (slot.answer c.config h) }
      (c.slots.foldl (EventSlot.readOn c.config) h) where
  config := hc.config
  slots := by
    change c.slots.map _ = _
    rw [hc.slots, List.map_map]
    exact List.map_congr_left fun cpu hcpu => hc.hear hcpu
  script := by
    intro cpu hcpu
    have hslot : slotAfter c₀.config h₀ k cpu ∈ c.slots := hc.slots ▸ List.mem_map_of_mem hcpu
    have hread := EventSlot.script_readAll c₀.config (hc.nodup hcpus) h _ hslot
    rw [hc.config]
    refine hread.trans ?_
    change (if h₀.hasEvent c₀.config cpu then (h.script c₀.config cpu).tail
      else h.script c₀.config cpu) = _
    rw [hc.script cpu hcpu, List.tail_drop]
    split
    case isTrue => rfl
    case isFalse hno =>
      rw [Hardware.script_of_no_event (Bool.eq_false_iff.mpr hno), List.drop_nil, List.drop_nil]

theorem reset (hc : Called c₀ h₀ k c site.hardware) (hcpus : c₀.cpus.Nodup) :
    Called c₀ h₀ (k + 1) (c.reset site).1 (c.reset site).2.hardware ∧
      (c.reset site).2.metrics = site.metrics := by
  have hall := EventSlot.resetAll_eq c.config (hc.nodup hcpus) site
  simp only [EventCounter.reset, bind, StateT.bind, hall]
  exact ⟨hc.next hcpus, rfl⟩

theorem changes (hc : Called c₀ h₀ k c h) :
    c.slots.filterMap (EventSlot.change c.config h) =
      c₀.cpus.filterMap fun cpu => changeAt (h₀.script c₀.config cpu) k := by
  rw [hc.slots, List.filterMap_map]
  apply List.filterMap_congr
  intro cpu hcpu
  change ((slotAfter c₀.config h₀ k cpu).answer c.config h).map _ = _
  rw [hc.answer hcpu]
  rfl

theorem restart (hc : Called c₀ h₀ k c site.hardware) (hcpus : c₀.cpus.Nodup) :
    let changes := c₀.cpus.filterMap fun cpu => changeAt (h₀.script c₀.config cpu) k
    let done := c.restart site
    Called c₀ h₀ (k + 1) done.1.2 done.2.hardware ∧
      done.1.1.toNat = min (Scaled.total changes) (2 ^ 64 - 1) ∧
      done.2.metrics = site.metrics.discard (changes.countP Scaled.discarded) := by
  obtain ⟨htotal, hslots, hsite⟩ :=
    EventSlot.restartAll_eq c.config (hc.nodup hcpus) 0 site
  rw [hc.changes] at htotal hsite
  rw [show (0 : UInt64).toNat = 0 from rfl, Nat.zero_add] at htotal
  intro changes done
  have hnext := hc.next hcpus
  simp only [done, EventCounter.restart, bind, StateT.bind]
  generalize EventSlot.restartAll c.config 0 c.slots site = all at htotal hslots hsite ⊢
  refine ⟨?_, htotal, congrArg Site.metrics hsite⟩
  rw [← hslots] at hnext
  have hh := congrArg Site.hardware hsite
  dsimp only at hh
  rw [← hh] at hnext
  exact hnext

theorem perform (hc : Called c₀ h₀ k c site.hardware) (hcpus : c₀.cpus.Nodup) (call : Call) :
    Called c₀ h₀ (k + 1) (EventCounter.perform call c site).1
      (EventCounter.perform call c site).2.hardware := by
  cases call with
  | reset => exact (hc.reset hcpus).1
  | restart => exact (hc.restart hcpus).1

theorem performAll (hc : Called c₀ h₀ k c site.hardware) (hcpus : c₀.cpus.Nodup)
    (calls : List Call) :
    Called c₀ h₀ (k + calls.length) (EventCounter.performAll calls c site).1
      (EventCounter.performAll calls c site).2.hardware := by
  induction calls generalizing k c site with
  | nil => exact hc
  | cons call calls ih =>
    have hrest := ih (hc.perform hcpus call)
    rw [List.length_cons, show k + (calls.length + 1) = k + 1 + calls.length by omega]
    exact hrest

end Called

theorem changes_of_events (cpus : List Nat) (h : Hardware) (config : UInt64) (k : Nat) :
    (cpus.filter (h.hasEvent config)).filterMap (fun cpu => changeAt (h.script config cpu) k) =
      cpus.filterMap fun cpu => changeAt (h.script config cpu) k := by
  rw [List.filterMap_filter]
  apply List.filterMap_congr
  intro cpu hcpu
  split
  case isTrue => rfl
  case isFalse hno =>
    rw [Hardware.script_of_no_event (Bool.eq_false_iff.mpr hno)]
    rfl

theorem total_changes_le (cpus : List Nat) (h : Hardware) (config : UInt64) (k : Nat) :
    Scaled.total (cpus.filterMap fun cpu => changeAt (h.script config cpu) k) ≤
      cpus.length * (2 * 10 ^ 12) := by
  have hsmall : ∀ s ∈ cpus.filterMap (fun cpu => changeAt (h.script config cpu) k),
      s.amount ≤ 2 * 10 ^ 12 := by
    intro s hs
    obtain ⟨cpu, -, hchange⟩ := List.mem_filterMap.mp hs
    obtain ⟨now, -, rfl⟩ := Option.map_eq_some_iff.mp hchange
    exact Scaled.amount_scale_le _ _
  calc Scaled.total _ ≤ _ := Scaled.total_le hsmall
    _ ≤ cpus.length * (2 * 10 ^ 12) := Nat.mul_le_mul_right _ (List.length_filterMap_le _ _)

/-- A restart is the sum of what the events have counted since their latest readings, whether these
were taken by a reset or by a restart. -/
theorem restart_sums_changes (c : EventCounter) (site : Site) (calls : List Call)
    (hcpus : c.cpus.Nodup) (hinit : (c.init site).1.1 = none) :
    let run := performAll calls (c.init site).1.2 (c.init site).2
    let restarted := run.1.restart run.2
    let opened := c.cpus.filter (site.hardware.hasEvent c.config)
    let changes := opened.filterMap fun cpu =>
      let answers := site.hardware.script c.config cpu
      answers[calls.length]?.join.map (scale (Reading.latest (answers.take calls.length)))
    restarted.1.1.toNat = min (Scaled.total changes) (2 ^ 64 - 1) ∧
      (c.cpus.length < 9223372 → restarted.1.1.toNat = Scaled.total changes) ∧
      restarted.2.metrics = run.2.metrics.discard (changes.countP Scaled.discarded) ∧
      (run.1.reset run.2).2.metrics = run.2.metrics ∧
      ∀ cpus, cpus.Perm c.cpus →
        let d : EventCounter := { c with cpus }
        let run' := performAll calls (d.init site).1.2 (d.init site).2
        (d.init site).1.1 = none ∧ (run'.1.restart run'.2).1.1 = restarted.1.1 := by
  intro run restarted opened changes
  have hcalled := (called_init hinit).performAll hcpus calls
  rw [Nat.zero_add] at hcalled
  obtain ⟨-, htotal, hmetrics⟩ := hcalled.restart hcpus
  have hchanges : changes = _ := changes_of_events c.cpus site.hardware c.config calls.length
  rw [← hchanges] at htotal hmetrics
  refine ⟨htotal, ?_, hmetrics, (hcalled.reset hcpus).2, ?_⟩
  · intro hfew
    have hle := total_changes_le c.cpus site.hardware c.config calls.length
    rw [← hchanges] at hle
    change restarted.1.1.toNat = _ at htotal
    omega
  · intro cpus hperm d run'
    have hdinit : (d.init site).1.1 = none := by
      rw [init_eq_none_iff] at hinit ⊢
      rwa [← hperm.any_eq] at hinit
    refine ⟨hdinit, ?_⟩
    have hdcpus : d.cpus.Nodup := hperm.nodup_iff.mpr hcpus
    have hdcalled := (called_init hdinit).performAll hdcpus calls
    rw [Nat.zero_add] at hdcalled
    obtain ⟨-, hdtotal, -⟩ := hdcalled.restart hdcpus
    have hsum := (hperm.filterMap fun cpu =>
      changeAt (site.hardware.script c.config cpu) calls.length).map Scaled.amount |>.sum_eq
    apply UInt64.toNat_inj.mp
    rw [htotal, hchanges]
    exact hdtotal.trans (congrArg (min · _) hsum)

theorem four_processors_summed :
    let c : EventCounter := { name := "cyc", config := 60, cpus := [3, 0, 1, 2] }
    let site : Site := { hardware := { events :=
      [((60, 0), [some ⟨0, 0, 0⟩, some ⟨100, 10, 10⟩, some ⟨300, 20, 20⟩]),
        ((60, 2), [some ⟨0, 0, 0⟩, none, some ⟨50, 10, 5⟩]),
        ((60, 3), [some ⟨0, 0, 0⟩, some ⟨100, 10, 10⟩, some ⟨150, 20, 10⟩])] } }
    let run := performAll [.reset, .restart] (c.init site).1.2 (c.init site).2
    let d : EventCounter := { c with cpus := [0, 1, 2, 3] }
    let run' := performAll [.reset, .restart] (d.init site).1.2 (d.init site).2
    c.cpus.Nodup ∧ (c.init site).1.1 = none ∧ c.cpus.length < 9223372 ∧ d.cpus.Perm c.cpus ∧
      (run.1.restart run.2).1.1.toNat = 300 ∧
      (run.1.restart run.2).2.metrics = run.2.metrics.discard 1 ∧
      (run'.1.restart run'.2).1.1 = (run.1.restart run.2).1.1 := by
  intro c site
  have hcpus : c.cpus.Nodup := by decide
  have hinit : (c.init site).1.1 = none := by decide
  have hfew : c.cpus.length < 9223372 := by decide
  have hperm : [0, 1, 2, 3].Perm c.cpus := by decide
  obtain ⟨-, htotal, hmetrics, -, horder⟩ :=
    restart_sums_changes c site [.reset, .restart] hcpus hinit
  have hvalue := htotal hfew
  rw [show Scaled.total _ = 300 by decide] at hvalue
  rw [show List.countP Scaled.discarded _ = 1 by decide] at hmetrics
  exact ⟨hcpus, hinit, hfew, hperm, hvalue, hmetrics, (horder [0, 1, 2, 3] hperm).2⟩

theorem latest_of_resets (answers : List (Option Reading)) (n m : Nat) :
    Reading.latest (answers.take (n + m)) =
      if ((answers.drop n).take m).any Option.isSome then Reading.latest ((answers.drop n).take m)
      else Reading.latest (answers.take n) := by
  rw [List.take_add, Reading.latest_append]
  generalize (answers.drop n).take m = since
  split
  case isTrue hany =>
    obtain ⟨answer, hmem, hsome⟩ := List.any_eq_true.mp hany
    obtain ⟨now, rfl⟩ := Option.isSome_iff_exists.mp hsome
    have hne : since.filterMap id ≠ [] := List.ne_nil_of_mem (List.mem_filterMap.mpr ⟨_, hmem, rfl⟩)
    simp only [Reading.latest, List.getLastD_eq_getLast?, List.getLast?_eq_some_getLast hne,
      Option.getD_some]
  case isFalse hno =>
    have hnil : since.filterMap id = [] := by
      apply List.filterMap_eq_nil_iff.mpr
      intro answer hmem
      cases answer with
      | none => rfl
      | some now => exact absurd (List.any_eq_true.mpr ⟨_, hmem, rfl⟩) hno
    rw [hnil]
    rfl

theorem total_eq_zero_iff {changes : List Scaled} :
    Scaled.total changes = 0 ↔ ∀ s ∈ changes, s.amount = 0 := by
  rw [Scaled.total, List.sum_eq_zero_iff, List.forall_mem_map]

/-- The first restart after a reset counts what has happened since on the processors that the reset,
or one right after it, has read. On the others it counts from their latest readings before. -/
theorem first_restart_after_reset (c : EventCounter) (site : Site) (before : List Call) (m : Nat)
    (hcpus : c.cpus.Nodup) (hinit : (c.init site).1.1 = none) :
    let calls := before ++ List.replicate (m + 1) .reset
    let run := performAll calls (c.init site).1.2 (c.init site).2
    let restarted := run.1.restart run.2
    let opened := c.cpus.filter (site.hardware.hasEvent c.config)
    let answers := site.hardware.script c.config
    let atReset cpu := ((answers cpu).drop before.length).take (m + 1)
    let isRead cpu := (atReset cpu).any Option.isSome
    let since := (opened.filter isRead).filterMap fun cpu =>
      (answers cpu)[calls.length]?.join.map (scale (Reading.latest (atReset cpu)))
    let older := (opened.filter (!isRead ·)).filterMap fun cpu =>
      (answers cpu)[calls.length]?.join.map
        (scale (Reading.latest ((answers cpu).take before.length)))
    restarted.1.1.toNat = min (Scaled.total since + Scaled.total older) (2 ^ 64 - 1) ∧
      (c.cpus.length < 9223372 →
        (restarted.1.1.toNat = Scaled.total since ↔ ∀ s ∈ older, s.amount = 0)) := by
  intro calls run restarted opened answers atReset isRead since older
  obtain ⟨htotal, hexact, -⟩ := restart_sums_changes c site calls hcpus hinit
  have hlength : calls.length = before.length + (m + 1) := by
    simp only [calls, List.length_append, List.length_replicate]
  let change cpu := (answers cpu)[calls.length]?.join.map
    (scale (Reading.latest ((answers cpu).take calls.length)))
  have hlatest cpu := latest_of_resets (answers cpu) before.length (m + 1)
  have hsince : since = (opened.filter isRead).filterMap change := by
    apply List.filterMap_congr
    intro cpu hcpu
    have hread : (atReset cpu).any Option.isSome = true := (List.mem_filter.mp hcpu).2
    dsimp only [change]
    rw [hlength, hlatest, if_pos hread]
  have holder : older = (opened.filter (!isRead ·)).filterMap change := by
    apply List.filterMap_congr
    intro cpu hcpu
    have hread : ¬ (atReset cpu).any Option.isSome = true := by
      have hnot : (!isRead cpu) = true := (List.mem_filter.mp hcpu).2
      rwa [Bool.not_eq_true', ← Bool.not_eq_true] at hnot
    dsimp only [change]
    rw [hlength, hlatest, if_neg hread]
  have hsplit : Scaled.total (opened.filterMap change) =
      Scaled.total since + Scaled.total older := by
    rw [hsince, holder, ← Scaled.total_append, ← List.filterMap_append]
    have hperm := (List.filter_append_perm isRead opened).filterMap change
    exact (hperm.map Scaled.amount).sum_eq.symm
  have htotal' : restarted.1.1.toNat =
      min (Scaled.total (opened.filterMap change)) (2 ^ 64 - 1) := htotal
  refine ⟨by rw [htotal', hsplit], fun hfew => ?_⟩
  have hexact' : restarted.1.1.toNat = Scaled.total (opened.filterMap change) := hexact hfew
  rw [hexact', hsplit, Nat.add_eq_left, total_eq_zero_iff]

theorem half_read_at_reset :
    let c : EventCounter := { name := "cyc", config := 60, cpus := [0, 1] }
    let site : Site := { hardware := { events :=
      [((60, 0), [some ⟨0, 0, 0⟩, some ⟨100, 10, 10⟩, some ⟨700, 40, 40⟩, some ⟨750, 50, 50⟩]),
        ((60, 1), [some ⟨0, 0, 0⟩, some ⟨100, 10, 10⟩, none, some ⟨300, 20, 20⟩])] } }
    let calls := [.reset, .restart] ++ List.replicate (0 + 1) .reset
    let run := performAll calls (c.init site).1.2 (c.init site).2
    c.cpus.Nodup ∧ (c.init site).1.1 = none ∧ c.cpus.length < 9223372 ∧
      (run.1.restart run.2).1.1.toNat = 50 + 200 ∧
      ¬ (run.1.restart run.2).1.1.toNat = 50 := by
  intro c site
  have hcpus : c.cpus.Nodup := by decide
  have hinit : (c.init site).1.1 = none := by decide
  have hfew : c.cpus.length < 9223372 := by decide
  obtain ⟨htotal, hsince⟩ := first_restart_after_reset c site [.reset, .restart] 0 hcpus hinit
  have hold := (hsince hfew).not.mpr (by decide)
  rw [show min (Scaled.total _ + Scaled.total _) _ = 50 + 200 by decide] at htotal
  rw [show Scaled.total _ = 50 by decide] at hold
  exact ⟨hcpus, hinit, hfew, htotal, hold⟩

/-- A processor that the reset cannot read counts what happened before it. -/
theorem old_change_is_reported :
    let c : EventCounter := { name := "cyc", config := 60, cpus := [0] }
    let site : Site := { hardware := { events :=
      [((60, 0), [some ⟨0, 0, 0⟩, some ⟨100, 10, 10⟩, none, some ⟨300, 20, 20⟩])] } }
    let run := performAll [.reset, .restart, .reset] (c.init site).1.2 (c.init site).2
    (c.init site).1.1 = none ∧ (site.hardware.script 60 0)[2]? = some none ∧
      (run.1.restart run.2).1.1 = 200 := by
  decide +kernel

end EventCounter

end NodeTelemetry
