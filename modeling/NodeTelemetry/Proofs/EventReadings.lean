import Mathlib
import NodeTelemetry.Proofs.ScaledChange

namespace NodeTelemetry

namespace Scaled

def word : Scaled → UInt64
  | .delta d => d
  | _ => 0

def amount (s : Scaled) : Nat := s.word.toNat

def discarded : Scaled → Bool
  | .delta _ => false
  | _ => true

def total (changes : List Scaled) : Nat := (changes.map amount).sum

theorem total_append (cs ds : List Scaled) : total (cs ++ ds) = total cs + total ds := by
  simp only [total, List.map_append, List.sum_append]

theorem toNat_getD_word (change : Option Scaled) :
    ((change.map word).getD 0).toNat = total change.toList := by
  cases change <;> simp [total, amount]

theorem amount_scale_le (prev now : Reading) : (scale prev now).amount ≤ 2 * 10 ^ 12 := by
  cases hs : scale prev now with
  | nonMonotonic => exact Nat.zero_le _
  | overflow w => exact Nat.zero_le _
  | delta w =>
    have h : prev.Advances now := by
      by_contra hstuck
      rw [scale_eq_nonMonotonic_iff.mpr hstuck] at hs
      cases hs
    obtain ⟨d, hd, -⟩ := h.rescaled?_eq
    obtain ⟨hle, hw⟩ := (h.scale_eq_delta_iff hd).mp hs
    change w.toNat ≤ _
    omega

theorem total_le {changes : List Scaled} (h : ∀ s ∈ changes, s.amount ≤ 2 * 10 ^ 12) :
    total changes ≤ changes.length * (2 * 10 ^ 12) := by
  have hsum := List.sum_le_card_nsmul (changes.map amount) (2 * 10 ^ 12) (by simpa using h)
  rwa [List.length_map, smul_eq_mul] at hsum

end Scaled

def Metrics.discard (m : Metrics) (n : Nat) : Metrics :=
  { m with perfDiscarded := m.perfDiscarded + n }

theorem Metrics.discard_discard (m : Metrics) (n k : Nat) :
    (m.discard n).discard k = m.discard (n + k) := by
  simp only [discard, Nat.add_assoc]

namespace Hardware

variable {config : UInt64}

def script (h : Hardware) (config : UInt64) (cpu : Nat) : List (Option Reading) :=
  (h.events.find? (config, cpu)).getD []

theorem script_of_no_event {h : Hardware} {cpu : Nat} (hno : h.hasEvent config cpu = false) :
    h.script config cpu = [] := by
  rw [hasEvent, Option.isSome_eq_false_iff, Option.isNone_iff_eq_none] at hno
  rw [script, hno]
  rfl

theorem readEvent_fst (h : Hardware) (config : UInt64) (cpu : Nat) :
    (h.readEvent config cpu).1 = (h.script config cpu)[0]?.join := by
  unfold readEvent script
  rcases h.events.find? (config, cpu) with _ | _ | ⟨r, rest⟩ <;> rfl

theorem script_readEvent_self (h : Hardware) (config : UInt64) (cpu : Nat) :
    (h.readEvent config cpu).2.script config cpu = (h.script config cpu).tail := by
  unfold readEvent script
  rcases hs : h.events.find? (config, cpu) with _ | _ | ⟨r, rest⟩
  · simp [hs]
  · simp [hs]
  · simp

theorem script_readEvent_of_ne (h : Hardware) {cpu cpu' : Nat} (hne : cpu ≠ cpu') :
    (h.readEvent config cpu).2.script config cpu' = h.script config cpu' := by
  unfold readEvent script
  rcases h.events.find? (config, cpu) with _ | _ | ⟨r, rest⟩
  · rfl
  · rfl
  · have hkey : (config, cpu) ≠ (config, cpu') := fun he => hne (congrArg Prod.snd he)
    simp only [Keyed.find?_put_of_ne _ _ hkey]

end Hardware

namespace EventSlot

def answer (config : UInt64) (h : Hardware) (slot : EventSlot) : Option Reading :=
  if slot.present then (h.script config slot.cpu)[0]?.join else none

def change (config : UInt64) (h : Hardware) (slot : EventSlot) : Option Scaled :=
  (slot.answer config h).map (scale slot.prev)

def hear (slot : EventSlot) (answer : Option Reading) : EventSlot :=
  { slot with prev := answer.getD slot.prev }

def readOn (config : UInt64) (h : Hardware) (slot : EventSlot) : Hardware :=
  if slot.present then (h.readEvent config slot.cpu).2 else h

theorem read_eq (config : UInt64) (slot : EventSlot) (site : Site) :
    slot.read config site =
      (slot.answer config site.hardware,
        { site with hardware := readOn config site.hardware slot }) := by
  unfold read answer readOn
  split
  · rw [← Hardware.readEvent_fst]
    rfl
  · rfl

theorem reset_eq (config : UInt64) (slot : EventSlot) (site : Site) :
    slot.reset config site =
      (slot.hear (slot.answer config site.hardware),
        { site with hardware := readOn config site.hardware slot }) := by
  simp only [reset, bind, StateT.bind, read_eq]
  cases slot.answer config site.hardware <;> rfl

theorem restart_eq (config : UInt64) (slot : EventSlot) (site : Site) :
    slot.restart config site =
      ((((slot.change config site.hardware).map Scaled.word).getD 0,
          slot.hear (slot.answer config site.hardware)),
        { site with
          hardware := readOn config site.hardware slot
          metrics := site.metrics.discard
            ((slot.change config site.hardware).toList.countP Scaled.discarded) }) := by
  simp only [restart, bind, StateT.bind, read_eq, change]
  cases slot.answer config site.hardware with
  | none => rfl
  | some now =>
    dsimp only [Option.map_some, Option.getD_some, Option.toList_some]
    cases scale slot.prev now <;> rfl

theorem script_readOn_of_ne {config : UInt64} {slot : EventSlot} {cpu : Nat} (hne : slot.cpu ≠ cpu)
    (h : Hardware) : (readOn config h slot).script config cpu = h.script config cpu := by
  unfold readOn
  split
  · exact Hardware.script_readEvent_of_ne h hne
  · rfl

theorem answer_readOn (config : UInt64) {slot : EventSlot} {slots : List EventSlot}
    (hnew : slot.cpu ∉ slots.map cpu) (h : Hardware) :
    ∀ s ∈ slots, s.answer config (readOn config h slot) = s.answer config h := by
  intro s hs
  have hne : slot.cpu ≠ s.cpu := fun he => hnew (he ▸ List.mem_map_of_mem hs)
  rw [answer, answer, script_readOn_of_ne hne]

theorem script_readAll_of_not_mem {config : UInt64} {slots : List EventSlot} {cpu : Nat}
    (hnew : cpu ∉ slots.map EventSlot.cpu) (h : Hardware) :
    (slots.foldl (readOn config) h).script config cpu = h.script config cpu := by
  induction slots generalizing h with
  | nil => rfl
  | cons slot slots ih =>
    rw [List.map_cons, List.mem_cons, not_or] at hnew
    rw [List.foldl_cons, ih hnew.2, script_readOn_of_ne (Ne.symm hnew.1)]

theorem script_readAll (config : UInt64) {slots : List EventSlot} (hcpus : (slots.map cpu).Nodup)
    (h : Hardware) :
    ∀ slot ∈ slots, (slots.foldl (readOn config) h).script config slot.cpu =
      if slot.present then (h.script config slot.cpu).tail else h.script config slot.cpu := by
  induction slots generalizing h with
  | nil => simp
  | cons first slots ih =>
    rw [List.map_cons, List.nodup_cons] at hcpus
    intro slot hslot
    rw [List.foldl_cons]
    rcases List.mem_cons.mp hslot with rfl | hrest
    · rw [script_readAll_of_not_mem hcpus.1]
      unfold readOn
      split
      · exact Hardware.script_readEvent_self h config slot.cpu
      · rfl
    · have hne : first.cpu ≠ slot.cpu := fun he => hcpus.1 (he ▸ List.mem_map_of_mem hrest)
      rw [ih hcpus.2 _ slot hrest, script_readOn_of_ne hne]

theorem resetAll_eq (config : UInt64) {slots : List EventSlot} (hcpus : (slots.map cpu).Nodup)
    (site : Site) :
    slots.mapM (reset config) site =
      (slots.map fun slot => slot.hear (slot.answer config site.hardware),
        { site with hardware := slots.foldl (readOn config) site.hardware }) := by
  induction slots generalizing site with
  | nil => rfl
  | cons slot slots ih =>
    rw [List.map_cons, List.nodup_cons] at hcpus
    have hsame := answer_readOn config hcpus.1 site.hardware
    simp only [List.mapM_cons, bind, StateT.bind, reset_eq, ih hcpus.2]
    rw [List.map_congr_left fun s hs => congrArg s.hear (hsame s hs)]
    rfl

theorem restartAll_eq (config : UInt64) {slots : List EventSlot} (hcpus : (slots.map cpu).Nodup)
    (total : UInt64) (site : Site) :
    let changes := slots.filterMap (change config site.hardware)
    let done := restartAll config total slots site
    done.1.1.toNat = min (total.toNat + Scaled.total changes) (2 ^ 64 - 1) ∧
      done.1.2 = slots.map (fun slot => slot.hear (slot.answer config site.hardware)) ∧
      done.2 = { site with
        hardware := slots.foldl (readOn config) site.hardware
        metrics := site.metrics.discard (changes.countP Scaled.discarded) } := by
  induction slots generalizing total site with
  | nil =>
    have hword : total.toNat < 2 ^ 64 := total.toNat_lt
    refine ⟨?_, rfl, rfl⟩
    change total.toNat = min (total.toNat + 0) _
    omega
  | cons slot slots ih =>
    rw [List.map_cons, List.nodup_cons] at hcpus
    have hsame := answer_readOn config hcpus.1 site.hardware
    have hchanges : slots.filterMap (change config (readOn config site.hardware slot)) =
        slots.filterMap (change config site.hardware) :=
      List.filterMap_congr fun s hs => congrArg (Option.map (scale s.prev)) (hsame s hs)
    have hrest := ih hcpus.2 (satAdd total (((slot.change config site.hardware).map Scaled.word).getD 0))
      (slot.restart config site).2
    simp only [restartAll, bind, StateT.bind]
    rw [restart_eq] at hrest ⊢
    dsimp only at hrest ⊢
    generalize restartAll config _ slots _ = done at hrest ⊢
    obtain ⟨htotal, hslots, hsite⟩ := hrest
    rw [hchanges] at htotal hsite
    rw [List.map_congr_left fun s hs => congrArg s.hear (hsame s hs)] at hslots
    have hcons : (slot :: slots).filterMap (change config site.hardware) =
        (slot.change config site.hardware).toList ++
          slots.filterMap (change config site.hardware) := by
      cases hc : slot.change config site.hardware <;> simp [hc]
    rw [hcons, Scaled.total_append, List.countP_append]
    refine ⟨?_, congrArg (_ :: ·) hslots, ?_⟩
    · rw [toNat_satAdd, Scaled.toNat_getD_word] at htotal
      simp only [UInt64.size] at htotal
      change done.1.1.toNat = _
      omega
    · rw [Metrics.discard_discard] at hsite
      exact hsite

end EventSlot

end NodeTelemetry
