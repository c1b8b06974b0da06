import Mathlib
import NodeTelemetry.Proofs.AttributeEffects
import NodeTelemetry.Proofs.EngineHistories
import NodeTelemetry.Proofs.Numerals
import NodeTelemetry.Proofs.SamplingCost
import NodeTelemetry.Proofs.Traffic

namespace NodeTelemetry

open ControlPlane Node

theorem periodInRange_iff {ms : UInt64} :
    periodInRange ms = true ↔ 100 < ms.toNat ∧ ms.toNat < 10000 := by
  simp [periodInRange, UInt64.lt_iff_toNat_lt]

namespace Worker

variable {pace : Pace}

theorem le_budget_of_tick {r : Registry} {h : History} {site : Site} {budget : UInt64}
    (hpace : periodInRange pace.period = true) (ht : (tick pace r h site).1.1 = some budget) :
    4 * (pace.period.toNat * 10 ^ 6) ≤ 5 * budget.toNat := by
  obtain ⟨-, hlt⟩ := periodInRange_iff.mp hpace
  rw [tick_eq, Option.map_eq_some_iff] at ht
  obtain ⟨t, ht, rfl⟩ := ht
  obtain ⟨-, -, hperiod, -⟩ := tickAt_eq_some ht
  rw [← hperiod] at hlt ⊢
  rw [← toNat_nanos (by omega)]
  exact le_sleepBudget _ _

theorem step_ne_ticked_zero (hpace : periodInRange pace.period = true) (stop : Bool) (w : Worker)
    (h : History) (site : Site) (r : Registry) :
    (step pace stop w h site).1.1 ≠ .working r (.ticked 0) := by
  -- Only a tick leads there, so that nothing has to be known of where the worker stood before.
  cases w with
  | stopped r' => rintro ⟨⟩
  | broken => rintro ⟨⟩
  | working r' phase =>
    cases phase with
    | checking => cases stop <;> rintro ⟨⟩
    | sleeping budget => rintro ⟨⟩
    | ticked budget =>
      cases stop with
      | true => rintro ⟨⟩
      | false =>
        by_cases hb : budget = 0
        · simp only [step, if_pos hb]
          rintro ⟨⟩
        · simp only [step, if_neg hb]
          rintro ⟨⟩
    | ticking =>
      intro hw
      cases ht : tickAt pace r' h site with
      | none =>
        rw [step_ticking_of_broken ht] at hw
        cases hw
      | some t =>
        have hbudget : (tick pace r' h site).1.1 = some t.budget := by rw [tick_eq, ht]; rfl
        have hle := le_budget_of_tick hpace hbudget
        obtain ⟨hlt, -⟩ := periodInRange_iff.mp hpace
        rw [step_ticking ht] at hw
        obtain ⟨-, hzero⟩ := Worker.working.inj hw
        rw [Phase.ticked.inj hzero, UInt64.toNat_zero] at hle
        omega

theorem crash_ne_ticked_zero (w : Worker) (site : Site) (hw : ∀ r, w ≠ .working r (.ticked 0))
    (r : Registry) : (w.crash site).1 ≠ .working r (.ticked 0) := by
  cases w with
  | working r' phase => rintro ⟨⟩
  | stopped r' => exact hw r
  | broken => exact hw r

end Worker

theorem SamplerState.ofEnded_ne_running (w w' : Worker) :
    SamplerState.ofEnded w ≠ .running w' := by
  cases w <;> rintro ⟨⟩

namespace Node

def Unhurried (n : Node) : Prop :=
  ∀ s r, n.sampler = some s → s.state ≠ .running (.working r (.ticked 0))

variable {pace : Pace} {n : Node} {nodes : List Node}

theorem Unhurried.of_state {s : Sampler} {state : SamplerState} {h : History}
    (hstate : ∀ r, state ≠ .running (.working r (.ticked 0))) :
    Unhurried { n with sampler := some { s with state }, history := h } := by
  rintro _ r ⟨⟩
  exact hstate r

theorem Unhurried.onWorker {act : Worker → History → StateM Site (Worker × History)}
    (hact : ∀ w h site, (∀ r, w ≠ .working r (.ticked 0)) →
      ∀ r, (act w h site).1.1 ≠ .working r (.ticked 0)) (hn : n.Unhurried) (site : Site) :
    (n.onSampler (Sampler.onWorker act) site).1.Unhurried := by
  cases hs : n.sampler with
  | none => rwa [onSampler_none hs]
  | some s =>
    rw [onSampler_eq hs]
    by_cases hrun : ∃ w, s.state = .running w
    · obtain ⟨w, hw⟩ := hrun
      rw [onWorker_of_running hw]
      refine .of_state fun r he => hact w n.history site ?_ r (SamplerState.running.inj he)
      exact fun r' hw' => hn s r' hs (hw' ▸ hw)
    · rw [onWorker_of_idle fun w hw => hrun ⟨w, hw⟩]
      exact .of_state (hn s · hs)

theorem Unhurried.start (hn : n.Unhurried) (site : Site) : (n.start site).1.2.Unhurried := by
  cases hs : n.sampler with
  | none =>
    simp only [Node.start, hs]
    exact hn
  | some s =>
    cases hst : s.state with
    | running w =>
      have he : s.start site = ((none, s), site) := by
        simp only [Sampler.start, hst]
        rfl
      rw [start_eq hs, he]
      exact .of_state (hn s · hs)
    | lost => rwa [start_lost hs hst]
    | stopped r =>
      rcases start_stopped hs hst rfl site with ⟨r', -, -, -, he, -⟩ | ⟨he, -⟩
      · rw [he]
        exact .of_state (by rintro r ⟨⟩)
      · rw [he]
        exact .of_state (by rintro r ⟨⟩)

theorem Unhurried.stop (hn : n.Unhurried) (pace : Pace) (site : Site) :
    (n.stop pace site).1.Unhurried := by
  by_cases hrun : ∃ s w, n.sampler = some s ∧ s.state = .running w
  · obtain ⟨s, w, hs, hw⟩ := hrun
    rw [stop_eq pace hs hw]
    exact .of_state fun r => SamplerState.ofEnded_ne_running _ _
  · rwa [stop_idle pace fun s w hs hw => hrun ⟨s, w, hs, hw⟩]

theorem sampler_discard (pace : Pace) (n : Node) (site : Site) :
    (n.discard pace site).1.sampler = none := by
  cases hs : n.sampler with
  | none => rwa [discard_none pace hs]
  | some s =>
    simp only [Node.discard, hs]
    rfl

theorem unhurried_discard (pace : Pace) (n : Node) (site : Site) :
    (n.discard pace site).1.Unhurried := by
  intro s r hs
  rw [sampler_discard] at hs
  cases hs

theorem Unhurried.stopStep (hn : n.Unhurried) (told : Bool) :
    (Traffic.stopStep told n).2.Unhurried := by
  unfold Traffic.stopStep
  split
  case h_1 => exact hn
  case h_2 s hs =>
    split
    case h_1 => exact hn
    case h_2 w _ hst =>
      cases told with
      | false => exact hn
      | true => exact .of_state fun r => SamplerState.ofEnded_ne_running _ _
    case h_3 => exact hn

def AllUnhurried (nodes : List Node) : Prop := ∀ n ∈ nodes, n.Unhurried

variable {site : Site}

theorem AllUnhurried.set (h : AllUnhurried nodes) (hn : n.Unhurried) (i : Nat) :
    AllUnhurried (nodes.set i n) := by
  intro m hm
  rcases List.mem_or_eq_of_mem_set hm with hm | rfl
  · exact h m hm
  · exact hn

theorem AllUnhurried.visit {act : Node → StateM Site Node} (h : AllUnhurried nodes)
    (hact : ∀ {n}, n.Unhurried → ∀ site, (act n site).1.Unhurried) (i : Nat) (site : Site) :
    AllUnhurried (visit i act nodes site).1 := by
  cases hn : nodes[i]? with
  | none => rwa [visit_none hn]
  | some n =>
    rw [visit_some hn]
    exact h.set (hact (h n (List.mem_of_getElem? hn)) site) i

theorem AllUnhurried.happen (h : AllUnhurried nodes) (hpace : periodInRange pace.period = true)
    (e : Happening) (site : Site) : AllUnhurried (happen pace nodes e site).1 := by
  cases e with
  | step i =>
    have hact {n : Node} (hn : n.Unhurried) (site : Site) :
        (n.onSampler (Sampler.step pace) site).1.Unhurried :=
      hn.onWorker (fun w h site _ => w.step_ne_ticked_zero hpace false h site) site
    exact h.visit hact i site
  | crash i =>
    have hact {n : Node} (hn : n.Unhurried) (site : Site) :
        (n.onSampler Sampler.crash site).1.Unhurried :=
      hn.onWorker (fun w _ site hw => w.crash_ne_ticked_zero site hw) site
    exact h.visit hact i site

theorem AllUnhurried.meanwhile (h : AllUnhurried nodes) (hpace : periodInRange pace.period = true)
    (site : Site) : AllUnhurried (meanwhile pace nodes site).1 := by
  have hall (es : List Happening) {nodes : List Node} (h : AllUnhurried nodes) (site : Site) :
      AllUnhurried (es.foldlM (Node.happen pace) nodes site).1 := by
    induction es generalizing nodes site with
    | nil => exact h
    | cons e es ih =>
      rw [List.foldlM_cons]
      exact ih (h.happen hpace e site) _
  exact hall (Site.pause site).1 h _

theorem AllUnhurried.sweep {act : Node → StateM Site Node} (h : AllUnhurried nodes)
    (hpace : periodInRange pace.period = true)
    (hact : ∀ {n}, n.Unhurried → ∀ site, (act n site).1.Unhurried) (i count : Nat) (site : Site) :
    AllUnhurried (sweep pace act i count nodes site).1 := by
  induction count generalizing i nodes site with
  | zero => exact h
  | succ count ih =>
    rw [sweep_succ]
    exact ih ((h.meanwhile hpace site).visit hact i _) (i + 1) _

theorem AllUnhurried.startFrom (h : AllUnhurried nodes) (hpace : periodInRange pace.period = true)
    (i count : Nat) (site : Site) :
    AllUnhurried (startFrom pace i count nodes site).1.2 := by
  induction count generalizing i nodes site with
  | zero => exact h
  | succ count ih =>
    have hnow := h.meanwhile hpace site
    cases hn : (Node.meanwhile pace nodes site).1[i]? with
    | none =>
      rcases hm : Node.meanwhile pace nodes site with ⟨nodes', site'⟩
      rw [hm] at hn hnow
      simp only [Node.startFrom, bind, StateT.bind, hm, hn]
      exact hnow
    | some n =>
      have hstart := (hnow n (List.mem_of_getElem? hn)).start (Node.meanwhile pace nodes site).2
      rcases hs : n.start (Node.meanwhile pace nodes site).2 with ⟨⟨e?, n'⟩, site'⟩
      rw [hs] at hstart
      cases e? with
      | none =>
        rw [startFrom_started hn hs]
        exact ih (hnow.set hstart i) (i + 1) site'
      | some e =>
        rw [startFrom_failed hn hs]
        exact (hnow.set hstart i).sweep hpace (·.stop pace) 0 i site'

end Node

namespace ControlPlane

structure Paced (p : ControlPlane) : Prop where
  inRange : periodInRange p.pace.period = true
  unhurried : AllUnhurried p.nodes

variable {p p' : ControlPlane} {ms : UInt64} {name : String}

theorem Rests.paced_of (hr : Rests p p') (h : p.Paced)
    (hpace : periodInRange p'.pace.period = true) : p'.Paced := by
  refine ⟨hpace, ?_⟩
  cases hr with
  | same => exact h.unhurried
  | paced => exact h.unhurried
  | @consumed i n history hn hc =>
    have hconsumed : Node.Unhurried { n with history } := h.unhurried n (List.mem_of_getElem? hn)
    exact h.unhurried.set hconsumed i

theorem pace_readHistory (i : Nat) (p : ControlPlane) : (p.readHistory i).2.pace = p.pace := by
  unfold ControlPlane.readHistory
  split <;> rfl

theorem pace_read (name : String) (p : ControlPlane) : (p.read name).2.pace = p.pace := by
  unfold ControlPlane.read
  split
  case h_5 i _ => exact pace_readHistory i p
  all_goals rfl

theorem pace_setOn (on : Bool) (p : ControlPlane) (site : Site) :
    (p.setOn on site).1.pace = p.pace := by
  obtain ⟨nodes, turned, hp⟩ := setOn_eq on p site
  rw [hp]

theorem inRange_setPeriod (h : periodInRange p.pace.period = true) (ms : UInt64) :
    periodInRange (p.setPeriod ms).2.pace.period = true := by
  unfold setPeriod
  split
  case isTrue hms => exact hms
  case isFalse => exact h

theorem attribute?_period (h : p.attribute? name = some .period) : name = "period" := by
  by_contra hname
  rw [attribute?, if_neg hname] at h
  split at h
  · cases h
  · obtain ⟨i, base, ofNode, -, hmem, he⟩ := Traffic.nodeAttribute?_eq_some h
    simp only [perNode, List.mem_cons, Prod.mk.injEq, List.not_mem_nil, or_false] at hmem
    rcases hmem with ⟨-, rfl⟩ | ⟨-, rfl⟩ | ⟨-, rfl⟩ <;> cases he

theorem write_period_eq (input : String) (p : ControlPlane) (site : Site) :
    p.write "period" input site = ((.ok input.utf8ByteSize, match parsePeriod input with
      | some ms => (p.setPeriod ms).2
      | none => p), site) := by
  have hperiod : p.attribute? "period" = some .period := rfl
  simp only [write, hperiod]
  rfl

theorem pace_write_of_ne (hname : name ≠ "period") (input : String) (site : Site) :
    (p.write name input site).1.2.pace = p.pace := by
  cases ha : p.attribute? name with
  | none => rw [write_of_none ha]
  | some a =>
    cases a with
    | power =>
      simp only [write, ha]
      split_ifs
      · exact pace_setOn true p site
      · exact pace_setOn false p site
      · rfl
    | period => exact absurd (attribute?_period ha) hname
    | clear i =>
      by_cases hword : (Attribute.clear i).Heeds input
      · rw [(write_clear ha input site).1 hword]
        rfl
      · rw [(write_clear ha input site).2 hword]
    | history i => rw [write_of_readOnly (.inl ha)]
    | last i => rw [write_of_readOnly (.inr ha)]

theorem Paced.setOn (h : p.Paced) (on : Bool) (site : Site) : (p.setOn on site).1.Paced := by
  rcases same_or_turned p on with hsame | ⟨hopen, hne⟩
  · rwa [setOn_same hsame]
  · cases on with
    | true =>
      rw [setOn_true hopen hne]
      exact ⟨h.inRange, h.unhurried.startFrom h.inRange 0 p.nodes.length site⟩
    | false =>
      rw [setOn_false hopen hne]
      exact ⟨h.inRange, h.unhurried.sweep h.inRange (·.stop p.pace) 0 p.nodes.length site⟩

theorem Paced.shutdown (h : p.Paced) (site : Site) : (p.shutdown site).1.Paced := by
  rw [shutdown_eq]
  have hstopped := h.unhurried.sweep h.inRange (·.stop p.pace) 0 p.nodes.length site
  exact ⟨h.inRange, hstopped.sweep h.inRange (fun _ => unhurried_discard p.pace _) 0 _ _⟩

theorem Paced.setPeriod (h : p.Paced) (ms : UInt64) : (p.setPeriod ms).2.Paced :=
  (setPeriod_rests ms p).paced_of h (inRange_setPeriod h.inRange ms)

theorem Paced.write (h : p.Paced) (name input : String) (site : Site) :
    (p.write name input site).1.2.Paced := by
  by_cases hname : name = "period"
  · rw [hname, write_period_eq]
    cases parsePeriod input with
    | none => exact h
    | some ms => exact h.setPeriod ms
  -- What a write leaves at rest may have any pace, so that the pace is settled apart.
  · have hpace : (p.write name input site).1.2.pace = p.pace := pace_write_of_ne hname input site
    change ((Event.write name input).perform p site).1.pace = p.pace at hpace
    change ((Event.write name input).perform p site).1.Paced
    rcases write_cases name input p site with ⟨on, -, he⟩ | ⟨-, p', hr, he⟩
    · rw [he]
      exact h.setOn on site
    · rw [he] at hpace ⊢
      exact hr.paced_of h (hpace ▸ h.inRange)

theorem Paced.perform (h : p.Paced) (e : Event) (site : Site) : (e.perform p site).1.Paced := by
  cases e with
  | setOn on => exact h.setOn on site
  | setPeriod ms => exact h.setPeriod ms
  | clear i => exact (clear_rests i p).paced_of h h.inRange
  | readHistory i => exact (readHistory_rests i p).paced_of h (pace_readHistory i p ▸ h.inRange)
  | readLast i => exact h
  | read name => exact (read_rests name p).paced_of h (pace_read name p ▸ h.inRange)
  | write name input => exact h.write name input site
  | shutdown => exact h.shutdown site
  | thread e => exact ⟨h.inRange, h.unhurried.happen h.inRange e site⟩

end ControlPlane

namespace Traffic

inductive Action
  | move (m : Move)
  | whole (e : Event)

def serve : Action → Traffic → StateM Site Traffic
  | .move m, t => do pure (← t.step m).2
  | .whole e, t =>
    if t.task.isSome then pure t else do pure { t with plane := ← e.perform t.plane }

def serveAll (actions : List Action) (t : Traffic) : StateM Site Traffic :=
  actions.foldlM (fun t a => t.serve a) t

variable {t : Traffic} {site : Site}

theorem paced_thread (h : t.plane.Paced) (e : Happening) (site : Site) :
    (t.thread e site).1.2.plane.Paced := by
  refine ⟨h.inRange, ?_⟩
  cases e with
  | step i =>
    exact h.unhurried.visit (fun hn site => hn.onWorker (fun w history site _ =>
      w.step_ne_ticked_zero h.inRange (t.told i) history site) site) i site
  | crash i => exact h.unhurried.happen h.inRange (.crash i) site

theorem paced_read (h : t.plane.Paced) (name : String) : (t.read name).2.plane.Paced := by
  unfold Traffic.read
  split_ifs
  · exact h
  · exact h.perform (.read name) {}

theorem plane_turn (on : Bool) (t : Traffic) : (t.turn on).plane = t.plane := by
  unfold turn
  split_ifs <;> rfl

theorem paced_write (h : t.plane.Paced) (name input : String) (site : Site) :
    (t.write name input site).1.2.plane.Paced := by
  rcases ha : t.plane.attribute? name with _ | _ | _ | i | i | i
  case some.power =>
    simp only [Traffic.write, ha]
    split_ifs
    · exact h
    · exact (plane_turn true t).symm ▸ h
    · exact (plane_turn false t).symm ▸ h
    · exact h
  case some.period =>
    simp only [Traffic.write, ha]
    split_ifs
    · exact h
    · exact h.write name input site
  all_goals
    simp only [Traffic.write, ha]
    exact h.write name input site

theorem paced_proceed (h : t.plane.Paced) (site : Site) : (t.proceed site).1.plane.Paced := by
  cases ht : t.task with
  | none => rwa [proceed_idle ht]
  | some task =>
    cases task with
    | starting i =>
      cases hn : t.plane.nodes[i]? with
      | none =>
        rw [proceed_started ht hn]
        exact ⟨h.inRange, h.unhurried⟩
      | some n =>
        have hstart := (h.unhurried n (List.mem_of_getElem? hn)).start site
        rw [proceed_start ht hn]
        exact ⟨h.inRange, h.unhurried.set hstart i⟩
    | stopping i count told =>
      cases hn : if i < count then t.plane.nodes[i]? else none with
      | none =>
        rw [proceed_stopped ht hn]
        exact ⟨h.inRange, h.unhurried⟩
      | some n =>
        obtain ⟨hi, hn⟩ := Option.ite_none_right_eq_some.mp hn
        have hstop := (h.unhurried n (List.mem_of_getElem? hn)).stopStep told
        rw [proceed_stop ht hi hn]
        exact ⟨h.inRange, h.unhurried.set hstop i⟩

theorem paced_serve (h : t.plane.Paced) (a : Action) (site : Site) :
    (t.serve a site).1.plane.Paced := by
  cases a with
  | move m =>
    cases m with
    | thread e => exact paced_thread h e site
    | read name => exact paced_read h name
    | write name input => exact paced_write h name input site
    | proceed => exact paced_proceed h site
  | whole e =>
    simp only [serve]
    split_ifs
    · exact h
    · exact h.perform e site

theorem paced_serveAll (h : t.plane.Paced) (actions : List Action) (site : Site) :
    (serveAll actions t site).1.plane.Paced := by
  induction actions generalizing t site with
  | nil => exact h
  | cons a actions ih =>
    rw [serveAll, List.foldlM_cons]
    exact ih (paced_serve h a site) _

end Traffic

namespace ControlPlane

inductive PeriodText : List Char → Nat → Prop
  | decimal {cs : List Char} {ms : Nat} (h : Text.Writes 10 cs ms) : PeriodText cs ms
  | hexadecimal {x : Char} {cs : List Char} {ms : Nat} (hx : x = 'x' ∨ x = 'X')
      (h : Text.Writes 16 cs ms) : PeriodText ('0' :: x :: cs) ms

def WritesPeriod (input : String) (ms : Nat) : Prop :=
  ∃ text, Text.Padded input.toList text ∧ PeriodText text ms

variable {p : ControlPlane} {input : String} {cs : List Char} {n : Nat} {ms : UInt64}

theorem PeriodText.plain (h : PeriodText cs n) : ∀ c ∈ cs, Text.isBlank c = false := by
  cases h with
  | decimal h => exact fun c hc => (h.plain hc).2.2
  | hexadecimal hx h =>
    intro c hc
    rcases List.mem_cons.mp hc with rfl | hc
    · decide
    · rcases List.mem_cons.mp hc with rfl | hc
      · rcases hx with rfl | rfl <;> decide
      · exact (h.plain hc).2.2

theorem prefix_eq_some_iff {digits : List Char} :
    (Text.afterPrefix? ['0', 'x'] cs).or (Text.afterPrefix? ['0', 'X'] cs) = some digits ↔
      ∃ x, (x = 'x' ∨ x = 'X') ∧ cs = '0' :: x :: digits := by
  simp only [Option.or_eq_some_iff, Text.afterPrefix?_eq_some_iff]
  constructor
  · rintro (rfl | ⟨-, rfl⟩)
    · exact ⟨'x', .inl rfl, rfl⟩
    · exact ⟨'X', .inr rfl, rfl⟩
  · rintro ⟨x, rfl | rfl, rfl⟩
    · exact .inl rfl
    · exact .inr ⟨rfl, rfl⟩

theorem prefix_eq_none_of_writes (h : Text.Writes 10 cs n) :
    (Text.afterPrefix? ['0', 'x'] cs).or (Text.afterPrefix? ['0', 'X'] cs) = none := by
  rw [Option.eq_none_iff_forall_ne_some]
  intro digits hdigits
  obtain ⟨x, hx, rfl⟩ := prefix_eq_some_iff.mp hdigits
  have hmem : x ∈ '0' :: x :: digits := List.mem_cons_of_mem _ List.mem_cons_self
  rcases h.plus_or_digit hmem with rfl | ⟨d, hd⟩
  · simp at hx
  · have hdigit := Text.digit?_eq_some_iff.mpr hd
    rcases hx with rfl | rfl <;> cases hdigit

theorem parsePeriod_eq_some_iff : parsePeriod input = some ms ↔ WritesPeriod input ms.toNat := by
  rw [WritesPeriod, Text.exists_padded_iff fun _ => PeriodText.plain]
  unfold parsePeriod
  generalize Text.trim input.toList = cs
  rw [Option.map_eq_some_iff]
  constructor
  · rintro ⟨n, hn, rfl⟩
    split at hn
    case h_1 digits hdigits =>
      obtain ⟨x, hx, rfl⟩ := prefix_eq_some_iff.mp hdigits
      obtain ⟨h, hlt⟩ := Text.natural?_eq_some_iff.mp hn
      rw [UInt64.toNat_ofNat_of_lt' hlt]
      exact .hexadecimal hx h
    case h_2 =>
      obtain ⟨h, hlt⟩ := Text.natural?_eq_some_iff.mp hn
      rw [UInt64.toNat_ofNat_of_lt' hlt]
      exact .decimal h
  · intro h
    refine ⟨ms.toNat, ?_, UInt64.ofNat_toNat⟩
    cases h with
    | decimal h =>
      rw [prefix_eq_none_of_writes h]
      exact Text.natural?_eq_some_iff.mpr ⟨h, ms.toNat_lt⟩
    | hexadecimal hx h =>
      rw [prefix_eq_some_iff.mpr ⟨_, hx, rfl⟩]
      exact Text.natural?_eq_some_iff.mpr ⟨h, ms.toNat_lt⟩

theorem writesPeriod_read (n : Nat) : WritesPeriod (toString n ++ "\n") n := by
  have hnewline : ∀ c ∈ ['\n'], Text.isBlank c := List.forall_mem_singleton.mpr rfl
  refine ⟨Nat.toDigits 10 n, ⟨[], ['\n'], by simp, hnewline, ?_⟩, .decimal (Text.writes_toDigits n)⟩
  simp [Nat.toString_eq_repr, Nat.repr]

theorem write_period_of_asked {n : Nat} (hn : WritesPeriod input n) (hlow : 100 < n)
    (hhigh : n < 10000) (p : ControlPlane) (site : Site) :
    p.write "period" input site = ((.ok input.utf8ByteSize,
      { p with pace := { p.pace with period := UInt64.ofNat n } }), site) := by
  have htoNat : (UInt64.ofNat n).toNat = n := UInt64.toNat_ofNat_of_lt' (by rw [UInt64.size]; omega)
  have hparse : parsePeriod input = some (UInt64.ofNat n) := by
    rwa [parsePeriod_eq_some_iff, htoNat]
  have hrange : periodInRange (UInt64.ofNat n) = true := by
    rw [periodInRange_iff, htoNat]
    exact ⟨hlow, hhigh⟩
  rw [write_period_eq, hparse]
  simp only [setPeriod, if_pos hrange]

theorem write_period_of_not_asked (h : ¬ ∃ n, WritesPeriod input n ∧ 100 < n ∧ n < 10000)
    (p : ControlPlane) (site : Site) :
    p.write "period" input site = ((.ok input.utf8ByteSize, p), site) := by
  rw [write_period_eq]
  cases hms : parsePeriod input with
  | none => rfl
  | some ms =>
    have hout : ¬ periodInRange ms = true := fun hin =>
      h ⟨ms.toNat, parsePeriod_eq_some_iff.mp hms, periodInRange_iff.mp hin⟩
    simp only [setPeriod, if_neg hout]

end ControlPlane

theorem Settings.inRange_of_check {s : Settings} (h : s.check = .ok ()) :
    periodInRange s.period = true := by
  by_contra hperiod
  unfold check at h
  by_cases hcapacity : s.capacity = 0
  · rw [if_pos hcapacity] at h
    cases h
  · rw [if_neg hcapacity, Bool.not_eq_true _ |>.mp hperiod] at h
    cases h

namespace Engine

theorem paced_of_build {providers : List Provider} {s : Settings}
    {online : Except TopologyError (List Nat)} {nodes : Except TopologyError (List NumaNode)}
    {clock : Nat} {site : Site} {p : ControlPlane} (hs : s.check = .ok ())
    (hp : (build providers s online nodes clock site).1 = .ok p) : p.Paced := by
  obtain ⟨scopes, gs, -, -, -, rfl⟩ := new_of_assemble hp
  refine ⟨Settings.inRange_of_check hs, ?_⟩
  intro n hn
  obtain ⟨i, hi⟩ := List.getElem?_of_mem hn
  rw [new_node, Option.map_eq_some_iff] at hi
  obtain ⟨g, -, rfl⟩ := hi
  rintro _ r ⟨⟩ ⟨⟩

end Engine

/-- Whatever is done with an engine whose settings have been accepted, its period stays in range. A
write gives it the period that it is the text of, if that is in range, and changes nothing
otherwise; what a read returns is such a text. Hence every tick is followed by a sleep of at least
four fifths of the period, and no worker ever goes on without one. -/
theorem period_stays_in_range {providers : List Provider} {s : Settings}
    {online : Except TopologyError (List Nat)} {nodes : Except TopologyError (List NumaNode)}
    {clock : Nat} {site : Site} {p : ControlPlane} (hs : s.check = .ok ())
    (hp : (Engine.build providers s online nodes clock site).1 = .ok p)
    (actions : List Traffic.Action) (start : Site) :
    let q := (Traffic.serveAll actions { plane := p } start).1.plane
    (100 < q.pace.period.toNat ∧ q.pace.period.toNat < 10000) ∧
    (∀ (input : String) (site : Site),
      (∀ ms, WritesPeriod input ms → 100 < ms → ms < 10000 →
        q.write "period" input site = ((.ok input.utf8ByteSize,
          { q with pace := { q.pace with period := UInt64.ofNat ms } }), site)) ∧
      ((¬ ∃ ms, WritesPeriod input ms ∧ 100 < ms ∧ ms < 10000) →
        q.write "period" input site = ((.ok input.utf8ByteSize, q), site)) ∧
      ∀ name ≠ "period", (q.write name input site).1.2.pace = q.pace) ∧
    (∃ text, q.read "period" = (.ok text, q) ∧
      ∀ site, q.write "period" text site = ((.ok text.utf8ByteSize, q), site)) ∧
    (∀ (r : Registry) (h : History) (site : Site) (budget : UInt64),
      (Worker.tick q.pace r h site).1.1 = some budget →
        4 * (q.pace.period.toNat * 10 ^ 6) ≤ 5 * budget.toNat) ∧
    (∀ (stop : Bool) (w : Worker) (h : History) (site : Site) (r : Registry),
      (w.step q.pace stop h site).1.1 ≠ .working r (.ticked 0)) ∧
    ∀ n ∈ q.nodes, ∀ s r, n.sampler = some s → s.state ≠ .running (.working r (.ticked 0)) := by
  intro q
  have hq : q.Paced := Traffic.paced_serveAll (Engine.paced_of_build hs hp) actions start
  have hrange := periodInRange_iff.mp hq.inRange
  refine ⟨hrange, ?_, ?_, ?_, Worker.step_ne_ticked_zero hq.inRange, hq.unhurried⟩
  · intro input site
    exact ⟨fun ms hms hlow hhigh => write_period_of_asked hms hlow hhigh q site,
      fun hnone => write_period_of_not_asked hnone q site,
      fun name hname => pace_write_of_ne hname input site⟩
  · refine ⟨toString q.pace.period.toNat ++ "\n", rfl, fun site => ?_⟩
    rw [write_period_of_asked (writesPeriod_read _) hrange.1 hrange.2, UInt64.ofNat_toNat]
  · exact fun r h site budget => Worker.le_budget_of_tick hq.inRange

theorem quarter_second_is_kept :
    let s : Settings := { capacity := 2, enabled := [] }
    let actions : List Traffic.Action :=
      [.move (.write "period" " +250\n"), .whole (.setOn true), .whole (.setPeriod 10000)]
    ∃ p, s.check = .ok () ∧ (Engine.build Provider.all s (.ok [0]) (.ok []) 0 {}).1 = .ok p ∧
      let q := (Traffic.serveAll actions { plane := p } {}).1.plane
      q.pace.period = 250 ∧ q.pace.period.toNat < 10000 ∧
        q.write "period" "0X1F4" {} =
          ((.ok 5, { q with pace := { q.pace with period := 500 } }), {}) := by
  intro s actions
  have hs : s.check = .ok () := rfl
  obtain ⟨p, hp⟩ : ∃ p, (Engine.build Provider.all s (.ok [0]) (.ok []) 0 {}).1 = .ok p := ⟨_, rfl⟩
  refine ⟨p, hs, hp, ?_⟩
  intro q
  obtain ⟨hrange, hwrites, -⟩ := period_stays_in_range hs hp actions {}
  have hparse : parsePeriod "0X1F4" = some 500 := by decide
  have hasked : WritesPeriod "0X1F4" 500 := parsePeriod_eq_some_iff.mp hparse
  refine ⟨?_, hrange.2, (hwrites "0X1F4" {}).1 500 hasked (by decide) (by decide)⟩
  cases hp
  decide +kernel

end NodeTelemetry
