import Mathlib
import NodeTelemetry.Proofs.SensorHistory

namespace NodeTelemetry

def Response.concerns (n : Nat) (r : Response) : Bool := r.correlation.toNat % 8 < n

namespace Delivery

def concerns (n : Nat) : Delivery → Bool
  | .response r => r.concerns n
  | .failure => true

variable {n : Nat}

theorem beforeFailure_filter (ds : List Delivery) :
    beforeFailure (ds.filter (concerns n)) = (beforeFailure ds).filter (Response.concerns n) := by
  induction ds with
  | nil => rfl
  | cons d ds ih =>
    cases d with
    | failure => rfl
    | response r =>
      rw [beforeFailure, List.filter_cons, List.filter_cons]
      by_cases hr : r.concerns n = true
      · rw [if_pos hr, if_pos (show concerns n (.response r) = true from hr), beforeFailure, ih]
      · rw [if_neg hr, if_neg (show ¬ concerns n (.response r) = true from hr), ih]

theorem afterFailure_filter (ds : List Delivery) :
    afterFailure (ds.filter (concerns n)) = (afterFailure ds).filter (concerns n) := by
  induction ds with
  | nil => rfl
  | cons d ds ih =>
    cases d with
    | failure => rfl
    | response r =>
      rw [afterFailure, List.filter_cons]
      by_cases hr : concerns n (.response r) = true
      · rw [if_pos hr, afterFailure, ih]
      · rw [if_neg hr, ih]

theorem beforeFailure_concat {ds : List Delivery} (h : .failure ∉ ds) (r : Response) :
    beforeFailure (ds ++ [.response r]) = beforeFailure ds ++ [r] := by
  induction ds with
  | nil => rfl
  | cons d ds ih =>
    cases d with
    | failure => exact absurd (List.mem_cons_self ..) h
    | response first =>
      exact congrArg (first :: ·) (ih fun hmem => h (List.mem_cons_of_mem _ hmem))

end Delivery

namespace SensorBus

/-- Buses that differ in pending responses to none of `n` sensors only. -/
structure Alike (n : Nat) (b b' : SensorBus) : Prop where
  rest : b' = { b with pending := b'.pending }
  pending : b.pending.filter (Delivery.concerns n) = b'.pending.filter (Delivery.concerns n)

namespace Alike

variable {n : Nat} {b b' : SensorBus}

theorem refusing_eq (h : Alike n b b') : b'.refusing = b.refusing := by
  rw [h.rest]

theorem found (h : Alike n b b') :
    b.found.filter (Response.concerns n) = b'.found.filter (Response.concerns n) := by
  unfold SensorBus.found
  rw [h.refusing_eq]
  split
  · rfl
  · rw [← Delivery.beforeFailure_filter, h.pending, Delivery.beforeFailure_filter]

theorem polled (h : Alike n b b') : Alike n b.polled b'.polled := by
  unfold SensorBus.polled
  rw [h.refusing_eq]
  split
  · exact h
  · constructor
    · rw [h.rest]
    · change (Delivery.afterFailure b.pending).filter _ = (Delivery.afterFailure b'.pending).filter _
      rw [← Delivery.afterFailure_filter, h.pending, Delivery.afterFailure_filter]

theorem deliver (h : Alike n b b') (d : Delivery) : Alike n (b.deliver d) (b'.deliver d) := by
  constructor
  · unfold SensorBus.deliver
    rw [h.rest]
  · change (b.pending ++ [d]).filter _ = (b'.pending ++ [d]).filter _
    rw [List.filter_append, List.filter_append, h.pending]

theorem request (h : Alike n b b') (sensor : UInt8) (correlation : UInt64) :
    Alike n (b.request sensor correlation).2 (b'.request sensor correlation).2 := by
  have hrest := h.rest
  have hpending := h.pending
  generalize b'.pending = pending at hrest hpending
  subst hrest
  unfold SensorBus.request
  dsimp only
  split
  · exact ⟨rfl, hpending⟩
  · split
    · exact ⟨rfl, hpending⟩
    · refine ⟨rfl, ?_⟩
      dsimp only
      rw [List.filter_append, List.filter_append, hpending]

theorem requestAll (h : Alike n b b') (asked : List (UInt8 × UInt64)) :
    Alike n (b.requestAll asked).2 (b'.requestAll asked).2 := by
  induction asked generalizing b b' with
  | nil => exact h
  | cons a asked ih => exact ih (h.request a.1 a.2)

end Alike

def alter (change : SensorBus → SensorBus) (b : SensorBus) : SensorBus :=
  { change { b with pending := [] } with pending := b.pending }

theorem Alike.alter {n : Nat} {b b' : SensorBus} (h : Alike n b b')
    (change : SensorBus → SensorBus) : Alike n (b.alter change) (b'.alter change) := by
  have hblank : { b' with pending := [] } = { b with pending := [] } := by
    rw [h.rest]
  constructor
  · unfold SensorBus.alter
    rw [hblank]
  · exact h.pending

theorem alike_deliver {n : Nat} {r : Response} (hr : n ≤ r.correlation.toNat % 8) (b : SensorBus) :
    Alike n (b.deliver (.response r)) b := by
  refine ⟨rfl, ?_⟩
  have hdropped : ¬ Delivery.concerns n (.response r) = true := by
    simp only [Delivery.concerns, Response.concerns, decide_eq_true_eq]
    omega
  change (b.pending ++ [Delivery.response r]).filter _ = _
  rw [List.filter_append, List.filter_cons_of_neg hdropped, List.filter_nil, List.append_nil]

end SensorBus

namespace Site

def modifyBus (s : Site) (device : String) (change : SensorBus → SensorBus) : Site :=
  { s with hardware := s.hardware.modifyBus device change }

theorem bus?_modifyBus {s : Site} {device : String} {b : SensorBus} (hb : s.bus? device = some b)
    (change : SensorBus → SensorBus) : (s.modifyBus device change).bus? device = some (change b) := by
  have hfind : s.hardware.buses.find? device = some b := hb
  change (s.hardware.buses.put device (change ((s.hardware.buses.find? device).getD {}))).find?
    device = _
  rw [Keyed.find?_put_self, hfind]
  rfl

def Alike (n : Nat) (device : String) (s s' : Site) : Prop :=
  ∃ b b', s.bus? device = some b ∧ s'.bus? device = some b' ∧ b.Alike n b'

theorem Alike.modifyBus {n : Nat} {device : String} {s s' : Site} (h : Alike n device s s')
    {change : SensorBus → SensorBus} (hchange : ∀ b b', b.Alike n b' → (change b).Alike n (change b')) :
    Alike n device (s.modifyBus device change) (s'.modifyBus device change) := by
  obtain ⟨b, b', hb, hb', halike⟩ := h
  exact ⟨change b, change b', bus?_modifyBus hb change, bus?_modifyBus hb' change,
    hchange b b' halike⟩

end Site

namespace SensorCounter

variable {c c₀ : SensorCounter} {site site' : Site}

theorem sensors_accept (c : SensorCounter) (r : Response) : (c.accept r).sensors = c.sensors := by
  rw [accept_eq]

theorem foldl_accept_filter (found : List Response) :
    (found.filter (Response.concerns c.sensors.length)).foldl accept c = found.foldl accept c := by
  induction found generalizing c with
  | nil => rfl
  | cons r found ih =>
    rw [List.filter_cons, List.foldl_cons]
    by_cases hr : r.concerns c.sensors.length = true
    · rw [if_pos hr, List.foldl_cons, ← sensors_accept c r, ih]
    · have hsame : c.accept r = c := by
        apply accept_eq_self
        simp only [Response.concerns, decide_eq_true_eq] at hr
        exact .inr (Nat.not_lt.mp hr)
      rw [if_neg hr, ih, hsame]

theorem collect_alike (h : Site.Alike c.sensors.length c.device site site') :
    (c.collect site).1 = (c.collect site').1 ∧
      Site.Alike c.sensors.length c.device (c.collect site).2 (c.collect site').2 := by
  by_cases hc : c.opened = true
  · obtain ⟨b, b', hb, hb', halike⟩ := h
    rw [collect_of_bus hc hb, collect_of_bus hc hb']
    constructor
    · change b.found.foldl accept c = b'.found.foldl accept c
      rw [← foldl_accept_filter, halike.found, foldl_accept_filter]
    · exact ⟨b.polled, b'.polled, Site.bus?_afterBus, Site.bus?_afterBus, halike.polled⟩
  · have hclosed : c.opened = false := Bool.eq_false_iff.mpr hc
    rw [collect_of_closed hclosed, collect_of_closed hclosed]
    exact ⟨rfl, h⟩

theorem request_alike (h : Site.Alike c.sensors.length c.device site site') :
    (c.request site).1 = (c.request site').1 ∧
      Site.Alike c.sensors.length c.device (c.request site).2 (c.request site').2 := by
  constructor
  · rw [request_fst, request_fst]
  · by_cases hc : c.opened = true
    · obtain ⟨b, b', hb, hb', halike⟩ := h
      rw [request_of_bus hc hb, request_of_bus hc hb']
      exact ⟨_, _, Site.bus?_afterBus, Site.bus?_afterBus, halike.requestAll c.asks⟩
    · have hclosed : c.opened = false := Bool.eq_false_iff.mpr hc
      rw [request_of_closed hclosed, request_of_closed hclosed]
      exact h

theorem perform_alike (h : Site.Alike c.sensors.length c.device site site') (a : Call) :
    (perform a c site).1 = (perform a c site').1 ∧
      Site.Alike c.sensors.length c.device (perform a c site).2 (perform a c site').2 := by
  cases a with
  | init =>
    obtain ⟨b, b', hb, hb', halike⟩ := h
    rw [perform_init_of_bus hb, perform_init_of_bus hb']
    exact ⟨rfl, b, b', hb, hb', halike⟩
  | exit => exact ⟨rfl, h⟩
  | reset => exact collect_alike h
  | restart =>
    -- A restart is a collection and then the requests, which do not look at what is pending.
    obtain ⟨hcounter, halike⟩ := collect_alike h
    have hsensors : (c.collect site).1.sensors = c.sensors := by
      rw [collect_fst, acceptAll_eq]
    have hdevice : (c.collect site).1.device = c.device := by
      rw [collect_fst, acceptAll_eq]
    rw [← hsensors, ← hdevice] at halike
    have hrequested := request_alike halike
    rw [hsensors, hdevice] at hrequested
    change ((c.collect site).1.request (c.collect site).2).1 =
        ((c.collect site').1.request (c.collect site').2).1 ∧
      Site.Alike _ _ ((c.collect site).1.request (c.collect site).2).2
        ((c.collect site').1.request (c.collect site').2).2
    rw [← hcounter]
    exact hrequested

inductive Move
  | call (a : Call)
  | deliver (d : Delivery)
  | alter (change : SensorBus → SensorBus)

def Move.event (device : String) : Move → Event
  | .call a => .call a
  | .deliver d => .meanwhile (·.modifyBus device (·.deliver d))
  | .alter change => .meanwhile (·.modifyBus device (·.alter change))

def shown : List Event → SensorCounter → Site → List UInt64
  | [], _, _ => []
  | .meanwhile change :: events, c, site => shown events c (change site)
  | .call a :: events, c, site =>
    (if a = .restart then [(c.restart site).1.1] else []) ++
      shown events (perform a c site).1 (perform a c site).2

theorem shown_restart (c : SensorCounter) (site : Site) :
    shown [.call .restart] c site = [(c.restart site).1.1] := rfl

theorem run_alike {rs : List Response} {qs : List (UInt8 × UInt64)} (hk : Kept c₀ rs qs c)
    (hn : c₀.sensors.length ≤ maxSensors)
    (h : Site.Alike c₀.sensors.length c₀.device site site') (moves : List Move) :
    let later := moves.map (Move.event c₀.device)
    shown later c site = shown later c site' ∧
      (performAll later c site).1 = (performAll later c site').1 := by
  induction moves generalizing rs qs c site site' with
  | nil => exact ⟨rfl, rfl⟩
  | cons move moves ih =>
    cases move with
    | deliver d => exact ih hk (h.modifyBus fun b b' hb => hb.deliver d)
    | alter change => exact ih hk (h.modifyBus fun b b' hb => hb.alter change)
    | call a =>
      rw [← hk.sensors, ← hk.device] at h
      obtain ⟨hcounter, halike⟩ := perform_alike h a
      rw [hk.sensors, hk.device] at halike
      have hlater := ih (hk.perform hn a site) halike
      -- The value of a tick is the word of the counter that the tick leaves.
      have hvalue : (if a = .restart then [(c.restart site).1.1] else []) =
          if a = .restart then [(c.restart site').1.1] else [] := by
        split
        case isTrue hrestart =>
          subst hrestart
          exact congrArg (fun c => [packed c]) hcounter
        case isFalse => rfl
      constructor
      · change _ ++ shown _ (perform a c site).1 _ = _ ++ shown _ (perform a c site').1 _
        rw [hvalue, ← hcounter, hlater.1]
      · change (performAll _ (perform a c site).1 (perform a c site).2).1 =
          (performAll _ (perform a c site').1 (perform a c site').2).1
        rw [← hcounter]
        exact hlater.2

theorem index_of_asked {q : UInt8 × UInt64} {rs : List Response} {qs : List (UInt8 × UInt64)}
    (hk : Kept c₀ rs qs c) (hn : c₀.sensors.length ≤ maxSensors) (hq : q ∈ qs) :
    q.2.toNat % 8 < c₀.sensors.length := by
  obtain ⟨j, hj, rfl⟩ := List.getElem_of_mem hq
  have hpos : 0 < c₀.sensors.length :=
    Nat.pos_of_dvd_of_pos hk.whole (Nat.zero_lt_of_lt hj)
  have hindex : j % c₀.sensors.length < c₀.sensors.length := Nat.mod_lt j hpos
  have hbyte : j % c₀.sensors.length < 8 := Nat.lt_of_lt_of_le hindex hn
  rw [hk.numbered j _ (List.getElem?_eq_getElem hj), toNat_correlation _ hbyte, Nat.mul_add_mod,
    Nat.mod_eq_of_lt hbyte]
  exact hindex

theorem found_deliver {b : SensorBus} (hb : b.refusing = false) (hp : .failure ∉ b.pending)
    (r : Response) : (b.deliver (.response r)).found = b.found ++ [r] := by
  have hopen : ¬ b.refusing = true := Bool.eq_false_iff.mp hb
  rw [SensorBus.found, SensorBus.found, if_neg hopen]
  change (if b.refusing then [] else Delivery.beforeFailure (b.pending ++ [.response r])) = _
  rw [if_neg hopen, Delivery.beforeFailure_concat hp]

/-- A response that carries the index of no sensor answers no request that a counter makes, and
nothing that is shown afterwards depends on it. One that carries a sensor's index is taken for an
answer of that sensor, whether or not there has been a request with its number. -/
theorem response_is_taken_by_index (name device : String) (sensors : List Sensor)
    (before : List Event) (site : Site) (r : Response) :
    let group := sensors.take maxSensors
    let fresh := new name device sensors
    let run := performAll before fresh site
    let delivered := run.2.modifyBus device (·.deliver (.response r))
    (group.length ≤ r.correlation.toNat % 8 →
      (∀ events site, r.correlation ∉ (asked events fresh site).map Prod.snd) ∧
      run.1.accept r = run.1 ∧
      ∀ (b : SensorBus) (moves : List Move), run.2.bus? device = some b →
        let later := moves.map (Move.event device)
        shown later run.1 delivered = shown later run.1 run.2 ∧
          (performAll later run.1 delivered).1 = (performAll later run.1 run.2).1) ∧
    (r.correlation.toNat % 8 < group.length →
      ∀ (b : SensorBus) (byte : UInt8), run.1.opened = true → run.2.bus? device = some b →
        b.refusing = false → .failure ∉ b.pending → r.reading = some byte →
        ∃ word, shown [.call .restart] run.1 delivered = [word] ∧
          byteAt word (r.correlation.toNat % 8) = byte.toUInt64) := by
  intro group fresh run delivered
  have hn : fresh.sensors.length ≤ maxSensors := List.length_take_le _ _
  have hkept (events : List Event) (site : Site) :=
    (kept_new name device sensors).performAll hn events site
  constructor
  · intro hr
    refine ⟨?_, ?_, ?_⟩
    · intro events site hasked
      obtain ⟨q, hq, hcorrelation⟩ := List.mem_map.mp hasked
      have hindex := index_of_asked (hkept events site) hn hq
      rw [hcorrelation] at hindex
      exact absurd hindex (Nat.not_lt.mpr hr)
    · apply accept_eq_self
      rw [(hkept before site).sensors]
      exact .inr hr
    · intro b moves hb
      have halike : Site.Alike fresh.sensors.length fresh.device delivered run.2 :=
        ⟨b.deliver (.response r), b, Site.bus?_modifyBus hb _, hb, SensorBus.alike_deliver hr b⟩
      exact run_alike (hkept before site) hn halike moves
  · intro hr b byte hopened hb hrefusing hpending hreading
    have hfound : run.1.foundOn delivered = b.found ++ [r] := by
      have hdevice : run.1.device = device := (hkept before site).device
      rw [← found_deliver hrefusing hpending]
      apply foundOn_of_bus hopened
      rw [hdevice]
      exact Site.bus?_modifyBus hb _
    refine ⟨_, shown_restart run.1 delivered, ?_⟩
    rw [(hkept before site).byteAt_restart hn delivered hr, hfound, ← List.append_assoc,
      latestReading_concat, if_pos rfl, hreading]
    rfl

theorem two_fans_and_a_sixth :
    let sensors : List Sensor := [⟨"FAN1", 65, 1⟩, ⟨"FAN2", 66, 1⟩]
    let bus : SensorBus := { readings := [(65, some 20), (66, some 21)] }
    let site : Site := { hardware := { buses := [("/dev/ipmi0", bus)] } }
    let fresh := new "fans" "/dev/ipmi0" sensors
    let run := performAll [.call .init, .call .restart] fresh site
    let delivered (r : Response) := run.2.modifyBus "/dev/ipmi0" (·.deliver (.response r))
    let moves : List Move :=
      [.deliver .failure, .call .restart, .deliver (.response ⟨1, some 30⟩), .call .restart]
    let later := moves.map (Move.event "/dev/ipmi0")
    (∀ events site, 13 ∉ (asked events fresh site).map Prod.snd) ∧
      run.1.accept ⟨13, some 99⟩ = run.1 ∧
      shown later run.1 run.2 = [20 + 21 * 256, 20 + 30 * 256] ∧
      shown later run.1 (delivered ⟨13, some 99⟩) = [20 + 21 * 256, 20 + 30 * 256] ∧
      801 ∉ (asked [.call .init, .call .restart] fresh site).map Prod.snd ∧
      ∃ word, shown [.call .restart] run.1 (delivered ⟨801, some 5⟩) = [word] ∧
        byteAt word 1 = 5 := by
  intro sensors bus site fresh run delivered moves later
  let b : SensorBus :=
    { bus with
      pending := [.response ⟨0, some 20⟩, .response ⟨9, some 21⟩], requests := [(65, 0), (66, 9)] }
  have hb : run.2.bus? "/dev/ipmi0" = some b := by decide +kernel
  have hshown : shown later run.1 run.2 = [20 + 21 * 256, 20 + 30 * 256] := by decide +kernel
  obtain ⟨hdropped, -⟩ := response_is_taken_by_index "fans" "/dev/ipmi0" sensors
    [.call .init, .call .restart] site ⟨13, some 99⟩
  obtain ⟨hunasked, haccept, hsame⟩ := hdropped (by decide)
  obtain ⟨-, htaken⟩ := response_is_taken_by_index "fans" "/dev/ipmi0" sensors
    [.call .init, .call .restart] site ⟨801, some 5⟩
  refine ⟨hunasked, haccept, hshown, ?_, by decide +kernel, ?_⟩
  · exact (hsame b moves hb).1.trans hshown
  · exact htaken (by decide) b 5 (by decide +kernel) hb rfl (by decide) rfl

/-- A silent bus answers nothing, and still a reading is shown that nothing has asked for. -/
theorem unasked_reading_is_shown :
    let bus : SensorBus := { silent := true }
    let site : Site := { hardware := { buses := [("d", bus)] } }
    let fresh := new "fans" "d" [⟨"FAN1", 65, 1⟩]
    let run := performAll [.call .init, .call .restart] fresh site
    let r : Response := ⟨80, some 7⟩
    let delivered := run.2.modifyBus "d" (·.deliver (.response r))
    r.correlation ∉ (asked [.call .init, .call .restart] fresh site).map Prod.snd ∧
      shown [.call .restart] run.1 run.2 = [0] ∧ shown [.call .restart] run.1 delivered = [7] := by
  decide

end SensorCounter

end NodeTelemetry
