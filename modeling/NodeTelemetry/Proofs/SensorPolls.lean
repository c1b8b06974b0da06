import Mathlib
import NodeTelemetry.Counter.Sensor

namespace NodeTelemetry

def Metrics.addSensorFailures (m : Metrics) (n : Nat) : Metrics :=
  { m with sensorFailures := m.sensorFailures + n }

theorem Metrics.addSensorFailures_add (m : Metrics) (n k : Nat) :
    (m.addSensorFailures n).addSensorFailures k = m.addSensorFailures (n + k) := by
  simp only [addSensorFailures, Nat.add_assoc]

namespace Site

def bus? (s : Site) (device : String) : Option SensorBus := s.hardware.buses.find? device

def afterBus (s : Site) (device : String) (b : SensorBus) (failures : Nat) : Site :=
  { s with
    hardware := { s.hardware with buses := s.hardware.buses.put device b }
    metrics := s.metrics.addSensorFailures failures }

variable {s : Site} {device : String} {b b' : SensorBus} {n k : Nat}

@[simp] theorem bus?_afterBus : (s.afterBus device b n).bus? device = some b :=
  Keyed.find?_put_self _ _ _

@[simp] theorem afterBus_afterBus :
    (s.afterBus device b n).afterBus device b' k = s.afterBus device b' (n + k) := by
  simp only [afterBus, Keyed.put_put, Metrics.addSensorFailures_add]

theorem afterBus_self (h : s.bus? device = some b) : s.afterBus device b 0 = s := by
  simp only [afterBus, Keyed.put_of_find? h, Metrics.addSensorFailures, Nat.add_zero]

theorem poll_eq (h : s.bus? device = some b) :
    Site.onHardware (·.poll device) s = (b.poll.1, s.afterBus device b.poll.2 0) := by
  have hfind : s.hardware.buses.find? device = some b := h
  change (((s.hardware.poll device).1, { s with hardware := (s.hardware.poll device).2 }) :
    _ × Site) = _
  rw [Hardware.poll, hfind]
  rfl

theorem poll_of_no_bus (h : s.bus? device = none) :
    Site.onHardware (·.poll device) s = (none, s) := by
  have hfind : s.hardware.buses.find? device = none := h
  change (((s.hardware.poll device).1, { s with hardware := (s.hardware.poll device).2 }) :
    _ × Site) = _
  rw [Hardware.poll, hfind]

theorem request_eq (h : s.bus? device = some b) (sensor : UInt8) (correlation : UInt64) :
    Site.onHardware (·.request device sensor correlation) s =
      ((b.request sensor correlation).1,
        s.afterBus device (b.request sensor correlation).2 0) := by
  have hfind : s.hardware.buses.find? device = some b := h
  change (((s.hardware.request device sensor correlation).1,
    { s with hardware := (s.hardware.request device sensor correlation).2 }) : _ × Site) = _
  rw [Hardware.request, hfind]
  rfl

end Site

namespace Delivery

def beforeFailure : List Delivery → List Response
  | .response r :: ds => r :: beforeFailure ds
  | _ => []

def afterFailure : List Delivery → List Delivery
  | .response _ :: ds => afterFailure ds
  | .failure :: ds => ds
  | [] => []

theorem eq_append_of_failure {ds : List Delivery} (h : .failure ∈ ds) :
    ds = (beforeFailure ds).map .response ++ .failure :: afterFailure ds := by
  induction ds with
  | nil => cases h
  | cons d ds ih =>
    cases d with
    | failure => rfl
    | response r =>
      have hrest : .failure ∈ ds := by simpa using h
      exact congrArg (_ :: ·) (ih hrest)

theorem eq_map_of_no_failure {ds : List Delivery} (h : .failure ∉ ds) :
    ds = (beforeFailure ds).map .response ∧ afterFailure ds = [] := by
  induction ds with
  | nil => exact ⟨rfl, rfl⟩
  | cons d ds ih =>
    cases d with
    | failure => exact absurd (List.mem_cons_self ..) h
    | response r =>
      obtain ⟨hmap, hrest⟩ := ih fun hmem => h (List.mem_cons_of_mem _ hmem)
      exact ⟨congrArg (_ :: ·) hmap, hrest⟩

end Delivery

namespace SensorBus

def found (b : SensorBus) : List Response :=
  if b.refusing then [] else Delivery.beforeFailure b.pending

def polled (b : SensorBus) : SensorBus :=
  if b.refusing then b else { b with pending := Delivery.afterFailure b.pending }

def failedPolls (b : SensorBus) : Nat := if b.refusing ∨ .failure ∈ b.pending then 1 else 0

inductive Polls (b : SensorBus) : List Response → Nat → SensorBus → Prop
  | toEnd (rs : List Response) (hb : b.refusing = false) (hp : b.pending = rs.map .response) :
    Polls b rs 0 { b with pending := [] }
  | toFailure (rs : List Response) (rest : List Delivery) (hb : b.refusing = false)
    (hp : b.pending = rs.map .response ++ .failure :: rest) :
    Polls b rs 1 { b with pending := rest }
  | refused (hb : b.refusing = true) : Polls b [] 1 b

theorem polls_polled (b : SensorBus) : b.Polls b.found b.failedPolls b.polled := by
  unfold found failedPolls polled
  by_cases hb : b.refusing = true
  · rw [if_pos hb, if_pos (.inl hb), if_pos hb]
    exact .refused hb
  · rw [if_neg hb, if_neg hb]
    by_cases hfailure : .failure ∈ b.pending
    · rw [if_pos (.inr hfailure)]
      exact .toFailure _ _ (Bool.eq_false_iff.mpr hb) (Delivery.eq_append_of_failure hfailure)
    · obtain ⟨hp, hrest⟩ := Delivery.eq_map_of_no_failure hfailure
      rw [if_neg (not_or.mpr ⟨hb, hfailure⟩), hrest]
      exact .toEnd _ (Bool.eq_false_iff.mpr hb) hp

theorem Polls.requests_eq {b b' : SensorBus} {rs : List Response} {n : Nat} (h : b.Polls rs n b') :
    b'.requests = b.requests := by
  cases h <;> rfl

theorem poll_cases (b : SensorBus) :
    (b.poll = (none, b) ∧ b.found = [] ∧ b.polled = b ∧ b.failedPolls = 0) ∨
    (b.poll = (some .failure, b.polled) ∧ b.found = [] ∧ b.failedPolls = 1) ∨
    ∃ r next, b.poll = (some (.response r), next) ∧ b.found = r :: next.found ∧
      b.polled = next.polled ∧ b.failedPolls = next.failedPolls ∧
      next.pending.length < b.pending.length := by
  unfold poll found polled failedPolls
  by_cases hb : b.refusing = true
  · rw [if_pos hb, if_pos hb, if_pos hb, if_pos (.inl hb)]
    exact .inr (.inl ⟨rfl, rfl, rfl⟩)
  · rw [if_neg hb, if_neg hb, if_neg hb]
    rcases hp : b.pending with _ | ⟨r | _, ds⟩
    · have hsame : { b with pending := [] } = b := by rw [← hp]
      exact .inl ⟨rfl, rfl, hsame, if_neg (by simp [hb])⟩
    · refine .inr (.inr ⟨r, { b with pending := ds }, rfl, ?_, ?_, ?_, by simp⟩)
      · rw [if_neg hb]
        rfl
      · rw [if_neg hb]
        rfl
      · simp
    · exact .inr (.inl ⟨rfl, rfl, if_pos (.inr (List.mem_cons_self ..))⟩)

def requestAll (b : SensorBus) : List (UInt8 × UInt64) → List Bool × SensorBus
  | [] => ([], b)
  | (sensor, correlation) :: asked =>
    let (taken, b) := b.request sensor correlation
    let (others, b) := b.requestAll asked
    (taken :: others, b)

theorem requestAll_cons (b : SensorBus) (sensor : UInt8) (correlation : UInt64)
    (asked : List (UInt8 × UInt64)) :
    b.requestAll ((sensor, correlation) :: asked) =
      let next := (b.request sensor correlation).2.requestAll asked
      ((b.request sensor correlation).1 :: next.1, next.2) := rfl

theorem requests_request (b : SensorBus) (sensor : UInt8) (correlation : UInt64) :
    (b.request sensor correlation).2.requests = b.requests ++ [(sensor, correlation)] := by
  simp only [request]
  split
  · rfl
  · split <;> rfl

theorem requests_requestAll (b : SensorBus) (asked : List (UInt8 × UInt64)) :
    (b.requestAll asked).2.requests = b.requests ++ asked := by
  induction asked generalizing b with
  | nil => exact (List.append_nil _).symm
  | cons a asked ih =>
    rw [requestAll_cons, ih, requests_request, List.append_assoc]
    rfl

theorem pending_prefix_request (b : SensorBus) (sensor : UInt8) (correlation : UInt64) :
    b.pending <+: (b.request sensor correlation).2.pending := by
  simp only [request]
  split
  · exact List.prefix_rfl
  · split
    · exact List.prefix_rfl
    · exact List.prefix_append _ _

theorem pending_prefix_requestAll (b : SensorBus) (asked : List (UInt8 × UInt64)) :
    b.pending <+: (b.requestAll asked).2.pending := by
  induction asked generalizing b with
  | nil => exact List.prefix_rfl
  | cons a asked ih => exact (b.pending_prefix_request a.1 a.2).trans (ih _)

end SensorBus

namespace SensorCounter

variable {c : SensorCounter} {site : Site} {b : SensorBus}

theorem device_accept (c : SensorCounter) (r : Response) : (c.accept r).device = c.device := by
  simp only [accept]
  split
  · rfl
  · split <;> rfl

theorem collectUpTo_eq (hb : site.bus? c.device = some b) {fuel : Nat}
    (hfuel : b.pending.length < fuel) :
    collectUpTo fuel c site =
      (b.found.foldl accept c, site.afterBus c.device b.polled b.failedPolls) := by
  -- A refusing bus fails at the first poll; otherwise each poll takes the first delivery.
  induction fuel generalizing c site b with
  | zero => cases hfuel
  | succ fuel ih =>
    rw [collectUpTo]
    simp only [bind, StateT.bind, Site.poll_eq hb]
    rcases b.poll_cases with ⟨hpoll, hfound, hpolled, hfailed⟩ | ⟨hpoll, hfound, hfailed⟩ |
      ⟨r, next, hpoll, hfound, hpolled, hfailed, hless⟩
    · rw [hpoll, hfound, hpolled, hfailed]
      rfl
    · rw [hpoll, hfound, hfailed]
      rfl
    · have hnext : (site.afterBus c.device next 0).bus? (c.accept r).device = some next := by
        rw [device_accept, Site.bus?_afterBus]
      have hrest := ih hnext (by omega)
      rw [device_accept, Site.afterBus_afterBus, Nat.zero_add] at hrest
      rw [hpoll, hfound, hpolled, hfailed]
      exact hrest

theorem collectUpTo_of_no_bus (hb : site.bus? c.device = none) (fuel : Nat) :
    collectUpTo fuel c site = (c, site) := by
  cases fuel with
  | zero => rfl
  | succ fuel =>
    rw [collectUpTo]
    simp only [bind, StateT.bind, Site.poll_of_no_bus hb]
    rfl

theorem add_length_succ (sequence : UInt64) (n : Nat) :
    sequence + UInt64.ofNat (n + 1) = sequence + 1 + UInt64.ofNat n := by
  rw [UInt64.ofNat_add, UInt64.add_assoc, UInt64.add_comm 1]
  rfl

def askedFrom (sequence : UInt64) (index : Nat) : List Sensor → List (UInt8 × UInt64)
  | [] => []
  | s :: sensors =>
    (s.number, correlation sequence index) :: askedFrom (sequence + 1) (index + 1) sensors

theorem requestFrom_eq {device : String} (hb : site.bus? device = some b) (sequence : UInt64)
    (index : Nat) (sensors : List Sensor) :
    let done := b.requestAll (askedFrom sequence index sensors)
    requestFrom device sequence index sensors site =
      (sequence + UInt64.ofNat sensors.length,
        site.afterBus device done.2 (done.1.countP (!·))) := by
  induction sensors generalizing sequence index site b with
  | nil =>
    have hempty : sequence + UInt64.ofNat 0 = sequence := UInt64.add_zero sequence
    change ((sequence, site) : _ × Site) = (sequence + UInt64.ofNat 0, site.afterBus device b 0)
    rw [Site.afterBus_self hb, hempty]
  | cons s sensors ih =>
    have hrequest := Site.request_eq hb s.number (correlation sequence index)
    rw [askedFrom, SensorBus.requestAll_cons, List.length_cons,
      add_length_succ]
    simp only [requestFrom, bind, StateT.bind, hrequest, List.countP_cons]
    rcases b.request s.number (correlation sequence index) with ⟨_ | _, next⟩
    · have hrest := ih (Site.bus?_afterBus (s := site) (b := next) (n := 1)) (sequence + 1)
        (index + 1)
      refine hrest.trans ?_
      rw [Site.afterBus_afterBus, Nat.add_comm 1]
      rfl
    · have hrest := ih (Site.bus?_afterBus (s := site) (b := next) (n := 0)) (sequence + 1)
        (index + 1)
      refine hrest.trans ?_
      rw [Site.afterBus_afterBus, Nat.zero_add]
      rfl

end SensorCounter

end NodeTelemetry
