import Mathlib
import NodeTelemetry.Proofs.RecordLength
import NodeTelemetry.Proofs.SensorPolls

namespace NodeTelemetry

theorem toNat_packBytes {k : Nat} {bytes : List UInt8} (h : k + bytes.length ≤ 8) :
    (packBytes k bytes).toNat = 2 ^ (8 * k) * Nat.ofDigits 256 (bytes.map UInt8.toNat) := by
  induction bytes generalizing k with
  | nil => rfl
  | cons byte bytes ih =>
    rw [List.length_cons] at h
    have hbyte : byte.toNat < 2 ^ 8 := byte.toNat_lt
    have hbound : 2 ^ (8 * k) * byte.toNat < 2 ^ (8 * (k + 1)) := by
      rw [Nat.mul_succ, Nat.pow_add]
      exact Nat.mul_lt_mul_of_pos_left hbyte (Nat.two_pow_pos _)
    have hword : 2 ^ (8 * (k + 1)) ≤ 2 ^ 64 := Nat.pow_le_pow_right (by decide) (by omega)
    have hshift : (byte.toUInt64 <<< UInt64.ofNat (8 * k)).toNat = 2 ^ (8 * k) * byte.toNat := by
      have hk : (UInt64.ofNat (8 * k)).toNat % 64 = 8 * k := by
        rw [UInt64.toNat_ofNat_of_lt' (by simp only [UInt64.size]; omega)]
        omega
      rw [UInt64.toNat_shiftLeft, hk, UInt8.toNat_toUInt64, Nat.shiftLeft_eq, Nat.mul_comm,
        Nat.mod_eq_of_lt (Nat.lt_of_lt_of_le hbound hword)]
    rw [packBytes, UInt64.toNat_or, hshift, ih (by omega), Nat.or_comm,
      ← Nat.two_pow_add_eq_or_of_lt hbound, List.map_cons, Nat.ofDigits_cons]
    rw [show 8 * (k + 1) = 8 * k + 8 by omega, Nat.pow_add]
    ring

theorem and_seven (w : UInt64) : (w &&& 7).toNat = w.toNat % 8 := by
  rw [UInt64.toNat_and]
  exact Nat.and_two_pow_sub_one_eq_mod w.toNat 3

namespace SensorCounter

variable {c c₀ : SensorCounter} {site : Site}

theorem toNat_correlation (sequence : UInt64) {index : Nat} (h : index < 8) :
    (correlation sequence index).toNat = 8 * (sequence.toNat % 2 ^ 61) + index := by
  have hshift : (sequence <<< 3).toNat = 2 ^ 3 * (sequence.toNat % 2 ^ 61) := by
    rw [UInt64.toNat_shiftLeft]
    change sequence.toNat <<< 3 % 2 ^ 64 = _
    rw [Nat.shiftLeft_eq]
    omega
  have hindex : (UInt64.ofNat index).toNat = index :=
    UInt64.toNat_ofNat_of_lt' (by simp only [UInt64.size]; omega)
  rw [correlation, UInt64.toNat_or, hshift, hindex, ← Nat.two_pow_add_eq_or_of_lt h]

theorem toNat_packed (hn : c.sensors.length ≤ maxSensors) :
    c.packed.toNat = Nat.ofDigits 256 ((c.readings.take c.sensors.length).map UInt8.toNat) := by
  have hlen : (c.readings.take c.sensors.length).length ≤ 8 :=
    Nat.le_trans (List.length_take_le _ _) hn
  rw [packed, toNat_packBytes (by omega), Nat.mul_zero, Nat.pow_zero, Nat.one_mul]

theorem packed_digits_lt : ∀ d ∈ (c.readings.take c.sensors.length).map UInt8.toNat, d < 256 := by
  rw [List.forall_mem_map]
  exact fun byte _ => byte.toNat_lt

theorem packed_lt (hn : c.sensors.length ≤ maxSensors) :
    c.packed.toNat < 2 ^ (8 * c.sensors.length) := by
  rw [toNat_packed hn, Nat.pow_mul]
  refine Nat.lt_of_lt_of_le (Nat.ofDigits_lt_base_pow_length (by decide) packed_digits_lt) ?_
  apply Nat.pow_le_pow_right (by decide)
  rw [List.length_map]
  exact List.length_take_le _ _

theorem byteAt_packed (hlen : c.readings.length = maxSensors) (hn : c.sensors.length ≤ maxSensors)
    {i : Nat} (hi : i < c.sensors.length) :
    byteAt c.packed i = (c.readings.getD i 0).toUInt64 := by
  have hlength : ((c.readings.take c.sensors.length).map UInt8.toNat).length = c.sensors.length := by
    rw [List.length_map, List.length_take, hlen, Nat.min_eq_left hn]
  have hpacked : c.packed =
      UInt64.ofNat (Nat.ofDigits 256 ((c.readings.take c.sensors.length).map UInt8.toNat)) := by
    rw [← toNat_packed hn, UInt64.ofNat_toNat]
  have hread : i < c.readings.length := by omega
  rw [hpacked, byteAt_ofDigits packed_digits_lt (by rw [hlength]; exact hn) (by rwa [hlength]),
    List.getElem_map, List.getElem_take, List.getD_eq_getElem _ _ hread]
  apply UInt64.toNat_inj.mp
  have hbyte : c.readings[i].toNat < 256 := UInt8.toNat_lt _
  rw [UInt64.toNat_ofNat_of_lt' (by simp only [UInt64.size]; omega), UInt8.toNat_toUInt64]

/-! What responses do to a counter. -/

def latestReading (responses : List Response) (i : Nat) : UInt8 :=
  ((responses.filter fun r => r.correlation.toNat % 8 = i).filterMap Response.reading).getLastD 0

theorem latestReading_concat (responses : List Response) (r : Response) (i : Nat) :
    latestReading (responses ++ [r]) i =
      if r.correlation.toNat % 8 = i then r.reading.getD (latestReading responses i)
      else latestReading responses i := by
  simp only [latestReading, List.filter_append, List.filterMap_append, List.getLastD_eq_getLast?,
    List.getLast?_append, Option.getD_or]
  split
  case isTrue hi => cases hr : r.reading <;> simp [hi, hr]
  case isFalse hi => simp [hi]

theorem accept_eq_self {r : Response}
    (h : r.reading = none ∨ c.sensors.length ≤ r.correlation.toNat % 8) : c.accept r = c := by
  unfold accept
  dsimp only
  rw [and_seven]
  split
  case isTrue => rfl
  case isFalse hindex =>
    rcases h with h | h
    · rw [h]
    · exact absurd h hindex

theorem accept_eq_set {r : Response} {byte : UInt8} (hr : r.reading = some byte)
    (h : r.correlation.toNat % 8 < c.sensors.length) :
    c.accept r = { c with readings := c.readings.set (r.correlation.toNat % 8) byte } := by
  unfold accept
  dsimp only
  rw [and_seven, if_neg (by omega), hr]

theorem accept_cases (c : SensorCounter) (r : Response) :
    (c.accept r = c ∧ (r.reading = none ∨ c.sensors.length ≤ r.correlation.toNat % 8)) ∨
    ∃ byte, r.reading = some byte ∧ r.correlation.toNat % 8 < c.sensors.length ∧
      c.accept r = { c with readings := c.readings.set (r.correlation.toNat % 8) byte } := by
  by_cases hi : r.correlation.toNat % 8 < c.sensors.length
  · cases hr : r.reading with
    | none => exact .inl ⟨accept_eq_self (.inl hr), .inl rfl⟩
    | some byte => exact .inr ⟨byte, rfl, hi, accept_eq_set hr hi⟩
  · exact .inl ⟨accept_eq_self (.inr (by omega)), .inr (by omega)⟩

theorem accept_eq (c : SensorCounter) (r : Response) :
    c.accept r = { c with readings := (c.accept r).readings } := by
  rcases accept_cases c r with ⟨hsame, -⟩ | ⟨byte, -, -, hset⟩
  · rw [hsame]
  · rw [hset]

structure Shows (c : SensorCounter) (taken : List Response) : Prop where
  length : c.readings.length = maxSensors
  latest : ∀ i < c.sensors.length, c.readings.getD i 0 = latestReading taken i

theorem Shows.accept {taken : List Response} (h : c.Shows taken)
    (hn : c.sensors.length ≤ maxSensors) (r : Response) : (c.accept r).Shows (taken ++ [r]) := by
  rcases accept_cases c r with ⟨hsame, hr⟩ | ⟨byte, hbyte, hi, hset⟩
  · rw [hsame]
    refine ⟨h.length, fun i hi => ?_⟩
    rw [latestReading_concat, h.latest i hi]
    split
    case isTrue hindex =>
      rcases hr with hr | hr
      · rw [hr]
        rfl
      · omega
    case isFalse => rfl
  · rw [hset]
    have hread : r.correlation.toNat % 8 < c.readings.length := by
      rw [h.length]
      exact Nat.lt_of_lt_of_le hi hn
    refine ⟨by rw [List.length_set]; exact h.length, fun i hilt => ?_⟩
    rw [latestReading_concat, ← h.latest i hilt, hbyte, Option.getD_some]
    rw [List.getD_eq_getElem?_getD, List.getD_eq_getElem?_getD]
    by_cases hindex : r.correlation.toNat % 8 = i
    · rw [if_pos hindex, ← hindex, List.getElem?_set_self hread]
      rfl
    · rw [if_neg hindex, List.getElem?_set_ne hindex]

theorem Shows.acceptAll {taken : List Response} (h : c.Shows taken)
    (hn : c.sensors.length ≤ maxSensors) (found : List Response) :
    (found.foldl SensorCounter.accept c).Shows (taken ++ found) := by
  induction found generalizing c taken with
  | nil => rwa [List.append_nil]
  | cons r found ih =>
    have hsensors : (c.accept r).sensors = c.sensors := by
      rw [accept_eq]
    have hrest := ih (h.accept hn r) (by rwa [hsensors])
    rwa [List.append_assoc] at hrest

theorem acceptAll_eq (c : SensorCounter) (found : List Response) :
    found.foldl accept c = { c with readings := (found.foldl accept c).readings } := by
  induction found generalizing c with
  | nil => rfl
  | cons r found ih =>
    rw [List.foldl_cons, ih, accept_eq]

/-! What a call does to a counter and the machine. -/

def foundOn (c : SensorCounter) (site : Site) : List Response :=
  if c.opened then (site.bus? c.device).elim [] SensorBus.found else []

def asks (c : SensorCounter) : List (UInt8 × UInt64) :=
  if c.opened then askedFrom c.sequence 0 c.sensors else []

theorem foundOn_of_closed (hc : c.opened = false) : c.foundOn site = [] :=
  if_neg (Bool.eq_false_iff.mp hc)

theorem foundOn_of_bus {b : SensorBus} (hc : c.opened = true) (hb : site.bus? c.device = some b) :
    c.foundOn site = b.found := by
  rw [foundOn, if_pos hc, hb]
  rfl

theorem collect_of_closed (hc : c.opened = false) : c.collect site = (c, site) := by
  simp only [collect, hc, Bool.not_false, if_true]
  rfl

theorem collect_of_bus {b : SensorBus} (hc : c.opened = true) (hb : site.bus? c.device = some b) :
    c.collect site =
      (b.found.foldl accept c, site.afterBus c.device b.polled b.failedPolls) := by
  have hfind : site.hardware.buses.find? c.device = some b := hb
  simp only [collect, hc, Bool.not_true, Bool.false_eq_true, if_false, bind, StateT.bind, get,
    getThe, MonadStateOf.get, StateT.get, Pure.pure, hfind]
  exact collectUpTo_eq hb (Nat.lt_succ_self _)

theorem collect_of_no_bus (hb : site.bus? c.device = none) : c.collect site = (c, site) := by
  have hfind : site.hardware.buses.find? c.device = none := hb
  cases hc : c.opened with
  | false => exact collect_of_closed hc
  | true =>
    simp only [collect, hc, Bool.not_true, Bool.false_eq_true, if_false, bind, StateT.bind, get,
      getThe, MonadStateOf.get, StateT.get, Pure.pure, hfind]
    exact collectUpTo_of_no_bus hb _

theorem collect_fst (c : SensorCounter) (site : Site) :
    (c.collect site).1 = (c.foundOn site).foldl accept c := by
  unfold foundOn
  split
  case isTrue hc =>
    cases hb : site.bus? c.device with
    | none => rw [collect_of_no_bus hb]; rfl
    | some b => rw [collect_of_bus hc hb]; rfl
  case isFalse hc => rw [collect_of_closed (Bool.eq_false_iff.mpr hc)]; rfl

theorem request_of_closed (hc : c.opened = false) : c.request site = (c, site) := by
  simp only [request, hc, Bool.not_false, if_true]
  rfl

theorem requestFrom_fst (device : String) (sequence : UInt64) (index : Nat) (sensors : List Sensor)
    (site : Site) :
    (requestFrom device sequence index sensors site).1 =
      sequence + UInt64.ofNat sensors.length := by
  induction sensors generalizing sequence index site with
  | nil => exact (UInt64.add_zero sequence).symm
  | cons s sensors ih =>
    rw [List.length_cons, add_length_succ]
    simp only [requestFrom, bind, StateT.bind]
    rcases Site.onHardware (·.request device s.number (correlation sequence index)) site with
      ⟨_ | _, after⟩
    · exact ih _ _ _
    · exact ih _ _ _

theorem length_askedFrom (sequence : UInt64) (index : Nat) (sensors : List Sensor) :
    (askedFrom sequence index sensors).length = sensors.length := by
  induction sensors generalizing sequence index with
  | nil => rfl
  | cons s sensors ih => rw [askedFrom, List.length_cons, ih, List.length_cons]

theorem request_of_opened (hc : c.opened = true) (site : Site) :
    c.request site =
      let done := requestFrom c.device c.sequence 0 c.sensors site
      ({ c with sequence := done.1 }, done.2) := by
  simp only [request, hc, Bool.not_true, Bool.false_eq_true, if_false]
  rfl

theorem asks_of_opened (hc : c.opened = true) : c.asks = askedFrom c.sequence 0 c.sensors :=
  if_pos hc

theorem asks_of_closed (hc : c.opened = false) : c.asks = [] :=
  if_neg (Bool.eq_false_iff.mp hc)

theorem request_fst (c : SensorCounter) (site : Site) :
    (c.request site).1 = { c with sequence := c.sequence + UInt64.ofNat c.asks.length } := by
  by_cases hc : c.opened = true
  · rw [request_of_opened hc, asks_of_opened hc, length_askedFrom,
      ← requestFrom_fst c.device _ 0 _ site]
  · have hclosed : c.opened = false := Bool.eq_false_iff.mpr hc
    have hsame : c.sequence + UInt64.ofNat ([] : List (UInt8 × UInt64)).length = c.sequence :=
      UInt64.add_zero _
    rw [request_of_closed hclosed, asks_of_closed hclosed, hsame]

theorem request_of_bus {b : SensorBus} (hc : c.opened = true) (hb : site.bus? c.device = some b) :
    (c.request site).2 =
      site.afterBus c.device (b.requestAll c.asks).2 ((b.requestAll c.asks).1.countP (!·)) := by
  rw [request_of_opened hc, requestFrom_eq hb, asks_of_opened hc]

theorem restart_of_closed (hc : c.opened = false) : (c.restart site).2 = site := by
  change ((c.collect site).1.request (c.collect site).2).2 = site
  rw [collect_of_closed hc, request_of_closed hc]

theorem restart_of_bus {b : SensorBus} (hc : c.opened = true) (hb : site.bus? c.device = some b) :
    let sent := b.polled.requestAll c.asks
    (c.restart site).2 = site.afterBus c.device sent.2 (b.failedPolls + sent.1.countP (!·)) := by
  change ((c.collect site).1.request (c.collect site).2).2 = _
  rw [collect_of_bus hc hb, acceptAll_eq]
  have hsent := request_of_bus (c := { c with readings := (b.found.foldl accept c).readings }) hc
    (Site.bus?_afterBus (s := site) (b := b.polled) (n := b.failedPolls))
  rw [Site.afterBus_afterBus] at hsent
  exact hsent

theorem askedFrom_getElem? (sequence : UInt64) (index : Nat) (sensors : List Sensor) (i : Nat) :
    (askedFrom sequence index sensors)[i]? =
      sensors[i]?.map fun s => (s.number, correlation (sequence + UInt64.ofNat i) (index + i)) := by
  induction sensors generalizing sequence index i with
  | nil => rfl
  | cons s sensors ih =>
    cases i with
    | zero =>
      have hzero : sequence + UInt64.ofNat 0 = sequence := UInt64.add_zero _
      rw [hzero]
      rfl
    | succ i =>
      rw [askedFrom, List.getElem?_cons_succ, ih, List.getElem?_cons_succ, add_length_succ,
        Nat.add_assoc, Nat.add_comm 1]

/-! Runs of a counter on a machine. -/

inductive Call
  | init
  | reset
  | restart
  | exit
  deriving DecidableEq

inductive Event
  | call (a : Call)
  | meanwhile (change : Site → Site)

def perform : Call → SensorCounter → StateM Site SensorCounter
  | .init, c => do pure (← c.init).2
  | .reset, c => c.reset
  | .restart, c => do pure (← c.restart).2
  | .exit, c => pure c.exit

def performAll : List Event → SensorCounter → StateM Site SensorCounter
  | [], c => pure c
  | .meanwhile change :: events, c => do
    modify change
    performAll events c
  | .call a :: events, c => do performAll events (← perform a c)

theorem perform_init_of_bus {b : SensorBus} (hb : site.bus? c.device = some b) :
    perform .init c site = ({ c with opened := true }, site) := by
  have hopen : (site.hardware.buses.find? c.device).isSome = true := Option.isSome_of_eq_some hb
  change ((init c site).1.2, (init c site).2) = _
  simp only [init, bind, StateT.bind, get, getThe, MonadStateOf.get, StateT.get, Pure.pure]
  rw [if_pos hopen]
  rfl

theorem perform_init_of_no_bus (hb : site.bus? c.device = none) :
    perform .init c site = (c, site) := by
  have hclosed : ¬ (site.hardware.buses.find? c.device).isSome = true := by
    rw [show site.hardware.buses.find? c.device = none from hb]
    decide
  change ((init c site).1.2, (init c site).2) = _
  simp only [init, bind, StateT.bind, get, getThe, MonadStateOf.get, StateT.get, Pure.pure]
  rw [if_neg hclosed]
  rfl

theorem init_cases (c : SensorCounter) (site : Site) :
    (perform .init c site).1 = { c with opened := true } ∨ (perform .init c site).1 = c := by
  cases hb : site.bus? c.device with
  | some b => exact .inl (congrArg Prod.fst (perform_init_of_bus hb))
  | none => exact .inr (congrArg Prod.fst (perform_init_of_no_bus hb))

def takes : Call → SensorCounter → Site → List Response
  | .reset, c, site | .restart, c, site => c.foundOn site
  | .init, _, _ | .exit, _, _ => []

def taken : List Event → SensorCounter → Site → List Response
  | [], _, _ => []
  | .meanwhile change :: events, c, site => taken events c (change site)
  | .call a :: events, c, site =>
    takes a c site ++ taken events (perform a c site).1 (perform a c site).2

def asked : List Event → SensorCounter → Site → List (UInt8 × UInt64)
  | [], _, _ => []
  | .meanwhile change :: events, c, site => asked events c (change site)
  | .call a :: events, c, site =>
    (if a = .restart then c.asks else []) ++ asked events (perform a c site).1 (perform a c site).2

/-- A counter after a run in which `c₀` has taken the responses `rs` and made the requests `qs`. -/
structure Kept (c₀ : SensorCounter) (rs : List Response) (qs : List (UInt8 × UInt64))
    (c : SensorCounter) : Prop where
  device : c.device = c₀.device
  sensors : c.sensors = c₀.sensors
  shows : c.Shows rs
  sequence : c.sequence = UInt64.ofNat qs.length
  whole : c₀.sensors.length ∣ qs.length
  numbered : ∀ (j : Nat) (q : UInt8 × UInt64), qs[j]? = some q →
    q.2 = correlation (UInt64.ofNat j) (j % c₀.sensors.length)

variable {rs : List Response} {qs : List (UInt8 × UInt64)}

theorem kept_new (name device : String) (sensors : List Sensor) :
    Kept (new name device sensors) [] [] (new name device sensors) where
  device := rfl
  sensors := rfl
  shows := by
    refine ⟨List.length_replicate, fun i _ => ?_⟩
    change (List.replicate maxSensors 0).getD i 0 = 0
    rw [List.getD_eq_getElem?_getD, List.getElem?_replicate]
    split <;> rfl
  sequence := rfl
  whole := Nat.dvd_zero _
  numbered := by
    intro j q hq
    cases hq

namespace Kept

variable (hn : c₀.sensors.length ≤ maxSensors)

include hn in
theorem collect (h : Kept c₀ rs qs c) (site : Site) :
    Kept c₀ (rs ++ c.foundOn site) qs (c.collect site).1 := by
  have hn' : c.sensors.length ≤ maxSensors := by rwa [h.sensors]
  have hshows := h.shows.acceptAll hn' (c.foundOn site)
  rw [collect_fst]
  rw [acceptAll_eq] at hshows ⊢
  exact ⟨h.device, h.sensors, hshows, h.sequence, h.whole, h.numbered⟩

theorem request (h : Kept c₀ rs qs c) (site : Site) :
    Kept c₀ rs (qs ++ c.asks) (c.request site).1 := by
  by_cases hc : c.opened = true
  · rw [request_fst]
    have hlength : c.asks.length = c₀.sensors.length := by
      rw [asks_of_opened hc, length_askedFrom, h.sensors]
    refine ⟨h.device, h.sensors, ⟨h.shows.length, h.shows.latest⟩, ?_, ?_, ?_⟩
    · rw [List.length_append, UInt64.ofNat_add, ← h.sequence]
    · rw [List.length_append, hlength]
      exact Nat.dvd_add h.whole (Nat.dvd_refl _)
    · intro j q hq
      by_cases hj : j < qs.length
      · rw [List.getElem?_append_left hj] at hq
        exact h.numbered j q hq
      · -- The new requests are numbered on from `qs.length`, a multiple of the group's size.
        obtain ⟨i, rfl⟩ := Nat.exists_eq_add_of_le (Nat.not_lt.mp hj)
        rw [List.getElem?_append_right (Nat.le_add_right _ _), Nat.add_sub_cancel_left,
          asks_of_opened hc, askedFrom_getElem?, h.sequence, h.sensors] at hq
        obtain ⟨s, hs, rfl⟩ := Option.map_eq_some_iff.mp hq
        have hi : i < c₀.sensors.length := (List.getElem?_eq_some_iff.mp hs).1
        have hindex : (qs.length + i) % c₀.sensors.length = i := by
          obtain ⟨m, hm⟩ := h.whole
          rw [hm, Nat.mul_add_mod, Nat.mod_eq_of_lt hi]
        rw [hindex, UInt64.ofNat_add, Nat.zero_add]
  · have hclosed : c.opened = false := Bool.eq_false_iff.mpr hc
    rw [asks_of_closed hclosed, List.append_nil, request_of_closed hclosed]
    exact h

include hn in
theorem perform (h : Kept c₀ rs qs c) (a : Call) (site : Site) :
    Kept c₀ (rs ++ takes a c site) (qs ++ if a = .restart then c.asks else [])
      (SensorCounter.perform a c site).1 := by
  cases a with
  | init =>
    rw [takes, List.append_nil, if_neg (by decide), List.append_nil]
    rcases init_cases c site with hinit | hinit
    · rw [hinit]
      exact ⟨h.device, h.sensors, ⟨h.shows.length, h.shows.latest⟩, h.sequence, h.whole, h.numbered⟩
    · rw [hinit]
      exact h
  | exit =>
    rw [takes, List.append_nil, if_neg (by decide), List.append_nil]
    exact ⟨h.device, h.sensors, ⟨h.shows.length, h.shows.latest⟩, h.sequence, h.whole, h.numbered⟩
  | reset =>
    rw [if_neg (by decide), List.append_nil]
    exact h.collect hn site
  | restart =>
    have hcollected := h.collect hn site
    have hasks : (c.collect site).1.asks = c.asks := by
      rw [collect_fst, acceptAll_eq]
      rfl
    have hrequested := hcollected.request (c.collect site).2
    rw [hasks] at hrequested
    exact hrequested

include hn in
theorem byteAt_restart (h : Kept c₀ rs qs c) (site : Site) {i : Nat} (hi : i < c₀.sensors.length) :
    byteAt (c.restart site).1.1 i = (latestReading (rs ++ c.foundOn site) i).toUInt64 := by
  have hafter := h.perform hn .restart site
  rw [← hafter.sensors] at hi hn
  exact (byteAt_packed hafter.shows.length hn hi).trans (congrArg _ (hafter.shows.latest i hi))

include hn in
theorem performAll (h : Kept c₀ rs qs c) (events : List Event) (site : Site) :
    Kept c₀ (rs ++ taken events c site) (qs ++ asked events c site)
      (SensorCounter.performAll events c site).1 := by
  induction events generalizing rs qs c site with
  | nil =>
    rw [taken, asked, List.append_nil, List.append_nil]
    exact h
  | cons event events ih =>
    cases event with
    | meanwhile change => exact ih h (change site)
    | call a =>
      rw [taken, asked, ← List.append_assoc, ← List.append_assoc]
      exact ih (h.perform hn a site) (SensorCounter.perform a c site).2

end Kept

theorem taken_concat (events : List Event) (a : Call) (c : SensorCounter) (site : Site) :
    taken (events ++ [.call a]) c site =
      taken events c site ++ takes a (performAll events c site).1 (performAll events c site).2 := by
  induction events generalizing c site with
  | nil => exact List.append_nil _
  | cons event events ih =>
    cases event with
    | meanwhile change => exact ih c (change site)
    | call first =>
      rw [List.cons_append, taken, taken, ih, List.append_assoc]
      rfl

theorem asked_concat_restart (events : List Event) (c : SensorCounter) (site : Site) :
    asked (events ++ [.call .restart]) c site =
      asked events c site ++ (performAll events c site).1.asks := by
  induction events generalizing c site with
  | nil => exact List.append_nil _
  | cons event events ih =>
    cases event with
    | meanwhile change => exact ih c (change site)
    | call first =>
      rw [List.cons_append, asked, asked, ih, List.append_assoc]
      rfl

theorem Kept.apart (h : Kept c₀ rs qs c) (hn : c₀.sensors.length ≤ maxSensors) {i j : Nat}
    {q q' : UInt8 × UInt64} (hi : qs[i]? = some q) (hj : qs[j]? = some q') (hlt : i < j)
    (hnear : j - i < 2 ^ 61) : q.2 ≠ q'.2 := by
  have hpos : 0 < c₀.sensors.length := by
    refine Nat.pos_of_dvd_of_pos h.whole ?_
    exact Nat.lt_of_le_of_lt (Nat.zero_le j) (List.getElem?_eq_some_iff.mp hj).1
  have hindex (k : Nat) : k % c₀.sensors.length < 8 := Nat.lt_of_lt_of_le (Nat.mod_lt k hpos) hn
  have hword (k : Nat) : (UInt64.ofNat k).toNat % 2 ^ 61 = k % 2 ^ 61 := by
    rw [UInt64.toNat_ofNat']
    exact Nat.mod_mod_of_dvd k (by decide)
  intro heq
  have hsame := congrArg UInt64.toNat heq
  rw [h.numbered i q hi, h.numbered j q' hj, toNat_correlation _ (hindex i),
    toNat_correlation _ (hindex j), hword, hword] at hsame
  have hi8 := hindex i
  have hj8 := hindex j
  omega

theorem askedFrom_numbers (sequence : UInt64) (index : Nat) (sensors : List Sensor) :
    (askedFrom sequence index sensors).map Prod.fst = sensors.map Sensor.number := by
  induction sensors generalizing sequence index with
  | nil => rfl
  | cons s sensors ih => rw [askedFrom, List.map_cons, ih, List.map_cons]

theorem askedFrom_indices (sequence : UInt64) {index : Nat} {sensors : List Sensor}
    (h : index + sensors.length ≤ 8) :
    (askedFrom sequence index sensors).map (·.2.toNat % 8) = List.range' index sensors.length := by
  induction sensors generalizing sequence index with
  | nil => rfl
  | cons s sensors ih =>
    rw [List.length_cons] at h ⊢
    rw [askedFrom, List.map_cons, ih _ (by omega), toNat_correlation _ (by omega),
      Nat.mul_add_mod, Nat.mod_eq_of_lt (by omega), List.range'_succ]

/-- A word holds the latest readings that have been taken from the bus. A tick takes what the bus
has up to the first failing poll, and then requests each sensor once, in order, under a number that
tells its index and that has not been used for `2 ^ 61` requests. -/
theorem restart_shows_latest_readings (name device : String) (sensors : List Sensor)
    (events : List Event) (site : Site) :
    let group := sensors.take maxSensors
    let fresh := new name device sensors
    let run := performAll events fresh site
    let restarted := run.1.restart run.2
    let takenBy a := taken (events ++ [.call a]) fresh site
    let askedBy := asked (events ++ [.call .restart]) fresh site
    (∀ i < group.length, byteAt restarted.1.1 i = (latestReading (takenBy .restart) i).toUInt64) ∧
    restarted.1.1.toNat < 2 ^ (8 * group.length) ∧
    (∀ r : Response, r.reading = none ∨ group.length ≤ r.correlation.toNat % 8 →
      run.1.accept r = run.1) ∧
    (run.1.opened = false →
      restarted.2 = run.2 ∧ (run.1.reset run.2).2 = run.2 ∧
      (∀ a, takenBy a = taken events fresh site) ∧ askedBy = asked events fresh site) ∧
    (∀ b : SensorBus, run.1.opened = true → run.2.bus? device = some b →
      ∃ found failed between requests, b.Polls found failed between ∧
        let sent := between.requestAll requests
        takenBy .reset = taken events fresh site ++ found ∧
        (run.1.reset run.2).2 = run.2.afterBus device between failed ∧
        takenBy .restart = taken events fresh site ++ found ∧
        askedBy = asked events fresh site ++ requests ∧
        requests.map Prod.fst = group.map Sensor.number ∧
        requests.map (·.2.toNat % 8) = List.range group.length ∧
        sent.2.requests = b.requests ++ requests ∧
        between.pending <+: sent.2.pending ∧
        restarted.2 = run.2.afterBus device sent.2 (failed + sent.1.countP (!·))) ∧
    ∀ (i j : Nat) (q q' : UInt8 × UInt64), askedBy[i]? = some q → askedBy[j]? = some q' → i < j →
      j - i < 2 ^ 61 → q.2 ≠ q'.2 := by
  intro group fresh run restarted takenBy askedBy
  have hn : fresh.sensors.length ≤ maxSensors := List.length_take_le _ _
  have hbefore : Kept fresh (taken events fresh site) (asked events fresh site) run.1 :=
    (kept_new name device sensors).performAll hn events site
  have htaken a : takenBy a = taken events fresh site ++ takes a run.1 run.2 :=
    taken_concat events a fresh site
  have hasked : askedBy = asked events fresh site ++ run.1.asks :=
    asked_concat_restart events fresh site
  have hafter : Kept fresh (takenBy .restart) askedBy restarted.1.2 := by
    rw [htaken, hasked]
    exact hbefore.perform hn .restart run.2
  have hvalue : restarted.1.1 = restarted.1.2.packed := rfl
  have hgroup : restarted.1.2.sensors = group := hafter.sensors
  have hn' : restarted.1.2.sensors.length ≤ maxSensors := by
    rw [hafter.sensors]
    exact hn
  refine ⟨fun i hi => ?_, ?_, fun r hr => ?_, fun hclosed => ?_, fun b hopened hb => ?_,
    fun i j q q' hi hj => hafter.apart hn hi hj⟩
  · rw [← hgroup] at hi
    rw [hvalue, byteAt_packed hafter.shows.length hn' hi, hafter.shows.latest i hi]
  · rw [hvalue, ← hgroup]
    exact packed_lt hn'
  · apply accept_eq_self
    rwa [hbefore.sensors]
  · have htakes a : takes a run.1 run.2 = [] := by
      cases a with
      | reset | restart => exact foundOn_of_closed hclosed
      | init | exit => rfl
    refine ⟨restart_of_closed hclosed, congrArg Prod.snd (collect_of_closed hclosed), fun a => ?_,
      ?_⟩
    · rw [htaken, htakes, List.append_nil]
    · rw [hasked, asks_of_closed hclosed, List.append_nil]
  · have hdevice : run.1.device = device := hbefore.device
    have hb' : run.2.bus? run.1.device = some b := by rwa [hdevice]
    have hfound : run.1.foundOn run.2 = b.found := foundOn_of_bus hopened hb'
    have hasks : run.1.asks = askedFrom run.1.sequence 0 group := by
      rw [asks_of_opened hopened, hbefore.sensors]
      rfl
    refine ⟨b.found, b.failedPolls, b.polled, run.1.asks, b.polls_polled, ?_, ?_, ?_, hasked, ?_,
      ?_, ?_, SensorBus.pending_prefix_requestAll _ _, ?_⟩
    · rw [htaken, ← hfound]
      rfl
    · rw [← hdevice]
      exact congrArg Prod.snd (collect_of_bus hopened hb')
    · rw [htaken, ← hfound]
      rfl
    · rw [hasks, askedFrom_numbers]
    · rw [hasks, askedFrom_indices _ (by rw [Nat.zero_add]; exact hn), List.range_eq_range']
    · rw [SensorBus.requests_requestAll, b.polls_polled.requests_eq]
    · rw [← hdevice]
      exact restart_of_bus hopened hb'

theorem two_failing_ticks :
    let sensors : List Sensor := [⟨"inlet", 1, 1⟩, ⟨"outlet", 2, 1⟩]
    let bus : SensorBus :=
      { pending := [.response ⟨17, some 9⟩, .failure, .response ⟨8, some 7⟩, .failure]
        refusals := [true, false, true] }
    let site : Site := { hardware := { buses := [("/dev/ipmi0", bus)] } }
    let b : SensorBus :=
      { pending := [.response ⟨8, some 7⟩, .failure, .response ⟨9, none⟩]
        requests := [(1, 0), (2, 9)], refusals := [true] }
    let events : List Event := [.call .init, .call .restart]
    let run := performAll events (new "board" "/dev/ipmi0" sensors) site
    let restarted := run.1.restart run.2
    let askedBy := asked (events ++ [.call .restart]) (new "board" "/dev/ipmi0" sensors) site
    run.1.opened = true ∧ run.2.bus? "/dev/ipmi0" = some b ∧
      byteAt restarted.1.1 0 = 7 ∧ byteAt restarted.1.1 1 = 9 ∧ restarted.1.1.toNat < 2 ^ 16 ∧
      run.1.accept ⟨10, some 5⟩ = run.1 ∧
      (∃ found failed between requests, b.Polls found failed between ∧
        askedBy = [(1, 0), (2, 9)] ++ requests ∧ requests.map Prod.fst = [1, 2] ∧
        restarted.2 = run.2.afterBus "/dev/ipmi0" (between.requestAll requests).2
          (failed + (between.requestAll requests).1.countP (!·))) ∧
      askedBy[0]? = some (1, 0) ∧ askedBy[2]? = some (1, 16) ∧ (0 : UInt64) ≠ 16 := by
  intro sensors bus site b events
  obtain ⟨hbytes, hword, hkept, -, hbus, hapart⟩ :=
    restart_shows_latest_readings "board" "/dev/ipmi0" sensors events site
  have hinlet := hbytes 0 (by decide)
  have houtlet := hbytes 1 (by decide)
  rw [show (latestReading _ _).toUInt64 = 7 by decide] at hinlet
  rw [show (latestReading _ _).toUInt64 = 9 by decide] at houtlet
  have hopened : (performAll events (new "board" "/dev/ipmi0" sensors) site).1.opened = true := by
    decide
  have hb : (performAll events (new "board" "/dev/ipmi0" sensors) site).2.bus? "/dev/ipmi0" =
      some b := by
    decide
  obtain ⟨found, failed, between, requests, hpolls, -, -, -, hasked, hnumbers, -, -, -, hsite⟩ :=
    hbus b hopened hb
  rw [show asked events _ _ = [(1, 0), (2, 9)] by decide] at hasked
  exact ⟨hopened, hb, hinlet, houtlet, hword, hkept ⟨10, some 5⟩ (.inr (by decide)),
    ⟨found, failed, between, requests, hpolls, hasked, hnumbers, hsite⟩, by decide, by decide,
    hapart 0 2 (1, 0) (1, 16) (by decide) (by decide) (by decide) (by decide)⟩

end SensorCounter

end NodeTelemetry
