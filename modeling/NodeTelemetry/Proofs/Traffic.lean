import Mathlib
import NodeTelemetry.Proofs.PlaneRun
import NodeTelemetry.Proofs.Tally

namespace NodeTelemetry

open Log Node ControlPlane History

inductive Task
  | starting (place : Nat)
  | stopping (place count : Nat) (told : Bool)
  deriving DecidableEq

namespace Task

def afterStart (i : Nat) : Option StartError → Task
  | none => .starting (i + 1)
  | some _ => .stopping 0 i false

def afterStop (i count : Nat) (waits : Bool) : Task :=
  if waits then .stopping i count true else .stopping (i + 1) count false

end Task

/-- A plane while clients are served, one of which may hold the switch. -/
structure Traffic where
  plane : ControlPlane
  task : Option Task := none

inductive Move
  | thread (h : Happening)
  | read (name : String)
  | write (name input : String)
  | proceed

abbrev Entry := Nat × (Op × String)

namespace Traffic

def withNodes (t : Traffic) (nodes : List Node) : Traffic :=
  { t with plane := { t.plane with nodes } }

def told (t : Traffic) (i : Nat) : Bool :=
  match t.task with
  | some (.stopping place _ told) => told && place == i
  | _ => false

def onThread (t : Traffic) : Happening → StateM Site (List Node)
  | .step i =>
    visit i (onSampler (Sampler.onWorker (Worker.step t.plane.pace (t.told i)))) t.plane.nodes
  | .crash i => visit i (onSampler Sampler.crash) t.plane.nodes

def pushesSince (before after : Log) : List Entry :=
  (after.take (after.length - before.length)).reverse.filterMap fun (i, d) => match d with
    | .push sample => some (i, (.push sample, ""))
    | _ => none

def thread (h : Happening) (t : Traffic) : StateM Site (List Entry × Traffic) := fun site =>
  let (nodes, site') := t.onThread h site
  ((pushesSince site.log site'.log, t.withNodes nodes), site')

def readEntries (p : ControlPlane) (name : String) : List Entry :=
  match p.attribute? name, (p.read name).1 with
  | some (.history i), .ok text => [(i, (.drain p.limit, text))]
  | some (.last i), .ok text => [(i, (.last, text))]
  | _, _ => []

def read (name : String) (t : Traffic) : List Entry × Traffic :=
  if t.task.isSome && t.plane.attribute? name == some .power then ([], t)
  else (readEntries t.plane name, { t with plane := (t.plane.read name).2 })

def turn (on : Bool) (t : Traffic) : Traffic :=
  if t.plane.closed || t.plane.on == on then t
  else { t with task := some (if on then .starting 0 else .stopping 0 t.plane.nodes.length false) }

def writeEntries (p : ControlPlane) (name input : String) : List Entry :=
  match p.attribute? name with
  | some (.clear i) =>
    let word := Text.trim input.toList
    if word = ['o', 'n'] ∨ word = ['1'] then [(i, (.clear, ""))] else []
  | _ => []

def write (name input : String) (t : Traffic) : StateM Site (List Entry × Traffic) :=
  match t.plane.attribute? name with
  | some .power =>
    if t.task.isSome then pure ([], t)
    else if begins input.toList "on" then pure ([], t.turn true)
    else if begins input.toList "off" then pure ([], t.turn false)
    else pure ([], t)
  | some .period =>
    if t.task.isSome then pure ([], t)
    else do pure ([], { t with plane := (← t.plane.write name input).2 })
  | _ => do
    pure (writeEntries t.plane name input, { t with plane := (← t.plane.write name input).2 })

def stopStep (told : Bool) (n : Node) : Bool × Node :=
  match n.sampler with
  | none => (false, n)
  | some s =>
    match s.state with
    | .running (.working _ _) => (true, n)
    | .running w => if told then (false, n.withState s (.ofEnded w)) else (true, n)
    | _ => (false, n)

def proceed (t : Traffic) : StateM Site Traffic :=
  match t.task with
  | none => pure t
  | some (.starting i) =>
    match t.plane.nodes[i]? with
    | none => pure { plane := { t.plane with on := true } }
    | some n => do
      let (e, n) ← n.start
      pure { t.withNodes (t.plane.nodes.set i n) with task := some (.afterStart i e) }
  | some (.stopping i count told) =>
    match if i < count then t.plane.nodes[i]? else none with
    | none => pure { plane := { t.plane with on := false } }
    | some n =>
      let (waits, n) := stopStep told n
      pure { t.withNodes (t.plane.nodes.set i n) with task := some (.afterStop i count waits) }

def step : Move → Traffic → StateM Site (List Entry × Traffic)
  | .thread h, t => t.thread h
  | .read name, t => pure (t.read name)
  | .write name input, t => t.write name input
  | .proceed, t => do pure ([], ← t.proceed)

def play : List Move → Traffic → StateM Site (List Entry × Traffic)
  | [], t => pure ([], t)
  | m :: moves, t => do
    let (now, t) ← t.step m
    let (later, t) ← play moves t
    pure (now ++ later, t)

inductive Effect (nodes : List Node) (tally : Tally) : List Entry → List Node → Tally → Prop
  | nothing {nodes' : List Node} (hh : nodes'.map Node.history = nodes.map Node.history) :
      Effect nodes tally [] nodes' tally
  | acts {i : Nat} {n n' : Node} (op : Op) (hn : nodes[i]? = some n)
      (hh : n'.history = (act op n.history).2) :
      Effect nodes tally [(i, (op, (act op n.history).1))] (nodes.set i n')
        (tally.after op n.history)

def entriesAt (entries : List Entry) (i : Nat) : List (Op × String) :=
  (entries.filter fun entry => entry.1 = i).map Prod.snd

def Logged (before after : Log) (entries : List Entry) : Prop :=
  ∀ i, pushesOf (deeds after i) = pushesOf (deeds before i) ++ Ledger.pushes (entriesAt entries i)

def AllPlaced (nodes : List Node) : Prop := ∀ (i : Nat) (n : Node), nodes[i]? = some n → n.Placed i

variable {t : Traffic} {nodes : List Node} {n n' : Node} {i : Nat} {ds : List Deed}
  {before after : Log} {tally : Tally}

theorem entriesAt_append (xs ys : List Entry) (i : Nat) :
    entriesAt (xs ++ ys) i = entriesAt xs i ++ entriesAt ys i := by
  rw [entriesAt, List.filter_append, List.map_append]
  rfl

theorem entriesAt_self (i : Nat) (e : Op × String) : entriesAt [(i, e)] i = [e] := by
  simp [entriesAt]

theorem entriesAt_of_ne {j : Nat} (hj : j ≠ i) (e : Op × String) : entriesAt [(i, e)] j = [] := by
  simp [entriesAt, hj.symm]

theorem Logged.trans {middle : Log} {xs ys : List Entry} (h : Logged before middle xs)
    (h' : Logged middle after ys) : Logged before after (xs ++ ys) := by
  intro i
  rw [h' i, h i, entriesAt_append, Ledger.pushes_append, List.append_assoc]

theorem pushesSince_adds (h : Adds i ds before after) :
    pushesSince before after = (pushesOf ds).map fun v => (i, (.push v, "")) := by
  rw [Adds] at h
  have hlen : after.length - before.length = (ds.map fun d => (i, d)).reverse.length := by
    rw [h, List.length_append]
    omega
  rw [pushesSince, hlen, h, List.take_left, List.reverse_reverse, List.filterMap_map, pushesOf,
    List.map_filterMap]
  congr 1
  funext d
  cases d <;> rfl

theorem logged_adds (h : Adds i ds before after) :
    Logged before after ((pushesOf ds).map fun v => (i, (.push v, ""))) := by
  intro j
  by_cases hj : j = i
  · subst hj
    rw [h.deeds_self, pushesOf_append]
    congr 1
    simp [entriesAt, Ledger.pushes, List.filter_map, List.filterMap_map, Function.comp_def]
  · rw [h.deeds_of_ne hj]
    have hne : ¬ i = j := fun he => hj he.symm
    simp [entriesAt, Ledger.pushes, List.filter_map, Function.comp_def, hne]

theorem logged_nothing (h : Adds i ds before after) (hnone : pushesOf ds = []) :
    Logged before after [] := by
  have hlogged := logged_adds h
  rwa [hnone] at hlogged

theorem map_set {α : Type} {view : Node → α} (hn : nodes[i]? = some n) (hv : view n' = view n) :
    (nodes.set i n').map view = nodes.map view := by
  apply List.ext_getElem?
  intro j
  rw [List.getElem?_map, List.getElem?_map]
  by_cases hj : i = j
  · subst hj
    rw [List.getElem?_set_self', hn]
    exact congrArg some hv
  · rw [List.getElem?_set_ne hj]

theorem set_same (hn : nodes[i]? = some n) : nodes.set i { n with history := n.history } = nodes := by
  apply List.ext_getElem?
  intro j
  by_cases hj : i = j
  · subst hj
    rw [List.getElem?_set_self', hn]
    rfl
  · rw [List.getElem?_set_ne hj]

theorem allPlaced_set (h : AllPlaced nodes) (hp : n'.Placed i) : AllPlaced (nodes.set i n') := by
  intro j m hm
  by_cases hj : i = j
  · subst hj
    rw [List.getElem?_set_self'] at hm
    cases hi : nodes[i]? with
    | none => simp [hi] at hm
    | some n =>
      simp only [hi] at hm
      cases hm
      exact hp
  · rw [List.getElem?_set_ne hj] at hm
    exact h j m hm

structure Sound (nodes : List Node) (site : Site) (entries : List Entry) (nodes' : List Node)
    (site' : Site) : Prop where
  placed : AllPlaced nodes'
  ids : nodes'.map Node.id = nodes.map Node.id
  logged : Logged site.log site'.log entries
  effect : Effect nodes site.tally entries nodes' site'.tally

theorem sound_refl (h : AllPlaced nodes) (site : Site) : Sound nodes site [] nodes site :=
  ⟨h, rfl, logged_nothing (Adds.nil rfl : Adds 0 [] site.log site.log) rfl, .nothing rfl⟩

theorem sound_set {site site' : Site} (h : AllPlaced nodes) (hn : nodes[i]? = some n)
    (hp : n'.Placed i) (hid : n'.id = n.id) (hadds : Adds i ds site.log site'.log)
    (hb : Worker.Brings n.history site.tally (pushesOf ds) n'.history site'.tally) :
    Sound nodes site ((pushesOf ds).map fun v => (i, (.push v, ""))) (nodes.set i n') site' := by
  refine ⟨allPlaced_set h hp, map_set hn hid, logged_adds hadds, ?_⟩
  generalize pushesOf ds = samples at hb
  generalize hh : n'.history = h' at hb
  generalize site'.tally = tally' at hb
  cases hb with
  | nothing => exact .nothing (map_set hn hh)
  | sample v => exact .acts (.push v) hn hh

theorem id_onSampler (act : Sampler → History → StateM Site (Sampler × History)) (n : Node)
    (site : Site) : (n.onSampler act site).1.id = n.id := by
  cases hs : n.sampler with
  | none => rw [onSampler_none hs]
  | some s => rw [onSampler_eq hs]

theorem id_start (n : Node) (site : Site) : (n.start site).1.2.id = n.id := by
  cases hs : n.sampler with
  | none =>
    simp only [start, hs]
    rfl
  | some s => rw [start_eq hs]

theorem thread_sound (h : AllPlaced t.plane.nodes) (e : Happening) (site : Site) :
    Sound t.plane.nodes site (t.thread e site).1.1 (t.thread e site).1.2.plane.nodes
      (t.thread e site).2 := by
  have visited {i : Nat} {act : Node → StateM Site Node}
      (hact : ∀ n site, n.Placed i → (act n site).1.Placed i ∧ (act n site).1.id = n.id ∧
        ∃ ds, Adds i ds site.log (act n site).2.log ∧ Worker.Brings n.history site.tally
          (pushesOf ds) (act n site).1.history (act n site).2.tally) :
      Sound t.plane.nodes site (pushesSince site.log (visit i act t.plane.nodes site).2.log)
        (visit i act t.plane.nodes site).1 (visit i act t.plane.nodes site).2 := by
    cases hn : t.plane.nodes[i]? with
    | none =>
      rw [visit_none hn, pushesSince_adds (Adds.nil rfl : Adds i [] site.log site.log)]
      exact sound_refl h site
    | some n =>
      obtain ⟨hp, hid, ds, hadds, hb⟩ := hact n site (h i n hn)
      rw [visit_some hn, pushesSince_adds hadds]
      exact sound_set h hn hp hid hadds hb
  cases e with
  | step i =>
    apply visited
    intro n site hp
    refine ⟨?_, id_onSampler _ n site, Node.step_brings t.plane.pace (t.told i) hp site⟩
    obtain ⟨ds, hd, -⟩ := onWorker_drifts hp
      (fun _ h site hw => Worker.step_works t.plane.pace (t.told i) hw h site) site
    exact hd.placed hp
  | crash i =>
    apply visited
    intro n site hp
    refine ⟨?_, id_onSampler _ n site, Node.crash_brings hp site⟩
    obtain ⟨ds, hd, -⟩ := Node.crash_drifts hp site
    exact hd.placed hp

theorem nodeAttribute?_eq_some {nodes : List Node} {name : String} {a : Attribute}
    {bases : List (String × (Nat → Attribute))} (h : nodeAttribute? nodes name bases = some a) :
    ∃ i base ofNode, i < nodes.length ∧ (base, ofNode) ∈ bases ∧ a = ofNode i := by
  induction bases with
  | nil => cases h
  | cons entry bases ih =>
    obtain ⟨base, ofNode⟩ := entry
    rw [nodeAttribute?] at h
    split at h
    · obtain ⟨i, hi, rfl⟩ := Option.map_eq_some_iff.mp h
      refine ⟨i, base, ofNode, ?_, List.mem_cons_self, rfl⟩
      exact (List.findIdx?_eq_some_iff_findIdx_eq.mp hi).1
    · obtain ⟨i, base', ofNode', hi, hmem, ha⟩ := ih h
      exact ⟨i, base', ofNode', hi, List.mem_cons_of_mem _ hmem, ha⟩

theorem node_of_attribute? {p : ControlPlane} {name : String} {a : Attribute}
    (h : p.attribute? name = some a) :
    a = .power ∨ a = .period ∨
      ∃ i n, p.nodes[i]? = some n ∧ (a = .clear i ∨ a = .history i ∨ a = .last i) := by
  unfold attribute? at h
  split_ifs at h
  · exact .inl (Option.some.inj h).symm
  · exact .inr (.inl (Option.some.inj h).symm)
  · obtain ⟨i, base, ofNode, hi, hmem, rfl⟩ := nodeAttribute?_eq_some h
    refine .inr (.inr ⟨i, _, List.getElem?_eq_getElem hi, ?_⟩)
    simp only [perNode, List.mem_cons, Prod.mk.injEq, List.not_mem_nil, or_false] at hmem
    rcases hmem with ⟨-, rfl⟩ | ⟨-, rfl⟩ | ⟨-, rfl⟩
    · exact .inl rfl
    · exact .inr (.inl rfl)
    · exact .inr (.inr rfl)

theorem sound_request (h : AllPlaced nodes) (hn : nodes[i]? = some n) (op : Op)
    (hop : ∀ sample, op ≠ .push sample) (site : Site) :
    Sound nodes site [(i, (op, (act op n.history).1))]
      (nodes.set i { n with history := (act op n.history).2 }) site := by
  refine ⟨allPlaced_set h (h i n hn), map_set hn rfl, ?_, ?_⟩
  · intro j
    have hnone : Ledger.pushes (entriesAt [(i, (op, (act op n.history).1))] j) = [] := by
      apply List.filterMap_eq_nil_iff.mpr
      intro entry hentry
      obtain ⟨_, hmem, rfl⟩ := List.mem_map.mp hentry
      rw [List.mem_singleton.mp (List.mem_filter.mp hmem).1]
      cases op with
      | push sample => exact absurd rfl (hop sample)
      | _ => rfl
    rw [hnone, List.append_nil]
  · have hacts : Effect nodes site.tally [(i, (op, (act op n.history).1))]
        (nodes.set i { n with history := (act op n.history).2 }) (site.tally.after op n.history) :=
      .acts op hn rfl
    cases op with
    | push sample => exact absurd rfl (hop sample)
    | _ => exact hacts

theorem read_sound (h : AllPlaced t.plane.nodes) (name : String) (site : Site) :
    Sound t.plane.nodes site (t.read name).1 (t.read name).2.plane.nodes site := by
  unfold Traffic.read
  split_ifs
  · exact sound_refl h site
  · cases ha : t.plane.attribute? name with
    | none =>
      simp only [readEntries, ControlPlane.read, ha]
      exact sound_refl h site
    | some a =>
      rcases node_of_attribute? ha with rfl | rfl | ⟨i, n, hn, rfl | rfl | rfl⟩
      · simp only [readEntries, ControlPlane.read, ha]
        exact sound_refl h site
      · simp only [readEntries, ControlPlane.read, ha]
        exact sound_refl h site
      · simp only [readEntries, ControlPlane.read, ha]
        exact sound_refl h site
      · simp only [readEntries, ControlPlane.read, ha, readHistory, hn, modifyHistory_of_some hn]
        exact sound_request h hn (.drain t.plane.limit) (by rintro _ ⟨⟩) site
      · simp only [readEntries, ControlPlane.read, ha, readLast, hn]
        have hlast := sound_request h hn .last (by rintro _ ⟨⟩) site
        have hsame : t.plane.nodes.set i { n with history := (act .last n.history).2 } =
            t.plane.nodes := set_same hn
        rwa [hsame] at hlast

theorem nodes_turn (on : Bool) (t : Traffic) : (t.turn on).plane.nodes = t.plane.nodes := by
  unfold turn
  split_ifs <;> rfl

theorem nodes_setPeriod (ms : UInt64) (p : ControlPlane) : (p.setPeriod ms).2.nodes = p.nodes := by
  unfold setPeriod
  split_ifs <;> rfl

theorem write_sound (h : AllPlaced t.plane.nodes) (name input : String) (site : Site) :
    Sound t.plane.nodes site (t.write name input site).1.1
      (t.write name input site).1.2.plane.nodes (t.write name input site).2 := by
  have hsame {nodes' : List Node} (hn : nodes' = t.plane.nodes) :
      Sound t.plane.nodes site [] nodes' site := by
    rw [hn]
    exact sound_refl h site
  cases ha : t.plane.attribute? name with
  | none =>
    simp only [Traffic.write, writeEntries, ControlPlane.write, ha]
    exact hsame rfl
  | some a =>
    rcases node_of_attribute? ha with rfl | rfl | ⟨i, n, hn, rfl | rfl | rfl⟩
    · simp only [Traffic.write, ha]
      split_ifs
      · exact hsame rfl
      · exact hsame (nodes_turn true t)
      · exact hsame (nodes_turn false t)
      · exact hsame rfl
    · simp only [Traffic.write, ControlPlane.write, ha]
      split_ifs
      · exact hsame rfl
      · apply hsame
        cases parsePeriod input with
        | none => rfl
        | some ms => exact nodes_setPeriod ms t.plane
    · simp only [Traffic.write, writeEntries, ControlPlane.write, ha]
      split_ifs
      · have hclear := sound_request h hn .clear (by rintro _ ⟨⟩) site
        change Sound t.plane.nodes site [(i, (.clear, ""))] (t.plane.clear i).nodes site
        rw [ControlPlane.clear, modifyHistory_of_some hn]
        exact hclear
      · exact hsame rfl
    · simp only [Traffic.write, writeEntries, ControlPlane.write, ha]
      exact hsame rfl
    · simp only [Traffic.write, writeEntries, ControlPlane.write, ha]
      exact hsame rfl

theorem stopStep_rests (told : Bool) (hp : n.Placed i) :
    (stopStep told n).2.Placed i ∧ (stopStep told n).2.id = n.id ∧
      (stopStep told n).2.history = n.history := by
  unfold stopStep
  split
  · exact ⟨hp, rfl, rfl⟩
  · rename_i s hs
    split
    · exact ⟨hp, rfl, rfl⟩
    · rename_i w _ hst
      cases told with
      | false => exact ⟨hp, rfl, rfl⟩
      | true =>
        refine ⟨withState_placed.mpr (SamplerState.ofEnded_placed ?_), rfl, rfl⟩
        have hplaced := hp s hs
        rwa [hst] at hplaced
    · exact ⟨hp, rfl, rfl⟩

theorem proceed_idle (ht : t.task = none) (site : Site) : t.proceed site = (t, site) := by
  simp only [proceed, ht]
  rfl

theorem proceed_started (ht : t.task = some (.starting i)) (hn : t.plane.nodes[i]? = none)
    (site : Site) : t.proceed site = ({ plane := { t.plane with on := true } }, site) := by
  simp only [proceed, ht, hn]
  rfl

theorem proceed_start (ht : t.task = some (.starting i)) (hn : t.plane.nodes[i]? = some n)
    (site : Site) :
    t.proceed site =
      let done := n.start site
      ({ t.withNodes (t.plane.nodes.set i done.1.2) with task := some (.afterStart i done.1.1) },
        done.2) := by
  simp only [proceed, ht, hn]
  rfl

theorem proceed_stopped {count : Nat} {told : Bool} (ht : t.task = some (.stopping i count told))
    (hn : (if i < count then t.plane.nodes[i]? else none) = none) (site : Site) :
    t.proceed site = ({ plane := { t.plane with on := false } }, site) := by
  simp only [proceed, ht, hn]
  rfl

theorem proceed_stop {count : Nat} {told : Bool} (ht : t.task = some (.stopping i count told))
    (hi : i < count) (hn : t.plane.nodes[i]? = some n) (site : Site) :
    t.proceed site =
      let done := stopStep told n
      ({ t.withNodes (t.plane.nodes.set i done.2) with task := some (.afterStop i count done.1) },
        site) := by
  simp only [proceed, ht, if_pos hi, hn]
  rfl

theorem sound_quiet {site site' : Site} (h : AllPlaced nodes) (hn : nodes[i]? = some n)
    (hp : n'.Placed i) (hid : n'.id = n.id) (hh : n'.history = n.history)
    (hadds : Adds i ds site.log site'.log) (hnone : pushesOf ds = [])
    (htally : site'.tally = site.tally) : Sound nodes site [] (nodes.set i n') site' := by
  have hbrings : Worker.Brings n.history site.tally (pushesOf ds) n'.history site'.tally := by
    rw [hnone, hh, htally]
    exact .nothing
  have hset := sound_set h hn hp hid hadds hbrings
  rwa [hnone] at hset

theorem proceed_sound (h : AllPlaced t.plane.nodes) (site : Site) :
    Sound t.plane.nodes site [] (t.proceed site).1.plane.nodes (t.proceed site).2 := by
  cases ht : t.task with
  | none =>
    rw [proceed_idle ht]
    exact sound_refl h site
  | some task =>
    cases task with
    | starting i =>
      cases hn : t.plane.nodes[i]? with
      | none =>
        rw [proceed_started ht hn]
        exact sound_refl h site
      | some n =>
        obtain ⟨hp, hh, ds, hadds, hnone⟩ := start_brings_nothing (h i n hn) site
        rw [proceed_start ht hn]
        exact sound_quiet h hn hp (id_start n site) hh hadds hnone (n.tally_start site)
    | stopping i count told =>
      cases hn : if i < count then t.plane.nodes[i]? else none with
      | none =>
        rw [proceed_stopped ht hn]
        exact sound_refl h site
      | some n =>
        obtain ⟨hi, hn⟩ := Option.ite_none_right_eq_some.mp hn
        obtain ⟨hp, hid, hh⟩ := stopStep_rests told (h i n hn)
        rw [proceed_stop ht hi hn]
        exact sound_quiet h hn hp hid hh (.nil rfl) rfl rfl

theorem step_sound (h : AllPlaced t.plane.nodes) (m : Move) (site : Site) :
    Sound t.plane.nodes site (t.step m site).1.1 (t.step m site).1.2.plane.nodes
      (t.step m site).2 := by
  cases m with
  | thread e => exact thread_sound h e site
  | read name => exact read_sound h name site
  | write name input => exact write_sound h name input site
  | proceed => exact proceed_sound h site

end Traffic

end NodeTelemetry
