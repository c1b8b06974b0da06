import Mathlib
import NodeTelemetry.Proofs.Frame
import NodeTelemetry.Registry

namespace NodeTelemetry

abbrev Log := List (Nat × Deed)

namespace Log

def deeds (log : Log) (i : Nat) : List Deed :=
  ((log.filter fun entry => entry.1 = i).map Prod.snd).reverse

def Adds (i : Nat) (ds : List Deed) (before after : Log) : Prop :=
  after = (ds.map fun d => (i, d)).reverse ++ before

variable {i j : Nat} {ds es : List Deed} {before middle after : Log}

namespace Adds

theorem nil (h : after = before) : Adds i [] before after := h

theorem one (i : Nat) (d : Deed) (before : Log) : Adds i [d] before ((i, d) :: before) := rfl

theorem trans (h : Adds i ds before middle) (h' : Adds i es middle after) :
    Adds i (ds ++ es) before after := by
  rw [Adds] at *
  rw [h', h, List.map_append, List.reverse_append, List.append_assoc]

theorem deeds_self (h : Adds i ds before after) : deeds after i = deeds before i ++ ds := by
  rw [Adds] at h
  simp [deeds, h, List.filter_append, List.filter_map, Function.comp_def]

theorem deeds_of_ne (h : Adds i ds before after) (hj : j ≠ i) : deeds after j = deeds before j := by
  rw [Adds] at h
  have hn : ¬ i = j := fun he => hj he.symm
  simp [deeds, h, List.filter_append, List.filter_map, Function.comp_def, hn]

end Adds

end Log

open Log

def Slot.name (s : Slot) : String := s.counter.name

namespace Registry

def names (r : Registry) : List String := r.slots.map Slot.name

def calls (act : Act) (names : List String) : List Deed := names.map fun name => .call name act

def sampleCalls : List String → List UInt64 → List UInt64 → List Deed
  | name :: names, l :: last, v :: values =>
    .call name (.restart l (some v)) :: sampleCalls names last values
  | _, _, _ => []

def IsUse (names : List String) (d : Deed) : Prop :=
  ∃ name ∈ names, d = .call name .reset ∨ ∃ last value, d = .call name (.restart last value)

variable {place : Nat} {slots : List Slot}

theorem adds_note (place : Nat) (c : Counter) (act : Act) (s : Scene) :
    Adds place [.call c.name act] s.log (note place c act s).2.log := rfl

theorem callAll_cons (act : Act) (change : Counter → StateM Scene Counter) (slot : Slot)
    (slots : List Slot) (s : Scene) :
    callAll place act change (slot :: slots) s =
      let now := change slot.counter s
      let later := callAll place act change slots (note place now.1 act now.2).2
      ({ slot with counter := now.1 } :: later.1, later.2) := rfl

theorem callAll_spec (place : Nat) (act : Act) {change : Counter → StateM Scene Counter}
    (hk : ∀ c, Keeps Scene.books (change c)) (hn : ∀ c, Yields (change c) (·.name = c.name))
    (slots : List Slot) (s : Scene) :
    (callAll place act change slots s).1.map Slot.name = slots.map Slot.name ∧
      (callAll place act change slots s).1.map Slot.last = slots.map Slot.last ∧
      Adds place (calls act (slots.map Slot.name)) s.log
        (callAll place act change slots s).2.log := by
  induction slots generalizing s with
  | nil => exact ⟨rfl, rfl, rfl⟩
  | cons slot slots ih =>
    rw [callAll_cons]
    have hname : (change slot.counter s).1.name = slot.name := hn slot.counter s
    obtain ⟨hnames, hlasts, hadds⟩ :=
      ih (note place (change slot.counter s).1 act (change slot.counter s).2).2
    refine ⟨?_, ?_, ?_⟩
    · simp only [List.map_cons, hnames]
      rw [Slot.name, hname]
    · simp only [List.map_cons, hlasts]
    · have hnow := adds_note place (change slot.counter s).1 act
        (change slot.counter s).2
      rw [(hk slot.counter).scene_log s, hname] at hnow
      exact hnow.trans hadds

theorem restart_spec (place : Nat) (slot : Slot) (s : Scene) :
    (restart place slot s).1.2.name = slot.name ∧
      Adds place [.call slot.name (.restart slot.last (restart place slot s).1.1)] s.log
        (restart place slot s).2.log := by
  have hname : (slot.counter.restart slot.last s).1.2.name = slot.name :=
    slot.counter.name_restart slot.last s
  have hlog : (Scene.onSite Site.breaksDown (slot.counter.restart slot.last s).2).2.log = s.log :=
    ((Scene.keeps_onSite Site.keeps_breaksDown).scene_log _).trans
      ((slot.counter.keeps_restart slot.last).scene_log s)
  refine ⟨hname, ?_⟩
  rw [← hlog, ← hname]
  exact adds_note _ _ _ _

theorem restartAll_cons_none {slot : Slot} {s s' : Scene} {c : Counter} (slots : List Slot)
    (h : restart place slot s = ((none, c), s')) :
    restartAll place (slot :: slots) s = ((false, { slot with counter := c } :: slots), s') := by
  simp only [restartAll, bind, StateT.bind, h]
  rfl

theorem restartAll_cons_some {slot : Slot} {s s' : Scene} {c : Counter} {v : UInt64}
    (slots : List Slot) (h : restart place slot s = ((some v, c), s')) :
    restartAll place (slot :: slots) s =
      let later := restartAll place slots s'
      ((later.1.1, ⟨c, v⟩ :: later.1.2), later.2) := by
  simp only [restartAll, bind, StateT.bind, h]
  rfl

theorem isUse_restart {name : String} {names : List String} (h : name ∈ names) (last : UInt64)
    (value : Option UInt64) : IsUse names (.call name (.restart last value)) :=
  ⟨name, h, .inr ⟨last, value, rfl⟩⟩

theorem IsUse.cons {name : String} {names : List String} {d : Deed} (h : IsUse names d) :
    IsUse (name :: names) d := by
  obtain ⟨other, hmem, hd⟩ := h
  exact ⟨other, List.mem_cons_of_mem _ hmem, hd⟩

theorem not_isUse_overran {names : List String} : ¬ IsUse names .overran := by
  rintro ⟨name, -, hd | ⟨last, value, hd⟩⟩ <;> cases hd

theorem isUse_sampleCalls (names : List String) (last values : List UInt64) :
    ∀ d ∈ sampleCalls names last values, IsUse names d := by
  induction names generalizing last values with
  | nil => simp [sampleCalls]
  | cons name names ih =>
    intro d hd
    cases last with
    | nil => simp [sampleCalls] at hd
    | cons l last =>
      cases values with
      | nil => simp [sampleCalls] at hd
      | cons v values =>
        rcases List.mem_cons.mp hd with rfl | hd
        · exact isUse_restart List.mem_cons_self l (some v)
        · exact (ih last values d hd).cons

theorem restartAll_spec (place : Nat) (slots : List Slot) (s : Scene) :
    (restartAll place slots s).1.2.map Slot.name = slots.map Slot.name ∧
      if (restartAll place slots s).1.1 then
        Adds place (sampleCalls (slots.map Slot.name) (slots.map Slot.last)
          ((restartAll place slots s).1.2.map Slot.last)) s.log (restartAll place slots s).2.log
      else ∃ ds, (∀ d ∈ ds, IsUse (slots.map Slot.name) d) ∧
        Adds place ds s.log (restartAll place slots s).2.log := by
  induction slots generalizing s with
  | nil => exact ⟨rfl, rfl⟩
  | cons slot slots ih =>
    obtain ⟨hname, hadds⟩ := restart_spec place slot s
    rcases hr : restart place slot s with ⟨⟨_ | v, c⟩, s'⟩
    · rw [restartAll_cons_none slots hr]
      rw [hr] at hname hadds
      refine ⟨congrArg (· :: slots.map Slot.name) hname, ?_⟩
      rw [if_neg Bool.false_ne_true]
      refine ⟨_, ?_, hadds⟩
      intro d hd
      rw [List.mem_singleton.mp hd]
      exact isUse_restart List.mem_cons_self _ _
    · rw [restartAll_cons_some slots hr]
      rw [hr] at hname hadds
      obtain ⟨hnames, hrest⟩ := ih s'
      refine ⟨congrArg₂ List.cons hname hnames, ?_⟩
      dsimp only at hadds ⊢
      by_cases hwhole : (restartAll place slots s').1.1 = true
      · rw [if_pos hwhole] at hrest ⊢
        exact hadds.trans hrest
      · rw [if_neg hwhole] at hrest ⊢
        obtain ⟨ds, huses, hrest⟩ := hrest
        refine ⟨_, ?_, hadds.trans hrest⟩
        intro d hd
        rcases List.mem_append.mp hd with hd | hd
        · rw [List.mem_singleton.mp hd]
          exact isUse_restart List.mem_cons_self _ _
        · exact (huses d hd).cons

theorem initAll_cons_none {slot : Slot} {s s' : Scene} {c : Counter} (done slots : List Slot)
    (h : slot.counter.init s = ((none, c), s')) :
    initAll place done (slot :: slots) s =
      initAll place ({ slot with counter := c } :: done) slots (note place c (.init true) s').2 := by
  simp only [initAll, bind, StateT.bind, h]
  rfl

theorem initAll_cons_some {slot : Slot} {s s' : Scene} {c : Counter} {cause : CounterError}
    (done slots : List Slot) (h : slot.counter.init s = ((some cause, c), s')) :
    initAll place done (slot :: slots) s =
      let exited := exitAll place done (note place c (.init false) s').2
      ((some (.notInitialized c.name cause),
        exited.1.reverse ++ { slot with counter := c } :: slots), exited.2) := by
  simp only [initAll, bind, StateT.bind, h]
  rfl

def initFailure (taken done : List String) (name : String) : List Deed :=
  calls (.init true) taken ++ .call name (.init false) :: calls .exit (taken.reverse ++ done)

theorem initAll_spec (place : Nat) (done slots : List Slot) (s : Scene) :
    (initAll place done slots s).1.2.map Slot.name = (done.reverse ++ slots).map Slot.name ∧
      (initAll place done slots s).1.2.map Slot.last = (done.reverse ++ slots).map Slot.last ∧
      ((initAll place done slots s).1.1 = none ∧
          Adds place (calls (.init true) (slots.map Slot.name)) s.log
            (initAll place done slots s).2.log ∨
        ∃ taken name rest cause, slots.map Slot.name = taken ++ name :: rest ∧
          (initAll place done slots s).1.1 = some (.notInitialized name cause) ∧
          Adds place (initFailure taken (done.map Slot.name) name) s.log
            (initAll place done slots s).2.log) := by
  induction slots generalizing done s with
  | nil =>
    have he : initAll place done [] s = ((none, done.reverse), s) := rfl
    rw [he, List.append_nil]
    exact ⟨rfl, rfl, .inl ⟨rfl, rfl⟩⟩
  | cons slot slots ih =>
    have hname : (slot.counter.init s).1.2.name = slot.name := slot.counter.name_init s
    have hlog := slot.counter.keeps_init.scene_log s
    rcases hi : slot.counter.init s with ⟨⟨_ | cause, c⟩, s'⟩
    all_goals
      rw [hi] at hname hlog
      dsimp only at hname hlog
    · have hnow := adds_note place c (.init true) s'
      rw [hlog, hname] at hnow
      have hslot : Slot.name { slot with counter := c } = slot.name := hname
      rw [initAll_cons_none done slots hi]
      obtain ⟨hnames, hlasts, hrest⟩ :=
        ih ({ slot with counter := c } :: done) (note place c (.init true) s').2
      refine ⟨?_, ?_, ?_⟩
      · rw [hnames]
        simp [hslot]
      · rw [hlasts]
        simp
      · rcases hrest with ⟨he, hadds⟩ | ⟨taken, name, rest, cause, hsplit, he, hadds⟩
        · exact .inl ⟨he, hnow.trans hadds⟩
        · refine .inr ⟨slot.name :: taken, name, rest, cause, ?_, he, ?_⟩
          · rw [List.map_cons, hsplit, List.cons_append]
          · have hall := hnow.trans hadds
            simpa [initFailure, calls, hslot] using hall
    · have hnow := adds_note place c (.init false) s'
      rw [hlog, hname] at hnow
      rw [initAll_cons_some done slots hi]
      obtain ⟨hnames, hlasts, hexit⟩ := callAll_spec place .exit Counter.keeps_exit
        Counter.name_exit done (note place c (.init false) s').2
      refine ⟨?_, ?_, .inr ⟨[], slot.name, slots.map Slot.name, cause, rfl, ?_, ?_⟩⟩
      · simp only [exitAll, List.map_append, List.map_reverse, hnames, List.map_cons]
        rw [Slot.name, hname]
      · simp only [exitAll, List.map_append, List.map_reverse, hlasts, List.map_cons]
      · rw [hname]
      · exact hnow.trans hexit

structure Continues (r r' : Registry) : Prop where
  names_eq : r'.names = r.names
  place_eq : r'.place = r.place

theorem Continues.refl (r : Registry) : r.Continues r := ⟨rfl, rfl⟩

theorem Continues.trans {r r' r'' : Registry} (h : r.Continues r') (h' : r'.Continues r'') :
    r.Continues r'' := ⟨h'.names_eq.trans h.names_eq, h'.place_eq.trans h.place_eq⟩

theorem reset_spec (r : Registry) (s : Site) :
    r.Continues (r.reset s).1 ∧ (r.reset s).1.active = r.active ∧
      (r.reset s).1.lastSample = r.lastSample ∧
      Adds r.place (calls .reset r.names) s.log (r.reset s).2.log := by
  obtain ⟨hnames, hlasts, hadds⟩ := callAll_spec r.place .reset Counter.keeps_reset
    Counter.name_reset r.slots ⟨r.tracer, s⟩
  exact ⟨⟨hnames, rfl⟩, rfl, hlasts, hadds⟩

theorem deactivate_of_active {r : Registry} (h : r.active = true) (s : Site) :
    r.Continues (r.deactivate s).1 ∧ (r.deactivate s).1.active = false ∧
      Adds r.place (calls .exit r.names) s.log (r.deactivate s).2.log := by
  obtain ⟨hnames, -, hadds⟩ := callAll_spec r.place .exit Counter.keeps_exit
    Counter.name_exit r.slots ⟨r.tracer, s⟩
  rw [deactivate, if_pos h]
  exact ⟨⟨hnames, rfl⟩, rfl, hadds⟩

theorem deactivate_of_inactive {r : Registry} (h : r.active = false) (s : Site) :
    r.deactivate s = (r, s) := by
  rw [deactivate, if_neg (by simp [h])]
  rfl

theorem sample_spec (r : Registry) (s : Site) :
    r.Continues (r.sample s).1.2 ∧ (r.sample s).1.2.active = r.active ∧
      ((r.sample s).1.1 = some (r.sample s).1.2.lastSample ∧
          Adds r.place (sampleCalls r.names r.lastSample (r.sample s).1.2.lastSample) s.log
            (r.sample s).2.log ∨
        (r.sample s).1.1 = none ∧ ∃ ds, (∀ d ∈ ds, IsUse r.names d) ∧
          Adds r.place ds s.log (r.sample s).2.log) := by
  obtain ⟨hnames, hrest⟩ := restartAll_spec r.place r.slots ⟨r.tracer, s⟩
  refine ⟨⟨hnames, rfl⟩, rfl, ?_⟩
  by_cases hwhole : (restartAll r.place r.slots ⟨r.tracer, s⟩).1.1 = true
  · rw [if_pos hwhole] at hrest
    exact .inl ⟨if_pos hwhole, hrest⟩
  · rw [if_neg hwhole] at hrest
    exact .inr ⟨if_neg hwhole, hrest⟩

theorem activate_spec {r : Registry} (h : r.active = false) (s : Site) :
    r.Continues (r.activate s).1.2 ∧ (r.activate s).1.2.lastSample = r.lastSample ∧
      (r.activate s).1.2.active = (r.activate s).1.1.isNone ∧
      ((r.activate s).1.1 = none ∧
          Adds r.place (calls (.init true) r.names) s.log (r.activate s).2.log ∨
        ∃ taken name rest cause, r.names = taken ++ name :: rest ∧
          (r.activate s).1.1 = some (.notInitialized name cause) ∧
          Adds r.place (initFailure taken [] name) s.log (r.activate s).2.log) := by
  obtain ⟨hnames, hlasts, hrest⟩ := initAll_spec r.place [] r.slots ⟨r.tracer, s⟩
  rw [activate, if_neg (by simp [h])]
  exact ⟨⟨hnames, rfl⟩, hlasts, rfl, hrest⟩

end Registry

end NodeTelemetry
