import Mathlib
import NodeTelemetry.Counter

namespace NodeTelemetry

/-- Whatever the action does, `view` sees nothing of it. -/
def Keeps {σ β α : Type} (view : σ → β) (act : StateM σ α) : Prop := ∀ s, view (act s).2 = view s

namespace Keeps

variable {σ β α γ : Type} {view : σ → β}

theorem pure (a : α) : Keeps view (Pure.pure a : StateM σ α) := fun _ => rfl

theorem get : Keeps view (MonadState.get : StateM σ σ) := fun _ => rfl

theorem bind {act : StateM σ α} {next : α → StateM σ γ} (ha : Keeps view act)
    (hn : ∀ a, Keeps view (next a)) : Keeps view (act >>= next) := fun s =>
  (hn (act s).1 (act s).2).trans (ha s)

theorem mapM {act : α → StateM σ γ} (h : ∀ a, Keeps view (act a)) (as : List α) :
    Keeps view (as.mapM act) := by
  induction as with
  | nil => exact pure []
  | cons a as ih =>
    rw [List.mapM_cons]
    exact (h a).bind fun _ => ih.bind fun _ => pure _

end Keeps

def Yields {σ α : Type} (act : StateM σ α) (P : α → Prop) : Prop := ∀ s, P (act s).1

namespace Yields

variable {σ α γ : Type} {P : α → Prop} {Q : γ → Prop}

theorem pure {a : α} (h : P a) : Yields (Pure.pure a : StateM σ α) P := fun _ => h

theorem bind {act : StateM σ α} {next : α → StateM σ γ} (h : ∀ a, Yields (next a) Q) :
    Yields (act >>= next) Q := fun s => h (act s).1 (act s).2

theorem bind_of {act : StateM σ α} {next : α → StateM σ γ} (ha : Yields act P)
    (h : ∀ a, P a → Yields (next a) Q) : Yields (act >>= next) Q := fun s =>
  h (act s).1 (ha s) (act s).2

end Yields

structure Aside {β : Type} (view : Site → β) : Prop where
  perfDiscarded :
    Keeps view (Site.count fun m => { m with perfDiscarded := m.perfDiscarded + 1 })
  rawReadFailures :
    Keeps view (Site.count fun m => { m with rawReadFailures := m.rawReadFailures + 1 })
  sensorFailures :
    Keeps view (Site.count fun m => { m with sensorFailures := m.sensorFailures + 1 })
  report : ∀ e, Keeps view (Site.report e)
  onHardware : ∀ {α : Type} (use : Hardware → α × Hardware), Keeps view (Site.onHardware use)
  countDown : Keeps view (modify fun s => { s with switch := s.switch.count })

structure Books where
  log : List (Nat × Deed)
  ticks : Nat
  overwritten : Nat
  meanwhile : List (List Happening)

namespace Site

def books (s : Site) : Books := ⟨s.log, s.metrics.ticks, s.metrics.overwritten, s.meanwhile⟩

theorem aside_books : Aside books :=
  ⟨fun _ => rfl, fun _ => rfl, fun _ => rfl, fun _ _ => rfl, fun _ _ => rfl, fun _ => rfl⟩

theorem aside_clocks : Aside clocks :=
  ⟨fun _ => rfl, fun _ => rfl, fun _ => rfl, fun _ _ => rfl, fun _ _ => rfl, fun _ => rfl⟩

theorem keeps_spawn : Keeps books spawn := by
  rintro ⟨clocks, hardware, metrics, journal, log, switch, threads, breakdowns, meanwhile⟩
  cases threads <;> rfl

theorem keeps_breaksDown : Keeps books breaksDown := by
  rintro ⟨clocks, hardware, metrics, journal, log, switch, threads, breakdowns, meanwhile⟩
  cases breakdowns <;> rfl

theorem keeps_pause : Keeps log pause := by
  rintro ⟨clocks, hardware, metrics, journal, log, switch, threads, breakdowns, meanwhile⟩
  cases meanwhile <;> rfl

end Site

theorem Keeps.log {α : Type} {act : StateM Site α} (h : Keeps Site.books act) :
    Keeps Site.log act := fun s => congrArg Books.log (h s)

namespace Scene

def books (s : Scene) : Books := s.site.books

def log (s : Scene) : List (Nat × Deed) := s.site.log

theorem keeps_onSite {α : Type} {act : StateM Site α} (h : Keeps Site.books act) :
    Keeps books (onSite act) := fun s => h s.site

end Scene

theorem Keeps.scene_log {α : Type} {act : StateM Scene α} (h : Keeps Scene.books act) :
    Keeps Scene.log act := fun s => congrArg Books.log (h s)

namespace EventSlot

variable {β : Type} {view : Site → β}

theorem keeps_read (hv : Aside view) (config : UInt64) (slot : EventSlot) :
    Keeps view (slot.read config) := by
  unfold read
  split
  · exact hv.onHardware _
  · exact .pure _

theorem keeps_restart (hv : Aside view) (config : UInt64) (slot : EventSlot) :
    Keeps view (slot.restart config) := by
  apply (keeps_read hv config slot).bind
  rintro (_ | now)
  · exact .pure _
  · dsimp only
    split
    · exact .pure _
    all_goals exact hv.perfDiscarded.bind fun _ => .pure _

theorem keeps_reset (hv : Aside view) (config : UInt64) (slot : EventSlot) :
    Keeps view (slot.reset config) := by
  apply (keeps_read hv config slot).bind
  rintro (_ | now) <;> exact .pure _

theorem keeps_restartAll (hv : Aside view) (config total : UInt64) (slots : List EventSlot) :
    Keeps view (restartAll config total slots) := by
  induction slots generalizing total with
  | nil => exact .pure _
  | cons slot slots ih =>
    apply (keeps_restart hv config slot).bind
    intro done
    exact (ih _).bind fun _ => .pure _

end EventSlot

namespace EventCounter

variable {β : Type} {view : Site → β}

theorem keeps_init (c : EventCounter) : Keeps view c.init := by
  unfold init
  split
  · exact .pure _
  · apply Keeps.get.bind
    intro s
    dsimp only
    split <;> exact .pure _

theorem keeps_restart (hv : Aside view) (c : EventCounter) : Keeps view c.restart :=
  (EventSlot.keeps_restartAll hv _ _ _).bind fun _ => .pure _

theorem keeps_reset (hv : Aside view) (c : EventCounter) : Keeps view c.reset :=
  (Keeps.mapM (EventSlot.keeps_reset hv _) _).bind fun _ => .pure _

end EventCounter

namespace RegisterCounter

variable {β : Type} {view : Site → β}

theorem keeps_init (c : RegisterCounter) : Keeps view c.init := by
  apply Keeps.get.bind
  intro s
  dsimp only
  split <;> exact .pure _

theorem keeps_read (hv : Aside view) (c : RegisterCounter) : Keeps view c.read := by
  unfold read
  dsimp only
  split
  · exact hv.onHardware _
  · exact hv.onHardware _
  · apply (hv.onHardware _).bind
    rintro (_ | status)
    · exact .pure _
    · apply (hv.onHardware _).bind
      rintro (_ | target) <;> exact .pure _

theorem keeps_restart (hv : Aside view) (c : RegisterCounter) : Keeps view c.restart := by
  unfold restart
  split
  · exact .pure _
  · apply (keeps_read hv c).bind
    rintro (_ | v)
    · exact hv.rawReadFailures.bind fun _ => .pure _
    · exact .pure _

end RegisterCounter

namespace SensorCounter

variable {β : Type} {view : Site → β}

theorem keeps_init (c : SensorCounter) : Keeps view c.init := by
  apply Keeps.get.bind
  intro s
  dsimp only
  split <;> exact .pure _

theorem keeps_collectUpTo (hv : Aside view) (fuel : Nat) (c : SensorCounter) :
    Keeps view (collectUpTo fuel c) := by
  induction fuel generalizing c with
  | zero => exact .pure _
  | succ fuel ih =>
    apply (hv.onHardware _).bind
    rintro (_ | r | _)
    · exact .pure _
    · exact ih _
    · exact hv.sensorFailures.bind fun _ => .pure _

theorem keeps_collect (hv : Aside view) (c : SensorCounter) : Keeps view c.collect := by
  unfold collect
  split
  · exact .pure _
  · exact Keeps.get.bind fun _ => keeps_collectUpTo hv _ _

theorem keeps_requestFrom (hv : Aside view) (device : String) (sequence : UInt64) (index : Nat)
    (sensors : List Sensor) : Keeps view (requestFrom device sequence index sensors) := by
  induction sensors generalizing sequence index with
  | nil => exact .pure _
  | cons s sensors ih =>
    apply (hv.onHardware _).bind
    intro taken
    dsimp only
    split
    · exact hv.sensorFailures.bind fun _ => ih _ _
    · exact ih _ _

theorem keeps_request (hv : Aside view) (c : SensorCounter) : Keeps view c.request := by
  unfold request
  split
  · exact .pure _
  · exact (keeps_requestFrom hv _ _ _ _).bind fun _ => .pure _

theorem keeps_restart (hv : Aside view) (c : SensorCounter) : Keeps view c.restart :=
  (keeps_collect hv c).bind fun c => (keeps_request hv c).bind fun _ => .pure _

end SensorCounter

namespace Probe

variable {β : Type} {view : Site → β}

theorem keeps_init (hv : Aside view) (p : Probe) : Keeps view p.init :=
  (hv.report _).bind fun _ => .pure _

theorem keeps_restart (hv : Aside view) (p : Probe) (last : UInt64) :
    Keeps view (p.restart last) := by
  unfold restart
  dsimp only
  split
  · exact .pure _
  · split
    · exact hv.countDown.bind fun _ => .pure _
    · exact .pure _

end Probe

namespace Counter

open Scene

theorem keeps_init (c : Counter) : Keeps books c.init := by
  cases c with
  | timing t => exact .pure _
  | event c => exact (keeps_onSite c.keeps_init).bind fun _ => .pure _
  | register c => exact (keeps_onSite c.keeps_init).bind fun _ => .pure _
  | sensors c => exact (keeps_onSite c.keeps_init).bind fun _ => .pure _
  | probe p => exact (keeps_onSite (p.keeps_init Site.aside_books)).bind fun _ => .pure _

theorem keeps_restart (last : UInt64) (c : Counter) : Keeps books (c.restart last) := by
  cases c with
  | timing t => cases t <;> exact fun _ => rfl
  | event c => exact (keeps_onSite (c.keeps_restart Site.aside_books)).bind fun _ => .pure _
  | register c => exact (keeps_onSite (c.keeps_restart Site.aside_books)).bind fun _ => .pure _
  | sensors c => exact (keeps_onSite (c.keeps_restart Site.aside_books)).bind fun _ => .pure _
  | probe p => exact (keeps_onSite (p.keeps_restart Site.aside_books last)).bind fun _ => .pure _

theorem keeps_reset (c : Counter) : Keeps books c.reset := by
  cases c with
  | timing t => cases t <;> exact fun _ => rfl
  | event c => exact (keeps_onSite (c.keeps_reset Site.aside_books)).bind fun _ => .pure _
  | register c => exact .pure _
  | sensors c => exact (keeps_onSite (c.keeps_collect Site.aside_books)).bind fun _ => .pure _
  | probe p => exact (keeps_onSite (Site.aside_books.report _)).bind fun _ => .pure _

theorem keeps_exit (c : Counter) : Keeps books c.exit := by
  cases c with
  | probe p => exact (keeps_onSite (Site.aside_books.report _)).bind fun _ => .pure _
  | _ => exact .pure _

end Counter

theorem EventCounter.name_init (c : EventCounter) : Yields c.init (·.2.name = c.name) := by
  unfold init
  split
  · exact .pure rfl
  · apply Yields.bind
    intro s
    dsimp only
    split <;> exact .pure rfl

theorem EventCounter.name_restart (c : EventCounter) : Yields c.restart (·.2.name = c.name) :=
  .bind fun _ => .pure rfl

theorem EventCounter.name_reset (c : EventCounter) : Yields c.reset (·.name = c.name) :=
  .bind fun _ => .pure rfl

theorem RegisterCounter.register_init (c : RegisterCounter) :
    Yields c.init (·.2.register = c.register) := by
  apply Yields.bind
  intro s
  dsimp only
  split <;> exact .pure rfl

namespace SensorCounter

theorem name_init (c : SensorCounter) : Yields c.init (·.2.name = c.name) := by
  apply Yields.bind
  intro s
  dsimp only
  split <;> exact .pure rfl

theorem name_accept (c : SensorCounter) (r : Response) : (c.accept r).name = c.name := by
  simp only [accept]
  split
  · rfl
  · split <;> rfl

theorem name_collectUpTo (fuel : Nat) (c : SensorCounter) :
    Yields (collectUpTo fuel c) (·.name = c.name) := by
  induction fuel generalizing c with
  | zero => exact .pure rfl
  | succ fuel ih =>
    apply Yields.bind
    rintro (_ | r | _)
    · exact .pure rfl
    · rw [← c.name_accept r]
      exact ih _
    · exact .bind fun _ => .pure rfl

theorem name_collect (c : SensorCounter) : Yields c.collect (·.name = c.name) := by
  unfold collect
  split
  · exact .pure rfl
  · exact .bind fun _ => c.name_collectUpTo _

theorem name_request (c : SensorCounter) : Yields c.request (·.name = c.name) := by
  unfold request
  split
  · exact .pure rfl
  · exact .bind fun _ => .pure rfl

theorem name_restart (c : SensorCounter) : Yields c.restart (·.2.name = c.name) := by
  refine c.name_collect.bind_of fun c' hc => ?_
  refine c'.name_request.bind_of fun c'' hc' => ?_
  exact .pure (hc'.trans hc)

end SensorCounter

theorem Probe.name_restart (p : Probe) (last : UInt64) :
    Yields (p.restart last) (·.2.name = p.name) := by
  unfold restart
  dsimp only
  split
  · exact .pure rfl
  · split
    · exact .bind fun _ => .pure rfl
    · exact .pure rfl

namespace Counter

theorem name_init (c : Counter) : Yields c.init (·.2.name = c.name) := by
  cases c with
  | timing t => exact .pure rfl
  | event c => exact fun s => c.name_init s.site
  | register c => exact fun s => congrArg Register.name (c.register_init s.site)
  | sensors c => exact fun s => c.name_init s.site
  | probe p => exact .bind fun _ => .pure rfl

theorem name_restart (last : UInt64) (c : Counter) : Yields (c.restart last) (·.2.name = c.name) := by
  cases c with
  | timing t => exact .bind fun _ => .pure rfl
  | event c => exact fun s => c.name_restart s.site
  | register c => exact .bind fun _ => .pure rfl
  | sensors c => exact fun s => c.name_restart s.site
  | probe p => exact fun s => p.name_restart last s.site

theorem name_reset (c : Counter) : Yields c.reset (·.name = c.name) := by
  cases c with
  | timing t => exact .bind fun _ => .pure rfl
  | event c => exact fun s => c.name_reset s.site
  | register c => exact .pure rfl
  | sensors c => exact fun s => c.name_collect s.site
  | probe p => exact .bind fun _ => .pure rfl

theorem name_exit (c : Counter) : Yields c.exit (·.name = c.name) := by
  cases c with
  | probe p => exact .bind fun _ => .pure rfl
  | _ => exact .pure rfl

end Counter

end NodeTelemetry
