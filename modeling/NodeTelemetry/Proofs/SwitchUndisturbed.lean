import Mathlib
import NodeTelemetry.Proofs.Traffic

namespace NodeTelemetry

open Node ControlPlane Worker

namespace Node

variable {n : Node} {nodes : List Node} {site : Site}

theorem meanwhile_quiet (pace : Pace) (nodes : List Node) (hq : site.meanwhile = []) :
    meanwhile pace nodes site = (nodes, site) := by
  have hpause : Site.pause site = ([], site) := by
    simp only [Site.pause, bind, StateT.bind, get, getThe, MonadStateOf.get, StateT.get, pure, hq]
    rfl
  simp only [meanwhile, bind, StateT.bind, hpause]
  rfl

end Node

namespace Traffic

def Reaches (t : Traffic) (site : Site) (t' : Traffic) (site' : Site) : Prop :=
  ∃ moves, (play moves t site).1.2 = t' ∧ (play moves t site).2 = site'

def during (p : ControlPlane) (nodes : List Node) (task : Task) : Traffic :=
  { plane := { p with nodes }, task := some task }

variable {t t' t'' : Traffic} {site site' site'' : Site} {p : ControlPlane} {nodes : List Node}
  {n : Node} {i count : Nat}

theorem Reaches.refl (t : Traffic) (site : Site) : Reaches t site t site := ⟨[], rfl, rfl⟩

theorem Reaches.head (m : Move) (h : Reaches (t.step m site).1.2 (t.step m site).2 t' site') :
    Reaches t site t' site' := by
  obtain ⟨moves, ht, hs⟩ := h
  exact ⟨m :: moves, ht, hs⟩

theorem Reaches.trans (h : Reaches t site t' site') (h' : Reaches t' site' t'' site'') :
    Reaches t site t'' site'' := by
  obtain ⟨moves, ht, hs⟩ := h
  induction moves generalizing t site with
  | nil =>
    change t = t' at ht
    change site = site' at hs
    rw [ht, hs]
    exact h'
  | cons m moves ih => exact .head m (ih ht hs)

theorem Reaches.one (m : Move) (t : Traffic) (site : Site) :
    Reaches t site (t.step m site).1.2 (t.step m site).2 := .head m (.refl _ _)

theorem Effect.meanwhile_eq {tally tally' : Tally} {entries : List Entry} {nodes' : List Node}
    (h : Effect nodes tally entries nodes' tally') : tally'.meanwhile = tally.meanwhile := by
  cases h <;> rfl

theorem Reaches.keeps (h : Reaches t site t' site') (hp : AllPlaced t.plane.nodes) :
    AllPlaced t'.plane.nodes ∧ site'.meanwhile = site.meanwhile := by
  obtain ⟨moves, ht, hs⟩ := h
  induction moves generalizing t site with
  | nil =>
    change t = t' at ht
    change site = site' at hs
    rw [← ht, ← hs]
    exact ⟨hp, rfl⟩
  | cons m moves ih =>
    have hm := step_sound hp m site
    obtain ⟨hp', hq⟩ := ih hm.placed ht hs
    exact ⟨hp', hq.trans hm.effect.meanwhile_eq⟩

theorem reaches_proceed (t : Traffic) (site : Site) :
    Reaches t site (t.proceed site).1 (t.proceed site).2 := .one .proceed t site

theorem stopStep_idle (told : Bool) (hn : ∀ s w, n.sampler = some s → s.state ≠ .running w) :
    stopStep told n = (false, n) := by
  cases hs : n.sampler with
  | none => simp only [stopStep, hs]
  | some s =>
    cases hst : s.state with
    | running w => exact absurd hst (hn s w hs)
    | stopped r => simp only [stopStep, hs, hst]
    | lost => simp only [stopStep, hs, hst]

theorem stopStep_tell {s : Sampler} {w : Worker} (hs : n.sampler = some s)
    (hst : s.state = .running w) : stopStep false n = (true, n) := by
  cases w <;> simp [stopStep, hs, hst]

theorem stopStep_join {s : Sampler} {w : Worker} (hs : n.sampler = some s)
    (hst : s.state = .running w) (hw : ∀ r p, w ≠ .working r p) :
    stopStep true n = (false, n.withState s (.ofEnded w)) := by
  cases w with
  | working r p => exact absurd rfl (hw r p)
  | stopped r => simp [stopStep, hs, hst]
  | broken => simp [stopStep, hs, hst]

theorem onThread_step {s : Sampler} {w : Worker} (hn : t.plane.nodes[i]? = some n)
    (hs : n.sampler = some s) (hst : s.state = .running w) (site : Site) :
    t.onThread (.step i) site =
      let done := Worker.step t.plane.pace (t.told i) w n.history site
      (t.plane.nodes.set i { n.withState s (.running done.1.1) with history := done.1.2 },
        done.2) := by
  rw [onThread, visit_some hn, onSampler_eq hs, onWorker_of_running hst]
  rfl

theorem reaches_told (p : ControlPlane) (count : Nat) {s : Sampler} {w : Worker}
    (hn : nodes[i]? = some n) (hs : n.sampler = some s) (hst : s.state = .running w)
    (site : Site) :
    let done := Worker.step p.pace true w n.history site
    Reaches (during p nodes (.stopping i count true)) site
      (during p (nodes.set i { n.withState s (.running done.1.1) with history := done.1.2 })
        (.stopping i count true)) done.2 := by
  have htold : (during p nodes (.stopping i count true)).told i = true := beq_self_eq_true i
  have hstep := onThread_step (t := during p nodes (.stopping i count true)) hn hs hst site
  rw [htold] at hstep
  have hone := Reaches.one (.thread (.step i)) (during p nodes (.stopping i count true)) site
  simp only [step, thread, hstep] at hone
  exact hone

theorem reaches_stop (hi : i < count) (hn : nodes[i]? = some n) (site : Site) :
    Reaches (during p nodes (.stopping i count false)) site
      (during p (nodes.set i (n.stop p.pace site).1) (.stopping (i + 1) count false))
      (n.stop p.pace site).2 := by
  by_cases hrun : ∃ s w, n.sampler = some s ∧ s.state = .running w
  · obtain ⟨s, w, hs, hst⟩ := hrun
    have hlt : i < nodes.length := (List.getElem?_eq_some_iff.mp hn).1
    have htell := reaches_proceed (during p nodes (.stopping i count false)) site
    rw [proceed_stop rfl hi hn, stopStep_tell hs hst] at htell
    have hself : nodes.set i n = nodes := set_same hn
    simp only [during, withNodes, hself] at htell
    -- From wherever the worker stands, two steps end it.
    let first := Worker.step p.pace true w n.history site
    let second := Worker.step p.pace true first.1.1 first.1.2 first.2
    let between := { n.withState s (.running first.1.1) with history := first.1.2 }
    let ended := { n.withState s (.running second.1.1) with history := second.1.2 }
    have hfirst := reaches_told p count hn hs hst site
    have hbetween : (nodes.set i between)[i]? = some between := List.getElem?_set_self hlt
    have hsecond := reaches_told p count hbetween rfl rfl first.2
    simp only [List.set_set] at hsecond
    have hended : (nodes.set i ended)[i]? = some ended := List.getElem?_set_self hlt
    have hjoin := reaches_proceed (during p (nodes.set i ended) (.stopping i count true)) second.2
    rw [proceed_stop rfl hi hended, stopStep_join rfl rfl (w.join_ended p.pace n.history site)]
      at hjoin
    simp only [during, withNodes, List.set_set] at hjoin
    rw [stop_eq p.pace hs hst]
    exact htell.trans (hfirst.trans (hsecond.trans hjoin))
  · have hidle : ∀ s w, n.sampler = some s → s.state ≠ .running w := by
      intro s w hs hst
      exact hrun ⟨s, w, hs, hst⟩
    have hgo := reaches_proceed (during p nodes (.stopping i count false)) site
    rw [proceed_stop rfl hi hn, stopStep_idle false hidle] at hgo
    rw [stop_idle p.pace hidle]
    exact hgo

theorem reaches_sweep (p : ControlPlane) (k : Nat) (hk : i + k ≤ nodes.length)
    (hp : AllPlaced nodes) (hq : site.meanwhile = []) :
    let swept := sweep p.pace (stop p.pace) i k nodes site
    Reaches (during p nodes (.stopping i (i + k) false)) site
      (during p swept.1 (.stopping (i + k) (i + k) false)) swept.2 := by
  induction k generalizing i nodes site with
  | zero => exact .refl _ _
  | succ k ih =>
    have hn := List.getElem?_eq_getElem (show i < nodes.length by omega)
    have hstop := reaches_stop (p := p) (show i < i + (k + 1) by omega) hn site
    obtain ⟨hp', hq'⟩ := hstop.keeps hp
    have hlen : i + 1 + k ≤ (nodes.set i (nodes[i].stop p.pace site).1).length := by
      rw [List.length_set]
      omega
    have hrest := ih hlen hp' (hq'.trans hq)
    rw [show i + 1 + k = i + (k + 1) by omega] at hrest
    have hsweep : sweep p.pace (stop p.pace) i (k + 1) nodes site =
        sweep p.pace (stop p.pace) (i + 1) k (nodes.set i (nodes[i].stop p.pace site).1)
          (nodes[i].stop p.pace site).2 := by
      rw [sweep_succ, meanwhile_quiet p.pace nodes hq]
      dsimp only
      rw [visit_some hn]
    rw [hsweep]
    exact hstop.trans hrest

theorem reaches_stopped (p : ControlPlane) (nodes : List Node) (count : Nat) (site : Site) :
    Reaches (during p nodes (.stopping count count false)) site
      { plane := { p with nodes, on := false } } site := by
  have hgo := reaches_proceed (during p nodes (.stopping count count false)) site
  rw [proceed_stopped rfl (if_neg (Nat.lt_irrefl count))] at hgo
  exact hgo

theorem reaches_stopAll (p : ControlPlane) {k : Nat} (hk : k ≤ nodes.length)
    (hp : AllPlaced nodes) (hq : site.meanwhile = []) :
    let swept := sweep p.pace (stop p.pace) 0 k nodes site
    Reaches (during p nodes (.stopping 0 k false)) site
      { plane := { p with nodes := swept.1, on := false } } swept.2 := by
  have hsweep := reaches_sweep p (i := 0) k (by omega) hp hq
  rw [Nat.zero_add] at hsweep
  exact hsweep.trans (reaches_stopped p _ k _)

theorem reaches_start (p : ControlPlane) (hn : nodes[i]? = some n) (site : Site) :
    let done := n.start site
    Reaches (during p nodes (.starting i)) site
      (during p (nodes.set i done.1.2) (.afterStart i done.1.1)) done.2 := by
  have hgo := reaches_proceed (during p nodes (.starting i)) site
  rw [proceed_start rfl hn] at hgo
  exact hgo

theorem reaches_started (p : ControlPlane) (nodes : List Node) (site : Site) :
    Reaches (during p nodes (.starting nodes.length)) site
      { plane := { p with nodes, on := true } } site := by
  have hgo := reaches_proceed (during p nodes (.starting nodes.length)) site
  rw [proceed_started rfl (List.getElem?_eq_none (Nat.le_refl nodes.length))] at hgo
  exact hgo

theorem reaches_startFrom (p : ControlPlane) (k : Nat) (hk : i + k = nodes.length)
    (hp : AllPlaced nodes) (hq : site.meanwhile = []) :
    let started := startFrom p.pace i k nodes site
    Reaches (during p nodes (.starting i)) site
      { plane := { p with nodes := started.1.2, on := started.1.1.isNone } } started.2 := by
  induction k generalizing i nodes site with
  | zero =>
    rw [show i = nodes.length from hk]
    exact reaches_started p nodes site
  | succ k ih =>
    have hn := List.getElem?_eq_getElem (show i < nodes.length by omega)
    have hstart := reaches_start p hn site
    have hkeeps := hstart.keeps hp
    have hquiet := meanwhile_quiet p.pace nodes hq
    rcases hs : nodes[i].start site with ⟨⟨_ | e, m⟩, site'⟩
    all_goals
      have hlen : (nodes.set i m).length = nodes.length := List.length_set
      rw [hs] at hstart hkeeps
      obtain ⟨hp', hq'⟩ := hkeeps
    · have hrest := ih (show i + 1 + k = (nodes.set i m).length by omega) hp' (hq'.trans hq)
      rw [startFrom_started (by rw [hquiet]; exact hn) (by rw [hquiet]; exact hs), hquiet]
      exact hstart.trans hrest
    · have hrest := reaches_stopAll p (show i ≤ (nodes.set i m).length by omega) hp' (hq'.trans hq)
      rw [startFrom_failed (by rw [hquiet]; exact hn) (by rw [hquiet]; exact hs), hquiet]
      exact hstart.trans hrest

/-- What holds the switch undisturbed does all that the switch does at once. -/
theorem reaches_setOn (on : Bool) (p : ControlPlane) (hp : AllPlaced p.nodes)
    (hq : site.meanwhile = []) :
    Reaches { plane := p } site { plane := (p.setOn on site).1 } (p.setOn on site).2 := by
  have hask : Reaches { plane := p } site (turn on { plane := p }) site := by
    have hone := Reaches.one (.write "ctrl" (if on then "on" else "off")) { plane := p } site
    simp only [step, Traffic.write, attribute?_ctrl] at hone
    cases on with
    | false => exact hone
    | true => exact hone
  by_cases hsame : p.closed = true ∨ p.on = on
  · rw [setOn_same hsame]
    exact .refl _ _
  · rw [not_or, Bool.not_eq_true] at hsame
    obtain ⟨hopen, hother⟩ := hsame
    rw [turn, if_neg (by simp [hopen, hother])] at hask
    cases on with
    | true =>
      rw [setOn_true hopen (Bool.eq_false_of_not_eq_true hother)]
      exact hask.trans (reaches_startFrom p p.nodes.length (Nat.zero_add _) hp hq)
    | false =>
      rw [setOn_false hopen (Bool.eq_true_of_not_eq_false hother)]
      exact hask.trans (reaches_stopAll p (Nat.le_refl _) hp hq)

end Traffic

end NodeTelemetry
