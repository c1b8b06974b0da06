import Mathlib
import NodeTelemetry.Proofs.StopHandshake

namespace NodeTelemetry

open Thread

def Stance.ofState : SamplerState → Stance
  | .stopped r => .holds r
  | _ => .lost

namespace Handshake

variable {p : Handshake} {s : Spawned} {i : Nat} {w : Worker}

inductive Shows (p : Handshake) : SamplerState → Prop
  | stopped {r : Registry} (hst : p.stance = .holds r) : Shows p (.stopped r)
  | running {i : Nat} {w : Worker} (hst : p.stance = .runs i)
      (hs : p.spawned[i]? = some { thread := ofWorker w }) : Shows p (.running w)
  | lost (hst : p.stance = .lost) : Shows p .lost

/-- Started in any state, a sampler comes to the state that it comes to by itself. -/
theorem Shows.start {state : SamplerState} (h : p.Shows state) (site : Site) :
    let done := Sampler.start { name := p.name, state } site
    let started := p.step .start site
    started.1.2.Shows done.1.2.state ∧ started.2 = done.2 := by
  cases h with
  | running hst hs =>
    rw [start_inHand (.inl hst)]
    exact ⟨.running hst hs, rfl⟩
  | lost hst =>
    have hstart : p.step .start site = ((none, p), site) := by
      simp only [step, Handshake.start, hst]
      rfl
    rw [hstart]
    exact ⟨.lost hst, rfl⟩
  | @stopped r hst =>
    let done := Sampler.start { name := p.name, state := .stopped r } site
    have hstart : p.step .start site = (p.afterStart done.1.2.state, done.2) := by
      simp only [step, Handshake.start, hst]
      rfl
    rw [hstart]
    refine ⟨?_, rfl⟩
    change (p.afterStart done.1.2.state).2.Shows done.1.2.state
    cases done.1.2.state with
    | stopped r' => exact .stopped rfl
    | running w => exact .running rfl List.getElem?_concat_length
    | lost => exact .lost rfl

theorem play_cons (m : Move) (moves : List Move) (p : Handshake) (site : Site) :
    play (m :: moves) p site =
      let first := p.step m site
      let rest := play moves first.1.2 first.2
      ((first.1.1.toList ++ rest.1.1, rest.1.2), rest.2) := rfl

theorem play_append (xs ys : List Move) (p : Handshake) (site : Site) :
    let first := play xs p site
    let second := play ys first.1.2 first.2
    play (xs ++ ys) p site = ((first.1.1 ++ second.1.1, second.1.2), second.2) := by
  induction xs generalizing p site with
  | nil => rfl
  | cons m xs ih =>
    have hrest := ih (p.step m site).1.2 (p.step m site).2
    dsimp only at hrest ⊢
    rw [List.cons_append, play_cons, play_cons]
    dsimp only
    rw [hrest, List.append_assoc]

theorem play_steps (n : Nat) (hs : p.spawned[i]? = some s) (site : Site) :
    let done := s.thread.steps p.pace s.token n p.history site
    let played := play (List.replicate n (.thread i)) p site
    played.1.2 =
        { p with
          spawned := p.spawned.set i { s with thread := done.1.2.1 }
          history := done.1.2.2 } ∧
      played.2 = done.2 := by
  induction n generalizing p s site with
  | zero =>
    have hsame : p.spawned.set i s = p.spawned := by
      obtain ⟨hlt, rfl⟩ := List.getElem?_eq_some_iff.mp hs
      exact List.set_getElem_self hlt
    refine ⟨?_, rfl⟩
    change p = { p with spawned := p.spawned.set i s }
    rw [hsame]
  | succ n ih =>
    have hlt : i < p.spawned.length := (List.getElem?_eq_some_iff.mp hs).1
    let first := s.thread.step p.pace s.token p.history site
    let next : Handshake :=
      { p with spawned := p.spawned.set i { s with thread := first.1.2.1 }, history := first.1.2.2 }
    have hstep : p.step (.thread i) site = ((first.1.1.map (.did i), next), first.2) :=
      onThread_some hs site
    have hnext : next.spawned[i]? = some { s with thread := first.1.2.1 } :=
      List.getElem?_set_self hlt
    have hrest := ih hnext first.2
    simp only [next, List.set_set] at hrest
    rw [List.replicate_succ, play_cons, hstep]
    exact hrest

theorem join_ended (hst : p.stance = .joins i) (hs : p.spawned[i]? = some s)
    (hw : ∀ r phase, w ≠ .working r phase) (ht : s.thread = ofWorker w) :
    p.join.2 = { p with stance := .ofState (.ofEnded w) } := by
  cases w with
  | working r phase => exact absurd rfl (hw r phase)
  | stopped r =>
    simp only [join, hst, hs, Option.map_some, ht, ofWorker]
    rfl
  | broken =>
    simp only [join, hst, hs, Option.map_some, ht, ofWorker]
    rfl

/-- Stopped undisturbed, a sampler comes to what it comes to when it is stopped at once. -/
theorem play_stop (hst : p.stance = .runs i) (hs : p.spawned[i]? = some { thread := ofWorker w })
    (site : Site) :
    let done := Sampler.stop p.pace { name := p.name, state := .running w } p.history site
    let ended := w.join p.pace p.history site
    ∃ n,
      let played := play (.tell :: (List.replicate n (.thread i) ++ [.join])) p site
      played.1.2 =
          { p with
            spawned := p.spawned.set i { token := true, thread := ofWorker ended.1.1 }
            stance := .ofState done.1.1.state
            history := done.1.2 } ∧
        played.2 = done.2 := by
  have hlt : i < p.spawned.length := (List.getElem?_eq_some_iff.mp hs).1
  let told : Handshake :=
    { p with
      spawned := p.spawned.set i { token := true, thread := ofWorker w }
      stance := .joins i }
  have htell : p.step .tell site = ((some (.told i), told), site) := by
    rw [step, tell_runs hst hs]
    rfl
  have htold : told.spawned[i]? = some { token := true, thread := ofWorker w } :=
    List.getElem?_set_self hlt
  obtain ⟨n, hn, hsite⟩ := steps_join p.pace w p.history site
  obtain ⟨hplayed, hplayedSite⟩ := play_steps n htold site
  let ended := w.join p.pace p.history site
  let last : Handshake :=
    { told with
      spawned := told.spawned.set i { token := true, thread := ofWorker ended.1.1 }
      history := ended.1.2 }
  have hlast : (play (List.replicate n (.thread i)) told site).1.2 = last := by
    rw [hplayed, hn]
  have hended : last.spawned[i]? = some { token := true, thread := ofWorker ended.1.1 } :=
    List.getElem?_set_self (by rw [List.length_set]; exact hlt)
  have hback : last.join.2 = { last with stance := .ofState (.ofEnded ended.1.1) } :=
    join_ended rfl hended (w.join_ended p.pace p.history site) rfl
  refine ⟨n, ?_⟩
  dsimp only
  rw [play_cons, htell, Sampler.stop_eq p.pace rfl]
  dsimp only
  rw [play_append]
  dsimp only
  rw [hlast, hplayedSite, hsite]
  constructor
  · change last.join.2 = _
    rw [hback]
    simp only [last, told, List.set_set]
    rfl
  · rfl

end Handshake

end NodeTelemetry
