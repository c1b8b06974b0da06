import Mathlib
import NodeTelemetry.Proofs.NodeDeeds

namespace NodeTelemetry

open Log

inductive History.Consumed : History → History → Prop
  | cleared (h : History) : Consumed h h.clear
  | drained (h : History) (limit : Nat) : Consumed h (h.drain limit).2

namespace Node

abbrev PlaceProp := Nat → Node → List Deed → Prop

def Each (P : PlaceProp) (nodes : List Node) (log : Log) : Prop :=
  ∀ i n, nodes[i]? = some n → P i n (deeds log i)

/-- A property that a node's own thread and the readers of its history do not disturb. -/
structure Stable (P : PlaceProp) : Prop where
  placed : ∀ {i n ds}, P i n ds → n.Placed i
  drift : ∀ {i n n' ds es}, P i n ds → Drifts n es n' → P i n' (ds ++ es)
  consume : ∀ {i n ds h}, P i n ds → n.history.Consumed h → P i { n with history := h } ds

variable {P Q F R : PlaceProp} {i : Nat} {nodes : List Node} {site : Site}

def Mixed (i : Nat) (P Q : PlaceProp) : PlaceProp := fun j n ds => if j < i then Q j n ds else P j n ds

theorem Stable.ite {c : Nat → Prop} [DecidablePred c] (hP : Stable P) (hQ : Stable Q) :
    Stable fun j n ds => if c j then Q j n ds else P j n ds where
  placed {i _ _} h := by
    by_cases hi : c i
    · rw [if_pos hi] at h
      exact hQ.placed h
    · rw [if_neg hi] at h
      exact hP.placed h
  drift {i _ _ _ _} h hd := by
    by_cases hi : c i
    · rw [if_pos hi] at h ⊢
      exact hQ.drift h hd
    · rw [if_neg hi] at h ⊢
      exact hP.drift h hd
  consume {i _ _ _} h hcons := by
    by_cases hi : c i
    · rw [if_pos hi] at h ⊢
      exact hQ.consume h hcons
    · rw [if_neg hi] at h ⊢
      exact hP.consume h hcons

theorem Stable.mixed (hP : Stable P) (hQ : Stable Q) : Stable (Mixed i P Q) := hP.ite hQ

theorem Mixed.succ {j : Nat} {n : Node} {ds : List Deed} (hj : j ≠ i) (h : Mixed i P Q j n ds) :
    Mixed (i + 1) P Q j n ds := by
  unfold Mixed at h ⊢
  by_cases hlt : j < i
  · rw [if_pos hlt] at h
    rwa [if_pos (by omega)]
  · rw [if_neg hlt] at h
    rwa [if_neg (by omega)]

theorem Each.mono {log : Log} (h : Each P nodes log)
    (hPQ : ∀ j n ds, j < nodes.length → P j n ds → Q j n ds) : Each Q nodes log := by
  intro j n hj
  have hlt : j < nodes.length := (List.getElem?_eq_some_iff.mp hj).1
  exact hPQ j n _ hlt (h j n hj)

theorem visit_some {act : Node → StateM Site Node} {n : Node} (hn : nodes[i]? = some n)
    (site : Site) : visit i act nodes site = (nodes.set i (act n site).1, (act n site).2) := by
  simp only [visit, hn]
  rfl

theorem visit_none {act : Node → StateM Site Node} (hn : nodes[i]? = none) (site : Site) :
    visit i act nodes site = (nodes, site) := by
  simp only [visit, hn]
  rfl

theorem Each.set {log log' : Log} {n' : Node} {es : List Deed} (h : Each P nodes log)
    (hadds : Adds i es log log') (hn' : Q i n' (deeds log i ++ es))
    (hPQ : ∀ j n ds, j ≠ i → P j n ds → Q j n ds) : Each Q (nodes.set i n') log' := by
  intro j m hm
  rcases eq_or_ne j i with rfl | hne
  · rw [List.getElem?_set_self'] at hm
    rw [hadds.deeds_self]
    cases hj : nodes[j]? with
    | none => simp [hj] at hm
    | some n =>
      simp only [hj] at hm
      cases hm
      exact hn'
  · rw [List.getElem?_set_ne hne.symm] at hm
    rw [hadds.deeds_of_ne hne]
    exact hPQ j m _ hne (h j m hm)

def Turns (act : Node → StateM Site Node) (i : Nat) (P Q : PlaceProp) : Prop :=
  ∀ n site, P i n (deeds site.log i) → ∃ es, Adds i es site.log (act n site).2.log ∧
    Q i (act n site).1 (deeds site.log i ++ es)

theorem visit_each {act : Node → StateM Site Node} (h : Each P nodes site.log)
    (hact : Turns act i P Q) (hPQ : ∀ j n ds, j ≠ i → P j n ds → Q j n ds) :
    Each Q (visit i act nodes site).1 (visit i act nodes site).2.log := by
  cases hn : nodes[i]? with
  | none =>
    rw [visit_none hn]
    intro j n hj
    refine hPQ j n _ ?_ (h j n hj)
    rintro rfl
    simp [hn] at hj
  | some n =>
    obtain ⟨es, hadds, hQ⟩ := hact n site (h i n hn)
    rw [visit_some hn]
    exact h.set hadds hQ hPQ

theorem length_visit (act : Node → StateM Site Node) :
    (visit i act nodes site).1.length = nodes.length := by
  cases hn : nodes[i]? with
  | none => rw [visit_none hn]
  | some n => rw [visit_some hn, List.length_set]

theorem happen_each (hP : Stable P) (h : Each P nodes site.log) (pace : Pace) (e : Happening) :
    Each P (happen pace nodes e site).1 (happen pace nodes e site).2.log := by
  have turn {i : Nat} {act : Node → StateM Site Node}
      (hact : ∀ n site, n.Placed i → ∃ ds, Drifts n ds (act n site).1 ∧
        Adds i ds site.log (act n site).2.log) : Turns act i P P := by
    intro n site hn
    obtain ⟨ds, hd, hadds⟩ := hact n site (hP.placed hn)
    exact ⟨ds, hadds, hP.drift hn hd⟩
  cases e with
  | step i => exact visit_each h (turn fun n site hn => step_drifts pace hn site) fun _ _ _ _ h => h
  | crash i => exact visit_each h (turn fun n site hn => crash_drifts hn site) fun _ _ _ _ h => h

theorem length_happen (pace : Pace) (e : Happening) :
    (happen pace nodes e site).1.length = nodes.length := by
  cases e <;> exact length_visit _

theorem happenAll_each (hP : Stable P) (pace : Pace) (es : List Happening)
    (h : Each P nodes site.log) :
    Each P (es.foldlM (happen pace) nodes site).1 (es.foldlM (happen pace) nodes site).2.log ∧
      (es.foldlM (happen pace) nodes site).1.length = nodes.length := by
  induction es generalizing nodes site with
  | nil => exact ⟨h, rfl⟩
  | cons e es ih =>
    obtain ⟨hrest, hlen⟩ := ih (happen_each hP h pace e)
    rw [List.foldlM_cons]
    exact ⟨hrest, hlen.trans (length_happen pace e)⟩

theorem meanwhile_each (hP : Stable P) (pace : Pace) (h : Each P nodes site.log) :
    Each P (meanwhile pace nodes site).1 (meanwhile pace nodes site).2.log ∧
      (meanwhile pace nodes site).1.length = nodes.length := by
  have hlog := Site.keeps_pause site
  rw [← hlog] at h
  exact happenAll_each hP pace (Site.pause site).1 h

theorem sweep_succ (pace : Pace) (act : Node → StateM Site Node) (i count : Nat)
    (nodes : List Node) (site : Site) :
    sweep pace act i (count + 1) nodes site =
      let now := meanwhile pace nodes site
      let visited := visit i act now.1 now.2
      sweep pace act (i + 1) count visited.1 visited.2 := rfl

theorem sweep_each (hP : Stable P) (hQ : Stable Q) {pace : Pace} {act : Node → StateM Site Node}
    (count : Nat) (hact : ∀ j, i ≤ j → j < i + count → Turns act j P Q)
    (h : Each (Mixed i P Q) nodes site.log) :
    Each (Mixed (i + count) P Q) (sweep pace act i count nodes site).1
        (sweep pace act i count nodes site).2.log ∧
      (sweep pace act i count nodes site).1.length = nodes.length := by
  -- All threads go on before each visit, also those of nodes that have been visited, so that the
  -- property which the induction carries is the mixed one and both halves of it have to be stable.
  induction count generalizing i nodes site with
  | zero => exact ⟨h, rfl⟩
  | succ count ih =>
    obtain ⟨hnow, hlen⟩ := meanwhile_each (hP.mixed hQ) pace h
    rw [sweep_succ]
    have hvisit : Turns act i (Mixed i P Q) (Mixed (i + 1) P Q) := by
      intro n site hn
      rw [Mixed, if_neg (by omega)] at hn
      obtain ⟨es, hadds, hq⟩ := hact i le_rfl (by omega) n site hn
      refine ⟨es, hadds, ?_⟩
      rw [Mixed, if_pos (by omega)]
      exact hq
    obtain ⟨hrest, hlen'⟩ := ih (fun j hj hlt => hact j (by omega) (by omega))
      (visit_each hnow hvisit fun j n ds hj => Mixed.succ hj)
    rw [show i + (count + 1) = i + 1 + count by omega]
    exact ⟨hrest, hlen'.trans ((length_visit act).trans hlen)⟩

theorem sweepAll_each (pace : Pace) (hP : Stable P) (hQ : Stable Q)
    {act : Node → StateM Site Node} (hact : ∀ j, Turns act j P Q) (h : Each P nodes site.log) :
    Each Q (sweep pace act 0 nodes.length nodes site).1
        (sweep pace act 0 nodes.length nodes site).2.log ∧
      (sweep pace act 0 nodes.length nodes site).1.length = nodes.length := by
  have hmixed : Each (Mixed 0 P Q) nodes site.log := h.mono fun j n ds _ hp => by
    rw [Mixed, if_neg (by omega)]
    exact hp
  obtain ⟨hsweep, hlen⟩ := sweep_each hP hQ nodes.length (fun j _ _ => hact j) hmixed
  refine ⟨hsweep.mono fun j n ds hj hm => ?_, hlen⟩
  rwa [Mixed, if_pos (by omega)] at hm

/-- The node at one place has not come through, those before it have been stopped again and those
after it have not been reached. -/
def Halted (k : Nat) (P F R : PlaceProp) : PlaceProp := fun j n ds =>
  if j < k then R j n ds else if j = k then F j n ds else P j n ds

theorem Stable.halted {k : Nat} (hP : Stable P) (hF : Stable F) (hR : Stable R) :
    Stable (Halted k P F R) := (hP.ite hF).ite hR

def Starts (P Q F : PlaceProp) : Prop :=
  ∀ j n site, P j n (deeds site.log j) → ∃ es, Adds j es site.log (n.start site).2.log ∧
    ((n.start site).1.1 = none ∧ Q j (n.start site).1.2 (deeds site.log j ++ es) ∨
      (n.start site).1.1.isSome ∧ F j (n.start site).1.2 (deeds site.log j ++ es))

theorem startFrom_started {pace : Pace} {count : Nat} {n m : Node} {site site' : Site}
    (hn : (meanwhile pace nodes site).1[i]? = some n)
    (hs : n.start (meanwhile pace nodes site).2 = ((none, m), site')) :
    startFrom pace i (count + 1) nodes site =
      startFrom pace (i + 1) count ((meanwhile pace nodes site).1.set i m) site' := by
  rcases hm : meanwhile pace nodes site with ⟨nodes', site₁⟩
  rw [hm] at hn hs
  simp only [startFrom, bind, StateT.bind, hm, hn, hs]

theorem startFrom_failed {pace : Pace} {count : Nat} {n m : Node} {e : StartError}
    {site site' : Site} (hn : (meanwhile pace nodes site).1[i]? = some n)
    (hs : n.start (meanwhile pace nodes site).2 = ((some e, m), site')) :
    startFrom pace i (count + 1) nodes site =
      let swept := sweep pace (stop pace) 0 i ((meanwhile pace nodes site).1.set i m) site'
      ((some e, swept.1), swept.2) := by
  rcases hm : meanwhile pace nodes site with ⟨nodes', site₁⟩
  rw [hm] at hn hs
  simp only [startFrom, bind, StateT.bind, hm, hn, hs]
  rfl

theorem rollback_each (hP : Stable P) (hQ : Stable Q) (hF : Stable F) (hR : Stable R)
    {pace : Pace} (hstop : ∀ j, Turns (stop pace) j Q R) {k : Nat}
    (h : Each (Halted k P F Q) nodes site.log) :
    Each (Halted k P F R) (sweep pace (stop pace) 0 k nodes site).1
        (sweep pace (stop pace) 0 k nodes site).2.log ∧
      (sweep pace (stop pace) 0 k nodes site).1.length = nodes.length := by
  have hturn : ∀ j, 0 ≤ j → j < 0 + k →
      Turns (stop pace) j (Halted k P F Q) (Halted k P F R) := by
    intro j _ hj n site hn
    have hlt : j < k := by omega
    rw [Halted, if_pos hlt] at hn
    obtain ⟨es, hadds, hr⟩ := hstop j n site hn
    refine ⟨es, hadds, ?_⟩
    rwa [Halted, if_pos hlt]
  have hmixed : Each (Mixed 0 (Halted k P F Q) (Halted k P F R)) nodes site.log :=
    h.mono fun j n ds _ hp => by rwa [Mixed, if_neg (by omega)]
  obtain ⟨hsweep, hlen⟩ := sweep_each (hP.halted hF hQ) (hP.halted hF hR) k hturn hmixed
  refine ⟨hsweep.mono fun j n ds _ hm => ?_, hlen⟩
  rw [Mixed, Nat.zero_add] at hm
  by_cases hlt : j < k
  · rwa [if_pos hlt] at hm
  · rw [if_neg hlt, Halted, if_neg hlt] at hm
    rwa [Halted, if_neg hlt]

theorem startFrom_each (hP : Stable P) (hQ : Stable Q) (hF : Stable F) (hR : Stable R)
    {pace : Pace} (hstart : Starts P Q F) (hstop : ∀ j, Turns (stop pace) j Q R) (count : Nat)
    (hcount : i + count ≤ nodes.length) (h : Each (Mixed i P Q) nodes site.log) :
    (startFrom pace i count nodes site).1.2.length = nodes.length ∧
      ((startFrom pace i count nodes site).1.1 = none ∧
          Each (Mixed (i + count) P Q) (startFrom pace i count nodes site).1.2
            (startFrom pace i count nodes site).2.log ∨
        ∃ e k, k < i + count ∧ (startFrom pace i count nodes site).1.1 = some e ∧
          Each (Halted k P F R) (startFrom pace i count nodes site).1.2
            (startFrom pace i count nodes site).2.log) := by
  induction count generalizing i nodes site with
  | zero => exact ⟨rfl, .inl ⟨rfl, h⟩⟩
  | succ count ih =>
    obtain ⟨hnow, hlen⟩ := meanwhile_each (hP.mixed hQ) pace h
    have hlt : i < (meanwhile pace nodes site).1.length := by omega
    have hn := List.getElem?_eq_getElem hlt
    have hp := hnow i _ hn
    rw [Mixed, if_neg (by omega)] at hp
    obtain ⟨es, hadds, hs⟩ := hstart i _ _ hp
    rcases hst : (meanwhile pace nodes site).1[i].start (meanwhile pace nodes site).2 with
      ⟨⟨e?, m⟩, site'⟩
    rw [hst] at hadds hs
    rcases hs with ⟨he, hq⟩ | ⟨he, hf⟩
    · dsimp only at he
      subst he
      rw [startFrom_started hn hst]
      have hnext : Each (Mixed (i + 1) P Q) ((meanwhile pace nodes site).1.set i m) site'.log := by
        refine hnow.set hadds ?_ fun j n ds hj => Mixed.succ hj
        rwa [Mixed, if_pos (by omega)]
      have hset : ((meanwhile pace nodes site).1.set i m).length = nodes.length := by
        rw [List.length_set, hlen]
      obtain ⟨hlen', hrest⟩ := ih (by omega) hnext
      rw [show i + (count + 1) = i + 1 + count by omega]
      exact ⟨hlen'.trans hset, hrest⟩
    -- The failure at place `i` ends the induction: only the way back over the nodes before it is left.
    · obtain ⟨e, rfl⟩ := Option.isSome_iff_exists.mp he
      rw [startFrom_failed hn hst]
      have hhalted : Each (Halted i P F Q) ((meanwhile pace nodes site).1.set i m) site'.log := by
        refine hnow.set hadds ?_ ?_
        · rwa [Halted, if_neg (by omega), if_pos rfl]
        · intro j n ds hj hm
          unfold Mixed at hm
          unfold Halted
          by_cases hji : j < i
          · rw [if_pos hji] at hm ⊢
            exact hm
          · rw [if_neg hji] at hm ⊢
            rwa [if_neg hj]
      obtain ⟨hback, hlen'⟩ := rollback_each hP hQ hF hR hstop hhalted
      refine ⟨?_, .inr ⟨e, i, by omega, rfl, hback⟩⟩
      rw [hlen', List.length_set, hlen]

theorem startAll_each (pace : Pace) (hP : Stable P) (hQ : Stable Q) (hF : Stable F)
    (hR : Stable R) (hstart : Starts P Q F) (hstop : ∀ j, Turns (stop pace) j Q R)
    (h : Each P nodes site.log) :
    (startAll pace nodes site).1.2.length = nodes.length ∧
      ((startAll pace nodes site).1.1 = none ∧
          Each Q (startAll pace nodes site).1.2 (startAll pace nodes site).2.log ∨
        ∃ e k, k < nodes.length ∧ (startAll pace nodes site).1.1 = some e ∧
          Each (Halted k P F R) (startAll pace nodes site).1.2
            (startAll pace nodes site).2.log) := by
  have hmixed : Each (Mixed 0 P Q) nodes site.log := h.mono fun j n ds _ hp => by
    rwa [Mixed, if_neg (by omega)]
  obtain ⟨hlen, hdone⟩ := startFrom_each hP hQ hF hR hstart hstop nodes.length (by omega) hmixed
  rw [Nat.zero_add] at hdone
  refine ⟨hlen, ?_⟩
  rcases hdone with ⟨he, hq⟩ | hfail
  · refine .inl ⟨he, hq.mono fun j n ds hj hm => ?_⟩
    rw [hlen] at hj
    rwa [Mixed, if_pos hj] at hm
  · exact .inr hfail

end Node

end NodeTelemetry
