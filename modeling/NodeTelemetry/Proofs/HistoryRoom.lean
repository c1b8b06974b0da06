import Mathlib
import NodeTelemetry.Proofs.PlaneRun

namespace NodeTelemetry

open Log Registry Worker

namespace History

def Laid (h : History) : Prop := ∃ capacity samples, h.Represents h.schema capacity samples

variable {h h' : History}

theorem laid_new {schema : Schema} {capacity : Nat} (hfit : max capacity 1 * schema.width < 2 ^ 64) :
    (new schema capacity).Laid := ⟨_, [], represents_new schema capacity hfit⟩

theorem Laid.hasRoom (hh : h.Laid) : h.ring.HasRoom := by
  obtain ⟨capacity, samples, hr⟩ := hh
  exact hr.holds.hasRoom

theorem Laid.perform (hh : h.Laid) (op : Op) (site : Site) : (perform op h site).1.2.Laid := by
  obtain ⟨capacity, samples, hr⟩ := hh
  obtain ⟨after, -, hafter⟩ := perform_refines hr op site
  have hschema : (History.perform op h site).1.2.schema = h.schema := hafter.schema_eq
  exact ⟨capacity, after, hschema ▸ hafter⟩

theorem Laid.pushAll (hh : h.Laid) (samples : List (List UInt64)) : (h.pushAll samples).Laid := by
  induction samples generalizing h with
  | nil => exact hh
  | cons sample samples ih =>
    have hpush := hh.perform (.push sample) {}
    rw [show (History.perform (.push sample) h {}).1.2 = _ from push_ring h sample {}] at hpush
    exact ih hpush

theorem Consumed.laid (hc : h.Consumed h') (hh : h.Laid) : h'.Laid := by
  cases hc with
  | cleared => exact hh.perform .clear {}
  | drained limit => exact hh.perform (.drain limit) {}

end History

theorem Registry.overran_notMem_sampling (names : List String) (last : List UInt64)
    (samples : List (List UInt64)) : .overran ∉ sampling names last samples := by
  induction samples generalizing last with
  | nil => exact List.not_mem_nil
  | cons v samples ih =>
    intro hover
    rcases List.mem_append.mp hover with hover | hover
    · exact not_isUse_overran (isUse_sampleCalls _ _ _ _ hover)
    · exact ih v ((List.mem_cons.mp hover).resolve_left nofun)

theorem Worker.Works.overran_notMem {w w' : Worker} {h h' : History} {ds : List Deed}
    (hw : Works w h ds w' h') (hh : h.Laid) : h'.Laid ∧ .overran ∉ ds := by
  cases hw with
  | rests => exact ⟨hh, List.not_mem_nil⟩
  | goesOn samples => exact ⟨hh.pushAll samples, overran_notMem_sampling _ _ _⟩
  | leaves samples => exact ⟨hh.pushAll samples, overran_notMem_sampling _ _ _⟩
  | @breaksDown r _ _ samples uses hu hroom =>
    have hlaid := hh.pushAll samples
    refine ⟨hlaid, fun hover => ?_⟩
    rcases List.mem_append.mp hover with hover | hover
    · exact overran_notMem_sampling _ _ _ hover
    rcases List.mem_append.mp hover with hover | hover
    · exact hroom hover hlaid.hasRoom
    · have hexit := Regime.acted_exits r _ ((List.mem_cons.mp hover).resolve_left nofun)
      simp at hexit

theorem Regime.Lasting.laid : Lasting fun _ h ds => h.Laid ∧ .overran ∉ ds where
  read := fun ⟨hh, hd⟩ hc => ⟨hc.laid hh, hd⟩
  worked := fun ⟨hh, hd⟩ hw =>
    have ⟨hlaid, hnone⟩ := hw.overran_notMem hh
    ⟨hlaid, List.not_mem_append hd hnone⟩
  acted := fun ⟨hh, hd⟩ hes => ⟨hh, List.not_mem_append hd fun hover => by simpa using hes _ hover⟩

namespace ControlPlane

/-- If the words of every history can be counted in 64 bits, every sample finds room, whatever
happens. -/
theorem never_overruns {R : Regime} {p : ControlPlane} {site : Site} (h : R.Holds p site.log)
    (hnew : ∀ i n, p.nodes[i]? = some n → n.history.Laid ∧ .overran ∉ deeds site.log i)
    (events : List Event) {i : Nat} (hi : i < p.nodes.length) :
    .overran ∉ deeds (performAll events p site).2.log i := by
  obtain ⟨hafter, hlen⟩ := (h.to_lasting .laid hnew).performAll events
  rw [← hlen] at hi
  exact (hafter.of_lasting (List.getElem?_eq_getElem hi)).2

end ControlPlane

end NodeTelemetry
