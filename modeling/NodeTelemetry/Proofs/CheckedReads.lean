import Mathlib
import NodeTelemetry.ControlPlane
import NodeTelemetry.Proofs.HistoryReads
import NodeTelemetry.Proofs.Traversals

/-! What a build that breaks down at a product shows is what one shows that lets products wrap. -/

namespace NodeTelemetry

variable {m : Arithmetic} {value : UInt64} {sample : List UInt64}

theorem Arithmetic.mul?_eq_some {a b c : UInt64} (h : m.mul? a b = some c) : c = a * b := by
  cases m with
  | wrapping => exact (Option.some.inj h).symm
  | checked =>
    obtain ⟨-, hc⟩ : a.toNat * b.toNat < 2 ^ 64 ∧ a * b = c := by simpa [mul?] using h
    exact hc.symm

theorem sensorFields?_eq_some {sensors : List Sensor} {fields : List Field}
    (h : sensorFields? m sensors value = some fields) : fields = sensorFields sensors value := by
  refine eq_map_of_mapM h ?_
  rintro ⟨sensor, i⟩ - field hfield
  obtain ⟨product, hproduct, rfl⟩ := Option.map_eq_some_iff.mp hfield
  rw [Arithmetic.mul?_eq_some hproduct]

theorem Column.fields?_eq_some {c : Column} {fields : List Field}
    (h : c.fields? m value = some fields) : fields = c.fields value := by
  unfold Column.fields? at h
  unfold Column.fields
  cases hf : c.format with
  | none =>
    rw [hf] at h
    exact (Option.some.inj h).symm
  | some f =>
    rw [hf] at h
    cases f with
    | sensors group => exact sensorFields?_eq_some h
    | temperature detail => exact (Option.some.inj h).symm
    | bits parts => exact (Option.some.inj h).symm

theorem Schema.render?_eq_some {s : Schema} {text : String}
    (h : s.render? m sample = some text) : text = s.render sample := by
  obtain ⟨fields, hfields, rfl⟩ := Option.map_eq_some_iff.mp h
  obtain ⟨columns, hcolumns, rfl⟩ := Option.map_eq_some_iff.mp hfields
  rw [eq_map_of_mapM hcolumns fun _ _ _ hfield => Column.fields?_eq_some hfield]
  rfl

namespace History

variable {h : History} {schema : Schema} {limit fuel : Nat} {text out : String}

theorem drainUpTo?_eq_of_some (hout : (drainUpTo? m limit fuel text h).1 = some out) :
    drainUpTo? m limit fuel text h =
      (some (drainUpTo limit fuel text h).1, (drainUpTo limit fuel text h).2) := by
  induction fuel generalizing text h with
  | zero => rfl
  | succ fuel ih =>
    unfold drainUpTo? at hout ⊢
    unfold drainUpTo
    cases hs : h.ring.oldest? with
    | none => rfl
    | some sample =>
      rw [hs] at hout
      dsimp only at hout ⊢
      by_cases hhalf : limit - text.utf8ByteSize ≤ limit / 2
      · rw [if_pos hhalf, if_pos (.inl hhalf)]
      · rw [if_neg hhalf] at hout ⊢
        cases hrecord : h.schema.render? m sample with
        | none =>
          rw [hrecord] at hout
          cases hout
        | some record =>
          rw [hrecord] at hout
          obtain rfl := Schema.render?_eq_some hrecord
          dsimp only at hout ⊢
          by_cases hlong : limit - text.utf8ByteSize < (h.schema.render sample).utf8ByteSize
          · rw [if_pos hlong, if_pos (.inr hlong)]
          · rw [if_neg hlong] at hout ⊢
            rw [if_neg (not_or.mpr ⟨hhalf, hlong⟩), ih hout]

theorem drain?_eq_of_some (hout : (h.drain? m limit).1 = some out) :
    h.drain? m limit = (some (h.drain limit).1, (h.drain limit).2) :=
  drainUpTo?_eq_of_some hout

theorem last?_eq_of_some (hout : h.last? m = some out) : out = h.last := by
  unfold last? at hout
  unfold last
  cases hs : h.ring.newest? with
  | none =>
    rw [hs] at hout
    exact (Option.some.inj hout).symm
  | some sample =>
    rw [hs] at hout
    exact Schema.render?_eq_some hout

theorem exists_drain? (hh : h.ShapedBy schema)
    (hshown : ∀ sample ∈ h.toList, ∃ record, schema.render? m sample = some record)
    (limit : Nat) : ∃ out, (h.drain? m limit).1 = some out := by
  suffices ∀ fuel text, ∃ out, (drainUpTo? m limit fuel text h).1 = some out from this _ _
  intro fuel
  induction fuel generalizing h with
  | zero => exact fun text => ⟨text, rfl⟩
  | succ fuel ih =>
    intro text
    unfold drainUpTo?
    cases hs : h.ring.oldest? with
    | none => exact ⟨text, rfl⟩
    | some sample =>
      rw [hh.toList_eq_cons hs] at hshown
      obtain ⟨⟨record, hrecord⟩, hrest⟩ := List.forall_mem_cons.mp hshown
      dsimp only
      split
      · exact ⟨text, rfl⟩
      · have hshow : h.schema.render? m sample = some record := by rw [hh.schema_eq, hrecord]
        rw [hshow]
        dsimp only
        split
        · exact ⟨text, rfl⟩
        · exact ih hh.pop hrest _

theorem drain?_of_shown (hh : h.ShapedBy schema)
    (hshown : ∀ sample ∈ h.toList, ∃ record, schema.render? m sample = some record)
    (limit : Nat) : h.drain? m limit = (some (h.drain limit).1, (h.drain limit).2) := by
  obtain ⟨out, hout⟩ := exists_drain? hh hshown limit
  exact drain?_eq_of_some hout

end History

theorem ControlPlane.read?_eq_of_some {p : ControlPlane} {name : String}
    {answer : Except SurfaceError String} (h : (p.read? m name).1 = some answer) :
    p.read? m name = (some (p.read name).1, (p.read name).2) := by
  unfold read? at h ⊢
  split
  case h_1 i ha =>
    simp only [ha] at h
    obtain ⟨out, hout, -⟩ := Option.map_eq_some_iff.mp h
    simp only [read, ha]
    unfold readHistory? at hout ⊢
    unfold readHistory
    cases hn : p.nodes[i]? with
    | none => rfl
    | some n =>
      rw [hn] at hout
      simp only [History.drain?_eq_of_some hout]
      rfl
  case h_2 i ha =>
    simp only [ha] at h
    obtain ⟨out, hout, -⟩ := Option.map_eq_some_iff.mp h
    simp only [read, ha]
    unfold readLast? at hout ⊢
    unfold readLast
    cases hn : p.nodes[i]? with
    | none => rfl
    | some n =>
      rw [hn] at hout
      simp only [hout, History.last?_eq_of_some hout]
      rfl
  case h_3 => rfl

end NodeTelemetry
