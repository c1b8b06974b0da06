import Mathlib
import NodeTelemetry.Proofs.EngineHistories
import NodeTelemetry.Proofs.RecordLength

namespace NodeTelemetry

open Settings

theorem History.ShapedBy.oldest_of_toList {h : History} {schema : Schema} (hh : h.ShapedBy schema)
    {sample : List UInt64} {rest : List (List UInt64)} (hlist : h.toList = sample :: rest) :
    h.ring.oldest? = some sample := by
  have hsize : h.ring.size = rest.length + 1 := by
    rw [← h.ring.length_toList]
    exact congrArg List.length hlist
  have hne : h.ring.size ≠ 0 := by omega
  have hcons := Ring.toList_eq_cons hh.base_lt (Nat.pos_of_ne_zero hne)
  rw [show h.ring.toList = sample :: rest from hlist] at hcons
  rw [Ring.oldest?, if_neg hne, (List.cons.inj hcons).1]

namespace Registry

variable {providers : List Provider} {s : Settings} {cpus : List Nat} {tracer : Tracer}
  {r : Registry}

structure RecordBounds (s : Settings) (r : Registry) : Prop where
  size_le : ∀ sample, (r.schema.render sample).utf8ByteSize ≤ r.schema.longest
  attained : ∃ sample, sample.length = r.schema.width ∧
    (r.schema.render sample).utf8ByteSize = r.schema.longest
  longest_le : r.schema.longest ≤ 39 * r.schema.names.length + 2
  fits_page : s.enabled.length ≤ 10 → r.schema.longest ≤ Engine.pageSize

theorem recordBounds_of_resolve (hs : s.check = .ok ())
    (h : resolve providers s cpus tracer s.counterNames = .ok r) : r.RecordBounds s := by
  obtain ⟨hnames, hcount⟩ := length_names_of_resolve hs h
  have hbound := Schema.longest_le (isName_of_resolve hs h)
  have hwidest : ∀ c ∈ r.schema, ∃ v, c.fields v = c.widest := fun c hc =>
    (shows_of_resolve hs h c hc).exists_widest hs
  refine ⟨Schema.size_render_le hnames, Schema.exists_longest hnames hwidest, hbound, ?_⟩
  intro henabled
  simp only [Engine.pageSize, maxSensors] at hcount ⊢
  omega

end Registry

namespace ControlPlane

/-- What becomes of a plane when the history of a node is read that begins with a sample: if the
record of the sample fits it is taken out, and perhaps others after it are, and if it does not nothing
is, by this read or by a later one. -/
structure ReadsFrom (p : ControlPlane) (i : Nat) (n : Node) (sample : List UInt64) : Prop where
  takes : (n.history.schema.render sample).utf8ByteSize ≤ p.limit →
    ∃ taken h, n.history.toList = sample :: taken ++ h.toList ∧
      p.readHistory i = (String.join ((sample :: taken).map n.history.schema.render),
        { p with nodes := p.nodes.set i { n with history := h } })
  stuck : p.limit < (n.history.schema.render sample).utf8ByteSize → p.readHistory i = ("", p)

theorem readsFrom_of_shapedBy {p : ControlPlane} {i : Nat} {n : Node} {schema : Schema}
    {sample : List UInt64} {rest : List (List UInt64)} (hpos : 0 < p.limit)
    (hn : p.nodes[i]? = some n) (hshaped : n.history.ShapedBy schema)
    (hlist : n.history.toList = sample :: rest) : p.ReadsFrom i n sample := by
  have holdest := hshaped.oldest_of_toList hlist
  have hread := readHistory_of_some hn
  constructor
  · intro hfits
    rw [hshaped.schema_eq] at hfits
    obtain ⟨taken, htakes⟩ := History.drain_of_fits hshaped holdest hpos hfits
    refine ⟨taken, (n.history.drain p.limit).2, htakes.toList_eq, ?_⟩
    rw [← htakes.text_eq]
    exact hread
  · intro hlong
    rw [hshaped.schema_eq] at hlong
    rw [History.drain_of_long hshaped holdest hlong] at hread
    have hsame : p.nodes.set i n = p.nodes := by
      obtain ⟨hi, he⟩ := List.getElem?_eq_some_iff.mp hn
      rw [← he, List.set_getElem_self]
    rw [hread]
    change ("", { p with nodes := p.nodes.set i n }) = ("", p)
    rw [hsame]

end ControlPlane

namespace Engine

open ControlPlane Registry

/-- Settings bound the length of their records, but not by the page that a read of a built plane
returns at most. So a read of a history that is not empty takes its oldest record out exactly if that
is no longer than a page. -/
theorem read_takes_oldest_that_fits {text : String} {s : Settings}
    (hs : Settings.parse text = .ok s) (providers : List Provider) :
    (∀ cpus tracer r, resolve providers s cpus tracer s.counterNames = .ok r →
      r.RecordBounds s) ∧
    ∀ online nodes clock site p, (build providers s online nodes clock site).1 = .ok p →
      ∀ events start i n sample rest,
        let q := (performAll events p start).1
        q.nodes[i]? = some n → n.history.toList = sample :: rest →
          q.limit = pageSize ∧ q.ReadsFrom i n sample ∧
          ∃ cpus r, resolve providers s cpus { clock } s.counterNames = .ok r ∧
            n.history.schema = r.schema := by
  have hcheck := check_of_parse hs
  refine ⟨fun cpus tracer r hr => recordBounds_of_resolve hcheck hr, ?_⟩
  intro online nodes clock site p hp events start i n sample rest q hn hlist
  obtain ⟨hlimit, hhistories⟩ := histories_of_assembled hp events start
  obtain ⟨schema, ⟨cpus, r, hr, hschema⟩, hshaped⟩ := hhistories i n hn
  have hpos : 0 < q.limit := by
    rw [show q.limit = pageSize from hlimit]
    decide
  refine ⟨hlimit, readsFrom_of_shapedBy hpos hn hshaped hlist, cpus, r, hr, ?_⟩
  rw [hshaped.schema_eq, hschema]

theorem timing_records_are_read :
    let text := "[general]\ncapacity = 2\n[counters]\nenabled = []"
    let s : Settings := { capacity := 2, enabled := [] }
    let events : List Event := [.setOn true, .thread (.step 0), .thread (.step 0)]
    Settings.parse text = .ok s ∧
      ∃ p, (build Provider.all s (.ok [0]) (.ok []) 0 {}).1 = .ok p ∧
        let q := (performAll events p {}).1
        ∃ n, q.nodes[0]? = some n ∧ n.history.toList = [[0, 0, 0]] ∧
          (n.history.schema.render [0, 0, 0]).utf8ByteSize ≤ pageSize ∧
          q.limit = pageSize ∧ q.ReadsFrom 0 n [0, 0, 0] := by
  intro text s events
  have hs : Settings.parse text = .ok s := Settings.ok_of_toOption (by decide +kernel)
  have hrun : ((build Provider.all s (.ok [0]) (.ok []) 0 {}).1.toOption.bind fun p =>
      (performAll events p {}).1.nodes[0]?.map fun n =>
        (n.history.toList, (n.history.schema.render [0, 0, 0]).utf8ByteSize)) =
      some ([[0, 0, 0]], 25) := by decide +kernel
  obtain ⟨p, hp, hnode⟩ := Option.bind_eq_some_iff.mp hrun
  obtain ⟨n, hn, hshown⟩ := Option.map_eq_some_iff.mp hnode
  obtain ⟨hlist, hsize⟩ := Prod.mk.inj hshown
  have hbuilt := Settings.ok_of_toOption hp
  obtain ⟨-, hreads⟩ := read_takes_oldest_that_fits hs Provider.all
  obtain ⟨hlimit, hfrom, -⟩ := hreads _ _ _ _ p hbuilt events {} 0 n _ _ hn hlist
  exact ⟨hs, p, hbuilt, n, hn, hlist, hsize.trans_le (by decide), hlimit, hfrom⟩

def pairNames : List (List Char) :=
  let letters := "abcdefghijklm".toList
  letters.flatMap fun a => letters.map fun b => [a, b]

def pairEvents : Settings :=
  { rawEvents := pairNames.map fun n => ⟨String.ofList n, 0⟩
    enabled := pairNames.map String.ofList }

def pairText : List Char :=
  "perf.raw = [".toList ++
    [','].intercalate (pairNames.map fun n => "['".toList ++ n ++ "', 0]".toList) ++
    "]\ncounters.enabled = [".toList ++
    [','].intercalate (pairNames.map fun n => '\'' :: n ++ ['\'']) ++ "]".toList

theorem check_pairEvents : pairEvents.check = .ok () :=
  Settings.ok_of_toOption (by decide +kernel)

theorem parse_pairText : Settings.parse (String.ofList pairText) = .ok pairEvents := by
  -- The check is evaluated apart: together the settings would be read anew for each part of it.
  have hread : (Toml.parse? (String.ofList pairText)).bind ofEntries? = some pairEvents := by
    unfold Toml.parse?
    rw [String.toList_ofList]
    decide +kernel
  rw [Settings.parse, hread]
  dsimp only
  rw [check_pairEvents]
  rfl

theorem resolve_pairEvents : ∃ r, resolve Provider.all pairEvents [0] {} pairEvents.counterNames =
      .ok r ∧ r.schema = pairEvents.counterNames.map fun n => ⟨n, none⟩ := by
  have hknown : ∀ n ∈ pairEvents.counterNames, Provider.Known pairEvents n := by
    intro n hn
    simp only [counterNames, List.mem_append, List.mem_cons, List.not_mem_nil, or_false] at hn
    rcases hn with (hn | hn) | hn
    · exact ⟨.timing, by rcases hn with rfl | rfl <;> decide⟩
    · refine ⟨.events, .inl ?_⟩
      rwa [pairEvents, List.map_map]
    · exact ⟨.timing, by rw [hn]; decide⟩
  have hnodup : pairEvents.counterNames.Nodup := by
    have hchars : ([['t', 's'], ['i', 'n', 't', 'v']] ++ pairNames ++ [['o', 'h']]).Nodup := by
      decide +kernel
    have hnames := hchars.map fun _ _ h => String.ofList_injective h
    rw [List.map_append, List.map_append] at hnames
    exact hnames
  obtain ⟨r, hr, hcolumns, -⟩ :=
    resolve_of_nodup [0] {} check_pairEvents (.refl Provider.all) hknown hnodup
  have hplain : ∀ c ∈ r.schema, c = ⟨c.name, none⟩ := by
    intro c hc
    cases shows_of_resolve check_pairEvents hr c hc with
    | plain hn => rfl
    | temperature hn => exact absurd hn (by decide +kernel)
    | sensors hg hn => cases hg
  refine ⟨r, hr, ?_⟩
  rw [← hcolumns, List.map_map]
  exact (List.map_id _).symm.trans (List.map_congr_left hplain)

/-- Settings are accepted and resolved whose longest record is longer than a page: once it is the
oldest one a read finds nothing. -/
theorem record_longer_than_page :
    ∃ s r, Settings.parse (String.ofList pairText) = .ok s ∧
      resolve Provider.all s [0] {} s.counterNames = .ok r ∧
      let sample := List.replicate 172 (UInt64.ofNat (UInt64.size - 1))
      sample.length = r.schema.width ∧ pageSize < (r.schema.render sample).utf8ByteSize ∧
      let h := ((History.new r.schema 1).push sample {}).1
      h.toList = [sample] ∧ h.drain pageSize = ("", h) := by
  obtain ⟨r, hr, hschema⟩ := resolve_pairEvents
  refine ⟨pairEvents, r, parse_pairText, hr, ?_⟩
  intro sample
  have hwidth : sample.length = r.schema.width := by
    rw [hschema]
    decide +kernel
  have hlong : pageSize < (r.schema.render sample).utf8ByteSize := by
    rw [hschema, Schema.render, Record.size_render (by decide +kernel)]
    decide +kernel
  refine ⟨hwidth, hlong, ?_⟩
  intro h
  have hshaped : h.ShapedBy r.schema := (History.shapedBy_new r.schema 1).push sample {}
  have hlist : h.toList = [sample] := by
    simp only [h, hschema]
    decide +kernel
  exact ⟨hlist, History.drain_of_long hshaped (hshaped.oldest_of_toList hlist) hlong⟩

end Engine

end NodeTelemetry
