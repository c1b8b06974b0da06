import Mathlib
import NodeTelemetry.Http
import NodeTelemetry.Proofs.AttributeTable
import NodeTelemetry.Proofs.CheckedReads

namespace NodeTelemetry

open ControlPlane

def Attribute.Heeds (input : String) : Attribute → Prop
  | .power => begins input.toList "on" = true ∨ begins input.toList "off" = true
  | .period => ∃ ms, parsePeriod input = some ms ∧ periodInRange ms = true
  | .clear _ => Text.trim input.toList = ['o', 'n'] ∨ Text.trim input.toList = ['1']
  | .history _ | .last _ => False

namespace ControlPlane

def readOnlyNames (p : ControlPlane) : List String :=
  p.nodes.flatMap fun n => ["stat" ++ n.suffix, "last" ++ n.suffix]

variable {p : ControlPlane} {name input : String} {site : Site} {a : Attribute} {i : Nat} {n : Node}

theorem write_of_none (h : p.attribute? name = none) (input : String) (site : Site) :
    p.write name input site = ((.error (.unknown name), p), site) := by
  simp only [write, h]
  rfl

theorem write_of_readOnly
    (h : p.attribute? name = some (.history i) ∨ p.attribute? name = some (.last i))
    (input : String) (site : Site) :
    p.write name input site = ((.error (.readOnly name), p), site) := by
  rcases h with h | h
  · simp only [write, h]
    rfl
  · simp only [write, h]
    rfl

theorem write_power (h : p.attribute? name = some .power) (input : String) (site : Site) :
    (p.write name input site).1.1 = .ok input.utf8ByteSize ∧
      (¬ Attribute.power.Heeds input →
        p.write name input site = ((.ok input.utf8ByteSize, p), site)) := by
  by_cases hon : begins input.toList "on" = true
  · refine ⟨?_, fun hignored => absurd (.inl hon) hignored⟩
    simp only [write, h, hon, if_true, bind, StateT.bind]
    rfl
  · by_cases hoff : begins input.toList "off" = true
    · refine ⟨?_, fun hignored => absurd (.inr hoff) hignored⟩
      simp only [write, h, hon, hoff, if_true, bind]
      rfl
    · have hwrite : p.write name input site = ((.ok input.utf8ByteSize, p), site) := by
        simp only [write, h, hon, hoff, bind]
        rfl
      exact ⟨congrArg (fun done => done.1.1) hwrite, fun _ => hwrite⟩

theorem write_period (h : p.attribute? name = some .period) (input : String) (site : Site) :
    (p.write name input site).1.1 = .ok input.utf8ByteSize ∧
      (¬ Attribute.period.Heeds input →
        p.write name input site = ((.ok input.utf8ByteSize, p), site)) := by
  simp only [write, h]
  refine ⟨rfl, ?_⟩
  intro hignored
  cases hms : parsePeriod input with
  | none => rfl
  | some ms =>
    have hout : ¬ periodInRange ms = true := fun hin => hignored ⟨ms, hms, hin⟩
    simp only [setPeriod, if_neg hout]
    rfl

theorem write_clear (h : p.attribute? name = some (.clear i)) (input : String) (site : Site) :
    ((Attribute.clear i).Heeds input →
        p.write name input site = ((.ok input.utf8ByteSize, p.clear i), site)) ∧
      (¬ (Attribute.clear i).Heeds input →
        p.write name input site = ((.ok input.utf8ByteSize, p), site)) := by
  simp only [write, h, Attribute.Heeds]
  constructor
  · intro hword
    rw [if_pos hword]
    rfl
  · intro hword
    rw [if_neg hword]
    rfl

theorem write_of_writable (h : p.attribute? name = some a) (hhistory : ∀ i, a ≠ .history i)
    (hlast : ∀ i, a ≠ .last i) (input : String) (site : Site) :
    (p.write name input site).1.1 = .ok input.utf8ByteSize := by
  cases a with
  | power => exact (write_power h input site).1
  | period => exact (write_period h input site).1
  | clear i =>
    by_cases hword : (Attribute.clear i).Heeds input
    · rw [(write_clear h input site).1 hword]
    · rw [(write_clear h input site).2 hword]
  | history i => exact absurd rfl (hhistory i)
  | last i => exact absurd rfl (hlast i)

theorem write_of_unheeded (h : ∀ a, p.attribute? name = some a → ¬ a.Heeds input) (site : Site) :
    (p.write name input site).1.2 = p ∧ (p.write name input site).2 = site := by
  have same {answer : Except SurfaceError Nat}
      (hwrite : p.write name input site = ((answer, p), site)) :
      (p.write name input site).1.2 = p ∧ (p.write name input site).2 = site := by
    rw [hwrite]
    exact ⟨rfl, rfl⟩
  cases ha : p.attribute? name with
  | none => exact same (write_of_none ha input site)
  | some a =>
    have hignored := h a ha
    cases a with
    | power => exact same ((write_power ha input site).2 hignored)
    | period => exact same ((write_period ha input site).2 hignored)
    | clear i => exact same ((write_clear ha input site).2 hignored)
    | history i => exact same (write_of_readOnly (.inl ha) input site)
    | last i => exact same (write_of_readOnly (.inr ha) input site)

theorem read_of_some (h : p.attribute? name = some a) : ∃ text, (p.read name).1 = .ok text := by
  cases a with
  | _ =>
    simp only [read, h]
    exact ⟨_, rfl⟩

theorem read_same (h : ∀ i, p.attribute? name ≠ some (.history i)) : (p.read name).2 = p := by
  unfold read
  rcases ha : p.attribute? name with _ | _ | _ | i | i | i
  case some.history => exact absurd ha (h i)
  all_goals rfl

structure TableAgrees (p : ControlPlane) : Prop where
  nodup : p.attributes.Nodup
  resolves : ∀ name, (p.attribute? name).isSome ↔ name ∈ p.attributes
  ofNode : ∀ (i : Nat) (n : Node), p.nodes[i]? = some n →
    p.attribute? ("clear" ++ n.suffix) = some (.clear i) ∧
    p.attribute? ("stat" ++ n.suffix) = some (.history i) ∧
    p.attribute? ("last" ++ n.suffix) = some (.last i)

structure AnswersByTable (p : ControlPlane) : Prop where
  read_outside : ∀ name, name ∉ p.attributes → p.read name = (.error (.unknown name), p)
  read_inside : ∀ name ∈ p.attributes, ∃ text, (p.read name).1 = .ok text
  readOnly_inside : ∀ name ∈ p.readOnlyNames, name ∈ p.attributes
  write_outside : ∀ name input site, name ∉ p.attributes →
    p.write name input site = ((.error (.unknown name), p), site)
  write_readOnly : ∀ name input site, name ∈ p.readOnlyNames →
    p.write name input site = ((.error (.readOnly name), p), site)
  write_inside : ∀ name input site, name ∈ p.attributes → name ∉ p.readOnlyNames →
    (p.write name input site).1.1 = .ok input.utf8ByteSize

structure ChangesByTable (p : ControlPlane) : Prop where
  write_unheeded : ∀ name input site, (∀ a, p.attribute? name = some a → ¬ a.Heeds input) →
    (p.write name input site).1.2 = p ∧ (p.write name input site).2 = site
  write_clear : ∀ (i : Nat) (n : Node) input site, p.nodes[i]? = some n →
    (Attribute.clear i).Heeds input →
      p.write ("clear" ++ n.suffix) input site = ((.ok input.utf8ByteSize,
        { p with nodes := p.nodes.set i { n with history := n.history.clear } }), site)
  read_stat : ∀ (i : Nat) (n : Node), p.nodes[i]? = some n →
    p.read ("stat" ++ n.suffix) = (.ok (n.history.drain p.limit).1,
      { p with nodes := p.nodes.set i { n with history := (n.history.drain p.limit).2 } })
  read_else : ∀ name, (∀ n ∈ p.nodes, name ≠ "stat" ++ n.suffix) → (p.read name).2 = p

section

variable (hids : (p.nodes.map Node.id).Nodup)

include hids

theorem tableAgrees_of_distinct : p.TableAgrees where
  nodup := attributes_nodup hids
  resolves _ := isSome_attribute?_iff hids
  ofNode _ n hn := ⟨(attribute?_clear_iff hids).mpr ⟨n, hn, rfl⟩,
    (attribute?_history_iff hids).mpr ⟨n, hn, rfl⟩, (attribute?_last_iff hids).mpr ⟨n, hn, rfl⟩⟩

theorem mem_readOnlyNames : name ∈ p.readOnlyNames ↔
    ∃ i, p.attribute? name = some (.history i) ∨ p.attribute? name = some (.last i) := by
  simp only [attribute?_history_iff hids, attribute?_last_iff hids]
  constructor
  · intro h
    obtain ⟨n, hn, hname⟩ := List.mem_flatMap.mp h
    obtain ⟨i, hi⟩ := List.mem_iff_getElem?.mp hn
    simp only [List.mem_cons, List.not_mem_nil, or_false] at hname
    rcases hname with hname | hname
    · exact ⟨i, .inl ⟨n, hi, hname⟩⟩
    · exact ⟨i, .inr ⟨n, hi, hname⟩⟩
  · rintro ⟨i, ⟨n, hi, rfl⟩ | ⟨n, hi, rfl⟩⟩
    · exact List.mem_flatMap.mpr ⟨n, List.mem_of_getElem? hi, by simp⟩
    · exact List.mem_flatMap.mpr ⟨n, List.mem_of_getElem? hi, by simp⟩

theorem answersByTable_of_distinct : p.AnswersByTable where
  read_outside name hname := by
    simp only [read, (attribute?_eq_none_iff hids).mpr hname]
  read_inside name hname := by
    obtain ⟨a, ha⟩ := Option.isSome_iff_exists.mp ((isSome_attribute?_iff hids).mpr hname)
    exact read_of_some ha
  readOnly_inside name hname := by
    rw [← isSome_attribute?_iff hids]
    obtain ⟨i, ha | ha⟩ := (mem_readOnlyNames hids).mp hname
    · rw [ha, Option.isSome_some]
    · rw [ha, Option.isSome_some]
  write_outside name input site hname :=
    write_of_none ((attribute?_eq_none_iff hids).mpr hname) input site
  write_readOnly name input site hname := by
    obtain ⟨i, ha⟩ := (mem_readOnlyNames hids).mp hname
    exact write_of_readOnly ha input site
  write_inside name input site hname hwritable := by
    obtain ⟨a, ha⟩ := Option.isSome_iff_exists.mp ((isSome_attribute?_iff hids).mpr hname)
    rw [mem_readOnlyNames hids] at hwritable
    refine write_of_writable ha ?_ ?_ input site
    · rintro i rfl
      exact hwritable ⟨i, .inl ha⟩
    · rintro i rfl
      exact hwritable ⟨i, .inr ha⟩

theorem changesByTable_of_distinct : p.ChangesByTable where
  write_unheeded name input site h := write_of_unheeded h site
  write_clear i n input site hn hword := by
    have ha := (attribute?_clear_iff hids).mpr ⟨n, hn, rfl⟩
    rw [(ControlPlane.write_clear ha input site).1 hword, clear, modifyHistory_of_some hn]
  read_stat i n hn := by
    have ha := (attribute?_history_iff hids).mpr ⟨n, hn, rfl⟩
    simp only [read, ha, readHistory, hn, modifyHistory_of_some hn]
  read_else name hname := by
    refine read_same fun i ha => ?_
    obtain ⟨n, hn, rfl⟩ := (attribute?_history_iff hids).mp ha
    exact hname n (List.mem_of_getElem? hn) rfl

end

end ControlPlane

namespace Http

/-- What is documented of a framework that takes bodies of at most `limit` bytes. -/
structure Framework.Documented (fw : Framework) (limit : Nat) : Prop where
  read : ∀ {r segment name}, r.method = .get → Route.ofPath? r.path = some (.named segment) →
    segmentName? segment = some name → fw r = .called (.read name) false
  write : ∀ {r segment name input}, r.method = .put ∨ r.method = .post →
    Route.ofPath? r.path = some (.named segment) → segmentName? segment = some name →
    r.body.length ≤ limit → Text.ofBytes? r.body = some input →
      fw r = .called (.write name input) false
  too_large : ∀ {r segment name}, r.method = .put ∨ r.method = .post →
    Route.ofPath? r.path = some (.named segment) → segmentName? segment = some name →
    limit < r.body.length → fw r = .answered .tooLarge

theorem documented_standard (limit : Nat) : (Framework.standard (some limit)).Documented limit where
  read hget hroute hname := by
    simp only [Framework.standard, hroute, hget, Framework.readCall, hname]
  write hput hroute hname hlimit hinput := by
    have hwithin := Nat.not_lt.mpr hlimit
    rcases hput with hput | hput
    all_goals
      simp [Framework.standard, hroute, hput, Framework.writeCall, hname, hinput, hwithin]
  too_large hput hroute hname hlimit := by
    rcases hput with hput | hput
    all_goals simp [Framework.standard, hroute, hput, Framework.writeCall, hname, hlimit]

def readStatus (p : ControlPlane) (name : String) : Nat := if name ∈ p.attributes then 200 else 404

def writeStatus (p : ControlPlane) (name : String) : Nat :=
  if name ∈ p.readOnlyNames then 405 else readStatus p name

structure RoutedByTable (fw : Framework) (limit : Nat) (p : ControlPlane) (request : Request)
    (name : String) (site : Site) : Prop where
  get : request.method = .get → ∀ m,
    (answer fw m request p site).1.1.status =
        (if (p.read? m name).1.isSome then readStatus p name else 500) ∧
      (answer fw m request p site).1.2 = (p.read? m name).2
  get_wrapping : request.method = .get →
    (answer fw .wrapping request p site).1.1.status = readStatus p name ∧
      (answer fw .wrapping request p site).1.2 = (p.read name).2
  put : request.method = .put ∨ request.method = .post → request.body.length ≤ limit →
    ∀ m input, Text.ofBytes? request.body = some input →
      (answer fw m request p site).1.1.status = writeStatus p name ∧
        (writeStatus p name = 200 →
          (answer fw m request p site).1.1.body = some (toString input.utf8ByteSize ++ "\n")) ∧
        (answer fw m request p site).1.2 = (p.write name input site).1.2
  put_too_large : request.method = .put ∨ request.method = .post →
    limit < request.body.length → ∀ m, answer fw m request p site = ((.tooLarge, p), site)

variable {p : ControlPlane} {name input : String} {segment : List Char} {fw : Framework}
  {m : Arithmetic} {request : Request} {limit : Nat}

theorem answer_of_read (h : fw request = .called (.read name) false) (p : ControlPlane)
    (site : Site) : answer fw m request p site =
      ((match (p.read? m name).1 with
        | none => .brokenDown
        | some (.ok text) => .ok text
        | some (.error e) => .ofError e, (p.read? m name).2), site) := by
  simp only [answer, h, handle]
  rcases p.read? m name with ⟨_ | _ | _, p'⟩ <;> rfl

theorem answer_of_write (h : fw request = .called (.write name input) false) (p : ControlPlane)
    (site : Site) : answer fw m request p site =
      ((match (p.write name input site).1.1 with
        | .ok count => .ok (toString count ++ "\n")
        | .error e => .ofError e, (p.write name input site).1.2), (p.write name input site).2) := by
  simp only [answer, h, handle, bind, StateT.bind]
  rcases p.write name input site with ⟨⟨_ | _, p'⟩, site'⟩ <;> rfl

section

variable (hids : (p.nodes.map Node.id).Nodup)

include hids

theorem status_of_read (m : Arithmetic) :
    (match (p.read? m name).1 with
      | none => Response.brokenDown
      | some (.ok text) => .ok text
      | some (.error e) => .ofError e).status =
      if (p.read? m name).1.isSome then readStatus p name else 500 := by
  cases hanswer : (p.read? m name).1 with
  | none => rfl
  | some answer =>
    have hread : answer = (p.read name).1 := by
      rw [read?_eq_of_some hanswer] at hanswer
      exact (Option.some.inj hanswer).symm
    have hanswers := answersByTable_of_distinct hids
    rw [Option.isSome_some, if_pos rfl, hread]
    by_cases hin : name ∈ p.attributes
    · obtain ⟨text, htext⟩ := hanswers.read_inside name hin
      rw [htext, readStatus, if_pos hin]
      rfl
    · rw [hanswers.read_outside name hin, readStatus, if_neg hin]
      rfl

theorem status_of_write (site : Site) :
    (match (p.write name input site).1.1 with
      | .ok count => Response.ok (toString count ++ "\n")
      | .error e => .ofError e).status = writeStatus p name := by
  have hanswers := answersByTable_of_distinct hids
  by_cases hro : name ∈ p.readOnlyNames
  · rw [hanswers.write_readOnly name input site hro, writeStatus, if_pos hro]
    rfl
  · rw [writeStatus, if_neg hro]
    by_cases hin : name ∈ p.attributes
    · rw [hanswers.write_inside name input site hin hro, readStatus, if_pos hin]
      rfl
    · rw [hanswers.write_outside name input site hin, readStatus, if_neg hin]
      rfl

theorem write_of_status (hstatus : writeStatus p name = 200) (site : Site) :
    (p.write name input site).1.1 = .ok input.utf8ByteSize := by
  have hro : name ∉ p.readOnlyNames := by
    intro hro
    rw [writeStatus, if_pos hro] at hstatus
    cases hstatus
  have hin : name ∈ p.attributes := by
    by_contra hin
    rw [writeStatus, if_neg hro, readStatus, if_neg hin] at hstatus
    cases hstatus
  exact (answersByTable_of_distinct hids).write_inside name input site hin hro

theorem routedByTable_of_distinct (hfw : fw.Documented limit)
    (hroute : Route.ofPath? request.path = some (.named segment))
    (hname : segmentName? segment = some name) (site : Site) :
    RoutedByTable fw limit p request name site where
  get hget m := by
    rw [answer_of_read (hfw.read hget hroute hname)]
    exact ⟨status_of_read hids m, rfl⟩
  get_wrapping hget := by
    rw [answer_of_read (hfw.read hget hroute hname)]
    refine ⟨(status_of_read hids .wrapping).trans ?_, ?_⟩
    · rw [read?_wrapping, Option.isSome_some, if_pos rfl]
    · rw [read?_wrapping]
  put hput hlimit m input hinput := by
    rw [answer_of_write (hfw.write hput hroute hname hlimit hinput)]
    refine ⟨status_of_write hids site, fun hstatus => ?_, rfl⟩
    rw [write_of_status hids hstatus]
    rfl
  put_too_large hput hlimit m := by
    simp only [answer, hfw.too_large hput hroute hname hlimit]
    rfl

end

end Http

namespace ControlPlane

/-- Names and attributes agree on every plane whose nodes can be told apart: in what stands in the
list of names, in what is answered, over HTTP as well, and in what is changed. -/
theorem attributes_agree_with_lookup (p : ControlPlane) (hids : (p.nodes.map Node.id).Nodup)
    {fw : Http.Framework} {limit : Nat} (hfw : fw.Documented limit) :
    p.TableAgrees ∧ p.AnswersByTable ∧ p.ChangesByTable ∧
      ∀ request segment name site, Http.Route.ofPath? request.path = some (.named segment) →
        Http.segmentName? segment = some name →
          Http.RoutedByTable fw limit p request name site :=
  ⟨tableAgrees_of_distinct hids, answersByTable_of_distinct hids, changesByTable_of_distinct hids,
    fun _ _ _ site hroute hname => Http.routedByTable_of_distinct hids hfw hroute hname site⟩

theorem nodes_with_like_numbers_agree :
    let schema : Schema := [⟨"ts", none⟩, ⟨"intv", none⟩]
    let slots : List Slot := [⟨.timing .timestamp, 0⟩, ⟨.timing .interval, 0⟩]
    let group (k : Nat) : Group := ⟨{ slots, schema, tracer := { clock := 0 }, node := some k }, none⟩
    let p := ControlPlane.new [group 1, group 11] 4 ⟨100, 0⟩ 4096
    let fw := Http.Framework.standard (some Http.Framework.defaultLimit)
    (p.nodes.map Node.id).Nodup ∧ fw.Documented Http.Framework.defaultLimit ∧
      p.attributes =
        ["ctrl", "period", "clear1", "stat1", "last1", "clear11", "stat11", "last11"] ∧
      p.TableAgrees ∧ p.AnswersByTable ∧ p.ChangesByTable ∧
        ∀ request segment name site, Http.Route.ofPath? request.path = some (.named segment) →
          Http.segmentName? segment = some name →
            Http.RoutedByTable fw Http.Framework.defaultLimit p request name site := by
  intro schema slots group p fw
  have hids : (p.nodes.map Node.id).Nodup := by decide
  have hfw := Http.documented_standard Http.Framework.defaultLimit
  exact ⟨hids, hfw, by decide +kernel, attributes_agree_with_lookup p hids hfw⟩

end ControlPlane

end NodeTelemetry
