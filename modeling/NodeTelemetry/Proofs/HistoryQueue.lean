import Mathlib
import NodeTelemetry.History
import NodeTelemetry.Proofs.RingLayout

namespace NodeTelemetry

def Ring.slotWithin? (r : Ring) (i : Nat) : Option (List UInt64) :=
  if r.start i + r.width ≤ r.data.size then some (r.slot i) else none

namespace History

inductive Op
  | push (sample : List UInt64)
  | drain (limit : Nat)
  | last
  | clear

def perform : Op → History → StateM Site (String × History)
  | .push sample, h => do pure ("", ← h.push sample)
  | .drain limit, h => pure (h.drain limit)
  | .last, h => pure (h.last, h)
  | .clear, h => pure ("", h.clear)

def performAll : List Op → History → StateM Site (List (Op × String) × History)
  | [], h => pure ([], h)
  | op :: ops, h => do
    let (text, h) ← perform op h
    let (log, h) ← performAll ops h
    pure ((op, text) :: log, h)

def drainUpToWithin? (limit : Nat) : Nat → String → History → Option (String × History)
  | 0, text, h => some (text, h)
  | fuel + 1, text, h =>
    if h.ring.size = 0 ∨ limit - text.utf8ByteSize ≤ limit / 2 then some (text, h)
    else do
      let record := h.schema.render (← h.ring.slotWithin? h.ring.base)
      if limit - text.utf8ByteSize < record.utf8ByteSize then some (text, h)
      else drainUpToWithin? limit fuel (text ++ record) { h with ring := h.ring.pop }

/-- An operation that looks at the bounds of the array before every slot that it reads or writes, and
has no result when a slot lies outside. -/
def performWithin? : Op → History → Site → Option ((String × History) × Site)
  | .push sample, h, site => do
    let _ ← h.ring.slotWithin? h.ring.next
    some (perform (.push sample) h site)
  | .drain limit, h, site => do some (← drainUpToWithin? limit h.ring.size "" h, site)
  | .last, h, site =>
    if h.ring.size = 0 then some (("", h), site)
    else do
      let sample ← h.ring.slotWithin? ((h.ring.base + h.ring.size - 1) % h.ring.capacity)
      some ((h.schema.render sample, h), site)
  | .clear, h, site => some (("", h.clear), site)

def performAllWithin? :
    List Op → History → Site → Option ((List (Op × String) × History) × Site)
  | [], h, site => some (([], h), site)
  | op :: ops, h, site => do
    let ((text, h), site) ← performWithin? op h site
    let ((log, h), site) ← performAllWithin? ops h site
    some (((op, text) :: log, h), site)

inductive QueueStep (schema : Schema) (capacity : Nat) :
    List (List UInt64) → Op × String → List (List UInt64) → Prop
  | push (samples : List (List UInt64)) (sample : List UInt64) :
      QueueStep schema capacity samples (.push sample, "")
        (Ring.appendTo capacity samples (Ring.fit schema.width sample))
  | drain (limit : Nat) (taken rest : List (List UInt64)) :
      QueueStep schema capacity (taken ++ rest)
        (.drain limit, String.join (taken.map schema.render)) rest
  | last (samples : List (List UInt64)) :
      QueueStep schema capacity samples (.last, (samples.getLast?.map schema.render).getD "") samples
  | clear (samples : List (List UInt64)) : QueueStep schema capacity samples (.clear, "") []

inductive QueueRun (schema : Schema) (capacity : Nat) :
    List (List UInt64) → List (Op × String) → List (List UInt64) → Prop
  | nil (samples : List (List UInt64)) : QueueRun schema capacity samples [] samples
  | cons {before after final : List (List UInt64)} {entry : Op × String} {log : List (Op × String)} :
      QueueStep schema capacity before entry after → QueueRun schema capacity after log final →
      QueueRun schema capacity before (entry :: log) final

structure Represents (h : History) (schema : Schema) (capacity : Nat)
    (samples : List (List UInt64)) : Prop where
  schema_eq : h.schema = schema
  holds : h.ring.Holds schema.width capacity samples

variable {h : History} {schema : Schema} {capacity : Nat} {samples : List (List UInt64)}

theorem represents_new (schema : Schema) (capacity : Nat)
    (hfit : max capacity 1 * schema.width < 2 ^ 64) :
    (new schema capacity).Represents schema (max capacity 1) [] :=
  ⟨rfl, Ring.holds_new schema.width capacity hfit⟩

theorem slotWithin?_eq {r : Ring} {width i : Nat} (hr : r.Holds width capacity samples)
    (hi : i < capacity) : r.slotWithin? i = some (r.slot i) := if_pos (hr.slot_within hi)

theorem push_ring (h : History) (sample : List UInt64) (site : Site) :
    (h.push sample site).1 = { h with ring := (h.ring.push sample).2 } := by
  unfold push
  rcases h.ring.push sample with ⟨_ | _, ring⟩ <;> rfl

theorem Represents.push (hr : h.Represents schema capacity samples) (sample : List UInt64)
    (site : Site) :
    (h.push sample site).1.Represents schema capacity
      (Ring.appendTo capacity samples (Ring.fit schema.width sample)) := by
  rw [push_ring]
  exact ⟨hr.schema_eq, hr.holds.push sample⟩

theorem drainUpTo_succ (hr : h.Represents schema capacity samples) (limit fuel : Nat)
    (text : String) :
    (drainUpTo limit (fuel + 1) text h = (text, h) ∧
        drainUpToWithin? limit (fuel + 1) text h = some (text, h)) ∨
      ∃ sample rest, samples = sample :: rest ∧
        drainUpTo limit (fuel + 1) text h =
          drainUpTo limit fuel (text ++ schema.render sample) { h with ring := h.ring.pop } ∧
        drainUpToWithin? limit (fuel + 1) text h =
          drainUpToWithin? limit fuel (text ++ schema.render sample)
            { h with ring := h.ring.pop } := by
  have hsize := hr.holds.size_eq
  cases samples with
  | nil =>
    left
    simp only [drainUpTo, drainUpToWithin?, hr.holds.oldest?_eq, List.head?_nil]
    simp_all
  | cons sample rest =>
    have hne : h.ring.size ≠ 0 := by simp [hsize]
    have hold : h.ring.oldest? = some sample := hr.holds.oldest?_eq
    have hslot : h.ring.slotWithin? h.ring.base = some sample := by
      rw [slotWithin?_eq hr.holds hr.holds.base_lt, ← hold, Ring.oldest?, if_neg hne]
    simp only [drainUpTo, drainUpToWithin?, hold, hslot, hr.schema_eq, hne, false_or,
      Option.bind_eq_bind, Option.bind_some]
    by_cases hhalf : limit - text.utf8ByteSize ≤ limit / 2
    · left
      simp [hhalf]
    · by_cases hlong : limit - text.utf8ByteSize < (schema.render sample).utf8ByteSize
      · left
        simp [hhalf, hlong]
      · right
        refine ⟨sample, rest, rfl, ?_, ?_⟩ <;> simp [hhalf, hlong]

theorem drainUpTo_spec (limit fuel : Nat) (text : String)
    (hr : h.Represents schema capacity samples) :
    drainUpToWithin? limit fuel text h = some (drainUpTo limit fuel text h) ∧
      ∃ taken rest, samples = taken ++ rest ∧
        (drainUpTo limit fuel text h).1 = text ++ String.join (taken.map schema.render) ∧
        (drainUpTo limit fuel text h).2.Represents schema capacity rest := by
  induction fuel generalizing text h samples with
  | zero => exact ⟨rfl, [], samples, rfl, by simp [drainUpTo], hr⟩
  | succ fuel ih =>
    rcases drainUpTo_succ hr limit fuel text with ⟨he, hw⟩ | ⟨sample, rest, rfl, he, hw⟩
    · rw [he, hw]
      exact ⟨rfl, [], samples, rfl, by simp, hr⟩
    · have hpop : Represents { h with ring := h.ring.pop } schema capacity rest :=
        ⟨hr.schema_eq, hr.holds.pop⟩
      obtain ⟨hwithin, taken, rest, rfl, htext, hrest⟩ := ih (text ++ schema.render sample) hpop
      rw [he, hw]
      refine ⟨hwithin, sample :: taken, rest, rfl, ?_, hrest⟩
      rw [htext, List.map_cons, String.join_cons, String.append_assoc]

theorem last_eq (hr : h.Represents schema capacity samples) :
    h.last = (samples.getLast?.map schema.render).getD "" := by
  rw [last, hr.holds.newest?_eq, hr.schema_eq]
  cases samples.getLast? <;> rfl

theorem performWithin?_eq (hr : h.Represents schema capacity samples) (op : Op) (site : Site) :
    performWithin? op h site = some (perform op h site) := by
  cases op with
  | push sample => simp [performWithin?, slotWithin?_eq hr.holds hr.holds.next_lt]
  | drain limit =>
    simp only [performWithin?, (drainUpTo_spec limit h.ring.size "" hr).1]
    rfl
  | last =>
    have hpos : 0 < h.ring.capacity := by
      have := hr.holds.base_lt
      rw [hr.holds.capacity_eq]
      omega
    by_cases hsize : h.ring.size = 0
    · have hlast : h.last = "" := by simp [last, Ring.newest?, hsize]
      simp [performWithin?, perform, hsize, hlast, pure, StateT.pure]
    · have hlt := Nat.mod_lt (h.ring.base + h.ring.size - 1) hpos
      rw [performWithin?, if_neg hsize,
        slotWithin?_eq hr.holds (by rw [← hr.holds.capacity_eq]; exact hlt)]
      simp [perform, last, Ring.newest?, hsize, pure, StateT.pure]
  | clear => rfl

theorem perform_refines (hr : h.Represents schema capacity samples) (op : Op) (site : Site) :
    ∃ after, QueueStep schema capacity samples (op, (perform op h site).1.1) after ∧
      (perform op h site).1.2.Represents schema capacity after := by
  cases op with
  | push sample => exact ⟨_, .push samples sample, hr.push sample site⟩
  | drain limit =>
    obtain ⟨-, taken, rest, rfl, htext, hrest⟩ := drainUpTo_spec limit h.ring.size "" hr
    rw [String.empty_append] at htext
    refine ⟨rest, ?_, hrest⟩
    change QueueStep schema capacity _ (_, (drainUpTo limit h.ring.size "" h).1) rest
    rw [htext]
    exact .drain limit taken rest
  | last =>
    refine ⟨samples, ?_, hr⟩
    change QueueStep schema capacity _ (_, h.last) _
    rw [last_eq hr]
    exact .last samples
  | clear => exact ⟨[], .clear samples, hr.schema_eq, hr.holds.clear⟩

theorem performAll_cons (op : Op) (ops : List Op) (h : History) (site : Site) :
    performAll (op :: ops) h site =
      let now := perform op h site
      let later := performAll ops now.1.2 now.2
      (((op, now.1.1) :: later.1.1, later.1.2), later.2) := rfl

theorem performAll_ops (ops : List Op) (h : History) (site : Site) :
    (performAll ops h site).1.1.map Prod.fst = ops := by
  induction ops generalizing h site with
  | nil => rfl
  | cons op ops ih => simp only [performAll_cons, List.map_cons, ih]

theorem performAll_refines (ops : List Op) (hr : h.Represents schema capacity samples)
    (site : Site) :
    performAllWithin? ops h site = some (performAll ops h site) ∧
      ∃ after, QueueRun schema capacity samples (performAll ops h site).1.1 after ∧
        (performAll ops h site).1.2.Represents schema capacity after := by
  induction ops generalizing h samples site with
  | nil => exact ⟨rfl, samples, .nil samples, hr⟩
  | cons op ops ih =>
    obtain ⟨middle, hstep, hmiddle⟩ := perform_refines hr op site
    obtain ⟨hwithin, after, hrun, hafter⟩ := ih hmiddle (perform op h site).2
    refine ⟨?_, after, .cons hstep hrun, hafter⟩
    simp only [performAllWithin?, performWithin?_eq hr, hwithin, performAll_cons,
      Option.bind_eq_bind, Option.bind_some]

/-- A new history is a queue of bounded length to whatever is done with it. No slot that it touches
lies outside the array, and no index outgrows a word. -/
theorem performAll_simulates_queue (schema : Schema) (capacity : Nat)
    (hfit : max capacity 1 * schema.width < 2 ^ 64) (ops : List Op) (site : Site) :
    let done := performAll ops (new schema capacity) site
    let h := done.1.2
    performAllWithin? ops (new schema capacity) site = some done ∧
      done.1.1.map Prod.fst = ops ∧
      (∃ samples, QueueRun schema (max capacity 1) [] done.1.1 samples ∧
        h.Represents schema (max capacity 1) samples) ∧
      h.clear.ring.base = h.ring.base ∧
      perform .last h done.2 = ((h.last, h), done.2) ∧
      (2 ≤ schema.width → h.ring.base + h.ring.size < 2 ^ 64) := by
  obtain ⟨hwithin, samples, hrun, hr⟩ :=
    performAll_refines ops (represents_new schema capacity hfit) site
  exact ⟨hwithin, performAll_ops _ _ _, ⟨samples, hrun, hr⟩, rfl, rfl,
    fun hw => hr.holds.base_add_size_lt hw hfit⟩

theorem two_slots_simulate_queue :
    let schema : Schema := [⟨"ts", none⟩, ⟨"intv", none⟩]
    let ops : List Op := [.push [1], .push [2, 3, 4], .push [5, 6], .drain 40, .last, .clear, .push []]
    let done := performAll ops (new schema 2) {}
    max 2 1 * schema.width < 2 ^ 64 ∧
      performAllWithin? ops (new schema 2) {} = some done ∧
      done.1.1.map Prod.fst = ops ∧
      (∃ samples, QueueRun schema (max 2 1) [] done.1.1 samples ∧
        done.1.2.Represents schema (max 2 1) samples) ∧
      done.1.2.clear.ring.base = done.1.2.ring.base ∧
      perform .last done.1.2 done.2 = ((done.1.2.last, done.1.2), done.2) ∧
      (2 ≤ schema.width → done.1.2.ring.base + done.1.2.ring.size < 2 ^ 64) :=
  ⟨by decide, performAll_simulates_queue [⟨"ts", none⟩, ⟨"intv", none⟩] 2 (by decide) _ _⟩

end History

end NodeTelemetry
