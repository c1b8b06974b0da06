import Mathlib
import NodeTelemetry.Proofs.NodeDeeds
import NodeTelemetry.Proofs.ThreadSteps

namespace NodeTelemetry

open Thread

structure Spawned where
  token : Bool := false
  thread : Thread

inductive Stance
  | holds (registry : Registry)
  | runs (i : Nat)
  | joins (i : Nat)
  | lost

/-- A sampler with all threads that it has ever started. -/
structure Handshake where
  name : String
  spawned : List Spawned := []
  stance : Stance
  history : History
  pace : Pace

namespace Handshake

inductive Event
  | started (i : Nat)
  | told (i : Nat)
  | returned (i : Nat)
  | did (i : Nat) (sign : Sign)
  | drained (limit : Nat)
  | cleared
  deriving DecidableEq

inductive Move
  | thread (i : Nat)
  | crash (i : Nat)
  | start
  | tell
  | join
  | drain (limit : Nat)
  | clear
  | setPace (pace : Pace)
  | elsewhere (site : Site)

def onThread (i : Nat) (act : Spawned → History → StateM Site (Option Sign × Thread × History))
    (p : Handshake) : StateM Site (Option Event × Handshake) :=
  match p.spawned[i]? with
  | none => pure (none, p)
  | some s => do
    let (sign?, thread, history) ← act s p.history
    pure (sign?.map (.did i), { p with spawned := p.spawned.set i { s with thread }, history })

def afterStart (p : Handshake) : SamplerState → Option Event × Handshake
  | .stopped r => (none, { p with stance := .holds r })
  | .running w =>
    (some (.started p.spawned.length),
      { p with spawned := p.spawned ++ [{ thread := ofWorker w }], stance := .runs p.spawned.length })
  | .lost => (none, { p with stance := .lost })

def start (p : Handshake) : StateM Site (Option Event × Handshake) :=
  match p.stance with
  | .holds r => do
    let (_, s) ← Sampler.start { name := p.name, state := .stopped r }
    pure (p.afterStart s.state)
  | _ => pure (none, p)

def tell (p : Handshake) : Option Event × Handshake :=
  match p.stance with
  | .runs i =>
    (some (.told i),
      { p with spawned := p.spawned.modify i fun s => { s with token := true }, stance := .joins i })
  | _ => (none, p)

def join (p : Handshake) : Option Event × Handshake :=
  match p.stance with
  | .joins i =>
    match p.spawned[i]?.map Spawned.thread with
    | some (.ended r) => (some (.returned i), { p with stance := .holds r })
    | some .broken => (some (.returned i), { p with stance := .lost })
    | _ => (none, p)
  | _ => (none, p)

def step : Move → Handshake → StateM Site (Option Event × Handshake)
  | .thread i, p => p.onThread i fun s => s.thread.step p.pace s.token
  | .crash i, p => p.onThread i fun s h => do pure (none, ← s.thread.crash, h)
  | .start, p => p.start
  | .tell, p => pure p.tell
  | .join, p => pure p.join
  | .drain limit, p =>
    pure (some (.drained limit), { p with history := (p.history.drain limit).2 })
  | .clear, p => pure (some .cleared, { p with history := p.history.clear })
  | .setPace pace, p => pure (none, { p with pace })
  | .elsewhere site, p => fun _ => ((none, p), site)

def play : List Move → Handshake → StateM Site (List Event × Handshake)
  | [], p => pure ([], p)
  | m :: moves, p => do
    let (e?, p) ← p.step m
    let (later, p) ← play moves p
    pure (e?.toList ++ later, p)

namespace Event

def sample? : Event → Option (List UInt64)
  | .did _ sign => sign.sample?
  | _ => none

def sampleOf? (i : Nat) : Event → Option (List UInt64)
  | .did j sign => if j = i then sign.sample? else none
  | _ => none

def change (h : History) : Event → History
  | .did _ sign => h.pushAll (pushedBy (some sign))
  | .drained limit => (h.drain limit).2
  | .cleared => h.clear
  | _ => h

def Foreign (i : Nat) : Event → Prop
  | .told j => j ≠ i
  | .did j _ => j ≠ i
  | _ => True

end Event

def samples (trace : List Event) : List (List UInt64) := trace.filterMap Event.sample?

def samplesOf (i : Nat) (trace : List Event) : List (List UInt64) :=
  trace.filterMap (Event.sampleOf? i)

structure Obeys (i : Nat) (trace : List Event) (s : Spawned) : Prop where
  told : .told i ∈ trace → s.token = true
  due : ∀ after, .told i :: after <:+ trace → (samplesOf i after).length + s.thread.due ≤ 1
  finds : ∀ sign, .did i sign ∈ trace → sign.Finds → s.token = true ∧ s.thread.Leaving
  silent : ∀ sign after, .did i sign :: after <:+ trace → sign.Finds →
    ∀ sign', .did i sign' ∈ after → sign' = .looked true
  follows : ∃ last, s.thread.Follows ((samplesOf i trace).getLastD last)

variable {trace after : List Event} {e x : Event} {e? : Option Event} {i j : Nat} {s : Spawned}
  {p : Handshake} {sign? : Option Sign} {t : Thread}

theorem getLastD_append {α : Type} (xs ys : List α) (d : α) :
    (xs ++ ys).getLastD d = ys.getLastD (xs.getLastD d) := by
  simp [List.getLastD_eq_getLast?]

theorem cons_suffix_append (h : x :: after <:+ trace ++ e?.toList) :
    e? = some x ∧ after = [] ∨ ∃ rest, after = rest ++ e?.toList ∧ x :: rest <:+ trace := by
  cases e? with
  | none =>
    rw [Option.toList_none, List.append_nil] at h
    exact .inr ⟨after, (List.append_nil after).symm, h⟩
  | some e =>
    rcases List.suffix_concat_iff.mp h with h | ⟨_ | ⟨y, rest⟩, he, hs⟩
    · cases h
    · cases he
      exact .inl ⟨rfl, rfl⟩
    · cases he
      exact .inr ⟨rest, rfl, hs⟩

theorem mem_append_toList (h : x ∈ trace ++ e?.toList) : x ∈ trace ∨ e? = some x :=
  (List.mem_append.mp h).imp_right Option.mem_toList.mp

theorem samplesOf_append (i : Nat) (xs ys : List Event) :
    samplesOf i (xs ++ ys) = samplesOf i xs ++ samplesOf i ys := List.filterMap_append

theorem samples_append (xs ys : List Event) : samples (xs ++ ys) = samples xs ++ samples ys :=
  List.filterMap_append

theorem samplesOf_foreign (he : ∀ e, e? = some e → e.Foreign i) : samplesOf i e?.toList = [] := by
  cases e? with
  | none => rfl
  | some e =>
    have hnone : e.sampleOf? i = none := by
      cases e with
      | did j sign => exact if_neg (he _ rfl)
      | _ => rfl
    rw [samplesOf, Option.toList_some, List.filterMap_cons_none hnone]
    rfl

theorem samplesOf_did (i : Nat) (sign? : Option Sign) :
    samplesOf i (sign?.map (.did i)).toList = pushedBy sign? := by
  cases sign? with
  | none => rfl
  | some sign =>
    have hself : Event.sampleOf? i (.did i sign) = sign.sample? := if_pos rfl
    rw [samplesOf, Option.map_some, Option.toList_some, List.filterMap_cons, hself]
    cases h : sign.sample? with
    | none => simp [pushedBy, h]
    | some v => simp [pushedBy, h]

theorem samples_did (i : Nat) (sign? : Option Sign) :
    samples (sign?.map (.did i)).toList = pushedBy sign? := by
  cases sign? with
  | none => rfl
  | some sign =>
    rw [samples, Option.map_some, Option.toList_some, List.filterMap_cons, Event.sample?]
    cases h : sign.sample? with
    | none => simp [pushedBy, h]
    | some v => simp [pushedBy, h]

theorem samples_foreign (he : ∀ e, e? = some e → ∀ i, e.Foreign i) : samples e?.toList = [] := by
  cases e? with
  | none => rfl
  | some e =>
    cases e with
    | did j sign => exact absurd rfl (he _ rfl j)
    | _ => rfl

theorem Obeys.new (r : Registry) (hnew : ∀ e ∈ trace, e.Foreign i) :
    Obeys i trace { thread := .inLoop r .head } where
  told ht := absurd rfl (hnew _ ht)
  due after ha := absurd rfl (hnew _ (ha.mem List.mem_cons_self))
  finds sign hd := absurd rfl (hnew _ hd)
  silent sign after ha := absurd rfl (hnew _ (ha.mem List.mem_cons_self))
  follows := by
    have hnone : samplesOf i trace = [] := by
      apply List.filterMap_eq_nil_iff.mpr
      intro e he
      cases e with
      | did j sign => exact if_neg (hnew _ he)
      | _ => rfl
    rw [hnone]
    exact ⟨r.lastSample, rfl⟩

theorem Obeys.foreign (h : Obeys i trace s) (he : ∀ e, e? = some e → e.Foreign i) :
    Obeys i (trace ++ e?.toList) s where
  told ht := by
    rcases mem_append_toList ht with ht | ht
    · exact h.told ht
    · exact absurd rfl (he _ ht)
  due after ha := by
    rcases cons_suffix_append ha with ⟨ht, -⟩ | ⟨rest, rfl, hs⟩
    · exact absurd rfl (he _ ht)
    · rw [samplesOf_append, samplesOf_foreign he, List.append_nil]
      exact h.due rest hs
  finds sign hd hf := by
    rcases mem_append_toList hd with hd | hd
    · exact h.finds sign hd hf
    · exact absurd rfl (he _ hd)
  silent sign after ha hf sign' hd := by
    rcases cons_suffix_append ha with ⟨hd, -⟩ | ⟨rest, rfl, hs⟩
    · exact absurd rfl (he _ hd)
    · rcases mem_append_toList hd with hd | hd
      · exact h.silent sign rest hs hf sign' hd
      · exact absurd rfl (he _ hd)
  follows := by
    rw [samplesOf_append, samplesOf_foreign he, List.append_nil]
    exact h.follows

theorem Obeys.tell (h : Obeys i trace s) :
    Obeys i (trace ++ (some (Event.told i)).toList) { s with token := true } where
  told _ := rfl
  due after ha := by
    rcases cons_suffix_append ha with ⟨-, rfl⟩ | ⟨rest, rfl, hs⟩
    · exact (Nat.zero_add _).trans_le s.thread.due_le_one
    · have hnone : samplesOf i (some (Event.told i)).toList = [] := rfl
      rw [samplesOf_append, hnone, List.append_nil]
      exact h.due rest hs
  finds sign hd hf := by
    rcases mem_append_toList hd with hd | hd
    · exact ⟨rfl, (h.finds sign hd hf).2⟩
    · cases hd
  silent sign after ha hf sign' hd := by
    rcases cons_suffix_append ha with ⟨he, -⟩ | ⟨rest, rfl, hs⟩
    · cases he
    · rcases mem_append_toList hd with hd | hd
      · exact h.silent sign rest hs hf sign' hd
      · cases hd
  follows := by
    have hnone : samplesOf i (some (Event.told i)).toList = [] := rfl
    rw [samplesOf_append, hnone, List.append_nil]
    exact h.follows

theorem Obeys.goes (h : Obeys i trace s) (hg : Goes s.token s.thread sign? t) :
    Obeys i (trace ++ (sign?.map (.did i)).toList) { s with thread := t } := by
  have htold : .told i ∈ trace → Goes true s.thread sign? t := by
    intro ht
    rwa [h.told ht] at hg
  have hleaving : ∀ sign, .did i sign ∈ trace → sign.Finds →
      t.Leaving ∧ ∀ sign', sign? = some sign' → sign' = .looked true := by
    intro sign hd hf
    obtain ⟨ht, hl⟩ := h.finds sign hd hf
    rw [ht] at hg
    exact hg.leaving hl
  have hlast : ∀ sign, sign?.map (Event.did i) = some (.did i sign) → sign? = some sign := by
    intro sign hs
    obtain ⟨sign', hs', he⟩ := Option.map_eq_some_iff.mp hs
    cases he
    exact hs'
  constructor
  case told =>
    intro ht
    rcases mem_append_toList ht with ht | ht
    · exact h.told ht
    · obtain ⟨sign, -, he⟩ := Option.map_eq_some_iff.mp ht
      cases he
  case due =>
    intro after ha
    rcases cons_suffix_append ha with ⟨he, -⟩ | ⟨rest, rfl, hs⟩
    · obtain ⟨sign, -, he⟩ := Option.map_eq_some_iff.mp he
      cases he
    · have hle := (htold (hs.mem List.mem_cons_self)).due_le
      have hone := h.due rest hs
      rw [samplesOf_append, samplesOf_did, List.length_append]
      dsimp only
      omega
  case finds =>
    intro sign hd hf
    rcases mem_append_toList hd with hd | hd
    · exact ⟨(h.finds sign hd hf).1, (hleaving sign hd hf).1⟩
    · rw [hlast sign hd] at hg
      exact hg.told_of_finds hf
  case silent =>
    intro sign after ha hf sign' hd
    rcases cons_suffix_append ha with ⟨-, rfl⟩ | ⟨rest, rfl, hs⟩
    · cases hd
    · rcases mem_append_toList hd with hd | hd
      · exact h.silent sign rest hs hf sign' hd
      · exact (hleaving sign (hs.mem List.mem_cons_self) hf).2 sign' (hlast sign' hd)
  case follows =>
    obtain ⟨last, hl⟩ := h.follows
    refine ⟨last, ?_⟩
    rw [samplesOf_append, samplesOf_did, getLastD_append]
    exact hg.follows hl

end Handshake

end NodeTelemetry
