import Mathlib
import NodeTelemetry.Proofs.HistoryQueue

namespace NodeTelemetry

namespace History

def act : Op → History → String × History
  | .push sample, h => ("", { h with ring := (h.ring.push sample).2 })
  | .drain limit, h => h.drain limit
  | .last, h => (h.last, h)
  | .clear, h => ("", h.clear)

theorem perform_eq (op : Op) (h : History) (site : Site) : (perform op h site).1 = act op h := by
  cases op with
  | push sample => exact congrArg (Prod.mk "") (push_ring h sample site)
  | _ => rfl

def taken : Op → Nat
  | .push _ => 1
  | _ => 0

def lost : Op → History → Nat
  | .push sample, h => (h.ring.push sample).1.toNat
  | _, _ => 0

end History

abbrev Numbered := List UInt64 × Nat

structure Ledger where
  pushed : List (List UInt64) := []
  returned : List Numbered := []
  overwritten : List Numbered := []
  dropped : List Numbered := []
  held : List Numbered := []

namespace Ledger

open History

def samples (xs : List Numbered) : List (List UInt64) := xs.map Prod.fst

def renderAll (schema : Schema) (xs : List Numbered) : String :=
  String.join ((samples xs).map schema.render)

inductive Step (schema : Schema) (capacity : Nat) : Ledger → Op × String → Ledger → Prop
  | keep (l : Ledger) (sample : List UInt64) (hroom : l.held.length < capacity) :
      Step schema capacity l (.push sample, "")
        { l with
          pushed := l.pushed ++ [Ring.fit schema.width sample]
          held := l.held ++ [(Ring.fit schema.width sample, l.pushed.length)] }
  | overwrite (l : Ledger) (sample : List UInt64) (oldest : Numbered) (rest : List Numbered)
      (hheld : l.held = oldest :: rest) (hfull : l.held.length = capacity) :
      Step schema capacity l (.push sample, "")
        { l with
          pushed := l.pushed ++ [Ring.fit schema.width sample]
          overwritten := l.overwritten ++ [oldest]
          held := rest ++ [(Ring.fit schema.width sample, l.pushed.length)] }
  | drain (l : Ledger) (limit : Nat) (taken rest : List Numbered) (hheld : l.held = taken ++ rest) :
      Step schema capacity l (.drain limit, renderAll schema taken)
        { l with returned := l.returned ++ taken, held := rest }
  | last (l : Ledger) :
      Step schema capacity l (.last, ((samples l.held).getLast?.map schema.render).getD "") l
  | clear (l : Ledger) :
      Step schema capacity l (.clear, "") { l with dropped := l.dropped ++ l.held, held := [] }

inductive Run (schema : Schema) (capacity : Nat) : List (Op × String) → Ledger → Prop
  | nil : Run schema capacity [] {}
  | snoc {entries : List (Op × String)} {entry : Op × String} {l l' : Ledger}
      (h : Run schema capacity entries l) (hs : Step schema capacity l entry l') :
      Run schema capacity (entries ++ [entry]) l'

/-- No sample is in two classes or in none, and those that were returned or are still held come in the
order in which they were pushed. -/
structure Balanced (l : Ledger) : Prop where
  perm : (l.returned ++ l.overwritten ++ l.dropped ++ l.held).Perm l.pushed.zipIdx
  sublist : (l.returned ++ l.held).Sublist l.pushed.zipIdx

def readText (entries : List (Op × String)) : String :=
  String.join (entries.filterMap fun entry => match entry with
    | (.drain _, text) => some text
    | _ => none)

def pushes (entries : List (Op × String)) : List (List UInt64) :=
  entries.filterMap fun entry => match entry with
    | (.push sample, _) => some sample
    | _ => none

variable {schema : Schema} {capacity : Nat} {l l' : Ledger} {entry : Op × String}
  {entries : List (Op × String)}

theorem zipIdx_concat (xs : List (List UInt64)) (x : List UInt64) :
    (xs ++ [x]).zipIdx = xs.zipIdx ++ [(x, xs.length)] := by
  rw [List.zipIdx_append]
  simp

theorem Balanced.step (h : l.Balanced) (hs : Step schema capacity l entry l') : l'.Balanced := by
  obtain ⟨hperm, hsublist⟩ := h
  cases hs with
  | keep sample hroom =>
    constructor
    · rw [zipIdx_concat, ← List.append_assoc]
      exact hperm.append_right _
    · rw [zipIdx_concat, ← List.append_assoc]
      exact hsublist.append_right _
  | overwrite sample oldest rest hheld hfull =>
    rw [hheld] at hperm hsublist
    constructor
    · rw [zipIdx_concat]
      refine List.Perm.trans ?_ (hperm.append_right _)
      rw [List.perm_iff_count]
      intro x
      simp only [List.count_append, List.count_cons, List.count_nil]
      omega
    · rw [zipIdx_concat, ← List.append_assoc]
      apply List.Sublist.append_right
      refine List.Sublist.trans ?_ hsublist
      exact (List.sublist_cons_self oldest rest).append_left _
  | drain limit taken rest hheld =>
    rw [hheld] at hperm hsublist
    constructor
    · refine List.Perm.trans ?_ hperm
      rw [List.perm_iff_count]
      intro x
      simp only [List.count_append]
      omega
    · rw [List.append_assoc]
      exact hsublist
  | last => exact ⟨hperm, hsublist⟩
  | clear =>
    constructor
    · rw [List.append_nil, ← List.append_assoc]
      exact hperm
    · rw [List.append_nil]
      exact (List.sublist_append_left _ _).trans hsublist

theorem Run.balanced (h : Run schema capacity entries l) : l.Balanced := by
  induction h with
  | nil => exact ⟨.nil, .slnil⟩
  | snoc _ hs ih => exact ih.step hs

theorem pushes_append (xs ys : List (Op × String)) : pushes (xs ++ ys) = pushes xs ++ pushes ys :=
  List.filterMap_append

theorem readText_append (xs ys : List (Op × String)) :
    readText (xs ++ ys) = readText xs ++ readText ys := by
  rw [readText, List.filterMap_append, String.join_append]
  rfl

theorem renderAll_append (schema : Schema) (xs ys : List Numbered) :
    renderAll schema (xs ++ ys) = renderAll schema xs ++ renderAll schema ys := by
  rw [renderAll, samples, List.map_append, List.map_append, String.join_append]
  rfl

theorem Run.pushed_eq (h : Run schema capacity entries l) :
    l.pushed = (pushes entries).map (Ring.fit schema.width) := by
  induction h with
  | nil => rfl
  | snoc _ hs ih =>
    rw [pushes_append, List.map_append, ← ih]
    cases hs with
    | keep => rfl
    | overwrite => rfl
    | _ => exact (List.append_nil _).symm

theorem Run.readText_eq (h : Run schema capacity entries l) :
    readText entries = renderAll schema l.returned := by
  induction h with
  | nil => rfl
  | snoc _ hs ih =>
    rw [readText_append, ih]
    cases hs with
    | drain limit taken rest hheld =>
      rw [renderAll_append]
      congr 1
    | _ => exact String.append_empty

variable {h : History}

theorem held_le (hr : h.Represents schema capacity (samples l.held)) : l.held.length ≤ capacity := by
  have hsize := hr.holds.size_eq
  rw [samples, List.length_map] at hsize
  rw [← hsize]
  exact hr.holds.size_le

theorem lost_push (hr : h.Represents schema capacity (samples l.held)) (sample : List UInt64) :
    lost (.push sample) h = if l.held.length < capacity then 0 else 1 := by
  have hsize := hr.holds.size_eq
  rw [samples, List.length_map] at hsize
  simp only [lost, Ring.push]
  rw [hsize, hr.holds.capacity_eq]
  by_cases hroom : l.held.length < capacity
  · rw [if_pos hroom, if_pos hroom]
    rfl
  · rw [if_neg hroom, if_neg hroom]
    rfl

theorem act_push (hr : h.Represents schema capacity (samples l.held)) (sample : List UInt64) :
    ∃ l', Step schema capacity l (.push sample, "") l' ∧
      (act (.push sample) h).2.Represents schema capacity (samples l'.held) ∧
      l'.overwritten.length = l.overwritten.length + lost (.push sample) h := by
  have hpush : (h.push sample {}).1 = (act (.push sample) h).2 :=
    congrArg Prod.snd (perform_eq (.push sample) h {})
  have hafter := hr.push sample {}
  rw [hpush] at hafter
  rw [lost_push hr]
  rcases (held_le hr).lt_or_eq with hroom | hfull
  · rw [Ring.appendTo, if_pos (by simpa [samples] using hroom)] at hafter
    refine ⟨_, .keep l sample hroom, ?_, ?_⟩
    · simpa [samples] using hafter
    · rw [if_pos hroom, Nat.add_zero]
  · rw [Ring.appendTo, if_neg (by simp [samples, hfull])] at hafter
    cases hheld : l.held with
    | nil =>
      have hpos := hr.holds.base_lt
      rw [hheld, List.length_nil] at hfull
      omega
    | cons oldest rest =>
      rw [hheld] at hafter
      refine ⟨_, .overwrite l sample oldest rest hheld hfull, ?_, ?_⟩
      · simpa [samples] using hafter
      · rw [← hheld, if_neg (by omega), List.length_append, List.length_singleton]

theorem act_drain (hr : h.Represents schema capacity (samples l.held)) (limit : Nat) :
    ∃ l', Step schema capacity l (.drain limit, (h.drain limit).1) l' ∧
      (h.drain limit).2.Represents schema capacity (samples l'.held) ∧
      l'.overwritten = l.overwritten := by
  obtain ⟨-, taken, rest, hsplit, htext, hrest⟩ := drainUpTo_spec limit h.ring.size "" hr
  obtain ⟨taken', rest', hheld, rfl, rfl⟩ := List.map_eq_append_iff.mp hsplit
  rw [String.empty_append] at htext
  refine ⟨{ l with returned := l.returned ++ taken', held := rest' }, ?_, hrest, rfl⟩
  have hdrain : (h.drain limit).1 = renderAll schema taken' := htext
  rw [hdrain]
  exact .drain l limit taken' rest' hheld

theorem act_step (hr : h.Represents schema capacity (samples l.held)) (op : Op) :
    ∃ l', Step schema capacity l (op, (act op h).1) l' ∧
      (act op h).2.Represents schema capacity (samples l'.held) ∧
      l'.overwritten.length = l.overwritten.length + lost op h := by
  cases op with
  | push sample => exact act_push hr sample
  | drain limit =>
    obtain ⟨l', hs, hr', hsame⟩ := act_drain hr limit
    refine ⟨l', hs, hr', ?_⟩
    rw [hsame]
    rfl
  | last =>
    refine ⟨l, ?_, hr, rfl⟩
    change Step schema capacity l (.last, h.last) l
    rw [last_eq hr]
    exact .last l
  | clear => exact ⟨_, .clear l, ⟨hr.schema_eq, hr.holds.clear⟩, rfl⟩

theorem Step.length_pushed {op : Op} {text : String} (hs : Step schema capacity l (op, text) l') :
    l'.pushed.length = l.pushed.length + taken op := by
  cases hs with
  | keep => rw [List.length_append, List.length_singleton]; rfl
  | overwrite => rw [List.length_append, List.length_singleton]; rfl
  | _ => rfl

end Ledger

end NodeTelemetry
