import NodeTelemetry.History.Ring
import NodeTelemetry.Schema
import NodeTelemetry.Site

namespace NodeTelemetry

structure History where
  schema : Schema
  ring : Ring
  deriving DecidableEq, Repr

namespace History

def new (schema : Schema) (capacity : Nat) : History := ⟨schema, Ring.new schema.width capacity⟩

def toList (h : History) : List (List UInt64) := h.ring.toList

def push (h : History) (sample : List UInt64) : StateM Site History := do
  let (overwritten, ring) := h.ring.push sample
  if overwritten then Site.count fun m => { m with overwritten := m.overwritten + 1 }
  pure { h with ring }

/-- The push as the program does it: it breaks down if the slot does not lie in the array. -/
def push? (h : History) (sample : List UInt64) : StateM Site (Option History) :=
  if h.ring.HasRoom then do pure (some (← h.push sample)) else pure none

theorem push?_of_room {h : History} (hroom : h.ring.HasRoom) (sample : List UInt64)
    (site : Site) :
    h.push? sample site = (some (h.push sample site).1, (h.push sample site).2) := by
  rw [push?, if_pos hroom]
  rfl

theorem push?_of_no_room {h : History} (hroom : ¬ h.ring.HasRoom) (sample : List UInt64)
    (site : Site) : h.push? sample site = (none, site) := by
  rw [push?, if_neg hroom]
  rfl

/-- Moves records from the oldest on to the end of a text, as long as more than half of the limit is
left and the next record fits into what is left. `fuel` is how many records there are. -/
def drainUpTo (limit : Nat) : Nat → String → History → String × History
  | 0, text, h => (text, h)
  | fuel + 1, text, h =>
    match h.ring.oldest? with
    | none => (text, h)
    | some sample =>
      let left := limit - text.utf8ByteSize
      let record := h.schema.render sample
      if left ≤ limit / 2 ∨ left < record.utf8ByteSize then (text, h)
      else drainUpTo limit fuel (text ++ record) { h with ring := h.ring.pop }

def drain (h : History) (limit : Nat) : String × History := drainUpTo limit h.ring.size "" h

def last (h : History) : String :=
  match h.ring.newest? with
  | none => ""
  | some sample => h.schema.render sample

def drainUpTo? (m : Arithmetic) (limit : Nat) : Nat → String → History → Option String × History
  | 0, text, h => (some text, h)
  | fuel + 1, text, h =>
    match h.ring.oldest? with
    | none => (some text, h)
    | some sample =>
      let left := limit - text.utf8ByteSize
      if left ≤ limit / 2 then (some text, h)
      else
        match h.schema.render? m sample with
        | none => (none, h)
        | some record =>
          if left < record.utf8ByteSize then (some text, h)
          else drainUpTo? m limit fuel (text ++ record) { h with ring := h.ring.pop }

def drain? (m : Arithmetic) (h : History) (limit : Nat) : Option String × History :=
  drainUpTo? m limit h.ring.size "" h

def last? (m : Arithmetic) (h : History) : Option String :=
  match h.ring.newest? with
  | none => some ""
  | some sample => h.schema.render? m sample

theorem drain?_wrapping (h : History) (limit : Nat) :
    h.drain? .wrapping limit = (some (h.drain limit).1, (h.drain limit).2) := by
  suffices ∀ fuel text h, drainUpTo? .wrapping limit fuel text h =
      (some (drainUpTo limit fuel text h).1, (drainUpTo limit fuel text h).2) from this _ _ _
  intro fuel
  induction fuel with
  | zero => exact fun text h => rfl
  | succ fuel ih =>
    intro text h
    unfold drainUpTo? drainUpTo
    cases h.ring.oldest? with
    | none => rfl
    | some sample =>
      simp only [Schema.render?_wrapping]
      by_cases hhalf : limit - text.utf8ByteSize ≤ limit / 2
      · rw [if_pos hhalf, if_pos (.inl hhalf)]
      · by_cases hfits : limit - text.utf8ByteSize < (h.schema.render sample).utf8ByteSize
        · rw [if_neg hhalf, if_pos hfits, if_pos (.inr hfits)]
        · rw [if_neg hhalf, if_neg hfits, if_neg (not_or.mpr ⟨hhalf, hfits⟩), ih]

theorem last?_wrapping (h : History) : h.last? .wrapping = some h.last := by
  unfold last? last
  cases h.ring.newest? with
  | none => rfl
  | some sample => exact Schema.render?_wrapping h.schema sample

def clear (h : History) : History := { h with ring := h.ring.clear }

end History

end NodeTelemetry
