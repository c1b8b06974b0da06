namespace NodeTelemetry

abbrev Keyed (α β : Type) := List (α × β)

namespace Keyed

variable {α β : Type} [DecidableEq α]

def find? : Keyed α β → α → Option β
  | [], _ => none
  | (a, b) :: rest, k => if a = k then some b else find? rest k

def put : Keyed α β → α → β → Keyed α β
  | [], k, v => [(k, v)]
  | (a, b) :: rest, k, v => if a = k then (a, v) :: rest else (a, b) :: put rest k v

def erase : Keyed α β → α → Keyed α β
  | [], _ => []
  | (a, b) :: rest, k => if a = k then rest else (a, b) :: erase rest k

@[simp] theorem find?_put_self (m : Keyed α β) (k : α) (v : β) : (m.put k v).find? k = some v := by
  induction m with
  | nil => simp [put, find?]
  | cons p m ih => by_cases h : p.1 = k <;> simp [put, find?, h, ih]

theorem find?_put_of_ne (m : Keyed α β) {k l : α} (v : β) (h : k ≠ l) :
    (m.put k v).find? l = m.find? l := by
  induction m with
  | nil => simp [put, find?, h]
  | cons p m ih =>
    by_cases hk : p.1 = k
    · subst hk; simp [put, find?, h]
    · by_cases hl : p.1 = l
      · subst hl; simp [put, find?, hk]
      · simp [put, find?, hk, hl, ih]

@[simp] theorem put_put (m : Keyed α β) (k : α) (v w : β) : (m.put k v).put k w = m.put k w := by
  induction m with
  | nil => simp [put]
  | cons p m ih => by_cases h : p.1 = k <;> simp [put, h, ih]

theorem put_of_find? {m : Keyed α β} {k : α} {v : β} (h : m.find? k = some v) : m.put k v = m := by
  induction m with
  | nil => cases h
  | cons p m ih =>
    by_cases hk : p.1 = k
    · simp only [find?, hk, if_true, Option.some.injEq] at h
      simp [put, ← hk, ← h]
    · simp only [find?, hk, if_false] at h
      simp [put, hk, ih h]

end Keyed

end NodeTelemetry
