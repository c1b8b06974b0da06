import Mathlib

/-! Visits to the elements of a list that may fail: with `none`, or with an error. -/

namespace NodeTelemetry

section

variable {α β : Type} {f : α → Option β} {xs : List α} {ys : List β} {y : β}

theorem mapM_eq_some_iff : xs.mapM f = some ys ↔ xs.map f = ys.map some := by
  induction xs generalizing ys with
  | nil => cases ys <;> simp
  | cons x xs ih => cases ys <;> simp [Option.bind_eq_some_iff, ← ih]

theorem mem_iff_of_mapM (h : xs.mapM f = some ys) : y ∈ ys ↔ ∃ x ∈ xs, f x = some y := by
  rw [← List.mem_map, mapM_eq_some_iff.mp h, List.mem_map_of_injective (Option.some_injective β)]

theorem filterMap_of_mapM (h : xs.mapM f = some ys) : xs.filterMap f = ys := by
  have hmap := congrArg (List.filterMap id) (mapM_eq_some_iff.mp h)
  simpa [List.filterMap_map] using hmap

theorem exists_mapM_iff : (∃ ys, xs.mapM f = some ys) ↔ ∀ x ∈ xs, ∃ y, f x = some y := by
  induction xs with
  | nil => simp
  | cons x xs ih =>
    rw [List.forall_mem_cons, ← ih]
    simp [Option.bind_eq_some_iff]

theorem eq_map_of_mapM {g : α → β} (h : xs.mapM f = some ys)
    (hg : ∀ x ∈ xs, ∀ y, f x = some y → y = g x) : ys = xs.map g := by
  have hmap := mapM_eq_some_iff.mp h
  apply List.map_injective_iff.mpr (Option.some_injective β)
  rw [← hmap, List.map_map]
  apply List.map_congr_left
  intro x hx
  obtain ⟨y, hy⟩ := exists_mapM_iff.mp ⟨ys, h⟩ x hx
  rw [hy, hg x hx y hy]
  rfl

theorem mapM_congr_mem {g : α → Option β} (h : ∀ x ∈ xs, f x = g x) : xs.mapM f = xs.mapM g := by
  apply Option.ext
  intro ys
  rw [mapM_eq_some_iff, mapM_eq_some_iff, List.map_congr_left h]

theorem mapM_eq_none_of_mem {x : α} (hx : x ∈ xs) (h : f x = none) : xs.mapM f = none := by
  rw [Option.eq_none_iff_forall_ne_some]
  intro ys hys
  obtain ⟨y, hy⟩ := exists_mapM_iff.mp ⟨ys, hys⟩ x hx
  rw [h] at hy
  cases hy

end

section

variable {α β ε : Type} {f : α → Except ε β} {g : α → β} {xs : List α}

theorem mapM_of_ok (h : ∀ x ∈ xs, f x = .ok (g x)) : xs.mapM f = .ok (xs.map g) := by
  induction xs with
  | nil => rfl
  | cons x xs ih =>
    rw [List.forall_mem_cons] at h
    rw [List.mapM_cons, h.1, ih h.2]
    rfl

theorem mapM_of_error {x : α} {e : ε} (hx : x ∈ xs) (h : f x = .error e) :
    ∃ e, xs.mapM f = .error e := by
  induction xs with
  | nil => cases hx
  | cons y xs ih =>
    rw [List.mapM_cons]
    cases hy : f y with
    | error e => exact ⟨e, rfl⟩
    | ok b =>
      rcases List.mem_cons.mp hx with rfl | hx
      · rw [h] at hy
        cases hy
      · obtain ⟨e, he⟩ := ih hx
        rw [he]
        exact ⟨e, rfl⟩

end

end NodeTelemetry
