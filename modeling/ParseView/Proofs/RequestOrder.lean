import ParseView.Module.Basic

/-!
# Requests come in the order of the source

A module is asked for by an import, or by an export that passes something on. `InSourceOrder`
says in which row the requests of a record should come: forward in the source, and where
several stand at one place, those of imports before those of exports and each as in its own
list. `requestedModules_eq_iff` says that the modules a record asks for are the modules of
such a row.

There is only one such row, and this carries the way back: a row that goes forward is known
from its parts at each place, because its first request stands at the least place there is
and is the first one there. Sorting keeps these parts, since requests at one place are in
order before anything is sorted.
-/

namespace ParseView

/-! ## Rows that go forward -/

section Forward

variable {α : Type} {place : α → UInt32}

theorem mem_iff_of_parts {row other : List α}
    (h : ∀ p, row.filter (place · = p) = other.filter (place · = p)) (a : α) :
    a ∈ row ↔ a ∈ other := by
  have ha : a ∈ row.filter (place · = place a) ↔ a ∈ other.filter (place · = place a) := by
    rw [h]
  simpa using ha

/-- A row that goes forward is determined by its parts at each place. -/
theorem eq_of_parts {row other : List α} (hrow : row.Pairwise fun a b => place a ≤ place b)
    (hother : other.Pairwise fun a b => place a ≤ place b)
    (h : ∀ p, row.filter (place · = p) = other.filter (place · = p)) : row = other := by
  induction row generalizing other with
  | nil =>
      symm
      rw [List.eq_nil_iff_forall_not_mem]
      intro a ha
      exact List.not_mem_nil ((mem_iff_of_parts h a).mpr ha)
  | cons a row ih =>
      have ha : a ∈ other := (mem_iff_of_parts h a).mp List.mem_cons_self
      obtain ⟨b, rest, rfl⟩ := List.exists_cons_of_ne_nil (List.ne_nil_of_mem ha)
      have hb : b ∈ a :: row := (mem_iff_of_parts h b).mpr List.mem_cons_self
      rw [List.pairwise_cons] at hrow hother
      have hab : place a ≤ place b := by
        rcases List.mem_cons.mp hb with heq | hb
        · rw [heq]
          exact UInt32.le_refl _
        · exact hrow.1 b hb
      have hba : place b ≤ place a := by
        rcases List.mem_cons.mp ha with heq | ha
        · rw [heq]
          exact UInt32.le_refl _
        · exact hother.1 a ha
      have hplace : place a = place b := UInt32.le_antisymm hab hba
      -- both rows have a part at this place, and their heads are its first
      have hhead := h (place a)
      rw [List.filter_cons_of_pos (by simp), List.filter_cons_of_pos (by simp [hplace])] at hhead
      obtain ⟨rfl, -⟩ := List.cons.inj hhead
      refine congrArg (a :: ·) (ih hrow.2 hother.2 ?_)
      intro p
      have hboth := h p
      rw [List.filter_cons, List.filter_cons] at hboth
      split at hboth
      · exact (List.cons.inj hboth).2
      · exact hboth

theorem placeLe_trans (a b c : α) (hab : decide (place a ≤ place b) = true)
    (hbc : decide (place b ≤ place c) = true) : decide (place a ≤ place c) = true :=
  decide_eq_true (UInt32.le_trans (of_decide_eq_true hab) (of_decide_eq_true hbc))

theorem placeLe_total (a b : α) :
    (decide (place a ≤ place b) || decide (place b ≤ place a)) = true := by
  simpa using UInt32.le_total (place a) (place b)

theorem forward_mergeSort (row : List α) :
    (row.mergeSort fun a b => place a ≤ place b).Pairwise fun a b => place a ≤ place b :=
  (List.pairwise_mergeSort placeLe_trans placeLe_total row).imp of_decide_eq_true

/-- Sorting leaves the part at a place as it is. -/
theorem part_mergeSort (row : List α) (p : UInt32) :
    (row.mergeSort fun a b => place a ≤ place b).filter (place · = p) =
      row.filter (place · = p) := by
  have hpart : (row.filter (place · = p)).Pairwise fun a b => decide (place a ≤ place b) := by
    rw [List.pairwise_filter]
    refine List.pairwise_of_forall ?_
    intro a b ha hb
    rw [of_decide_eq_true ha, of_decide_eq_true hb]
    exact decide_eq_true (UInt32.le_refl p)
  have hkept := (List.sublist_mergeSort placeLe_trans placeLe_total hpart
    List.filter_sublist).filter (place · = p)
  rw [List.filter_filter] at hkept
  simp only [Bool.and_self] at hkept
  exact (hkept.eq_of_length ((List.mergeSort_perm row _).filter _).length_eq.symm).symm

end Forward

/-! ## The requests of a record -/

namespace ModuleRecord

/-- What the imports ask for. -/
def imported (record : ModuleRecord) : List ValueSpan := record.staticImports.map (·.moduleRequest)

/-- What the exports ask for, as far as they pass something on from another module. -/
def passedOn (record : ModuleRecord) : List ValueSpan :=
  (record.staticExports.flatMap (·.entries)).filterMap (·.moduleRequest)

/-- The row in which the requests of a record should come. -/
structure InSourceOrder (record : ModuleRecord) (row : List ValueSpan) : Prop where
  /-- Each request is there as often as it is in the record. -/
  perm : row.Perm (record.imported ++ record.passedOn)
  forward : row.Pairwise fun a b => a.start ≤ b.start
  /-- At one place the lists keep their order, the imports first. -/
  part (p : UInt32) : row.filter (·.start = p) =
    record.imported.filter (·.start = p) ++ record.passedOn.filter (·.start = p)

variable {record : ModuleRecord}

theorem requests_eq : record.requests = record.imported ++ record.passedOn := by
  rw [requests, imported, passedOn, List.filterMap_flatMap]

theorem InSourceOrder.unique {row other : List ValueSpan} (hrow : record.InSourceOrder row)
    (hother : record.InSourceOrder other) : row = other :=
  eq_of_parts hrow.forward hother.forward fun p => (hrow.part p).trans (hother.part p).symm

theorem inSourceOrder_mergeSort : record.InSourceOrder
    (record.requests.mergeSort fun first second => first.start ≤ second.start) where
  perm := by
    rw [← requests_eq]
    exact List.mergeSort_perm _ _
  forward := forward_mergeSort _
  part p := by rw [part_mergeSort, requests_eq, List.filter_append]

/-- The modules that are asked for are those of the row in the order of the source, whatever
order the record has. -/
theorem requestedModules_eq_iff (record : ModuleRecord) (names : List String) :
    record.requestedModules = names ↔
      ∃ row, record.InSourceOrder row ∧ row.map (·.value) = names := by
  constructor
  · intro h
    exact ⟨_, inSourceOrder_mergeSort, h⟩
  · rintro ⟨row, hrow, rfl⟩
    rw [requestedModules, inSourceOrder_mergeSort.unique hrow]

end ModuleRecord

end ParseView
