/-!
# Ordered fields

An object keeps its fields in the order in which their names first came. Setting a name again
keeps its place and replaces its value; removing a name closes the gap.
-/

namespace ParseView

/-- Named values in order. -/
abbrev Fields (α : Type) := List (String × α)

namespace Fields

variable {α β : Type}

def get? (name : String) : Fields α → Option α
  | [] => none
  | (key, value) :: rest => if key = name then some value else get? name rest

/-- Sets `name`, in its old place if it has one and else at the end. -/
def insert (name : String) (value : α) : Fields α → Fields α
  | [] => [(name, value)]
  | (key, old) :: rest =>
    if key = name then (key, value) :: rest else (key, old) :: insert name value rest

def erase (name : String) (fields : Fields α) : Fields α :=
  fields.filter fun field => field.1 ≠ name

/-- Fields as they come out when every entry is set in turn. -/
def ofEntries (entries : List (String × α)) : Fields α :=
  entries.foldl (fun fields entry => insert entry.1 entry.2 fields) []

def names (fields : Fields α) : List String := fields.map (·.1)

def values (fields : Fields α) : List α := fields.map (·.2)

@[simp] theorem get?_insert_self (name : String) (value : α) (fields : Fields α) :
    get? name (insert name value fields) = some value := by
  induction fields with
  | nil => simp [insert, get?]
  | cons field rest ih =>
    by_cases h : field.1 = name <;> simp [insert, get?, h, ih]

theorem get?_insert_of_ne {name other : String} (h : other ≠ name) (value : α)
    (fields : Fields α) : get? other (insert name value fields) = get? other fields := by
  induction fields with
  | nil => simp [insert, get?, Ne.symm h]
  | cons field rest ih =>
    obtain ⟨key, old⟩ := field
    by_cases hf : key = name
    · subst hf
      simp [insert, get?, Ne.symm h]
    · simp [insert, get?, hf, ih]

@[simp] theorem get?_erase_self (name : String) (fields : Fields α) :
    get? name (erase name fields) = none := by
  induction fields with
  | nil => rfl
  | cons field rest ih =>
    by_cases h : field.1 = name
    · simpa [erase, h] using ih
    · simpa [erase, get?, h] using ih

theorem get?_erase_of_ne {name other : String} (h : other ≠ name) (fields : Fields α) :
    get? other (erase name fields) = get? other fields := by
  induction fields with
  | nil => rfl
  | cons field rest ih =>
    by_cases hf : field.1 = name
    · simpa [erase, get?, hf, Ne.symm h] using ih
    · by_cases ho : field.1 = other
      · subst ho
        simp [erase, get?, hf]
      · simpa [erase, get?, hf, ho] using ih

/-! ## Distinct names -/

theorem get?_eq_none_of_not_mem {name : String} {fields : Fields α} (h : name ∉ names fields) :
    get? name fields = none := by
  induction fields with
  | nil => rfl
  | cons field rest ih =>
    simp only [names, List.map_cons, List.mem_cons, not_or] at h
    rw [get?, if_neg (Ne.symm h.1), ih h.2]

theorem get?_of_mem {name : String} {value : α} {fields : Fields α} (hn : (names fields).Nodup)
    (h : (name, value) ∈ fields) : get? name fields = some value := by
  induction fields with
  | nil => exact absurd h (by simp)
  | cons field rest ih =>
    simp only [names, List.map_cons, List.nodup_cons] at hn
    rcases List.mem_cons.mp h with rfl | hmem
    · simp [get?]
    · have hne : field.1 ≠ name := fun heq =>
        hn.1 (heq ▸ List.mem_map.mpr ⟨_, hmem, rfl⟩)
      rw [get?, if_neg hne, ih hn.2 hmem]

theorem get?_append (name : String) (first second : Fields α) :
    get? name (first ++ second) = (get? name first).or (get? name second) := by
  induction first with
  | nil => rfl
  | cons field rest ih =>
    by_cases h : field.1 = name <;> simp [get?, h, ih]

theorem insert_of_not_mem {name : String} {fields : Fields α} (h : name ∉ names fields)
    (value : α) : insert name value fields = fields ++ [(name, value)] := by
  induction fields with
  | nil => rfl
  | cons field rest ih =>
    simp only [names, List.map_cons, List.mem_cons, not_or] at h
    rw [insert, if_neg (Ne.symm h.1), ih h.2]
    rfl

/-- Setting a field changes the names only by a new one at the end. -/
theorem names_insert (name : String) (value : α) (fields : Fields α) :
    names (insert name value fields) =
      if name ∈ names fields then names fields else names fields ++ [name] := by
  induction fields with
  | nil => rfl
  | cons field rest ih =>
    by_cases h : field.1 = name
    · simp [insert, names, h]
    · have hne : ¬ name = field.1 := Ne.symm h
      simp only [names] at ih
      by_cases hmem : name ∈ rest.map (·.1) <;>
        simp_all [insert, names]

theorem nodup_names_insert {fields : Fields α} (h : (names fields).Nodup) (name : String)
    (value : α) : (names (insert name value fields)).Nodup := by
  rw [names_insert]
  split
  · exact h
  · next hmem =>
    rw [List.nodup_append]
    refine ⟨h, by simp, fun a ha b hb heq => hmem ?_⟩
    rw [List.mem_singleton.mp hb] at heq
    exact heq ▸ ha

theorem nodup_names_ofEntries (entries : List (String × α)) :
    (names (ofEntries entries)).Nodup := by
  have hfold (fields : Fields α) (h : (names fields).Nodup) :
      (names (entries.foldl (fun fields entry => insert entry.1 entry.2 fields) fields)).Nodup := by
    induction entries generalizing fields with
    | nil => exact h
    | cons entry rest ih => exact ih _ (nodup_names_insert h entry.1 entry.2)
  exact hfold [] (by simp [names])

/-- Entries of distinct names are fields already. -/
theorem ofEntries_eq_self {entries : List (String × α)} (h : (names entries).Nodup) :
    ofEntries entries = entries := by
  have hfold (before : Fields α) (hb : (names (before ++ entries)).Nodup) :
      entries.foldl (fun fields entry => insert entry.1 entry.2 fields) before =
        before ++ entries := by
    induction entries generalizing before with
    | nil => simp
    | cons entry rest ih =>
      have hnew : entry.1 ∉ names before := by
        intro hmem
        simp only [names, List.map_append, List.map_cons, List.nodup_append] at hb
        exact hb.2.2 _ hmem _ (by simp) rfl
      have hrest : before ++ entry :: rest = (before ++ [entry]) ++ rest := by simp
      rw [List.foldl_cons, insert_of_not_mem hnew, hrest, ih h.of_cons _ (hrest ▸ hb)]
  exact hfold [] h

theorem erase_cons (name : String) (field : String × α) (rest : Fields α) :
    erase name (field :: rest) =
      if field.1 = name then erase name rest else field :: erase name rest := by
  by_cases h : field.1 = name <;> simp [erase, h]

theorem erase_of_not_mem {name : String} {fields : Fields α} (h : name ∉ names fields) :
    erase name fields = fields := by
  rw [erase, List.filter_eq_self]
  intro field hf
  have : field.1 ≠ name := fun heq => h (heq ▸ List.mem_map.mpr ⟨field, hf, rfl⟩)
  simpa using this

theorem mem_names_erase {name other : String} {fields : Fields α} :
    other ∈ names (erase name fields) ↔ other ∈ names fields ∧ other ≠ name := by
  simp [names, erase]

theorem nodup_names_erase {fields : Fields α} (h : (names fields).Nodup) (name : String) :
    (names (erase name fields)).Nodup :=
  h.sublist (List.filter_sublist.map _)

end Fields

end ParseView
