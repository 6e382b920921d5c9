import ParseView.Files.Tree

/-!
# Where paths lead

A path is a text, and following it goes part by part. What can be said of trees is said of
steps that are all names, and the lemmas here go from one to the other. The steps that are
left when a path was followed are names and lead to something (`Disk.resolve_spec`). The
text of such steps, read as a path from the top, leads where they lead
(`Disk.find_absolute`), because a name has no slash in it, is not empty and does not stand
for a directory by its dots.
-/

namespace ParseView

/-- Can an entry of a directory have this name? -/
def Path.IsName (name : String) : Prop :=
  name ≠ "" ∧ '/' ∉ name.toList ∧ name ≠ "." ∧ name ≠ ".."

instance : DecidablePred Path.IsName := fun _ => inferInstanceAs (Decidable (_ ∧ _))

/-! ## Texts of paths -/

namespace Path

variable {steps : List String}

/-- The text of steps has these steps between its slashes. -/
theorem splitAt_intercalate (hne : steps ≠ []) (hnames : ∀ name ∈ steps, '/' ∉ name.toList) :
    Text.splitAt '/' ("/".intercalate steps).toList = steps.map String.toList := by
  induction steps with
  | nil => exact absurd rfl hne
  | cons name rest ih =>
      have hname : '/' ∉ name.toList := hnames name List.mem_cons_self
      cases rest with
      | nil => rw [String.intercalate_singleton, Text.splitAt_of_notMem hname]; rfl
      | cons next rest =>
          have htext : ("/".intercalate (name :: next :: rest)).toList =
              name.toList ++ '/' :: ("/".intercalate (next :: rest)).toList := by
            rw [String.intercalate_cons_cons, String.toList_append, String.toList_append,
              List.append_assoc]
            rfl
          rw [htext, Text.splitAt_append_cons hname,
            ih (List.cons_ne_nil next rest) fun other hm => hnames other (by simp [hm])]
          rfl

theorem splitAt_absolute (hne : steps ≠ []) (hnames : ∀ name ∈ steps, '/' ∉ name.toList) :
    Text.splitAt '/' (absolute steps).toList = [] :: steps.map String.toList := by
  have htext : (absolute steps).toList = '/' :: ("/".intercalate steps).toList := by
    rw [absolute, String.toList_append]
    rfl
  rw [htext, Text.splitAt, if_pos rfl, splitAt_intercalate hne hnames]

end Path

namespace Disk

variable {disk : Disk} {here there steps names : List String} {path : String}

/-- The text of names is followed by these names. -/
theorem parts_absolute (hne : steps ≠ []) (hnames : ∀ name ∈ steps, Path.IsName name) :
    parts (Path.absolute steps) = steps := by
  have hsplit := Path.splitAt_absolute hne fun name hm => (hnames name hm).2.1
  have hnonempty : ∀ part ∈ steps.map String.toList, part ≠ [] := by
    intro part hm
    obtain ⟨name, hname, rfl⟩ := List.mem_map.mp hm
    rw [ne_eq, String.toList_eq_nil_iff]
    exact (hnames name hname).1
  have hend : (Path.absolute steps).toList.getLast? ≠ some '/' := by
    intro hslash
    have hlast := Text.getLast?_splitAt hslash
    rw [hsplit, List.getLast?_cons_of_ne_nil (by simpa using hne)] at hlast
    exact hnonempty [] (List.mem_of_getLast? hlast) rfl
  rw [parts, hsplit, if_neg hend, List.filter_cons_of_neg (by simp),
    List.filter_eq_self.mpr fun part hm => by simpa using hnonempty part hm, List.map_map]
  exact List.map_id'' (fun _ => String.ofList_toList) steps

/-- A part is not empty and has no slash in it. -/
theorem part_spec {part : String} (h : part ∈ parts path) :
    part ≠ "" ∧ '/' ∉ part.toList := by
  have hsplit : part ∈
      ((Text.splitAt '/' path.toList).filter (· ≠ [])).map String.ofList ∨ part = "." := by
    rw [parts] at h
    split at h
    · simpa using h
    · exact .inl h
  rcases hsplit with h | rfl
  · obtain ⟨chars, hm, rfl⟩ := List.mem_map.mp h
    obtain ⟨hm, hne⟩ := List.mem_filter.mp hm
    rw [String.toList_ofList]
    refine ⟨fun hempty => ?_, Text.notMem_of_mem_splitAt hm⟩
    have hnil := congrArg String.toList hempty
    rw [String.toList_ofList] at hnil
    simp [hnil] at hne
  · decide

/-- A path that is not empty has a part: only slashes are left out, and a slash at the end
counts as one. -/
theorem parts_ne_nil (h : path.isEmpty = false) : parts path ≠ [] := by
  have hne : path.toList ≠ [] := by
    intro hnil
    rw [String.toList_eq_nil_iff.mp hnil] at h
    exact absurd h (by decide)
  rw [parts]
  split
  · simp
  · next hend =>
      -- The last character is in a part.
      obtain ⟨c, hlast⟩ := Option.isSome_iff_exists.mp (List.getLast?_isSome.mpr hne)
      have hc : c ≠ '/' := fun heq => hend (heq ▸ hlast)
      obtain ⟨part, hpart, hmem⟩ :=
        Text.exists_mem_splitAt (List.mem_of_getLast? hlast) hc
      have hkept : part ∈ (Text.splitAt '/' path.toList).filter (· ≠ []) :=
        List.mem_filter.mpr ⟨hpart, by simpa using List.ne_nil_of_mem hmem⟩
      exact List.ne_nil_of_mem (List.mem_map_of_mem hkept)

end Disk

/-! ## Following a path -/

theorem FileTree.lookup_append (first second : List String) (tree : FileTree) :
    tree.lookup (first ++ second) = (tree.lookup first).bind (·.lookup second) := by
  induction first generalizing tree with
  | nil => rfl
  | cons name rest ih =>
      cases tree with
      | file bytes => rfl
      | directory entries =>
          rw [List.cons_append, lookup, lookup]
          cases entries.lookup name with
          | none => rfl
          | some tree => exact ih tree

namespace Disk

variable {disk : Disk} {here there steps names rest : List String} {part path : String}

theorem lookup_reverse_cons (tree : FileTree) (part : String) (here : List String) :
    tree.lookup (part :: here).reverse = (tree.lookup here.reverse).bind (·.lookup [part]) := by
  rw [List.reverse_cons, FileTree.lookup_append]

/-- What lies around something is there. -/
theorem isSome_lookup_tail (h : (disk.root.lookup here.reverse).isSome = true) :
    (disk.root.lookup here.tail.reverse).isSome = true := by
  cases here with
  | nil => exact h
  | cons part outer =>
      rw [lookup_reverse_cons] at h
      cases houter : disk.root.lookup outer.reverse with
      | none => simp [houter] at h
      | some tree => rw [List.tail_cons, houter]; rfl

/-- One step: the part is followed from a directory, stays there, goes out of it, or goes to
an entry. -/
theorem follow_cons_eq_ok (h : disk.follow here (part :: rest) = .ok there) :
    ∃ entries next, disk.root.lookup here.reverse = some (.directory entries) ∧
      disk.follow next rest = .ok there ∧
      (part = "." ∧ next = here ∨ part = ".." ∧ next = here.tail ∨
        part ≠ "." ∧ part ≠ ".." ∧ (entries.lookup part).isSome = true ∧
          next = part :: here) := by
  rw [follow] at h
  split at h
  · next entries hlookup =>
      split at h
      · next hdot => exact ⟨entries, here, hlookup, h, .inl ⟨hdot, rfl⟩⟩
      · next hdot =>
          split at h
          · next hup => exact ⟨entries, here.tail, hlookup, h, .inr (.inl ⟨hup, rfl⟩)⟩
          · next hup =>
              split at h
              · next hentry =>
                  exact ⟨entries, part :: here, hlookup, h, .inr (.inr ⟨hdot, hup, hentry, rfl⟩)⟩
              · exact nomatch h
  · exact nomatch h
  · exact nomatch h

/-- What was followed to the end is there. -/
theorem isSome_lookup_of_follow (h : disk.follow here names = .ok there)
    (hhere : names ≠ [] ∨ (disk.root.lookup here.reverse).isSome = true) :
    (disk.root.lookup there.reverse).isSome = true := by
  induction names generalizing here with
  | nil =>
      obtain rfl : here = there := by simpa [follow] using h
      exact hhere.resolve_left (fun hne => hne rfl)
  | cons part rest ih =>
      obtain ⟨entries, next, hlookup, hrest, hnext⟩ := follow_cons_eq_ok h
      have hsome : (disk.root.lookup here.reverse).isSome = true := by rw [hlookup]; rfl
      refine ih hrest (.inr ?_)
      rcases hnext with ⟨-, rfl⟩ | ⟨-, rfl⟩ | ⟨-, -, hentry, rfl⟩
      · exact hsome
      · exact isSome_lookup_tail hsome
      · obtain ⟨tree, htree⟩ := Option.isSome_iff_exists.mp hentry
        rw [lookup_reverse_cons, hlookup]
        simp [FileTree.lookup, htree]

/-- The steps that are left are names. -/
theorem isName_of_follow (h : disk.follow here names = .ok there)
    (hhere : ∀ step ∈ here, Path.IsName step)
    (hparts : ∀ part ∈ names, part ≠ "" ∧ '/' ∉ part.toList) :
    ∀ step ∈ there, Path.IsName step := by
  induction names generalizing here with
  | nil =>
      obtain rfl : here = there := by simpa [follow] using h
      exact hhere
  | cons part rest ih =>
      obtain ⟨entries, next, -, hrest, hnext⟩ := follow_cons_eq_ok h
      refine ih hrest ?_ fun other hm => hparts other (List.mem_cons_of_mem _ hm)
      rcases hnext with ⟨-, rfl⟩ | ⟨-, rfl⟩ | ⟨hdot, hup, -, rfl⟩
      · exact hhere
      · exact fun step hm => hhere step (List.mem_of_mem_tail hm)
      · have hpart := hparts part List.mem_cons_self
        intro step hm
        rcases List.mem_cons.mp hm with rfl | hm
        · exact ⟨hpart.1, hpart.2, hdot, hup⟩
        · exact hhere step hm

/-- Nothing is followed where the top is no directory. -/
theorem exists_entries_of_follow (h : disk.follow here names = .ok there) (hne : names ≠ []) :
    ∃ entries, disk.root = .directory entries := by
  cases names with
  | nil => exact absurd rfl hne
  | cons part rest =>
      obtain ⟨entries, -, hlookup, -, -⟩ := follow_cons_eq_ok h
      cases hroot : disk.root with
      | directory entries => exact ⟨entries, rfl⟩
      | file bytes =>
          rw [hroot] at hlookup
          cases hsteps : here.reverse <;> simp [hsteps, FileTree.lookup] at hlookup

/-- Names are followed down to what they lead to. -/
theorem follow_names (disk : Disk) (here : List String)
    (hhere : (disk.root.lookup here.reverse).isSome = true)
    (hnames : ∀ name ∈ names, Path.IsName name) :
    (disk.follow here names).toOption =
      (disk.root.lookup (here.reverse ++ names)).map fun _ => names.reverse ++ here := by
  induction names generalizing here with
  | nil =>
      obtain ⟨tree, htree⟩ := Option.isSome_iff_exists.mp hhere
      rw [List.append_nil, htree]
      rfl
  | cons name rest ih =>
      obtain ⟨-, -, hdot, hup⟩ := hnames name List.mem_cons_self
      obtain ⟨tree, htree⟩ := Option.isSome_iff_exists.mp hhere
      rw [follow, htree, FileTree.lookup_append, htree]
      cases tree with
      | file bytes => rfl
      | directory entries =>
          simp only [if_neg hdot, if_neg hup, Option.bind_some, FileTree.lookup]
          cases hentry : entries.lookup name with
          | none => rfl
          | some inner =>
              have hnext : disk.root.lookup (name :: here).reverse = some inner := by
                rw [lookup_reverse_cons, htree]
                simp [FileTree.lookup, hentry]
              have hrest := ih (name :: here) (by rw [hnext]; rfl)
                fun other hm => hnames other (List.mem_cons_of_mem _ hm)
              rw [FileTree.lookup_append, hnext] at hrest
              rw [if_pos Option.isSome_some, hrest, List.reverse_cons, List.append_assoc]
              rfl

/-! ## What a path leads to -/

/-- The steps of a path lead to something and are names, if one works in a place that has
names as its steps. There is a directory at the top. -/
theorem resolve_spec (hworking : ∀ name ∈ disk.workingSteps, Path.IsName name)
    (h : disk.resolve path = .ok steps) :
    (disk.root.lookup steps).isSome = true ∧ (∀ name ∈ steps, Path.IsName name) ∧
      ∃ entries, disk.root = .directory entries := by
  rw [resolve] at h
  split at h
  · exact nomatch h
  · next hempty =>
      cases hfollow : disk.follow (disk.startOf path) (parts path) with
      | error error => rw [hfollow] at h; exact nomatch h
      | ok there =>
          obtain rfl : there.reverse = steps := by
            rw [hfollow] at h
            exact Except.ok.inj h
          have hparts : parts path ≠ [] := parts_ne_nil (by simpa using hempty)
          have hstart : ∀ step ∈ disk.startOf path, Path.IsName step := by
            rw [startOf]
            split
            · simp
            · simpa using hworking
          refine ⟨isSome_lookup_of_follow hfollow (.inl hparts), ?_,
            exists_entries_of_follow hfollow hparts⟩
          intro name hm
          exact isName_of_follow hfollow hstart (fun part hp => part_spec hp) name
            (List.mem_reverse.mp hm)

theorem toOption_find_of_resolve (h : disk.resolve path = .ok steps) :
    (disk.find path).toOption = disk.root.lookup steps := by
  rw [find, h]
  cases hlookup : disk.root.lookup steps with
  | none =>
      simp [bind, Except.bind, hlookup, throw, throwThe, MonadExceptOf.throw, Except.toOption]
  | some tree => simp [bind, Except.bind, hlookup, pure, Except.pure, Except.toOption]

theorem kind?_of_resolve (h : disk.resolve path = .ok steps) :
    disk.kind? path = (disk.root.lookup steps).map kindOf := by
  rw [kind?, toOption_find_of_resolve h]

/-- What a path leads to is there. -/
theorem kind?_eq_none_iff (hworking : ∀ name ∈ disk.workingSteps, Path.IsName name) :
    disk.kind? path = none ↔ ∃ error, disk.resolve path = .error error := by
  cases h : disk.resolve path with
  | error error =>
      refine iff_of_true ?_ ⟨error, rfl⟩
      rw [kind?, find, h]
      rfl
  | ok steps =>
      refine iff_of_false ?_ (fun ⟨error, herror⟩ => nomatch herror)
      obtain ⟨tree, htree⟩ := Option.isSome_iff_exists.mp (resolve_spec hworking h).1
      rw [kind?_of_resolve h, htree]
      exact nofun

theorem isAbsolute_absolute (steps : List String) :
    Path.isAbsolute (Path.absolute steps) = true := by
  rw [Path.isAbsolute, Path.absolute, String.toList_append]
  rfl

theorem isEmpty_absolute (steps : List String) : (Path.absolute steps).isEmpty = false := by
  simp [Path.absolute]

theorem resolve_absolute (disk : Disk) (steps : List String) :
    disk.resolve (Path.absolute steps) =
      (disk.follow [] (parts (Path.absolute steps))).map List.reverse := by
  rw [resolve, isEmpty_absolute, startOf, isAbsolute_absolute]
  rfl

/-- The text of names leads where the names lead from the top. -/
theorem find_absolute (hne : steps ≠ []) (hnames : ∀ name ∈ steps, Path.IsName name) :
    (disk.find (Path.absolute steps)).toOption = disk.root.lookup steps := by
  have hfollow := disk.follow_names [] rfl hnames
  have hresolve := disk.resolve_absolute steps
  rw [List.reverse_nil, List.nil_append, List.append_nil] at hfollow
  rw [parts_absolute hne hnames] at hresolve
  cases h : disk.follow [] steps with
  | ok there =>
      rw [h] at hfollow hresolve
      obtain ⟨tree, htree, hthere⟩ := Option.map_eq_some_iff.mp hfollow.symm
      rw [← hthere] at hresolve
      rw [toOption_find_of_resolve hresolve, List.reverse_reverse]
  | error error =>
      rw [h] at hfollow hresolve
      rw [Option.map_eq_none_iff.mp hfollow.symm, find, hresolve]
      rfl

/-- The text of the steps to a directory leads to it, also at the top. -/
theorem resolve_absolute_of_directory {entries : List (String × FileTree)}
    (hnames : ∀ name ∈ steps, Path.IsName name)
    (h : disk.root.lookup steps = some (.directory entries)) :
    disk.resolve (Path.absolute steps) = .ok steps := by
  rw [resolve_absolute]
  by_cases hne : steps = []
  · subst hne
    have hparts : parts (Path.absolute []) = ["."] := by decide +kernel
    have hroot : disk.root.lookup [].reverse = some (.directory entries) := h
    rw [hparts, follow, hroot]
    rfl
  · have hfollow := disk.follow_names [] rfl hnames
    rw [List.reverse_nil, List.nil_append, h] at hfollow
    rw [parts_absolute hne hnames]
    cases hthere : disk.follow [] steps with
    | error error => rw [hthere] at hfollow; exact nomatch hfollow
    | ok there =>
        rw [hthere] at hfollow
        obtain rfl : there = steps.reverse ++ [] := Option.some.inj hfollow
        simp [Except.map]

end Disk

end ParseView
