import Mathlib.Data.List.Perm.Basic
import ParseView.Regexp.Compiled

/-!
# Flags are written once and in order

A flag text says which flags are on, each at most once and in any order. `isOn` asks the
flags for a letter, and everything here goes through it: turning a letter on changes the
answer for this letter only, so that after a text the letters that are on are those of the
text. Whether the text is accepted is then no question of order either.

The letters that are written back are again a text of the same flags, so a text and what is
written for it are told apart by nothing that reads flags. A compiled expression is made
from its pattern and its flags alone, and compiling the source that it gives back makes the
same expression again. `flags_written_in_order` puts this together.
-/

namespace ParseView.Regexp

namespace Flags

/-! ## Single flags -/

/-- The letters of the flags, in alphabetical order. -/
def alphabet : List Char := ['d', 'g', 'i', 'm', 's', 'u', 'y']

/-- Is the flag of a letter on? -/
def isOn (flags : Flags) : Char → Bool
  | 'd' => flags.hasIndices
  | 'g' => flags.isGlobal
  | 'i' => flags.ignoreCase
  | 'm' => flags.multiline
  | 's' => flags.dotAll
  | 'u' => flags.unicode
  | 'y' => flags.sticky
  | _ => false

theorem ext_isOn {flags other : Flags} (h : ∀ c, flags.isOn c = other.isOn c) :
    flags = other := by
  cases flags
  cases other
  rw [mk.injEq]
  exact ⟨h 'd', h 'g', h 'i', h 'm', h 's', h 'u', h 'y'⟩

theorem mem_alphabet_of_isOn {flags : Flags} {c : Char} (h : flags.isOn c = true) :
    c ∈ alphabet := by
  rw [isOn.eq_def] at h
  split at h
  case h_8 => exact absurd h (by decide)
  all_goals decide

theorem letters_eq (flags : Flags) : flags.letters = alphabet.filter flags.isOn := by
  rw [← List.filterMap_eq_filter]
  show (alphabet.map fun c => (flags.isOn c, c)).filterMap _ = _
  rw [List.filterMap_map]
  rfl

theorem mem_letters {flags : Flags} {c : Char} : c ∈ flags.letters ↔ flags.isOn c = true := by
  rw [letters_eq, List.mem_filter]
  exact and_iff_right_of_imp mem_alphabet_of_isOn

/-- The letters that are written ascend. -/
theorem letters_ascend (flags : Flags) : flags.letters.Pairwise (· < ·) := by
  have halphabet : alphabet.Pairwise (· < ·) := by decide
  rw [letters_eq]
  exact halphabet.filter _

theorem nodup_letters (flags : Flags) : flags.letters.Nodup := by
  refine flags.letters_ascend.imp ?_
  intro a b hab heq
  rw [heq] at hab
  exact absurd hab (Char.lt_irrefl b)

/-! ## Turning flags on -/

theorem add_of_notMem {flags : Flags} {c : Char} (h : c ∉ alphabet) : flags.add c = none := by
  rw [add.eq_def]
  split
  case h_8 => rfl
  all_goals exact absurd (by decide) h

theorem add_of_isOn {flags : Flags} {c : Char} (h : flags.isOn c = true) :
    flags.add c = none := by
  rw [isOn.eq_def] at h
  split at h
  case h_8 => exact absurd h (by decide)
  all_goals rw [add, if_pos h]

/-- A flag that is off can be turned on, and then all others are as they were. -/
theorem exists_add {flags : Flags} {c : Char} (hc : c ∈ alphabet) (h : flags.isOn c = false) :
    ∃ next, flags.add c = some next ∧ ∀ l, next.isOn l = (flags.isOn l || l == c) := by
  simp only [alphabet, List.mem_cons, List.not_mem_nil, or_false] at hc
  rcases hc with rfl | rfl | rfl | rfl | rfl | rfl | rfl
  all_goals
    refine ⟨_, by simp only [add]; exact if_neg (by simpa [isOn] using h), ?_⟩
    intro l
    simp only [isOn]
    split <;> simp_all

theorem of_add {flags next : Flags} {c : Char} (h : flags.add c = some next) :
    c ∈ alphabet ∧ flags.isOn c = false ∧ ∀ l, next.isOn l = (flags.isOn l || l == c) := by
  have hc : c ∈ alphabet := by
    by_contra hc
    rw [add_of_notMem hc] at h
    exact nomatch h
  have hoff : flags.isOn c = false := by
    rw [Bool.eq_false_iff]
    intro hon
    rw [add_of_isOn hon] at h
    exact nomatch h
  obtain ⟨made, hmade, hon⟩ := exists_add hc hoff
  obtain rfl : made = next := Option.some.inj (hmade.symm.trans h)
  exact ⟨hc, hoff, hon⟩

/-! ## Flag texts -/

/-- All letters of a text can be turned on if each of them names a flag that is off and none
is there twice. -/
theorem exists_foldlM_add {text : List Char} {flags : Flags}
    (h : ∀ c ∈ text, c ∈ alphabet ∧ flags.isOn c = false) (hnodup : text.Nodup) :
    ∃ next, text.foldlM add flags = some next := by
  induction text generalizing flags with
  | nil => exact ⟨flags, rfl⟩
  | cons c rest ih =>
      obtain ⟨hnotMem, hnodup⟩ := List.nodup_cons.mp hnodup
      obtain ⟨hc, hoff⟩ := h c List.mem_cons_self
      obtain ⟨mid, hmid, hon⟩ := exists_add hc hoff
      have hrest : ∀ l ∈ rest, l ∈ alphabet ∧ mid.isOn l = false := by
        intro l hl
        obtain ⟨hletter, hoffl⟩ := h l (List.mem_cons_of_mem c hl)
        have hne : l ≠ c := by
          intro heq
          rw [heq] at hl
          exact hnotMem hl
        rw [hon, hoffl]
        exact ⟨hletter, beq_false_of_ne hne⟩
      obtain ⟨next, hnext⟩ := ih hrest hnodup
      refine ⟨next, ?_⟩
      rw [List.foldlM_cons, hmid]
      exact hnext

/-- Only then, and then they are what is on in the end beside what was on before. -/
theorem of_foldlM_add {text : List Char} {flags next : Flags}
    (h : text.foldlM add flags = some next) :
    (∀ c ∈ text, c ∈ alphabet ∧ flags.isOn c = false) ∧ text.Nodup ∧
      ∀ l, next.isOn l = true ↔ flags.isOn l = true ∨ l ∈ text := by
  induction text generalizing flags with
  | nil =>
      obtain rfl : flags = next := Option.some.inj h
      exact ⟨fun c hc => absurd hc List.not_mem_nil, List.nodup_nil, fun l => by simp⟩
  | cons c rest ih =>
      rw [List.foldlM_cons] at h
      obtain ⟨mid, hmid, h⟩ := Option.bind_eq_some_iff.mp h
      obtain ⟨hc, hoff, hon⟩ := of_add hmid
      obtain ⟨hrest, hnodup, hnext⟩ := ih h
      have hnew : ∀ l ∈ rest, flags.isOn l = false ∧ l ≠ c := by
        intro l hl
        have hmid := (hrest l hl).2
        rw [hon, Bool.or_eq_false_iff] at hmid
        exact ⟨hmid.1, ne_of_beq_false hmid.2⟩
      refine ⟨?_, List.nodup_cons.mpr ⟨fun hc => (hnew c hc).2 rfl, hnodup⟩, ?_⟩
      · intro l hl
        rcases List.mem_cons.mp hl with heq | hl
        · rw [heq]
          exact ⟨hc, hoff⟩
        · exact ⟨(hrest l hl).1, (hnew l hl).1⟩
      · intro l
        rw [hnext, hon, Bool.or_eq_true, beq_iff_eq, List.mem_cons, or_assoc]

theorem isOn_empty (c : Char) : isOn {} c = false := by
  rw [isOn.eq_def]
  split <;> rfl

/-- A text has flags if it names each at most once and nothing else. -/
theorem isSome_ofText?_iff {text : String} : (ofText? text).isSome = true ↔
    (∀ c ∈ text.toList, c ∈ alphabet) ∧ text.toList.Nodup := by
  rw [Option.isSome_iff_exists]
  constructor
  · rintro ⟨flags, h⟩
    obtain ⟨hletters, hnodup, -⟩ := of_foldlM_add h
    exact ⟨fun c hc => (hletters c hc).1, hnodup⟩
  · rintro ⟨hletters, hnodup⟩
    exact exists_foldlM_add (fun c hc => ⟨hletters c hc, isOn_empty c⟩) hnodup

theorem isOn_of_ofText? {text : String} {flags : Flags} (h : ofText? text = some flags)
    (c : Char) : flags.isOn c = true ↔ c ∈ text.toList := by
  obtain ⟨-, -, hon⟩ := of_foldlM_add h
  rw [hon, isOn_empty]
  simp

/-- The order of a text does not matter. -/
theorem ofText?_of_perm {text other : String} {flags : Flags}
    (hperm : other.toList.Perm text.toList) (h : ofText? text = some flags) :
    ofText? other = some flags := by
  obtain ⟨hletters, hnodup⟩ := isSome_ofText?_iff.mp (Option.isSome_of_eq_some h)
  have hother : (ofText? other).isSome = true :=
    isSome_ofText?_iff.mpr ⟨fun c hc => hletters c (hperm.mem_iff.mp hc),
      hperm.nodup_iff.mpr hnodup⟩
  obtain ⟨made, hmade⟩ := Option.isSome_iff_exists.mp hother
  have heq : made = flags := by
    refine ext_isOn fun c => ?_
    rw [Bool.eq_iff_iff, isOn_of_ofText? hmade, isOn_of_ofText? h, hperm.mem_iff]
  rw [hmade, heq]

theorem toList_text (flags : Flags) : flags.text.toList = flags.letters := String.toList_ofList

/-- What is written for the flags of a text has the letters of the text. -/
theorem text_perm {text : String} {flags : Flags} (h : ofText? text = some flags) :
    flags.text.toList.Perm text.toList := by
  obtain ⟨-, hnodup⟩ := isSome_ofText?_iff.mp (Option.isSome_of_eq_some h)
  rw [toList_text, List.perm_ext_iff_of_nodup flags.nodup_letters hnodup]
  intro c
  rw [mem_letters, isOn_of_ofText? h]

end Flags

/-! ## Sources -/

/-- The order of the flags of a source does not matter. -/
theorem compile?_of_perm {source other : Source} {r : Regexp}
    (hpattern : other.pattern = source.pattern)
    (hperm : other.flags.toList.Perm source.flags.toList) (h : compile? source = some r) :
    compile? other = some r := by
  obtain ⟨flags, hflags, h⟩ := Option.bind_eq_some_iff.mp h
  have hother : Flags.ofText? other.flags = some flags := Flags.ofText?_of_perm hperm hflags
  rw [compile?, hother, hpattern]
  exact h

theorem source_perm {source : Source} {r : Regexp} (h : compile? source = some r) :
    r.source.pattern = source.pattern ∧ r.source.flags.toList.Perm source.flags.toList := by
  simp only [compile?, Option.bind_eq_bind, Option.bind_eq_some_iff, Option.pure_def,
    Option.some.injEq] at h
  obtain ⟨flags, hflags, -, -, -, -, rfl⟩ := h
  exact ⟨rfl, Flags.text_perm hflags⟩

/-- A flag text is accepted if it has letters of flags only and none of them twice. What is
written for its flags has the same letters in alphabetical order and is a text of the same
flags. An expression gives back a source that differs from its own in the order of the flags
at most, and of which the very same expression is made, with its pattern in the engine's
syntax and its program. -/
theorem flags_written_in_order :
    (∀ text : String, (Flags.ofText? text).isSome = true ↔
      (∀ c ∈ text.toList, c ∈ "dgimsuy".toList) ∧ text.toList.Nodup) ∧
    (∀ (text : String) (flags : Flags), Flags.ofText? text = some flags →
      flags.text.toList.Perm text.toList ∧ flags.text.toList.Pairwise (· < ·) ∧
        Flags.ofText? flags.text = some flags) ∧
    ∀ (source : Source) (r : Regexp), compile? source = some r →
      r.source.pattern = source.pattern ∧ r.source.flags.toList.Perm source.flags.toList ∧
        compile? r.source = some r := by
  refine ⟨fun text => Flags.isSome_ofText?_iff, fun text flags h => ?_, fun source r h => ?_⟩
  · have hperm := Flags.text_perm h
    refine ⟨hperm, ?_, Flags.ofText?_of_perm hperm h⟩
    rw [Flags.toList_text]
    exact flags.letters_ascend
  · obtain ⟨hpattern, hperm⟩ := source_perm h
    exact ⟨hpattern, hperm, compile?_of_perm hpattern hperm h⟩

/-- An expression whose flags are not in order gives them back in order. -/
theorem flags_written_in_order_of_ymg :
    ∃ r, compile? ⟨"(a|^b)+", "ymg"⟩ = some r ∧ r.source = ⟨"(a|^b)+", "gmy"⟩ ∧
      r.source.flags.toList.Perm "ymg".toList ∧ compile? r.source = some r := by
  obtain ⟨r, hr, hsource⟩ := Option.map_eq_some_iff.mp
    (by decide +kernel : (compile? ⟨"(a|^b)+", "ymg"⟩).map Regexp.source =
      some ⟨"(a|^b)+", "gmy"⟩)
  obtain ⟨-, hperm, hagain⟩ := flags_written_in_order.2.2 _ r hr
  exact ⟨r, hr, hsource, hperm, hagain⟩

end ParseView.Regexp
