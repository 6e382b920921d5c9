import ParseView.Proofs.ClassMeaning
import ParseView.Proofs.PatternReading

/-!
# What the anchors take for the end of a line

A caret or a dollar sign is written for the engine as it stands, so under the flag `m`
it is the engine that decides what ends a line, and for the engine that is the line feed
alone. The dot, which is written anew, stops at four characters. The two agree on a text
if a word that stands beside one of the other three stands at a line feed or at an end
of the text as well; this is the only way in which an anchored word has the meaning that
the language gives it.
-/

namespace ParseView.Pattern

/-! ## Words -/

theorem CharSet.single_contains {c d : Char} :
    (CharSet.single c).contains d.toNat = true ↔ d = c := by
  rw [CharSet.single, CharSet.contains, Bool.and_eq_true, decide_eq_true_eq, decide_eq_true_eq]
  constructor
  · rintro ⟨hle, hge⟩
    exact Char.toNat_inj.mp (Nat.le_antisymm hge hle)
  · rintro rfl
    exact ⟨Nat.le_refl _, Nat.le_refl _⟩

/-- The pattern of a word: its characters, one after the other. -/
def word (w : List Char) : List Expr := w.map fun c => .chars (.single c)

theorem spansAll_word {text w : List Char} {i j : Nat} :
    SpansAll text (word w) i j ↔ j = i + w.length ∧ w <+: text.drop i := by
  induction w generalizing i with
  | nil => simp [word, SpansAll, eq_comm]
  | cons c w ih =>
      have hstep : SpansAll text (word (c :: w)) i j ↔
          text[i]? = some c ∧ SpansAll text (word w) (i + 1) j := by
        constructor
        · rintro ⟨k, ⟨rfl, d, hd, hcontains⟩, hrest⟩
          obtain rfl := CharSet.single_contains.mp hcontains
          exact ⟨hd, hrest⟩
        · rintro ⟨hc, hrest⟩
          exact ⟨i + 1, ⟨rfl, c, hc, CharSet.single_contains.mpr rfl⟩, hrest⟩
      rw [hstep, ih]
      cases hdrop : text.drop i with
      | nil =>
          have hnone : text[i]? = none := by simpa using hdrop
          simp [hnone]
      | cons d rest =>
          have hhead : text[i]? = some d := by
            rw [← List.head?_drop, hdrop, List.head?_cons]
          have htail : text.drop (i + 1) = rest := by
            rw [← List.tail_drop, hdrop, List.tail_cons]
          rw [hhead, htail, List.cons_prefix_cons, List.length_cons]
          grind

theorem step_alphanumeric {c : Char} (h : Text.isAsciiAlphanumeric c = true) (r : Reading)
    (rest : List Char) : r.step c rest = some (r.push (.literal c) rest) := by
  have hsign {d : Char} (hd : Text.isAsciiAlphanumeric d = false) : c ≠ d := by
    rintro rfl
    rw [hd] at h
    exact Bool.false_ne_true h
  rw [Reading.step]
  all_goals exact hsign (by decide)

theorem partsText_word {w : List Char} (h : ∀ c ∈ w, Text.isAsciiAlphanumeric c = true) :
    PartsText w (w.map .literal) := by
  induction w with
  | nil => exact .nil
  | cons c w ih =>
      obtain ⟨hc, hw⟩ := List.forall_mem_cons.mp h
      exact .cons_char (fun r after _ => step_alphanumeric hc r after) (ih hw)

theorem means_word {mode : Mode} (hcase : mode.ignoreCase = false) (w : List Char) :
    List.Forall₂ (Means mode) (w.map .literal) (word w) := by
  rw [word, List.forall₂_map_left_iff, List.forall₂_map_right_iff, List.forall₂_same]
  intro c _
  rw [Means, Term.resolve, Mode.literal]
  split <;> simp [Mode.fold, hcase]

end ParseView.Pattern

namespace ParseView.Regexp

open Pattern (Mode Look Term Expr PartsText Means SpansAll ClassItem ItemsText Denotes word
  spansAll_word spansAll_append partsText_word means_word)

/-! ## Lines -/

/-- The characters that end a line in the language. -/
def lineTerminators : List Char := ['\n', '\r', '\u2028', '\u2029']

/-- The word stands at the start of the text or right behind one of these characters. -/
def BeginsLine (ends w text : List Char) : Prop :=
  ∃ before behind, text = before ++ w ++ behind ∧ ∀ c ∈ before.getLast?, c ∈ ends

/-- The word stands at the end of the text or right before one of these characters. -/
def EndsLine (ends w text : List Char) : Prop :=
  ∃ before behind, text = before ++ w ++ behind ∧ ∀ c ∈ behind.head?, c ∈ ends

theorem BeginsLine.mono {ends more w text : List Char} (hsub : ends ⊆ more)
    (h : BeginsLine ends w text) : BeginsLine more w text := by
  obtain ⟨before, behind, htext, hends⟩ := h
  exact ⟨before, behind, htext, fun c hc => hsub (hends c hc)⟩

theorem EndsLine.mono {ends more w text : List Char} (hsub : ends ⊆ more)
    (h : EndsLine ends w text) : EndsLine more w text := by
  obtain ⟨before, behind, htext, hends⟩ := h
  exact ⟨before, behind, htext, fun c hc => hsub (hends c hc)⟩

theorem beginsLine_nil_iff {w text : List Char} : BeginsLine [] w text ↔ w <+: text := by
  constructor
  · rintro ⟨before, behind, rfl, hends⟩
    obtain rfl : before = [] := by
      rw [← List.getLast?_eq_none_iff, Option.eq_none_iff_forall_not_mem]
      exact fun c hc => nomatch hends c hc
    exact ⟨behind, rfl⟩
  · rintro ⟨behind, rfl⟩
    exact ⟨[], behind, rfl, nofun⟩

theorem endsLine_nil_iff {w text : List Char} : EndsLine [] w text ↔ w <:+ text := by
  constructor
  · rintro ⟨before, behind, rfl, hends⟩
    obtain rfl : behind = [] := by
      rw [← List.head?_eq_none_iff, Option.eq_none_iff_forall_not_mem]
      exact fun c hc => nomatch hends c hc
    exact ⟨before, (List.append_nil _).symm⟩
  · rintro ⟨before, rfl⟩
    exact ⟨before, [], (List.append_nil _).symm, nofun⟩

/-- A word at a place splits the text in front of it and behind it. -/
theorem prefix_drop_iff {text w : List Char} {i : Nat} (hi : i ≤ text.length) :
    w <+: text.drop i ↔
      ∃ before behind, text = before ++ w ++ behind ∧ before.length = i := by
  constructor
  · rintro ⟨behind, hbehind⟩
    refine ⟨text.take i, behind, ?_, List.length_take_of_le hi⟩
    rw [List.append_assoc, hbehind, List.take_append_drop]
  · rintro ⟨before, behind, rfl, rfl⟩
    exact ⟨behind, by rw [List.append_assoc, List.drop_left]⟩

/-! ## The anchors of the engine -/

/-- The characters that end a line for the engine. -/
def Flags.lineEnds (flags : Flags) : List Char := if flags.multiline then ['\n'] else []

/-- The condition that an anchor stands for. -/
theorem look_lineStart (flags : Flags) : ∃ look, flags.mode.look .lineStart = some look ∧
    ∀ before behind, look.holds before behind = true ↔ ∀ c ∈ before, c ∈ flags.lineEnds := by
  rw [Flags.lineEnds]
  cases hm : flags.multiline with
  | false =>
      refine ⟨.textStart, by simp [Mode.look, Flags.mode, hm], fun before behind => ?_⟩
      cases before <;> simp [Look.holds]
  | true =>
      refine ⟨.lineStart, by simp [Mode.look, Flags.mode, hm], fun before behind => ?_⟩
      cases before <;> simp [Look.holds]

theorem look_lineEnd (flags : Flags) : ∃ look, flags.mode.look .lineEnd = some look ∧
    ∀ before behind, look.holds before behind = true ↔ ∀ c ∈ behind, c ∈ flags.lineEnds := by
  rw [Flags.lineEnds]
  cases hm : flags.multiline with
  | false =>
      refine ⟨.textEnd, by simp [Mode.look, Flags.mode, hm], fun before behind => ?_⟩
      cases behind <;> simp [Look.holds]
  | true =>
      refine ⟨.lineEnd, by simp [Mode.look, Flags.mode, hm], fun before behind => ?_⟩
      cases behind <;> simp [Look.holds]

theorem spansAll_beginsLine {look : Look} {ends text w : List Char}
    (h : ∀ before behind, look.holds before behind = true ↔ ∀ c ∈ before, c ∈ ends) :
    (∃ i j, i ≤ text.length ∧ SpansAll text (.look look :: word w) i j) ↔
      BeginsLine ends w text := by
  constructor
  · rintro ⟨i, j, hi, k, ⟨rfl, -, hlook⟩, hword⟩
    obtain ⟨before, behind, rfl, rfl⟩ := (prefix_drop_iff hi).mp (spansAll_word.mp hword).2
    rw [h, List.append_assoc, List.take_left] at hlook
    exact ⟨before, behind, rfl, hlook⟩
  · rintro ⟨before, behind, rfl, hends⟩
    have hi : before.length ≤ (before ++ w ++ behind).length := by simp
    refine ⟨before.length, _, hi, before.length, ⟨rfl, hi, ?_⟩,
      spansAll_word.mpr ⟨rfl, (prefix_drop_iff hi).mpr ⟨before, behind, rfl, rfl⟩⟩⟩
    rwa [h, List.append_assoc, List.take_left]

theorem spansAll_endsLine {look : Look} {ends text w : List Char}
    (h : ∀ before behind, look.holds before behind = true ↔ ∀ c ∈ behind, c ∈ ends) :
    (∃ i j, i ≤ text.length ∧ SpansAll text (word w ++ [.look look]) i j) ↔
      EndsLine ends w text := by
  simp only [spansAll_append]
  constructor
  · rintro ⟨i, j, hi, k, hword, l, ⟨rfl, -, hlook⟩, -⟩
    obtain ⟨rfl, hprefix⟩ := spansAll_word.mp hword
    obtain ⟨before, behind, rfl, rfl⟩ := (prefix_drop_iff hi).mp hprefix
    rw [h, ← List.length_append, ← List.head?_drop, List.drop_left] at hlook
    exact ⟨before, behind, rfl, hlook⟩
  · rintro ⟨before, behind, rfl, hends⟩
    have hi : before.length ≤ (before ++ w ++ behind).length := by simp
    have hk : (before ++ w).length ≤ (before ++ w ++ behind).length := by simp
    refine ⟨before.length, _, hi, (before ++ w).length,
      spansAll_word.mpr ⟨List.length_append, (prefix_drop_iff hi).mpr ⟨before, behind, rfl, rfl⟩⟩,
      _, ⟨rfl, hk, ?_⟩, rfl⟩
    rwa [h, ← List.head?_drop, List.drop_left]

/-! ## Compiled anchors -/

theorem notMem_signs_of_alphanumeric {w : List Char}
    (hw : ∀ c ∈ w, Text.isAsciiAlphanumeric c = true) : ∀ c ∈ w, c ∉ ['\\', '[', '.'] := by
  intro c hc hsign
  have hsigns : ['\\', '[', '.'].all (fun d => !Text.isAsciiAlphanumeric d) = true := by decide
  have hnot := List.all_eq_true.mp hsigns c hsign
  rw [hw c hc] at hnot
  exact Bool.false_ne_true hnot

/-- What holds no class, no escape and no dot is written as it stands. -/
theorem enginePattern?_of_plain {pattern : List Char} (h : ∀ c ∈ pattern, c ∉ ['\\', '[', '.'])
    (flags : Flags) : enginePattern? flags pattern = some pattern := by
  have htokens : scanTokens flags pattern = some (pattern.map .plain) := by
    induction pattern with
    | nil => rw [scanTokens, List.map_nil]
    | cons c pattern ih =>
        obtain ⟨hc, hpattern⟩ := List.forall_mem_cons.mp h
        simp only [List.mem_cons, List.not_mem_nil, or_false, not_or] at hc
        rw [scanTokens, ih hpattern]
        · rfl
        · exact hc.1
        · exact hc.2.1
        · exact hc.2.2
  rw [enginePattern?, htokens, Option.map_some, List.flatMap_map]
  simp [Token.text]

/-- The four characters at which a dot stops, as the engine has them. -/
theorem denotes_dot {mode : Mode} (hcase : mode.ignoreCase = false)
    (hunicode : mode.unicode = true) :
    Denotes mode Token.dot.text fun code => ∀ c ∈ lineTerminators, code ≠ c.toNat := by
  have hletter (letter c : Char)
      (h : ∀ after, Pattern.readEscape (letter :: after) = some (c, after)) :
      Pattern.ItemText ['\\', letter] (.range c c) :=
    .single (Pattern.charText_escaped h)
  have hitems : ItemsText lineTerminatorText (lineTerminators.map fun c => .range c c) := by
    have h : ItemsText _ _ :=
      .cons (hletter 'n' '\n' fun _ => rfl) <| .cons (hletter 'r' '\r' fun _ => rfl) <|
      .cons (.single (Pattern.charText_hexText '\u2028')) <|
      .single (.single (Pattern.charText_hexText '\u2029'))
    exact h
  refine (Pattern.denotes_bracketText hcase hunicode true hitems
    (List.cons_ne_nil _ _)).congr fun code _ => ?_
  simp only [lineTerminators, List.map_cons, List.map_nil, ClassItem.AnyHolds, ClassItem.Holds,
    range_self, if_true, List.forall_mem_cons, List.not_mem_nil, or_false, not_or]
  simp

section Anchored

variable {w : List Char} {text : String} {flags : Flags} {r : Regexp}

theorem isMatch_lineStart (hw : ∀ c ∈ w, Text.isAsciiAlphanumeric c = true)
    (hflags : Flags.ofText? text = some flags) (hcase : flags.ignoreCase = false)
    (h : compile? ⟨String.ofList ('^' :: w), text⟩ = some r) (haystack : String) :
    r.isMatch haystack = true ↔ BeginsLine flags.lineEnds w haystack.toList := by
  obtain ⟨look, hlook, hholds⟩ := look_lineStart flags
  have hpattern : enginePattern? flags (String.ofList ('^' :: w)).toList = some ('^' :: w) := by
    rw [String.toList_ofList]
    exact enginePattern?_of_plain
      (List.forall_mem_cons.mpr ⟨by decide, notMem_signs_of_alphanumeric hw⟩) flags
  have hparts : PartsText ('^' :: w) (.assertion .lineStart :: w.map .literal) :=
    .cons_char (fun _ _ _ => rfl) (partsText_word hw)
  have hmeans : Means flags.mode (.assertion .lineStart) (.look look) := by
    rw [Means, Term.resolve, hlook, Option.map_some]
  rw [isMatch_iff_of_parts h hflags hpattern hparts (.cons hmeans (means_word hcase w))]
  exact spansAll_beginsLine hholds

theorem isMatch_lineEnd (hw : ∀ c ∈ w, Text.isAsciiAlphanumeric c = true)
    (hflags : Flags.ofText? text = some flags) (hcase : flags.ignoreCase = false)
    (h : compile? ⟨String.ofList (w ++ ['$']), text⟩ = some r) (haystack : String) :
    r.isMatch haystack = true ↔ EndsLine flags.lineEnds w haystack.toList := by
  obtain ⟨look, hlook, hholds⟩ := look_lineEnd flags
  have hpattern : enginePattern? flags (String.ofList (w ++ ['$'])).toList = some (w ++ ['$']) := by
    rw [String.toList_ofList]
    exact enginePattern?_of_plain (List.forall_mem_append.mpr
      ⟨notMem_signs_of_alphanumeric hw, List.forall_mem_singleton.mpr (by decide)⟩) flags
  have hparts : PartsText (w ++ ['$']) (w.map .literal ++ [.assertion .lineEnd]) :=
    (partsText_word hw).append (.cons_char (fun _ _ _ => rfl) .nil)
  have hmeans : Means flags.mode (.assertion .lineEnd) (.look look) := by
    rw [Means, Term.resolve, hlook, Option.map_some]
  rw [isMatch_iff_of_parts h hflags hpattern hparts
    (List.rel_append (means_word hcase w) (.cons hmeans .nil))]
  exact spansAll_endsLine hholds

theorem isMatch_dot (hflags : Flags.ofText? text = some flags) (hcase : flags.ignoreCase = false)
    (hdot : flags.dotAll = false) (h : compile? ⟨".", text⟩ = some r) (haystack : String) :
    r.isMatch haystack = true ↔ ∃ c ∈ haystack.toList, c ∉ lineTerminators := by
  have hpattern : enginePattern? flags ".".toList = some Token.dot.text := by
    show enginePattern? flags ['.'] = _
    simp [enginePattern?, scanTokens, hdot, Token.consTo]
  rw [isMatch_iff_of_denotes h hflags hpattern (denotes_dot hcase rfl)]
  refine exists_congr fun c => and_congr_right fun _ => ⟨fun hne hc => hne c hc rfl, ?_⟩
  rintro hnot d hd heq
  exact hnot (Char.toNat_inj.mp heq ▸ hd)

end Anchored

/-- A word behind a caret matches at the start of the text, and under the flag `m` also
behind a line feed; before a dollar sign it is the end of the text, and what precedes a
line feed. In the language each of four characters ends a line. It agrees on a text if
the word matches there in the one sense as soon as it does in the other. The dot stops at
all four of them. -/
theorem line_anchors_match_iff {w : List Char} (hw : ∀ c ∈ w, Text.isAsciiAlphanumeric c = true)
    {text : String} {flags : Flags} (hflags : Flags.ofText? text = some flags)
    (hcase : flags.ignoreCase = false) :
    (∀ r, compile? ⟨String.ofList ('^' :: w), text⟩ = some r → ∀ haystack : String,
      (flags.multiline = false → (r.isMatch haystack = true ↔ w <+: haystack.toList)) ∧
      (flags.multiline = true →
        (r.isMatch haystack = true ↔ BeginsLine ['\n'] w haystack.toList) ∧
        ((r.isMatch haystack = true ↔ BeginsLine lineTerminators w haystack.toList) ↔
          (BeginsLine lineTerminators w haystack.toList →
            BeginsLine ['\n'] w haystack.toList)))) ∧
    (∀ r, compile? ⟨String.ofList (w ++ ['$']), text⟩ = some r → ∀ haystack : String,
      (flags.multiline = false → (r.isMatch haystack = true ↔ w <:+ haystack.toList)) ∧
      (flags.multiline = true →
        (r.isMatch haystack = true ↔ EndsLine ['\n'] w haystack.toList) ∧
        ((r.isMatch haystack = true ↔ EndsLine lineTerminators w haystack.toList) ↔
          (EndsLine lineTerminators w haystack.toList →
            EndsLine ['\n'] w haystack.toList)))) ∧
    (flags.dotAll = false → ∀ r, compile? ⟨".", text⟩ = some r → ∀ haystack : String,
      r.isMatch haystack = true ↔ ∃ c ∈ haystack.toList, c ∉ lineTerminators) := by
  have hends : ['\n'] ⊆ lineTerminators := by simp [lineTerminators]
  -- one of the two readings implies the other, so they agree where the other implies it
  have hagree {p q : Prop} (hqp : q → p) : (q ↔ p) ↔ (p → q) := ⟨Iff.mpr, fun hpq => ⟨hqp, hpq⟩⟩
  refine ⟨fun r h haystack => ?_, fun r h haystack => ?_, fun hdot r h => ?_⟩
  · have hmatch := isMatch_lineStart hw hflags hcase h haystack
    rw [Flags.lineEnds] at hmatch
    refine ⟨fun hm => ?_, fun hm => ?_⟩
    · rwa [hm, if_neg Bool.false_ne_true, beginsLine_nil_iff] at hmatch
    · rw [if_pos hm] at hmatch
      exact ⟨hmatch, by rw [hmatch]; exact hagree (BeginsLine.mono hends)⟩
  · have hmatch := isMatch_lineEnd hw hflags hcase h haystack
    rw [Flags.lineEnds] at hmatch
    refine ⟨fun hm => ?_, fun hm => ?_⟩
    · rwa [hm, if_neg Bool.false_ne_true, endsLine_nil_iff] at hmatch
    · rw [if_pos hm] at hmatch
      exact ⟨hmatch, by rw [hmatch]; exact hagree (EndsLine.mono hends)⟩
  · exact isMatch_dot hflags hcase hdot h

/-- A word behind a line feed, and one before it. -/
theorem line_anchors_match_at_line_feed :
    (∃ r, compile? ⟨"^a1", "gm"⟩ = some r ∧ r.isMatch "b\na1" = true) ∧
      ∃ r, compile? ⟨"a1$", "gm"⟩ = some r ∧ r.isMatch "a1\nb" = true := by
  have hw : ∀ c ∈ ['a', '1'], Text.isAsciiAlphanumeric c = true :=
    List.all_eq_true.mp (by decide)
  have hflags : Flags.ofText? "gm" = some { isGlobal := true, multiline := true } := by decide
  obtain ⟨hstart, hend, -⟩ := line_anchors_match_iff hw hflags rfl
  constructor
  · obtain ⟨r, hr⟩ := Option.isSome_iff_exists.mp
      (by decide +kernel : (compile? ⟨"^a1", "gm"⟩).isSome = true)
    exact ⟨r, hr, ((hstart r hr _).2 rfl).1.mpr ⟨['b', '\n'], [], by decide, by simp⟩⟩
  · obtain ⟨r, hr⟩ := Option.isSome_iff_exists.mp
      (by decide +kernel : (compile? ⟨"a1$", "gm"⟩).isSome = true)
    exact ⟨r, hr, ((hend r hr _).2 rfl).1.mpr ⟨[], ['\n', 'b'], by decide, by simp⟩⟩

/-- But a word behind a carriage return, and one before it, are not found, although the
carriage return ends a line. -/
theorem line_anchors_miss_carriage_return :
    (∃ r, compile? ⟨"^a", "m"⟩ = some r ∧ r.isMatch "\ra" = false) ∧
      BeginsLine lineTerminators ['a'] "\ra".toList ∧
      (∃ r, compile? ⟨"a$", "m"⟩ = some r ∧ r.isMatch "a\r" = false) ∧
      EndsLine lineTerminators ['a'] "a\r".toList := by
  have hmiss {source : Source} {haystack : String}
      (h : (compile? source).map (·.isMatch haystack) = some false) :
      ∃ r, compile? source = some r ∧ r.isMatch haystack = false :=
    Option.map_eq_some_iff.mp h
  exact ⟨hmiss (by decide +kernel), ⟨['\r'], [], by decide, by simp [lineTerminators]⟩,
    hmiss (by decide +kernel), [], ['\r'], by decide, by simp [lineTerminators]⟩

end ParseView.Regexp
