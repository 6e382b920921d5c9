import Mathlib.Tactic.MkIffOfInductiveProp
import ParseView.Aria.Check

/-!
# Tokens and lists of them

A list of tokens is accepted piece by piece: splitting at spaces takes two texts with a
space between them to the parts of both, and a list is accepted if every part is a token.
So only the set of its tokens matters. Nor does the case of ASCII letters: small letters
are made character by character, except that a sigma looks around for cased letters, and
an ASCII capital is as cased as its small letter.

A single token is judged by the list that its message prints, apart from true and false.
Written in small letters these are truth values before a rule sees them. Written otherwise
they stay texts, and the rule then looks for them among its tokens, where they are not. So
a value can be refused by a message that names it.
-/

namespace ParseView.Text

/-! ## Small letters and the case of ASCII letters -/

/-- A text in small letters, those of Unicode. -/
def smallLetters (s : String) : String := String.ofList (lowercase s.toList)

/-- Making small letters cannot tell a character from its ASCII small letter. -/
@[mk_iff] structure CaseBlind (c : Char) : Prop where
  cased : isCased c.toLower = isCased c
  ignorable : isCaseIgnorable c.toLower = isCaseIgnorable c
  lower : lowerChar c.toLower = lowerChar c
  sigma : c.toLower = 'Σ' ↔ c = 'Σ'

instance : DecidablePred CaseBlind := fun c => decidable_of_iff' _ (caseBlind_iff c)

theorem caseBlind_of_capital : ∀ n < 26, CaseBlind (Char.ofNat (0x41 + n)) := by
  decide +kernel

theorem caseBlind (c : Char) : CaseBlind c := by
  by_cases hcapital : c.val ≥ 'A'.val ∧ c.val ≤ 'Z'.val
  · have hlow : 0x41 ≤ c.toNat := UInt32.le_iff_toNat_le.mp hcapital.1
    have hhigh : c.toNat ≤ 0x5A := UInt32.le_iff_toNat_le.mp hcapital.2
    have hblind := caseBlind_of_capital (c.toNat - 0x41) (by omega)
    rwa [Nat.add_sub_cancel' hlow, Char.ofNat_toNat] at hblind
  · have hsame : c.toLower = c := dif_neg hcapital
    exact ⟨by rw [hsame], by rw [hsame], by rw [hsame], by rw [hsame]⟩

theorem reachesCased_map_toLower (s : List Char) :
    reachesCased (s.map Char.toLower) = reachesCased s := by
  have hignorable : isCaseIgnorable ∘ Char.toLower = isCaseIgnorable :=
    funext fun c => (caseBlind c).ignorable
  rw [reachesCased, reachesCased, List.dropWhile_map, hignorable]
  cases s.dropWhile isCaseIgnorable with
  | nil => rfl
  | cons c rest => exact (caseBlind c).cased

theorem lowercaseFrom_map_toLower (before s : List Char) :
    lowercaseFrom (before.map Char.toLower) (s.map Char.toLower) = lowercaseFrom before s := by
  induction s generalizing before with
  | nil => rfl
  | cons c rest ih =>
      -- Only a sigma looks at what stands around it, before and behind.
      simp only [List.map_cons, lowercaseFrom, (caseBlind c).sigma, (caseBlind c).lower,
        reachesCased_map_toLower]
      rw [← List.map_cons, ih]

/-- Small letters do not depend on the case of ASCII letters. -/
theorem smallLetters_toLower (s : String) : smallLetters s.toLower = smallLetters s := by
  have hlower : s.toLower.toList = s.toList.map Char.toLower := String.toList_map
  rw [smallLetters, smallLetters, hlower, lowercase, lowercase,
    ← lowercaseFrom_map_toLower [] s.toList, List.map_nil]

end ParseView.Text

namespace ParseView.Aria

open Text (smallLetters)

variable {rule : Rule}

/-! ## Tokens -/

theorem allowsToken_iff {token : String} :
    rule.allowsToken token.toList = true ↔ smallLetters token ∈ rule.allowed.getD [] := by
  rw [Rule.allowsToken, smallLetters]
  cases rule.allowed <;> simp

/-- The tokens of a text: what stands between its spaces. -/
inductive Tokens : List String → String → Prop
  | last {token : String} (h : ' ' ∉ token.toList) : Tokens [token] token
  | more {token s : String} {tokens : List String} (h : ' ' ∉ token.toList)
      (hrest : Tokens tokens s) : Tokens (token :: tokens) (token ++ " " ++ s)

theorem Tokens.cons {token s : String} {tokens : List String}
    (h : Tokens (token :: tokens) s) {c : Char} (hc : ' ' ≠ c) :
    Tokens ((String.singleton c ++ token) :: tokens) (String.singleton c ++ s) := by
  have hmem {token : String} (h : ' ' ∉ token.toList) :
      ' ' ∉ (String.singleton c ++ token).toList := by
    simpa [hc] using h
  cases h with
  | last h => exact .last (hmem h)
  | more h hrest =>
      rw [← String.append_assoc, ← String.append_assoc]
      exact .more (hmem h) hrest

/-- Every text has tokens. -/
theorem exists_tokens (s : String) : ∃ tokens, Tokens tokens s := by
  have hlist (cs : List Char) : ∃ token tokens, Tokens (token :: tokens) (String.ofList cs) := by
    induction cs with
    | nil => exact ⟨"", [], .last (by simp)⟩
    | cons c rest ih =>
        obtain ⟨token, tokens, htokens⟩ := ih
        rw [String.ofList_cons]
        by_cases hc : ' ' = c
        · subst hc
          exact ⟨"", token :: tokens, .more (by simp) htokens⟩
        · exact ⟨_, tokens, htokens.cons hc⟩
  obtain ⟨token, tokens, htokens⟩ := hlist s.toList
  exact ⟨token :: tokens, String.ofList_toList (s := s) ▸ htokens⟩

/-! ## Lists of tokens -/

section TokenList

variable {s : String}

theorem accepts_append (hkind : rule.kind = .tokenList) (first second : String) :
    rule.accepts (.text (first ++ " " ++ second)) =
      (rule.accepts (.text first) && rule.accepts (.text second)) := by
  have htext : (first ++ " " ++ second).toList = first.toList ++ ' ' :: second.toList := by simp
  simp only [Rule.accepts, Rule.acceptsText, hkind, htext, Text.splitAt_append, List.all_append]

theorem accepts_of_notMem (hkind : rule.kind = .tokenList) (h : ' ' ∉ s.toList) :
    rule.accepts (.text s) = true ↔ smallLetters s ∈ rule.allowed.getD [] := by
  simp only [Rule.accepts, Rule.acceptsText, hkind, Text.splitAt_of_notMem h, List.all_cons,
    List.all_nil, Bool.and_true, allowsToken_iff]

theorem Tokens.accepts_iff {tokens : List String} (h : Tokens tokens s)
    (hkind : rule.kind = .tokenList) :
    rule.accepts (.text s) = true ↔
      ∀ token ∈ tokens, smallLetters token ∈ rule.allowed.getD [] := by
  induction h with
  | last h => rw [accepts_of_notMem hkind h, List.forall_mem_singleton]
  | more h _ ih =>
      rw [accepts_append hkind, Bool.and_eq_true, accepts_of_notMem hkind h, ih,
        List.forall_mem_cons]

/-- Whether tokens are allowed is a matter of their set, and not of the case of their letters. -/
theorem forall_smallLetters_iff {tokens others : List String}
    (hsame : ∀ word, word ∈ tokens.map String.toLower ↔ word ∈ others.map String.toLower)
    (p : String → Prop) :
    (∀ token ∈ tokens, p (smallLetters token)) ↔ ∀ token ∈ others, p (smallLetters token) := by
  have hlower (tokens : List String) : (∀ token ∈ tokens, p (smallLetters token)) ↔
      ∀ word ∈ tokens.map String.toLower, p (smallLetters word) := by
    simp only [List.forall_mem_map, Text.smallLetters_toLower]
  rw [hlower tokens, hlower others]
  exact forall_congr' fun word => by rw [hsame]

/-- A list is accepted if and only if both of its parts around a space are. A text without
spaces is accepted if it is a token in small letters. So two texts with the same tokens are
both accepted or both refused, in whatever order and however often these stand in them, and
however their ASCII letters are written. A space at an end, or two in a row, is accepted only
where the empty text is a token. -/
theorem list_accepted_by_tokens (hkind : rule.kind = .tokenList) :
    (∀ first second : String, rule.accepts (.text (first ++ " " ++ second)) = true ↔
      rule.accepts (.text first) = true ∧ rule.accepts (.text second) = true) ∧
    (∀ s : String, ' ' ∉ s.toList →
      (rule.accepts (.text s) = true ↔ smallLetters s ∈ rule.allowed.getD [])) ∧
    (∀ s : String, ∃ tokens, Tokens tokens s) ∧
    (∀ (s t : String) (tokens others : List String), Tokens tokens s → Tokens others t →
      (∀ word, word ∈ tokens.map String.toLower ↔ word ∈ others.map String.toLower) →
      rule.accepts (.text s) = rule.accepts (.text t)) ∧
    ("" ∉ rule.allowed.getD [] → ∀ first second : String,
      rule.accepts (.text (" " ++ first)) = false ∧
      rule.accepts (.text (first ++ " ")) = false ∧
      rule.accepts (.text (first ++ "  " ++ second)) = false) := by
  refine ⟨fun first second => by rw [accepts_append hkind, Bool.and_eq_true],
    fun s h => accepts_of_notMem hkind h, exists_tokens, ?_, ?_⟩
  · intro s t tokens others hs ht hsame
    rw [Bool.eq_iff_iff, hs.accepts_iff hkind, ht.accepts_iff hkind]
    exact forall_smallLetters_iff hsame (· ∈ rule.allowed.getD [])
  · intro hempty first second
    have hnot : rule.accepts (.text "") = false :=
      Bool.eq_false_iff.mpr fun h => hempty ((accepts_of_notMem hkind (by simp)).mp h)
    have hfront (s : String) : rule.accepts (.text (" " ++ s)) = false := by
      have h := accepts_append hkind "" s
      rwa [hnot, Bool.false_and, String.empty_append] at h
    refine ⟨hfront first, ?_, ?_⟩
    · have h := accepts_append hkind first ""
      rwa [hnot, Bool.and_false, String.append_empty] at h
    · have htext : first ++ "  " ++ second = first ++ " " ++ (" " ++ second) :=
        String.toList_inj.mp (by simp)
      rw [htext, accepts_append hkind, hfront, Bool.and_false]

/-- The rule for what is relevant takes all of these texts for the same list. -/
theorem list_accepted_by_tokens_relevant :
    ∃ rule, rule? "aria-relevant" = some rule ∧ rule.kind = .tokenList ∧
      rule.accepts (.text "Text ALL text") = rule.accepts (.text "all text") := by
  have hrelevant : ∃ rule, rule? "aria-relevant" = some rule ∧ rule.kind = .tokenList :=
    ⟨_, rfl, rfl⟩
  obtain ⟨rule, hrule, hkind⟩ := hrelevant
  have hspace {token : String} (h : token.toList.contains ' ' = false) : ' ' ∉ token.toList := by
    simpa using h
  have hlong : Tokens ["Text", "ALL", "text"] ("Text" ++ " " ++ ("ALL" ++ " " ++ "text")) :=
    .more (hspace (by decide)) (.more (hspace (by decide)) (.last (hspace (by decide))))
  have hshort : Tokens ["all", "text"] ("all" ++ " " ++ "text") :=
    .more (hspace (by decide)) (.last (hspace (by decide)))
  have hlower : ["Text", "ALL", "text"].map String.toLower = ["text", "all", "text"] := by
    decide +kernel
  have hlower' : ["all", "text"].map String.toLower = ["all", "text"] := by decide +kernel
  have hsame := (list_accepted_by_tokens hkind).2.2.2.1 _ _ _ _ hlong hshort fun word => by
    rw [hlower, hlower']
    grind
  exact ⟨rule, hrule, hkind, hsame⟩

end TokenList

/-! ## Single tokens -/

section Token

variable {v word : String}

/-- The texts that are read as truth values. -/
def truthWords : List String := ["true", "false"]

theorem mem_truthWords : word ∈ truthWords ↔ word = "true" ∨ word = "false" := by
  simp [truthWords]

theorem smallLetters_of_mem_truthWords : ∀ word ∈ truthWords, smallLetters word = word := by
  decide +kernel

theorem exists_ofText_eq_boolean (h : v ∈ truthWords) :
    ∃ b, AttributeValue.ofText v = .boolean b := by
  rcases mem_truthWords.mp h with rfl | rfl
  · exact ⟨true, rfl⟩
  · exact ⟨false, rfl⟩

theorem ofText_eq_text (h : v ∉ truthWords) : AttributeValue.ofText v = .text v := by
  rw [mem_truthWords, not_or] at h
  rw [AttributeValue.ofText.eq_def]
  split
  · exact absurd rfl h.1
  · exact absurd rfl h.2
  · rfl

theorem mem_permitted : word ∈ rule.permitted ↔
    word ∈ rule.allowed.getD [] ∨ word ∈ truthWords ∧ rule.allowBooleans = true := by
  rw [Rule.permitted, List.mem_append]
  cases rule.allowBooleans <;> simp [truthWords]

theorem accepts_ofText_of_mem (hkind : rule.kind = .token) (h : v ∈ truthWords) :
    rule.accepts (.ofText v) = rule.allowBooleans := by
  obtain ⟨b, hb⟩ := exists_ofText_eq_boolean h
  simp only [hb, Rule.accepts, hkind]

theorem accepts_ofText_of_notMem (hkind : rule.kind = .token) (h : v ∉ truthWords) :
    rule.accepts (.ofText v) = true ↔ smallLetters v ∈ rule.allowed.getD [] := by
  simp only [ofText_eq_text h, Rule.accepts, Rule.acceptsText, hkind, allowsToken_iff]

theorem mem_permitted_of_accepts (hkind : rule.kind = .token)
    (h : rule.accepts (.ofText v) = true) : smallLetters v ∈ rule.permitted := by
  rw [mem_permitted]
  by_cases hv : v ∈ truthWords
  · rw [accepts_ofText_of_mem hkind hv] at h
    exact .inr ⟨(smallLetters_of_mem_truthWords v hv).symm ▸ hv, h⟩
  · exact .inl ((accepts_ofText_of_notMem hkind hv).mp h)

/-- When a value that the message names is accepted. -/
theorem accepts_of_mem_permitted_iff (hkind : rule.kind = .token) (v : String) :
    (smallLetters v ∈ rule.permitted → rule.accepts (.ofText v) = true) ↔
      (v ∈ truthWords → v ∈ rule.allowed.getD [] → rule.allowBooleans = true) ∧
      (v ∉ truthWords → smallLetters v ∈ truthWords → rule.allowBooleans = true →
        smallLetters v ∈ rule.allowed.getD []) := by
  rw [mem_permitted]
  by_cases hv : v ∈ truthWords
  · rw [accepts_ofText_of_mem hkind hv, smallLetters_of_mem_truthWords v hv]
    grind
  · rw [accepts_ofText_of_notMem hkind hv]
    grind

/-- In the table true and false are never among the tokens. -/
theorem truthWords_notMem_allowed :
    ∀ entry ∈ rules, ∀ word ∈ truthWords, word ∉ entry.2.allowed.getD [] := by
  decide +kernel

/-- What a rule of the table refuses by a message that names it: true and false with capitals,
where truth values are allowed. -/
theorem named_and_refused_iff {name : String} (hrule : (name, rule) ∈ rules)
    (hkind : rule.kind = .token) :
    smallLetters v ∈ rule.permitted ∧ rule.accepts (.ofText v) = false ↔
      rule.allowBooleans = true ∧ smallLetters v ∈ truthWords ∧ v ∉ truthWords := by
  have hapart := truthWords_notMem_allowed (name, rule) hrule
  rw [mem_permitted, ← Bool.not_eq_true]
  by_cases hv : v ∈ truthWords
  · rw [accepts_ofText_of_mem hkind hv, smallLetters_of_mem_truthWords v hv]
    grind
  · rw [accepts_ofText_of_notMem hkind hv]
    grind

/-- The message for a token prints the list of what is permitted, and what is accepted is in
that list. What is in the list is accepted as well, except in two cases: true and false in
small letters are truth values, and so it does not help them to be among the tokens; written
otherwise they are texts, and so it does not help them that truth values are allowed. -/
theorem token_judged_by_list (hkind : rule.kind = .token) (v : String) :
    (∀ name, rule.expectation name = "The value for " ++ name ++ " must be " ++
      ("a single token from the following: " ++ ", ".intercalate rule.permitted ++ ".")) ∧
    (rule.accepts (.ofText v) = true → smallLetters v ∈ rule.permitted) ∧
    ((rule.accepts (.ofText v) = true ↔ smallLetters v ∈ rule.permitted) ↔
      (v ∈ truthWords → v ∈ rule.allowed.getD [] → rule.allowBooleans = true) ∧
      (v ∉ truthWords → smallLetters v ∈ truthWords → rule.allowBooleans = true →
        smallLetters v ∈ rule.allowed.getD [])) := by
  refine ⟨fun name => ?_, mem_permitted_of_accepts hkind, ?_⟩
  · unfold Rule.expectation
    rw [hkind, Rule.permittedText]
  · rw [← accepts_of_mem_permitted_iff hkind]
    exact ⟨fun h => h.mpr, fun h => ⟨mem_permitted_of_accepts hkind, h⟩⟩

/-- A menu in capitals is accepted for a popup, and is in the list. -/
theorem token_judged_by_list_popup :
    ∃ rule, rule? "aria-haspopup" = some rule ∧ rule.kind = .token ∧
      rule.accepts (.ofText "MENU") = true ∧ smallLetters "MENU" ∈ rule.permitted := by
  have hpopup : ∃ rule, rule? "aria-haspopup" = some rule ∧ rule.kind = .token ∧
      rule.accepts (.ofText "MENU") = true := ⟨_, rfl, rfl, by decide +kernel⟩
  obtain ⟨rule, hrule, hkind, hmenu⟩ := hpopup
  exact ⟨rule, hrule, hkind, hmenu, (token_judged_by_list hkind "MENU").2.1 hmenu⟩

/-- True in capitals is refused for a popup, by a message that lists true. -/
theorem token_refused_by_its_list :
    ∃ rule, rule? "aria-haspopup" = some rule ∧ rule.kind = .token ∧
      (∀ token ∈ rule.allowed.getD [], smallLetters token = token) ∧
      ¬ (rule.accepts (.ofText "TRUE") = true ↔ smallLetters "TRUE" ∈ rule.permitted) :=
  ⟨_, rfl, rfl, by decide +kernel, by decide +kernel⟩

end Token

end ParseView.Aria
