import ParseView.Proofs.ClassMeaning

/-!
# A pattern is read token by token

`TokenText` is the grammar of tokens: what may be written for one, in front of some text.
A pattern is accepted exactly if it splits into tokens up to its end, each the longest that
its place allows, and what is written for the engine is what is written for each of them, one
after the other.

The scanner takes one token at a time, by its first character. So the text in front of
which it stands decides the token and where it ends, and the longest token of a place is
the only one. Where no token begins, the pattern is refused, whatever stands behind; this
is how a reference to a group or a property of characters is refused, outside of a class
as well as inside.
-/

namespace ParseView.Regexp

/-! ## Tokens and their texts -/

/-- The mark of a negated class. -/
def caretText (negated : Bool) : List Char := if negated then ['^'] else []

/-- The text of a token in front of some text. A class goes up to the first bracket that is
none of its atoms, and the ranges that its parts are stand in their order. -/
inductive TokenText (flags : Flags) : List Char → Token → List Char → Prop where
  | plain {c : Char} (h : c ∉ ['\\', '[', '.']) (after : List Char) :
      TokenText flags [c] (.plain c) after
  | dot (after : List Char) :
      TokenText flags ['.'] (if flags.dotAll then .plain '.' else .dot) after
  | escape {spelled after : List Char} {e : Escape}
      (h : EscapeText flags.unicode spelled e after) :
      TokenText flags ('\\' :: spelled) (.escape e) after
  | bracket {negated : Bool} {body after : List Char} {atoms : List ClassAtom}
      (hcaret : negated = false → body.head? ≠ some '^')
      (h : Splits (AtomText flags.unicode) (body ++ ']' :: after) atoms (']' :: after))
      (hordered : ∀ m ∈ (writtenParts atoms).flatMap ClassPart.members, m.Ordered) :
      TokenText flags ('[' :: (caretText negated ++ body ++ [']']))
        (.bracket negated ((writtenParts atoms).flatMap ClassPart.members)) after

/-- The piece spells the item, and no longer piece at the start of the text spells any. -/
def Longest {α : Type} (spells : List Char → α → List Char → Prop) (spelled : List Char) (item : α)
    (after : List Char) : Prop :=
  spells spelled item after ∧ ∀ spelled' item' after', spells spelled' item' after' →
    spelled' ++ after' = spelled ++ after → spelled'.length ≤ spelled.length

theorem Splits.mono {α : Type} {p q : List Char → α → List Char → Prop}
    (hpq : ∀ spelled item after, p spelled item after → q spelled item after)
    {s rest : List Char} {items : List α} (h : Splits p s items rest) : Splits q s items rest := by
  induction h with
  | nil rest => exact .nil rest
  | cons head tail ih => exact .cons (hpq _ _ _ head) ih

/-! ## The first token of a text -/

/-- The first token of a text and what stands behind it. -/
def scanToken (flags : Flags) : List Char → Option (Token × List Char)
  | [] => none
  | '\\' :: rest => (scanEscape flags.unicode rest).map fun (e, rest) => (.escape e, rest)
  | '[' :: rest =>
    (scanMembers flags.unicode (dropCaret rest).2).map fun (members, rest') =>
      (.bracket (dropCaret rest).1 members, rest')
  | '.' :: rest => some (if flags.dotAll then .plain '.' else .dot, rest)
  | c :: rest => some (.plain c, rest)

section Scan

variable {flags : Flags} {s rest spelled after : List Char} {token : Token}

theorem scanTokens_nil : scanTokens flags [] = some [] := by rw [scanTokens]

theorem scanTokens_of_ne_nil (h : s ≠ []) : scanTokens flags s =
    (scanToken flags s).bind fun (token, rest) => token.consTo (scanTokens flags rest) := by
  rw [scanToken.eq_def]
  split
  · exact absurd rfl h
  · next rest =>
      rw [scanTokens]
      split <;> simp_all
  · next rest =>
      rw [scanTokens]
      split <;> simp_all
  · rw [scanTokens]
    rfl
  · next c rest hslash hopen hdot =>
      rw [scanTokens]
      · rfl
      · exact hslash
      · exact hopen
      · exact hdot

theorem dropCaret_caretText {negated : Bool} (h : negated = false → s.head? ≠ some '^') :
    dropCaret (caretText negated ++ s) = (negated, s) := by
  cases negated with
  | true => rfl
  | false => exact dropCaret_of_head?_ne (h rfl)

theorem exists_caretText (s : List Char) : ∃ negated body, s = caretText negated ++ body ∧
    dropCaret s = (negated, body) ∧ (negated = false → body.head? ≠ some '^') := by
  by_cases hcaret : s.head? = some '^'
  · obtain ⟨body, rfl⟩ := List.head?_eq_some_iff.mp hcaret
    exact ⟨true, body, rfl, rfl, nofun⟩
  · exact ⟨false, s, rfl, dropCaret_of_head?_ne hcaret, fun _ => hcaret⟩

theorem TokenText.scanToken (h : TokenText flags spelled token after) :
    Regexp.scanToken flags (spelled ++ after) = some (token, after) := by
  cases h with
  | plain h =>
      simp only [List.mem_cons, List.not_mem_nil, or_false, not_or] at h
      show Regexp.scanToken flags (_ :: after) = _
      rw [Regexp.scanToken]
      · exact h.1
      · exact h.2.1
      · exact h.2.2
  | dot => rfl
  | @escape spelled _ e h =>
      show Regexp.scanToken flags ('\\' :: (spelled ++ after)) = _
      rw [Regexp.scanToken, h.scanEscape]
      rfl
  | @bracket negated body _ atoms hcaret h hordered =>
      have hhead : negated = false → (body ++ ']' :: after).head? ≠ some '^' := by
        intro hnegated
        cases body with
        | nil => simp
        | cons c body => exact hcaret hnegated
      have htext : '[' :: (caretText negated ++ body ++ [']']) ++ after =
          '[' :: (caretText negated ++ (body ++ ']' :: after)) := by simp
      rw [htext, Regexp.scanToken, dropCaret_caretText hhead,
        (scanMembers_iff_of_splits h _ after).mpr ⟨rfl, rfl, hordered⟩]
      rfl

theorem exists_tokenText (h : scanToken flags s = some (token, after)) :
    ∃ spelled, TokenText flags spelled token after ∧ s = spelled ++ after := by
  rw [scanToken.eq_def] at h
  split at h
  · cases h
  · next rest =>
      obtain ⟨⟨e, after'⟩, hscan, heq⟩ := Option.map_eq_some_iff.mp h
      obtain ⟨rfl, rfl⟩ := Prod.mk.inj heq
      obtain ⟨spelled, htext, rfl⟩ := exists_escapeText hscan
      exact ⟨'\\' :: spelled, .escape htext, rfl⟩
  · next rest =>
      obtain ⟨⟨members, after'⟩, hscan, heq⟩ := Option.map_eq_some_iff.mp h
      obtain ⟨negated, body, rfl, hdrop, hcaret⟩ := exists_caretText rest
      rw [hdrop] at hscan heq
      obtain ⟨rfl, rfl⟩ := Prod.mk.inj heq
      obtain ⟨atoms, hsplits⟩ := exists_splits hscan
      obtain ⟨lead, rfl⟩ := hsplits.exists_append
      obtain ⟨-, rfl, hordered⟩ := (scanMembers_iff_of_splits hsplits _ _).mp hscan
      refine ⟨'[' :: (caretText negated ++ lead ++ [']']), .bracket ?_ hsplits hordered, by simp⟩
      intro hnegated hhead
      obtain ⟨tail, rfl⟩ := List.head?_eq_some_iff.mp hhead
      exact hcaret hnegated rfl
  · obtain ⟨rfl, rfl⟩ := Prod.mk.inj (Option.some.inj h)
    exact ⟨['.'], .dot _, rfl⟩
  · next c rest hslash hopen hdot =>
      obtain ⟨rfl, rfl⟩ := Prod.mk.inj (Option.some.inj h)
      exact ⟨[c], .plain (by simp_all) _, rfl⟩

theorem TokenText.ordered {negated : Bool} {members : List Member}
    (h : TokenText flags spelled (.bracket negated members) after) :
    ∀ m ∈ members, m.Ordered := by
  generalize htoken : Token.bracket negated members = token at h
  cases h with
  | plain => exact nomatch htoken
  | dot => split at htoken <;> exact nomatch htoken
  | escape => exact nomatch htoken
  | bracket _ _ hordered =>
      obtain ⟨-, rfl⟩ := Token.bracket.inj htoken
      exact hordered

/-- No token is the beginning of another one: the text decides where it ends. -/
theorem TokenText.longest (h : TokenText flags spelled token after) :
    Longest (TokenText flags) spelled token after := by
  refine ⟨h, fun spelled' token' after' h' heq => ?_⟩
  have hscan := h'.scanToken
  rw [heq, h.scanToken] at hscan
  obtain ⟨-, rfl⟩ := Prod.mk.inj (Option.some.inj hscan)
  exact Nat.le_of_eq (congrArg List.length (List.append_cancel_right heq))

/-! ## The tokens of a text -/

variable {tokens : List Token}

/-- The tokens in front of a text stay what they are, whatever is made of the text. -/
theorem Splits.scanTokens (h : Splits (TokenText flags) s tokens rest) :
    Regexp.scanTokens flags s = (Regexp.scanTokens flags rest).map (tokens ++ ·) := by
  induction h with
  | nil rest => cases Regexp.scanTokens flags rest <;> rfl
  | @cons spelled text rest token tokens head tail ih =>
      have hne : spelled ++ text ≠ [] := by
        intro hnil
        have hscan := head.scanToken
        rw [hnil] at hscan
        exact nomatch hscan
      rw [scanTokens_of_ne_nil hne, head.scanToken]
      show token.consTo (Regexp.scanTokens flags text) = _
      rw [ih, Token.consTo, Option.map_map]
      rfl

theorem splits_of_scanTokens (h : scanTokens flags s = some tokens) :
    Splits (TokenText flags) s tokens [] := by
  induction tokens generalizing s with
  | nil =>
      cases s with
      | nil => exact .nil []
      | cons c s =>
          rw [scanTokens_of_ne_nil (List.cons_ne_nil c s)] at h
          obtain ⟨⟨token, rest⟩, -, hmap⟩ := Option.bind_eq_some_iff.mp h
          obtain ⟨more, -, heq⟩ := Option.map_eq_some_iff.mp hmap
          exact absurd heq (List.cons_ne_nil token more)
  | cons token tokens ih =>
      have hne : s ≠ [] := by
        rintro rfl
        rw [scanTokens_nil] at h
        exact nomatch h
      rw [scanTokens_of_ne_nil hne] at h
      obtain ⟨⟨token', rest⟩, hscan, hmap⟩ := Option.bind_eq_some_iff.mp h
      obtain ⟨more, hmore, heq⟩ := Option.map_eq_some_iff.mp hmap
      obtain ⟨rfl, rfl⟩ := List.cons.inj heq
      obtain ⟨spelled, htext, rfl⟩ := exists_tokenText hscan
      exact .cons htext (ih hmore)

theorem scanTokens_eq_some_iff : scanTokens flags s = some tokens ↔
    Splits (Longest (TokenText flags)) s tokens [] := by
  constructor
  · exact fun h => (splits_of_scanTokens h).mono fun _ _ _ => TokenText.longest
  · intro h
    rw [(h.mono fun _ _ _ => And.left).scanTokens, scanTokens_nil, Option.map_some,
      List.append_nil]

theorem TokenText.enginePattern? (h : TokenText flags s token []) :
    Regexp.enginePattern? flags s = some token.text := by
  have hsplits : Splits (Longest (TokenText flags)) (s ++ []) [token] [] :=
    .cons h.longest (.nil [])
  rw [List.append_nil] at hsplits
  rw [Regexp.enginePattern?, scanTokens_eq_some_iff.mpr hsplits, Option.map_some,
    List.flatMap_singleton]

/-! ## Where no token begins -/

theorem enginePattern?_eq_none_of_scanToken (h : Splits (Longest (TokenText flags)) s tokens rest)
    (hne : rest ≠ []) (hscan : scanToken flags rest = none) : enginePattern? flags s = none := by
  rw [enginePattern?, (h.mono fun _ _ _ => And.left).scanTokens, scanTokens_of_ne_nil hne, hscan]
  rfl

/-- An accepted class splits on from wherever its first atoms end. -/
theorem Splits.drop {unicode : Bool} {s rest behind : List Char} {atoms all : List ClassAtom}
    (h : Splits (AtomText unicode) s atoms rest)
    (hall : Splits (AtomText unicode) s all (']' :: behind)) :
    ∃ more, Splits (AtomText unicode) rest more (']' :: behind) := by
  induction h generalizing all with
  | nil rest => exact ⟨all, hall⟩
  | @cons spelled text rest atom atoms head tail ih =>
      generalize hs : spelled ++ text = s at hall
      cases hall with
      | nil =>
          obtain ⟨first, last, rfl, hclose, -⟩ := head.head
          exact absurd (List.cons.inj hs).1 hclose
      | cons head' tail' =>
          have hscan := head.scanAtom
          rw [hs, head'.scanAtom] at hscan
          obtain ⟨-, rfl⟩ := Prod.mk.inj (Option.some.inj hscan)
          exact ih tail'

/-- A class in which some atoms are followed by a text that begins with no atom, and is not
at its end there, is no class. -/
theorem scanMembers_eq_none_of_scanAtom {unicode : Bool} {s rest : List Char}
    {atoms : List ClassAtom} (h : Splits (AtomText unicode) s atoms rest)
    (hscan : scanAtom unicode rest = none) : scanMembers unicode s = none := by
  cases hmembers : scanMembers unicode s with
  | none => rfl
  | some found =>
      obtain ⟨members, behind⟩ := found
      obtain ⟨all, hall⟩ := exists_splits hmembers
      obtain ⟨more, hmore⟩ := h.drop hall
      cases hmore with
      | nil => exact nomatch hscan
      | cons head tail => exact absurd (hscan.symm.trans head.scanAtom) (Option.some_ne_none _).symm

end Scan

/-- A pattern is accepted exactly if it splits into tokens, each the longest at its place, and
what is written for it is what is written for each token. No letter or digit that begins no
escape may stand behind a backslash, neither where a token should begin nor where an atom of
a class should. -/
theorem accepted_iff_splits_into_tokens (flags : Flags) (pattern : List Char) :
    (∀ out, enginePattern? flags pattern = some out ↔
      ∃ tokens, Splits (Longest (TokenText flags)) pattern tokens [] ∧
        out = tokens.flatMap Token.text) ∧
    ∀ c, Text.isAsciiAlphanumeric c = true → c ∉ escapeLetters → ∀ tokens after,
      (Splits (Longest (TokenText flags)) pattern tokens ('\\' :: c :: after) →
        enginePattern? flags pattern = none) ∧
      ∀ negated body atoms, (negated = false → body.head? ≠ some '^') →
        Splits (Longest (TokenText flags)) pattern tokens ('[' :: (caretText negated ++ body)) →
        Splits (AtomText flags.unicode) body atoms ('\\' :: c :: after) →
        enginePattern? flags pattern = none := by
  refine ⟨fun out => ?_, fun c halnum hletter tokens after => ⟨fun h => ?_, ?_⟩⟩
  · rw [enginePattern?, Option.map_eq_some_iff]
    simp only [scanTokens_eq_some_iff, @eq_comm _ out]
  · refine enginePattern?_eq_none_of_scanToken h (List.cons_ne_nil _ _) ?_
    rw [scanToken, scanEscape_of_unknown halnum hletter]
    rfl
  · intro negated body atoms hcaret h hbody
    have hscan : scanAtom flags.unicode ('\\' :: c :: after) = none := by
      rw [scanAtom, scanEscape_of_unknown halnum hletter]
    refine enginePattern?_eq_none_of_scanToken h (List.cons_ne_nil _ _) ?_
    rw [scanToken, dropCaret_caretText hcaret, scanMembers_eq_none_of_scanAtom hbody hscan]
    rfl

/-- A reference to a group is refused behind the group, and a named one in a class behind its
first character. -/
theorem references_refused :
    enginePattern? {} ['(', 'a', ')', '\\', '1'] = none ∧
      enginePattern? {} ['[', 'b', '\\', 'k', ']'] = none := by
  have hplain {c : Char} (h : c ∉ ['\\', '[', '.']) (after : List Char) :
      Longest (TokenText {}) [c] (.plain c) after :=
    TokenText.longest (.plain h after)
  have hgroup : Splits (Longest (TokenText {})) ['(', 'a', ')', '\\', '1']
      [.plain '(', .plain 'a', .plain ')'] ['\\', '1'] :=
    .cons (hplain (by decide) _) (.cons (hplain (by decide) _)
      (.cons (hplain (by decide) _) (.nil _)))
  have hclass : Splits (AtomText false) ['b', '\\', 'k', ']'] [.char 'b'] ['\\', 'k', ']'] :=
    .cons (AtomText.char (by decide) _) (.nil _)
  obtain ⟨-, houtside⟩ := accepted_iff_splits_into_tokens {} ['(', 'a', ')', '\\', '1']
  obtain ⟨-, hinside⟩ := accepted_iff_splits_into_tokens {} ['[', 'b', '\\', 'k', ']']
  exact ⟨(houtside '1' (by decide) (by decide) _ []).1 hgroup,
    (hinside 'k' (by decide) (by decide) [] [']']).2 false _ _ (by decide) (.nil _) hclass⟩

end ParseView.Regexp
