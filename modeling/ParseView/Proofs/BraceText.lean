import Mathlib.Data.List.Basic
import ParseView.Proofs.JsonReading

/-!
# The braces of a written value

An object opens with a brace, so the objects of a text stand in the order of the braces
outside of its strings. `braces` goes through a text for these and knows nothing else of
what is written there. `Value.openings` goes through a value and says of every object in
it what its members are and what is written behind it. The two come to the same
(`Value.braces_write`): at the braces of a written value, its objects are written one
after the other, each before the ones inside it, and no brace is left over.

Strings may hold braces and quotes, but a quote in a string stands behind a backslash,
and numbers hold neither.
-/

namespace ParseView.Json

/-! ## The braces of a text -/

mutual

/-- A text from each brace on that opens an object. What is in strings is passed over. -/
def braces : List Char → List (List Char)
  | [] => []
  | '"' :: rest => bracesBehindString rest
  | '{' :: rest => ('{' :: rest) :: braces rest
  | _ :: rest => braces rest

/-- The braces behind the string that one is in. -/
def bracesBehindString : List Char → List (List Char)
  | [] => []
  | '"' :: rest => braces rest
  | '\\' :: _ :: rest => bracesBehindString rest
  | _ :: rest => bracesBehindString rest

end

/-- A character that neither begins a string nor opens an object. -/
def IsPlain (c : Char) : Prop := c ≠ '"' ∧ c ≠ '{'

instance : DecidablePred IsPlain := fun _ => inferInstanceAs (Decidable (_ ∧ _))

section Braces

variable {c : Char} {s : List Char}

theorem braces_cons_of_isPlain (h : IsPlain c) (rest : List Char) :
    braces (c :: rest) = braces rest := by
  rw [braces]
  · exact h.1
  · exact h.2

theorem braces_append (h : ∀ c ∈ s, IsPlain c) (rest : List Char) :
    braces (s ++ rest) = braces rest := by
  induction s with
  | nil => rfl
  | cons c s ih =>
      obtain ⟨hc, hs⟩ := List.forall_mem_cons.mp h
      rw [List.cons_append, braces_cons_of_isPlain hc, ih hs]

theorem bracesBehindString_cons (hquote : c ≠ '"') (hslash : c ≠ '\\') (rest : List Char) :
    bracesBehindString (c :: rest) = bracesBehindString rest := by
  rw [bracesBehindString]
  · exact hquote
  · exact fun _ _ hc _ => hslash hc

end Braces

/-! ## Strings and numbers have no braces -/

theorem bracesBehindString_control : ∀ code < 32, ∀ rest,
    bracesBehindString ('\\' :: 'u' :: '0' :: '0' :: Nat.digitChar (code / 16) ::
      Nat.digitChar (code % 16) :: rest) = bracesBehindString rest := by
  have hdigit : ∀ d < 16, Nat.digitChar d ≠ '"' ∧ Nat.digitChar d ≠ '\\' := by decide
  intro code hcode rest
  obtain ⟨hhigh, hhigh'⟩ := hdigit (code / 16) (by omega)
  obtain ⟨hlow, hlow'⟩ := hdigit (code % 16) (by omega)
  rw [bracesBehindString, bracesBehindString_cons (by decide) (by decide),
    bracesBehindString_cons (by decide) (by decide), bracesBehindString_cons hhigh hhigh',
    bracesBehindString_cons hlow hlow']

/-- A string is not left with a character that is written in it. -/
theorem bracesBehindString_escapeChar (c : Char) (rest : List Char) :
    bracesBehindString (escapeChar c ++ rest) = bracesBehindString rest := by
  rw [escapeChar]
  split
  · rfl
  split
  · rfl
  split
  · rfl
  split
  · rfl
  split
  · rfl
  split
  · rfl
  split
  · rfl
  split
  · next h => exact bracesBehindString_control c.toNat h rest
  · next hquote hslash _ _ _ _ _ _ => exact bracesBehindString_cons hquote hslash rest

theorem braces_writeString (s rest : List Char) : braces (writeString s rest) = braces rest := by
  rw [writeString, braces]
  induction s with
  | nil => rfl
  | cons c s ih => rw [List.foldr_cons, bracesBehindString_escapeChar, ih]

theorem isPlain_of_isDigit {c : Char} (h : isDigit c = true) : IsPlain c := by
  constructor <;> rintro rfl <;> exact absurd h (by decide)

theorem isPlain_of_mem_toDigits {n : Nat} : ∀ c ∈ Nat.toDigits 10 n, IsPlain c :=
  fun _ hc => isPlain_of_isDigit (isDigit_of_mem_toDigits hc)

end ParseView.Json

namespace ParseView.Binary64

open Json (IsPlain)

theorem isPlain_of_mem_signText (x : Binary64) : ∀ c ∈ x.signText, IsPlain c := by
  rw [signText]
  split <;> simp [IsPlain]

theorem isPlain_of_mem_zeros (n : Nat) : ∀ c ∈ zeros n, IsPlain c := by
  intro c hc
  rw [List.eq_of_mem_replicate hc]
  decide

theorem isPlain_of_mem_positional {d : Decimal} {whole : List Char}
    (hwhole : ∀ c ∈ whole, IsPlain c) : ∀ c ∈ positional d whole, IsPlain c := by
  have hdigits : ∀ c ∈ d.text, IsPlain c := Json.isPlain_of_mem_toDigits
  have hpoint : IsPlain '.' := by decide
  rw [positional]
  split
  · simp only [List.forall_mem_cons, List.forall_mem_append]
    exact ⟨by decide, hpoint, isPlain_of_mem_zeros _, hdigits⟩
  · dsimp only
    split
    · simp only [List.forall_mem_cons, List.forall_mem_append]
      exact ⟨fun c hc => hdigits c (List.mem_of_mem_take hc), hpoint,
        fun c hc => hdigits c (List.mem_of_mem_drop hc)⟩
    · simp only [List.forall_mem_append]
      exact ⟨⟨hdigits, isPlain_of_mem_zeros _⟩, hwhole⟩

theorem isPlain_of_mem_scientific (d : Decimal) : ∀ c ∈ scientific d, IsPlain c := by
  have hdigits : ∀ c ∈ d.text, IsPlain c := Json.isPlain_of_mem_toDigits
  rw [scientific]
  refine List.forall_mem_append.mpr ⟨?_, List.forall_mem_cons.mpr ⟨by decide,
    List.forall_mem_cons.mpr ⟨?_, Json.isPlain_of_mem_toDigits⟩⟩⟩
  · split
    · simp
    · next htext => exact htext ▸ hdigits
    · next htext =>
        rw [htext] at hdigits
        obtain ⟨hfirst, hrest⟩ := List.forall_mem_cons.mp hdigits
        exact List.forall_mem_cons.mpr
          ⟨hfirst, List.forall_mem_cons.mpr ⟨by decide, hrest⟩⟩
  · split <;> decide

/-- Digits, a point, signs and the letter of an exponent. -/
theorem isPlain_of_mem_interchangeText (x : Binary64) : ∀ c ∈ x.interchangeText, IsPlain c := by
  rw [interchangeText]
  split
  · rw [List.forall_mem_append]
    exact ⟨isPlain_of_mem_signText x, by simp [IsPlain]⟩
  · rw [List.forall_mem_append]
    refine ⟨isPlain_of_mem_signText x, ?_⟩
    split
    · exact isPlain_of_mem_positional (by simp [IsPlain])
    · exact isPlain_of_mem_scientific _

end ParseView.Binary64

namespace ParseView.Json

theorem Numeral.isPlain_of_mem_text (n : Numeral) : ∀ c ∈ n.text, IsPlain c := by
  cases n with
  | whole n =>
      obtain ⟨val, lower, upper⟩ := n
      cases val with
      | ofNat m =>
          rw [text_ofNat]
          exact isPlain_of_mem_toDigits
      | negSucc m =>
          rw [text_negSucc]
          exact List.forall_mem_cons.mpr ⟨by decide, isPlain_of_mem_toDigits⟩
  | double x => exact x.isPlain_of_mem_interchangeText

/-! ## What is written in front -/

theorem writeString_append (s first rest : List Char) :
    writeString s (first ++ rest) = writeString s first ++ rest := by
  rw [writeString, writeString, List.cons_append]
  congr 1
  induction s with
  | nil => rfl
  | cons c s ih => rw [List.foldr_cons, List.foldr_cons, ih, List.append_assoc]

mutual

theorem Value.write_append (v : Value) (first rest : List Char) :
    v.write (first ++ rest) = v.write first ++ rest := by
  match v with
  | .null | .bool true | .bool false | .array [] | .object [] => rfl
  | .number n => exact (List.append_assoc n.text first rest).symm
  | .string s => exact writeString_append s.toList first rest
  | .array (item :: items) =>
      rw [write, write, writeItems_append, item.write_append, List.cons_append]
  | .object ((name, value) :: fields) =>
      rw [write, write, writeFields_append, value.write_append, ← List.cons_append,
        writeString_append, List.cons_append]

theorem Value.writeItems_append (items : List Value) (first rest : List Char) :
    writeItems items (first ++ rest) = writeItems items first ++ rest := by
  match items with
  | [] => rfl
  | item :: items =>
      rw [writeItems, writeItems, writeItems_append, item.write_append, List.cons_append]

theorem Value.writeFields_append (fields : List (String × Value)) (first rest : List Char) :
    writeFields fields (first ++ rest) = writeFields fields first ++ rest := by
  match fields with
  | [] => rfl
  | (name, value) :: fields =>
      rw [writeFields, writeFields, writeFields_append, value.write_append, ← List.cons_append,
        writeString_append, List.cons_append]

end

/-- What is written behind the text of a value. -/
theorem Value.write_eq_text_append (v : Value) (rest : List Char) :
    v.write rest = v.text.toList ++ rest := by
  rw [text, String.toList_ofList, ← write_append, List.nil_append]

/-! ## The objects of a value -/

/-- An object in a text: its members and what is written behind it. -/
structure Opening where
  members : Fields Value
  behind : List Char

/-- The text from the brace of the object on. -/
def Opening.text (o : Opening) : List Char := (Value.object o.members).write o.behind

/-- The kind that the object names. -/
def Opening.kind? (o : Opening) : Option String :=
  match Fields.get? "type" o.members with
  | some (.string kind) => some kind
  | _ => none

mutual

/-- The objects of a value that is written in front of `rest`, each before those inside it. -/
def Value.openings : Value → List Char → List Opening
  | .array items, rest => Value.openingsOfItems items rest
  | .object members, rest => ⟨members, rest⟩ :: Value.openingsOfFields members rest
  | _, _ => []

def Value.openingsOfItems : List Value → List Char → List Opening
  | [], _ => []
  | item :: items, rest =>
    Value.openings item (Value.writeItems items rest) ++ Value.openingsOfItems items rest

def Value.openingsOfFields : List (String × Value) → List Char → List Opening
  | [], _ => []
  | (_, value) :: fields, rest =>
    Value.openings value (Value.writeFields fields rest) ++ Value.openingsOfFields fields rest

end

mutual

/-- At the braces of a written value, its objects are written. -/
theorem Value.braces_write (v : Value) (rest : List Char) :
    braces (v.write rest) = (v.openings rest).map Opening.text ++ braces rest := by
  match v with
  | .null => exact braces_append (s := ['n', 'u', 'l', 'l']) (by simp [IsPlain]) rest
  | .bool true => exact braces_append (s := ['t', 'r', 'u', 'e']) (by simp [IsPlain]) rest
  | .bool false => exact braces_append (s := ['f', 'a', 'l', 's', 'e']) (by simp [IsPlain]) rest
  | .number n => exact braces_append n.isPlain_of_mem_text rest
  | .string s => exact braces_writeString s.toList rest
  | .array [] => exact braces_append (s := ['[', ']']) (by simp [IsPlain]) rest
  | .array (item :: items) =>
      rw [write, braces_cons_of_isPlain (by decide), item.braces_write, braces_writeItems,
        openings, openingsOfItems, List.map_append, List.append_assoc]
  | .object [] => rfl
  | .object ((name, value) :: fields) =>
      rw [openings, List.map_cons, List.cons_append, Opening.text, write, braces,
        braces_writeString, braces_cons_of_isPlain (by decide), value.braces_write,
        braces_writeFields, openingsOfFields, List.map_append, List.append_assoc]

theorem Value.braces_writeItems (items : List Value) (rest : List Char) :
    braces (writeItems items rest) =
      (openingsOfItems items rest).map Opening.text ++ braces rest := by
  match items with
  | [] => exact braces_cons_of_isPlain (by decide) rest
  | item :: items =>
      rw [writeItems, braces_cons_of_isPlain (by decide), item.braces_write, braces_writeItems,
        openingsOfItems, List.map_append, List.append_assoc]

theorem Value.braces_writeFields (fields : List (String × Value)) (rest : List Char) :
    braces (writeFields fields rest) =
      (openingsOfFields fields rest).map Opening.text ++ braces rest := by
  match fields with
  | [] => exact braces_cons_of_isPlain (by decide) rest
  | (name, value) :: fields =>
      rw [writeFields, braces_cons_of_isPlain (by decide), braces_writeString,
        braces_cons_of_isPlain (by decide), value.braces_write, braces_writeFields,
        openingsOfFields, List.map_append, List.append_assoc]

end

end ParseView.Json
