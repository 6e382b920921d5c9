import ParseView.Proofs.JsonText

/-!
# A written value is read

The reader takes a written value apart as it was put together: the document of a value
has its shape, and every list and object is closed with the text behind it. The reader
keeps its open lists and objects on a stack, so what is said of a value is said in front
of any rest and on top of any stack, and a list is the one step from an item to the
next, again and again.

The only condition is on the numbers: the text of each one must be scanned as this
number.
-/

namespace ParseView.Json

/-! ## The document of a value -/

mutual

/-- The document that is read for a value in front of `rest`. -/
def Value.doc : Value → List Char → Doc
  | .null, _ => .null
  | .bool b, _ => .bool b
  | .number n, _ => .number (.ok n)
  | .string s, _ => .string (.ok s)
  | .array items, rest => .array (Value.docs items rest) (.closed rest)
  | .object fields, rest => .object (Value.memberDocs fields rest) (.closed rest)

def Value.docs : List Value → List Char → List Doc
  | [], _ => []
  | item :: items, rest =>
    Value.doc item (Value.writeItems items rest) :: Value.docs items rest

def Value.memberDocs : List (String × Value) → List Char → List (Key × Doc)
  | [], _ => []
  | (name, value) :: fields, rest =>
    (.ok name, Value.doc value (Value.writeFields fields rest)) :: Value.memberDocs fields rest

end

mutual

def Value.numerals : Value → List Numeral
  | .number n => [n]
  | .array items => Value.numeralsOfItems items
  | .object fields => Value.numeralsOfFields fields
  | _ => []

def Value.numeralsOfItems : List Value → List Numeral
  | [] => []
  | item :: items => Value.numerals item ++ Value.numeralsOfItems items

def Value.numeralsOfFields : List (String × Value) → List Numeral
  | [] => []
  | (_, value) :: fields => Value.numerals value ++ Value.numeralsOfFields fields

end

/-! ## How written text begins -/

theorem skipBlank_cons {c : Char} (h : isBlank c = false) (s : List Char) :
    skipBlank (c :: s) = c :: s := by
  simp [skipBlank, h]

def BeginsNumber (c : Char) : Prop := c = '-' ∨ isDigit c = true

theorem BeginsNumber.ne {c d : Char} (h : BeginsNumber c) (hd : isDigit d = false)
    (hminus : d ≠ '-') : c ≠ d := by
  rintro rfl
  rcases h with rfl | h
  · exact hminus rfl
  · rw [hd] at h
    exact Bool.false_ne_true h

theorem BeginsNumber.isBlank {c : Char} (h : BeginsNumber c) : isBlank c = false := by
  have hspace : c ≠ ' ' := h.ne (by decide) (by decide)
  have htab : c ≠ '\t' := h.ne (by decide) (by decide)
  have hfeed : c ≠ '\n' := h.ne (by decide) (by decide)
  have hreturn : c ≠ '\r' := h.ne (by decide) (by decide)
  simp [Json.isBlank, hspace, htab, hfeed, hreturn]

theorem isDigit_of_scanWhole {c : Char} {tail : List Char} {r : List Char × List Char}
    (h : scanWhole (c :: tail) = .ok r) : isDigit c = true := by
  by_cases hzero : c = '0'
  · subst hzero
    decide
  · cases hc : isDigit c with
    | true => rfl
    | false =>
        rw [scanWhole_eq_ok_iff (by simpa using hzero)] at h
        simp [scanDigits, hc] at h

theorem Numeral.Scans.head {n : Numeral} (h : n.Scans) :
    ∃ c tail, n.text = c :: tail ∧ BeginsNumber c := by
  obtain ⟨number, hscan, -, -⟩ := h
  cases htext : n.text with
  | nil => simp [htext, scanNumber, scanUnsigned, scanWhole, bind, Except.bind] at hscan
  | cons c tail =>
      refine ⟨c, tail, rfl, ?_⟩
      by_cases hminus : c = '-'
      · exact .inl hminus
      · rw [htext, scanNumber] at hscan
        · cases hw : scanWhole (c :: tail) with
          | error stop => simp [scanUnsigned, hw, bind, Except.bind] at hscan
          | ok r => exact .inr (isDigit_of_scanWhole hw)
        · rintro tail' heq
          exact hminus (List.cons.inj heq).1

/-- The beginning of an item: neither a blank nor the bracket that closes a list. -/
def BeginsItem (s : List Char) : Prop := ∃ c tail, s = c :: tail ∧ isBlank c = false ∧ c ≠ ']'

theorem Value.beginsItem_write (v : Value) (hv : ∀ n ∈ v.numerals, n.Scans) (rest : List Char) :
    BeginsItem (v.write rest) := by
  cases v with
  | null => exact ⟨'n', _, rfl, by decide, by decide⟩
  | bool b =>
      cases b with
      | true => exact ⟨'t', _, rfl, by decide, by decide⟩
      | false => exact ⟨'f', _, rfl, by decide, by decide⟩
  | number n =>
      obtain ⟨c, tail, htext, hc⟩ := Numeral.Scans.head (hv n (by simp [numerals]))
      exact ⟨c, tail ++ rest, by rw [write, htext]; rfl, hc.isBlank,
        hc.ne (by decide) (by decide)⟩
  | string s => exact ⟨'"', _, rfl, by decide, by decide⟩
  | array items =>
      cases items with
      | nil => exact ⟨'[', _, rfl, by decide, by decide⟩
      | cons item items => exact ⟨'[', _, rfl, by decide, by decide⟩
  | object fields =>
      cases fields with
      | nil => exact ⟨'{', _, rfl, by decide, by decide⟩
      | cons field fields => exact ⟨'{', _, rfl, by decide, by decide⟩

theorem endsNumber_writeItems (items : List Value) (rest : List Char) :
    EndsNumber (Value.writeItems items rest) := by
  cases items with
  | nil => exact .cons (by decide) rest
  | cons item items => exact .cons (by decide) _

theorem endsNumber_writeFields (fields : List (String × Value)) (rest : List Char) :
    EndsNumber (Value.writeFields fields rest) := by
  cases fields with
  | nil => exact .cons (by decide) rest
  | cons field fields => exact .cons (by decide) _

/-! ## One step of the reader -/

section Step

variable {frames : List Frame} {rest : List Char}

theorem State.run_of_next {state next : State} (h : state.next = .inr next) :
    state.run = next.run := by
  rw [State.run]
  split
  · next heq => rw [h] at heq; cases heq
  · next heq => rw [h] at heq; cases heq; rfl

theorem readString_writeString (s : String) :
    readString frames (s.toList.foldr (fun c tail => escapeChar c ++ tail) ('"' :: rest)) =
      .inr ⟨frames, some (.string (.ok s)), rest⟩ := by
  obtain ⟨hending, htext⟩ := scanString_escaped s.toList rest
  simp only [readString, hending, closedText, htext, Except.map, String.ofList_toList]

theorem readKey_writeString (members : List (Key × Doc)) (name : String) :
    readKey frames members
        (name.toList.foldr (fun c tail => escapeChar c ++ tail) ('"' :: ':' :: rest)) =
      .inr ⟨.object members (.ok name) :: frames, none, rest⟩ := by
  obtain ⟨hending, htext⟩ := scanString_escaped name.toList (':' :: rest)
  have hcolon : skipBlank (':' :: rest) = ':' :: rest := skipBlank_cons (by decide) rest
  simp only [readKey, hending, hcolon, closedText, htext, Except.map, String.ofList_toList]

theorem readStart_of_beginsNumber {c : Char} (hc : BeginsNumber c) (s : List Char) :
    readStart frames (c :: s) = readNumber frames c (c :: s) := by
  have hword : c ≠ 'n' ∧ c ≠ 't' ∧ c ≠ 'f' :=
    ⟨hc.ne (by decide) (by decide), hc.ne (by decide) (by decide), hc.ne (by decide) (by decide)⟩
  have hopen : c ≠ '"' ∧ c ≠ '[' ∧ c ≠ '{' :=
    ⟨hc.ne (by decide) (by decide), hc.ne (by decide) (by decide), hc.ne (by decide) (by decide)⟩
  rw [readStart, skipBlank_cons hc.isBlank]
  split
  case h_8 heq =>
    obtain ⟨rfl, rfl⟩ := List.cons.inj heq
    exact if_pos hc
  all_goals simp_all

theorem readStart_number {n : Numeral} (hn : n.Scans) (hr : EndsNumber rest) :
    readStart frames (n.text ++ rest) = .inr ⟨frames, some (.number (.ok n)), rest⟩ := by
  obtain ⟨number, hscan, hrest, hvalue⟩ := hn.append hr
  obtain ⟨c, tail, htext, hc⟩ := hn.head
  rw [htext, List.cons_append] at hscan ⊢
  rw [readStart_of_beginsNumber hc, readNumber, hscan]
  simp only [hrest, hvalue]

theorem readStart_list {s : List Char} (h : BeginsItem s) :
    readStart frames ('[' :: s) = .inr ⟨.list [] :: frames, none, s⟩ := by
  obtain ⟨c, tail, rfl, hblank, hclose⟩ := h
  have hopen : skipBlank ('[' :: c :: tail) = '[' :: c :: tail := skipBlank_cons (by decide) _
  simp [readStart, hopen, skipBlank_cons hblank, hclose]

theorem readInList_comma {items : List Doc} {s : List Char} (h : BeginsItem s) :
    readInList frames items (',' :: s) = .inr ⟨.list items :: frames, none, s⟩ := by
  obtain ⟨c, tail, rfl, hblank, hclose⟩ := h
  have hcomma : skipBlank (',' :: c :: tail) = ',' :: c :: tail := skipBlank_cons (by decide) _
  simp [readInList, hcomma, skipBlank_cons hblank, hclose]

theorem readStart_object (name : String) :
    readStart frames ('{' :: writeString name.toList (':' :: rest)) =
      .inr ⟨.object [] (.ok name) :: frames, none, rest⟩ := by
  rw [← readKey_writeString]
  have hopen (s : List Char) : skipBlank ('{' :: s) = '{' :: s := skipBlank_cons (by decide) _
  have hquote (s : List Char) : skipBlank ('"' :: s) = '"' :: s := skipBlank_cons (by decide) _
  simp only [readStart, writeString, hopen, hquote]

theorem readInObject_comma (members : List (Key × Doc)) (name : String) :
    readInObject frames members (',' :: writeString name.toList (':' :: rest)) =
      .inr ⟨.object members (.ok name) :: frames, none, rest⟩ := by
  rw [← readKey_writeString]
  have hcomma (s : List Char) : skipBlank (',' :: s) = ',' :: s := skipBlank_cons (by decide) _
  have hquote (s : List Char) : skipBlank ('"' :: s) = '"' :: s := skipBlank_cons (by decide) _
  simp only [readInObject, writeString, hcomma, hquote]

end Step

/-! ## The run of the reader -/

mutual

/-- In front of the text of a value the reader comes to its document. -/
theorem Value.run_write (v : Value) (hv : ∀ n ∈ v.numerals, n.Scans) {rest : List Char}
    (hr : EndsNumber rest) (frames : List Frame) :
    State.run ⟨frames, none, v.write rest⟩ = State.run ⟨frames, some (v.doc rest), rest⟩ := by
  cases v with
  | null => exact State.run_of_next rfl
  | bool b => cases b <;> exact State.run_of_next rfl
  | number n =>
      have hn : n.Scans := hv n (by simp [numerals])
      exact State.run_of_next (readStart_number hn hr)
  | string s => exact State.run_of_next (readString_writeString s)
  | array items =>
      match items with
      | [] => exact State.run_of_next rfl
      | item :: items =>
          have hitem : ∀ n ∈ item.numerals, n.Scans := fun n hn =>
            hv n (by simp [numerals, numeralsOfItems, hn])
          have hitems : ∀ n ∈ numeralsOfItems items, n.Scans := fun n hn =>
            hv n (by simp [numerals, numeralsOfItems, hn])
          have hstart : State.next ⟨frames, none, (array (item :: items)).write rest⟩ =
              .inr ⟨.list [] :: frames, none, item.write (writeItems items rest)⟩ :=
            readStart_list (item.beginsItem_write hitem _)
          rw [State.run_of_next hstart,
            item.run_write hitem (endsNumber_writeItems items rest),
            run_writeItems items hitems]
          simp [doc, docs]
  | object fields =>
      match fields with
      | [] => exact State.run_of_next rfl
      | (name, value) :: fields =>
          have hvalue : ∀ n ∈ value.numerals, n.Scans := fun n hn =>
            hv n (by simp [numerals, numeralsOfFields, hn])
          have hfields : ∀ n ∈ numeralsOfFields fields, n.Scans := fun n hn =>
            hv n (by simp [numerals, numeralsOfFields, hn])
          have hstart : State.next ⟨frames, none, (object ((name, value) :: fields)).write rest⟩ =
              .inr ⟨.object [] (.ok name) :: frames, none,
                value.write (writeFields fields rest)⟩ := readStart_object name
          rw [State.run_of_next hstart,
            value.run_write hvalue (endsNumber_writeFields fields rest),
            run_writeFields fields hfields]
          simp [doc, memberDocs]

/-- Behind an item of a list the reader comes to the document of the whole list. -/
theorem Value.run_writeItems (items : List Value) (hv : ∀ n ∈ numeralsOfItems items, n.Scans)
    {rest : List Char} (frames : List Frame) (before : List Doc) (item : Doc) :
    State.run ⟨.list before :: frames, some item, writeItems items rest⟩ =
      State.run ⟨frames, some (.array ((item :: before).reverse ++ docs items rest)
        (.closed rest)), rest⟩ := by
  match items with
  | [] =>
      rw [docs, List.append_nil]
      exact State.run_of_next rfl
  | next :: items =>
      have hnext : ∀ n ∈ next.numerals, n.Scans := fun n hn =>
        hv n (by simp [numeralsOfItems, hn])
      have hitems : ∀ n ∈ numeralsOfItems items, n.Scans := fun n hn =>
        hv n (by simp [numeralsOfItems, hn])
      have hcomma : State.next ⟨.list before :: frames, some item,
            writeItems (next :: items) rest⟩ =
          .inr ⟨.list (item :: before) :: frames, none, next.write (writeItems items rest)⟩ :=
        readInList_comma (next.beginsItem_write hnext _)
      rw [State.run_of_next hcomma,
        next.run_write hnext (endsNumber_writeItems items rest),
        run_writeItems items hitems]
      simp [docs]

theorem Value.run_writeFields (fields : List (String × Value))
    (hv : ∀ n ∈ numeralsOfFields fields, n.Scans) {rest : List Char} (frames : List Frame)
    (before : List (Key × Doc)) (key : Key) (value : Doc) :
    State.run ⟨.object before key :: frames, some value, writeFields fields rest⟩ =
      State.run ⟨frames, some (.object (((key, value) :: before).reverse ++ memberDocs fields rest)
        (.closed rest)), rest⟩ := by
  match fields with
  | [] =>
      rw [memberDocs, List.append_nil]
      exact State.run_of_next rfl
  | (name, next) :: fields =>
      have hnext : ∀ n ∈ next.numerals, n.Scans := fun n hn =>
        hv n (by simp [numeralsOfFields, hn])
      have hfields : ∀ n ∈ numeralsOfFields fields, n.Scans := fun n hn =>
        hv n (by simp [numeralsOfFields, hn])
      have hcomma : State.next ⟨.object before key :: frames, some value,
            writeFields ((name, next) :: fields) rest⟩ =
          .inr ⟨.object ((key, value) :: before) (.ok name) :: frames, none,
            next.write (writeFields fields rest)⟩ := readInObject_comma _ name
      rw [State.run_of_next hcomma,
        next.run_write hnext (endsNumber_writeFields fields rest),
        run_writeFields fields hfields]
      simp [memberDocs]

end

/-- What is written in front of `rest` is read up to it. -/
theorem readChars_write (v : Value) (hv : ∀ n ∈ v.numerals, n.Scans) {rest : List Char}
    (hr : EndsNumber rest) : readChars (v.write rest) = ⟨v.doc rest, rest⟩ := by
  rw [readChars, v.run_write hv hr, State.run]
  rfl

/-- The text of a value is read as its document, to the end. -/
theorem Document.read_text (v : Value) (hv : ∀ n ∈ v.numerals, n.Scans) :
    Document.read v.text = ⟨v.doc [], []⟩ := by
  rw [Document.read, Value.text, String.toList_ofList, readChars_write v hv .nil]

end ParseView.Json
