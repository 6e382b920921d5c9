import ParseView.Json.Doc

/-!
# Reading a text

The reader keeps a stack of the lists and objects that are open, so the depth of a document costs
no stack of its own. Each step takes at least one character from the text; that is why reading
ends. When the text breaks off, every open list and object is closed as cut.
-/

namespace ParseView.Json

def isBlank (c : Char) : Bool := c == ' ' || c == '\t' || c == '\n' || c == '\r'

def skipBlank (s : List Char) : List Char := s.dropWhile isBlank

/-- An open list or object, the newest element first; an object waits for the value of `key`. -/
inductive Frame where
  | list (items : List Doc)
  | object (members : List (Key × Doc)) (key : Key)

/-- Hands a cut value to the list or object around it, which is cut with it. -/
def Frame.cut (stop : Stop) (inner : Doc) : Frame → Doc
  | .list items => .array (inner :: items).reverse (.cut stop)
  | .object members key => .object ((key, inner) :: members).reverse (.cut stop)

/-- What was read when the text breaks off inside `inner`. -/
def cutAll (stop : Stop) (inner : Doc) (frames : List Frame) : Document :=
  ⟨frames.foldl (Frame.cut stop) inner, []⟩

/-- A reader at work: the open frames, the value just read if there is one, and the unread text. -/
structure State where
  frames : List Frame
  value : Option Doc
  unread : List Char

/-- A reader either comes to its end or goes on. -/
abbrev Next := Document ⊕ State

/-- The rest of a word whose first character was seen. -/
def scanWord : List Char → List Char → Except Fault (List Char)
  | [], unread => .ok unread
  | _ :: _, [] => .error (.ending .endOfValue)
  | c :: word, d :: unread =>
    if c = d then scanWord word unread else .error (.seen .expectedWord (d :: unread))

/-- Reads on behind a word. -/
def readWord (frames : List Frame) (first : Char) (word : List Char) (meant : Doc)
    (s : List Char) : Next :=
  match scanWord word s with
  | .ok rest => .inr ⟨frames, some meant, rest⟩
  | .error fault => .inl (cutAll (.same fault) (.broken first (.same fault)) frames)

def readNumber (frames : List Frame) (first : Char) (s : List Char) : Next :=
  match scanNumber s with
  | .ok number => .inr ⟨frames, some (.number number.value), number.rest⟩
  | .error stop => .inl (cutAll stop (.broken first stop) frames)

/-- Reads a string, given without its opening quote. -/
def readString (frames : List Frame) (s : List Char) : Next :=
  let text := scanString s
  match text.ending with
  | .ok rest => .inr ⟨frames, some (.string (closedText text.pieces)), rest⟩
  | .error fault =>
    let stop := brokenText text.pieces fault
    .inl (cutAll stop (.missing stop) frames)

/-- Reads a key, given without its opening quote, and the colon behind it. -/
def readKey (frames : List Frame) (members : List (Key × Doc)) (s : List Char) : Next :=
  let text := scanString s
  match text.ending with
  | .error fault =>
    let stop := brokenText text.pieces fault
    .inl (cutAll stop (.object members.reverse (.cut stop)) frames)
  | .ok rest =>
    let key := closedText text.pieces
    let cut (fault : Fault) : Next :=
      .inl (cutAll (.same fault) (.missing (.same fault)) (.object members key :: frames))
    match skipBlank rest with
    | [] => cut (.ending .endOfObject)
    | ':' :: rest => .inr ⟨.object members key :: frames, none, rest⟩
    | rest => cut (.seen .expectedColon rest)

/-- Reads the beginning of a value. -/
def readStart (frames : List Frame) (s : List Char) : Next :=
  match skipBlank s with
  | [] => let stop := Stop.same (.ending .endOfValue); .inl (cutAll stop (.missing stop) frames)
  | 'n' :: rest => readWord frames 'n' ['u', 'l', 'l'] .null rest
  | 't' :: rest => readWord frames 't' ['r', 'u', 'e'] (.bool true) rest
  | 'f' :: rest => readWord frames 'f' ['a', 'l', 's', 'e'] (.bool false) rest
  | '"' :: rest => readString frames rest
  | '[' :: rest =>
    match skipBlank rest with
    | [] => let stop := Stop.same (.ending .endOfList); .inl (cutAll stop (.array [] (.cut stop)) frames)
    | ']' :: rest => .inr ⟨frames, some (.array [] (.closed rest)), rest⟩
    | rest => .inr ⟨.list [] :: frames, none, rest⟩
  | '{' :: rest =>
    match skipBlank rest with
    | [] => let stop := Stop.same (.ending .endOfObject); .inl (cutAll stop (.object [] (.cut stop)) frames)
    | '}' :: rest => .inr ⟨frames, some (.object [] (.closed rest)), rest⟩
    | '"' :: rest => readKey frames [] rest
    | rest => let stop := Stop.same (.seen .keyNotString rest); .inl (cutAll stop (.object [] (.cut stop)) frames)
  | c :: rest =>
    if c = '-' ∨ isDigit c then readNumber frames c (c :: rest)
    else
      let stop := Stop.same (.seen .expectedValue (c :: rest))
      .inl (cutAll stop (.missing stop) frames)

/-- Reads what follows a value in a list. -/
def readInList (frames : List Frame) (items : List Doc) (s : List Char) : Next :=
  let cut (stop : Stop) : Next := .inl (cutAll stop (.array items.reverse (.cut stop)) frames)
  match skipBlank s with
  | [] => cut (.same (.ending .endOfList))
  | ']' :: rest => .inr ⟨frames, some (.array items.reverse (.closed rest)), rest⟩
  | ',' :: rest =>
    match skipBlank rest with
    | [] => cut (.same (.ending .endOfValue))
    | ']' :: rest => cut ⟨.seen .trailingComma (']' :: rest), .expectedValue⟩
    | rest => .inr ⟨.list items :: frames, none, rest⟩
  | rest => cut (.same (.seen .expectedListSeparator rest))

/-- Reads what follows a member of an object. -/
def readInObject (frames : List Frame) (members : List (Key × Doc)) (s : List Char) : Next :=
  let cut (stop : Stop) : Next := .inl (cutAll stop (.object members.reverse (.cut stop)) frames)
  match skipBlank s with
  | [] => cut (.same (.ending .endOfObject))
  | '}' :: rest => .inr ⟨frames, some (.object members.reverse (.closed rest)), rest⟩
  | ',' :: rest =>
    match skipBlank rest with
    | [] => cut ⟨.ending .endOfValue, .endOfObject⟩
    | '"' :: rest => readKey frames members rest
    | '}' :: rest => cut ⟨.seen .trailingComma ('}' :: rest), .keyNotString⟩
    | rest => cut (.same (.seen .keyNotString rest))
  | rest => cut (.same (.seen .expectedObjectSeparator rest))

def State.next (state : State) : Next :=
  match state.value with
  | none => readStart state.frames state.unread
  | some value =>
    match state.frames with
    | [] => .inl ⟨value, state.unread⟩
    | .list items :: frames => readInList frames (value :: items) state.unread
    | .object members key :: frames => readInObject frames ((key, value) :: members) state.unread

/-! ## Every step takes something from the text -/

theorem length_dropWhile_le (p : Char → Bool) (s : List Char) :
    (s.dropWhile p).length ≤ s.length :=
  (List.dropWhile_sublist p).length_le

theorem length_skipBlank_le (s : List Char) : (skipBlank s).length ≤ s.length :=
  length_dropWhile_le isBlank s

theorem length_lt_of_skipBlank {s rest : List Char} {c : Char} (h : skipBlank s = c :: rest) :
    rest.length < s.length := by
  have := length_skipBlank_le s
  rw [h] at this
  exact this

theorem length_le_of_scanWord {word s rest : List Char} (h : scanWord word s = .ok rest) :
    rest.length ≤ s.length := by
  fun_induction scanWord word s with
  | case1 => simp_all
  | case2 => simp at h
  | case3 _ _ _ ih => have := ih h; simp; omega
  | case4 => simp at h

theorem length_lt_of_scanDigits {s digits rest : List Char} (h : scanDigits s = .ok (digits, rest)) :
    rest.length < s.length := by
  have split : s.takeWhile isDigit ++ s.dropWhile isDigit = s := List.takeWhile_append_dropWhile
  have length := congrArg List.length split
  unfold scanDigits at h
  split at h
  · simp at h
  · next hd =>
    simp only [Except.ok.injEq, Prod.mk.injEq] at h
    obtain ⟨rfl, rfl⟩ := h
    have : s.takeWhile isDigit ≠ [] := hd
    have := List.length_pos_iff.2 this
    simp only [List.length_append] at length
    omega

theorem length_lt_of_scanWhole {s digits rest : List Char} (h : scanWhole s = .ok (digits, rest)) :
    rest.length < s.length := by
  fun_cases scanWhole s with
  | case1 c tail hc => simp [scanWhole, hc] at h
  | case2 c tail hc =>
    simp [scanWhole, hc] at h
    simp [← h.2]
  | case3 => simp [scanWhole] at h; simp [← h.2]
  | case4 s hne hd => simp [scanWhole, hd] at h
  | case5 s hne hd => 
    refine @length_lt_of_scanDigits _ digits _ ?_
    simpa [scanWhole, scanDigits, hd] using h

theorem length_le_of_scanFraction {s rest : List Char} {digits : Option (List Char)}
    (h : scanFraction s = .ok (digits, rest)) : rest.length ≤ s.length := by
  fun_cases scanFraction s with
  | case1 tail =>
    cases hd : scanDigits tail with
    | error => simp [scanFraction, hd, bind, Except.bind] at h
    | ok r =>
      have := length_lt_of_scanDigits hd
      simp [scanFraction, hd, bind, Except.bind, pure, Except.pure] at h
      simp [← h.2]
      omega
  | case2 => simp_all [scanFraction]

theorem length_lt_of_scanPowerDigits {down : Bool} {s rest : List Char}
    {power : Option (Bool × List Char)} (h : scanPowerDigits down s = .ok (power, rest)) :
    rest.length < s.length := by
  cases hd : scanDigits s with
  | error => simp [scanPowerDigits, hd, bind, Except.bind] at h
  | ok r =>
    have := length_lt_of_scanDigits hd
    simp [scanPowerDigits, hd, bind, Except.bind, pure, Except.pure] at h
    simp [← h.2]
    omega

theorem length_le_of_scanPower {s rest : List Char} {power : Option (Bool × List Char)}
    (h : scanPower s = .ok (power, rest)) : rest.length ≤ s.length := by
  unfold scanPower at h
  split at h
  · split at h
    · split at h
      · have := length_lt_of_scanPowerDigits h
        simp only [List.length_cons]
        omega
      · have := length_lt_of_scanPowerDigits h
        simp only [List.length_cons]
        omega
      · have := length_lt_of_scanPowerDigits h
        simp only [List.length_cons]
        omega
    · simp only [Except.ok.injEq, Prod.mk.injEq] at h
      simp [← h.2]
  · simp only [Except.ok.injEq, Prod.mk.injEq] at h
    simp [← h.2]

theorem length_lt_of_scanUnsigned {negative : Bool} {s : List Char} {number : NumberText}
    (h : scanUnsigned negative s = .ok number) : number.rest.length < s.length := by
  cases hw : scanWhole s with
  | error => simp [scanUnsigned, hw, bind, Except.bind] at h
  | ok w =>
  cases hf : scanFraction w.2 with
  | error => simp [scanUnsigned, hw, hf, bind, Except.bind] at h
  | ok f =>
  cases hp : scanPower f.2 with
  | error => simp [scanUnsigned, hw, hf, hp, bind, Except.bind] at h
  | ok p =>
  have := length_lt_of_scanWhole hw
  have := length_le_of_scanFraction hf
  have := length_le_of_scanPower hp
  simp [scanUnsigned, hw, hf, hp, bind, Except.bind, pure, Except.pure] at h
  rw [← h]
  simp only
  omega

theorem length_lt_of_scanNumber {s : List Char} {number : NumberText}
    (h : scanNumber s = .ok number) : number.rest.length < s.length := by
  unfold scanNumber at h
  split at h
  · have := length_lt_of_scanUnsigned h; simp; omega
  · exact length_lt_of_scanUnsigned h

theorem length_of_readWord {frames : List Frame} {first : Char} {word s : List Char} {meant : Doc}
    {next : State} (h : readWord frames first word meant s = .inr next) :
    next.unread.length ≤ s.length := by
  unfold readWord at h
  split at h
  · next hw =>
    simp at h
    simpa [← h] using length_le_of_scanWord hw
  · simp at h

theorem length_of_readString {frames : List Frame} {s : List Char} {next : State}
    (h : readString frames s = .inr next) : next.unread.length < s.length := by
  simp only [readString] at h
  split at h
  · next hs =>
    simp at h
    simpa [← h] using length_of_scanString hs
  · simp at h

theorem length_of_readKey {frames : List Frame} {members : List (Key × Doc)} {s : List Char}
    {next : State} (h : readKey frames members s = .inr next) : next.unread.length < s.length := by
  simp only [readKey] at h
  split at h
  · simp at h
  · next hs =>
    have := length_of_scanString hs
    split at h
    · simp at h
    · next hb =>
      have := length_lt_of_skipBlank hb
      simp at h
      simp [← h]
      omega
    · simp at h

theorem length_of_readNumber {frames : List Frame} {first : Char} {s : List Char} {next : State}
    (h : readNumber frames first s = .inr next) : next.unread.length < s.length := by
  unfold readNumber at h
  split at h
  · next hn =>
    simp at h
    simpa [← h] using length_lt_of_scanNumber hn
  · simp at h

theorem length_of_readStart {frames : List Frame} {s : List Char} {next : State}
    (h : readStart frames s = .inr next) : next.unread.length < s.length := by
  unfold readStart at h
  split at h
  · simp at h
  · next hs => have := length_lt_of_skipBlank hs; have := length_of_readWord h; omega
  · next hs => have := length_lt_of_skipBlank hs; have := length_of_readWord h; omega
  · next hs => have := length_lt_of_skipBlank hs; have := length_of_readWord h; omega
  · next hs => have := length_lt_of_skipBlank hs; have := length_of_readString h; omega
  · next rest hs =>
    have := length_lt_of_skipBlank hs
    have := length_skipBlank_le rest
    split at h
    · simp at h
    · next hb => have := length_lt_of_skipBlank hb; simp at h; simp [← h]; omega
    · simp at h; simp [← h]; omega
  · next rest hs =>
    have := length_lt_of_skipBlank hs
    split at h
    · simp at h
    · next hb => have := length_lt_of_skipBlank hb; simp at h; simp [← h]; omega
    · next hb => have := length_lt_of_skipBlank hb; have := length_of_readKey h; omega
    · simp at h
  · next c rest hs =>
    split at h
    · have := length_of_readNumber h
      have := length_skipBlank_le s
      simp [hs] at this
      simp at *
      omega
    · simp at h

theorem length_of_readInList {frames : List Frame} {items : List Doc} {s : List Char}
    {next : State} (h : readInList frames items s = .inr next) : next.unread.length < s.length := by
  simp only [readInList] at h
  split at h
  · simp at h
  · next hs => have := length_lt_of_skipBlank hs; simp at h; simp [← h]; omega
  · next rest hs =>
    have := length_lt_of_skipBlank hs
    have := length_skipBlank_le rest
    split at h
    · simp at h
    · simp at h
    · simp at h; simp [← h]; omega
  · simp at h

theorem length_of_readInObject {frames : List Frame} {members : List (Key × Doc)} {s : List Char}
    {next : State} (h : readInObject frames members s = .inr next) :
    next.unread.length < s.length := by
  simp only [readInObject] at h
  split at h
  · simp at h
  · next hs => have := length_lt_of_skipBlank hs; simp at h; simp [← h]; omega
  · next rest hs =>
    have := length_lt_of_skipBlank hs
    split at h
    · simp at h
    · next hb => have := length_lt_of_skipBlank hb; have := length_of_readKey h; omega
    · simp at h
    · simp at h
  · simp at h

/-- Every step takes at least one character. -/
theorem State.length_of_next {state next : State} (h : state.next = .inr next) :
    next.unread.length < state.unread.length := by
  unfold State.next at h
  split at h
  · exact length_of_readStart h
  · split at h
    · simp at h
    · exact length_of_readInList h
    · exact length_of_readInObject h

/-- Reads until the outermost value is complete or the text breaks off. -/
def State.run (state : State) : Document :=
  match _h : state.next with
  | .inl document => document
  | .inr next => next.run
termination_by state.unread.length
decreasing_by exact State.length_of_next _h

/-- Reads the value at the start of a text. -/
def readChars (s : List Char) : Document := State.run ⟨[], none, s⟩

/-- Reads a text as far as it goes. -/
def Document.read (text : String) : Document := readChars text.toList

/-- Nothing but blanks may follow the value of a text. -/
def Document.trailingFault? (document : Document) : Option Fault :=
  match skipBlank document.trailing with
  | [] => none
  | rest => some (.seen .trailingCharacters rest)

/-- The value that a text holds if all of it is in order. -/
def read? (text : String) : Option Value :=
  let document := Document.read text
  match document.trailingFault? with
  | none => document.root.value?
  | some _ => none

end ParseView.Json
