import ParseView.SourceMap.Mappings
import ParseView.Text.Split

/-!
# A written map reads back

`readMappings?` reads a mappings text by the rules of the format: lines end at
semicolons, segments at commas, a segment has one, four or five numbers, and each number
is a distance. The column of the text counts from the start of its line, everything
else from the segment before, also across lines. None of it looks at how the text was
written.

What `encodeMappings` writes reads back as the segments it was given. The reader walks
the same lists as the writer, so the proof goes up the same levels: one number, one
segment, one line, all lines. At each level the text goes on behind what was written,
and the separators are found because a number is written without them.
-/

namespace ParseView.SourceMap

open Edit (Position)

/-! ## Reading -/

/-- The number with its sign in the lowest bit. -/
def unzigzag (n : Nat) : Int :=
  if n % 2 = 1 then -((n / 2 : Nat) : Int) else (n / 2 : Nat)

/-- The numbers of a segment. `value` is what the groups of the number at hand add up to
so far and `weight` what the next one counts; a number must not end early. -/
def readNumbers? (value weight : Nat) : List Char → Option (List Int)
  | [] => if weight = 1 then some [] else none
  | c :: rest => do
    let bits ← Base64.digitValue? c
    let value := value + bits % 32 * weight
    if bits < 32 then return unzigzag value :: (← readNumbers? 0 1 rest)
    else readNumbers? value (weight * 32) rest

/-- What a segment leads to. -/
structure Target where
  source : Nat
  origin : Position
  name : Option Nat
deriving DecidableEq, Repr

/-- A segment as a reader knows it. -/
structure Entry where
  column : Nat
  target : Option Target
deriving DecidableEq, Repr

/-- What the distances add up to so far. -/
structure Totals where
  column : Nat
  source : Nat
  origin : Position
  name : Nat
deriving DecidableEq, Repr

/-- Nothing is below zero. -/
def moveBy? (n : Nat) (distance : Int) : Option Nat :=
  if 0 ≤ n + distance then some (n + distance).toNat else none

def readSegment? (totals : Totals) (text : List Char) : Option (Totals × Entry) := do
  match ← readNumbers? 0 1 text with
  | [column] =>
    let column ← moveBy? totals.column column
    return ({ totals with column }, ⟨column, none⟩)
  | column :: source :: line :: originColumn :: more =>
    let column ← moveBy? totals.column column
    let source ← moveBy? totals.source source
    let line ← moveBy? totals.origin.line line
    let originColumn ← moveBy? totals.origin.column originColumn
    let origin := ⟨line, originColumn⟩
    match more with
    | [] =>
      return (⟨column, source, origin, totals.name⟩,
        ⟨column, some ⟨source, origin, none⟩⟩)
    | [name] =>
      let name ← moveBy? totals.name name
      return (⟨column, source, origin, name⟩,
        ⟨column, some ⟨source, origin, some name⟩⟩)
    | _ => none
  | _ => none

def readSegments? (totals : Totals) : List (List Char) → Option (Totals × List Entry)
  | [] => some (totals, [])
  | text :: rest => do
    let (totals, entry) ← readSegment? totals text
    let (totals, entries) ← readSegments? totals rest
    return (totals, entry :: entries)

/-- The segments of a line, which starts anew at column zero. -/
def readLine? (totals : Totals) (text : List Char) : Option (Totals × List Entry) :=
  readSegments? { totals with column := 0 }
    (if text = [] then [] else Text.splitAt ',' text)

def readLines? (totals : Totals) : List (List Char) → Option (List (List Entry))
  | [] => some []
  | text :: rest => do
    let (totals, entries) ← readLine? totals text
    let lines ← readLines? totals rest
    return entries :: lines

/-- The segments of a mappings text, line by line. -/
def readMappings? (text : List Char) : Option (List (List Entry)) :=
  readLines? ⟨0, 0, ⟨0, 0⟩, 0⟩ (Text.splitAt ';' text)

/-- A segment that was collected, as it reads: it leads to the one source there is. -/
def Entry.ofSegment (segment : Segment) : Entry :=
  ⟨segment.column, some ⟨0, segment.origin, none⟩⟩

/-! ## One number -/

theorem unzigzag_zigzag (value : Int) : unzigzag (Vlq.zigzag value) = value := by
  rw [unzigzag, Vlq.zigzag]
  split <;> split <;> omega

theorem digitValue?_digit : ∀ n < 64, Base64.digitValue? (Base64.digit n) = some n := by
  decide

theorem digits_lt {n d : Nat} (h : d ∈ Vlq.digits n) : d < 64 := by
  fun_induction Vlq.digits n with
  | case1 n hn =>
      rw [List.mem_singleton] at h
      omega
  | case2 n hn ih =>
      rcases List.mem_cons.mp h with rfl | h
      · omega
      · exact ih h

theorem readNumbers?_digit {d : Nat} (hd : d < 64) (value weight : Nat)
    (rest : List Char) :
    readNumbers? value weight (Base64.digit d :: rest) =
      if d < 32 then
        (readNumbers? 0 1 rest).map (unzigzag (value + d % 32 * weight) :: ·)
      else readNumbers? (value + d % 32 * weight) (weight * 32) rest := by
  rw [readNumbers?, digitValue?_digit d hd, Option.bind_eq_bind, Option.bind_some]
  cases readNumbers? 0 1 rest <;> rfl

/-- The groups of a number add up to it, whatever stands behind them. -/
theorem readNumbers?_digits (n value weight : Nat) (rest : List Char) :
    readNumbers? value weight ((Vlq.digits n).map Base64.digit ++ rest) =
      (readNumbers? 0 1 rest).map (unzigzag (value + n * weight) :: ·) := by
  fun_induction Vlq.digits n generalizing value weight with
  | case1 n hn =>
      rw [List.map_singleton, List.singleton_append, readNumbers?_digit (by omega),
        if_pos hn, Nat.mod_eq_of_lt hn]
  | case2 n hn ih =>
      have hmod : (n % 32 + 32) % 32 = n % 32 := by omega
      have hsum : value + n % 32 * weight + n / 32 * (weight * 32) =
          value + n * weight := by
        have hn := congrArg (· * weight) (Nat.mod_add_div n 32)
        simp only [Nat.add_mul] at hn
        rw [← hn, Nat.add_assoc, Nat.mul_comm 32, Nat.mul_assoc (n / 32),
          Nat.mul_comm 32]
      rw [List.map_cons, List.cons_append, readNumbers?_digit (by omega),
        if_neg (by omega), hmod, ih, hsum]

theorem readNumbers?_encode (value : Int) (rest : List Char) :
    readNumbers? 0 1 (Vlq.encode value ++ rest) =
      (readNumbers? 0 1 rest).map (value :: ·) := by
  rw [Vlq.encode, readNumbers?_digits, Nat.zero_add, Nat.mul_one, unzigzag_zigzag]

theorem readNumbers?_nil : readNumbers? 0 1 [] = some [] := rfl

/-- No digit is a separator. -/
theorem ne_separator_of_mem_encode {value : Int} {c : Char} (h : c ∈ Vlq.encode value) :
    c ≠ ',' ∧ c ≠ ';' := by
  obtain ⟨d, hd, rfl⟩ := List.mem_map.mp h
  have hdigit : ∀ n < 64, Base64.digit n ≠ ',' ∧ Base64.digit n ≠ ';' := by decide
  exact hdigit d (digits_lt hd)

theorem encode_ne_nil (value : Int) : Vlq.encode value ≠ [] := by
  rw [Vlq.encode, Vlq.digits]
  split <;> simp

/-! ## One segment -/

theorem moveBy?_sub (n m : Nat) : moveBy? n ((m : Int) - n) = some m := by
  rw [moveBy?, if_pos (by omega)]
  exact congrArg some (by omega)

theorem readSegment?_encodeSegment (totals : Totals) (hsource : totals.source = 0)
    (segment : Segment) :
    readSegment? totals (encodeSegment totals.column totals.origin segment) =
      some (⟨segment.column, 0, segment.origin, totals.name⟩,
        .ofSegment segment) := by
  have hnumbers : readNumbers? 0 1 (encodeSegment totals.column totals.origin segment) =
      some [(segment.column - totals.column : Int), 0,
        (segment.origin.line - totals.origin.line : Int),
        (segment.origin.column - totals.origin.column : Int)] := by
    rw [← List.append_nil (encodeSegment totals.column totals.origin segment),
      encodeSegment]
    simp only [List.append_assoc, readNumbers?_encode, readNumbers?_nil, Option.map_some]
  have hzero : moveBy? totals.source 0 = some 0 := by
    rw [hsource]
    rfl
  simp [readSegment?, hnumbers, moveBy?_sub, hzero, Entry.ofSegment]

theorem ne_separator_of_mem_encodeSegment {column : Nat} {origin : Position}
    {segment : Segment} {c : Char} (h : c ∈ encodeSegment column origin segment) :
    c ≠ ',' ∧ c ≠ ';' := by
  simp only [encodeSegment, List.mem_append] at h
  rcases h with ((h | h) | h) | h <;> exact ne_separator_of_mem_encode h

/-! ## One line -/

theorem encodeSegments_cons (column : Nat) (origin : Position) (segment : Segment)
    (rest : List Segment) :
    encodeSegments true column origin (segment :: rest) =
      encodeSegment column origin segment
        ++ encodeSegments false segment.column segment.origin rest := by
  simp [encodeSegments]

theorem encodeSegments_comma (column : Nat) (origin : Position) (segment : Segment)
    (rest : List Segment) :
    encodeSegments false column origin (segment :: rest) =
      ',' :: encodeSegments true column origin (segment :: rest) := by
  simp [encodeSegments]

theorem lastOrigin_cons (origin : Position) (segment : Segment) (rest : List Segment) :
    lastOrigin origin (segment :: rest) = lastOrigin segment.origin rest := by
  rw [lastOrigin, List.map_cons, List.getLastD_cons, lastOrigin]

theorem readSegments?_encodeSegments (totals : Totals) (hsource : totals.source = 0)
    (segment : Segment) (rest : List Segment) :
    ∃ column, readSegments? totals (Text.splitAt ','
        (encodeSegments true totals.column totals.origin (segment :: rest))) =
      some (⟨column, 0, lastOrigin totals.origin (segment :: rest), totals.name⟩,
        (segment :: rest).map Entry.ofSegment) := by
  induction rest generalizing totals segment with
  | nil =>
      have hcomma : ',' ∉ encodeSegment totals.column totals.origin segment :=
        fun h => (ne_separator_of_mem_encodeSegment h).1 rfl
      refine ⟨segment.column, ?_⟩
      rw [encodeSegments_cons, encodeSegments, List.append_nil,
        Text.splitAt_of_notMem hcomma]
      simp [readSegments?, readSegment?_encodeSegment totals hsource, lastOrigin]
  | cons next rest ih =>
      have hcomma : ',' ∉ encodeSegment totals.column totals.origin segment :=
        fun h => (ne_separator_of_mem_encodeSegment h).1 rfl
      obtain ⟨column, hrest⟩ := ih
        ⟨segment.column, 0, segment.origin, totals.name⟩ rfl next
      refine ⟨column, ?_⟩
      rw [encodeSegments_cons, encodeSegments_comma, Text.splitAt_append_cons hcomma,
        readSegments?, readSegment?_encodeSegment totals hsource, lastOrigin_cons]
      simp only [Option.bind_eq_bind, Option.bind_some, hrest]
      rfl

theorem encodeSegments_ne_nil (column : Nat) (origin : Position) (segment : Segment)
    (rest : List Segment) :
    encodeSegments true column origin (segment :: rest) ≠ [] := by
  simp [encodeSegments_cons, encodeSegment, encode_ne_nil]

theorem semicolon_notMem_encodeSegments (isFirst : Bool) (column : Nat)
    (origin : Position) (line : List Segment) :
    ';' ∉ encodeSegments isFirst column origin line := by
  induction line generalizing isFirst column origin with
  | nil => simp [encodeSegments]
  | cons segment rest ih =>
      have hfirst : ';' ∉ (if isFirst then [] else [','] : List Char) := by
        cases isFirst <;> decide
      have hsegment : ';' ∉ encodeSegment column origin segment :=
        fun h => (ne_separator_of_mem_encodeSegment h).2 rfl
      rw [encodeSegments, List.mem_append, List.mem_append]
      exact not_or.mpr ⟨not_or.mpr ⟨hfirst, hsegment⟩, ih false _ _⟩

/-- A line reads back, and the reader goes on from the place the writer goes on from. -/
theorem readLine?_encodeSegments (totals : Totals) (hsource : totals.source = 0)
    (line : List Segment) :
    ∃ column, readLine? totals (encodeSegments true 0 totals.origin line) =
      some (⟨column, 0, lastOrigin totals.origin line, totals.name⟩,
        line.map Entry.ofSegment) := by
  cases line with
  | nil =>
      refine ⟨0, ?_⟩
      rw [readLine?, encodeSegments, if_pos rfl, readSegments?, hsource]
      rfl
  | cons segment rest =>
      rw [readLine?, if_neg (encodeSegments_ne_nil 0 totals.origin segment rest)]
      exact readSegments?_encodeSegments { totals with column := 0 } hsource segment rest

/-! ## All lines -/

theorem readLines?_encodeLines (totals : Totals) (hsource : totals.source = 0)
    (line : List Segment) (rest : List (List Segment)) :
    readLines? totals
        (Text.splitAt ';' (encodeLines true totals.origin (line :: rest))) =
      some ((line :: rest).map (·.map Entry.ofSegment)) := by
  induction rest generalizing totals line with
  | nil =>
      obtain ⟨column, hline⟩ := readLine?_encodeSegments totals hsource line
      have htext : encodeLines true totals.origin [line] =
          encodeSegments true 0 totals.origin line := by simp [encodeLines]
      rw [htext, Text.splitAt_of_notMem (semicolon_notMem_encodeSegments _ _ _ _)]
      simp [readLines?, hline]
  | cons next rest ih =>
      obtain ⟨column, hline⟩ := readLine?_encodeSegments totals hsource line
      have hrest := ih ⟨column, 0, lastOrigin totals.origin line, totals.name⟩ rfl next
      have hsemicolon : encodeLines true totals.origin (line :: next :: rest) =
          encodeSegments true 0 totals.origin line
            ++ ';' :: encodeLines true (lastOrigin totals.origin line)
              (next :: rest) := by
        simp [encodeLines]
      rw [hsemicolon, Text.splitAt_append_cons (semicolon_notMem_encodeSegments _ _ _ _),
        readLines?, hline]
      simp only [Option.bind_eq_bind, Option.bind_some, hrest]
      rfl

/-- What is written for the lines of a text reads back as their segments. -/
theorem readMappings?_encodeMappings {lines : List (List Segment)} (h : lines ≠ []) :
    readMappings? (encodeMappings lines) = some (lines.map (·.map Entry.ofSegment)) := by
  obtain ⟨line, rest, rfl⟩ := List.exists_cons_of_ne_nil h
  exact readLines?_encodeLines _ rfl line rest

example : readMappings? (encodeMappings [[], [⟨2, ⟨0, 0⟩⟩, ⟨3, ⟨7, 40⟩⟩]]) =
    some [[], [⟨2, some ⟨0, ⟨0, 0⟩, none⟩⟩, ⟨3, some ⟨0, ⟨7, 40⟩, none⟩⟩]] := by
  decide +kernel

end ParseView.SourceMap
